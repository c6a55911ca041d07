import Mathlib.Data.Rat.Cast.Order
import SignalFoundry.Library.Fallible
import SignalFoundry.Library.TokenBucket

/-!
# Admission control

The controller of the local service admits requests of two lanes. It has a token
bucket for each lane and counts the requests that are active, all together and
those of the data lane; the data lane may be held below the global limit, so that
probes find headroom when the data routes are saturated. Clock readings and rates
are rationals.
-/

namespace Admission

open Fallible

/-! ## Limits and decisions -/

inductive AdmissionLane where
  | data
  | operations
  deriving DecidableEq, Repr

inductive AdmissionRejection where
  | rateLimited
  | dataConcurrency
  | globalConcurrency
  | shuttingDown
  deriving DecidableEq, Repr

/-- `AdmissionLimits`, with the bounds that its construction checks. -/
structure AdmissionLimits where
  globalConcurrency : ℤ
  dataConcurrency : ℤ
  apiRatePerSecond : ℚ
  apiBurst : ℤ
  operationsRatePerSecond : ℚ
  operationsBurst : ℤ
  globalConcurrency_bounds : 1 ≤ globalConcurrency ∧ globalConcurrency ≤ 1024
  dataConcurrency_bounds : 1 ≤ dataConcurrency ∧ dataConcurrency ≤ 1024
  apiBurst_bounds : 1 ≤ apiBurst ∧ apiBurst ≤ 10000
  operationsBurst_bounds : 1 ≤ operationsBurst ∧ operationsBurst ≤ 1000
  data_le_global : dataConcurrency ≤ globalConcurrency
  apiRate_bounds : 1 / 100 ≤ apiRatePerSecond ∧ apiRatePerSecond ≤ 10000
  operationsRate_bounds : 1 / 100 ≤ operationsRatePerSecond ∧ operationsRatePerSecond ≤ 10000

namespace AdmissionLimits

variable (limits : AdmissionLimits)

def rate : AdmissionLane → ℚ
  | .data => limits.apiRatePerSecond
  | .operations => limits.operationsRatePerSecond

def burst : AdmissionLane → ℚ
  | .data => limits.apiBurst
  | .operations => limits.operationsBurst

theorem rate_nonneg (lane : AdmissionLane) : 0 ≤ limits.rate lane := by
  cases lane with
  | data => exact le_trans (by norm_num) limits.apiRate_bounds.1
  | operations => exact le_trans (by norm_num) limits.operationsRate_bounds.1

theorem burst_nonneg (lane : AdmissionLane) : 0 ≤ limits.burst lane := by
  cases lane with
  | data => exact Int.cast_nonneg (zero_le_one.trans limits.apiBurst_bounds.1)
  | operations => exact Int.cast_nonneg (zero_le_one.trans limits.operationsBurst_bounds.1)

end AdmissionLimits

/-- An accepted decision carries no reason. -/
structure AdmissionDecision where
  accepted : Bool
  lane : AdmissionLane
  rejection : Option AdmissionRejection
  accepted_eq : accepted = rejection.isNone
  deriving DecidableEq

namespace AdmissionDecision

def grant (lane : AdmissionLane) : AdmissionDecision := ⟨true, lane, none, rfl⟩

def reject (lane : AdmissionLane) (reason : AdmissionRejection) : AdmissionDecision :=
  ⟨false, lane, some reason, rfl⟩

end AdmissionDecision

/-! ## The controller -/

/-- `_TokenBucket.consume`. -/
def consume (bucket : TokenBucket ℚ) (now : ℚ) : Except PyError (Bool × TokenBucket ℚ) := do
  refuseIf (now < 0) (PyError.runtimeError
    "monotonic admission clock returned an invalid value")
  refuseIf (now < bucket.updatedAt) (PyError.runtimeError "monotonic admission clock regressed")
  return bucket.take now

theorem consume_eq_ok {bucket : TokenBucket ℚ} {now : ℚ} (hnow : 0 ≤ now)
    (hlater : bucket.updatedAt ≤ now) : consume bucket now = .ok (bucket.take now) := by
  rw [consume, refuseIf_of_not (not_lt.mpr hnow), refuseIf_of_not (not_lt.mpr hlater)]
  rfl

/-- `AdmissionController`. -/
structure AdmissionController where
  limits : AdmissionLimits
  buckets : AdmissionLane → TokenBucket ℚ
  accepting : Bool
  activeTotal : ℤ
  activeData : ℤ

namespace AdmissionController

/-- `AdmissionController.__init__` at a first reading of the clock. -/
def init (limits : AdmissionLimits) (initial : ℚ) : Except PyError AdmissionController := do
  refuseIf (initial < 0) (PyError.valueError "clock must return a finite non-negative float")
  return {
    limits := limits
    buckets := fun lane => ⟨limits.rate lane, limits.burst lane, limits.burst lane, initial⟩
    accepting := true
    activeTotal := 0
    activeData := 0 }

/-- `AdmissionController.try_acquire`, at a reading of the clock. -/
def tryAcquire (c : AdmissionController) (lane : AdmissionLane) (now : ℚ) :
    Except PyError (AdmissionDecision × AdmissionController) :=
  if c.accepting = false then .ok (.reject lane .shuttingDown, c)
  else if c.limits.globalConcurrency ≤ c.activeTotal then
    .ok (.reject lane .globalConcurrency, c)
  else if lane = .data ∧ c.limits.dataConcurrency ≤ c.activeData then
    .ok (.reject lane .dataConcurrency, c)
  else do
    let (taken, bucket) ← consume (c.buckets lane) now
    let read := { c with buckets := Function.update c.buckets lane bucket }
    if taken then
      return (.grant lane, { read with
        activeTotal := c.activeTotal + 1
        activeData := if lane = .data then c.activeData + 1 else c.activeData })
    else return (.reject lane .rateLimited, read)

/-- `AdmissionController.release`. -/
def release (c : AdmissionController) (lane : AdmissionLane) :
    Except PyError AdmissionController := do
  refuseIf (c.activeTotal ≤ 0) (PyError.runtimeError "global admission accounting underflow")
  if lane = .data then
    refuseIf (c.activeData ≤ 0) (PyError.runtimeError "data admission accounting underflow")
    return { c with activeData := c.activeData - 1, activeTotal := c.activeTotal - 1 }
  else
    refuseIf (c.activeTotal - c.activeData ≤ 0)
      (PyError.runtimeError "operations admission accounting underflow")
    return { c with activeTotal := c.activeTotal - 1 }

/-- `AdmissionController.begin_shutdown`. -/
def beginShutdown (c : AdmissionController) : AdmissionController := { c with accepting := false }

variable {c c' : AdmissionController} {lane : AdmissionLane} {now : ℚ}
  {decision : AdmissionDecision}

/-- What an attempt decides and leaves. -/
inductive Attempt (c : AdmissionController) (lane : AdmissionLane) (now : ℚ) :
    AdmissionDecision → AdmissionController → Prop where
  | shuttingDown (h : c.accepting = false) : Attempt c lane now (.reject lane .shuttingDown) c
  | globalConcurrency (h : c.limits.globalConcurrency ≤ c.activeTotal) :
      Attempt c lane now (.reject lane .globalConcurrency) c
  | dataConcurrency (hlane : lane = .data) (h : c.limits.dataConcurrency ≤ c.activeData) :
      Attempt c lane now (.reject lane .dataConcurrency) c
  | rateLimited (h : ((c.buckets lane).take now).1 = false) :
      Attempt c lane now (.reject lane .rateLimited)
        { c with buckets := Function.update c.buckets lane ((c.buckets lane).take now).2 }
  | grant (hglobal : c.activeTotal < c.limits.globalConcurrency)
      (hdata : lane = .data → c.activeData < c.limits.dataConcurrency)
      (h : ((c.buckets lane).take now).1 = true) :
      Attempt c lane now (.grant lane) { c with
        buckets := Function.update c.buckets lane ((c.buckets lane).take now).2
        activeTotal := c.activeTotal + 1
        activeData := if lane = .data then c.activeData + 1 else c.activeData }

/-- At a reading that the bucket accepts an attempt does not raise. -/
theorem exists_attempt (hnow : 0 ≤ now) (hlater : (c.buckets lane).updatedAt ≤ now) :
    ∃ decision c', c.tryAcquire lane now = .ok (decision, c') ∧
      Attempt c lane now decision c' := by
  unfold tryAcquire
  by_cases haccepting : c.accepting = false
  · exact ⟨_, _, if_pos haccepting, .shuttingDown haccepting⟩
  rw [if_neg haccepting]
  by_cases hglobal : c.limits.globalConcurrency ≤ c.activeTotal
  · exact ⟨_, _, if_pos hglobal, .globalConcurrency hglobal⟩
  rw [if_neg hglobal]
  by_cases hdata : lane = .data ∧ c.limits.dataConcurrency ≤ c.activeData
  · exact ⟨_, _, if_pos hdata, .dataConcurrency hdata.1 hdata.2⟩
  rw [if_neg hdata, consume_eq_ok hnow hlater]
  cases htaken : ((c.buckets lane).take now).1 with
  | false => exact ⟨_, _, by simp [htaken], .rateLimited htaken⟩
  | true =>
      refine ⟨_, _, by simp [htaken], .grant (not_le.mp hglobal) (fun hlane => ?_) htaken⟩
      exact not_le.mp fun hle => hdata ⟨hlane, hle⟩

theorem attempt_of_tryAcquire (hnow : 0 ≤ now) (hlater : (c.buckets lane).updatedAt ≤ now)
    (h : c.tryAcquire lane now = .ok (decision, c')) : Attempt c lane now decision c' := by
  obtain ⟨decided, next, heq, hattempt⟩ := exists_attempt (c := c) hnow hlater
  cases heq.symm.trans h
  exact hattempt

end AdmissionController

/-! ## Runs -/

/-- What callers of the controller see: an attempt at a reading of the clock, with
its decision, a release, and the shutdown. -/
inductive Event where
  | attempted (now : ℚ) (decision : AdmissionDecision)
  | released (lane : AdmissionLane)
  | shutDown

/-- Whether an event accepts a request of a lane. -/
def Event.accepts (lane : AdmissionLane) : Event → Bool
  | attempted _ decision => decision.accepted && decision.lane = lane
  | _ => false

def Event.releases (lane : AdmissionLane) : Event → Bool
  | released other => other = lane
  | _ => false

/-- Whether an event accepts a request of a lane in a time interval. -/
def Event.acceptsIn (lane : AdmissionLane) (s t : ℚ) : Event → Bool
  | attempted now decision => decision.accepted && decision.lane = lane && s ≤ now && now ≤ t
  | _ => false

/-- The active requests of a lane: those accepted and not released, in a log
whose newest event is first. -/
def active (lane : AdmissionLane) (log : List Event) : ℤ :=
  log.countP (·.accepts lane) - log.countP (·.releases lane)

/-- The newest reading of the clock. -/
def latest (initial : ℚ) : List Event → ℚ
  | [] => initial
  | .attempted now _ :: _ => now
  | _ :: log => latest initial log

/-- The runs of a controller: attempts at readings that do not decrease, releases
of requests that are active, and shutdowns, in any order. -/
inductive Run (limits : AdmissionLimits) (initial : ℚ) : List Event → AdmissionController → Prop
  | start {c : AdmissionController} (h : AdmissionController.init limits initial = .ok c) :
      Run limits initial [] c
  | attempt {log : List Event} {c c' : AdmissionController} {lane : AdmissionLane} {now : ℚ}
      {decision : AdmissionDecision} (run : Run limits initial log c)
      (hnow : latest initial log ≤ now) (h : c.tryAcquire lane now = .ok (decision, c')) :
      Run limits initial (.attempted now decision :: log) c'
  | release {log : List Event} {c c' : AdmissionController} {lane : AdmissionLane}
      (run : Run limits initial log c) (hactive : 0 < active lane log)
      (h : c.release lane = .ok c') : Run limits initial (.released lane :: log) c'
  | shutdown {log : List Event} {c : AdmissionController} (run : Run limits initial log c) :
      Run limits initial (.shutDown :: log) c.beginShutdown

variable {limits : AdmissionLimits} {initial : ℚ} {log : List Event} {c c' : AdmissionController}
  {lane : AdmissionLane} {now : ℚ} {decision : AdmissionDecision} {event : Event}

@[simp] theorem active_nil (lane : AdmissionLane) : active lane [] = 0 := rfl

theorem active_cons (lane : AdmissionLane) (event : Event) (log : List Event) :
    active lane (event :: log) = active lane log + (if event.accepts lane then 1 else 0) -
      (if event.releases lane then 1 else 0) := by
  unfold active
  rw [List.countP_cons, List.countP_cons]
  push_cast
  ring

/-- An event that neither accepts nor releases leaves the active requests. -/
theorem active_cons_of_quiet (haccepts : event.accepts lane = false)
    (hreleases : event.releases lane = false) : active lane (event :: log) = active lane log := by
  simp [active_cons, haccepts, hreleases]

/-! ## The counters -/

/-- The counters of a controller are those of its log and in their limits. -/
structure Counted (limits : AdmissionLimits) (log : List Event) (c : AdmissionController) :
    Prop where
  limits_eq : c.limits = limits
  total : c.activeTotal = active .data log + active .operations log
  data : c.activeData = active .data log
  nonneg : ∀ lane, 0 ≤ active lane log
  total_le : active .data log + active .operations log ≤ limits.globalConcurrency
  data_le : active .data log ≤ limits.dataConcurrency

theorem Counted.start (h : AdmissionController.init limits initial = .ok c) :
    Counted limits [] c := by
  obtain ⟨-, rfl⟩ : ¬ initial < 0 ∧ _ = c := by simpa [AdmissionController.init] using h
  exact ⟨rfl, rfl, rfl, fun _ => le_rfl, zero_le_one.trans limits.globalConcurrency_bounds.1,
    zero_le_one.trans limits.dataConcurrency_bounds.1⟩

/-- An event that neither accepts nor releases, and after which the counters are
as before. -/
theorem Counted.quiet (h : Counted limits log c) (hlimits : c'.limits = c.limits)
    (htotal : c'.activeTotal = c.activeTotal) (hdata : c'.activeData = c.activeData)
    (haccepts : ∀ lane, event.accepts lane = false)
    (hreleases : ∀ lane, event.releases lane = false) : Counted limits (event :: log) c' := by
  have hactive : ∀ lane, active lane (event :: log) = active lane log :=
    fun lane => active_cons_of_quiet (haccepts lane) (hreleases lane)
  constructor
  · rw [hlimits, h.limits_eq]
  · rw [htotal, h.total, hactive, hactive]
  · rw [hdata, h.data, hactive]
  · intro lane
    rw [hactive]
    exact h.nonneg lane
  · rw [hactive, hactive]
    exact h.total_le
  · rw [hactive]
    exact h.data_le

theorem Counted.attempt (h : Counted limits log c)
    (hattempt : c.Attempt lane now decision c') :
    Counted limits (.attempted now decision :: log) c' := by
  cases hattempt with
  | shuttingDown _ => exact h.quiet rfl rfl rfl (fun _ => rfl) (fun _ => rfl)
  | globalConcurrency _ => exact h.quiet rfl rfl rfl (fun _ => rfl) (fun _ => rfl)
  | dataConcurrency _ _ => exact h.quiet rfl rfl rfl (fun _ => rfl) (fun _ => rfl)
  | rateLimited _ => exact h.quiet rfl rfl rfl (fun _ => rfl) (fun _ => rfl)
  | grant hglobal hdata _ =>
      have hactive : ∀ other, active other (.attempted now (.grant lane) :: log) =
          active other log + if lane = other then 1 else 0 := by
        intro other
        simp [active_cons, Event.accepts, Event.releases, AdmissionDecision.grant]
      rw [h.limits_eq, h.total] at hglobal
      rw [h.limits_eq, h.data] at hdata
      have hnonneg := h.nonneg
      have htotal := h.total
      have hcount := h.data
      have hle := h.data_le
      refine ⟨h.limits_eq, ?_, ?_, fun other => ?_, ?_, ?_⟩
      · rw [hactive, hactive]
        cases lane <;> simp <;> omega
      · rw [hactive]
        cases lane <;> simp <;> omega
      · rw [hactive]
        have := hnonneg other
        split <;> omega
      · rw [hactive, hactive]
        cases lane <;> simp <;> omega
      · rw [hactive]
        cases lane with
        | data => simpa using Int.add_one_le_iff.mpr (hdata rfl)
        | operations => simpa using hle

/-- A release of an active request does not raise. -/
theorem Counted.exists_release (h : Counted limits log c) (hactive : 0 < active lane log) :
    ∃ c', c.release lane = .ok c' := by
  have hdata := h.nonneg .data
  have hoperations := h.nonneg .operations
  have htotal := h.total
  have hcount := h.data
  unfold AdmissionController.release
  cases lane with
  | data =>
      rw [refuseIf_of_not (by omega), ok_bind, if_pos rfl, refuseIf_of_not (by omega)]
      exact ⟨_, rfl⟩
  | operations =>
      rw [refuseIf_of_not (by omega), ok_bind, if_neg (by simp), refuseIf_of_not (by omega)]
      exact ⟨_, rfl⟩

theorem release_eq_ok (h : c.release lane = .ok c') :
    c' = { c with
      activeTotal := c.activeTotal - 1
      activeData := if lane = .data then c.activeData - 1 else c.activeData } := by
  cases lane <;> simp [AdmissionController.release] at h <;> simp [h]

theorem Counted.release (h : Counted limits log c) (hactive : 0 < active lane log)
    (hrelease : c.release lane = .ok c') : Counted limits (.released lane :: log) c' := by
  have hnext : ∀ other, active other (.released lane :: log) =
      active other log - if lane = other then 1 else 0 := by
    intro other
    simp [active_cons, Event.accepts, Event.releases]
  have htotal := h.total
  have hcount := h.data
  have hle := h.total_le
  have hdata := h.data_le
  rw [release_eq_ok hrelease]
  refine ⟨h.limits_eq, ?_, ?_, fun other => ?_, ?_, ?_⟩
  · rw [hnext, hnext]
    cases lane <;> simp <;> omega
  · rw [hnext]
    cases lane <;> simp <;> omega
  · rw [hnext]
    have := h.nonneg other
    by_cases heq : lane = other
    · subst heq
      simp
      omega
    · simpa [heq] using this
  · rw [hnext, hnext]
    cases lane <;> simp <;> omega
  · rw [hnext]
    cases lane <;> simp <;> omega

/-! ## The buckets -/

/-- A bucket has given what the log accepts of its lane, in every interval. -/
structure Metered (limits : AdmissionLimits) (initial : ℚ) (lane : AdmissionLane)
    (log : List Event) (bucket : TokenBucket ℚ) : Prop where
  rate_eq : bucket.rate = limits.rate lane
  capacity_eq : bucket.capacity = limits.burst lane
  filled : bucket.Filled
  updatedAt_le : bucket.updatedAt ≤ latest initial log
  window : ∀ s t, s ≤ t → bucket.Window s t (log.countP (·.acceptsIn lane s t))

variable {bucket : TokenBucket ℚ}

theorem Metered.quiet (h : Metered limits initial lane log bucket)
    (haccepts : ∀ s t, event.acceptsIn lane s t = false)
    (hlatest : latest initial log ≤ latest initial (event :: log)) :
    Metered limits initial lane (event :: log) bucket where
  rate_eq := h.rate_eq
  capacity_eq := h.capacity_eq
  filled := h.filled
  updatedAt_le := h.updatedAt_le.trans hlatest
  window s t hst := by
    rw [List.countP_cons_of_neg (by simp [haccepts])]
    exact h.window s t hst

/-- A reading of the bucket decides on the request. -/
theorem Metered.take (h : Metered limits initial lane log bucket)
    (hnow : latest initial log ≤ now) (hlane : decision.lane = lane)
    (haccepted : decision.accepted = (bucket.take now).1) :
    Metered limits initial lane (.attempted now decision :: log) (bucket.take now).2 where
  rate_eq := by rw [TokenBucket.rate_take, h.rate_eq]
  capacity_eq := by rw [TokenBucket.capacity_take, h.capacity_eq]
  filled := h.filled.take (h.updatedAt_le.trans hnow)
  updatedAt_le := le_of_eq (TokenBucket.updatedAt_take bucket now)
  window s t hst := by
    have hwindow := (h.window s t hst).take h.filled (h.updatedAt_le.trans hnow)
    rw [List.countP_cons]
    simpa [Event.acceptsIn, hlane, haccepted, and_assoc] using hwindow

theorem Metered.start (h : AdmissionController.init limits initial = .ok c)
    (lane : AdmissionLane) : Metered limits initial lane [] (c.buckets lane) := by
  obtain ⟨-, rfl⟩ : ¬ initial < 0 ∧ _ = c := by simpa [AdmissionController.init] using h
  have hfilled : TokenBucket.Filled
      (⟨limits.rate lane, limits.burst lane, limits.burst lane, initial⟩ : TokenBucket ℚ) :=
    ⟨limits.rate_nonneg lane, limits.burst_nonneg lane, le_rfl⟩
  exact ⟨rfl, rfl, hfilled, le_rfl, fun s t hst => hfilled.window hst⟩

theorem Metered.attempt (h : ∀ lane, Metered limits initial lane log (c.buckets lane))
    (hnow : latest initial log ≤ now) (hattempt : c.Attempt lane now decision c')
    (other : AdmissionLane) :
    Metered limits initial other (.attempted now decision :: log) (c'.buckets other) := by
  cases hattempt with
  | shuttingDown _ => exact (h other).quiet (fun _ _ => rfl) hnow
  | globalConcurrency _ => exact (h other).quiet (fun _ _ => rfl) hnow
  | dataConcurrency _ _ => exact (h other).quiet (fun _ _ => rfl) hnow
  | rateLimited htaken =>
      by_cases heq : other = lane
      · subst heq
        simp only [Function.update_self]
        exact (h other).take hnow rfl htaken.symm
      · simp only [Function.update_of_ne heq]
        exact (h other).quiet (fun _ _ => rfl) hnow
  | grant _ _ htaken =>
      by_cases heq : other = lane
      · subst heq
        simp only [Function.update_self]
        exact (h other).take hnow rfl htaken.symm
      · simp only [Function.update_of_ne heq]
        refine (h other).quiet (fun _ _ => ?_) hnow
        simp [Event.acceptsIn, AdmissionDecision.grant, Ne.symm heq]

/-! ## Every run -/

theorem Run.latest_nonneg (run : Run limits initial log c) : 0 ≤ latest initial log := by
  induction run with
  | start h =>
      obtain ⟨hinitial, -⟩ : ¬ initial < 0 ∧ _ := by simpa [AdmissionController.init] using h
      exact not_lt.mp hinitial
  | attempt _ hnow _ ih => exact ih.trans hnow
  | release _ _ _ ih => exact ih
  | shutdown _ ih => exact ih

theorem Run.metered (run : Run limits initial log c) (lane : AdmissionLane) :
    Metered limits initial lane log (c.buckets lane) := by
  induction run generalizing lane with
  | start h => exact Metered.start h lane
  | @attempt _ _ _ asked _ _ run hnow h ih =>
      have hattempt := AdmissionController.attempt_of_tryAcquire (run.latest_nonneg.trans hnow)
        ((ih asked).updatedAt_le.trans hnow) h
      exact Metered.attempt ih hnow hattempt lane
  | release _ _ h ih =>
      rw [release_eq_ok h]
      exact (ih lane).quiet (fun _ _ => rfl) le_rfl
  | shutdown _ ih => exact (ih lane).quiet (fun _ _ => rfl) le_rfl

theorem Run.attempt_of_tryAcquire (run : Run limits initial log c)
    (hnow : latest initial log ≤ now) (h : c.tryAcquire lane now = .ok (decision, c')) :
    c.Attempt lane now decision c' :=
  AdmissionController.attempt_of_tryAcquire (run.latest_nonneg.trans hnow)
    ((run.metered lane).updatedAt_le.trans hnow) h

theorem Run.counted (run : Run limits initial log c) : Counted limits log c := by
  induction run with
  | start h => exact Counted.start h
  | attempt run hnow h ih => exact ih.attempt (run.attempt_of_tryAcquire hnow h)
  | release _ hactive h ih => exact ih.release hactive h
  | shutdown _ ih => exact ih.quiet rfl rfl rfl (fun _ => rfl) (fun _ => rfl)

/-- An attempt does not find the global limit reached while the operations lane
is in its headroom. -/
theorem Counted.not_globalConcurrency (h : Counted limits log c)
    (hheadroom : active .operations log < limits.globalConcurrency - limits.dataConcurrency)
    (hattempt : c.Attempt lane now decision c') :
    decision.rejection ≠ some .globalConcurrency := by
  cases hattempt with
  | globalConcurrency hfull =>
      have hle := h.data_le
      rw [h.limits_eq, h.total] at hfull
      omega
  | shuttingDown _ => simp [AdmissionDecision.reject]
  | dataConcurrency _ _ => simp [AdmissionDecision.reject]
  | rateLimited _ => simp [AdmissionDecision.reject]
  | grant _ _ _ => simp [AdmissionDecision.grant]

theorem AdmissionController.Attempt.buckets_eq (h : c.Attempt lane now decision c')
    (hrejection : decision.rejection ∈
      [some .shuttingDown, some .globalConcurrency, some .dataConcurrency]) :
    c'.buckets = c.buckets := by
  cases h with
  | shuttingDown _ => rfl
  | globalConcurrency _ => rfl
  | dataConcurrency _ _ => rfl
  | rateLimited _ => simp [AdmissionDecision.reject] at hrejection
  | grant _ _ _ => simp [AdmissionDecision.grant] at hrejection

/-- After every run the active requests are in their limits, a release of an active
request and an attempt at a later reading do not raise, an operations request in
the headroom is not refused for the global limit, a refusal for concurrency or
shutdown takes no token, and in every interval a lane accepts at most its burst
and what its rate gives. -/
theorem admission_bounds (run : Run limits initial log c) :
    (active .data log ≤ limits.dataConcurrency ∧
      active .data log + active .operations log ≤ limits.globalConcurrency) ∧
    (∀ lane, 0 < active lane log → ∃ c', c.release lane = .ok c') ∧
    (∀ lane now, latest initial log ≤ now → ∃ decision c',
      c.tryAcquire lane now = .ok (decision, c') ∧
      (lane = .operations →
        active .operations log < limits.globalConcurrency - limits.dataConcurrency →
          decision.rejection ≠ some .globalConcurrency) ∧
      (decision.rejection ∈ [some .shuttingDown, some .globalConcurrency, some .dataConcurrency] →
        c'.buckets = c.buckets)) ∧
    (∀ lane s t, s ≤ t →
      (log.countP (·.acceptsIn lane s t) : ℚ) ≤ limits.burst lane + limits.rate lane * (t - s)) := by
  have hcounted := run.counted
  refine ⟨⟨hcounted.data_le, hcounted.total_le⟩, fun lane => hcounted.exists_release,
    fun lane now hnow => ?_, fun lane s t hst => ?_⟩
  · obtain ⟨decision, c', h, hattempt⟩ := AdmissionController.exists_attempt
      (run.latest_nonneg.trans hnow) ((run.metered lane).updatedAt_le.trans hnow)
    exact ⟨decision, c', h, fun _ hheadroom => hcounted.not_globalConcurrency hheadroom hattempt,
      hattempt.buckets_eq⟩
  · have hmetered := run.metered lane
    rw [← hmetered.capacity_eq, ← hmetered.rate_eq]
    exact (hmetered.window s t hst).le

/-- The default limits. -/
def AdmissionLimits.default : AdmissionLimits where
  globalConcurrency := 32
  dataConcurrency := 24
  apiRatePerSecond := 20
  apiBurst := 40
  operationsRatePerSecond := 2
  operationsBurst := 4
  globalConcurrency_bounds := by decide
  dataConcurrency_bounds := by decide
  apiBurst_bounds := by decide
  operationsBurst_bounds := by decide
  data_le_global := by decide
  apiRate_bounds := by norm_num
  operationsRate_bounds := by norm_num

theorem admission_bounds_default : ∃ c,
    Run .default 3 [.released .data, .attempted 3 (.grant .data)] c ∧
      active .data [.released .data, .attempted 3 (.grant .data)] ≤
        AdmissionLimits.default.dataConcurrency := by
  have started : Run .default 3 [] _ := .start rfl
  obtain ⟨decision, c, h, hattempt⟩ := AdmissionController.exists_attempt
    started.latest_nonneg (started.metered .data).updatedAt_le
  cases hattempt with
  | shuttingDown hclosed => cases hclosed
  | globalConcurrency hfull => exact absurd hfull (by decide)
  | dataConcurrency _ hfull => exact absurd hfull (by decide)
  | rateLimited htaken =>
      norm_num [TokenBucket.take, TokenBucket.level, AdmissionLimits.burst, latest,
        AdmissionLimits.default] at htaken
  | grant _ _ _ =>
      have accepted := started.attempt le_rfl h
      have hactive : 0 < active .data [.attempted 3 (.grant .data)] := by decide
      obtain ⟨c', hrelease⟩ := accepted.counted.exists_release hactive
      have released := accepted.release hactive hrelease
      exact ⟨c', released, (admission_bounds released).1.1⟩

end Admission
