import SignalFoundry.Backtesting.EventEngine.Trace

/-!
# Submission order

Events are drained in the order of their sort keys, in which the identifier comes
last, so two lists of the same events fill the queue alike, whatever their order
and however often an event is delivered again. Only the table of the queued
fingerprints remembers the order of arrival, and `drain` never reads it.
-/

namespace SignalFoundry

open Fallible

namespace DeterministicEventEngine

section Submission

variable {F J : Type} [PyRuntime] [PyFloat F] [FloatText F]

/-- Submit events one after the other until one is refused. -/
def submitAll (engine : DeterministicEventEngine F J) :
    List (ExecutionEvent F) → Except EngineException (List Bool × DeterministicEventEngine F J)
  | [] => .ok ([], engine)
  | event :: events => do
      let (queued, engine) ← engine.submit event
      let (flags, engine) ← engine.submitAll events
      .ok (queued :: flags, engine)

/-- What `submit` checks of an event before it looks at the queue. -/
structure Admits (engine : DeterministicEventEngine F J) (event : ExecutionEvent F) : Prop where
  usable : engine.recoveryRequired = false
  required : engine.config.requireEvent event = .ok ()
  uncommitted : engine.reducer.fingerprints.get? event.eventId = none
  later : ¬ ∃ cursor ∈ engine.reducer.cursor, eventSortKey event ≤ cursor

/-- The limits leave room for a queue of this length. -/
structure Fits (engine : DeterministicEventEngine F J) (length : ℕ) : Prop where
  pending : length ≤ engine.config.maxPending.1
  events : engine.reducer.fingerprints.size + length ≤ engine.config.maxEvents.1

/-- The engine has queued some events since its queue was empty. -/
structure Queued (base engine : DeterministicEventEngine F J) (seen : List (ExecutionEvent F)) :
    Prop where
  same : ∃ pending pendingFingerprints, engine = { base with pending, pendingFingerprints }
  sorted : engine.pending.Pairwise Earlier
  mem : ∀ event, event ∈ engine.pending ↔ event ∈ seen
  found : ∀ event ∈ seen, engine.pendingFingerprints.get? event.eventId = some (fingerprint event)
  free : ∀ eventId, (∀ event ∈ seen, event.eventId ≠ eventId) →
    engine.pendingFingerprints.get? eventId = base.pendingFingerprints.get? eventId

variable {base engine next : DeterministicEventEngine F J} {seen events : List (ExecutionEvent F)}
  {event : ExecutionEvent F}

theorem Queued.start (hempty : base.pending = []) : Queued base base [] where
  same := ⟨base.pending, base.pendingFingerprints, rfl⟩
  sorted := by rw [hempty]; exact .nil
  mem event := by rw [hempty]
  found _ hmem := absurd hmem List.not_mem_nil
  free _ _ := rfl

/-- A new identifier takes its place in the queue. -/
theorem pairwise_orderedInsert {pending : List (ExecutionEvent F)}
    (hsorted : pending.Pairwise Earlier)
    (hfresh : ∀ other ∈ pending, other.eventId ≠ event.eventId) :
    (pending.orderedInsert (fun a b => eventSortKey a ≤ eventSortKey b) event).Pairwise Earlier := by
  have hne : ∀ other ∈ pending, eventSortKey other ≠ eventSortKey event := by
    intro other hother heq
    rw [eventSortKey, eventSortKey, ExecutionEvent.orderKey, ExecutionEvent.orderKey] at heq
    exact hfresh other hother (Prod.ext_iff.mp (toLex_inj.mp heq)).2
  induction pending with
  | nil => exact List.pairwise_singleton _ _
  | cons first rest ih =>
      obtain ⟨hfirst, hrest⟩ := List.pairwise_cons.mp hsorted
      rw [List.orderedInsert_cons]
      split
      · next hle =>
          have hlt : Earlier event first := hle.lt_of_ne (hne first List.mem_cons_self).symm
          refine List.pairwise_cons.mpr ⟨fun other hother => ?_, hsorted⟩
          rcases List.mem_cons.mp hother with rfl | hlater
          · exact hlt
          · exact lt_trans hlt (hfirst other hlater)
      · next hnot =>
          refine List.pairwise_cons.mpr ⟨fun other hother => ?_,
            ih hrest (fun other hother => hfresh other (List.mem_cons_of_mem _ hother))
              fun other hother => hne other (List.mem_cons_of_mem _ hother)⟩
          rcases List.mem_cons.mp ((List.perm_orderedInsert _ _ _).mem_iff.mp hother) with
            rfl | hlater
          · exact not_le.mp hnot
          · exact hfirst other hlater

theorem Queued.push (h : Queued base engine seen)
    (hfresh : ∀ other ∈ seen, other.eventId ≠ event.eventId) :
    Queued base (engine.push event) (event :: seen) where
  same := by
    obtain ⟨_, _, rfl⟩ := h.same
    exact ⟨_, _, rfl⟩
  sorted := pairwise_orderedInsert h.sorted fun other hother => hfresh other ((h.mem other).mp hother)
  mem other := by
    rw [DeterministicEventEngine.push, (List.perm_orderedInsert _ _ _).mem_iff, List.mem_cons,
      List.mem_cons, h.mem]
  found other hother := by
    rcases List.mem_cons.mp hother with rfl | hother
    · exact OrderedDict.get?_set_self _ _ _
    · exact (OrderedDict.get?_set_of_ne _ _ (hfresh other hother)).trans (h.found other hother)
  free eventId hnone := by
    rw [DeterministicEventEngine.push,
      OrderedDict.get?_set_of_ne _ _ (hnone event List.mem_cons_self).symm]
    exact h.free eventId fun other hother => hnone other (List.mem_cons_of_mem _ hother)

/-! ## One submission -/

/-- An event that is queued: it is admitted, its identifier is new and there is room. -/
theorem submit_eq_true_iff : engine.submit event = .ok (true, next) ↔
    engine.Admits event ∧ engine.pendingFingerprints.get? event.eventId = none ∧
      engine.Fits (engine.pending.length + 1) ∧ next = engine.push event := by
  simp only [submit, bind_eq_ok_iff, requireUsable_eq_ok_iff]
  constructor
  · rintro ⟨_, husable, _, hrequired, h⟩
    cases hcommitted : engine.reducer.fingerprints.get? event.eventId with
    | some existing =>
        rw [hcommitted] at h
        simp [bind_eq_ok_iff, pure_eq_ok] at h
    | none =>
        rw [hcommitted] at h
        cases hpending : engine.pendingFingerprints.get? event.eventId with
        | some pending =>
            simp [hpending, bind_eq_ok_iff, pure_eq_ok] at h
        | none =>
            simp only [hpending, bind_eq_ok_iff, refuse_eq_ok_iff, pure_eq_ok, Except.ok.injEq,
              Prod.mk.injEq, true_and, exists_const, ge_iff_le, not_le] at h
            obtain ⟨hlater, hroom, hevents, rfl⟩ := h
            exact ⟨⟨husable, hrequired, hcommitted, hlater⟩, rfl, ⟨hroom, hevents⟩, rfl⟩
  · rintro ⟨hadmits, hpending, hfits, rfl⟩
    refine ⟨(), hadmits.usable, (), hadmits.required, ?_⟩
    have hroom := hfits.pending
    have hevents := hfits.events
    simp only [hadmits.uncommitted, hpending, bind_eq_ok_iff, refuse_eq_ok_iff, pure_eq_ok,
      exists_const, ge_iff_le, not_le]
    exact ⟨hadmits.later, hroom, hevents, trivial⟩

/-- An event that waits already is not queued again. -/
theorem submit_of_pending (hadmits : engine.Admits event)
    (hpending : engine.pendingFingerprints.get? event.eventId = some (fingerprint event)) :
    engine.submit event = .ok (false, engine) := by
  have husable := (requireUsable_eq_ok_iff (u := ())).mpr hadmits.usable
  simp only [submit, husable, hadmits.required, ok_bind, hadmits.uncommitted, hpending]
  rw [(refuse_eq_ok_iff (u := ())).mpr (not_not.mpr rfl)]
  rfl

/-- What is checked before the queue does not depend on the queue. -/
theorem Queued.admits_iff (h : Queued base engine seen) : engine.Admits event ↔ base.Admits event := by
  obtain ⟨_, _, rfl⟩ := h.same
  exact ⟨fun ⟨a, b, c, d⟩ => ⟨a, b, c, d⟩, fun ⟨a, b, c, d⟩ => ⟨a, b, c, d⟩⟩

theorem Queued.fits_iff (h : Queued base engine seen) {length : ℕ} :
    engine.Fits length ↔ base.Fits length := by
  obtain ⟨_, _, rfl⟩ := h.same
  exact ⟨fun ⟨a, b⟩ => ⟨a, b⟩, fun ⟨a, b⟩ => ⟨a, b⟩⟩

/-- The queue holds each event once. -/
theorem Queued.nodup (h : Queued base engine seen) : engine.pending.Nodup :=
  h.sorted.imp fun {event other} hearlier heq => by
    rw [heq] at hearlier
    exact lt_irrefl _ hearlier

theorem Queued.congr (h : Queued base engine seen)
    (hmem : ∀ event, event ∈ seen ↔ event ∈ events) : Queued base engine events where
  same := h.same
  sorted := h.sorted
  mem event := (h.mem event).trans (hmem event)
  found event hevent := h.found event ((hmem event).mpr hevent)
  free eventId hnone := h.free eventId fun event hevent => hnone event ((hmem event).mp hevent)

/-! ## Lists of submissions -/

theorem submitAll_cons {middle : DeterministicEventEngine F J} {queued : Bool} {flags : List Bool}
    (hsubmit : engine.submit event = .ok (queued, middle))
    (hrest : middle.submitAll events = .ok (flags, next)) :
    engine.submitAll (event :: events) = .ok (queued :: flags, next) := by
  simp only [submitAll, hsubmit, ok_bind, hrest]

/-- Events that can all be queued together. -/
structure Fresh (base : DeterministicEventEngine F J) (events : List (ExecutionEvent F)) : Prop where
  admits : ∀ event ∈ events, base.Admits event
  absent : ∀ event ∈ events, base.pendingFingerprints.get? event.eventId = none
  distinct : (events.map fun event => event.eventId).Nodup
  fits : events ≠ [] → base.Fits events.length

theorem Fresh.nil (base : DeterministicEventEngine F J) : Fresh base [] where
  admits _ hmem := absurd hmem List.not_mem_nil
  absent _ hmem := absurd hmem List.not_mem_nil
  distinct := List.nodup_nil
  fits h := absurd rfl h

theorem Queued.length_eq (h : Queued base engine seen) (hfresh : Fresh base seen) :
    engine.pending.length = seen.length :=
  ((List.perm_ext_iff_of_nodup h.nodup (List.Nodup.of_map _ hfresh.distinct)).mpr h.mem).length_eq

/-- What is queued one by one can be queued together. -/
theorem Queued.submit_true (h : Queued base engine seen) (hfresh : Fresh base seen)
    (hsubmit : engine.submit event = .ok (true, next)) :
    Queued base next (event :: seen) ∧ Fresh base (event :: seen) := by
  obtain ⟨hadmits, hnone, hfits, rfl⟩ := submit_eq_true_iff.mp hsubmit
  have hnew : ∀ other ∈ seen, other.eventId ≠ event.eventId := by
    intro other hother heq
    have hfound := h.found other hother
    rw [heq, hnone] at hfound
    cases hfound
  rw [h.length_eq hfresh, h.fits_iff] at hfits
  refine ⟨h.push hnew, fun other hother => ?_, fun other hother => ?_, ?_, fun _ => hfits⟩
  · rcases List.mem_cons.mp hother with rfl | hother
    · exact h.admits_iff.mp hadmits
    · exact hfresh.admits other hother
  · rcases List.mem_cons.mp hother with rfl | hother
    · rw [← h.free _ hnew, hnone]
    · exact hfresh.absent other hother
  · refine List.nodup_cons.mpr ⟨fun hmem => ?_, hfresh.distinct⟩
    obtain ⟨other, hother, heq⟩ := List.mem_map.mp hmem
    exact hnew other hother heq

theorem Queued.submitAll_true (h : Queued base engine seen) (hfresh : Fresh base seen)
    {flags : List Bool} (hrun : engine.submitAll events = .ok (flags, next))
    (hflags : ∀ flag ∈ flags, flag = true) :
    Queued base next (events.reverse ++ seen) ∧ Fresh base (events.reverse ++ seen) := by
  induction events generalizing engine seen flags with
  | nil =>
      rw [submitAll, Except.ok.injEq, Prod.mk.injEq] at hrun
      obtain ⟨-, rfl⟩ := hrun
      exact ⟨h, hfresh⟩
  | cons event events ih =>
      simp only [submitAll, bind_eq_ok_iff, Except.ok.injEq, Prod.mk.injEq] at hrun
      obtain ⟨⟨queued, middle⟩, hsubmit, ⟨later, final⟩, hlater, rfl, rfl⟩ := hrun
      have hqueued : queued = true := hflags queued List.mem_cons_self
      rw [hqueued] at hsubmit
      obtain ⟨hmiddle, hmore⟩ := h.submit_true hfresh hsubmit
      have hrest := ih hmiddle hmore hlater fun flag hflag =>
        hflags flag (List.mem_cons_of_mem _ hflag)
      rwa [List.reverse_cons, List.append_assoc]

/-- An event of the list is queued, or waits already. -/
theorem Queued.submit_of_mem (h : Queued base engine seen) (hfresh : Fresh base events)
    (hseen : seen ⊆ events) (hevent : event ∈ events) :
    ∃ queued next, engine.submit event = .ok (queued, next) ∧ Queued base next (event :: seen) := by
  have hadmits : engine.Admits event := h.admits_iff.mpr (hfresh.admits event hevent)
  by_cases hmem : event ∈ seen
  · refine ⟨false, engine, submit_of_pending hadmits (h.found event hmem), h.congr fun other => ?_⟩
    rw [List.mem_cons]
    exact ⟨.inr, fun hother => hother.elim (fun heq => heq ▸ hmem) id⟩
  · have hnew : ∀ other ∈ seen, other.eventId ≠ event.eventId := by
      intro other hother heq
      exact hmem (List.inj_on_of_nodup_map hfresh.distinct (hseen hother) hevent heq ▸ hother)
    have hnone : engine.pendingFingerprints.get? event.eventId = none :=
      (h.free _ hnew).trans (hfresh.absent event hevent)
    -- The queue and the new event are distinct events of the list, which fits.
    have hlength : engine.pending.length + 1 ≤ events.length := by
      have hnodup : (event :: engine.pending).Nodup :=
        List.nodup_cons.mpr ⟨fun hqueued => hmem ((h.mem event).mp hqueued), h.nodup⟩
      refine (hnodup.subperm fun other hother => ?_).length_le
      rcases List.mem_cons.mp hother with rfl | hother
      · exact hevent
      · exact hseen ((h.mem other).mp hother)
    have hroom := hfresh.fits (List.ne_nil_of_mem hevent)
    have hfits : engine.Fits (engine.pending.length + 1) :=
      h.fits_iff.mpr ⟨hlength.trans hroom.pending,
        (Nat.add_le_add_left hlength _).trans hroom.events⟩
    exact ⟨true, _, submit_eq_true_iff.mpr ⟨hadmits, hnone, hfits, rfl⟩, h.push hnew⟩

theorem Queued.submitAll_of_subset (h : Queued base engine seen) (hfresh : Fresh base events)
    (hseen : seen ⊆ events) {deliveries : List (ExecutionEvent F)} (hsubset : deliveries ⊆ events) :
    ∃ flags next, engine.submitAll deliveries = .ok (flags, next) ∧
      Queued base next (deliveries.reverse ++ seen) := by
  induction deliveries generalizing engine seen with
  | nil => exact ⟨[], engine, rfl, h⟩
  | cons event deliveries ih =>
      obtain ⟨hevent, hlater⟩ := List.cons_subset.mp hsubset
      obtain ⟨queued, middle, hsubmit, hmiddle⟩ := h.submit_of_mem hfresh hseen hevent
      obtain ⟨flags, next, hrun, hnext⟩ :=
        ih hmiddle (List.cons_subset.mpr ⟨hevent, hseen⟩) hlater
      refine ⟨queued :: flags, next, submitAll_cons hsubmit hrun, ?_⟩
      rwa [List.reverse_cons, List.append_assoc]

/-! ## Draining -/

instance : Std.Irrefl (Earlier (F := F)) := ⟨fun event => lt_irrefl (eventSortKey event)⟩

instance : Std.Antisymm (Earlier (F := F)) := ⟨fun _ _ h h' => absurd h' (lt_asymm h)⟩

/-- The engine with another table of queued fingerprints. -/
def withFingerprints (engine : DeterministicEventEngine F J)
    (pendingFingerprints : OrderedDict String (List UInt8)) : DeterministicEventEngine F J :=
  { engine with pendingFingerprints }

/-- Engines that queued the same events differ in the table of fingerprints only. -/
theorem Queued.eq_withFingerprints {other : DeterministicEventEngine F J}
    (h : Queued base engine seen) (h' : Queued base other events)
    (hmem : ∀ event, event ∈ seen ↔ event ∈ events) :
    ∃ fingerprints, other = engine.withFingerprints fingerprints := by
  have hpending : engine.pending = other.pending :=
    h.sorted.eq_of_mem_iff h'.sorted fun event => by rw [h.mem, h'.mem, hmem]
  obtain ⟨pending, _, rfl⟩ := h.same
  obtain ⟨pending', fingerprints, rfl⟩ := h'.same
  obtain rfl : pending = pending' := hpending
  exact ⟨fingerprints, rfl⟩

variable [Journal F J]

/-- Processing neither reads nor changes the table of queued fingerprints. -/
theorem processEvent_withFingerprints (engine : DeterministicEventEngine F J)
    (event : ExecutionEvent F) (fingerprints : OrderedDict String (List UInt8)) :
    (engine.withFingerprints fingerprints).processEvent event =
      ((engine.processEvent event).1,
        (engine.processEvent event).2.withFingerprints fingerprints) := by
  simp only [processEvent, withFingerprints]
  split
  · rfl
  · rfl
  · split <;> rfl

/-- The loop of `drain` commits and raises the same for every such table. -/
theorem drainLoop_withFingerprints (maximum : Option ℕ) (engine : DeterministicEventEngine F J)
    (processed queue : List (ExecutionEvent F)) (fingerprints : OrderedDict String (List UInt8)) :
    ∃ left, (engine.withFingerprints fingerprints).drainLoop maximum processed queue =
      { engine.drainLoop maximum processed queue with
        engine := (engine.drainLoop maximum processed queue).engine.withFingerprints left } := by
  induction queue generalizing engine processed fingerprints with
  | nil => exact ⟨fingerprints, rfl⟩
  | cons event rest ih =>
      have hpop : (engine.withFingerprints fingerprints).pop event rest =
          (engine.pop event rest).withFingerprints (fingerprints.erase event.eventId) := rfl
      have hprocess := processEvent_withFingerprints (engine.pop event rest) event
        (fingerprints.erase event.eventId)
      simp only [drainLoop, hpop, hprocess]
      split
      · exact ⟨fingerprints, rfl⟩
      · rcases (engine.pop event rest).processEvent event with ⟨outcome, next⟩
        cases outcome with
        | error e => exact ⟨_, rfl⟩
        | ok committed =>
            cases committed with
            | true => exact ih next (processed ++ [event]) _
            | false => exact ih next processed _

theorem drain_withFingerprints (engine : DeterministicEventEngine F J)
    (fingerprints : OrderedDict String (List UInt8)) (maximum : Option ℤ) :
    ∃ left, (engine.withFingerprints fingerprints).drain maximum =
      { engine.drain maximum with
        engine := (engine.drain maximum).engine.withFingerprints left } := by
  have hchecks : (engine.withFingerprints fingerprints).requireUsable = engine.requireUsable := rfl
  simp only [drain, hchecks]
  split
  · exact ⟨fingerprints, rfl⟩
  · exact drainLoop_withFingerprints _ engine [] engine.pending fingerprints

/-- The order of submission and exact duplicates do not matter: what is drained
afterwards commits the same events in the same order, raises the same exception and
ends in the same reducer and journal. -/
theorem drain_submitAll_eq {engine accepted : DeterministicEventEngine F J}
    {events deliveries : List (ExecutionEvent F)} {flags : List Bool}
    (hempty : engine.pending = []) (haccepted : engine.submitAll events = .ok (flags, accepted))
    (hflags : ∀ flag ∈ flags, flag = true)
    (hdeliveries : ∀ event, event ∈ deliveries ↔ event ∈ events) :
    ∃ flags' delivered, engine.submitAll deliveries = .ok (flags', delivered) ∧ ∀ maximum,
      (delivered.drain maximum).committed = (accepted.drain maximum).committed ∧
      (delivered.drain maximum).raised = (accepted.drain maximum).raised ∧
      (delivered.drain maximum).engine.reducer = (accepted.drain maximum).engine.reducer ∧
      (delivered.drain maximum).engine.journal = (accepted.drain maximum).engine.journal ∧
      (delivered.drain maximum).engine.pending = (accepted.drain maximum).engine.pending := by
  have hstart : Queued engine engine [] := .start hempty
  obtain ⟨hqueued, hfresh⟩ := hstart.submitAll_true (.nil engine) haccepted hflags
  rw [List.append_nil] at hqueued hfresh
  have hsubset : deliveries ⊆ events.reverse := fun event hevent =>
    List.mem_reverse.mpr ((hdeliveries event).mp hevent)
  obtain ⟨flags', delivered, hrun, hdelivered⟩ :=
    hstart.submitAll_of_subset hfresh (List.nil_subset _) hsubset
  obtain ⟨fingerprints, rfl⟩ := hqueued.eq_withFingerprints hdelivered fun event => by
    rw [List.append_nil, List.mem_reverse, List.mem_reverse, hdeliveries]
  refine ⟨flags', _, hrun, fun maximum => ?_⟩
  obtain ⟨left, hdrain⟩ := drain_withFingerprints accepted fingerprints maximum
  rw [hdrain]
  exact ⟨rfl, rfl, rfl, rfl, rfl⟩

end Submission

end DeterministicEventEngine

section TwoMarks

open Platform DeterministicEventEngine

/-- A new engine of the trade. -/
def dayEngine : DeterministicEventEngine ℚ InMemoryJournal where
  config := dayConfig
  reducer := .initial dayLedger
  pending := []
  pendingFingerprints := .empty
  journal := dayJournal
  ownsJournal := true
  recoveryRequired := false

theorem admits_dayEngine {event : ExecutionEvent ℚ}
    (hrequired : dayConfig.requireEvent event = .ok ()) : dayEngine.Admits event where
  usable := rfl
  required := hrequired
  uncommitted := OrderedDict.get?_empty event.eventId
  later := by simp [dayEngine, Reducer.initial]

theorem fits_dayEngine {length : ℕ} (h : length ≤ 9) : dayEngine.Fits length where
  pending := h
  events := (Nat.zero_add length).trans_le h

theorem absent_dayEngine (eventId : String) :
    dayEngine.pendingFingerprints.get? eventId = none :=
  OrderedDict.get?_empty eventId

theorem submitAll_marks : ∃ accepted,
    dayEngine.submitAll [openEvent, closeEvent] = .ok ([true, true], accepted) := by
  have hopen : openEvent.eventId = _ := hasId_openFields.eventId_eq
  have hclose : closeEvent.eventId = _ := hasId_closeFields.eventId_eq
  have hne : closeEvent.eventId ≠ openEvent.eventId := by
    rw [hopen, hclose]
    decide
  have hfirst : dayEngine.submit openEvent = .ok (true, dayEngine.push openEvent) :=
    submit_eq_true_iff.mpr ⟨admits_dayEngine rfl, absent_dayEngine _,
      fits_dayEngine (by decide), rfl⟩
  have hqueued : Queued dayEngine (dayEngine.push openEvent) [openEvent] :=
    (Queued.start rfl).push (List.forall_mem_nil _)
  have hfree : (dayEngine.push openEvent).pendingFingerprints.get? closeEvent.eventId = none :=
    (hqueued.free _ (List.forall_mem_singleton.mpr hne.symm)).trans (absent_dayEngine _)
  have hsecond : (dayEngine.push openEvent).submit closeEvent =
      .ok (true, (dayEngine.push openEvent).push closeEvent) :=
    submit_eq_true_iff.mpr ⟨hqueued.admits_iff.mpr (admits_dayEngine rfl), hfree,
      hqueued.fits_iff.mpr (fits_dayEngine (by decide)), rfl⟩
  exact ⟨_, submitAll_cons hfirst (submitAll_cons hsecond rfl)⟩

/-- Two marks that arrive in the other order, one of them twice. -/
theorem drain_submitAll_marks : ∃ accepted flags' delivered,
    dayEngine.submitAll [openEvent, closeEvent] = .ok ([true, true], accepted) ∧
      dayEngine.submitAll [closeEvent, openEvent, closeEvent] = .ok (flags', delivered) ∧
        ∀ maximum,
          (delivered.drain maximum).committed = (accepted.drain maximum).committed ∧
          (delivered.drain maximum).raised = (accepted.drain maximum).raised ∧
          (delivered.drain maximum).engine.reducer = (accepted.drain maximum).engine.reducer ∧
          (delivered.drain maximum).engine.journal = (accepted.drain maximum).engine.journal ∧
          (delivered.drain maximum).engine.pending = (accepted.drain maximum).engine.pending := by
  obtain ⟨accepted, haccepted⟩ := submitAll_marks
  have hmarks : ∀ event, event ∈ [closeEvent, openEvent, closeEvent] ↔
      event ∈ [openEvent, closeEvent] := by
    intro event
    simp only [List.mem_cons, List.not_mem_nil, or_false]
    exact ⟨fun h => h.elim .inr id, .inr⟩
  obtain ⟨flags', delivered, hrun, hdrain⟩ :=
    drain_submitAll_eq rfl haccepted (by decide) hmarks
  exact ⟨accepted, flags', delivered, haccepted, hrun, hdrain⟩

end TwoMarks

end SignalFoundry
