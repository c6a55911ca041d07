import Mathlib.Data.Nat.Cast.Basic
import Mathlib.Tactic.Linarith
import Mathlib.Tactic.Ring
import SignalFoundry.AlphaForge.Training.WalkForward

/-!
# Embargoed windows

The loop, as a relation between a test index and the windows that follow. A window is
embargoed when its indices name the positions they stand for, or when all of them count
from the end. With at least one training day they do the former, and a positive step
makes the loop end.
-/

namespace WalkForward

open Fallible

/-! ## Sessions by position -/

section Positions

variable {n p : ℕ} {i : ℤ}

theorem position?_eq_some_iff :
    position? n i = some p ↔ p < n ∧ (i = p ∨ i < 0 ∧ n + i = p) := by
  rw [position?]
  split_ifs with h₁ h₂ h₃
  · rw [Option.some.injEq]
    omega
  · simp only [false_iff]
    omega
  · rw [Option.some.injEq]
    omega
  · simp only [false_iff]
    omega

theorem item?_eq_some_iff {l : List ℤ} {d : ℤ} :
    item? l i = some d ↔ ∃ p, position? l.length i = some p ∧ l[p]? = some d := by
  rw [item?, Option.bind_eq_some_iff]

theorem exists_item? {l : List ℤ} (h : position? l.length i = some p) :
    ∃ d, item? l i = some d ∧ l[p]? = some d := by
  have hlt : p < l.length := (position?_eq_some_iff.mp h).1
  exact ⟨l[p], item?_eq_some_iff.mpr ⟨p, h, List.getElem?_eq_getElem hlt⟩,
    List.getElem?_eq_getElem hlt⟩

variable {l : List ℤ} {q : ℕ} {d e : ℤ}

theorem getElem?_lt_iff (hl : l.Pairwise (· < ·)) (hd : l[p]? = some d) (he : l[q]? = some e) :
    d < e ↔ p < q := by
  obtain ⟨hp, rfl⟩ := List.getElem?_eq_some_iff.mp hd
  obtain ⟨hq, rfl⟩ := List.getElem?_eq_some_iff.mp he
  rw [List.pairwise_iff_getElem] at hl
  constructor
  · intro hlt
    by_contra hle
    rcases (not_lt.mp hle).lt_or_eq with hgt | rfl
    · exact absurd hlt (hl q p hq hp hgt).not_gt
    · exact lt_irrefl _ hlt
  · exact hl p q hp hq

theorem getElem?_le_iff (hl : l.Pairwise (· < ·)) (hd : l[p]? = some d) (he : l[q]? = some e) :
    d ≤ e ↔ p ≤ q := by
  rw [← not_lt, getElem?_lt_iff hl he hd, not_lt]

theorem position_unique (hl : l.Pairwise (· < ·)) (hd : l[p]? = some d) (he : l[q]? = some d) :
    p = q :=
  le_antisymm ((getElem?_le_iff hl hd he).mp le_rfl) ((getElem?_le_iff hl he hd).mp le_rfl)

/-- The sessions between two positions are counted. -/
theorem le_countP_between (hl : l.Pairwise (· < ·)) (hd : l[p]? = some d) (he : l[q]? = some e) :
    q + 1 - p ≤ l.countP fun x => d ≤ x ∧ x ≤ e := by
  have hq : q < l.length := (List.getElem?_eq_some_iff.mp he).1
  have hslice : ((l.drop p).take (q + 1 - p)).length = q + 1 - p := by
    rw [List.length_take, List.length_drop]
    omega
  have hall : ((l.drop p).take (q + 1 - p)).countP (fun x => d ≤ x ∧ x ≤ e) = q + 1 - p := by
    refine (List.countP_eq_length.mpr ?_).trans hslice
    intro x hx
    obtain ⟨k, hk, rfl⟩ := List.mem_iff_getElem.mp hx
    have hx' : l[p + k]? = some ((l.drop p).take (q + 1 - p))[k] := by
      rw [List.getElem_take, List.getElem_drop]
      apply List.getElem?_eq_getElem
    rw [hslice] at hk
    refine decide_eq_true ⟨(getElem?_le_iff hl hd hx').mpr (Nat.le_add_right p k),
      (getElem?_le_iff hl hx' he).mpr (by omega)⟩
  rw [← hall]
  exact ((List.take_sublist _ _).trans (List.drop_sublist _ _)).countP_le

end Positions

theorem uniqueDates_pairwise (dates : List ℤ) : (uniqueDates dates).Pairwise (· < ·) := by
  have hsorted := pairwise_sortedBy id dates.dedup
  have hnodup : (uniqueDates dates).Nodup :=
    (perm_sortedBy id _).nodup_iff.mpr (List.nodup_dedup dates)
  exact (hsorted.and hnodup).imp fun h => lt_of_le_of_ne h.1 h.2

/-! ## Windows -/

/-- What a window promises: a training block, exactly the embargo, and a test block, with
no label of the training block reaching the test block. -/
structure WalkForwardWindow.Embargoed (cfg : WalkForwardConfig) (maxHorizon : Option ℤ)
    (sessions : List ℤ) (window : WalkForwardWindow) : Prop where
  gap : ∃ p q : ℕ, sessions[p]? = some window.trainEnd ∧ sessions[q]? = some window.testStart ∧
    (q : ℤ) = p + cfg.embargoDays + 1
  training : cfg.minTrainDays ≤
    sessions.countP fun d => window.trainStart ≤ d ∧ d ≤ window.trainEnd
  ordered : window.testStart ≤ window.testEnd
  labels : ∀ horizon ∈ maxHorizon, ∀ p q : ℕ, ∀ d, sessions[p]? = some d →
    window.trainStart ≤ d → d ≤ window.trainEnd → sessions[q]? = some window.testStart →
    (p : ℤ) + horizon < q

namespace WalkForwardConfig

variable {cfg : WalkForwardConfig} {maxHorizon : Option ℤ} {sessions : List ℤ} {n : ℕ} {i : ℤ}

/-- Whether the window at a test index is embargoed: its indices are positions, or all of
them but the first count from the end. -/
def Sound (cfg : WalkForwardConfig) (n : ℕ) (i : ℤ) : Prop :=
  cfg.trainStartIdx i < n ∧ (cfg.embargoDays + 1 ≤ i ∨
    i < 0 ∧ cfg.embargoDays + 1 ≤ n + i ∧ (i + cfg.testDays ≤ 0 ∨ n < cfg.testDays))

theorem check_eq_ok_iff : cfg.check maxHorizon = .ok () ↔ 0 ≤ cfg.embargoDays ∧
    (∀ horizon ∈ maxHorizon, horizon ≤ cfg.embargoDays) ∧
    (cfg.scheme = "expanding" ∨ cfg.scheme = "rolling") := by
  simp only [check, bind_eq_ok_iff, refuseIf_eq_ok_iff, forM_eq_ok_iff, not_lt, Option.mem_toList,
    List.mem_cons, List.not_mem_nil, or_false, not_not]
  constructor
  · rintro ⟨-, h₁, -, h₂, h₃⟩
    exact ⟨h₁, h₂, h₃⟩
  · rintro ⟨h₁, h₂, h₃⟩
    exact ⟨(), h₁, (), h₂, h₃⟩

theorem trainStartIdx_nonneg : 0 ≤ cfg.trainStartIdx i := by
  rw [trainStartIdx]
  split_ifs
  · exact le_max_left _ _
  · exact le_rfl

/-- A window is appended at every test index from the first on, when there are test days. -/
theorem appends_iff (hi : i < n) :
    cfg.Appends n i ↔ cfg.firstTest ≤ i ∧ 1 ≤ cfg.testDays := by
  simp only [Appends, trainLen, trainStartIdx, trainEndIdx, testEndIdx, firstTest]
  split_ifs <;> omega

theorem trainStartIdx_eq (hfirst : cfg.firstTest ≤ i) :
    cfg.trainStartIdx i = 0 ∨ cfg.trainStartIdx i = i - cfg.firstTest := by
  simp only [trainStartIdx, trainEndIdx, firstTest] at hfirst ⊢
  split_ifs <;> omega

/-- The positions of a window. -/
theorem exists_positions {id : ℕ} {window : WalkForwardWindow}
    (h : cfg.window? sessions i id = some window) :
    ∃ start last test final : ℕ,
      (position? sessions.length (cfg.trainStartIdx i) = some start ∧
        position? sessions.length (cfg.trainEndIdx i) = some last ∧
        position? sessions.length i = some test ∧
        position? sessions.length (cfg.testEndIdx sessions.length i) = some final) ∧
      sessions[start]? = some window.trainStart ∧ sessions[last]? = some window.trainEnd ∧
      sessions[test]? = some window.testStart ∧ sessions[final]? = some window.testEnd := by
  simp only [window?, Option.bind_eq_bind, Option.bind_eq_some_iff, Option.pure_def,
    Option.some.injEq, item?_eq_some_iff] at h
  obtain ⟨_, ⟨start, hstart, hstart'⟩, _, ⟨last, hlast, hlast'⟩, _, ⟨test, htest, htest'⟩, _,
    ⟨final, hfinal, hfinal'⟩, rfl⟩ := h
  exact ⟨start, last, test, final, ⟨hstart, hlast, htest, hfinal⟩, hstart', hlast', htest', hfinal'⟩

theorem exists_window? (id : ℕ) {start last test final : ℕ}
    (hstart : position? sessions.length (cfg.trainStartIdx i) = some start)
    (hlast : position? sessions.length (cfg.trainEndIdx i) = some last)
    (htest : position? sessions.length i = some test)
    (hfinal : position? sessions.length (cfg.testEndIdx sessions.length i) = some final) :
    ∃ window, cfg.window? sessions i id = some window ∧
      sessions[start]? = some window.trainStart ∧ sessions[last]? = some window.trainEnd ∧
      sessions[test]? = some window.testStart ∧ sessions[final]? = some window.testEnd := by
  obtain ⟨trainStart, hstart, hstart'⟩ := exists_item? hstart
  obtain ⟨trainEnd, hlast, hlast'⟩ := exists_item? hlast
  obtain ⟨testStart, htest, htest'⟩ := exists_item? htest
  obtain ⟨testEnd, hfinal, hfinal'⟩ := exists_item? hfinal
  refine ⟨⟨id, trainStart, trainEnd, testStart, testEnd, cfg.embargoDays⟩, ?_, hstart', hlast',
    htest', hfinal'⟩
  simp only [window?, hstart, hlast, htest, hfinal, Option.bind_eq_bind, Option.bind_some,
    Option.pure_def]

theorem sound_of_embargoed (hsorted : sessions.Pairwise (· < ·)) (hi : i < sessions.length)
    {id : ℕ} {window : WalkForwardWindow} (hwindow : cfg.window? sessions i id = some window)
    (hsound : window.Embargoed cfg maxHorizon sessions) : cfg.Sound sessions.length i := by
  obtain ⟨start, last, test, final, ⟨hstart, hlast, htest, hfinal⟩, -, hlast', htest', hfinal'⟩ :=
    exists_positions hwindow
  obtain ⟨p, q, hp, hq, hgap⟩ := hsound.gap
  obtain rfl := position_unique hsorted hlast' hp
  obtain rfl := position_unique hsorted htest' hq
  have hordered := (getElem?_le_iff hsorted htest' hfinal').mp hsound.ordered
  have hnonneg : 0 ≤ cfg.trainStartIdx i := trainStartIdx_nonneg
  rw [position?_eq_some_iff] at hstart hlast htest hfinal
  simp only [trainEndIdx, testEndIdx] at hlast hfinal
  rw [Sound]
  omega

theorem embargoed_of_positions (hsorted : sessions.Pairwise (· < ·))
    (hhorizon : ∀ horizon ∈ maxHorizon, horizon ≤ cfg.embargoDays) {window : WalkForwardWindow}
    {start last test final : ℕ} (hstart : sessions[start]? = some window.trainStart)
    (hlast : sessions[last]? = some window.trainEnd)
    (htest : sessions[test]? = some window.testStart)
    (hfinal : sessions[final]? = some window.testEnd)
    (hgap : (test : ℤ) = last + cfg.embargoDays + 1) (hordered : test ≤ final)
    (htraining : cfg.minTrainDays ≤ (last + 1 - start : ℕ)) :
    window.Embargoed cfg maxHorizon sessions where
  gap := ⟨last, test, hlast, htest, hgap⟩
  training := htraining.trans (by exact_mod_cast le_countP_between hsorted hstart hlast)
  ordered := (getElem?_le_iff hsorted htest hfinal).mpr hordered
  labels := by
    intro horizon hmem p q d hp _ hle hq
    obtain rfl := position_unique hsorted htest hq
    have hpos : p ≤ last := (getElem?_le_iff hsorted hp hlast).mp hle
    have hreach := hhorizon horizon hmem
    omega

theorem embargoed_of_sound (hsorted : sessions.Pairwise (· < ·)) (hembargo : 0 ≤ cfg.embargoDays)
    (hhorizon : ∀ horizon ∈ maxHorizon, horizon ≤ cfg.embargoDays) (hfirst : cfg.firstTest ≤ i)
    (hi : i < sessions.length) (htest : 1 ≤ cfg.testDays) (id : ℕ)
    (hsound : cfg.Sound sessions.length i) :
    ∃ window, cfg.window? sessions i id = some window ∧
      window.Embargoed cfg maxHorizon sessions := by
  have hnonneg : 0 ≤ cfg.trainStartIdx i := trainStartIdx_nonneg
  have hstartIdx := trainStartIdx_eq hfirst
  obtain ⟨hstart, hcases⟩ := hsound
  -- the positions of the four indices
  obtain ⟨last, test, final, hlast, htest, hfinal, hgap, hordered, htraining⟩ :
      ∃ last test final : ℕ, position? sessions.length (cfg.trainEndIdx i) = some last ∧
        position? sessions.length i = some test ∧
        position? sessions.length (cfg.testEndIdx sessions.length i) = some final ∧
        (test : ℤ) = last + cfg.embargoDays + 1 ∧ test ≤ final ∧
        cfg.minTrainDays ≤ (last + 1 - (cfg.trainStartIdx i).toNat : ℕ) := by
    simp only [position?_eq_some_iff, trainEndIdx, testEndIdx]
    rw [firstTest] at hfirst hstartIdx
    rcases hcases with hpositive | ⟨hnegative, hroom, hend⟩
    · refine ⟨(i - cfg.embargoDays - 1).toNat, i.toNat,
        (min (i + cfg.testDays - 1) (sessions.length - 1)).toNat, ?_⟩
      omega
    · by_cases hwraps : i + cfg.testDays ≤ 0
      · refine ⟨(sessions.length + i - cfg.embargoDays - 1).toNat, (sessions.length + i).toNat,
          (sessions.length + (i + cfg.testDays - 1)).toNat, ?_⟩
        omega
      · refine ⟨(sessions.length + i - cfg.embargoDays - 1).toNat, (sessions.length + i).toNat,
          (min (i + cfg.testDays - 1) (sessions.length - 1)).toNat, ?_⟩
        omega
  have hstart' : position? sessions.length (cfg.trainStartIdx i) =
      some (cfg.trainStartIdx i).toNat := by
    rw [position?_eq_some_iff]
    omega
  obtain ⟨window, hwindow, hp, hq, hr, hs⟩ := exists_window? id hstart' hlast htest hfinal
  exact ⟨window, hwindow,
    embargoed_of_positions hsorted hhorizon hp hq hr hs hgap hordered htraining⟩

/-! ## The loop -/

/-- The windows that the loop appends from a test index on, after a number of windows. -/
inductive Returns (cfg : WalkForwardConfig) (sessions : List ℤ) :
    ℤ → ℕ → List WalkForwardWindow → Prop
  | ended {i : ℤ} {count : ℕ} (hi : sessions.length ≤ i) : Returns cfg sessions i count []
  | skipped {i : ℤ} {count : ℕ} {windows : List WalkForwardWindow} (hi : i < sessions.length)
      (happends : ¬ cfg.Appends sessions.length i)
      (hrest : Returns cfg sessions (i + cfg.stepDays) count windows) :
      Returns cfg sessions i count windows
  | full {i : ℤ} {count : ℕ} {window : WalkForwardWindow} (hi : i < sessions.length)
      (happends : cfg.Appends sessions.length i)
      (hwindow : cfg.window? sessions i count = some window) (hfull : cfg.Full (count + 1)) :
      Returns cfg sessions i count [window]
  | next {i : ℤ} {count : ℕ} {window : WalkForwardWindow} {windows : List WalkForwardWindow}
      (hi : i < sessions.length) (happends : cfg.Appends sessions.length i)
      (hwindow : cfg.window? sessions i count = some window) (hfull : ¬ cfg.Full (count + 1))
      (hrest : Returns cfg sessions (i + cfg.stepDays) (count + 1) windows) :
      Returns cfg sessions i count (window :: windows)

theorem returns_of_splitLoop {fuel : ℕ} {windows result : List WalkForwardWindow}
    (h : cfg.splitLoop sessions fuel i windows = some (.ok result)) :
    ∃ rest, result = windows ++ rest ∧ cfg.Returns sessions i windows.length rest := by
  induction fuel generalizing i windows with
  | zero => cases h
  | succ fuel ih =>
      rw [splitLoop] at h
      by_cases hi : i < sessions.length
      · by_cases happends : cfg.Appends sessions.length i
        · rw [if_pos hi, if_pos happends] at h
          cases hwindow : cfg.window? sessions i windows.length with
          | none =>
              rw [hwindow] at h
              cases h
          | some window =>
              rw [hwindow] at h
              change (if cfg.Full (windows.length + 1) then _ else _) = _ at h
              split_ifs at h with hfull
              · cases h
                exact ⟨[window], rfl, .full hi happends hwindow hfull⟩
              · obtain ⟨rest, rfl, hrest⟩ := ih h
                rw [List.length_append, List.length_singleton] at hrest
                exact ⟨window :: rest, List.append_assoc _ _ _,
                  .next hi happends hwindow hfull hrest⟩
        · rw [if_pos hi, if_neg happends] at h
          obtain ⟨rest, rfl, hrest⟩ := ih h
          exact ⟨rest, rfl, .skipped hi happends hrest⟩
      · rw [if_neg hi] at h
        cases h
        exact ⟨[], (List.append_nil _).symm, .ended (not_lt.mp hi)⟩

theorem splitLoop_of_returns {count : ℕ} {rest : List WalkForwardWindow}
    (h : cfg.Returns sessions i count rest) (windows : List WalkForwardWindow)
    (hcount : windows.length = count) :
    ∃ fuel, cfg.splitLoop sessions fuel i windows = some (.ok (windows ++ rest)) := by
  induction h generalizing windows with
  | ended hi =>
      refine ⟨1, ?_⟩
      rw [splitLoop, if_neg (not_lt.mpr hi), List.append_nil]
  | skipped hi happends hrest ih =>
      obtain ⟨fuel, hfuel⟩ := ih windows hcount
      refine ⟨fuel + 1, ?_⟩
      rw [splitLoop, if_pos hi, if_neg happends, hfuel]
  | full hi happends hwindow hfull =>
      subst hcount
      refine ⟨1, ?_⟩
      rw [splitLoop, if_pos hi, if_pos happends, hwindow]
      exact if_pos hfull
  | @next i count window rest hi happends hwindow hfull hrest ih =>
      subst hcount
      obtain ⟨fuel, hfuel⟩ := ih (windows ++ [window]) (List.length_append)
      refine ⟨fuel + 1, ?_⟩
      rw [splitLoop, if_pos hi, if_pos happends, hwindow]
      rw [List.append_assoc, List.singleton_append] at hfuel
      exact (if_neg hfull).trans hfuel

/-! ### What the loop reaches -/

theorem full_mono {count count' : ℕ} (hle : count ≤ count') (h : cfg.Full count) :
    cfg.Full count' := by
  obtain ⟨limit, hlimit, hfull⟩ := h
  exact ⟨limit, hlimit, hfull.trans (by exact_mod_cast hle)⟩

/-- The test index after a number of steps. -/
def testIndex (cfg : WalkForwardConfig) (k : ℕ) : ℤ := cfg.firstTest + k * cfg.stepDays

theorem testIndex_succ (k : ℕ) : cfg.testIndex (k + 1) = cfg.testIndex k + cfg.stepDays := by
  rw [testIndex, testIndex, Nat.cast_succ]
  ring

@[simp] theorem testIndex_zero : cfg.testIndex 0 = cfg.firstTest := by simp [testIndex]

theorem testIndex_mono (hstep : 1 ≤ cfg.stepDays) {j k : ℕ} (h : j ≤ k) :
    cfg.testIndex j ≤ cfg.testIndex k := by
  rw [testIndex, testIndex]
  have hjk : (j : ℤ) ≤ k := by exact_mod_cast h
  nlinarith

/-- Whether the loop comes to append a window after a number of windows. -/
def Reached (cfg : WalkForwardConfig) (n k : ℕ) : Prop :=
  cfg.testIndex k < n ∧ (k = 0 ∨ ¬ cfg.Full k)

/-- The position that a test index names. -/
def testPosition (n : ℕ) (i : ℤ) : ℤ := if i < 0 then n + i else i

theorem testStart_of_window? {id : ℕ} {window : WalkForwardWindow}
    (h : cfg.window? sessions i id = some window) :
    ∃ p : ℕ, (p : ℤ) = testPosition sessions.length i ∧ sessions[p]? = some window.testStart := by
  obtain ⟨_, _, test, _, ⟨_, _, htest, _⟩, _, _, htest', _⟩ := exists_positions h
  rw [position?_eq_some_iff] at htest
  refine ⟨test, ?_, htest'⟩
  rw [testPosition]
  split_ifs <;> omega

/-- Below the first test index nothing is appended, and a step that is not positive
stays there. -/
theorem not_returns_of_lt {count : ℕ} {windows : List WalkForwardWindow}
    (hstep : cfg.stepDays ≤ 0) (hbelow : i < sessions.length)
    (hskip : i < cfg.firstTest ∨ cfg.testDays ≤ 0) : ¬ cfg.Returns sessions i count windows := by
  intro h
  induction h with
  | ended hi => omega
  | skipped hi happends hrest ih => exact ih (by omega) (by omega)
  | full hi happends hwindow hfull =>
      rw [appends_iff hi] at happends
      omega
  | next hi happends hwindow hfull hrest ih =>
      rw [appends_iff hi] at happends
      omega

/-- The window at a test index where one is appended comes first. -/
theorem exists_cons_of_returns {count : ℕ} {windows : List WalkForwardWindow}
    (h : cfg.Returns sessions i count windows) (hi : i < sessions.length)
    (happends : cfg.Appends sessions.length i) :
    ∃ window rest, windows = window :: rest ∧ cfg.window? sessions i count = some window ∧
      (cfg.Full (count + 1) ∨
        ¬ cfg.Full (count + 1) ∧ cfg.Returns sessions (i + cfg.stepDays) (count + 1) rest) := by
  cases h with
  | ended hend => exact absurd hi (not_lt.mpr hend)
  | skipped _ hnot => exact absurd happends hnot
  | full _ _ hwindow hfull => exact ⟨_, [], rfl, hwindow, .inl hfull⟩
  | next _ _ hwindow hfull hrest => exact ⟨_, _, rfl, hwindow, .inr ⟨hfull, hrest⟩⟩

end WalkForwardConfig

/-- Embargoed windows in increasing order of their test blocks. -/
structure Embargoed (cfg : WalkForwardConfig) (maxHorizon : Option ℤ) (sessions : List ℤ)
    (windows : List WalkForwardWindow) : Prop where
  each : ∀ window ∈ windows, window.Embargoed cfg maxHorizon sessions
  increasing : windows.Pairwise fun window window' => window.testStart < window'.testStart

namespace WalkForwardConfig

variable {cfg : WalkForwardConfig} {maxHorizon : Option ℤ} {sessions : List ℤ}
  {windows : List WalkForwardWindow}

theorem appends_testIndex (hstep : 1 ≤ cfg.stepDays) (htest : 1 ≤ cfg.testDays) {k n : ℕ}
    (hk : cfg.testIndex k < n) : cfg.Appends n (cfg.testIndex k) :=
  (appends_iff hk).mpr ⟨testIndex_zero.symm.le.trans (testIndex_mono hstep k.zero_le), htest⟩

/-- In embargoed windows every test index that is reached is sound, and the positions
increase. -/
theorem sound_of_returns (hsorted : sessions.Pairwise (· < ·)) (hstep : 1 ≤ cfg.stepDays)
    (htest : 1 ≤ cfg.testDays) {i : ℤ} {k : ℕ} (h : cfg.Returns sessions i k windows)
    (hi : i = cfg.testIndex k) (hwindows : Embargoed cfg maxHorizon sessions windows) {j : ℕ}
    (hkj : k ≤ j) (hj : cfg.Reached sessions.length j) :
    cfg.Sound sessions.length (cfg.testIndex j) ∧
      (cfg.Reached sessions.length (j + 1) → testPosition sessions.length (cfg.testIndex j) <
        testPosition sessions.length (cfg.testIndex (j + 1))) := by
  induction h with
  | ended hend =>
      have hle := testIndex_mono hstep hkj
      exact absurd hj.1 (not_lt.mpr (hend.trans (hi.le.trans hle)))
  | skipped hlt hnot =>
      subst hi
      exact absurd (appends_testIndex hstep htest hlt) hnot
  | @full i count window hlt happends hwindow hfull =>
      have hjfull : ∀ {m : ℕ}, count + 1 ≤ m → ¬ cfg.Reached sessions.length m := by
        intro m hm hreached
        rcases hreached.2 with rfl | hnot
        · exact Nat.not_succ_le_zero _ hm
        · exact hnot (full_mono hm hfull)
      rcases hkj.eq_or_lt with rfl | hlater
      · subst hi
        exact ⟨sound_of_embargoed hsorted hlt hwindow
          (hwindows.each _ List.mem_cons_self), fun hnext => absurd hnext (hjfull le_rfl)⟩
      · exact absurd hj (hjfull hlater)
  | @next i count window rest hlt happends hwindow hfull hrest ih =>
      subst hi
      rcases hkj.eq_or_lt with rfl | hlater
      · refine ⟨sound_of_embargoed hsorted hlt hwindow
          (hwindows.each _ List.mem_cons_self), fun hnext => ?_⟩
        rw [← testIndex_succ] at hrest
        obtain ⟨window', _, rfl, hwindow', -⟩ := exists_cons_of_returns hrest hnext.1
          (appends_testIndex hstep htest hnext.1)
        obtain ⟨p, hp, hp'⟩ := testStart_of_window? hwindow
        obtain ⟨q, hq, hq'⟩ := testStart_of_window? hwindow'
        have hlt' := (List.pairwise_cons.mp hwindows.increasing).1 window' List.mem_cons_self
        rw [← hp, ← hq]
        exact_mod_cast (getElem?_lt_iff hsorted hp' hq').mp hlt'
      · exact ih (testIndex_succ _).symm ⟨fun w hw => hwindows.each w (List.mem_cons_of_mem _ hw),
          (List.pairwise_cons.mp hwindows.increasing).2⟩ hlater

/-- A loop that ends with increasing windows makes a positive step or stops at one window. -/
theorem step_of_returns (hfirst : cfg.firstTest < sessions.length)
    (htest : 1 ≤ cfg.testDays) (h : cfg.Returns sessions cfg.firstTest 0 windows)
    (hwindows : Embargoed cfg maxHorizon sessions windows) : 1 ≤ cfg.stepDays ∨ cfg.Full 1 := by
  have happends := (appends_iff hfirst).mpr ⟨le_rfl, htest⟩
  obtain ⟨window, rest, rfl, hwindow, hfull | ⟨hnot, hrest⟩⟩ :=
    exists_cons_of_returns h hfirst happends
  · exact .inr hfull
  · refine .inl (not_lt.mp fun hstep => ?_)
    have hnonpos : cfg.stepDays ≤ 0 := Int.lt_add_one_iff.mp hstep
    rcases hnonpos.lt_or_eq with hneg | hzero
    · exact not_returns_of_lt hnonpos (by omega) (.inl (by omega)) hrest
    · -- the same window is appended again
      rw [hzero, add_zero] at hrest
      obtain ⟨window', _, rfl, hwindow', -⟩ := exists_cons_of_returns hrest hfirst happends
      obtain ⟨p, hp, hp'⟩ := testStart_of_window? hwindow
      obtain ⟨q, hq, hq'⟩ := testStart_of_window? hwindow'
      have hpq : p = q := by exact_mod_cast hp.trans hq.symm
      have hlt := (List.pairwise_cons.mp hwindows.increasing).1 window' List.mem_cons_self
      rw [hpq, hq', Option.some.injEq] at hp'
      exact absurd hp'.symm hlt.ne

theorem returns_of_sound (hsorted : sessions.Pairwise (· < ·)) (hembargo : 0 ≤ cfg.embargoDays)
    (hhorizon : ∀ horizon ∈ maxHorizon, horizon ≤ cfg.embargoDays) (htest : 1 ≤ cfg.testDays)
    (hstep : 1 ≤ cfg.stepDays ∨ cfg.Full 1)
    (hsound : ∀ j, cfg.Reached sessions.length j → cfg.Sound sessions.length (cfg.testIndex j))
    (hincreasing : ∀ j, cfg.Reached sessions.length (j + 1) →
      testPosition sessions.length (cfg.testIndex j) <
        testPosition sessions.length (cfg.testIndex (j + 1)))
    (k : ℕ) (hk : cfg.Reached sessions.length k) :
    ∃ windows, cfg.Returns sessions (cfg.testIndex k) k windows ∧
      Embargoed cfg maxHorizon sessions windows ∧ ∀ window ∈ windows, ∃ p : ℕ,
        testPosition sessions.length (cfg.testIndex k) ≤ p ∧
          sessions[p]? = some window.testStart := by
  induction hmeasure : (sessions.length - cfg.testIndex k).toNat using Nat.strong_induction_on
    generalizing k with
  | _ fuel ih =>
      have hfirst : cfg.firstTest ≤ cfg.testIndex k := by
        rcases hk.2 with rfl | hnot
        · exact testIndex_zero.symm.le
        · rcases hstep with hstep | hfull
          · exact testIndex_zero.symm.le.trans (testIndex_mono hstep k.zero_le)
          · rcases k.eq_zero_or_pos with rfl | hpos
            · exact testIndex_zero.symm.le
            · exact absurd (full_mono hpos hfull) hnot
      have happends : cfg.Appends sessions.length (cfg.testIndex k) :=
        (appends_iff hk.1).mpr ⟨hfirst, htest⟩
      obtain ⟨window, hwindow, hembargoed⟩ := embargoed_of_sound hsorted hembargo hhorizon hfirst
        hk.1 htest k (hsound k hk)
      obtain ⟨p, hp, hp'⟩ := testStart_of_window? hwindow
      have hsingle : Embargoed cfg maxHorizon sessions [window] :=
        ⟨by simpa using hembargoed, List.pairwise_singleton _ _⟩
      by_cases hfull : cfg.Full (k + 1)
      · refine ⟨[window], .full hk.1 happends hwindow hfull, hsingle, ?_⟩
        simpa using ⟨p, hp.ge, hp'⟩
      · have hpos : 1 ≤ cfg.stepDays :=
          hstep.resolve_right fun h => hfull (full_mono (Nat.le_add_left 1 k) h)
        have hsucc : cfg.testIndex (k + 1) = cfg.testIndex k + cfg.stepDays := testIndex_succ k
        by_cases hnext : cfg.testIndex (k + 1) < sessions.length
        · obtain ⟨rest, hrest, hrest', hpositions⟩ := ih _ (by have := hk.1; omega) (k + 1)
            ⟨hnext, .inr hfull⟩ rfl
          have hlt := hincreasing k ⟨hnext, .inr hfull⟩
          refine ⟨window :: rest, .next hk.1 happends hwindow hfull (hsucc ▸ hrest), ⟨?_, ?_⟩, ?_⟩
          · exact List.forall_mem_cons.mpr ⟨hembargoed, hrest'.each⟩
          · refine List.pairwise_cons.mpr ⟨fun window' hmem => ?_, hrest'.increasing⟩
            obtain ⟨q, hq, hq'⟩ := hpositions window' hmem
            exact (getElem?_lt_iff hsorted hp' hq').mpr (by omega)
          · refine List.forall_mem_cons.mpr ⟨⟨p, hp.ge, hp'⟩, fun window' hmem => ?_⟩
            obtain ⟨q, hq, hq'⟩ := hpositions window' hmem
            exact ⟨q, by omega, hq'⟩
        · refine ⟨[window], .next hk.1 happends hwindow hfull (.ended (by omega)), hsingle, ?_⟩
          simpa using ⟨p, hp.ge, hp'⟩

/-! ## The condition -/

/-- All indices count from the end: the first test index is negative, and the windows
that follow do not pass zero, or pass over all sessions. -/
def Wraps (cfg : WalkForwardConfig) (n : ℕ) : Prop :=
  cfg.firstTest < 0 ∧ 1 - cfg.minTrainDays ≤ n ∧
    ((cfg.Full 1 ∨ n < cfg.stepDays ∧
        (cfg.scheme = "expanding" ∨ n ≤ cfg.firstTest + cfg.stepDays)) ∧
      (cfg.firstTest + cfg.testDays ≤ 0 ∨ n < cfg.testDays) ∨
    1 ≤ cfg.stepDays ∧ ∃ k : ℕ, cfg.maxWindows = some (k + 1 : ℤ) ∧ cfg.testIndex k < 0 ∧
      (cfg.testIndex k + cfg.testDays ≤ 0 ∨ n < cfg.testDays))

/-- When the loop ends with embargoed windows on a number of sessions: there is no window
to append, or there are training days and the loop advances or stops at one window. -/
def Advances (cfg : WalkForwardConfig) (n : ℕ) : Prop :=
  n ≤ cfg.firstTest ∨ cfg.testDays ≤ 0 ∧ 1 ≤ cfg.stepDays ∨
    1 ≤ cfg.testDays ∧
      (1 ≤ cfg.minTrainDays ∧ (1 ≤ cfg.stepDays ∨ cfg.Full 1) ∨ cfg.Wraps n)

section Condition

variable {n : ℕ}

theorem reached_zero_of_full {k : ℕ} (hfull : cfg.Full 1) (h : cfg.Reached n k) : k = 0 := by
  rcases h.2 with rfl | hnot
  · rfl
  · exact Nat.eq_zero_of_not_pos fun hpos => hnot (full_mono hpos hfull)

theorem reached_of_succ {k : ℕ} (hstep : 1 ≤ cfg.stepDays ∨ cfg.Full 1)
    (h : cfg.Reached n (k + 1)) : cfg.Reached n k := by
  rcases hstep with hstep | hfull
  · refine ⟨(testIndex_mono hstep k.le_succ).trans_lt h.1, .inr fun hfull => ?_⟩
    exact h.2.resolve_left k.succ_ne_zero (full_mono k.le_succ hfull)
  · exact absurd (reached_zero_of_full hfull h) k.succ_ne_zero

theorem sound_of_advances (hembargo : 0 ≤ cfg.embargoDays) (hmin : 1 ≤ cfg.minTrainDays)
    (hstep : 1 ≤ cfg.stepDays ∨ cfg.Full 1) {k : ℕ} (hk : cfg.Reached n k) :
    cfg.Sound n (cfg.testIndex k) ∧ (cfg.Reached n (k + 1) →
      testPosition n (cfg.testIndex k) < testPosition n (cfg.testIndex (k + 1))) := by
  have hfirst : cfg.firstTest ≤ cfg.testIndex k := by
    rcases hstep with hstep | hfull
    · exact testIndex_zero.symm.le.trans (testIndex_mono hstep k.zero_le)
    · rw [reached_zero_of_full hfull hk, testIndex_zero]
  have hstart := trainStartIdx_eq hfirst
  have hlt := hk.1
  have hbase : cfg.embargoDays + 1 ≤ cfg.firstTest := by
    rw [firstTest]
    omega
  refine ⟨⟨by omega, .inl (by omega)⟩, fun hnext => ?_⟩
  rcases hstep with hstep | hfull
  · have hsucc : cfg.testIndex (k + 1) = cfg.testIndex k + cfg.stepDays := testIndex_succ k
    rw [testPosition, testPosition, if_neg (by omega), if_neg (by omega)]
    omega
  · exact absurd (reached_zero_of_full hfull hnext) (Nat.succ_ne_zero k)

theorem sound_of_negative {i : ℤ} (hembargo : 0 ≤ cfg.embargoDays)
    (hroom : 1 - cfg.minTrainDays ≤ n) (hfirst : cfg.firstTest ≤ i) (hnegative : i < 0)
    (hend : i + cfg.testDays ≤ 0 ∨ n < cfg.testDays) : cfg.Sound n i := by
  have hstart := trainStartIdx_eq hfirst
  rw [firstTest] at hfirst hstart
  exact ⟨by omega, .inr ⟨hnegative, by omega, hend⟩⟩

theorem sound_of_wraps (hembargo : 0 ≤ cfg.embargoDays) (hwraps : cfg.Wraps n) {k : ℕ}
    (hk : cfg.Reached n k) : cfg.Sound n (cfg.testIndex k) ∧ (cfg.Reached n (k + 1) →
      testPosition n (cfg.testIndex k) < testPosition n (cfg.testIndex (k + 1))) := by
  obtain ⟨hneg, hroom, ⟨hcount, hend⟩ | ⟨hstep, limit, hlimit, hlast, hend⟩⟩ := hwraps
  · rcases hcount with hfull | ⟨hbig, hscheme⟩
    · obtain rfl := reached_zero_of_full hfull hk
      rw [testIndex_zero]
      exact ⟨sound_of_negative hembargo hroom le_rfl hneg hend,
        fun hnext => absurd (reached_zero_of_full hfull hnext) one_ne_zero⟩
    · -- the second window passes over all sessions, and there is no third
      have hone : cfg.testIndex 1 = cfg.firstTest + cfg.stepDays := by
        rw [testIndex_succ, testIndex_zero]
      have htwo : cfg.testIndex 2 = cfg.firstTest + cfg.stepDays + cfg.stepDays := by
        rw [testIndex_succ, hone]
      have hpast : cfg.embargoDays + 1 ≤ cfg.firstTest + cfg.stepDays := by
        rw [firstTest]
        omega
      match k with
      | 0 =>
          rw [testIndex_zero, zero_add, hone, testPosition, testPosition, if_pos hneg,
            if_neg (by omega)]
          exact ⟨sound_of_negative hembargo hroom le_rfl hneg hend,
            fun _ => by omega⟩
      | 1 =>
          have hlt := hk.1
          have hexpanding : cfg.trainStartIdx (cfg.testIndex 1) = 0 := by
            have : cfg.scheme = "expanding" := hscheme.resolve_right (by omega)
            rw [trainStartIdx, this]
            rfl
          refine ⟨⟨by omega, .inl (by omega)⟩, fun hnext => ?_⟩
          have hlt' : cfg.testIndex 2 < n := hnext.1
          omega
      | k + 2 =>
          have hlt := hk.1
          have hle : cfg.testIndex 2 ≤ cfg.testIndex (k + 2) :=
            testIndex_mono (by omega) (Nat.le_add_left 2 k)
          omega
  · have hle : ∀ {j : ℕ}, cfg.Reached n j → j ≤ limit := by
      intro j hj
      rcases hj.2 with rfl | hnot
      · exact limit.zero_le
      · by_contra hlt
        exact hnot ⟨_, hlimit, by omega⟩
    have hlimit' := testIndex_mono hstep (hle hk)
    refine ⟨sound_of_negative hembargo hroom
      (testIndex_zero.ge.trans (testIndex_mono hstep k.zero_le)) (by omega) (by omega),
      fun hnext => ?_⟩
    have hnext' := testIndex_mono hstep (hle hnext)
    have hsucc : cfg.testIndex (k + 1) = cfg.testIndex k + cfg.stepDays := testIndex_succ k
    rw [testPosition, testPosition, if_pos (by omega), if_pos (by omega)]
    omega

theorem exists_nonneg_testIndex (hstep : 1 ≤ cfg.stepDays) : ∃ k, 0 ≤ cfg.testIndex k := by
  refine ⟨(-cfg.firstTest).toNat, ?_⟩
  rw [testIndex]
  have hle := Int.self_le_toNat (-cfg.firstTest)
  nlinarith

/-- Windows that count from the end and do not pass over all sessions must stop in time. -/
theorem exists_limit (hembargo : 0 ≤ cfg.embargoDays) (hstep : 1 ≤ cfg.stepDays)
    (hsmall : ¬ n < cfg.stepDays) (hfull : ¬ cfg.Full 1) (hneg : cfg.firstTest < 0)
    (hsound : ∀ k, cfg.Reached n k → cfg.Sound n (cfg.testIndex k))
    (hincreasing : ∀ k, cfg.Reached n (k + 1) →
      testPosition n (cfg.testIndex k) < testPosition n (cfg.testIndex (k + 1))) :
    ∃ k : ℕ, cfg.maxWindows = some (k + 1 : ℤ) ∧ cfg.testIndex k < 0 ∧
      (cfg.testIndex k + cfg.testDays ≤ 0 ∨ n < cfg.testDays) := by
  -- the first test index that does not count from the end
  obtain ⟨k, hk, hbefore⟩ : ∃ k, 0 ≤ cfg.testIndex k ∧ ∀ j < k, cfg.testIndex j < 0 :=
    ⟨_, Nat.find_spec (exists_nonneg_testIndex hstep),
      fun j hj => not_le.mp (Nat.find_min (exists_nonneg_testIndex hstep) hj)⟩
  obtain ⟨j, rfl⟩ : ∃ j, k = j + 1 := by
    refine Nat.exists_eq_succ_of_ne_zero ?_
    rintro rfl
    rw [testIndex_zero] at hk
    omega
  have hj := hbefore j j.lt_succ_self
  have hsucc : cfg.testIndex (j + 1) = cfg.testIndex j + cfg.stepDays := testIndex_succ j
  by_cases hlimit : cfg.Full (j + 1)
  · obtain ⟨limit, hmax, hle⟩ := hlimit
    have htwo : 1 < limit := not_le.mp fun hone => hfull ⟨limit, hmax, by exact_mod_cast hone⟩
    have hcast : ((limit - 1).toNat : ℤ) = limit - 1 := Int.toNat_of_nonneg (by omega)
    have hlast := hbefore (limit - 1).toNat (by omega)
    have hreached : cfg.Reached n (limit - 1).toNat := by
      refine ⟨by omega, .inr fun ⟨limit', hmax', hle'⟩ => ?_⟩
      rw [Option.mem_def] at hmax hmax'
      rw [hmax, Option.some.injEq] at hmax'
      omega
    obtain ⟨-, hpositive | ⟨-, -, hend⟩⟩ := hsound _ hreached
    · omega
    · refine ⟨(limit - 1).toNat, ?_, hlast, hend⟩
      rw [hcast, sub_add_cancel]
      exact hmax
  · have hlt := hincreasing j ⟨by omega, .inr hlimit⟩
    rw [testPosition, testPosition, if_pos hj, if_neg (by omega)] at hlt
    omega

/-- Sound windows at increasing positions are those of the condition. -/
theorem advances_of_sound (hembargo : 0 ≤ cfg.embargoDays)
    (hscheme : cfg.scheme = "expanding" ∨ cfg.scheme = "rolling") (hfirst : cfg.firstTest < n)
    (hstep : 1 ≤ cfg.stepDays ∨ cfg.Full 1)
    (hsound : ∀ k, cfg.Reached n k → cfg.Sound n (cfg.testIndex k))
    (hincreasing : ∀ k, cfg.Reached n (k + 1) →
      testPosition n (cfg.testIndex k) < testPosition n (cfg.testIndex (k + 1))) :
    1 ≤ cfg.minTrainDays ∧ (1 ≤ cfg.stepDays ∨ cfg.Full 1) ∨ cfg.Wraps n := by
  have hzero := hsound 0 ⟨by rwa [testIndex_zero], .inl rfl⟩
  rw [testIndex_zero] at hzero
  obtain ⟨-, hpositive | ⟨hneg, hroom, hend⟩⟩ := hzero
  · rw [firstTest] at hpositive
    exact .inl ⟨by omega, hstep⟩
  · have hroom' : 1 - cfg.minTrainDays ≤ n := by
      rw [firstTest] at hroom
      omega
    refine .inr ⟨hneg, hroom', ?_⟩
    by_cases hfull : cfg.Full 1
    · exact .inl ⟨.inl hfull, hend⟩
    · have hpos : 1 ≤ cfg.stepDays := hstep.resolve_right hfull
      by_cases hbig : n < cfg.stepDays
      · refine .inl ⟨.inr ⟨hbig, ?_⟩, hend⟩
        refine hscheme.imp_right fun hrolling => not_lt.mp fun hlt => ?_
        -- the training block of the second window would start after the last session
        have hone : cfg.testIndex 1 = cfg.firstTest + cfg.stepDays := by
          rw [testIndex_succ, testIndex_zero]
        have hstart := (hsound 1 ⟨hone ▸ hlt, .inr hfull⟩).1
        rw [hone, trainStartIdx, if_pos hrolling, trainEndIdx, firstTest] at hstart
        omega
      · exact .inr ⟨hpos, exists_limit hembargo hpos hbig hfull hneg hsound hincreasing⟩

end Condition

/-- A loop without test days appends nothing, and ends when it advances. -/
theorem returns_nil_of_no_test (hstep : 1 ≤ cfg.stepDays) (htest : cfg.testDays ≤ 0) (i : ℤ) :
    cfg.Returns sessions i 0 [] := by
  induction hmeasure : (sessions.length - i).toNat using Nat.strong_induction_on
    generalizing i with
  | _ fuel ih =>
      by_cases hi : i < sessions.length
      · refine .skipped hi ?_ (ih _ (by omega) _ rfl)
        rw [appends_iff hi]
        omega
      · exact .ended (not_lt.mp hi)

theorem exists_returns_iff_advances (hsorted : sessions.Pairwise (· < ·))
    (hcheck : cfg.check maxHorizon = .ok ()) (hfirst : cfg.firstTest < sessions.length) :
    (∃ windows, cfg.Returns sessions cfg.firstTest 0 windows ∧
      Embargoed cfg maxHorizon sessions windows) ↔ cfg.Advances sessions.length := by
  obtain ⟨hembargo, hhorizon, hscheme⟩ := check_eq_ok_iff.mp hcheck
  have hreached : cfg.Reached sessions.length 0 := ⟨by rwa [testIndex_zero], .inl rfl⟩
  constructor
  · rintro ⟨windows, hreturns, hwindows⟩
    by_cases htest : 1 ≤ cfg.testDays
    · have hstep := step_of_returns hfirst htest hreturns hwindows
      refine .inr (.inr ⟨htest, ?_⟩)
      by_cases hpos : 1 ≤ cfg.stepDays
      · have hsound := fun k (hk : cfg.Reached sessions.length k) => sound_of_returns hsorted hpos
          htest hreturns testIndex_zero.symm hwindows k.zero_le hk
        exact advances_of_sound hembargo hscheme hfirst hstep (fun k hk => (hsound k hk).1)
          fun k hk => (hsound k (reached_of_succ hstep hk)).2 hk
      · -- only the first test index is reached
        have hfull := hstep.resolve_left hpos
        have hzero : ∀ k, cfg.Reached sessions.length k → k = 0 :=
          fun k hk => reached_zero_of_full hfull hk
        refine advances_of_sound hembargo hscheme hfirst hstep (fun k hk => ?_)
          fun k hk => absurd (hzero _ hk) k.succ_ne_zero
        obtain rfl := hzero k hk
        obtain ⟨window, _, rfl, hwindow, -⟩ := exists_cons_of_returns hreturns hfirst
          ((appends_iff hfirst).mpr ⟨le_rfl, htest⟩)
        rw [testIndex_zero]
        exact sound_of_embargoed hsorted hfirst hwindow (hwindows.each _ List.mem_cons_self)
    · refine .inr (.inl ⟨by omega, not_lt.mp fun hstep => ?_⟩)
      exact not_returns_of_lt (by omega) hfirst (.inr (by omega)) hreturns
  · rintro (hnone | ⟨htest, hstep⟩ | ⟨htest, hadvances⟩)
    · exact absurd hfirst (not_lt.mpr hnone)
    · exact ⟨[], returns_nil_of_no_test hstep htest _, by simp, .nil⟩
    · have hstep : 1 ≤ cfg.stepDays ∨ cfg.Full 1 := by
        rcases hadvances with ⟨-, hstep⟩ | ⟨-, -, ⟨hfull | ⟨hbig, -⟩, -⟩ | ⟨hstep, -⟩⟩
        · exact hstep
        · exact .inr hfull
        · exact .inl (by omega)
        · exact .inl hstep
      have hsound : ∀ k, cfg.Reached sessions.length k →
          cfg.Sound sessions.length (cfg.testIndex k) ∧ (cfg.Reached sessions.length (k + 1) →
            testPosition sessions.length (cfg.testIndex k) <
              testPosition sessions.length (cfg.testIndex (k + 1))) := by
        rcases hadvances with ⟨hmin, -⟩ | hwraps
        · exact fun k hk => sound_of_advances hembargo hmin hstep hk
        · exact fun k hk => sound_of_wraps hembargo hwraps hk
      obtain ⟨windows, hreturns, hwindows, -⟩ := returns_of_sound hsorted hembargo hhorizon htest
        hstep (fun k hk => (hsound k hk).1)
        (fun k hk => (hsound k (reached_of_succ hstep hk)).2 hk) 0 hreached
      rw [testIndex_zero] at hreturns
      exact ⟨windows, hreturns, hwindows⟩

end WalkForwardConfig

/-! ## Splits -/

theorem makeWalkForwardSplits_eq {dates : List ℤ} {cfg : WalkForwardConfig}
    {maxHorizon : Option ℤ} (hcheck : cfg.check maxHorizon = .ok ()) (fuel : ℕ) :
    makeWalkForwardSplits fuel dates cfg maxHorizon =
      if (uniqueDates dates).length ≤ cfg.firstTest then some (.ok [])
      else cfg.splitLoop (uniqueDates dates) fuel cfg.firstTest [] := by
  rw [makeWalkForwardSplits, hcheck]
  rfl

theorem makeWalkForwardSplits_iff {dates : List ℤ} {cfg : WalkForwardConfig}
    {maxHorizon : Option ℤ} {windows : List WalkForwardWindow}
    (hcheck : cfg.check maxHorizon = .ok ()) :
    (∃ fuel, makeWalkForwardSplits fuel dates cfg maxHorizon = some (.ok windows)) ↔
      if (uniqueDates dates).length ≤ cfg.firstTest then windows = []
      else cfg.Returns (uniqueDates dates) cfg.firstTest 0 windows := by
  simp only [makeWalkForwardSplits_eq hcheck]
  split_ifs with hempty
  · simp only [Option.some.injEq, Except.ok.injEq, exists_const]
    exact eq_comm
  · constructor
    · rintro ⟨fuel, hfuel⟩
      obtain ⟨rest, rfl, hrest⟩ := WalkForwardConfig.returns_of_splitLoop hfuel
      exact hrest
    · intro hreturns
      exact WalkForwardConfig.splitLoop_of_returns hreturns [] rfl

/-- An accepted configuration ends with embargoed windows exactly when it advances. -/
theorem splits_embargoed_iff_advances (dates : List ℤ) (cfg : WalkForwardConfig)
    (maxHorizon : Option ℤ) (hcheck : cfg.check maxHorizon = .ok ()) :
    (∃ fuel windows, makeWalkForwardSplits fuel dates cfg maxHorizon = some (.ok windows) ∧
      Embargoed cfg maxHorizon (uniqueDates dates) windows) ↔
      cfg.Advances (uniqueDates dates).length := by
  rw [exists_comm]
  simp only [exists_and_right, makeWalkForwardSplits_iff hcheck]
  split_ifs with hempty
  · exact iff_of_true ⟨[], rfl, by simp, .nil⟩ (.inl hempty)
  · exact WalkForwardConfig.exists_returns_iff_advances (uniqueDates_pairwise dates) hcheck
      (not_le.mp hempty)

theorem default_splits_embargoed :
    (∃ fuel windows, makeWalkForwardSplits fuel [3, 1, 2] {} (some 20) = some (.ok windows) ∧
      Embargoed {} (some 20) (uniqueDates [3, 1, 2]) windows) ↔
      WalkForwardConfig.Advances {} (uniqueDates [3, 1, 2]).length :=
  splits_embargoed_iff_advances [3, 1, 2] {} (some 20) (by decide)

/-- Two training days, one test day and no step: the loop appends one window for ever. -/
def standing : WalkForwardConfig where
  minTrainDays := 2
  testDays := 1
  stepDays := 0
  embargoDays := 1

theorem splitLoop_standing (fuel : ℕ) (windows : List WalkForwardWindow) :
    standing.splitLoop [1, 2, 3, 4] fuel 3 windows = none := by
  induction fuel generalizing windows with
  | zero => rfl
  | succ fuel ih =>
      rw [WalkForwardConfig.splitLoop, if_pos (by decide), if_pos (by decide)]
      exact (if_neg (by simp [WalkForwardConfig.Full, standing])).trans (ih _)

theorem standing_never_ends :
    ¬ ∀ (dates : List ℤ) (cfg : WalkForwardConfig) (maxHorizon : Option ℤ),
      cfg.check maxHorizon = .ok () →
        ∃ fuel windows, makeWalkForwardSplits fuel dates cfg maxHorizon = some (.ok windows) ∧
          Embargoed cfg maxHorizon (uniqueDates dates) windows := by
  intro hends
  obtain ⟨fuel, windows, hwindows, -⟩ := hends [1, 2, 3, 4] standing (some 1) (by decide)
  have hloop : makeWalkForwardSplits fuel [1, 2, 3, 4] standing (some 1) =
      standing.splitLoop [1, 2, 3, 4] fuel 3 [] := rfl
  rw [hloop, splitLoop_standing] at hwindows
  cases hwindows

end WalkForward
