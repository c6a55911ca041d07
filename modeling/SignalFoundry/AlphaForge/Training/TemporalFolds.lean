import SignalFoundry.AlphaForge.Training.Leakage
import SignalFoundry.AlphaForge.Training.TemporalPlan

/-!
# Folds that are complete and safe

The blocks of a fold are slices of the development sessions one after another, and
purging only moves dates to the overlap role, so that the roles of a fold partition its
window. The test boundary is the session after the test block whether or not that is the
first of the holdout; so later sessions change nothing in a fold but its holdout.
-/

namespace TemporalPlan

open Fallible PurgedCv

/-! ## Slices -/

section Slices

variable {l l' : List Timestamp} {a b c : ℕ}

theorem slice_append_slice (hab : a ≤ b) (hbc : b ≤ c) :
    slice l a b ++ slice l b c = slice l a c := by
  have htake : (l.take c).take b = l.take b := by rw [List.take_take, min_eq_left hbc]
  have hsplit : slice l a c = (l.take b ++ slice l b c).drop a := by
    rw [← htake, slice, slice, List.take_append_drop]
  rw [hsplit, List.drop_append]
  by_cases ha : a ≤ (l.take b).length
  · rw [Nat.sub_eq_zero_of_le ha, List.drop_zero]
    rfl
  · have hshort : slice l b c = [] := by
      rw [List.length_take] at ha
      exact List.drop_of_length_le (by rw [List.length_take]; omega)
    rw [hshort, List.drop_nil]
    rfl

theorem slice_zero (l : List Timestamp) (b : ℕ) : slice l 0 b = l.take b := List.drop_zero

theorem mem_of_mem_slice {x : Timestamp} (h : x ∈ slice l a b) : x ∈ l :=
  List.mem_of_mem_take (List.mem_of_mem_drop h)

theorem slice_sublist (l : List Timestamp) (a b : ℕ) : (slice l a b).Sublist l :=
  (List.drop_sublist _ _).trans (List.take_sublist _ _)

theorem slice_take (h : b ≤ c) : slice (l.take c) a b = slice l a b := by
  rw [slice, slice, List.take_take, min_eq_left h]

theorem length_slice (hbl : b ≤ l.length) : (slice l a b).length = b - a := by
  rw [slice, List.length_drop, List.length_take, min_eq_left hbl]

theorem slice_ne_nil (hab : a < b) (hbl : b ≤ l.length) : slice l a b ≠ [] := by
  rw [← List.length_pos_iff, length_slice hbl]
  omega

end Slices

/-! ## Purging -/

section Purging

variable {candidates : List Timestamp} {boundary date : Timestamp} {eventEnds : EventEnds}

theorem containedDates_perm :
    ((containedDates candidates boundary eventEnds).1 ++
      (containedDates candidates boundary eventEnds).2).Perm candidates := by
  rw [containedDates]
  split_ifs
  · rw [List.append_nil]
  · have h := List.filter_append_perm (fun date => !crosses eventEnds boundary date) candidates
    simpa only [Bool.not_not] using h

theorem mem_of_mem_contained (h : date ∈ (containedDates candidates boundary eventEnds).1) :
    date ∈ candidates :=
  containedDates_perm.mem_iff.mp (List.mem_append_left _ h)

theorem not_crosses_of_mem_contained
    (h : date ∈ (containedDates candidates boundary eventEnds).1) :
    crosses eventEnds boundary date = false := by
  rw [containedDates] at h
  split_ifs at h with hnone
  · rcases hnone with rfl | rfl
    · cases h
    · rfl
  · simpa using (List.mem_filter.mp h).2

/-- A date that does not cross has all its label intervals before the boundary. -/
theorem futureEnd_lt_of_not_crosses {labelEvents : Option (List LabelEvent)}
    (hends : eventEndByDate labelEvents = .ok eventEnds) {row : LabelInterval}
    (hrow : row ∈ observedIntervals labelEvents)
    (hcrosses : crosses eventEnds boundary row.date = false) : row.futureEnd < boundary := by
  simp only [eventEndByDate, bind_eq_ok_iff, pure_eq_ok, Except.ok.injEq] at hends
  obtain ⟨-, -, -, -, -, -, -, -, rfl⟩ := hends
  change crosses (((observedIntervals labelEvents).map (·.date)).dedup.insertionSort (· ≤ ·) |>.map
    fun date => (date, (endsOn (observedIntervals labelEvents) date).max?.getD date))
    boundary row.date = false at hcrosses
  have hdate : row.date ∈
      ((observedIntervals labelEvents).map (·.date)).dedup.insertionSort (· ≤ ·) := by
    rw [List.mem_insertionSort, List.mem_dedup]
    exact List.mem_map_of_mem hrow
  rw [crosses, lookup_map_self, if_pos hdate] at hcrosses
  have hend : row.futureEnd ∈ endsOn (observedIntervals labelEvents) row.date :=
    List.mem_map.mpr ⟨row, List.mem_filter.mpr ⟨hrow, by simp⟩, rfl⟩
  simp only [Option.any_some, decide_eq_false_iff_not, not_le] at hcrosses
  exact (le_getD_max? hend).trans_lt hcrosses

end Purging

/-! ## Folds -/

namespace TemporalValidationConfig

variable {cfg : TemporalValidationConfig} {sessions : List Timestamp} {eventEnds : EventEnds}
  {cursor : ℕ}

/-- Where the window of a fold starts. -/
def windowStart (cfg : TemporalValidationConfig) (cursor : ℕ) : ℕ :=
  match cfg.scheme with
  | .expanding => 0
  | .rolling => cursor - cfg.minTrainSessions

/-- The development sessions from the start of the training block to the end of the test
block. -/
def window (cfg : TemporalValidationConfig) (sessions : List Timestamp) (cursor : ℕ) :
    List Timestamp :=
  slice (cfg.development sessions) (cfg.windowStart cursor) (cfg.testEnd cursor)

theorem rawTrain_eq (hcursor : cursor ≤ (cfg.development sessions).length) :
    cfg.rawTrain sessions cursor =
      slice (cfg.development sessions) (cfg.windowStart cursor) cursor := by
  cases hscheme : cfg.scheme with
  | expanding => simp only [rawTrain, windowStart, hscheme, slice_zero]
  | rolling =>
      simp only [rawTrain, windowStart, hscheme, List.length_take, min_eq_left hcursor]
      rfl

theorem windowStart_le (cursor : ℕ) : cfg.windowStart cursor ≤ cursor := by
  rw [windowStart]
  split
  · exact Nat.zero_le _
  · exact Nat.sub_le _ _

/-- The blocks of a fold follow one another. -/
theorem blocks_eq_window (hcursor : cursor ≤ (cfg.development sessions).length) :
    cfg.rawTrain sessions cursor ++
      (slice (cfg.development sessions) cursor (cfg.validationStart cursor) ++
        (cfg.rawValidation sessions cursor ++
          (slice (cfg.development sessions) (cfg.validationEnd cursor) (cfg.testStart cursor) ++
            cfg.rawTest sessions cursor))) = cfg.window sessions cursor := by
  have hvalidation : cursor ≤ cfg.validationStart cursor := Nat.le_add_right _ _
  have hembargo : cfg.validationStart cursor ≤ cfg.validationEnd cursor := Nat.le_add_right _ _
  have htest : cfg.validationEnd cursor ≤ cfg.testStart cursor := Nat.le_add_right _ _
  have hend : cfg.testStart cursor ≤ cfg.testEnd cursor := Nat.le_add_right _ _
  rw [rawTrain_eq hcursor, rawValidation, rawTest, window, slice_append_slice htest hend,
    slice_append_slice hembargo (htest.trans hend),
    slice_append_slice hvalidation (hembargo.trans (htest.trans hend)),
    slice_append_slice (windowStart_le cursor)
      (hvalidation.trans (hembargo.trans (htest.trans hend)))]

theorem window_sublist (cfg : TemporalValidationConfig) (sessions : List Timestamp) (cursor : ℕ) :
    (cfg.window sessions cursor).Sublist sessions :=
  (slice_sublist _ _ _).trans (List.take_sublist _ _)

/-- The development sessions are before the holdout. -/
theorem lt_of_mem_holdout (hsessions : sessions.Pairwise (· < ·)) {date h : Timestamp}
    (hdate : date ∈ cfg.development sessions) (hh : h ∈ cfg.holdout sessions) : date < h := by
  have hsplit := List.take_append_drop (sessions.length - cfg.finalHoldoutSessions) sessions
  rw [← hsplit, List.pairwise_append] at hsessions
  exact hsessions.2.2 date hdate h hh

/-- The roles of a fold but its holdout are a partition of its window. -/
theorem roles_perm_window (hsessions : sessions.Pairwise (· < ·))
    (hcursor : cursor ≤ (cfg.development sessions).length) (foldId : ℕ) :
    let fold := cfg.allocate sessions eventEnds foldId cursor
    (fold.trainDates ++ fold.purgeDates ++ fold.validationDates ++ fold.embargoDates ++
      fold.testDates ++ fold.overlapDates).Perm (cfg.window sessions cursor) := by
  intro fold
  let train := containedDates (cfg.rawTrain sessions cursor)
    ((cfg.rawValidation sessions cursor).headD 0) eventEnds
  let validation := containedDates (cfg.rawValidation sessions cursor)
    ((cfg.rawTest sessions cursor).headD 0) eventEnds
  let test := containedDates (cfg.rawTest sessions cursor) (cfg.testBoundary sessions cursor)
    eventEnds
  have hroles : (train.1 ++ fold.purgeDates ++ validation.1 ++ fold.embargoDates ++ test.1 ++
      (train.2 ++ validation.2 ++ test.2)).Perm (cfg.window sessions cursor) := by
    rw [← blocks_eq_window hcursor, List.perm_iff_count]
    intro date
    have htrain : (train.1 ++ train.2).count date = _ := containedDates_perm.count_eq date
    have hvalidation : (validation.1 ++ validation.2).count date = _ :=
      containedDates_perm.count_eq date
    have htest : (test.1 ++ test.2).count date = _ := containedDates_perm.count_eq date
    simp only [train, validation, test, List.count_append] at htrain hvalidation htest
    simp only [train, validation, test, fold, allocate, List.count_append]
    omega
  -- no date is moved to the overlap twice, so that sorting the set of them loses nothing
  have hnodup : (train.2 ++ validation.2 ++ test.2).Nodup :=
    (List.nodup_append.mp (hroles.nodup_iff.mpr
      ((hsessions.sublist (window_sublist cfg sessions cursor)).imp ne_of_lt))).2.1
  have hoverlap : fold.overlapDates.Perm (train.2 ++ validation.2 ++ test.2) := by
    have heq : fold.overlapDates = sortedBy id (train.2 ++ validation.2 ++ test.2).dedup := rfl
    rw [heq, hnodup.dedup]
    exact perm_sortedBy id _
  exact (hoverlap.append_left _).trans hroles

theorem headD_le {l : List Timestamp} (hl : l.Pairwise (· < ·)) {date : Timestamp}
    (hdate : date ∈ l) : l.headD 0 ≤ date := by
  cases l with
  | nil => cases hdate
  | cons a l =>
      rcases List.mem_cons.mp hdate with rfl | hdate
      · exact le_rfl
      · exact ((List.pairwise_cons.mp hl).1 date hdate).le

theorem length_development : (cfg.development sessions).length =
    sessions.length - cfg.finalHoldoutSessions := by
  rw [development, List.length_take, min_eq_left (Nat.sub_le _ _)]

/-- The test boundary is the session after the test block. -/
theorem getElem?_testEnd (hholdout : cfg.finalHoldoutSessions ≤ sessions.length)
    (hend : cfg.testEnd cursor ≤ (cfg.development sessions).length) :
    sessions[cfg.testEnd cursor]? = some (cfg.testBoundary sessions cursor) := by
  have hpos := cfg.holdout_pos
  have hlt : cfg.testEnd cursor < sessions.length := by
    rw [length_development] at hend
    omega
  rw [testBoundary]
  split_ifs with hlast
  · rw [length_development] at hlast
    rw [holdout, ← hlast, List.headD_eq_head?_getD, List.head?_drop,
      List.getElem?_eq_getElem hlt, Option.getD_some]
  · have hlt' : cfg.testEnd cursor < (cfg.development sessions).length := lt_of_le_of_ne hend hlast
    rw [List.getD_eq_getElem _ _ hlt', List.getElem?_eq_getElem hlt]
    simp only [development, List.getElem_take]

theorem testBoundary_le (hsessions : sessions.Pairwise (· < ·))
    (hholdout : cfg.finalHoldoutSessions ≤ sessions.length)
    (hend : cfg.testEnd cursor ≤ (cfg.development sessions).length) {h : Timestamp}
    (hh : h ∈ cfg.holdout sessions) : cfg.testBoundary sessions cursor ≤ h := by
  obtain ⟨hlt, hboundary⟩ := List.getElem?_eq_some_iff.mp (getElem?_testEnd hholdout hend)
  obtain ⟨k, hk, rfl⟩ := List.mem_iff_getElem.mp hh
  have hk' : sessions.length - cfg.finalHoldoutSessions + k < sessions.length := by
    rw [holdout, List.length_drop] at hk
    omega
  have hget : (cfg.holdout sessions)[k] = sessions[sessions.length - cfg.finalHoldoutSessions + k] :=
    List.getElem_drop
  rw [length_development] at hend
  rw [← hboundary, hget]
  rcases (show cfg.testEnd cursor ≤ sessions.length - cfg.finalHoldoutSessions + k by
    omega).lt_or_eq with hlt' | heq
  · exact (List.pairwise_iff_getElem.mp hsessions _ _ hlt hk' hlt').le
  · exact le_of_eq (getElem_congr_idx heq)

end TemporalValidationConfig

/-- What a fold promises: its roles partition its window, which is before the holdout,
and no label interval reaches the boundary that protects what comes after its role. -/
structure TemporalFold.Safe (cfg : TemporalValidationConfig)
    (labelEvents : Option (List LabelEvent)) (sessions : List Timestamp) (cursor : ℕ)
    (fold : TemporalFold) : Prop where
  covers : (fold.trainDates ++ fold.purgeDates ++ fold.validationDates ++ fold.embargoDates ++
    fold.testDates ++ fold.overlapDates).Perm (cfg.window sessions cursor)
  increasing : (cfg.window sessions cursor).Pairwise (· < ·)
  holdout : fold.finalHoldoutDates = cfg.holdout sessions
  before_holdout : ∀ date ∈ cfg.window sessions cursor, ∀ h ∈ fold.finalHoldoutDates, date < h
  blocks : fold.trainDates ⊆ cfg.rawTrain sessions cursor ∧
    fold.validationDates ⊆ cfg.rawValidation sessions cursor ∧
    fold.testDates ⊆ cfg.rawTest sessions cursor
  train_safe : ∀ row ∈ observedIntervals labelEvents, row.date ∈ fold.trainDates →
    ∀ date ∈ cfg.rawValidation sessions cursor, row.futureEnd < date
  validation_safe : ∀ row ∈ observedIntervals labelEvents, row.date ∈ fold.validationDates →
    ∀ date ∈ cfg.rawTest sessions cursor, row.futureEnd < date
  test_safe : ∀ row ∈ observedIntervals labelEvents, row.date ∈ fold.testDates →
    ∀ date ∈ fold.finalHoldoutDates, row.futureEnd < date

namespace TemporalValidationConfig

variable {cfg : TemporalValidationConfig} {sessions : List Timestamp} {eventEnds : EventEnds}
  {cursor : ℕ} {labelEvents : Option (List LabelEvent)}

theorem safe_allocate (hsessions : sessions.Pairwise (· < ·))
    (hends : eventEndByDate labelEvents = .ok eventEnds)
    (hholdout : cfg.finalHoldoutSessions ≤ sessions.length)
    (hend : cfg.testEnd cursor ≤ (cfg.development sessions).length) (foldId : ℕ) :
    (cfg.allocate sessions eventEnds foldId cursor).Safe cfg labelEvents sessions cursor := by
  have hcursor : cursor ≤ (cfg.development sessions).length := by
    simp only [testEnd, testStart, validationEnd, validationStart] at hend
    omega
  have hincreasing : ∀ {l : List Timestamp}, l.Sublist (cfg.development sessions) →
      l.Pairwise (· < ·) := fun hl => hsessions.sublist (hl.trans (List.take_sublist _ _))
  constructor
  · exact roles_perm_window hsessions hcursor foldId
  · exact hincreasing (slice_sublist _ _ _)
  · rfl
  · exact fun date hdate h hh => lt_of_mem_holdout hsessions (mem_of_mem_slice hdate) hh
  · exact ⟨fun _ => mem_of_mem_contained, fun _ => mem_of_mem_contained,
      fun _ => mem_of_mem_contained⟩
  · intro row hrow hdate date hvalidation
    exact (futureEnd_lt_of_not_crosses hends hrow (not_crosses_of_mem_contained hdate)).trans_le
      (headD_le (hincreasing (slice_sublist _ _ _)) hvalidation)
  · intro row hrow hdate date htest
    exact (futureEnd_lt_of_not_crosses hends hrow (not_crosses_of_mem_contained hdate)).trans_le
      (headD_le (hincreasing (slice_sublist _ _ _)) htest)
  · intro row hrow hdate date hh
    exact (futureEnd_lt_of_not_crosses hends hrow (not_crosses_of_mem_contained hdate)).trans_le
      (testBoundary_le hsessions hholdout hend hh)

theorem makeFold_eq_ok {foldId : ℕ} {fold : TemporalFold}
    (h : cfg.makeFold sessions eventEnds foldId cursor = .ok fold) :
    fold = cfg.allocate sessions eventEnds foldId cursor ∧
      assertTemporalIntegrity fold (some eventEnds) = .ok () := by
  simp only [makeFold, bind_eq_ok_iff, refuseIf_eq_ok_iff, pure_eq_ok, Except.ok.injEq] at h
  obtain ⟨-, -, _, hintegrity, rfl⟩ := h
  exact ⟨rfl, hintegrity⟩

/-! ## The loop -/

section Loop

variable {fuel : ℕ} {folds result : List TemporalFold}

/-- As many rounds as there are sessions left are enough. -/
theorem planLoop_succ_fuel (hfuel : (cfg.development sessions).length ≤ cursor + fuel) :
    cfg.planLoop sessions eventEnds (fuel + 1) cursor folds =
      cfg.planLoop sessions eventEnds fuel cursor folds := by
  induction fuel generalizing cursor folds with
  | zero =>
      exact if_pos hfuel
  | succ fuel ih =>
      have hstep := cfg.step_pos
      rw [planLoop, planLoop]
      have hrest : ∀ fold, cfg.planLoop sessions eventEnds (fuel + 1) (cursor + cfg.stepSessions)
          (folds ++ [fold]) = cfg.planLoop sessions eventEnds fuel (cursor + cfg.stepSessions)
          (folds ++ [fold]) := fun fold => ih (by omega)
      simp only [hrest]

/-- What a round of the loop does. -/
theorem planLoop_succ_cases
    (h : cfg.planLoop sessions eventEnds (fuel + 1) cursor folds = .ok result) :
    result = folds ∨ cursor < (cfg.development sessions).length ∧
      cfg.testEnd cursor ≤ (cfg.development sessions).length ∧
      ∃ fold, cfg.makeFold sessions eventEnds folds.length cursor = .ok fold ∧
        (cfg.full (folds.length + 1) = true ∧ result = folds ++ [fold] ∨
          cfg.full (folds.length + 1) = false ∧
          cfg.planLoop sessions eventEnds fuel (cursor + cfg.stepSessions) (folds ++ [fold]) =
            .ok result) := by
  rw [planLoop] at h
  by_cases hcursor : (cfg.development sessions).length ≤ cursor
  · rw [if_pos hcursor] at h
    cases h
    exact .inl rfl
  rw [if_neg hcursor] at h
  by_cases hend : (cfg.development sessions).length < cfg.testEnd cursor
  · rw [if_pos hend] at h
    cases h
    exact .inl rfl
  rw [if_neg hend] at h
  obtain ⟨fold, hfold, h⟩ := bind_eq_ok_iff.mp h
  refine .inr ⟨not_le.mp hcursor, not_lt.mp hend, fold, hfold, ?_⟩
  cases hfull : cfg.full (folds.length + 1) with
  | true =>
      rw [hfull, if_pos rfl] at h
      cases h
      exact .inl ⟨rfl, rfl⟩
  | false =>
      rw [hfull, if_neg Bool.false_ne_true] at h
      exact .inr ⟨rfl, h⟩

/-- The loop adds the folds at its cursors. -/
theorem exists_append_of_planLoop
    (h : cfg.planLoop sessions eventEnds fuel cursor folds = .ok result) :
    ∃ rest, result = folds ++ rest ∧ ∀ i fold, rest[i]? = some fold →
      cfg.testEnd (cursor + i * cfg.stepSessions) ≤ (cfg.development sessions).length ∧
        cfg.makeFold sessions eventEnds (folds.length + i) (cursor + i * cfg.stepSessions) =
          .ok fold := by
  induction fuel generalizing cursor folds with
  | zero =>
      cases h
      exact ⟨[], (List.append_nil _).symm, nofun⟩
  | succ fuel ih =>
      rcases planLoop_succ_cases h with rfl | ⟨-, hend, fold, hfold, ⟨-, rfl⟩ | ⟨-, hrest⟩⟩
      · exact ⟨[], (List.append_nil _).symm, nofun⟩
      · refine ⟨[fold], rfl, fun i found hfound => ?_⟩
        cases i with
        | zero =>
            cases hfound
            simpa using ⟨hend, hfold⟩
        | succ i => cases hfound
      · obtain ⟨rest, rfl, hall⟩ := ih hrest
        refine ⟨fold :: rest, by simp, fun i found hfound => ?_⟩
        cases i with
        | zero =>
            cases hfound
            simpa using ⟨hend, hfold⟩
        | succ i =>
            have hnext := hall i found hfound
            have hcursor : cursor + cfg.stepSessions + i * cfg.stepSessions =
                cursor + (i + 1) * cfg.stepSessions := by ring
            rw [List.length_append, List.length_singleton, hcursor] at hnext
            rwa [add_assoc, add_comm 1 i] at hnext

end Loop

/-! ## Later sessions -/

section Later

variable {later : List Timestamp}

/-- A fold with the holdout of another list of sessions. -/
def withHoldout (holdoutDates : List Timestamp) (fold : TemporalFold) : TemporalFold :=
  { fold with finalHoldoutDates := holdoutDates }

theorem slice_development_append (hholdout : cfg.finalHoldoutSessions ≤ sessions.length) {a b : ℕ}
    (hb : b ≤ (cfg.development sessions).length) :
    slice (cfg.development (sessions ++ later)) a b = slice (cfg.development sessions) a b := by
  rw [length_development] at hb
  have hlength : sessions.length ≤ (sessions ++ later).length := by
    rw [List.length_append]
    exact Nat.le_add_right _ _
  rw [development, development, slice_take (by omega), slice_take hb, slice, slice,
    List.take_append_of_le_length (by omega)]

theorem allocate_append (hholdout : cfg.finalHoldoutSessions ≤ sessions.length)
    (hend : cfg.testEnd cursor ≤ (cfg.development sessions).length) (foldId : ℕ) :
    cfg.allocate (sessions ++ later) eventEnds foldId cursor =
      withHoldout (cfg.holdout (sessions ++ later))
        (cfg.allocate sessions eventEnds foldId cursor) := by
  have hlength : (cfg.development sessions).length ≤
      (cfg.development (sessions ++ later)).length := by
    rw [length_development, length_development, List.length_append]
    omega
  have hvalidation : cursor ≤ cfg.validationStart cursor := Nat.le_add_right _ _
  have hembargo : cfg.validationStart cursor ≤ cfg.validationEnd cursor := Nat.le_add_right _ _
  have htest : cfg.validationEnd cursor ≤ cfg.testStart cursor := Nat.le_add_right _ _
  have hlast : cfg.testStart cursor ≤ cfg.testEnd cursor := Nat.le_add_right _ _
  have hslice : ∀ {a b : ℕ}, b ≤ cfg.testEnd cursor →
      slice (cfg.development (sessions ++ later)) a b = slice (cfg.development sessions) a b :=
    fun hb => slice_development_append hholdout (hb.trans hend)
  have htrain : cfg.rawTrain (sessions ++ later) cursor = cfg.rawTrain sessions cursor := by
    rw [rawTrain_eq (by omega), rawTrain_eq (by omega), hslice (by omega)]
  have hboundary : cfg.testBoundary (sessions ++ later) cursor =
      cfg.testBoundary sessions cursor := by
    have hafter : (sessions ++ later)[cfg.testEnd cursor]? = _ :=
      getElem?_testEnd (hholdout.trans (by rw [List.length_append]; omega)) (hend.trans hlength)
    have hbefore := getElem?_testEnd hholdout hend
    rw [List.getElem?_append_left (List.getElem?_eq_some_iff.mp hbefore).1, hbefore,
      Option.some.injEq] at hafter
    exact hafter.symm
  simp only [allocate, withHoldout, rawValidation, rawTest, htrain, hboundary, hslice le_rfl,
    hslice hlast, hslice (htest.trans hlast), hslice (hembargo.trans (htest.trans hlast))]

/-- The folds that were complete come first, with the later holdout. -/
theorem map_withHoldout_prefix (hholdout : cfg.finalHoldoutSessions ≤ sessions.length)
    {fuel fuel' : ℕ} {folds result result' : List TemporalFold}
    (h : cfg.planLoop sessions eventEnds fuel cursor folds = .ok result)
    (h' : cfg.planLoop (sessions ++ later) eventEnds fuel' cursor
      (folds.map (withHoldout (cfg.holdout (sessions ++ later)))) = .ok result')
    (hfuel : (cfg.development (sessions ++ later)).length ≤ cursor + fuel') :
    result.map (withHoldout (cfg.holdout (sessions ++ later))) <+: result' := by
  induction fuel generalizing cursor folds fuel' with
  | zero =>
      cases h
      obtain ⟨rest, rfl, -⟩ := exists_append_of_planLoop h'
      exact List.prefix_append _ _
  | succ fuel ih =>
      rcases planLoop_succ_cases h with rfl | ⟨hcursor, hend, fold, hfold, hrest⟩
      · obtain ⟨rest, rfl, -⟩ := exists_append_of_planLoop h'
        exact List.prefix_append _ _
      · have hlength : (cfg.development sessions).length ≤
            (cfg.development (sessions ++ later)).length := by
          rw [length_development, length_development, List.length_append]
          omega
        obtain ⟨fuel', rfl⟩ : ∃ k, fuel' = k + 1 := Nat.exists_eq_succ_of_ne_zero (by omega)
        have hstep := cfg.step_pos
        rw [planLoop, if_neg (by omega), if_neg (by omega)] at h'
        obtain ⟨fold', hfold', h'⟩ := bind_eq_ok_iff.mp h'
        have hfold'' : fold' = withHoldout (cfg.holdout (sessions ++ later)) fold := by
          rw [(makeFold_eq_ok hfold').1, (makeFold_eq_ok hfold).1,
            allocate_append hholdout hend, List.length_map]
        subst hfold''
        rw [List.length_map] at h'
        rcases hrest with ⟨hfull, rfl⟩ | ⟨hfull, hrest⟩
        · rw [hfull, if_pos rfl] at h'
          cases h'
          rw [List.map_append]
          exact List.prefix_rfl
        · rw [hfull, if_neg Bool.false_ne_true, ← List.map_singleton, ← List.map_append] at h'
          exact ih hrest h' (by omega)

end Later

end TemporalValidationConfig

/-! ## Sessions -/

theorem normalizeDates_eq_ok {dates : List (Option Timestamp)} {sessions : List Timestamp}
    (h : normalizeDates dates = .ok sessions) : sessions.Pairwise (· < ·) ∧
      ∀ t, t ∈ sessions ↔ ∃ date, some date ∈ dates ∧ PurgedCv.normalize date = t := by
  simp only [normalizeDates, bind_eq_ok_iff, pure_eq_ok, Except.ok.injEq] at h
  obtain ⟨-, -, -, -, -, -, rfl⟩ := h
  have hsorted := pairwise_sortedBy id ((dates.filterMap id).map PurgedCv.normalize).dedup
  have hnodup : (sortedBy id ((dates.filterMap id).map PurgedCv.normalize).dedup).Nodup :=
    (perm_sortedBy id _).nodup_iff.mpr (List.nodup_dedup _)
  refine ⟨(hsorted.and hnodup).imp fun h => lt_of_le_of_ne h.1 h.2, fun t => ?_⟩
  rw [mem_sortedBy, List.mem_dedup, List.mem_map]
  simp

/-- Dates after all others extend the list of sessions. -/
theorem exists_append_of_normalizeDates {dates : List (Option Timestamp)}
    {later sessions sessions' : List Timestamp} (h : normalizeDates dates = .ok sessions)
    (h' : normalizeDates (dates ++ later.map some) = .ok sessions')
    (hlater : ∀ date, some date ∈ dates → ∀ t ∈ later,
      PurgedCv.normalize date < PurgedCv.normalize t) :
    ∃ extra, sessions' = sessions ++ extra := by
  obtain ⟨hincreasing, hmem⟩ := normalizeDates_eq_ok h
  obtain ⟨hincreasing', hmem'⟩ := normalizeDates_eq_ok h'
  refine ⟨sessions'.filter (· ∉ sessions), ?_⟩
  have hnew : ∀ t ∈ sessions'.filter (· ∉ sessions), ∃ date ∈ later, PurgedCv.normalize date = t := by
    intro t ht
    obtain ⟨ht', hnot⟩ := List.mem_filter.mp ht
    obtain ⟨date, hdate, rfl⟩ := (hmem' t).mp ht'
    rcases List.mem_append.mp hdate with hdate | hdate
    · exact absurd ((hmem _).mpr ⟨date, hdate, rfl⟩) (of_decide_eq_true hnot)
    · obtain ⟨found, hfound, heq⟩ := List.mem_map.mp hdate
      cases heq
      exact ⟨date, hfound, rfl⟩
  have hjoined : (sessions ++ sessions'.filter (· ∉ sessions)).Pairwise (· < ·) := by
    refine List.pairwise_append.mpr ⟨hincreasing, hincreasing'.filter _, fun t ht u hu => ?_⟩
    obtain ⟨date, hdate, rfl⟩ := (hmem t).mp ht
    obtain ⟨date', hdate', rfl⟩ := hnew u hu
    exact hlater date hdate date' hdate'
  refine List.Perm.eq_of_pairwise (fun a b _ _ hab hba => absurd hab hba.not_gt) hincreasing'
    hjoined ?_
  refine (List.perm_ext_iff_of_nodup (hincreasing'.imp ne_of_lt) (hjoined.imp ne_of_lt)).mpr
    fun t => ?_
  rw [List.mem_append, List.mem_filter, decide_eq_true_eq]
  constructor
  · intro ht
    by_cases hold : t ∈ sessions
    · exact .inl hold
    · exact .inr ⟨ht, hold⟩
  · rintro (hold | ⟨ht, -⟩)
    · obtain ⟨date, hdate, rfl⟩ := (hmem t).mp hold
      exact (hmem' _).mpr ⟨date, List.mem_append_left _ hdate, rfl⟩
    · exact ht

/-! ## Plans -/

/-- What a plan is made of. -/
theorem makeTemporalValidationPlan_eq_ok {dates : List (Option Timestamp)}
    {cfg : TemporalValidationConfig} {labelEvents : Option (List LabelEvent)}
    {folds : List TemporalFold}
    (h : makeTemporalValidationPlan dates cfg labelEvents = .ok folds) :
    ∃ sessions eventEnds, normalizeDates dates = .ok sessions ∧
      eventEndByDate labelEvents = .ok eventEnds ∧ cfg.minimum ≤ sessions.length ∧
      cfg.planLoop sessions eventEnds (cfg.development sessions).length cfg.minTrainSessions [] =
        .ok folds := by
  simp only [makeTemporalValidationPlan, bind_eq_ok_iff, refuseIf_eq_ok_iff, pure_eq_ok,
    Except.ok.injEq, mapError_eq_ok_iff, not_lt] at h
  obtain ⟨sessions, hsessions, -, hminimum, eventEnds, hends, -, -, folds, hfolds, -, -, rfl⟩ := h
  exact ⟨sessions, eventEnds, hsessions, hends, hminimum, hfolds⟩

/-- Every fold of a plan partitions its window, is safe and passes the check of its
integrity; a plan of more sessions begins with the same folds but for their holdout. -/
theorem temporal_plan_complete_and_safe (dates : List (Option Timestamp))
    (cfg : TemporalValidationConfig) (labelEvents : Option (List LabelEvent))
    (folds : List TemporalFold) (h : makeTemporalValidationPlan dates cfg labelEvents = .ok folds) :
    (∃ sessions eventEnds, normalizeDates dates = .ok sessions ∧
      eventEndByDate labelEvents = .ok eventEnds ∧ ∀ i fold, folds[i]? = some fold →
        fold.Safe cfg labelEvents sessions (cfg.minTrainSessions + i * cfg.stepSessions) ∧
        assertTemporalIntegrity fold (some eventEnds) = .ok ()) ∧
    ∀ (later : List Timestamp) folds', (∀ date, some date ∈ dates → ∀ t ∈ later,
        PurgedCv.normalize date < PurgedCv.normalize t) →
      makeTemporalValidationPlan (dates ++ later.map some) cfg labelEvents = .ok folds' →
      ∃ holdoutDates,
        folds.map (TemporalValidationConfig.withHoldout holdoutDates) <+: folds' := by
  obtain ⟨sessions, eventEnds, hsessions, hends, hminimum, hloop⟩ :=
    makeTemporalValidationPlan_eq_ok h
  have hholdout : cfg.finalHoldoutSessions ≤ sessions.length :=
    (Nat.le_add_left _ _).trans hminimum
  constructor
  · refine ⟨sessions, eventEnds, hsessions, hends, fun i fold hfold => ?_⟩
    obtain ⟨rest, hrest, hall⟩ := TemporalValidationConfig.exists_append_of_planLoop hloop
    rw [hrest, List.nil_append] at hfold
    obtain ⟨hend, hmake⟩ := hall i fold hfold
    obtain ⟨rfl, hintegrity⟩ := TemporalValidationConfig.makeFold_eq_ok hmake
    exact ⟨TemporalValidationConfig.safe_allocate (normalizeDates_eq_ok hsessions).1 hends hholdout
      hend _, hintegrity⟩
  · intro later folds' hlater h'
    obtain ⟨sessions', eventEnds', hsessions', hends', -, hloop'⟩ :=
      makeTemporalValidationPlan_eq_ok h'
    obtain ⟨extra, rfl⟩ := exists_append_of_normalizeDates hsessions hsessions' hlater
    rw [hends] at hends'
    cases hends'
    exact ⟨cfg.holdout (sessions ++ extra),
      TemporalValidationConfig.map_withHoldout_prefix hholdout hloop hloop' (Nat.le_add_left _ _)⟩

/-- One session for each block and the holdout. -/
def shortConfig : TemporalValidationConfig where
  minTrainSessions := 1
  validationSessions := 1
  testSessions := 1
  stepSessions := 1
  purgeSessions := 0
  embargoSessions := 0
  finalHoldoutSessions := 1

def shortFold : TemporalFold where
  foldId := 0
  scheme := .expanding
  trainDates := [0]
  purgeDates := []
  validationDates := [dayLength]
  embargoDates := []
  testDates := [2 * dayLength]
  overlapDates := []
  finalHoldoutDates := [3 * dayLength]

/-- Four days in no order, the second of them twice. -/
def fourDays : List (Option Timestamp) :=
  [some (3 * dayLength), some 0, some (dayLength + 5), some (2 * dayLength), some dayLength]

theorem short_plan_complete_and_safe :
    (∃ sessions eventEnds, normalizeDates fourDays = .ok sessions ∧
      eventEndByDate none = .ok eventEnds ∧ ∀ i fold, [shortFold][i]? = some fold →
        fold.Safe shortConfig none sessions
          (shortConfig.minTrainSessions + i * shortConfig.stepSessions) ∧
        assertTemporalIntegrity fold (some eventEnds) = .ok ()) ∧
    ∀ (later : List Timestamp) folds',
      (∀ date, some date ∈ fourDays → ∀ t ∈ later,
        PurgedCv.normalize date < PurgedCv.normalize t) →
      makeTemporalValidationPlan (fourDays ++ later.map some) shortConfig none = .ok folds' →
      ∃ holdoutDates,
        [shortFold].map (TemporalValidationConfig.withHoldout holdoutDates) <+: folds' :=
  temporal_plan_complete_and_safe fourDays shortConfig none [shortFold] (by decide)

end TemporalPlan
