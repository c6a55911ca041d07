import SignalFoundry.AlphaForge.Training.PurgedCv
import Mathlib.Data.List.Dedup
import Mathlib.Data.List.GetD

/-!
# Splits without leakage

The three masks, over positions, dates and the holdout, together keep the label intervals
of training and test dates apart. Every split that is yielded is free of leakage; when
the generator ends, the test folds are a partition of the sessions, and every session is
tested in the same number of combinatorial splits.
-/

namespace PurgedCv

open Fallible Splitting

/-- The latest required future end of a date, or the date itself. -/
def latestEnd (labelEvents : Option (List LabelEvent)) (date : Timestamp) : Timestamp :=
  (endsOn (observedIntervals labelEvents) date).foldl max date

/-! ## Ends of label intervals -/

theorem le_foldl_max (a : ℤ) (l : List ℤ) : a ≤ l.foldl max a ∧ ∀ x ∈ l, x ≤ l.foldl max a := by
  induction l generalizing a with
  | nil => simp
  | cons b l ih =>
      obtain ⟨hinit, hmem⟩ := ih (max a b)
      refine ⟨(le_max_left a b).trans hinit, fun x hx => ?_⟩
      rcases List.mem_cons.mp hx with rfl | hx
      · exact (le_max_right a x).trans hinit
      · exact hmem x hx

theorem le_latestEnd (labelEvents : Option (List LabelEvent)) (date : Timestamp) :
    date ≤ latestEnd labelEvents date :=
  (le_foldl_max date _).1

theorem getD_max? {a : ℤ} {l : List ℤ} (h : ∀ x ∈ l, a ≤ x) : l.max?.getD a = l.foldl max a := by
  cases l with
  | nil => rfl
  | cons b l =>
      rw [List.max?_cons', Option.getD_some, List.foldl_cons, max_eq_right (h b List.mem_cons_self)]

theorem getD_min?_le {x a : ℤ} {l : List ℤ} (h : x ∈ l) : l.min?.getD a ≤ x := by
  cases hmin : l.min? with
  | none => exact absurd (List.min?_eq_none_iff.mp hmin) (List.ne_nil_of_mem h)
  | some m => exact (List.min?_eq_some_iff.mp hmin).2 x h

theorem le_getD_max? {x a : ℤ} {l : List ℤ} (h : x ∈ l) : x ≤ l.max?.getD a := by
  cases hmax : l.max? with
  | none => exact absurd (List.max?_eq_none_iff.mp hmax) (List.ne_nil_of_mem h)
  | some m => exact (List.max?_eq_some_iff.mp hmax).2 x h

theorem lookup_map_self {β : Type} (f : Timestamp → β) (l : List Timestamp) (a : Timestamp) :
    (l.map fun b => (b, f b)).lookup a = if a ∈ l then some (f a) else none := by
  induction l with
  | nil => rfl
  | cons b l ih =>
      rw [List.map_cons, List.lookup_cons]
      by_cases hab : a = b
      · subst hab
        simp
      · have hne : (a == b) = false := beq_eq_false_iff_ne.mpr hab
        simp only [hne, ih, List.mem_cons, hab, false_or]

/-- The series holds the latest end of every date that has an event. -/
theorem effectiveEnd_eq {labelEvents : Option (List LabelEvent)} {eventEnds : EventEnds}
    (h : eventEndByDate labelEvents = .ok eventEnds) (date : Timestamp) :
    effectiveEnd eventEnds date = latestEnd labelEvents date := by
  simp only [eventEndByDate, bind_eq_ok_iff, refuseIf_eq_ok_iff, pure_eq_ok, Except.ok.injEq] at h
  obtain ⟨-, -, -, -, -, -, -, hvalid, rfl⟩ := h
  change ¬ ∃ row ∈ observedIntervals labelEvents, _ at hvalid
  change effectiveEnd (((observedIntervals labelEvents).map (·.date)).dedup.insertionSort
    (· ≤ ·) |>.map fun date => (date, (endsOn (observedIntervals labelEvents) date).max?.getD date))
    date = _
  have hafter : ∀ x ∈ endsOn (observedIntervals labelEvents) date, date ≤ x := by
    intro x hx
    obtain ⟨row, hrow, rfl⟩ := List.mem_map.mp hx
    obtain ⟨hmem, hdate⟩ := List.mem_filter.mp hrow
    have hrow' : ¬ (row.futureStart ≤ row.date ∨ row.futureEnd < row.futureStart) :=
      fun hbad => hvalid ⟨row, hmem, hbad⟩
    rw [not_or, not_le, not_lt] at hrow'
    calc date = row.date := (of_decide_eq_true hdate).symm
      _ ≤ row.futureStart := hrow'.1.le
      _ ≤ row.futureEnd := hrow'.2
  rw [effectiveEnd, lookup_map_self]
  split
  · rw [Option.getD_some, getD_max? hafter]
    rfl
  · next hdate =>
      rw [List.mem_insertionSort, List.mem_dedup] at hdate
      have hnone : endsOn (observedIntervals labelEvents) date = [] := by
        refine List.map_eq_nil_iff.mpr (List.filter_eq_nil_iff.mpr fun row hrow heq => ?_)
        exact hdate (List.mem_map.mpr ⟨row, hrow, of_decide_eq_true heq⟩)
      rw [latestEnd, hnone]
      rfl

/-! ## Development sessions -/

/-- The sessions are the dates whose labels end before the holdout, in order. -/
structure Development.Sound (dates : List (Option Timestamp))
    (labelEvents : Option (List LabelEvent)) (finalHoldoutStart : Option Timestamp)
    (u : Development) : Prop where
  increasing : u.sessions.Pairwise (· < ·)
  mem_sessions : ∀ t, t ∈ u.sessions ↔ (∃ date, some date ∈ dates ∧ normalize date = t) ∧
    ∀ boundary, u.holdout = some boundary → latestEnd labelEvents t < boundary
  holdout_eq : u.holdout = finalHoldoutStart.map normalize
  ends : ∀ t, effectiveEnd u.eventEnds t = latestEnd labelEvents t

theorem uniqueDates_eq {dates : List (Option Timestamp)} {unique : List Timestamp}
    (h : uniqueDates dates = .ok unique) : unique.Pairwise (· < ·) ∧
      ∀ t, t ∈ unique ↔ ∃ date, some date ∈ dates ∧ normalize date = t := by
  simp only [uniqueDates, bind_eq_ok_iff, pure_eq_ok, Except.ok.injEq] at h
  obtain ⟨-, -, rfl⟩ := h
  have hsorted := List.pairwise_insertionSort (· ≤ ·) ((dates.filterMap id).map normalize).dedup
  have hnodup : ((((dates.filterMap id).map normalize).dedup.insertionSort (· ≤ ·)) :
      List Timestamp).Nodup :=
    (List.perm_insertionSort _ _).nodup_iff.mpr (List.nodup_dedup _)
  refine ⟨(hsorted.and hnodup).imp fun h => lt_of_le_of_ne h.1 h.2, fun t => ?_⟩
  rw [List.mem_insertionSort, List.mem_dedup, List.mem_map]
  simp

/-- A date is contained when the end of its interval is before the boundary. -/
theorem contained_iff {eventEnds : EventEnds} {date boundary : Timestamp} (h : date < boundary) :
    (eventEnds.lookup date).all (· < boundary) = true ↔ effectiveEnd eventEnds date < boundary := by
  rw [effectiveEnd]
  cases eventEnds.lookup date with
  | none => simpa using h
  | some e => simp

theorem Development.sound {dates : List (Option Timestamp)}
    {labelEvents : Option (List LabelEvent)} {finalHoldoutStart : Option Timestamp}
    {u : Development} (h : Development.of dates labelEvents finalHoldoutStart = .ok u) :
    u.Sound dates labelEvents finalHoldoutStart := by
  simp only [Development.of, bind_eq_ok_iff, pure_eq_ok, Except.ok.injEq] at h
  obtain ⟨eventEnds, hends, unique, hunique, ⟨sessions, holdout⟩, hdevelopment, rfl⟩ := h
  have heffective := effectiveEnd_eq hends
  obtain ⟨hincreasing, hmem⟩ := uniqueDates_eq hunique
  cases finalHoldoutStart with
  | none =>
      cases hdevelopment
      exact ⟨hincreasing, fun t => by simp [hmem], rfl, heffective⟩
  | some start =>
      simp only [developmentDates, bind_eq_ok_iff] at hdevelopment
      obtain ⟨-, -, hdevelopment⟩ := hdevelopment
      have hbefore : ∀ t, latestEnd labelEvents t < normalize start → t < normalize start :=
        fun t ht => (le_latestEnd labelEvents t).trans_lt ht
      split_ifs at hdevelopment with hempty
      · cases hdevelopment
        refine ⟨hincreasing.filter _, fun t => ?_, rfl, heffective⟩
        have hself : latestEnd labelEvents t = t := by
          rw [← heffective, hempty]
          rfl
        simp [List.mem_filter, hmem, hself]
      · simp only [bind_eq_ok_iff] at hdevelopment
        obtain ⟨-, -, hdevelopment⟩ := hdevelopment
        cases hdevelopment
        refine ⟨(hincreasing.filter _).filter _, fun t => ?_, rfl, heffective⟩
        rw [List.mem_filter, List.mem_filter, hmem, decide_eq_true_iff]
        constructor
        · rintro ⟨⟨hdate, hlt⟩, hcontained⟩
          refine ⟨hdate, fun boundary hboundary => ?_⟩
          obtain rfl := Option.some.inj hboundary
          exact heffective t ▸ (contained_iff hlt).mp hcontained
        · rintro ⟨hdate, hlt⟩
          have hend := hlt _ rfl
          exact ⟨⟨hdate, hbefore t hend⟩, (contained_iff (hbefore t hend)).mpr
            (heffective t ▸ hend)⟩

/-! ## What a mask keeps -/

section Masks

variable {n purge embargo i : ℕ} {blocks : List (ℕ × ℕ)} {block : ℕ × ℕ}
variable {dates : List Timestamp} {eventEnds : EventEnds} {date s : Timestamp}

theorem purgedTrainMask_iff (hi : i < n) : purgedTrainMask n blocks purge embargo i = true ↔
    ∀ block ∈ blocks, i + purge < block.1 ∨ block.2 + purge + embargo < i := by
  rw [purgedTrainMask, List.all_eq_true]
  refine forall₂_congr fun block _ => ?_
  rw [Bool.not_eq_true', decide_eq_false_iff_not]
  omega

theorem mem_testDates (hs : dates[i]? = some s) (hfirst : block.1 ≤ i) (hlast : i ≤ block.2) :
    s ∈ testDates dates block := by
  refine List.mem_iff_getElem?.mpr ⟨i - block.1, ?_⟩
  have hlt : i - block.1 < block.2 + 1 - block.1 := by omega
  rw [testDates, List.getElem?_take, if_pos hlt, List.getElem?_drop, Nat.add_sub_cancel' hfirst, hs]

/-- A date that is kept has no common point with the interval of a test date. -/
theorem apart_of_exactIntervalMask (hkept : exactIntervalMask dates blocks eventEnds date = true)
    (hends : eventEnds ≠ []) (hblock : block ∈ blocks) (hs : s ∈ testDates dates block) :
    ¬ (date ≤ effectiveEnd eventEnds s ∧ s ≤ effectiveEnd eventEnds date) := by
  rintro ⟨hdate, hstart⟩
  rw [exactIntervalMask, decide_eq_false hends, Bool.false_or, List.all_eq_true] at hkept
  have hblock := hkept block hblock
  simp only [Bool.not_eq_true', Bool.and_eq_false_iff, decide_eq_false_iff_not, not_le] at hblock
  have hfold := le_foldl_max ((testDates dates block).max?.getD 0)
    ((testDates dates block).filterMap (eventEnds.lookup ·))
  have hend : effectiveEnd eventEnds s ≤ ((testDates dates block).filterMap
      (eventEnds.lookup ·)).foldl max ((testDates dates block).max?.getD 0) := by
    rw [effectiveEnd]
    cases hlookup : eventEnds.lookup s with
    | none => exact (le_getD_max? hs).trans hfold.1
    | some e => exact hfold.2 e (List.mem_filterMap.mpr ⟨s, hs, hlookup⟩)
  rcases hblock with hafter | hbefore
  · exact absurd (hdate.trans hend) (not_le.mpr hafter)
  · exact absurd ((getD_min?_le hs).trans hstart) (not_le.mpr hbefore)

end Masks

/-! ## Folds -/

theorem blockOf_range' (first size : ℕ) :
    blockOf (List.range' first (size + 1)) = (first, first + size) := by
  rw [blockOf, List.getLastD_eq_getLast?, List.getLast?_range', List.range'_succ]
  simp

namespace Development

variable {u : Development} {count i : ℕ} {fold : List ℕ} {t : Timestamp}

/-- A fold is the positions between its first and its last. -/
theorem mem_fold_iff (hcount : 0 < count) (hle : count ≤ u.sessions.length)
    (hfold : fold ∈ u.folds count) :
    i ∈ fold ↔ (blockOf fold).1 ≤ i ∧ i ≤ (blockOf fold).2 := by
  have hne : fold ≠ [] :=
    ne_nil_of_mem_arraySplit hcount (by rwa [List.length_range]) hfold
  rw [folds, List.range_eq_range'] at hfold
  obtain ⟨first, size, rfl⟩ := exists_range'_of_mem_splitLengths hfold
  cases size with
  | zero => exact absurd rfl hne
  | succ size =>
      rw [blockOf_range', List.mem_range'_1]
      omega

theorem mem_take {indices : List ℕ} :
    t ∈ u.take indices ↔ ∃ i ∈ indices, u.sessions[i]? = some t :=
  List.mem_filterMap

theorem take_range : u.take (List.range u.sessions.length) = u.sessions := by
  have hmap : (List.range u.sessions.length).map (u.sessions[·]?) = u.sessions.map some := by
    refine List.ext_getElem (by simp) fun i hi _ => ?_
    rw [List.length_map, List.length_range] at hi
    simp [hi]
  calc u.take (List.range u.sessions.length)
      = ((List.range u.sessions.length).map (u.sessions[·]?)).filterMap id := by
        rw [List.filterMap_map]
        rfl
    _ = (u.sessions.map some).filterMap id := by rw [hmap]
    _ = u.sessions := by
        rw [List.filterMap_map]
        exact List.filterMap_some

/-- The folds together are the sessions. -/
theorem flatten_take_folds (hcount : 0 < count) :
    ((u.folds count).map u.take).flatten = u.sessions := by
  calc ((u.folds count).map u.take).flatten = u.take (u.folds count).flatten :=
        List.filterMap_flatten.symm
    _ = u.sessions := by rw [folds, flatten_arraySplit hcount, take_range]

end Development

/-! ## Splits -/

/-- A split of sessions around test blocks, with no leakage from its test dates. -/
structure Split.Leakless (split : Split) (u : Development)
    (labelEvents : Option (List LabelEvent)) (purge embargo : ℕ) (blocks : List (ℕ × ℕ)) :
    Prop where
  trained : ∀ t ∈ split.train, t ∈ u.sessions
  tested : ∀ t, t ∈ split.test ↔ ∃ i, u.sessions[i]? = some t ∧
    ∃ block ∈ blocks, block.1 ≤ i ∧ i ≤ block.2
  disjoint : split.train.Disjoint split.test
  apart : ∀ t ∈ split.train, ∀ s ∈ split.test,
    ¬ (t ≤ latestEnd labelEvents s ∧ s ≤ latestEnd labelEvents t)
  contained : ∀ boundary, u.holdout = some boundary → ∀ t ∈ split.train ++ split.test,
    latestEnd labelEvents t < boundary
  purged : ∀ i t, u.sessions[i]? = some t → t ∈ split.train →
    ∀ block ∈ blocks, i + purge < block.1 ∨ block.2 + purge + embargo < i

section Cut

variable {dates : List (Option Timestamp)} {labelEvents : Option (List LabelEvent)}
variable {finalHoldoutStart : Option Timestamp} {u : Development} {count purge embargo : ℕ}
variable {message : String} {folds : List (List ℕ)} {split : Split}

/-- What is trained on is a session that the masks keep. -/
theorem mem_train (h : u.cut purge embargo message folds = .ok split) {t : Timestamp}
    (ht : t ∈ split.train) : ∃ i < u.sessions.length, u.sessions[i]? = some t ∧
      u.keeps purge embargo (folds.map blockOf) i t = true := by
  simp only [Development.cut, bind_eq_ok_iff, pure_eq_ok, Except.ok.injEq] at h
  obtain ⟨-, -, rfl⟩ := h
  obtain ⟨i, hi, hsession⟩ := Development.mem_take.mp ht
  obtain ⟨hrange, hkeeps⟩ := List.mem_filter.mp hi
  rw [hsession] at hkeeps
  exact ⟨i, List.mem_range.mp hrange, hsession, hkeeps⟩

theorem test_eq (h : u.cut purge embargo message folds = .ok split) :
    split.test = u.take folds.flatten := by
  simp only [Development.cut, bind_eq_ok_iff, pure_eq_ok, Except.ok.injEq] at h
  obtain ⟨-, -, rfl⟩ := h
  rfl

theorem Development.Sound.index_unique (hu : u.Sound dates labelEvents finalHoldoutStart)
    {i j : ℕ} {t : Timestamp} (hi : u.sessions[i]? = some t) (hj : u.sessions[j]? = some t) :
    i = j := by
  have hnodup : u.sessions.Nodup := hu.increasing.imp ne_of_lt
  exact (List.getElem?_inj (List.getElem?_eq_some_iff.mp hi).1 hnodup).mp (hi.trans hj.symm)

theorem leakless_of_cut (hu : u.Sound dates labelEvents finalHoldoutStart) (hcount : 0 < count)
    (hle : count ≤ u.sessions.length) (hfolds : ∀ fold ∈ folds, fold ∈ u.folds count)
    (h : u.cut purge embargo message folds = .ok split) :
    split.Leakless u labelEvents purge embargo (folds.map blockOf) := by
  have htested : ∀ t, t ∈ split.test ↔ ∃ i, u.sessions[i]? = some t ∧
      ∃ block ∈ folds.map blockOf, block.1 ≤ i ∧ i ≤ block.2 := by
    intro t
    rw [test_eq h, Development.mem_take]
    constructor
    · rintro ⟨i, hi, hsession⟩
      obtain ⟨fold, hfold, hi⟩ := List.mem_flatten.mp hi
      exact ⟨i, hsession, blockOf fold, List.mem_map_of_mem hfold,
        (Development.mem_fold_iff hcount hle (hfolds fold hfold)).mp hi⟩
    · rintro ⟨i, hsession, block, hblock, hbetween⟩
      obtain ⟨fold, hfold, rfl⟩ := List.mem_map.mp hblock
      exact ⟨i, List.mem_flatten.mpr ⟨fold, hfold,
        (Development.mem_fold_iff hcount hle (hfolds fold hfold)).mpr hbetween⟩, hsession⟩
  have hpurged : ∀ i t, u.sessions[i]? = some t → t ∈ split.train →
      ∀ block ∈ folds.map blockOf, i + purge < block.1 ∨ block.2 + purge + embargo < i := by
    intro i t hsession ht
    obtain ⟨j, hj, hsession', hkeeps⟩ := mem_train h ht
    obtain rfl := hu.index_unique hsession hsession'
    simp only [Development.keeps, Bool.and_eq_true] at hkeeps
    exact (purgedTrainMask_iff hj).mp hkeeps.1.1
  have hdisjoint : split.train.Disjoint split.test := by
    intro t htrain htest
    obtain ⟨i, hsession, block, hblock, hfirst, hlast⟩ := (htested t).mp htest
    have haway := hpurged i t hsession htrain block hblock
    omega
  have htrained : ∀ t ∈ split.train, t ∈ u.sessions := by
    intro t ht
    obtain ⟨i, -, hsession, -⟩ := mem_train h ht
    exact List.mem_of_getElem? hsession
  refine ⟨htrained, htested, hdisjoint, fun t ht s hs => ?_, fun boundary hboundary t ht => ?_,
    hpurged⟩
  · obtain ⟨i, hsession, block, hblock, hfirst, hlast⟩ := (htested s).mp hs
    obtain ⟨_, -, -, hkeeps⟩ := mem_train h ht
    simp only [Development.keeps, Bool.and_eq_true] at hkeeps
    rw [← hu.ends s, ← hu.ends t]
    by_cases hends : u.eventEnds = []
    · -- Without events every interval is a point.
      rw [hends]
      rintro ⟨hts, hst⟩
      exact hdisjoint ht (le_antisymm hts hst ▸ hs)
    · exact apart_of_exactIntervalMask hkeeps.1.2 hends hblock (mem_testDates hsession hfirst hlast)
  · have hmem : t ∈ u.sessions := by
      rcases List.mem_append.mp ht with htrain | htest
      · exact htrained t htrain
      · obtain ⟨i, hsession, -⟩ := (htested t).mp htest
        exact List.mem_of_getElem? hsession
    exact ((hu.mem_sessions t).mp hmem).2 boundary hboundary

end Cut

/-! ## Loops that yield -/

section Yield

variable {α β γ : Type} {body : β → Except String α}

/-- A loop yields the results of its first items, and of all of them when it does not raise. -/
theorem yieldEach_eq (body : β → Except String α) (items : List β) : ∃ done rest,
    done ++ rest = items ∧
    List.Forall₂ (fun item a => body item = .ok a) done (yieldEach body items).splits ∧
    ((yieldEach body items).raised = none → rest = []) := by
  induction items with
  | nil => exact ⟨[], [], rfl, .nil, fun _ => rfl⟩
  | cons item items ih =>
      obtain ⟨done, rest, hitems, hdone, hrest⟩ := ih
      cases h : body item with
      | error e =>
          refine ⟨[], item :: items, rfl, ?_, fun hraised => ?_⟩
          · rw [yieldEach, h]
            exact .nil
          · rw [yieldEach, h] at hraised
            cases hraised
      | ok a =>
          rw [yieldEach, h]
          exact ⟨item :: done, rest, by rw [List.cons_append, hitems], .cons h hdone, hrest⟩

variable {R : β → α → Prop} {items : List β} {results : List α}

theorem exists_item_of_mem (h : List.Forall₂ R items results) {a : α} (ha : a ∈ results) :
    ∃ item ∈ items, R item a := by
  induction h with
  | nil => cases ha
  | cons hR _ ih =>
      rcases List.mem_cons.mp ha with rfl | ha
      · exact ⟨_, List.mem_cons_self, hR⟩
      · obtain ⟨item, hitem, hR⟩ := ih ha
        exact ⟨item, List.mem_cons_of_mem _ hitem, hR⟩

theorem map_eq_of_forall₂ (h : List.Forall₂ R items results) {f : α → γ} {g : β → γ}
    (hR : ∀ item a, R item a → f a = g item) : results.map f = items.map g := by
  induction h with
  | nil => rfl
  | cons hhead _ ih => rw [List.map_cons, List.map_cons, hR _ _ hhead, ih]

theorem countP_eq_of_forall₂ (h : List.Forall₂ R items results) {p : α → Bool} {q : β → Bool}
    (hR : ∀ item ∈ items, ∀ a, R item a → p a = q item) : results.countP p = items.countP q := by
  induction h with
  | nil => rfl
  | cons hhead _ ih =>
      rw [List.countP_cons, List.countP_cons, hR _ List.mem_cons_self _ hhead,
        ih fun item hitem => hR item (List.mem_cons_of_mem _ hitem)]

end Yield

/-! ## Every split -/

section Splitters

variable {dates : List (Option Timestamp)} {labelEvents : Option (List LabelEvent)}
variable {finalHoldoutStart : Option Timestamp} {u : Development}

theorem PurgedKFold.of_prepare {cv : PurgedKFold}
    (h : cv.prepare dates labelEvents finalHoldoutStart = .ok u) :
    2 ≤ cv.nSplits ∧ 0 ≤ cv.purge ∧ 0 ≤ cv.embargo ∧ cv.nSplits ≤ u.sessions.length ∧
      u.Sound dates labelEvents finalHoldoutStart := by
  simp only [PurgedKFold.prepare, bind_eq_ok_iff, refuseIf_eq_ok_iff, pure_eq_ok,
    Except.ok.injEq] at h
  obtain ⟨-, hsplits, -, hcounts, v, hv, -, hle, rfl⟩ := h
  rw [not_or, not_lt, not_lt] at hcounts
  exact ⟨not_lt.mp hsplits, hcounts.1, hcounts.2, not_lt.mp hle, Development.sound hv⟩

theorem CombinatorialPurgedCV.of_prepare {cv : CombinatorialPurgedCV}
    (h : cv.prepare dates labelEvents finalHoldoutStart = .ok u) :
    0 < cv.nTestGroups ∧ cv.nTestGroups < cv.nGroups ∧ 0 ≤ cv.purge ∧ 0 ≤ cv.embargo ∧
      cv.nGroups ≤ u.sessions.length ∧ u.Sound dates labelEvents finalHoldoutStart := by
  simp only [CombinatorialPurgedCV.prepare, bind_eq_ok_iff, refuseIf_eq_ok_iff, pure_eq_ok,
    Except.ok.injEq] at h
  obtain ⟨-, hgroups, -, hcounts, -, -, v, hv, -, hle, rfl⟩ := h
  rw [not_not] at hgroups
  rw [not_or, not_lt, not_lt] at hcounts
  exact ⟨hgroups.1, hgroups.2, hcounts.1, hcounts.2, not_lt.mp hle, Development.sound hv⟩

/-- A position is in one group. -/
theorem group_unique {count i c d : ℕ} (hcount : 0 < count) {first second : List ℕ}
    (hc : (u.folds count)[c]? = some first) (hd : (u.folds count)[d]? = some second)
    (hi : i ∈ first) (hi' : i ∈ second) : c = d := by
  have hnodup : (u.folds count).flatten.Nodup := by
    rw [Development.folds, flatten_arraySplit hcount]
    exact List.nodup_range
  obtain ⟨hclt, rfl⟩ := List.getElem?_eq_some_iff.mp hc
  obtain ⟨hdlt, rfl⟩ := List.getElem?_eq_some_iff.mp hd
  have hdisjoint := List.pairwise_iff_getElem.mp (List.nodup_flatten.mp hnodup).2
  rcases lt_trichotomy c d with hlt | heq | hgt
  · exact absurd hi' (hdisjoint c d hclt hdlt hlt hi)
  · exact heq
  · exact absurd hi (hdisjoint d c hdlt hclt hgt hi')

/-- A position is tested when its group is chosen. -/
theorem mem_groups_iff {count i c : ℕ} (hcount : 0 < count) {combo group : List ℕ}
    (hcombo : ∀ d ∈ combo, d < count) (hgroup : (u.folds count)[c]? = some group) (hi : i ∈ group) :
    i ∈ (combo.map fun d => (u.folds count).getD d []).flatten ↔ c ∈ combo := by
  have hlength : (u.folds count).length = count := length_arraySplit hcount _
  rw [List.mem_flatten]
  constructor
  · rintro ⟨fold, hfold, hmem⟩
    obtain ⟨d, hd, rfl⟩ := List.mem_map.mp hfold
    have hlt : d < (u.folds count).length := (hcombo d hd).trans_eq hlength.symm
    rw [List.getD_eq_getElem _ _ hlt] at hmem
    rwa [group_unique hcount hgroup (List.getElem?_eq_getElem hlt) hi hmem]
  · intro hc
    refine ⟨group, List.mem_map.mpr ⟨c, hc, ?_⟩, hi⟩
    rw [List.getD_eq_getElem?_getD, hgroup]
    rfl

/-- The splits of a K-fold: each is free of leakage, and the tests are a partition. -/
structure SafeFolds (u : Development) (labelEvents : Option (List LabelEvent))
    (nSplits purge embargo : ℕ) (yielded : Yielded Split) : Prop where
  leakless : ∀ split ∈ yielded.splits,
    ∃ block, split.Leakless u labelEvents purge embargo [block]
  partition : ∃ folds : List (List Timestamp), folds.length = nSplits ∧
    folds.flatten = u.sessions ∧ yielded.splits.map (·.test) <+: folds ∧
    (yielded.raised = none → yielded.splits.map (·.test) = folds)

/-- The combinatorial splits: each is free of leakage, and the tests are balanced. -/
structure SafeCombinations (u : Development) (labelEvents : Option (List LabelEvent))
    (nGroups nTestGroups purge embargo : ℕ) (yielded : Yielded (Split × List ℕ)) : Prop where
  leakless : ∀ split ∈ yielded.splits,
    ∃ blocks, split.1.Leakless u labelEvents purge embargo blocks
  balanced : ∀ t ∈ u.sessions,
    yielded.splits.countP (t ∈ ·.1.test) ≤ (nGroups - 1).choose (nTestGroups - 1) ∧
    (yielded.raised = none →
      yielded.splits.countP (t ∈ ·.1.test) = (nGroups - 1).choose (nTestGroups - 1))

theorem safeFolds_of_yieldEach (hu : u.Sound dates labelEvents finalHoldoutStart)
    {count purge embargo : ℕ} (hcount : 0 < count) (hle : count ≤ u.sessions.length)
    (message : String) : SafeFolds u labelEvents count purge embargo
      (yieldEach (fun fold => u.cut purge embargo message [fold]) (u.folds count)) := by
  obtain ⟨done, rest, hitems, hdone, hrest⟩ :=
    yieldEach_eq (fun fold => u.cut purge embargo message [fold]) (u.folds count)
  have htests : (yieldEach (fun fold => u.cut purge embargo message [fold])
      (u.folds count)).splits.map (·.test) = done.map u.take := by
    refine map_eq_of_forall₂ hdone fun fold split hcut => ?_
    rw [test_eq hcut, List.flatten_singleton]
  refine ⟨fun split hsplit => ?_, (u.folds count).map u.take, ?_,
    Development.flatten_take_folds hcount, ?_, fun hraised => ?_⟩
  · obtain ⟨fold, hfold, hcut⟩ := exists_item_of_mem hdone hsplit
    have hmem : fold ∈ u.folds count := hitems ▸ List.mem_append_left rest hfold
    exact ⟨blockOf fold, leakless_of_cut hu hcount hle
      (fun _ hother => List.mem_singleton.mp hother ▸ hmem) hcut⟩
  · rw [List.length_map]
    exact length_arraySplit hcount _
  · rw [htests, ← hitems, List.map_append]
    exact List.prefix_append _ _
  · rw [htests, ← hitems, hrest hraised, List.append_nil]

theorem safeCombinations_of_yieldEach (hu : u.Sound dates labelEvents finalHoldoutStart)
    {nGroups nTestGroups purge embargo : ℕ} (hgroups : 0 < nGroups) (htests : 0 < nTestGroups)
    (hle : nGroups ≤ u.sessions.length) :
    SafeCombinations u labelEvents nGroups nTestGroups purge embargo
      (yieldEach (u.cutGroups nGroups purge embargo)
        (combinations nTestGroups (List.range nGroups))) := by
  have hlength : (u.folds nGroups).length = nGroups := length_arraySplit hgroups _
  have hcombo : ∀ combo ∈ combinations nTestGroups (List.range nGroups), ∀ c ∈ combo,
      c < nGroups := fun combo hcombo c hc =>
    List.mem_range.mp ((sublist_of_mem_combinations hcombo).1.subset hc)
  obtain ⟨done, rest, hitems, hdone, hrest⟩ := yieldEach_eq
    (u.cutGroups nGroups purge embargo) (combinations nTestGroups (List.range nGroups))
  have hdoneSub : ∀ combo ∈ done, combo ∈ combinations nTestGroups (List.range nGroups) :=
    fun combo hmem => hitems ▸ List.mem_append_left rest hmem
  refine ⟨fun split hsplit => ?_, fun t ht => ?_⟩
  · obtain ⟨combo, hmem, hcut⟩ := exists_item_of_mem hdone hsplit
    simp only [Development.cutGroups, bind_eq_ok_iff, pure_eq_ok, Except.ok.injEq] at hcut
    obtain ⟨_, hcut, rfl⟩ := hcut
    refine ⟨_, leakless_of_cut hu hgroups hle (fun fold hfold => ?_) hcut⟩
    obtain ⟨c, hc, rfl⟩ := List.mem_map.mp hfold
    have hlt : c < (u.folds nGroups).length :=
      (hcombo combo (hdoneSub combo hmem) c hc).trans_eq hlength.symm
    rw [List.getD_eq_getElem _ _ hlt]
    exact List.getElem_mem hlt
  · obtain ⟨i, hi, hsession⟩ := List.getElem_of_mem ht
    have hsession : u.sessions[i]? = some t := List.getElem?_eq_some_iff.mpr ⟨hi, hsession⟩
    have hflat : i ∈ (u.folds nGroups).flatten := by
      rw [Development.folds, flatten_arraySplit hgroups]
      exact List.mem_range.mpr hi
    obtain ⟨group, hgroup, higroup⟩ := List.mem_flatten.mp hflat
    obtain ⟨c, hc, rfl⟩ := List.getElem_of_mem hgroup
    -- A session is tested exactly when its group is chosen.
    have hcount : (yieldEach (u.cutGroups nGroups purge embargo)
        (combinations nTestGroups (List.range nGroups))).splits.countP (t ∈ ·.1.test) = done.countP (c ∈ ·) := by
      refine countP_eq_of_forall₂ hdone fun combo hmem split hcut => ?_
      simp only [Development.cutGroups, bind_eq_ok_iff, pure_eq_ok, Except.ok.injEq] at hcut
      obtain ⟨split, hcut, rfl⟩ := hcut
      refine decide_eq_decide.mpr ?_
      rw [← mem_groups_iff hgroups (hcombo combo (hdoneSub combo hmem))
        (List.getElem?_eq_getElem hc) higroup, test_eq hcut, Development.mem_take]
      constructor
      · rintro ⟨j, hj, hsession'⟩
        exact hu.index_unique hsession' hsession ▸ hj
      · exact fun hmem => ⟨i, hmem, hsession⟩
    obtain ⟨k, rfl⟩ : ∃ k, nTestGroups = k + 1 := ⟨nTestGroups - 1, by omega⟩
    have hall : (combinations (k + 1) (List.range nGroups)).countP (c ∈ ·) =
        (nGroups - 1).choose k := by
      rw [countP_mem_combinations k List.nodup_range (List.mem_range.mpr (hlength ▸ hc)),
        List.length_range]
    rw [hcount, Nat.add_sub_cancel, ← hall]
    refine ⟨?_, fun hraised => ?_⟩
    · rw [← hitems]
      exact (List.sublist_append_left done rest).countP_le
    · rw [← hitems, hrest hraised, List.append_nil]

/-- A generator that passes its checks yields only splits without leakage. -/
theorem purged_cv_no_leak (dates : List (Option Timestamp))
    (labelEvents : Option (List LabelEvent)) (finalHoldoutStart : Option Timestamp) :
    (∀ cv : PurgedKFold,
      (∃ e, cv.split dates labelEvents finalHoldoutStart = ⟨[], some e⟩) ∨
      ∃ (u : Development) (nSplits purge embargo : ℕ),
        u.Sound dates labelEvents finalHoldoutStart ∧
        cv = ⟨nSplits, purge, embargo⟩ ∧
        SafeFolds u labelEvents nSplits purge embargo
          (cv.split dates labelEvents finalHoldoutStart)) ∧
    ∀ cv : CombinatorialPurgedCV,
      (∃ e, cv.split dates labelEvents finalHoldoutStart = ⟨[], some e⟩) ∨
      ∃ (u : Development) (nGroups nTestGroups purge embargo : ℕ),
        u.Sound dates labelEvents finalHoldoutStart ∧
        cv = ⟨nGroups, nTestGroups, purge, embargo⟩ ∧
        SafeCombinations u labelEvents nGroups nTestGroups purge embargo
          (cv.split dates labelEvents finalHoldoutStart) := by
  refine ⟨fun cv => ?_, fun cv => ?_⟩
  · rw [PurgedKFold.split]
    cases h : cv.prepare dates labelEvents finalHoldoutStart with
    | error e => exact .inl ⟨e, rfl⟩
    | ok u =>
        obtain ⟨hsplits, hpurge, hembargo, hle, hu⟩ := PurgedKFold.of_prepare h
        refine .inr ⟨u, cv.nSplits.toNat, cv.purge.toNat, cv.embargo.toNat, hu, ?_,
          safeFolds_of_yieldEach hu (by omega) (by omega) _⟩
        rw [Int.toNat_of_nonneg (by omega), Int.toNat_of_nonneg hpurge,
          Int.toNat_of_nonneg hembargo]
  · rw [CombinatorialPurgedCV.split]
    cases h : cv.prepare dates labelEvents finalHoldoutStart with
    | error e => exact .inl ⟨e, rfl⟩
    | ok u =>
        obtain ⟨htests, hgroups, hpurge, hembargo, hle, hu⟩ := CombinatorialPurgedCV.of_prepare h
        refine .inr ⟨u, cv.nGroups.toNat, cv.nTestGroups.toNat, cv.purge.toNat,
          cv.embargo.toNat, hu, ?_, safeCombinations_of_yieldEach hu (by omega) (by omega)
            (by omega)⟩
        rw [Int.toNat_of_nonneg (by omega), Int.toNat_of_nonneg (by omega),
          Int.toNat_of_nonneg hpurge, Int.toNat_of_nonneg hembargo]

/-- Of two sessions after the first fold, the purge drops the one that is next to it. -/
example : PurgedKFold.split ⟨2, 1, 0⟩ ([0, 1, 2, 3].map fun day => some (day * dayLength)) none none =
    ⟨[⟨[3 * dayLength], [0, dayLength]⟩, ⟨[0], [2 * dayLength, 3 * dayLength]⟩], none⟩ := by
  decide +kernel

end Splitters

end PurgedCv
