import SignalFoundry.AlphaForge.Data.Panels

/-!
# The decision panel as of a close

An as-of load collects the session closes from the rows it keeps, so that a session none
of whose rows is available by its close is not represented in it and the bars that belong
to it are lost. The decision panel of a load as of each close is the part of the full one
dated by then exactly when the sessions that date a bar close in date order and each of
them has, by its close, a row that is late enough.
-/

namespace BundleData

open Fallible PyFloat

variable {F : Type} {source : List (SourceRow F)} {s : Instant}

/-! ## Sessions and their closes -/

theorem mem_sessions : s ∈ sessions source ↔ ∃ row ∈ source, row.date = s := by
  rw [sessions, mem_sortedBy, List.mem_dedup, List.mem_map]

theorem pairwise_sessions (source : List (SourceRow F)) : (sessions source).Pairwise (· < ·) := by
  have hnodup : (sessions source).Nodup :=
    (perm_sortedBy id _).nodup_iff.mpr (List.nodup_dedup _)
  exact ((pairwise_sortedBy id _).and hnodup).imp fun h => lt_of_le_of_ne h.1 h.2

theorem effectiveAt_le_close {row : SourceRow F} (hrow : row ∈ source) :
    row.effectiveAt ≤ close source row.date := by
  have hmem : row.effectiveAt ∈ (source.filter (·.date = row.date)).map (·.effectiveAt) :=
    List.mem_map_of_mem (List.mem_filter.mpr ⟨hrow, by simp⟩)
  obtain ⟨latest, hlatest⟩ := Option.ne_none_iff_exists'.mp fun hnone =>
    List.ne_nil_of_mem hmem (List.max?_eq_none_iff.mp hnone)
  rw [close, hlatest]
  exact (List.max?_eq_some_iff.mp hlatest).2 _ hmem

/-- A close is attained by a row of the session. -/
theorem exists_effectiveAt_eq_close (hs : s ∈ sessions source) :
    ∃ row ∈ source, row.date = s ∧ row.effectiveAt = close source s := by
  obtain ⟨row, hrow, hdate⟩ := mem_sessions.mp hs
  have hmem : row.effectiveAt ∈ (source.filter (·.date = s)).map (·.effectiveAt) :=
    List.mem_map_of_mem (List.mem_filter.mpr ⟨hrow, by simpa using hdate⟩)
  obtain ⟨latest, hlatest⟩ := Option.ne_none_iff_exists'.mp fun hnone =>
    List.ne_nil_of_mem hmem (List.max?_eq_none_iff.mp hnone)
  obtain ⟨last, hlast, heffective⟩ := List.mem_map.mp (List.max?_eq_some_iff.mp hlatest).1
  obtain ⟨hlast, hlastDate⟩ := List.mem_filter.mp hlast
  refine ⟨last, hlast, by simpa using hlastDate, ?_⟩
  rw [close, hlatest]
  exact heffective

theorem decisionDate_eq_some_iff {a : Instant} :
    decisionDate source a = some s ↔ FirstClose (sessions source) (close source) a s :=
  getElem?_searchsortedLeft_eq_some_iff (pairwise_sessions source)

/-! ## The rows of an as-of load -/

section Visible

variable {cutoff cutoff' : Instant} {row : SourceRow F}

theorem mem_visible (hle : ∀ row ∈ source, row.effectiveAt ≤ row.availableAt) :
    row ∈ visible source cutoff ↔ row ∈ source ∧ row.availableAt ≤ cutoff := by
  rw [visible, List.mem_filter, decide_eq_true_iff]
  exact and_congr_right fun hrow => and_iff_right_of_imp (hle row hrow).trans

theorem visible_subset : visible source cutoff ⊆ source := List.filter_subset_self _

theorem sessions_visible_subset : sessions (visible source cutoff) ⊆ sessions source := by
  intro s hs
  obtain ⟨row, hrow, hdate⟩ := mem_sessions.mp hs
  exact mem_sessions.mpr ⟨row, visible_subset hrow, hdate⟩

theorem close_visible_le (hs : s ∈ sessions (visible source cutoff)) :
    close (visible source cutoff) s ≤ close source s := by
  obtain ⟨row, hrow, rfl, hclose⟩ := exists_effectiveAt_eq_close hs
  rw [← hclose]
  exact effectiveAt_le_close (visible_subset hrow)

theorem visible_mono (hcutoff : cutoff ≤ cutoff') :
    visible source cutoff ⊆ visible source cutoff' := by
  intro row hrow
  simp only [visible, List.mem_filter, decide_eq_true_eq] at hrow ⊢
  exact ⟨hrow.1, hrow.2.1.trans hcutoff, hrow.2.2.trans hcutoff⟩

theorem close_visible_mono (hcutoff : cutoff ≤ cutoff') (hs : s ∈ sessions (visible source cutoff)) :
    close (visible source cutoff) s ≤ close (visible source cutoff') s := by
  obtain ⟨row, hrow, rfl, hclose⟩ := exists_effectiveAt_eq_close hs
  rw [← hclose]
  exact effectiveAt_le_close (visible_mono hcutoff hrow)

end Visible

/-! ## Decision sources -/

section DecisionSource

theorem mem_decisionSource {row : SourceRow F} : row ∈ decisionSource source ↔
    ∃ used ∈ source, ∃ s, decisionDate source used.availableAt = some s ∧
      { used with date := s } = row := by
  rw [decisionSource, List.mem_filterMap]
  simp only [Option.map_eq_some_iff]

theorem eq_of_nodup_filterMap {α β : Type} {f : α → Option β} {l : List α}
    (h : (l.filterMap f).Nodup) {a b : α} {c : β} (ha : a ∈ l) (hb : b ∈ l) (hfa : f a = some c)
    (hfb : f b = some c) : a = b := by
  induction l with
  | nil => cases ha
  | cons x l ih =>
      cases hx : f x with
      | none =>
          rw [List.filterMap_cons_none hx] at h
          have hne : ∀ {y}, f y = some c → y ≠ x := by
            rintro y hy rfl
            simp [hx] at hy
          exact ih h (List.mem_of_ne_of_mem (hne hfa) ha) (List.mem_of_ne_of_mem (hne hfb) hb)
      | some y =>
          rw [List.filterMap_cons_some hx, List.nodup_cons] at h
          have hhead : ∀ {z}, z ∈ l → f z = some c → f x = some c → False := by
            intro z hz hfz hfx
            rw [hx] at hfx
            exact h.1 (List.mem_filterMap.mpr ⟨z, hz, hfz.trans hfx.symm⟩)
          rcases List.mem_cons.mp ha with rfl | hal <;> rcases List.mem_cons.mp hb with rfl | hbl
          · rfl
          · exact (hhead hbl hfb hfa).elim
          · exact (hhead hal hfa hfb).elim
          · exact ih h.2 hal hbl

/-- No two rows of a ticker are dated at one decision session. -/
theorem eq_of_decisionDate_eq (hnodup : ((decisionSource source).map SourceRow.key).Nodup)
    {row row' : SourceRow F} (hrow : row ∈ source) (hrow' : row' ∈ source)
    (hs : decisionDate source row.availableAt = some s)
    (hs' : decisionDate source row'.availableAt = some s) (hticker : row.ticker = row'.ticker) :
    row = row' := by
  rw [decisionSource, List.map_filterMap] at hnodup
  refine eq_of_nodup_filterMap (c := (s, row.ticker)) hnodup hrow hrow' ?_ ?_
  · rw [hs]
    rfl
  · rw [hs', hticker]
    rfl

end DecisionSource

/-! ## What a load returns -/

section Load

variable [PyFloat F]

theorem finite_of_mem_decisionSource (hsource : Accepted source) :
    ∀ row ∈ decisionSource source, isFinite row.close = true ∧ isFinite row.volume = true := by
  intro row hrow
  obtain ⟨used, hused, s, -, rfl⟩ := mem_decisionSource.mp hrow
  exact hsource.finite used hused

theorem convertible_of_mem_decisionSource (h : ∀ row ∈ source, row.Convertible) :
    ∀ row ∈ decisionSource source, row.Convertible := by
  intro row hrow
  obtain ⟨used, hused, s, -, rfl⟩ := mem_decisionSource.mp hrow
  exact (used.convertible_with_date s).mpr (h used hused)

theorem Accepted.visible (hsource : Accepted source) (cutoff : Instant) :
    Accepted (BundleData.visible source cutoff) where
  nodup := hsource.nodup.sublist (List.filter_sublist.map _)
  le row hrow := hsource.le row (visible_subset hrow)
  finite row hrow := hsource.finite row (visible_subset hrow)

variable [FiniteProducts F]

theorem toDecisionPanel_eq_ok_iff {panel : List (Bar F)} (hsource : Accepted source)
    (hconvertible : ∀ row ∈ source, row.Convertible) :
    toDecisionPanel source = .ok panel ↔ decisionSource source ≠ [] ∧
      ((decisionSource source).map SourceRow.key).Nodup ∧
      panel = sortedBy Bar.key ((decisionSource source).map SourceRow.toBar) := by
  simp only [toDecisionPanel, bind_eq_ok_iff, refuseIf_eq_ok_iff, not_not,
    toAlphaforgePanel_eq_ok_iff (finite_of_mem_decisionSource hsource)]
  constructor
  · rintro ⟨-, hne, -, -, -, hnodup, -, hpanel⟩
    exact ⟨hne, hnodup, hpanel⟩
  · rintro ⟨hne, hnodup, hpanel⟩
    exact ⟨(), hne, (), hnodup, hne, hnodup, convertible_of_mem_decisionSource hconvertible, hpanel⟩

/-- The full load of an accepted frame. -/
theorem loadDataset_none_eq_ok {now : Dataset F} (hsource : Accepted source)
    (hload : loadDataset source none = .ok now) : (∀ row ∈ source, row.Convertible) ∧
      ((decisionSource source).map SourceRow.key).Nodup ∧
      now.decisionPanel = sortedBy Bar.key ((decisionSource source).map SourceRow.toBar) := by
  simp only [loadDataset, asOfSource, bind_eq_ok_iff, Except.ok.injEq, pure_eq_ok] at hload
  obtain ⟨_, rfl, panel, hpanel, decisionPanel, hdecision, rfl⟩ := hload
  obtain ⟨-, -, hconvertible, -⟩ := (toAlphaforgePanel_eq_ok_iff hsource.finite).mp hpanel
  obtain ⟨-, hnodup, hdecision⟩ := (toDecisionPanel_eq_ok_iff hsource hconvertible).mp hdecision
  exact ⟨hconvertible, hnodup, hdecision⟩

/-- A load as of an instant, where the full load converts every row. -/
theorem loadDataset_some_eq_ok_iff {cutoff : Instant} {panel : List (Bar F)}
    (hsource : Accepted source) (hconvertible : ∀ row ∈ source, row.Convertible) :
    (∃ data, loadDataset source (some cutoff) = .ok data ∧ data.decisionPanel = panel) ↔
      decisionSource (visible source cutoff) ≠ [] ∧
      ((decisionSource (visible source cutoff)).map SourceRow.key).Nodup ∧
      panel = sortedBy Bar.key ((decisionSource (visible source cutoff)).map SourceRow.toBar) := by
  have hrows : ∀ row ∈ visible source cutoff, row.Convertible := fun row hrow =>
    hconvertible row (visible_subset hrow)
  have hvisible := hsource.visible cutoff
  rw [← toDecisionPanel_eq_ok_iff hvisible hrows]
  simp only [loadDataset, asOfSource, bind_eq_ok_iff, refuseIf_eq_ok_iff, Except.ok.injEq,
    pure_eq_ok]
  constructor
  · rintro ⟨_, ⟨_, ⟨-, -, rfl⟩, -, -, _, hdecision, rfl⟩, rfl⟩
    exact hdecision
  · intro hdecision
    have hne : visible source cutoff ≠ [] := by
      intro hnil
      have hsome := (toDecisionPanel_eq_ok_iff hvisible hrows).mp hdecision
      rw [hnil] at hsome
      exact hsome.1 rfl
    exact ⟨_, ⟨_, ⟨(), hne, rfl⟩, _, (toAlphaforgePanel_eq_ok_iff hvisible.finite).mpr
      ⟨hne, hvisible.nodup, hrows, rfl⟩, panel, hdecision, rfl⟩, rfl⟩

/-- An as-of load is refused for want of rows exactly when none of the rows it keeps has a
decision session. -/
theorem loadDataset_some_eq_none_iff {cutoff : Instant} (hsource : Accepted source)
    (hconvertible : ∀ row ∈ source, row.Convertible) :
    (loadDataset source (some cutoff) = .error noneVisible ∨
      loadDataset source (some cutoff) = .error noneUsable) ↔
        decisionSource (visible source cutoff) = [] := by
  by_cases hnil : visible source cutoff = []
  · have hload : loadDataset source (some cutoff) = .error noneVisible := by
      simp only [loadDataset, asOfSource, refuseIf_of hnil, error_bind]
    rw [hload, hnil]
    exact iff_of_true (.inl rfl) rfl
  · have hrows : ∀ row ∈ visible source cutoff, row.Convertible := fun row hrow =>
      hconvertible row (visible_subset hrow)
    have hvisible := hsource.visible cutoff
    have hpanel := (toAlphaforgePanel_eq_ok_iff hvisible.finite).mpr
      ⟨hnil, hvisible.nodup, hrows, rfl⟩
    simp only [loadDataset, asOfSource, refuseIf_of_not hnil, ok_bind, pure_eq_ok, hpanel]
    by_cases hnone : decisionSource (visible source cutoff) = []
    · rw [toDecisionPanel, refuseIf_of hnone]
      exact iff_of_true (.inr rfl) hnone
    · refine iff_of_false ?_ hnone
      by_cases hnodup : ((decisionSource (visible source cutoff)).map SourceRow.key).Nodup
      · rw [(toDecisionPanel_eq_ok_iff hvisible hrows).mpr ⟨hnone, hnodup, rfl⟩]
        simp
      · rw [toDecisionPanel, refuseIf_of_not hnone, ok_bind, refuseIf_of hnodup]
        simp [noneVisible, noneUsable]

end Load

/-! ## The same panel, seen then and now -/

section Seen

variable [PyFloat F]

/-- The bars of a panel dated by a session. -/
def datedBy (panel : List (Bar F)) (date : Instant) : List (Bar F) :=
  panel.filter (·.date ≤ date)

/-- The load as of the close of a session has the bars of a full load dated by then, or it
is refused because there are none. -/
def SameAsOf (source : List (SourceRow F)) (now : Dataset F) (date : Instant) : Prop :=
  (∃ data, loadDataset source (some (close source date)) = .ok data ∧
    data.decisionPanel = datedBy now.decisionPanel date) ∨
  (datedBy now.decisionPanel date = [] ∧
    (loadDataset source (some (close source date)) = .error noneVisible ∨
      loadDataset source (some (close source date)) = .error noneUsable))

/-- Every bar comes from a row of its own, available by the close of the bar's session and
by that of no earlier session. -/
def UsesFirstCloses (source : List (SourceRow F)) (panel : List (Bar F)) : Prop :=
  ∃ used : List (SourceRow F × Instant), (used.map Prod.fst).Sublist source ∧
    panel.Perm (used.map fun u => SourceRow.toBar { u.1 with date := u.2 }) ∧
    ∀ u ∈ used, u.2 ∈ sessions source ∧ u.1.availableAt ≤ close source u.2 ∧
      ∀ t ∈ sessions source, t < u.2 → close source t < u.1.availableAt

structure SeenThenAndNow (source : List (SourceRow F)) (now : Dataset F) : Prop where
  same : ∀ date ∈ sessions source, SameAsOf source now date
  firstCloses : UsesFirstCloses source now.decisionPanel

end Seen

/-- What has to hold of a row and of the first session to close once it is available. -/
structure Settled (source : List (SourceRow F)) (row : SourceRow F) (s : Instant) : Prop where
  before : ∀ t ∈ sessions source, t ≤ s → close source t ≤ close source s
  after : ∀ t ∈ sessions source, s ≤ t → close source s ≤ close source t
  attained : ∃ last ∈ source, last.date = s ∧ last.availableAt ≤ close source s ∧
    row.availableAt ≤ last.effectiveAt
  undisturbed : ∀ t ∈ sessions source, s ≤ t →
    ∀ u ∈ sessions (visible source (close source t)), s < u →
      row.availableAt ≤ close (visible source (close source t)) u →
      close (visible source (close source t)) s ≤ close (visible source (close source t)) u

/-- Every session that dates a bar is settled for the row of the bar. -/
def ClosesInTime (source : List (SourceRow F)) : Prop :=
  ∀ row ∈ source, ∀ s, FirstClose (sessions source) (close source) row.availableAt s →
    Settled source row s

/-- The rows that a load as of the close of a session dates, each where the full load
dates it. -/
def SameRows (source : List (SourceRow F)) (date : Instant) : Prop :=
  ∀ row ∈ source, ∀ s, (row.availableAt ≤ close source date ∧
    decisionDate (visible source (close source date)) row.availableAt = some s) ↔
      (decisionDate source row.availableAt = some s ∧ s ≤ date)

/-! ### Settled sessions date the same rows -/

section Rows

variable {row : SourceRow F} {date t : Instant}

theorem decisionDate_visible_of_settled (hle : ∀ row ∈ source, row.effectiveAt ≤ row.availableAt)
    (hfirst : FirstClose (sessions source) (close source) row.availableAt s)
    (hsettled : Settled source row s) (hdate : date ∈ sessions source) (hs : s ≤ date) :
    decisionDate (visible source (close source date)) row.availableAt = some s := by
  have hclose : close source s ≤ close source date := hsettled.after date hdate hs
  obtain ⟨last, hlast, rfl, hlastAvailable, hlastEffective⟩ := hsettled.attained
  have hvisible : last ∈ visible source (close source date) :=
    (mem_visible hle).mpr ⟨hlast, hlastAvailable.trans hclose⟩
  refine decisionDate_eq_some_iff.mpr ⟨mem_sessions.mpr ⟨last, hvisible, rfl⟩,
    hlastEffective.trans (effectiveAt_le_close hvisible), fun t ht hat => ?_⟩
  have hmem := sessions_visible_subset ht
  have horder := hfirst.first t hmem (hat.trans (close_visible_le ht))
  rcases lt_trichotomy t last.date with hlt | rfl | hgt
  · -- an earlier session closes no later, so that it would have come first
    have hback := closing_le_of_le_of_le (hsettled.before t hmem hlt.le) hlt.le
    exact absurd (eq_of_closing_eq (le_antisymm hback horder)) hlt.ne
  · exact le_rfl
  · exact closing_le_of_le_of_le (hsettled.undisturbed date hdate hs t ht hgt hat) hgt.le

theorem sameRows_of_closesInTime (hle : ∀ row ∈ source, row.effectiveAt ≤ row.availableAt)
    (h : ClosesInTime source) (hdate : date ∈ sessions source) : SameRows source date := by
  intro row hrow s
  constructor
  · rintro ⟨havailable, hs⟩
    obtain ⟨t, hfirst⟩ := FirstClose.exists_of_le hdate havailable
    have hsettled := h row hrow t hfirst
    have ht : t ≤ date := by
      by_contra hlt
      have hback := closing_le_of_le_of_le (hsettled.before date hdate (not_le.mp hlt).le)
        (not_le.mp hlt).le
      exact hlt (eq_of_closing_eq (le_antisymm (hfirst.first date hdate havailable) hback)).le
    have hsame := decisionDate_visible_of_settled hle hfirst hsettled hdate ht
    obtain rfl := Option.some.inj (hs.symm.trans hsame)
    exact ⟨decisionDate_eq_some_iff.mpr hfirst, ht⟩
  · rintro ⟨hs, hle'⟩
    have hfirst := decisionDate_eq_some_iff.mp hs
    have hsettled := h row hrow s hfirst
    exact ⟨hfirst.le.trans (hsettled.after date hdate hle'),
      decisionDate_visible_of_settled hle hfirst hsettled hdate hle'⟩

theorem closesInTime_of_sameRows (hle : ∀ row ∈ source, row.effectiveAt ≤ row.availableAt)
    (h : ∀ date ∈ sessions source, SameRows source date) : ClosesInTime source := by
  intro row hrow s hfirst
  have hs := decisionDate_eq_some_iff.mpr hfirst
  have hlater : ∀ t ∈ sessions source, s ≤ t → row.availableAt ≤ close source t ∧
      FirstClose (sessions (visible source (close source t)))
        (close (visible source (close source t))) row.availableAt s := by
    intro t ht hst
    obtain ⟨havailable, hdecision⟩ := (h t ht row hrow s).mpr ⟨hs, hst⟩
    exact ⟨havailable, decisionDate_eq_some_iff.mp hdecision⟩
  obtain ⟨-, hown⟩ := hlater s hfirst.mem le_rfl
  refine ⟨fun t ht hts => ?_, fun t ht hst => ?_, ?_, fun t ht hst u hu hsu hau => ?_⟩
  · -- as of a later close the session would be seen to date the row too
    by_contra hlt
    have hlt := (not_le.mp hlt).le
    obtain ⟨u, hu⟩ := FirstClose.exists_of_le
      (mem_sessions.mpr <| (mem_sessions.mp hown.mem).imp fun _ hlast =>
        ⟨visible_mono hlt hlast.1, hlast.2⟩)
      (hown.le.trans (close_visible_mono hlt hown.mem))
    obtain ⟨hdecision, hut⟩ := (h t ht row hrow u).mp
      ⟨hfirst.le.trans hlt, decisionDate_eq_some_iff.mpr hu⟩
    obtain rfl := Option.some.inj (hs.symm.trans hdecision)
    obtain rfl := le_antisymm hts hut
    exact ‹¬ _› le_rfl
  · exact close_le_of_closing_le (hfirst.first t ht (hlater t ht hst).1)
  · obtain ⟨last, hlast, hdate, hclose⟩ := exists_effectiveAt_eq_close hown.mem
    obtain ⟨hlast, havailable⟩ := (mem_visible hle).mp hlast
    exact ⟨last, hlast, hdate, havailable, hclose ▸ hown.le⟩
  · exact close_le_of_closing_le ((hlater t ht hst).2.first u hu hau)

end Rows

/-! ### The bars of the same rows -/

section Bars

variable [PyFloat F] {date t : Instant}

/-- The bars that a frame dates. -/
def decisionBars (source : List (SourceRow F)) : List (Bar F) :=
  (decisionSource source).map SourceRow.toBar

theorem mem_decisionBars {bar : Bar F} : bar ∈ decisionBars source ↔ ∃ row ∈ source, ∃ s,
    decisionDate source row.availableAt = some s ∧
      SourceRow.toBar { row with date := s } = bar := by
  simp only [decisionBars, List.mem_map, mem_decisionSource]
  constructor
  · rintro ⟨_, ⟨row, hrow, s, hs, rfl⟩, rfl⟩
    exact ⟨row, hrow, s, hs, rfl⟩
  · rintro ⟨row, hrow, s, hs, rfl⟩
    exact ⟨_, ⟨row, hrow, s, hs, rfl⟩, rfl⟩

/-- A bar of a frame names the ticker of its row and the decision session. -/
theorem exists_row_of_mem_decisionBars {row : SourceRow F}
    (h : SourceRow.toBar { row with date := s } ∈ decisionBars source) :
    ∃ used ∈ source, decisionDate source used.availableAt = some s ∧ used.ticker = row.ticker := by
  obtain ⟨used, hused, t, ht, hbar⟩ := mem_decisionBars.mp h
  have hdate := congrArg Bar.date hbar
  have hsymbol := congrArg Bar.symbol hbar
  simp only [SourceRow.toBar_date, SourceRow.toBar_symbol] at hdate hsymbol
  exact ⟨used, hused, hdate ▸ ht, hsymbol⟩

theorem mem_datedBy_decisionBars {row : SourceRow F} (hrow : row ∈ source)
    (hs : decisionDate source row.availableAt = some s) (hdate : s ≤ date) :
    SourceRow.toBar { row with date := s } ∈ datedBy (decisionBars source) date := by
  refine List.mem_filter.mpr ⟨mem_decisionBars.mpr ⟨row, hrow, s, hs, rfl⟩, ?_⟩
  rw [SourceRow.toBar_date]
  exact decide_eq_true hdate

theorem decisionBars_eq_filterMap (source : List (SourceRow F)) : decisionBars source =
    source.filterMap fun row => (decisionDate source row.availableAt).map fun date =>
      SourceRow.toBar { row with date } := by
  rw [decisionBars, decisionSource, List.map_filterMap]
  simp only [Option.map_map]
  rfl

/-- Loads that date the same rows have the same bars. -/
theorem decisionBars_visible_of_sameRows
    (hle : ∀ row ∈ source, row.effectiveAt ≤ row.availableAt) (h : SameRows source date) :
    decisionBars (visible source (close source date)) = datedBy (decisionBars source) date := by
  have hvisible : visible source (close source date) =
      source.filter (·.availableAt ≤ close source date) :=
    List.filter_congr fun row hrow => by
      simpa using fun havailable => (hle row hrow).trans havailable
  have hrow : ∀ row ∈ source, (if row.availableAt ≤ close source date then
      decisionDate (visible source (close source date)) row.availableAt else none) =
        (decisionDate source row.availableAt).filter (· ≤ date) := by
    intro row hrow
    refine Option.ext fun s => ?_
    rw [Option.filter_eq_some_iff, decide_eq_true_iff, ← h row hrow s]
    split
    · next havailable => simp [havailable]
    · next hlate => simp [hlate]
  rw [decisionBars_eq_filterMap, decisionBars_eq_filterMap, datedBy, List.filter_filterMap]
  conv_lhs => rw [hvisible, List.filterMap_filter, ← hvisible]
  refine List.filterMap_congr fun row hr => ?_
  rw [Option.filter_map]
  have hdates := congrArg (Option.map fun date => SourceRow.toBar { row with date }) (hrow row hr)
  simp only [Function.comp_def, SourceRow.toBar_date]
  rw [← hdates]
  by_cases havailable : row.availableAt ≤ close source date
  · rw [if_pos (decide_eq_true havailable), if_pos havailable]
  · rw [if_neg (by simpa using havailable), if_neg havailable]
    rfl

/-- A row that a load as of the close of `date` dates at a session where the full load
does not. -/
structure Misdated (source : List (SourceRow F)) (date : Instant) (row : SourceRow F)
    (s : Instant) : Prop where
  mem : row ∈ visible source (close source date)
  dated : decisionDate (visible source (close source date)) row.availableAt = some s
  ne : decisionDate source row.availableAt ≠ some s

omit [PyFloat F] in
theorem Misdated.mem_sessions {row : SourceRow F} (h : Misdated source date row s) :
    s ∈ sessions source :=
  sessions_visible_subset (decisionDate_eq_some_iff.mp h.dated).mem

/-- Loads with the same bars as of every close date every row as the full load does. -/
theorem not_misdated (hle : ∀ row ∈ source, row.effectiveAt ≤ row.availableAt)
    (hnodup : ((decisionSource source).map SourceRow.key).Nodup)
    (h : ∀ date ∈ sessions source, (decisionBars (visible source (close source date))).Perm
      (datedBy (decisionBars source) date)) (hdate : date ∈ sessions source) {row : SourceRow F} :
    ¬ Misdated source date row s := by
  classical
  intro hmisdated
  -- the earliest close as of which a row is misdated, and there the first such session
  obtain ⟨date, hdate, hearliest⟩ := ((sessions source).toFinset.filter fun d =>
    ∃ row s, Misdated source d row s).exists_min_image (close source)
      ⟨date, by simpa [hdate] using ⟨row, s, hmisdated⟩⟩
  rw [Finset.mem_filter, List.mem_toFinset] at hdate
  obtain ⟨hdate, row, s, hmisdated⟩ := hdate
  obtain ⟨s, hs, hfirst⟩ := ((sessions source).toFinset.filter fun s =>
    ∃ row, Misdated source date row s).exists_min_image (closing (close source))
      ⟨s, by simpa [hmisdated.mem_sessions] using ⟨row, hmisdated⟩⟩
  rw [Finset.mem_filter, List.mem_toFinset] at hs
  obtain ⟨hs, row, hmisdated⟩ := hs
  have hearlier : ∀ d ∈ sessions source, close source d < close source date → ∀ row s,
      ¬ Misdated source d row s := fun d hd hlt row s hrow =>
    absurd (hearliest d (by simpa [hd] using ⟨row, s, hrow⟩)) (not_le.mpr hlt)
  have hbefore : ∀ t row, closing (close source) t < closing (close source) s →
      ¬ Misdated source date row t := fun t row hlt hrow =>
    absurd (hfirst t (by simpa [hrow.mem_sessions] using ⟨row, hrow⟩)) (not_le.mpr hlt)
  obtain ⟨hrow, havailable⟩ := (mem_visible hle).mp hmisdated.mem
  have hvisible := decisionDate_eq_some_iff.mp hmisdated.dated
  -- the full load dates the row at a session `t` that closes before `s`
  obtain ⟨t, ht⟩ := FirstClose.exists_of_le hdate havailable
  have htdated := decisionDate_eq_some_iff.mpr ht
  have hts : closing (close source) t < closing (close source) s := by
    refine lt_of_le_of_ne (ht.first s hs (hvisible.le.trans (close_visible_le hvisible.mem))) ?_
    intro heq
    exact hmisdated.ne (eq_of_closing_eq heq ▸ htdated)
  -- its bar at `s` is that of another row of the ticker
  have hbar : SourceRow.toBar { row with date := s } ∈ datedBy (decisionBars source) date :=
    (h date hdate).mem_iff.mp
      (mem_decisionBars.mpr ⟨row, hmisdated.mem, s, hmisdated.dated, rfl⟩)
  obtain ⟨hbar, hsdate⟩ := List.mem_filter.mp hbar
  rw [SourceRow.toBar_date, decide_eq_true_iff] at hsdate
  obtain ⟨used, hused, husedDated, husedTicker⟩ := exists_row_of_mem_decisionBars hbar
  by_cases htdate : t ≤ date
  · have hmem := (h date hdate).mem_iff.mpr (mem_datedBy_decisionBars hrow htdated htdate)
    obtain ⟨other, hother, hotherDated, hotherTicker⟩ := exists_row_of_mem_decisionBars hmem
    by_cases hsame : decisionDate source other.availableAt = some t
    · obtain rfl := eq_of_decisionDate_eq hnodup (visible_subset hother) hrow hsame htdated
        hotherTicker
      obtain rfl := Option.some.inj (hotherDated.symm.trans hmisdated.dated)
      exact hts.ne rfl
    · exact hbefore t other hts ⟨hother, hotherDated, hsame⟩
  · -- as of the close of `t`, which is earlier, no row is misdated
    have hlt : close source t < close source date := by
      rcases closing_le_iff.mp (ht.first date hdate havailable) with hlt | ⟨-, hle⟩
      · exact hlt
      · exact absurd hle htdate
    have hmem := (h t ht.mem).mem_iff.mpr
      (mem_datedBy_decisionBars hused husedDated (hsdate.trans (not_le.mp htdate).le))
    obtain ⟨other, hother, hotherDated, hotherTicker⟩ := exists_row_of_mem_decisionBars hmem
    have hsame : decisionDate source other.availableAt = some s :=
      by_contra fun hne => hearlier t ht.mem hlt other s ⟨hother, hotherDated, hne⟩
    obtain rfl := eq_of_decisionDate_eq hnodup (visible_subset hother) hused hsame husedDated
      hotherTicker
    have havailable := ((mem_visible hle).mp hother).2
    exact absurd ((decisionDate_eq_some_iff.mp husedDated).first t ht.mem havailable)
      (not_le.mpr hts)

theorem sameRows_of_sameBars (hle : ∀ row ∈ source, row.effectiveAt ≤ row.availableAt)
    (hnodup : ((decisionSource source).map SourceRow.key).Nodup)
    (h : ∀ date ∈ sessions source, (decisionBars (visible source (close source date))).Perm
      (datedBy (decisionBars source) date)) (hdate : date ∈ sessions source) :
    SameRows source date := by
  intro row hrow s
  constructor
  · rintro ⟨havailable, hs⟩
    have hvisible := (mem_visible hle).mpr ⟨hrow, havailable⟩
    have hbar : SourceRow.toBar { row with date := s } ∈ datedBy (decisionBars source) date :=
      (h date hdate).mem_iff.mp (mem_decisionBars.mpr ⟨row, hvisible, s, hs, rfl⟩)
    refine ⟨by_contra fun hne => not_misdated hle hnodup h hdate ⟨hvisible, hs, hne⟩, ?_⟩
    simpa using (List.mem_filter.mp hbar).2
  · rintro ⟨hs, hsdate⟩
    have hbar := (h date hdate).mem_iff.mpr (mem_datedBy_decisionBars hrow hs hsdate)
    obtain ⟨other, hother, hotherDated, hticker⟩ := exists_row_of_mem_decisionBars hbar
    have hsame : decisionDate source other.availableAt = some s :=
      by_contra fun hne => not_misdated hle hnodup h hdate ⟨hother, hotherDated, hne⟩
    obtain rfl := eq_of_decisionDate_eq hnodup (visible_subset hother) hrow hsame hs hticker
    exact ⟨((mem_visible hle).mp hother).2, hotherDated⟩

variable [FiniteProducts F] {now : Dataset F}

/-- Seen as of a close, the panel is the same when the two loads have the same bars. -/
theorem sameAsOf_iff (hsource : Accepted source) (hload : loadDataset source none = .ok now) :
    SameAsOf source now date ↔
      (decisionBars (visible source (close source date))).Perm
        (datedBy (decisionBars source) date) := by
  obtain ⟨hconvertible, hnodup, hnow⟩ := loadDataset_none_eq_ok hsource hload
  have hdated : (datedBy now.decisionPanel date).Perm (datedBy (decisionBars source) date) := by
    rw [hnow]
    exact (perm_sortedBy Bar.key _).filter _
  have hsorted : (datedBy now.decisionPanel date).Pairwise fun a b => a.key ≤ b.key := by
    rw [hnow]
    exact (pairwise_sortedBy Bar.key _).filter _
  have hkeys : ((datedBy (decisionBars source) date).map Bar.key).Nodup :=
    (nodup_key_toBar.mpr hnodup).sublist (List.filter_sublist.map _)
  rw [SameAsOf, loadDataset_some_eq_ok_iff hsource hconvertible,
    loadDataset_some_eq_none_iff hsource hconvertible]
  constructor
  · rintro (⟨-, -, hsame⟩ | ⟨hnone, hnil⟩)
    · refine List.Perm.trans ?_ hdated
      rw [hsame]
      exact (perm_sortedBy Bar.key _).symm
    · rw [hnone] at hdated
      rw [List.nil_perm.mp hdated, decisionBars, hnil]
      rfl
  · intro hperm
    by_cases hnil : decisionSource (visible source (close source date)) = []
    · refine .inr ⟨?_, hnil⟩
      rw [decisionBars, hnil] at hperm
      rw [List.nil_perm.mp hperm] at hdated
      exact List.perm_nil.mp hdated
    · have hdistinct := (hperm.map Bar.key).nodup_iff.mpr hkeys
      refine .inl ⟨hnil, nodup_key_toBar.mp hdistinct, ?_⟩
      have hsame := (hdated.trans hperm.symm).trans (perm_sortedBy Bar.key _).symm
      refine hsame.eq_of_pairwise (fun a b ha hb hab hba => ?_) hsorted
        (pairwise_sortedBy Bar.key _)
      exact List.inj_on_of_nodup_map hdistinct (mem_sortedBy.mp (hsame.mem_iff.mp ha))
        (mem_sortedBy.mp hb) (le_antisymm hab hba)

theorem map_filterMap_sublist {α β γ : Type} {f : α → Option β} {g : β → γ} {k : α → γ}
    (h : ∀ a b, f a = some b → g b = k a) (l : List α) :
    ((l.filterMap f).map g).Sublist (l.map k) := by
  induction l with
  | nil => exact List.Sublist.slnil
  | cons a l ih =>
      cases ha : f a with
      | none =>
          rw [List.filterMap_cons_none ha, List.map_cons]
          exact ih.cons _
      | some b =>
          rw [List.filterMap_cons_some ha, List.map_cons, List.map_cons, h a b ha]
          exact ih.cons_cons _

/-- Where the closes are in time, every bar comes from a row of its own at its first
usable close. -/
theorem usesFirstCloses_of_closesInTime (hsource : Accepted source)
    (hload : loadDataset source none = .ok now) (h : ClosesInTime source) :
    UsesFirstCloses source now.decisionPanel := by
  obtain ⟨-, -, hnow⟩ := loadDataset_none_eq_ok hsource hload
  let usedAt (row : SourceRow F) : Option (SourceRow F × Instant) :=
    (decisionDate source row.availableAt).map fun date => (row, date)
  refine ⟨source.filterMap usedAt, ?_, ?_, ?_⟩
  · have hsublist := map_filterMap_sublist (k := id) (f := usedAt) (g := Prod.fst)
      (fun row u hu => by
        obtain ⟨_, -, rfl⟩ := Option.map_eq_some_iff.mp hu
        rfl) source
    rwa [List.map_id] at hsublist
  · rw [hnow, List.map_filterMap]
    have hbars := decisionBars_eq_filterMap source
    simp only [usedAt, Option.map_map, Function.comp_def]
    rw [← hbars]
    exact perm_sortedBy Bar.key _
  · intro u hu
    obtain ⟨row, hrow, hdated⟩ := List.mem_filterMap.mp hu
    obtain ⟨s, hs, rfl⟩ := Option.map_eq_some_iff.mp hdated
    have hfirst := decisionDate_eq_some_iff.mp hs
    refine ⟨hfirst.mem, hfirst.le, fun t ht hts => ?_⟩
    by_contra hle
    have hback := closing_le_of_le_of_le ((h row hrow s hfirst).before t ht hts.le) hts.le
    exact absurd (eq_of_closing_eq (le_antisymm hback (hfirst.first t ht (not_lt.mp hle)))) hts.ne

end Bars

/-! ### Two sessions -/

/-- A bar of `AAA` whose session closes at 20:00 and which is available some time later. -/
def closingBar (date delay : Instant) : RawRow ℚ where
  date := date
  ticker := some "AAA"
  «open» := 10
  high := 12
  low := 9
  close := 10
  adjClose := 5
  volume := 100
  effectiveAt := some (date + 72000000000000)
  availableAt := some (date + 72000000000000 + delay)
  observedAt := some (date + 72000000000000 + delay)
  providerUpdatedAt := none
  instrumentId := some "AAA"
  currency := some "USD"
  exchangeCalendar := some "XNYS"
  adjustmentState := some "synthetic_fixture"
  source := some "yahoo"
  sourceTable := some "prices"

/-- Two sessions whose bars become available a given time after the close. -/
def twoSessions (delay : Instant) : List (RawRow ℚ) := [closingBar 0 delay, closingBar day delay]

def twoRows (delay : Instant) : List (SourceRow ℚ) := (twoSessions delay).map RawRow.toSourceRow

/-- The full load of bars available at the close. -/
def punctualDataset : Dataset ℚ where
  sourcePanel := twoRows 0
  panel := (twoRows 0).map SourceRow.toBar
  decisionPanel := (twoRows 0).map SourceRow.toBar
  asOf := none

/-- The full load of bars available half an hour after the close: the first is dated at
the second session. -/
def lateDataset : Dataset ℚ where
  sourcePanel := twoRows 1800000000000
  panel := (twoRows 1800000000000).map SourceRow.toBar
  decisionPanel := [(closingBar day 0).toSourceRow.toBar]
  asOf := none

end BundleData
