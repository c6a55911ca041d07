import SignalFoundry.Lattice.Shadow.Reports
import SignalFoundry.Library.Platform

/-!
# First-eligible evidence

A first-eligible report scores a forecast against the least observed revision
among the outcomes it reads. Outcomes are never changed, but a revision with a
smaller number may be appended later, and the rows that are read are cut off.
-/

namespace Shadow

open Fallible

section Appends

variable {F : Type} [PyFloat F]

namespace OutcomeStore

/-- What accepted calls do: the forecasts stay, rows are added, and each outcome is
stored under its key. -/
structure Appends (s : OutcomeStore F) (outcomes : List ShadowOutcome) (s' : OutcomeStore F) :
    Prop where
  store : s'.toStore = s.toStore
  added : ∃ rows, s'.outcomes = s.outcomes ++ rows ∧
    ∀ row ∈ rows, ∃ outcome ∈ outcomes, row = outcomeRow outcome
  stored : ∀ outcome ∈ outcomes, ∃ row ∈ s'.outcomes, row.forecastId = outcome.forecastId ∧
    row.revision = outcome.revision ∧ row.status = outcome.status
  unique : (s.outcomes.map OutcomeRow.key).Nodup → (s'.outcomes.map OutcomeRow.key).Nodup

theorem insertOutcome_eq_ok {s s' : OutcomeStore F} {row : OutcomeRow}
    (h : s.insertOutcome row = .ok s') :
    s' = { s with outcomes := s.outcomes ++ [row] } ∧ row.key ∉ s.outcomes.map OutcomeRow.key := by
  simp only [insertOutcome, bind_eq_ok_iff, refuseIf_eq_ok_iff, Except.ok.injEq] at h
  obtain ⟨-, -, -, hfresh, -, -, -, -, -, -, rfl⟩ := h
  exact ⟨rfl, hfresh⟩

theorem appends_of_appendOutcome {s s' : OutcomeStore F} {outcome : ShadowOutcome}
    (h : s.appendOutcome outcome = .ok s') : Appends s [outcome] s' := by
  simp only [appendOutcome, bind_eq_ok_iff, refuseIf_eq_ok_iff] at h
  obtain ⟨-, -, -, -, h⟩ := h
  split at h
  · next existing hexisting =>
      simp only [bind_eq_ok_iff, refuseIf_eq_ok_iff, not_not, Except.ok.injEq] at h
      obtain ⟨-, ⟨-, hstatus, -⟩, rfl⟩ := h
      obtain ⟨hid, hrevision⟩ := Prod.ext_iff.mp (Table.key_of_find hexisting)
      refine ⟨rfl, ⟨[], by simp⟩, ?_, id⟩
      intro o ho
      rw [List.mem_singleton.mp ho]
      exact ⟨existing, Table.mem_of_find hexisting, hid, hrevision, hstatus⟩
  · obtain ⟨rfl, hfresh⟩ := insertOutcome_eq_ok h
    refine ⟨rfl, ⟨[outcomeRow outcome], rfl, by simp⟩, ?_, fun hnodup => ?_⟩
    · intro o ho
      rw [List.mem_singleton.mp ho]
      exact ⟨outcomeRow outcome, by simp, rfl, rfl, rfl⟩
    · rw [List.map_append, List.nodup_append]
      refine ⟨hnodup, List.nodup_singleton _, ?_⟩
      rintro key hkey _ hother rfl
      rw [List.mem_singleton.mp hother] at hkey
      exact hfresh hkey

theorem Appends.trans {s s' s'' : OutcomeStore F} {outcomes outcomes' : List ShadowOutcome}
    (h : Appends s outcomes s') (h' : Appends s' outcomes' s'') :
    Appends s (outcomes ++ outcomes') s'' := by
  obtain ⟨rows, hrows, hadded⟩ := h.added
  obtain ⟨rows', hrows', hadded'⟩ := h'.added
  refine ⟨h'.store.trans h.store, ⟨rows ++ rows', by rw [hrows', hrows, List.append_assoc], ?_⟩, ?_,
    fun hnodup => h'.unique (h.unique hnodup)⟩
  · intro row hrow
    rcases List.mem_append.mp hrow with hrow | hrow
    · obtain ⟨outcome, houtcome, heq⟩ := hadded row hrow
      exact ⟨outcome, List.mem_append_left _ houtcome, heq⟩
    · obtain ⟨outcome, houtcome, heq⟩ := hadded' row hrow
      exact ⟨outcome, List.mem_append_right _ houtcome, heq⟩
  · intro outcome houtcome
    rcases List.mem_append.mp houtcome with houtcome | houtcome
    · obtain ⟨row, hrow, heq⟩ := h.stored outcome houtcome
      exact ⟨row, by rw [hrows']; exact List.mem_append_left _ hrow, heq⟩
    · exact h'.stored outcome houtcome

/-- A run of accepted calls. -/
theorem appends_of_appendAll {s s' : OutcomeStore F} {outcomes : List ShadowOutcome}
    (h : s.appendAll outcomes = .ok s') : Appends s outcomes s' := by
  induction outcomes generalizing s with
  | nil =>
      cases h
      exact ⟨rfl, ⟨[], by simp⟩, by simp, id⟩
  | cons outcome outcomes ih =>
      rw [appendAll, List.foldlM_cons] at h
      obtain ⟨next, hnext, hrest⟩ := bind_eq_ok_iff.mp h
      exact (appends_of_appendOutcome hnext).trans (ih hrest)

theorem Appends.campaignOf {s s' : OutcomeStore F} {outcomes : List ShadowOutcome}
    (h : Appends s outcomes s') (row : OutcomeRow) : s'.campaignOf row = s.campaignOf row := by
  rw [OutcomeStore.campaignOf, OutcomeStore.campaignOf, h.store]

end OutcomeStore

end Appends

/-! ## Selected rows -/

section Selected

variable {F : Type} [PyFloat F]

/-- The least observed revision of a forecast among rows, with its label. -/
structure Eligible (rows : List OutcomeRow) (forecastId : String) (revision : ℕ)
    (label : String) : Prop where
  present : ∃ row ∈ rows, row.forecastId = forecastId ∧ row.status = .observed ∧
    row.revision = revision ∧ row.realizedLabel = label
  least : ∀ row ∈ rows, row.forecastId = forecastId → row.status = .observed →
    revision ≤ row.revision

/-- The number of outcomes of a campaign that come before a revision. -/
def OutcomeStore.before (s : OutcomeStore F) (campaign forecastId : String) (revision : ℕ) : ℕ :=
  s.outcomes.countP fun row => s.campaignOf row = some campaign ∧
    toLex row.key < toLex (forecastId, revision)

theorem OutcomeStore.mem_selected_iff {s : OutcomeStore F} {campaign : String}
    (hnodup : (s.outcomes.map OutcomeRow.key).Nodup) {row : OutcomeRow} :
    row ∈ s.selected campaign ↔ row ∈ s.outcomes ∧ s.campaignOf row = some campaign ∧
      s.before campaign row.forecastId row.revision < maxQueryRows := by
  have hlex : (s.outcomes.map fun row => toLex row.key).Nodup := by
    have hmap := hnodup.map toLex.injective
    rwa [List.map_map] at hmap
  have hfilter : ((s.outcomes.filter fun row => decide (s.campaignOf row = some campaign)).map
      fun row => toLex row.key).Nodup :=
    hlex.sublist (List.filter_sublist.map _)
  have hcount : (s.outcomes.countP fun other => decide (toLex other.key < toLex row.key) &&
      decide (s.campaignOf other = some campaign)) =
        s.before campaign row.forecastId row.revision := by
    rw [OutcomeStore.before]
    congr 1
    funext other
    rw [Bool.decide_and, Bool.and_comm]
    rfl
  rw [OutcomeStore.selected, mem_take_sortedBy_iff hfilter, List.mem_filter, decide_eq_true_eq,
    and_assoc, List.countP_filter, hcount]

theorem OutcomeStore.before_le (s : OutcomeStore F) (campaign forecastId : String)
    {revision revision' : ℕ} (h : revision < revision') :
    s.before campaign forecastId revision ≤ s.before campaign forecastId revision' := by
  apply List.countP_mono_left
  intro row _ hrow
  simp only [decide_eq_true_eq] at hrow ⊢
  refine ⟨hrow.1, hrow.2.trans ?_⟩
  rw [Prod.Lex.toLex_lt_toLex]
  exact .inr ⟨rfl, h⟩

/-- The earlier revisions of a selected outcome are selected. -/
theorem OutcomeStore.mem_selected_of_lt {s : OutcomeStore F} {campaign : String}
    (hnodup : (s.outcomes.map OutcomeRow.key).Nodup) {row other : OutcomeRow}
    (hrow : row ∈ s.selected campaign) (hother : other ∈ s.outcomes)
    (hid : other.forecastId = row.forecastId) (hlt : other.revision < row.revision) :
    other ∈ s.selected campaign := by
  obtain ⟨-, hcampaign, hbefore⟩ := (mem_selected_iff hnodup).mp hrow
  rw [mem_selected_iff hnodup, hid]
  refine ⟨hother, ?_, (s.before_le campaign row.forecastId hlt).trans_lt hbefore⟩
  rwa [campaignOf, hid]

end Selected

/-! ## Histories -/

section Histories

variable {F : Type} [PyFloat F] [PyRuntime] [InstantForms]

/-- What a report reads of an outcome, and of a row. -/
def ShadowOutcome.entry (outcome : ShadowOutcome) : ℕ × String × OutcomeStatus :=
  (outcome.revision, outcome.realizedLabel, outcome.status)

def OutcomeRow.entry (row : OutcomeRow) : ℕ × String × OutcomeStatus :=
  (row.revision, row.realizedLabel, row.status)

theorem entry_of_decodeOutcome {row : OutcomeRow} {outcome : ShadowOutcome}
    (h : decodeOutcome row = .ok outcome) : outcome.entry = row.entry := by
  simp only [decodeOutcome, bind_eq_ok_iff, Except.ok.injEq] at h
  obtain ⟨-, -, -, -, -, -, -, -, -, -, rfl⟩ := h
  rfl

/-- The history of a forecast is what its rows hold. -/
theorem entries_of_group {rows : List OutcomeRow}
    {grouped result : OrderedDict String (List ShadowOutcome)}
    (h : rows.foldlM (fun grouped row => do
      let outcome ← decodeOutcome row
      Except.ok (grouped.set row.forecastId (grouped.getD row.forecastId [] ++ [outcome]))) grouped =
        .ok result) (forecastId : String) :
    (result.getD forecastId []).map ShadowOutcome.entry =
      (grouped.getD forecastId []).map ShadowOutcome.entry ++
        (rows.filter fun row => row.forecastId = forecastId).map OutcomeRow.entry := by
  induction rows generalizing grouped with
  | nil =>
      cases h
      simp
  | cons row rows ih =>
      rw [List.foldlM_cons] at h
      obtain ⟨next, hnext, hrest⟩ := bind_eq_ok_iff.mp h
      obtain ⟨outcome, houtcome, hset⟩ := bind_eq_ok_iff.mp hnext
      cases hset
      rw [ih hrest]
      by_cases hid : row.forecastId = forecastId
      · subst hid
        simp [OrderedDict.getD, entry_of_decodeOutcome houtcome]
      · have hne : forecastId ≠ row.forecastId := Ne.symm hid
        simp [OrderedDict.getD, OrderedDict.get?_set_of_ne _ _ hne, hid]

theorem OutcomeStore.entries_of_loadOutcomes {s : OutcomeStore F} {campaign : String}
    {outcomes : OrderedDict String (List ShadowOutcome)}
    (h : s.loadOutcomes campaign = .ok outcomes) (forecastId : String) :
    (outcomes.getD forecastId []).map ShadowOutcome.entry =
      ((s.selected campaign).filter fun row => row.forecastId = forecastId).map
        OutcomeRow.entry := by
  simp only [loadOutcomes, bind_eq_ok_iff] at h
  obtain ⟨-, -, h⟩ := h
  rw [entries_of_group h]
  rfl

omit [PyRuntime] [InstantForms] in
/-- The first-eligible revision is a least observed one. -/
theorem of_selectRevision {history : List ShadowOutcome} {chosen : ShadowOutcome}
    (h : selectRevision history .firstEligible = some chosen) :
    chosen ∈ history ∧ chosen.status = .observed ∧
      ∀ other ∈ history, other.status = .observed → chosen.revision ≤ other.revision := by
  simp only [selectRevision] at h
  obtain ⟨rest, hsorted⟩ := List.head?_eq_some_iff.mp h
  have hmem : ∀ other, other ∈ chosen :: rest ↔
      other ∈ history ∧ other.status = .observed := by
    intro other
    rw [← hsorted, mem_sortedBy, List.mem_filter, decide_eq_true_eq]
  have hpairwise := pairwise_sortedBy ShadowOutcome.revision
    (history.filter fun item => item.status = .observed)
  rw [hsorted] at hpairwise
  obtain ⟨hchosen, hobserved⟩ := (hmem chosen).mp List.mem_cons_self
  refine ⟨hchosen, hobserved, fun other hother hstatus => ?_⟩
  rcases List.mem_cons.mp ((hmem other).mpr ⟨hother, hstatus⟩) with rfl | hrest
  · exact le_rfl
  · exact (List.pairwise_cons.mp hpairwise).1 other hrest

omit [PyRuntime] [InstantForms] in
theorem exists_selectRevision {history : List ShadowOutcome} {outcome : ShadowOutcome}
    (h : outcome ∈ history) (hobserved : outcome.status = .observed) :
    ∃ chosen, selectRevision history .firstEligible = some chosen := by
  have hmem : outcome ∈ sortedBy ShadowOutcome.revision
      (history.filter fun item => item.status = .observed) := by
    rw [mem_sortedBy, List.mem_filter]
    exact ⟨h, by simpa using hobserved⟩
  rw [selectRevision]
  exact ⟨_, List.head?_eq_some_head (List.ne_nil_of_mem hmem)⟩

/-- A forecast has a first-eligible revision exactly when its rows have one. -/
theorem selectRevision_iff_eligible {s : OutcomeStore F} {campaign : String}
    {outcomes : OrderedDict String (List ShadowOutcome)}
    (hnodup : (s.outcomes.map OutcomeRow.key).Nodup)
    (h : s.loadOutcomes campaign = .ok outcomes) {forecastId : String} {revision : ℕ}
    {label : String} :
    (∃ chosen, selectRevision (outcomes.getD forecastId []) .firstEligible = some chosen ∧
      chosen.revision = revision ∧ chosen.realizedLabel = label) ↔
      Eligible (s.selected campaign) forecastId revision label := by
  have hentries := OutcomeStore.entries_of_loadOutcomes h forecastId
  have hrow : ∀ outcome ∈ outcomes.getD forecastId [], ∃ row ∈ s.selected campaign,
      row.forecastId = forecastId ∧ row.entry = outcome.entry := by
    intro outcome houtcome
    have hmem := List.mem_map_of_mem (f := ShadowOutcome.entry) houtcome
    rw [hentries, List.mem_map] at hmem
    obtain ⟨row, hrow, hentry⟩ := hmem
    rw [List.mem_filter, decide_eq_true_eq] at hrow
    exact ⟨row, hrow.1, hrow.2, hentry⟩
  have houtcome : ∀ row ∈ s.selected campaign, row.forecastId = forecastId →
      ∃ outcome ∈ outcomes.getD forecastId [], outcome.entry = row.entry := by
    intro row hrow hid
    have hmem : row.entry ∈ ((s.selected campaign).filter fun row =>
        row.forecastId = forecastId).map OutcomeRow.entry :=
      List.mem_map_of_mem (List.mem_filter.mpr ⟨hrow, by simpa using hid⟩)
    rw [← hentries, List.mem_map] at hmem
    exact hmem
  constructor
  · rintro ⟨chosen, hchosen, rfl, rfl⟩
    obtain ⟨hmem, hobserved, hleast⟩ := of_selectRevision hchosen
    obtain ⟨row, hrowMem, hid, hentry⟩ := hrow chosen hmem
    simp only [OutcomeRow.entry, ShadowOutcome.entry, Prod.mk.injEq] at hentry
    obtain ⟨hrevision, hlabel, hstatus⟩ := hentry
    refine ⟨⟨row, hrowMem, hid, hstatus.trans hobserved, hrevision, hlabel⟩, ?_⟩
    intro other hother hotherId hotherStatus
    obtain ⟨outcome, hout, hentry⟩ := houtcome other hother hotherId
    simp only [OutcomeRow.entry, ShadowOutcome.entry, Prod.mk.injEq] at hentry
    rw [← hentry.1]
    exact hleast outcome hout (hentry.2.2.trans hotherStatus)
  · rintro ⟨⟨row, hrowMem, hid, hstatus, rfl, rfl⟩, hleast⟩
    obtain ⟨outcome, hout, hentry⟩ := houtcome row hrowMem hid
    simp only [OutcomeRow.entry, ShadowOutcome.entry, Prod.mk.injEq] at hentry
    obtain ⟨chosen, hchosen⟩ := exists_selectRevision hout (hentry.2.2.trans hstatus)
    obtain ⟨hmem, hobserved, hchosenLeast⟩ := of_selectRevision hchosen
    obtain ⟨row', hrowMem', hid', hentry'⟩ := hrow chosen hmem
    simp only [OutcomeRow.entry, ShadowOutcome.entry, Prod.mk.injEq] at hentry'
    have hle := hchosenLeast outcome hout (hentry.2.2.trans hstatus)
    have hge := hleast row' hrowMem' hid' (hentry'.2.2.trans hobserved)
    have hrevision : row'.revision = row.revision := by omega
    -- one key, one row
    have hsame : row' = row := Table.eq_of_key_eq hnodup
      ((OutcomeStore.mem_selected_iff hnodup).mp hrowMem').1
      ((OutcomeStore.mem_selected_iff hnodup).mp hrowMem).1
      (by rw [OutcomeRow.key, OutcomeRow.key, hid', hid, hrevision])
    subst hsame
    exact ⟨chosen, hchosen, hentry'.1.symm, hentry'.2.1.symm⟩

end Histories

/-! ## Scores -/

section Scores

variable [PyRuntime] {F : Type} [PyFloat F] [FloatMath F]

omit [PyRuntime] [FloatMath F] [PyFloat F] in
/-- A forecast is scored against a revision, on its label. -/
def Scoring.Scores (state : Scoring F) (forecastId : String) (revision : ℕ) (label : String) :
    Prop :=
  (∃ item ∈ state.scored, item.forecastId = forecastId ∧ item.revision = revision) ∧
    state.realised.get? forecastId = some label

/-- The state of the loop after some forecasts: each is scored as the basis
selects, and no other forecast is. -/
structure Scored (outcomes : OrderedDict String (List ShadowOutcome)) (basis : ReportBasis)
    (processed : List String) (state : Scoring F) : Prop where
  scored : ∀ item ∈ state.scored, item.forecastId ∈ processed
  realised : ∀ forecastId ∈ state.realised.keys, forecastId ∈ processed
  exact : ∀ forecastId ∈ processed, ∀ revision label,
    state.Scores forecastId revision label ↔
      ∃ chosen, selectRevision (outcomes.getD forecastId []) basis = some chosen ∧
        chosen.revision = revision ∧ chosen.realizedLabel = label

variable {outcomes : OrderedDict String (List ShadowOutcome)} {basis : ReportBasis}
  {state state' : Scoring F}

omit [PyRuntime] [PyFloat F] [FloatMath F] in
theorem Scored.start : Scored outcomes basis [] ({} : Scoring F) where
  scored _ h := absurd h List.not_mem_nil
  realised _ h := absurd h List.not_mem_nil
  exact _ h := absurd h List.not_mem_nil

/-- What one forecast adds to the scores. -/
theorem scoreForecast_eq_ok {item : String × ShadowForecast F}
    (h : scoreForecast outcomes basis state item = .ok state') :
    (selectRevision (outcomes.getD item.1 []) basis = none ∧ state'.scored = state.scored ∧
      state'.realised = state.realised) ∨
    ∃ chosen score, selectRevision (outcomes.getD item.1 []) basis = some chosen ∧
      state'.scored = state.scored ++ [score] ∧ score.forecastId = item.1 ∧
      score.revision = chosen.revision ∧
      state'.realised = state.realised.set item.1 chosen.realizedLabel := by
  simp only [scoreForecast] at h
  cases hselect : selectRevision (outcomes.getD item.1 []) basis with
  | none =>
      simp only [hselect] at h
      split at h
      all_goals
        cases h
        exact .inl ⟨rfl, rfl, rfl⟩
  | some chosen =>
      simp only [hselect, bind_eq_ok_iff, Except.ok.injEq] at h
      obtain ⟨-, -, brier, -, logLoss, -, rfl⟩ := h
      exact .inr ⟨chosen, _, rfl, rfl, rfl, rfl, rfl⟩

theorem Scored.step {processed : List String} {item : String × ShadowForecast F}
    (hinv : Scored outcomes basis processed state) (hfresh : item.1 ∉ processed)
    (h : scoreForecast outcomes basis state item = .ok state') :
    Scored outcomes basis (processed ++ [item.1]) state' := by
  have hnone : ∀ old ∈ state.scored, old.forecastId ≠ item.1 := fun old hold heq =>
    hfresh (heq ▸ hinv.scored old hold)
  rcases scoreForecast_eq_ok h with ⟨hselect, hscored, hrealised⟩ |
    ⟨chosen, score, hselect, hscored, hid, hrevision, hrealised⟩
  · refine ⟨?_, ?_, ?_⟩
    · rw [hscored]
      exact fun old hold => List.mem_append_left _ (hinv.scored old hold)
    · rw [hrealised]
      exact fun old hold => List.mem_append_left _ (hinv.realised old hold)
    · intro forecastId hmem revision label
      rw [Scoring.Scores, hscored, hrealised]
      rcases List.mem_append.mp hmem with hmem | hmem
      · exact hinv.exact forecastId hmem revision label
      · rw [List.mem_singleton.mp hmem, hselect]
        constructor
        · rintro ⟨⟨old, hold, heq, -⟩, -⟩
          exact absurd heq (hnone old hold)
        · rintro ⟨_, ⟨⟩, -⟩
  · refine ⟨?_, ?_, ?_⟩
    · intro old hold
      rw [hscored] at hold
      rcases List.mem_append.mp hold with hold | hold
      · exact List.mem_append_left _ (hinv.scored old hold)
      · rw [List.mem_singleton.mp hold, hid]
        exact List.mem_append_right _ (List.mem_singleton.mpr rfl)
    · intro forecastId hmem
      rw [hrealised, OrderedDict.mem_keys_set] at hmem
      rcases hmem with rfl | hmem
      · exact List.mem_append_right _ (List.mem_singleton.mpr rfl)
      · exact List.mem_append_left _ (hinv.realised forecastId hmem)
    · intro forecastId hmem revision label
      rw [Scoring.Scores, hscored, hrealised]
      by_cases hsame : forecastId = item.1
      · subst hsame
        rw [OrderedDict.get?_set_self, hselect]
        constructor
        · rintro ⟨⟨old, hold, heq, rfl⟩, hlabel⟩
          rcases List.mem_append.mp hold with hold | hold
          · exact absurd heq (hnone old hold)
          · rw [List.mem_singleton.mp hold]
            exact ⟨chosen, rfl, hrevision.symm, Option.some.inj hlabel⟩
        · rintro ⟨_, ⟨⟩, rfl, rfl⟩
          exact ⟨⟨score, by simp, hid, hrevision⟩, rfl⟩
      · rw [OrderedDict.get?_set_of_ne _ _ hsame]
        have hprocessed : forecastId ∈ processed := by
          rcases List.mem_append.mp hmem with hmem | hmem
          · exact hmem
          · exact absurd (List.mem_singleton.mp hmem) hsame
        rw [← hinv.exact forecastId hprocessed revision label, Scoring.Scores]
        have hother : score.forecastId ≠ forecastId := fun heq => hsame (heq ▸ hid)
        simp [or_and_right, exists_or, hother]

theorem Scored.loop {processed : List String} {items : List (String × ShadowForecast F)}
    (hinv : Scored outcomes basis processed state)
    (hnodup : (processed ++ items.map Prod.fst).Nodup)
    (h : items.foldlM (scoreForecast outcomes basis) state = .ok state') :
    Scored outcomes basis (processed ++ items.map Prod.fst) state' := by
  induction items generalizing state processed with
  | nil =>
      cases h
      simpa using hinv
  | cons item items ih =>
      rw [List.foldlM_cons] at h
      obtain ⟨next, hnext, hrest⟩ := bind_eq_ok_iff.mp h
      have hfresh : item.1 ∉ processed := fun hmem =>
        (List.nodup_append.mp hnodup).2.2 _ hmem _ List.mem_cons_self rfl
      have hcons : processed ++ (item :: items).map Prod.fst =
          processed ++ [item.1] ++ items.map Prod.fst := by simp
      rw [hcons] at hnodup ⊢
      exact ih (hinv.step hfresh hnext) hnodup hrest

variable [FloatText F]

/-- A report scores what its basis selects. -/
theorem scores_of_buildReport {campaign : String} {forecasts : List (ShadowForecast F)}
    {report : CampaignReport F} (h : buildReport campaign forecasts outcomes basis = .ok report)
    {forecastId : String} {revision : ℕ} {label : String} :
    report.Scores forecastId revision label ↔
      ∃ chosen, selectRevision (outcomes.getD forecastId []) basis = some chosen ∧
        chosen.revision = revision ∧ chosen.realizedLabel = label := by
  simp only [buildReport, bind_eq_ok_iff, refuseIf_eq_ok_iff, not_not, Except.ok.injEq] at h
  obtain ⟨-, hunknown, state, hloop, rfl⟩ := h
  have hknown : ∀ id ∈ outcomes.keys, id ∈ (knownForecasts forecasts).keys := by
    intro id hid
    by_contra hnot
    have hmem : id ∈ (outcomes.keys.filter (· ∉ (knownForecasts forecasts).keys)).insertionSort
        (· ≤ ·) := by
      rw [List.mem_insertionSort, List.mem_filter]
      exact ⟨hid, by simpa using hnot⟩
    rw [hunknown] at hmem
    cases hmem
  have hinv : Scored outcomes basis (knownForecasts forecasts).keys state := by
    have hstart : Scored outcomes basis [] ({} : Scoring F) := Scored.start
    have hloop' := hstart.loop (knownForecasts forecasts).nodup_keys hloop
    exact hloop'
  by_cases hid : forecastId ∈ (knownForecasts forecasts).keys
  · exact hinv.exact forecastId hid revision label
  · constructor
    · rintro ⟨⟨item, hitem, rfl, -⟩, -⟩
      exact absurd (hinv.scored item hitem) hid
    · rintro ⟨chosen, hchosen, -⟩
      have hnone : outcomes.get? forecastId = none :=
        OrderedDict.get?_eq_none_iff.mpr fun hmem => hid (hknown forecastId hmem)
      rw [OrderedDict.getD_of_none hnone] at hchosen
      cases basis <;> cases hchosen

end Scores

/-! ## The reports that are produced -/

section Produced

variable [PyRuntime] [InstantForms]

/-- Rows that can all be read are grouped under their forecasts. -/
theorem exists_group {rows : List OutcomeRow} (grouped : OrderedDict String (List ShadowOutcome))
    (h : ∀ row ∈ rows, ∃ outcome, decodeOutcome row = .ok outcome) :
    ∃ result, rows.foldlM (fun grouped row => do
      let outcome ← decodeOutcome row
      Except.ok (grouped.set row.forecastId (grouped.getD row.forecastId [] ++ [outcome]))) grouped =
        .ok result ∧
      (∀ forecastId ∈ result.keys, forecastId ∈ grouped.keys ∨
        ∃ row ∈ rows, row.forecastId = forecastId) ∧
      ∀ forecastId, ∀ outcome ∈ result.getD forecastId [],
        outcome ∈ grouped.getD forecastId [] ∨
          ∃ row ∈ rows, row.forecastId = forecastId ∧ decodeOutcome row = .ok outcome := by
  induction rows generalizing grouped with
  | nil => exact ⟨grouped, rfl, fun _ h => .inl h, fun _ _ h => .inl h⟩
  | cons row rows ih =>
      obtain ⟨outcome, houtcome⟩ := h row List.mem_cons_self
      obtain ⟨result, hresult, hkeys, hhistories⟩ :=
        ih (grouped.set row.forecastId (grouped.getD row.forecastId [] ++ [outcome]))
          fun other hother => h other (List.mem_cons_of_mem row hother)
      refine ⟨result, by rw [List.foldlM_cons, houtcome]; exact hresult, ?_, ?_⟩
      · intro forecastId hmem
        rcases hkeys forecastId hmem with hmem | ⟨other, hother, hid⟩
        · rcases OrderedDict.mem_keys_set.mp hmem with rfl | hmem
          · exact .inr ⟨row, List.mem_cons_self, rfl⟩
          · exact .inl hmem
        · exact .inr ⟨other, List.mem_cons_of_mem row hother, hid⟩
      · intro forecastId other hother
        rcases hhistories forecastId other hother with hmem | ⟨found, hfound, hid⟩
        · by_cases hsame : forecastId = row.forecastId
          · subst hsame
            rw [OrderedDict.getD, OrderedDict.get?_set_self, Option.getD_some,
              List.mem_append, List.mem_singleton] at hmem
            rcases hmem with hmem | rfl
            · exact .inl hmem
            · exact .inr ⟨row, List.mem_cons_self, rfl, houtcome⟩
          · rw [OrderedDict.getD, OrderedDict.get?_set_of_ne _ _ hsame] at hmem
            exact .inl hmem
        · exact .inr ⟨found, List.mem_cons_of_mem row hfound, hid⟩

variable {F : Type} [PyFloat F] [FloatText F]

omit [InstantForms] in
theorem foldl_known_spec (known : OrderedDict String (ShadowForecast F))
    (forecasts : List (ShadowForecast F)) :
    let result := forecasts.foldl (fun known item => known.set item.forecastId item) known
    (∀ item ∈ result.items,
      item ∈ known.items ∨ (item.2 ∈ forecasts ∧ item.2.forecastId = item.1)) ∧
    ∀ forecastId, forecastId ∈ known.keys ∨ forecastId ∈ forecasts.map ShadowForecast.forecastId →
      forecastId ∈ result.keys := by
  induction forecasts generalizing known with
  | nil => exact ⟨fun _ h => .inl h, fun _ h => h.resolve_right nofun⟩
  | cons forecast forecasts ih =>
      obtain ⟨hitems, hkeys⟩ := ih (known.set forecast.forecastId forecast)
      refine ⟨fun item hitem => ?_, fun forecastId hmem => hkeys forecastId ?_⟩
      · rcases hitems item hitem with hitem | ⟨hmem, hid⟩
        · rcases OrderedDict.mem_items_set.mp hitem with rfl | ⟨hitem, -⟩
          · exact .inr ⟨List.mem_cons_self, rfl⟩
          · exact .inl hitem
        · exact .inr ⟨List.mem_cons_of_mem forecast hmem, hid⟩
      · rw [OrderedDict.mem_keys_set]
        rw [List.map_cons, List.mem_cons] at hmem
        tauto

omit [PyRuntime] [InstantForms] in
theorem mem_of_selectRevision {history : List ShadowOutcome} {basis : ReportBasis}
    {chosen : ShadowOutcome} (h : selectRevision history basis = some chosen) :
    chosen ∈ history := by
  have hmem : chosen ∈ sortedBy ShadowOutcome.revision
      (history.filter fun item => item.status = .observed) := by
    cases basis with
    | firstEligible => exact List.mem_of_head? h
    | latestKnown => exact List.mem_of_getLast? h
  exact (List.mem_filter.mp (mem_sortedBy.mp hmem)).1

variable [FloatMath F]

omit [InstantForms] [FloatText F] in
theorem exists_scoreForecast {outcomes : OrderedDict String (List ShadowOutcome)}
    {basis : ReportBasis} {item : String × ShadowForecast F} (state : Scoring F)
    (h : ∀ chosen ∈ outcomes.getD item.1 [], item.2.asOf.before chosen.observedAt = true ∧
      chosen.realizedLabel ∈ item.2.distribution.labels) :
    ∃ result, scoreForecast outcomes basis state item = .ok result := by
  simp only [scoreForecast]
  cases hselect : selectRevision (outcomes.getD item.1 []) basis with
  | none =>
      dsimp only
      split
      · exact ⟨_, rfl⟩
      · exact ⟨_, rfl⟩
  | some chosen =>
      obtain ⟨hlater, hclass⟩ := h chosen (mem_of_selectRevision hselect)
      obtain ⟨brier, hbrier⟩ := exists_brierScore_eq_ok_iff.mpr hclass
      obtain ⟨logLoss, hlogLoss⟩ := exists_logScore_eq_ok hclass
      have hprecedes : item.2.assertPrecedes chosen.observedAt = .ok () :=
        assertPrecedes_eq_ok_iff.mpr hlater
      exact ⟨_, by simp only [hprecedes, hbrier, hlogLoss, ok_bind]; rfl⟩

omit [InstantForms] [FloatText F] in
/-- The loop ends when every selected revision answers its forecast. -/
theorem exists_scoring {outcomes : OrderedDict String (List ShadowOutcome)} {basis : ReportBasis}
    {items : List (String × ShadowForecast F)} (state : Scoring F)
    (h : ∀ item ∈ items, ∀ chosen ∈ outcomes.getD item.1 [],
      item.2.asOf.before chosen.observedAt = true ∧
        chosen.realizedLabel ∈ item.2.distribution.labels) :
    ∃ result, items.foldlM (scoreForecast outcomes basis) state = .ok result := by
  induction items generalizing state with
  | nil => exact ⟨state, rfl⟩
  | cons item items ih =>
      obtain ⟨next, hnext⟩ : ∃ next, scoreForecast outcomes basis state item = .ok next :=
        exists_scoreForecast state (h item List.mem_cons_self)
      obtain ⟨result, hresult⟩ := ih next fun other hother =>
        h other (List.mem_cons_of_mem item hother)
      exact ⟨result, by rw [List.foldlM_cons, hnext]; exact hresult⟩

/-- A report is produced of rows that can be read and answer the forecasts of the
campaign. -/
theorem OutcomeStore.exists_report {s : OutcomeStore F} {campaign : String}
    {forecasts : List (ShadowForecast F)} (basis : ReportBasis)
    (hload : s.loadForecasts campaign = .ok forecasts)
    (hrows : ∀ row ∈ s.selected campaign, (∃ outcome, decodeOutcome row = .ok outcome) ∧
      row.forecastId ∈ forecasts.map ShadowForecast.forecastId)
    (hanswers : ∀ row ∈ s.selected campaign, ∀ outcome, decodeOutcome row = .ok outcome →
      ∀ forecast ∈ forecasts, forecast.forecastId = row.forecastId →
        forecast.asOf.before outcome.observedAt = true ∧
          outcome.realizedLabel ∈ forecast.distribution.labels) :
    ∃ report, s.report campaign basis = .ok report := by
  have hname : isCampaignName campaign = true := by
    simp only [loadForecasts, bind_eq_ok_iff] at hload
    obtain ⟨⟨hname⟩, -, -⟩ := hload
    exact hname
  obtain ⟨outcomes, hgroup, hkeys, hhistories⟩ :=
    exists_group OrderedDict.empty fun row hrow => (hrows row hrow).1
  have houtcomes : s.loadOutcomes campaign = .ok outcomes := by
    rw [loadOutcomes, validateCampaignName, require_of hname]
    exact hgroup
  obtain ⟨hitems, hknown⟩ := foldl_known_spec OrderedDict.empty forecasts
  have hunknown : (outcomes.keys.filter (· ∉ (knownForecasts forecasts).keys)).insertionSort
      (· ≤ ·) = [] := by
    have hfilter : outcomes.keys.filter (· ∉ (knownForecasts forecasts).keys) = [] := by
      rw [List.filter_eq_nil_iff]
      intro forecastId hmem
      rcases hkeys forecastId hmem with hempty | ⟨row, hrow, rfl⟩
      · cases hempty
      · have hmem : row.forecastId ∈ (knownForecasts forecasts).keys :=
          hknown row.forecastId (.inr (hrows row hrow).2)
        simpa using hmem
    rw [hfilter]
    rfl
  obtain ⟨state, hstate⟩ : ∃ state,
      (knownForecasts forecasts).items.foldlM (scoreForecast outcomes basis) {} = .ok state := by
    refine exists_scoring {} ?_
    intro item hitem chosen hchosen
    rcases hitems item hitem with hempty | ⟨hforecast, hid⟩
    · cases hempty
    · rcases hhistories item.1 chosen hchosen with hempty | ⟨row, hrow, hrowId, hdecode⟩
      · cases hempty
      · exact hanswers row hrow chosen hdecode item.2 hforecast (hid.trans hrowId.symm)
  simp only [report, hload, houtcomes, ok_bind, buildReport, hunknown, hstate, ne_eq,
    not_true_eq_false, not_false_eq_true, refuseIf_of_not]
  exact ⟨_, rfl⟩

end Produced

/-! ## Later reports -/

section Later

variable [PyRuntime] [InstantForms] {F : Type} [PyFloat F] [FloatText F] [FloatMath F]

/-- A first-eligible report scores the least observed revision of the rows that are
selected. -/
theorem OutcomeStore.scores_iff_eligible {s : OutcomeStore F} {campaign : String}
    {report : CampaignReport F} (hnodup : (s.outcomes.map OutcomeRow.key).Nodup)
    (h : s.report campaign .firstEligible = .ok report) {forecastId : String} {revision : ℕ}
    {label : String} :
    report.Scores forecastId revision label ↔
      Eligible (s.selected campaign) forecastId revision label := by
  simp only [OutcomeStore.report, bind_eq_ok_iff] at h
  obtain ⟨forecasts, -, outcomes, houtcomes, hreport⟩ := h
  rw [scores_of_buildReport hreport, selectRevision_iff_eligible hnodup houtcomes]

/-- A score is kept by the outcomes appended later exactly when none of them is an
observed revision of the forecast with a smaller number, and the outcomes that come
before it in the query are within its limit. -/
theorem first_eligible_kept_iff {store : Store F} {s s' : OutcomeStore F}
    {prior later : List ShadowOutcome} {campaign : String} {first second : CampaignReport F}
    {forecastId : String} {revision : ℕ} {label : String}
    (hprior : (OutcomeStore.opened store).appendAll prior = .ok s)
    (hlater : s.appendAll later = .ok s')
    (hfirst : s.report campaign .firstEligible = .ok first)
    (hsecond : s'.report campaign .firstEligible = .ok second)
    (hscored : first.Scores forecastId revision label) :
    second.Scores forecastId revision label ↔
      (∀ outcome ∈ later, outcome.forecastId = forecastId → outcome.status = .observed →
        revision ≤ outcome.revision) ∧
      s'.before campaign forecastId revision < maxQueryRows := by
  have happends := OutcomeStore.appends_of_appendAll hlater
  have hnodup : (s.outcomes.map OutcomeRow.key).Nodup :=
    (OutcomeStore.appends_of_appendAll hprior).unique List.nodup_nil
  have hnodup' := happends.unique hnodup
  rw [OutcomeStore.scores_iff_eligible hnodup hfirst] at hscored
  rw [OutcomeStore.scores_iff_eligible hnodup' hsecond]
  obtain ⟨⟨row, hrow, hid, hstatus, rfl, rfl⟩, hleast⟩ := hscored
  obtain ⟨hrowStored, hrowCampaign, hrowBefore⟩ := (OutcomeStore.mem_selected_iff hnodup).mp hrow
  obtain ⟨rows, hrows, hadded⟩ := happends.added
  have hrow' : row ∈ s'.outcomes := by
    rw [hrows]
    exact List.mem_append_left _ hrowStored
  have hrowCampaign' : s'.campaignOf row = some campaign := by rwa [happends.campaignOf]
  subst hid
  constructor
  · rintro ⟨⟨again, hagain, hagainId, -, hagainRevision, -⟩, hleast'⟩
    have hlimit := ((OutcomeStore.mem_selected_iff hnodup').mp hagain).2.2
    rw [hagainId, hagainRevision] at hlimit
    refine ⟨fun outcome houtcome houtcomeId hobserved => ?_, hlimit⟩
    obtain ⟨other, hother, hotherId, hotherRevision, hotherStatus⟩ :=
      happends.stored outcome houtcome
    by_contra hlt
    -- the stored revision is selected with the one that is scored, and less
    have hselected : other ∈ s'.selected campaign :=
      OutcomeStore.mem_selected_of_lt hnodup' hagain hother
        (hotherId.trans (houtcomeId.trans hagainId.symm)) (by omega)
    have hle := hleast' other hselected (hotherId.trans houtcomeId) (hotherStatus.trans hobserved)
    omega
  · rintro ⟨hnew, hlimit⟩
    refine ⟨⟨row, (OutcomeStore.mem_selected_iff hnodup').mpr ⟨hrow', hrowCampaign', hlimit⟩, rfl,
      hstatus, rfl, rfl⟩, fun other hother hotherId hotherStatus => ?_⟩
    have hstored := ((OutcomeStore.mem_selected_iff hnodup').mp hother).1
    rw [hrows] at hstored
    rcases List.mem_append.mp hstored with hold | hadd
    · by_contra hlt
      have hselected : other ∈ s.selected campaign :=
        OutcomeStore.mem_selected_of_lt hnodup hrow hold hotherId (by omega)
      exact hlt (hleast other hselected hotherId hotherStatus)
    · obtain ⟨outcome, houtcome, rfl⟩ := hadded other hadd
      exact hnew outcome houtcome hotherId hotherStatus

end Later

/-! ## An early revision that is recorded late -/

section Counterexample

open Platform

def evenOdds : ProbabilityVector ℚ where
  labels := ["down", "up"]
  probabilities := [1 / 2, 1 / 2]
  classes := by decide
  named := by decide
  unique := by decide
  paired := rfl
  bounded := by simp [PyFloat.lt, PyFloat.isFinite, PyFloat.zero, PyFloat.ofNat]; norm_num
  summed := by
    rintro total ⟨⟩
    simp [PyFloat.lt, probabilitySumTolerance]
    norm_num

def closeOfDay (day : ℕ) : Instant := ⟨.date 2026 1 day, 21, 0, 0, 0⟩

/-- A question about one symbol at the close of one day. -/
def question (horizonDays : ℕ) (h : 1 ≤ horizonDays ∧ horizonDays ≤ 365) : ShadowForecast ℚ where
  campaign := "momentum"
  symbol := "AAPL"
  asOf := closeOfDay 5
  targetInstant := closeOfDay 12
  horizonDays := horizonDays
  distribution := evenOdds
  featurePrefixDigest := String.ofList (List.replicate 64 'a')
  modelIdentity := String.ofList (List.replicate 64 'b')
  campaign_name := by decide
  symbol_name := by decide
  chronology := by decide
  horizon := h
  digests := by decide

def daily : ShadowForecast ℚ := question 1 (by decide)

/-- A stored text that is not canonical is refused. -/
instance canonicalTexts : InstantForms where
  read _ := .error "unconverted data remains"

theorem length_forecastId (forecast : ShadowForecast ℚ) :
    forecast.forecastId.toList.length = 64 := by
  rw [ShadowForecast.forecastId, canonicalDigest, PyText.length_hexText, PyRuntime.sha256_length]

/-- An observation of the daily forecast, at the close of a day. -/
def observation (label : String) (revision day : ℕ) (named : PyText.isBlank label = false) : ShadowOutcome where
  forecastId := daily.forecastId
  realizedLabel := label
  observedAt := closeOfDay day
  recordedAt := closeOfDay day
  revision := revision
  status := .observed
  identity := length_forecastId _
  named := named
  chronology := by simp [Instant.before]

theorem isBlank_up : PyText.isBlank "up" = false := by decide

def observed : ShadowOutcome := observation "up" 1 12 isBlank_up

/-- The revision before it, recorded a day later. -/
def recordedLate : ShadowOutcome := observation "down" 0 13 (by decide)

/-- The revision after it, recorded a day later. -/
def corrected : ShadowOutcome := observation "down" 2 13 (by decide)

def sealedStore : Store ℚ where
  forecasts := [forecastRow (String.ofList (List.replicate 64 'd')) daily]

def stored (rows : List OutcomeRow) : OutcomeStore ℚ := { sealedStore with outcomes := rows }

theorem loadForecasts_stored (rows : List OutcomeRow) :
    (stored rows).loadForecasts "momentum" = .ok [daily] := rfl

theorem campaignOf_stored (rows : List OutcomeRow) {row : OutcomeRow}
    (h : row.forecastId = daily.forecastId) :
    (stored rows).campaignOf row = some "momentum" := by
  have hfind : Table.find ForecastRow.forecastId daily.forecastId (stored rows).forecasts =
      some (forecastRow (String.ofList (List.replicate 64 'd')) daily) := by
    simp [Table.find, stored, sealedStore, forecastRow]
  rw [OutcomeStore.campaignOf, h, hfind]
  rfl

/-- An outcome that can be read back and answers the daily forecast. -/
structure Answers (outcome : ShadowOutcome) : Prop where
  forecastId : outcome.forecastId = daily.forecastId
  decodes : decodeOutcome (outcomeRow outcome) = .ok outcome
  later : daily.asOf.before outcome.observedAt = true
  label : outcome.realizedLabel ∈ daily.distribution.labels

theorem decodeOutcome_row {outcome : ShadowOutcome}
    (hobserved : decodeInstant (outcomeRow outcome).observedAt = .ok outcome.observedAt)
    (hrecorded : decodeInstant (outcomeRow outcome).recordedAt = .ok outcome.recordedAt) :
    decodeOutcome (outcomeRow outcome) = .ok outcome := by
  have hidentity : (outcomeRow outcome).forecastId.toList.length = 64 := outcome.identity
  have hnamed : PyText.isBlank (outcomeRow outcome).realizedLabel = false := outcome.named
  rw [decodeOutcome, hobserved, ok_bind, hrecorded, ok_bind, require_of hidentity,
    require_of hnamed, require_of outcome.chronology]
  rfl

theorem answers_observed : Answers observed where
  forecastId := rfl
  decodes := decodeOutcome_row rfl rfl
  later := by decide
  label := by decide

theorem answers_recordedLate : Answers recordedLate where
  forecastId := rfl
  decodes := decodeOutcome_row rfl rfl
  later := by decide
  label := by decide

theorem answers_corrected : Answers corrected where
  forecastId := rfl
  decodes := decodeOutcome_row rfl rfl
  later := by decide
  label := by decide

/-- A new revision is appended. -/
theorem appendOutcome_stored {rows : List OutcomeRow} {outcome : ShadowOutcome}
    (hid : outcome.forecastId = daily.forecastId) (hrevision : outcome.revision < 2 ^ 63)
    (hfresh : ∀ row ∈ rows, row.revision ≠ outcome.revision)
    (hlabel : 1 ≤ sqlLength outcome.realizedLabel ∧ sqlLength outcome.realizedLabel ≤ 64)
    (htexts : isInstantText outcome.observedAt.encoded = true ∧
      isInstantText outcome.recordedAt.encoded = true)
    (horder : ¬ outcome.recordedAt.encoded < outcome.observedAt.encoded) :
    (stored rows).appendOutcome outcome = .ok (stored (rows ++ [outcomeRow outcome])) := by
  have hknown : outcome.forecastId ∈ (stored rows).forecasts.map ForecastRow.forecastId := by
    rw [hid]
    exact List.mem_singleton.mpr rfl
  have hkey : ∀ row ∈ rows, row.key ≠ (outcome.forecastId, outcome.revision) :=
    fun row hrow heq => hfresh row hrow (Prod.ext_iff.mp heq).2
  have hfind : Table.find OutcomeRow.key (outcome.forecastId, outcome.revision)
      (stored rows).outcomes = none := Table.find_eq_none_iff.mpr hkey
  have hnew : (outcomeRow outcome).key ∉ (stored rows).outcomes.map OutcomeRow.key := by
    rintro hmem
    obtain ⟨row, hrow, heq⟩ := List.mem_map.mp hmem
    exact hkey row hrow heq
  have hinsert : (stored rows).insertOutcome (outcomeRow outcome) =
      .ok (stored (rows ++ [outcomeRow outcome])) := by
    have hforecast : (outcomeRow outcome).forecastId ∈
        (stored rows).forecasts.map ForecastRow.forecastId := hknown
    have hlength : 1 ≤ sqlLength (outcomeRow outcome).realizedLabel ∧
        sqlLength (outcomeRow outcome).realizedLabel ≤ 64 := hlabel
    have hnotLess : ¬ (outcomeRow outcome).recordedAt < (outcomeRow outcome).observedAt := horder
    rw [OutcomeStore.insertOutcome, refuseIf_of_not (not_not.mpr hforecast), ok_bind,
      refuseIf_of_not hnew, ok_bind, refuseIf_of_not (not_not.mpr hlength), ok_bind,
      refuseIf_of_not (by simp [outcomeRow, htexts]), ok_bind, refuseIf_of_not hnotLess]
    rfl
  rw [OutcomeStore.appendOutcome, refuseIf_of_not (not_not.mpr hknown), ok_bind,
    refuseIf_of_not (by omega), ok_bind, hfind]
  exact hinsert

section Rows

variable {outcomes : List ShadowOutcome}

theorem mem_selected_stored (h : ∀ outcome ∈ outcomes, Answers outcome)
    (hnodup : (outcomes.map ShadowOutcome.revision).Nodup)
    (hlength : outcomes.length < maxQueryRows) {row : OutcomeRow} :
    row ∈ (stored (outcomes.map outcomeRow)).selected "momentum" ↔
      ∃ outcome ∈ outcomes, outcomeRow outcome = row := by
  have hkeys : ((stored (outcomes.map outcomeRow)).outcomes.map OutcomeRow.key).Nodup := by
    refine List.Nodup.of_map Prod.snd ?_
    simpa [stored, outcomeRow, OutcomeRow.key, Function.comp_def] using hnodup
  have hbefore : (stored (outcomes.map outcomeRow)).before "momentum" row.forecastId
      row.revision < maxQueryRows := by
    refine List.countP_le_length.trans_lt ?_
    simpa [stored] using hlength
  rw [OutcomeStore.mem_selected_iff hkeys, stored, List.mem_map]
  constructor
  · exact fun hrow => hrow.1
  · rintro ⟨outcome, houtcome, rfl⟩
    exact ⟨⟨outcome, houtcome, rfl⟩, campaignOf_stored _ (h outcome houtcome).forecastId, hbefore⟩

theorem exists_report_stored (h : ∀ outcome ∈ outcomes, Answers outcome)
    (hnodup : (outcomes.map ShadowOutcome.revision).Nodup)
    (hlength : outcomes.length < maxQueryRows) :
    ∃ report, (stored (outcomes.map outcomeRow)).report "momentum" .firstEligible = .ok report := by
  refine OutcomeStore.exists_report .firstEligible (loadForecasts_stored _) ?_ ?_
  · intro row hrow
    obtain ⟨outcome, houtcome, rfl⟩ := (mem_selected_stored h hnodup hlength).mp hrow
    exact ⟨⟨outcome, (h outcome houtcome).decodes⟩,
      List.mem_singleton.mpr (h outcome houtcome).forecastId⟩
  · intro row hrow read hread forecast hforecast _
    obtain ⟨outcome, houtcome, rfl⟩ := (mem_selected_stored h hnodup hlength).mp hrow
    rw [(h outcome houtcome).decodes, Except.ok.injEq] at hread
    rw [List.mem_singleton.mp hforecast, ← hread]
    exact ⟨(h outcome houtcome).later, (h outcome houtcome).label⟩

/-- A report scores a revision that no observed one precedes. -/
theorem scores_stored (h : ∀ outcome ∈ outcomes, Answers outcome)
    (hnodup : (outcomes.map ShadowOutcome.revision).Nodup)
    (hlength : outcomes.length < maxQueryRows) {report : CampaignReport ℚ}
    (hreport : (stored (outcomes.map outcomeRow)).report "momentum" .firstEligible = .ok report)
    {revision : ℕ} {label : String} :
    report.Scores daily.forecastId revision label ↔
      (∃ outcome ∈ outcomes, outcome.status = .observed ∧ outcome.revision = revision ∧
        outcome.realizedLabel = label) ∧
      ∀ outcome ∈ outcomes, outcome.status = .observed → revision ≤ outcome.revision := by
  have hkeys : ((stored (outcomes.map outcomeRow)).outcomes.map OutcomeRow.key).Nodup := by
    refine List.Nodup.of_map Prod.snd ?_
    simpa [stored, outcomeRow, OutcomeRow.key, Function.comp_def] using hnodup
  have hselected : ∀ row, row ∈ (stored (outcomes.map outcomeRow)).selected "momentum" ↔
      ∃ outcome ∈ outcomes, outcomeRow outcome = row :=
    fun row => mem_selected_stored h hnodup hlength
  rw [OutcomeStore.scores_iff_eligible hkeys hreport]
  constructor
  · rintro ⟨⟨row, hrow, -, hstatus, hrevision, hlabel⟩, hleast⟩
    obtain ⟨outcome, houtcome, rfl⟩ := (hselected row).mp hrow
    refine ⟨⟨outcome, houtcome, hstatus, hrevision, hlabel⟩, fun other hother hobserved => ?_⟩
    exact hleast (outcomeRow other) ((hselected _).mpr ⟨other, hother, rfl⟩)
      (h other hother).forecastId hobserved
  · rintro ⟨⟨outcome, houtcome, hstatus, hrevision, hlabel⟩, hleast⟩
    refine ⟨⟨outcomeRow outcome, (hselected _).mpr ⟨outcome, houtcome, rfl⟩,
      (h outcome houtcome).forecastId, hstatus, hrevision, hlabel⟩, fun row hrow _ hobserved => ?_⟩
    obtain ⟨other, hother, rfl⟩ := (hselected row).mp hrow
    exact hleast other hother hobserved

end Rows

theorem append_observed : (OutcomeStore.opened sealedStore).appendAll [observed] =
    .ok (stored [outcomeRow observed]) := by
  have hstep : (stored []).appendOutcome observed = .ok (stored ([] ++ [outcomeRow observed])) :=
    appendOutcome_stored rfl (by decide) (by simp) (by decide) (by decide) (by decide)
  rw [OutcomeStore.appendAll, List.foldlM_cons]
  exact bind_eq_ok_iff.mpr ⟨_, hstep, rfl⟩

theorem append_after {outcome : ShadowOutcome}
    (h : (stored [outcomeRow observed]).appendOutcome outcome =
      .ok (stored ([outcomeRow observed] ++ [outcomeRow outcome]))) :
    (stored [outcomeRow observed]).appendAll [outcome] =
      .ok (stored ([observed, outcome].map outcomeRow)) := by
  rw [OutcomeStore.appendAll, List.foldlM_cons]
  exact bind_eq_ok_iff.mpr ⟨_, h, rfl⟩

theorem append_corrected : (stored [outcomeRow observed]).appendAll [corrected] =
    .ok (stored ([observed, corrected].map outcomeRow)) :=
  append_after (appendOutcome_stored rfl (by decide) (by decide) (by decide) (by decide)
    (by decide))

theorem append_recordedLate : (stored [outcomeRow observed]).appendAll [recordedLate] =
    .ok (stored ([observed, recordedLate].map outcomeRow)) :=
  append_after (appendOutcome_stored rfl (by decide) (by decide) (by decide) (by decide)
    (by decide))

theorem answers_pair {outcome : ShadowOutcome} (h : Answers outcome) :
    ∀ other ∈ [observed, outcome], Answers other := by
  intro other hother
  rcases List.mem_cons.mp hother with rfl | hother
  · exact answers_observed
  · rw [List.mem_singleton.mp hother]
    exact h

theorem exists_report_observed : ∃ report,
    (stored [outcomeRow observed]).report "momentum" .firstEligible = .ok report ∧
      report.Scores daily.forecastId 1 "up" := by
  have hanswers : ∀ outcome ∈ [observed], Answers outcome := by simpa using answers_observed
  obtain ⟨report, hreport⟩ := exists_report_stored hanswers (by decide) (by decide)
  exact ⟨report, hreport, (scores_stored hanswers (by decide) (by decide) hreport).mpr (by decide)⟩

/-- A correction with a larger number leaves the score. -/
theorem score_kept_by_correction : ∃ s s' first second,
    (OutcomeStore.opened sealedStore).appendAll [observed] = .ok s ∧
    s.appendAll [corrected] = .ok s' ∧
    s.report "momentum" .firstEligible = .ok first ∧
    s'.report "momentum" .firstEligible = .ok second ∧
    first.Scores daily.forecastId 1 "up" ∧ second.Scores daily.forecastId 1 "up" := by
  obtain ⟨first, hfirst, hscored⟩ := exists_report_observed
  obtain ⟨second, hsecond⟩ := exists_report_stored (answers_pair answers_corrected)
    (by decide) (by decide)
  refine ⟨_, _, first, second, append_observed, append_corrected, hfirst, hsecond, hscored, ?_⟩
  refine (first_eligible_kept_iff append_observed append_corrected hfirst hsecond hscored).mpr
    ⟨?_, ?_⟩
  · intro outcome houtcome _ _
    rw [List.mem_singleton.mp houtcome]
    decide
  · exact List.countP_le_length.trans_lt (by decide)

/-- A revision with a smaller number takes the score over, whenever it is recorded. -/
theorem score_rewritten_by_late_revision : ∃ s s' first second,
    (OutcomeStore.opened sealedStore).appendAll [observed] = .ok s ∧
    s.appendAll [recordedLate] = .ok s' ∧
    s.report "momentum" .firstEligible = .ok first ∧
    s'.report "momentum" .firstEligible = .ok second ∧
    first.Scores daily.forecastId 1 "up" ∧ ¬ second.Scores daily.forecastId 1 "up" ∧
    second.Scores daily.forecastId 0 "down" := by
  obtain ⟨first, hfirst, hscored⟩ := exists_report_observed
  obtain ⟨second, hsecond⟩ := exists_report_stored (answers_pair answers_recordedLate)
    (by decide) (by decide)
  refine ⟨_, _, first, second, append_observed, append_recordedLate, hfirst, hsecond, hscored,
    ?_, ?_⟩
  · rw [scores_stored (answers_pair answers_recordedLate) (by decide) (by decide) hsecond]
    rintro ⟨-, hleast⟩
    exact absurd (hleast recordedLate (by simp) rfl) (by decide)
  · rw [scores_stored (answers_pair answers_recordedLate) (by decide) (by decide) hsecond]
    decide

end Counterexample

end Shadow
