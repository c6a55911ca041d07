import SignalFoundry.Lattice.Data.Contract

/-!
# The identity of a bundle

A bundle is named by a digest of its ordered frames. The checks of a frame do not see
the order of its rows, so what the name depends on is how ties of the sort are broken.
Market observations are unique in the columns they are sorted by. Universe records and
corporate actions are unique in others, and a tie of theirs stays as it was listed.
-/

namespace MarketData

open Fallible

/-! ## Ties -/

section Ties

variable {α β κ ε : Type} [LinearOrder κ] {f : α → β} {key : β → κ} {l : List α}

/-- Rows sorted after a conversion are seen in their order exactly when two of the
converted rows share a key. -/
theorem forall_perm_sortedBy_map_iff [DecidableEq β] (hnodup : (l.map f).Nodup) :
    (∀ l' : List α, l'.Perm l → sortedBy key (l'.map f) = sortedBy key (l.map f)) ↔
      ((l.map f).map key).Nodup := by
  rw [← forall_perm_sortedBy_iff hnodup]
  constructor
  · intro hsame records hperm
    have hlift : Relation.Comp (· = List.map f ·) List.Perm records l := by
      rw [List.eq_map_comp_perm]
      exact hperm.symm
    obtain ⟨l', rfl, hl'⟩ := hlift
    exact hsame l' hl'
  · intro hsame l' hperm
    exact hsame (l'.map f) (hperm.map f).symm

theorem forall_perm_coerce_iff [DecidableEq β] {coerce : List α → Except ε (List β)}
    (hnodup : (l.map f).Nodup)
    (hcoerce : ∀ l', l'.Perm l → coerce l' = .ok (sortedBy key (l'.map f))) :
    (∀ l', l'.Perm l → coerce l' = coerce l) ↔ ((l.map f).map key).Nodup := by
  rw [← forall_perm_sortedBy_map_iff hnodup]
  refine forall₂_congr fun l' hperm => ?_
  rw [hcoerce l' hperm, hcoerce l (.refl l), Except.ok.injEq]

end Ties

/-! ## The checks do not see the order -/

theorem isAwareColumn_eq_of_perm {cells cells' : List Stamp} (hperm : cells'.Perm cells) :
    isAwareColumn cells' = isAwareColumn cells := by
  rw [isAwareColumn, isAwareColumn, hperm.all_eq, hperm.any_eq]

theorem strictUtc_eq_of_perm {family : String} {cells cells' : List TemporalCells}
    (hperm : cells'.Perm cells) : strictUtc family cells' = strictUtc family cells := by
  simp only [strictUtc, isAwareColumn_eq_of_perm (hperm.map _), hperm.any_eq]

theorem validateTemporalOrder_eq_of_perm {family : String} {cells cells' : List TemporalCells}
    (hperm : cells'.Perm cells) :
    validateTemporalOrder family cells' = validateTemporalOrder family cells := by
  simp only [validateTemporalOrder, (hperm.map _).any_eq, hperm.any_eq]

theorem validateText_eq_of_perm {R : Type} {family : String} {rows rows' : List R}
    (hperm : rows'.Perm rows) : validateText (R := R) family rows' = validateText family rows := by
  funext column
  simp only [validateText, hperm.any_eq]

theorem strictUtcColumn_eq_of_perm {column : String} {nullable : Bool} {cells cells' : List Stamp}
    (hperm : cells'.Perm cells) :
    strictUtcColumn column nullable cells' = strictUtcColumn column nullable cells := by
  simp only [strictUtcColumn, isAwareColumn_eq_of_perm hperm, hperm.any_eq, hperm.all_eq]

theorem sortedBy_dedup_eq_of_perm {α : Type} [LinearOrder α] {l l' : List α} (hperm : l'.Perm l) :
    sortedBy id l'.dedup = sortedBy id l.dedup :=
  sortedBy_eq_of_perm hperm.dedup fun _ _ _ _ h => h

theorem eq_nil_iff_of_perm {α : Type} {l l' : List α} (hperm : l'.Perm l) : l' = [] ↔ l = [] := by
  rw [← List.length_eq_zero_iff, hperm.length_eq, List.length_eq_zero_iff]

theorem checkUniverse_eq_of_perm {rows rows' : List UniverseRow} (hperm : rows'.Perm rows) :
    checkUniverse rows' = checkUniverse rows := by
  simp only [checkUniverse, strictUtc_eq_of_perm (hperm.map _),
    validateTemporalOrder_eq_of_perm (hperm.map _), validateText_eq_of_perm hperm, hperm.any_eq,
    (hperm.map _).nodup_iff]

variable {F : Type} [PyFloat F]

theorem checkActions_eq_of_perm [PyRuntime] {rows rows' : List (ActionRow F)}
    (hperm : rows'.Perm rows) : checkActions rows' = checkActions rows := by
  have hinvalid : (((rows'.map ActionRow.record).map (·.actionType)).filter (· ∉ actionTypes)).Perm
      (((rows.map ActionRow.record).map (·.actionType)).filter (· ∉ actionTypes)) :=
    ((hperm.map _).map _).filter _
  simp only [checkActions, strictUtc_eq_of_perm (hperm.map _),
    validateTemporalOrder_eq_of_perm (hperm.map _), validateText_eq_of_perm hperm,
    (hperm.map _).any_eq, ((hperm.map _).map _).nodup_iff, ne_eq, eq_nil_iff_of_perm hinvalid,
    sortedBy_dedup_eq_of_perm hinvalid]

theorem tickerErrors_eq_of_perm {ticker : String} {rows rows' : List (PriceRow F)}
    (hperm : rows'.Perm rows) : tickerErrors ticker rows' = tickerErrors ticker rows := by
  simp only [tickerErrors, (hperm.map _).nodup_iff, (hperm.flatMap_right _).countP_eq,
    hperm.countP_eq]

theorem validatePricePanel_eq_of_perm {rows rows' : List (PriceRow F)}
    (hperm : rows'.Perm rows) : validatePricePanel rows' = validatePricePanel rows := by
  have hticker : (fun ticker => tickerErrors ticker (rows'.filter fun row => row.ticker = some ticker)) =
      fun ticker => tickerErrors ticker (rows.filter fun row => row.ticker = some ticker) := by
    funext ticker
    exact tickerErrors_eq_of_perm (hperm.filter _)
  simp only [validatePricePanel, eq_nil_iff_of_perm hperm, (hperm.map _).count_eq, hperm.countP_eq,
    sortedBy_dedup_eq_of_perm (hperm.filterMap _), hticker]

theorem checkContractFrame_eq_of_perm {rows rows' : List (PriceRow F)}
    (hperm : rows'.Perm rows) : checkContractFrame rows' = checkContractFrame rows := by
  simp only [checkContractFrame, strictUtcColumn_eq_of_perm ((hperm.map _).map _),
    ((hperm.map _).map _).any_eq, hperm.any_eq, (hperm.map _).nodup_iff,
    validatePricePanel_eq_of_perm hperm]

/-! ## The three record sets -/

theorem coerceContractFrame_eq_ok_iff {rows : List (PriceRow F)} {frame : List (PriceRecord F)} :
    coerceContractFrame rows = .ok frame ↔ checkContractFrame rows = .ok () ∧
      frame = sortedBy PriceRecord.sortKey (rows.map PriceRow.record) := by
  simp only [coerceContractFrame, bind_eq_ok_iff, pure_eq_ok, Except.ok.injEq]
  constructor
  · rintro ⟨u, hcheck, hframe⟩
    exact ⟨hcheck, hframe.symm⟩
  · rintro ⟨hcheck, hframe⟩
    exact ⟨(), hcheck, hframe.symm⟩

theorem coerceUniverseRecords_eq_ok_iff {rows : List UniverseRow} {frame : List UniverseRecord} :
    coerceUniverseRecords rows = .ok frame ↔ (rows = [] ∨ checkUniverse rows = .ok ()) ∧
      frame = sortedBy UniverseRecord.sortKey (rows.map UniverseRow.record) := by
  rw [coerceUniverseRecords]
  by_cases hrows : rows = []
  · subst hrows
    simp only [if_true, pure_eq_ok, Except.ok.injEq, true_or, true_and]
    exact eq_comm
  · simp only [hrows, if_false, false_or, bind_eq_ok_iff, pure_eq_ok, Except.ok.injEq]
    constructor
    · rintro ⟨u, hcheck, hframe⟩
      exact ⟨hcheck, hframe.symm⟩
    · rintro ⟨hcheck, hframe⟩
      exact ⟨(), hcheck, hframe.symm⟩

theorem coerceCorporateActionRecords_eq_ok_iff [PyRuntime] {rows : List (ActionRow F)}
    {frame : List (ActionRecord F)} :
    coerceCorporateActionRecords rows = .ok frame ↔ (rows = [] ∨ checkActions rows = .ok ()) ∧
      frame = sortedBy ActionRecord.sortKey (rows.map ActionRow.record) := by
  rw [coerceCorporateActionRecords]
  by_cases hrows : rows = []
  · subst hrows
    simp only [List.isEmpty_nil, if_true, pure_eq_ok, Except.ok.injEq, true_or, true_and]
    exact eq_comm
  · have hempty : rows.isEmpty = false := by simpa using hrows
    simp only [hempty, Bool.false_eq_true, hrows, if_false, false_or, bind_eq_ok_iff, pure_eq_ok,
      Except.ok.injEq]
    constructor
    · rintro ⟨u, hcheck, hframe⟩
      exact ⟨hcheck, hframe.symm⟩
    · rintro ⟨hcheck, hframe⟩
      exact ⟨(), hcheck, hframe.symm⟩

theorem checked_of_checkContractFrame {rows : List (PriceRow F)}
    (hvalid : checkContractFrame rows = .ok ()) :
    (rows.map PriceRow.key).Nodup ∧ ∀ row ∈ rows, row.ticker.isSome := by
  simp only [checkContractFrame, bind_eq_ok_iff, refuseIf_eq_ok_iff, forM_eq_ok_iff, not_not,
    Bool.not_eq_true] at hvalid
  obtain ⟨_, -, _, -, _, -, _, -, _, -, _, -, _, -, _, -, _, hkeys, _, -, _, -, _, -, _, -, htext⟩ :=
    hvalid
  refine ⟨hkeys, fun row hrow => ?_⟩
  have hticker := htext ("ticker", PriceRow.ticker) List.mem_cons_self
  rw [List.any_eq_false] at hticker
  have hblank := hticker row hrow
  cases hcell : row.ticker with
  | none => simp [hcell] at hblank
  | some ticker => rfl

/-- The rows of a panel are unique in the columns they are sorted by. -/
theorem coerceContractFrame_eq_of_perm {rows rows' : List (PriceRow F)}
    (hvalid : checkContractFrame rows = .ok ()) (hperm : rows'.Perm rows) :
    coerceContractFrame rows' = coerceContractFrame rows := by
  obtain ⟨hkeys, htickers⟩ := checked_of_checkContractFrame hvalid
  have hsorted : sortedBy PriceRecord.sortKey (rows.map PriceRow.record) =
      sortedBy PriceRecord.sortKey (rows'.map PriceRow.record) := by
    apply sortedBy_eq_of_perm (hperm.map _).symm
    simp only [List.forall_mem_map]
    intro a ha b hb hkey
    have hpair : (a.date, a.ticker.getD "") = (b.date, b.ticker.getD "") := toLex.injective hkey
    obtain ⟨ticker, hticker⟩ := Option.isSome_iff_exists.mp (htickers a ha)
    obtain ⟨ticker', hticker'⟩ := Option.isSome_iff_exists.mp (htickers b hb)
    rw [hticker, hticker', Option.getD_some, Option.getD_some, Prod.mk.injEq] at hpair
    have hrow : a.key = b.key := by
      rw [PriceRow.key, PriceRow.key, hticker, hticker', hpair.1, hpair.2]
    rw [List.inj_on_of_nodup_map hkeys ha hb hrow]
  simp only [coerceContractFrame, checkContractFrame_eq_of_perm hperm, hsorted]

theorem nodup_records_of_checkUniverse {rows : List UniverseRow}
    (hvalid : checkUniverse rows = .ok ()) : (rows.map UniverseRow.record).Nodup := by
  simp only [checkUniverse, bind_eq_ok_iff, refuseIf_eq_ok_iff, not_not] at hvalid
  obtain ⟨_, -, _, -, _, -, _, -, hrevisions⟩ := hvalid
  rw [← Function.comp_def, ← List.map_map] at hrevisions
  exact hrevisions.of_map _

theorem nodup_records_of_checkActions [PyRuntime] {rows : List (ActionRow F)}
    (hvalid : checkActions rows = .ok ()) : (rows.map ActionRow.record).Nodup := by
  simp only [checkActions, bind_eq_ok_iff, refuseIf_eq_ok_iff, not_not] at hvalid
  obtain ⟨_, -, _, -, _, -, _, -, _, -, _, -, _, -, _, -, _, -, hrevisions⟩ := hvalid
  exact hrevisions.of_map _

theorem forall_perm_coerceUniverseRecords_iff {rows : List UniverseRow}
    (hvalid : ∃ frame, coerceUniverseRecords rows = .ok frame) :
    (∀ rows', rows'.Perm rows → coerceUniverseRecords rows' = coerceUniverseRecords rows) ↔
      ((rows.map UniverseRow.record).map UniverseRecord.sortKey).Nodup := by
  obtain ⟨frame, hframe⟩ := hvalid
  obtain ⟨hchecked, -⟩ := coerceUniverseRecords_eq_ok_iff.mp hframe
  apply forall_perm_coerce_iff
  · rcases hchecked with rfl | hchecked
    · exact List.nodup_nil
    · exact nodup_records_of_checkUniverse hchecked
  · intro rows' hperm
    refine coerceUniverseRecords_eq_ok_iff.mpr ⟨?_, rfl⟩
    rwa [eq_nil_iff_of_perm hperm, checkUniverse_eq_of_perm hperm]

theorem forall_perm_coerceCorporateActionRecords_iff [PyRuntime] [DecidableEq F]
    {rows : List (ActionRow F)} (hvalid : ∃ frame, coerceCorporateActionRecords rows = .ok frame) :
    (∀ rows', rows'.Perm rows →
      coerceCorporateActionRecords rows' = coerceCorporateActionRecords rows) ↔
      ((rows.map ActionRow.record).map ActionRecord.sortKey).Nodup := by
  obtain ⟨frame, hframe⟩ := hvalid
  obtain ⟨hchecked, -⟩ := coerceCorporateActionRecords_eq_ok_iff.mp hframe
  apply forall_perm_coerce_iff
  · rcases hchecked with rfl | hchecked
    · exact List.nodup_nil
    · exact nodup_records_of_checkActions hchecked
  · intro rows' hperm
    refine coerceCorporateActionRecords_eq_ok_iff.mpr ⟨?_, rfl⟩
    rwa [eq_nil_iff_of_perm hperm, checkActions_eq_of_perm hperm]

/-! ## Bundles -/

variable (F) in
/-- What a bundle is made of: a panel and two record sets that pass their checks. -/
structure BundleContent [PyRuntime] where
  panel : List (PriceRow F)
  universeRows : List UniverseRow
  corporateActions : List (ActionRow F)
  panel_valid : ∃ frame, coerceContractFrame panel = .ok frame
  universe_valid : ∃ frame, coerceUniverseRecords universeRows = .ok frame
  actions_valid : ∃ frame, coerceCorporateActionRecords corporateActions = .ok frame

/-- No two records of a family share the columns it is sorted by. -/
def BundleContent.Untied [PyRuntime] (content : BundleContent F) : Prop :=
  ((content.universeRows.map UniverseRow.record).map UniverseRecord.sortKey).Nodup ∧
    ((content.corporateActions.map ActionRow.record).map ActionRecord.sortKey).Nodup

/-- In every order of the rows, the frames are the same and so is the bundle. -/
structure BundleContent.SameInOrder [PyRuntime] [FloatText F] [FrameForms]
    (content : BundleContent F) (panel : List (PriceRow F)) (universeRows : List UniverseRow)
    (corporateActions : List (ActionRow F)) : Prop where
  prices : coerceContractFrame panel = coerceContractFrame content.panel
  universeRecords :
    coerceUniverseRecords universeRows = coerceUniverseRecords content.universeRows
  actions : coerceCorporateActionRecords corporateActions =
    coerceCorporateActionRecords content.corporateActions
  bundle : ∀ (writer : ParquetWriter F) source producerGitSha,
    exportSignalFoundryBundle writer source producerGitSha panel universeRows corporateActions =
      exportSignalFoundryBundle writer source producerGitSha content.panel content.universeRows
        content.corporateActions

theorem BundleContent.order_free_iff_untied [PyRuntime] [FloatText F] [FrameForms] [DecidableEq F]
    (content : BundleContent F) :
    (∀ panel universeRows corporateActions, panel.Perm content.panel →
      universeRows.Perm content.universeRows →
      corporateActions.Perm content.corporateActions →
      content.SameInOrder panel universeRows corporateActions) ↔ content.Untied := by
  rw [BundleContent.Untied, ← forall_perm_coerceUniverseRecords_iff content.universe_valid,
    ← forall_perm_coerceCorporateActionRecords_iff content.actions_valid]
  constructor
  · intro hsame
    exact ⟨fun universeRows hperm => (hsame _ _ _ (.refl _) hperm (.refl _)).universeRecords,
      fun actions hperm => (hsame _ _ _ (.refl _) (.refl _) hperm).actions⟩
  · rintro ⟨huniverse, hactions⟩ panel universeRows actions hpanel huniverseRows hactionRows
    obtain ⟨frame, hframe⟩ := content.panel_valid
    have hprices := coerceContractFrame_eq_of_perm (coerceContractFrame_eq_ok_iff.mp hframe).1 hpanel
    refine ⟨hprices, huniverse _ huniverseRows, hactions _ hactionRows, ?_⟩
    intro writer source producerGitSha
    simp only [exportSignalFoundryBundle, hprices, huniverse _ huniverseRows,
      hactions _ hactionRows]

/-- Two memberships of one instrument in one universe, in effect and available together. -/
def tiedMembership (membershipId reason : String) : UniverseRow where
  membershipId := some membershipId
  universeId := some "us-large"
  instrumentId := some "ins-1"
  ticker := some "AAA"
  temporal := ⟨.utc 1, .utc 2, .utc 3, .missing⟩
  isMember := some true
  reason := some reason
  source := some "vendor"
  sourceTable := some "members"

theorem tied_memberships_keep_order :
    ¬ ∀ rows rows' : List UniverseRow, (∃ frame, coerceUniverseRecords rows = .ok frame) →
      rows'.Perm rows → coerceUniverseRecords rows' = coerceUniverseRecords rows := by
  intro hsame
  have hchecked : checkUniverse [tiedMembership "m-1" "added", tiedMembership "m-2" "kept"] =
      .ok () := by decide
  have hvalid := coerceUniverseRecords_eq_ok_iff.mpr ⟨.inr hchecked, rfl⟩
  have hswap := hsame _ [tiedMembership "m-2" "kept", tiedMembership "m-1" "added"]
    ⟨_, hvalid⟩ (List.Perm.swap _ _ [])
  revert hswap
  decide

end MarketData
