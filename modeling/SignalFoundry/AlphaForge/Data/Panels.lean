import SignalFoundry.AlphaForge.Data.SourceFrame

/-!
# What a panel contains

The panel of an accepted frame is the bars of its rows, sorted by symbol and date; it
exists exactly when the frame is not empty, no two rows share a symbol and a date, and
every row can be converted by itself.
-/

namespace BundleData

open Fallible PyFloat

/-- Finite floats and their products are not NaN. -/
class FiniteProducts (F : Type) [PyFloat F] : Prop where
  eq_self : ∀ x : F, isFinite x = true → PyFloat.eq x x = true
  mul_eq_self : ∀ x y : F, isFinite x = true → isFinite y = true →
    PyFloat.eq (mul x y) (mul x y) = true

instance : FiniteProducts ℚ where
  eq_self x _ := (rat_eq x x).mpr rfl
  mul_eq_self x y _ _ := (rat_eq (mul x y) (mul x y)).mpr rfl

variable {F : Type}

def Bar.key (bar : Bar F) : String ×ₗ Instant := toLex (bar.symbol, bar.date)

variable [PyFloat F]

/-- What the acceptance of a frame says of its rows. -/
structure Accepted (source : List (SourceRow F)) : Prop where
  nodup : (source.map SourceRow.key).Nodup
  le : ∀ row ∈ source, row.effectiveAt ≤ row.availableAt
  finite : ∀ row ∈ source, isFinite row.close = true ∧ isFinite row.volume = true

namespace SourceRow

variable (row : SourceRow F)

/-- Whether a row can be converted to a bar. -/
structure Convertible : Prop where
  state : row.adjustmentState ∈ adjustedCloseStates ∨ row.adjustmentState ∈ unadjustedStates
  factor : row.adjustmentState ∈ adjustedCloseStates →
    isFinite row.factor = true ∧ le row.factor zero = false
  close : le row.toBar.close zero = false
  range : lt row.toBar.high row.toBar.low = false

@[simp] theorem toBar_date : row.toBar.date = row.date := by
  unfold toBar
  split <;> rfl

@[simp] theorem toBar_symbol : row.toBar.symbol = row.ticker := by
  unfold toBar
  split <;> rfl

@[simp] theorem toBar_volume : row.toBar.volume = row.volume := by
  unfold toBar
  split <;> rfl

theorem key_toBar : row.toBar.key = toLex (row.ticker, row.date) := by
  rw [Bar.key, toBar_symbol, toBar_date]

theorem convertible_with_date (date : Instant) :
    ({ row with date } : SourceRow F).Convertible ↔ row.Convertible := by
  have hclose : ({ row with date } : SourceRow F).toBar.close = row.toBar.close := by
    unfold toBar
    split <;> rfl
  have hhigh : ({ row with date } : SourceRow F).toBar.high = row.toBar.high := by
    unfold toBar
    split <;> rfl
  have hlow : ({ row with date } : SourceRow F).toBar.low = row.toBar.low := by
    unfold toBar
    split <;> rfl
  constructor
  · rintro ⟨hstate, hfactor, hpositive, hrange⟩
    exact ⟨hstate, hfactor, hclose ▸ hpositive, hhigh ▸ hlow ▸ hrange⟩
  · rintro ⟨hstate, hfactor, hpositive, hrange⟩
    exact ⟨hstate, hfactor, hclose.symm ▸ hpositive, hhigh.symm ▸ hlow.symm ▸ hrange⟩

end SourceRow

/-! ## Acceptance -/

omit [PyFloat F] in
theorem ticker_ne_none_of_checkTexts {frame : List (RawRow F)} (h : checkTexts frame = .ok ())
    {row : RawRow F} (hrow : row ∈ frame) : row.ticker ≠ none := by
  intro hnone
  have hchecked := forM_eq_ok_iff.mp h "ticker" (by simp)
  rw [refuseIf_eq_ok_iff] at hchecked
  refine hchecked ⟨row, hrow, ?_⟩
  simp [RawRow.textColumns, hnone]

theorem accepted_of_coerceSourceFrame {frame : List (RawRow F)} {source : List (SourceRow F)}
    (h : coerceSourceFrame frame = .ok source) : Accepted source := by
  simp only [coerceSourceFrame, bind_eq_ok_iff, refuseIf_eq_ok_iff, pure_eq_ok] at h
  obtain ⟨-, -, -, -, -, hle, -, -, -, -, -, -, -, hnodup, -, hfinite, -, -, -, -, -, -, _, htexts,
    -, -, -, -, -, -, h⟩ := h
  cases h
  have hmem : ∀ {row}, row ∈ sortedBy (fun row : SourceRow F => toLex row.key)
      (frame.map RawRow.toSourceRow) → ∃ raw ∈ frame, raw.toSourceRow = row := fun hrow =>
    List.mem_map.mp (mem_sortedBy.mp hrow)
  refine ⟨?_, ?_, ?_⟩
  · have hkeys : ((frame.map RawRow.toSourceRow).map SourceRow.key).Nodup := by
      rw [List.map_map]
      refine List.Nodup.map_on ?_ (List.Nodup.of_map _ (not_not.mp hnodup))
      intro a ha b hb hab
      refine List.inj_on_of_nodup_map (not_not.mp hnodup) ha hb ?_
      obtain ⟨hdate, hticker⟩ := Prod.ext_iff.mp hab
      refine Prod.ext hdate ?_
      obtain ⟨t, ht⟩ := Option.ne_none_iff_exists'.mp (ticker_ne_none_of_checkTexts htexts ha)
      obtain ⟨u, hu⟩ := Option.ne_none_iff_exists'.mp (ticker_ne_none_of_checkTexts htexts hb)
      simpa [SourceRow.key, RawRow.toSourceRow, ht, hu] using hticker
    exact (((perm_sortedBy _ _).map SourceRow.key).nodup_iff).mpr hkeys
  · intro row hrow
    obtain ⟨raw, hraw, rfl⟩ := hmem hrow
    exact not_lt.mp fun hlt => hle ⟨raw, hraw, hlt⟩
  · intro row hrow
    obtain ⟨raw, hraw, rfl⟩ := hmem hrow
    have hall : ∀ x ∈ raw.volume :: raw.prices, isFinite x = true := fun x hx =>
      by_contra fun hnot => hfinite ⟨raw, hraw, x, hx, by simpa using hnot⟩
    exact ⟨hall raw.close (by simp [RawRow.prices]), hall raw.volume List.mem_cons_self⟩

/-! ## Conversion -/

theorem perm_flatMap_filter {α β : Type} [DecidableEq β] (f : α → β) (l : List α) {keys : List β}
    (hkeys : keys.Nodup) :
    (keys.flatMap fun k => l.filter (f · = k)).Perm (l.filter (f · ∈ keys)) := by
  induction keys with
  | nil => simp
  | cons k ks ih =>
      obtain ⟨hk, hks⟩ := List.nodup_cons.mp hkeys
      rw [List.flatMap_cons]
      refine ((List.Perm.refl _).append (ih hks)).trans ?_
      have hsplit := List.filter_append_perm (fun a => f a = k) (l.filter (f · ∈ k :: ks))
      have hhead : (l.filter (f · ∈ k :: ks)).filter (fun a => f a = k) =
          l.filter (f · = k) := by
        rw [List.filter_filter]
        refine List.filter_congr fun a _ => ?_
        by_cases ha : f a = k <;> simp [ha]
      have htail : (l.filter (f · ∈ k :: ks)).filter (fun a => !decide (f a = k)) =
          l.filter (f · ∈ ks) := by
        rw [List.filter_filter]
        refine List.filter_congr fun a _ => ?_
        by_cases ha : f a = k
        · simp [ha, hk]
        · simp [ha]
      rwa [hhead, htail] at hsplit

theorem adjustBlock_eq_ok_iff {state : String} {block : List (SourceRow F)} {bars : List (Bar F)}
    (hstate : ∀ row ∈ block, row.adjustmentState = state) (hne : block ≠ []) :
    adjustBlock state block = .ok bars ↔ (∀ row ∈ block,
      (row.adjustmentState ∈ adjustedCloseStates ∨ row.adjustmentState ∈ unadjustedStates) ∧
      (row.adjustmentState ∈ adjustedCloseStates →
        isFinite row.factor = true ∧ le row.factor zero = false)) ∧
      bars = block.map SourceRow.toBar := by
  have hrows : ∀ {P : String → SourceRow F → Prop}, (∀ row ∈ block, P row.adjustmentState row) ↔
      ∀ row ∈ block, P state row := fun {P} =>
    forall₂_congr fun row hrow => by rw [hstate row hrow]
  rw [hrows (P := fun s row => (s ∈ adjustedCloseStates ∨ s ∈ unadjustedStates) ∧
    (s ∈ adjustedCloseStates → isFinite row.factor = true ∧ le row.factor zero = false))]
  obtain ⟨first, hfirst⟩ := List.exists_mem_of_ne_nil block hne
  unfold adjustBlock
  by_cases hadjusted : state ∈ adjustedCloseStates
  · rw [if_pos hadjusted]
    simp only [bind_eq_ok_iff, refuseIf_eq_ok_iff, pure_eq_ok, Except.ok.injEq, hadjusted,
      true_or, true_and, forall_const, not_exists, not_and, not_or, Bool.not_eq_false,
      Bool.not_eq_true]
    constructor
    · rintro ⟨-, h, hbars⟩
      exact ⟨h, hbars.symm⟩
    · rintro ⟨h, hbars⟩
      exact ⟨(), h, hbars.symm⟩
  · rw [if_neg hadjusted]
    simp only [bind_eq_ok_iff, refuseIf_eq_ok_iff, pure_eq_ok, Except.ok.injEq, hadjusted,
      false_or, false_implies, and_true, not_not]
    constructor
    · rintro ⟨-, h, hbars⟩
      exact ⟨fun _ _ => h, hbars.symm⟩
    · rintro ⟨h, hbars⟩
      exact ⟨(), h first hfirst, hbars.symm⟩

theorem isNaN_eq_false {x : F} : isNaN x = false ↔ PyFloat.eq x x = true := by simp [isNaN]

theorem validatePanel_eq_ok_iff {panel bars : List (Bar F)}
    (hclose : ∀ bar ∈ panel, isNaN bar.close = false)
    (hvolume : ∀ bar ∈ panel, isNaN bar.volume = false) :
    validatePanel panel = .ok bars ↔ panel ≠ [] ∧ (panel.map Bar.key).Nodup ∧
      (∀ bar ∈ panel, le bar.close zero = false ∧ lt bar.high bar.low = false) ∧
      bars = sortedBy Bar.key panel := by
  have hkeys : (panel.map fun bar => (bar.date, bar.symbol)).Nodup ↔ (panel.map Bar.key).Nodup := by
    have hswap : panel.map Bar.key =
        (panel.map fun bar => (bar.date, bar.symbol)).map fun k => toLex (k.2, k.1) := by
      rw [List.map_map]
      rfl
    rw [hswap]
    refine (List.nodup_map_iff fun a b hab => ?_).symm
    exact Prod.ext (congrArg (fun p => (ofLex p).2) hab) (congrArg (fun p => (ofLex p).1) hab)
  have hnone : ∀ {value : Bar F → F}, (∀ bar ∈ panel, isNaN (value bar) = false) →
      ((∀ bar ∈ panel, isNaN (value bar) = true) ↔ panel = []) := by
    intro value hvalue
    constructor
    · intro hall
      refine List.eq_nil_iff_forall_not_mem.mpr fun bar hbar => ?_
      exact absurd (hall bar hbar) (by simp [hvalue bar hbar])
    · rintro rfl
      simp
  simp only [validatePanel, bind_eq_ok_iff, refuseIf_eq_ok_iff, pure_eq_ok, Except.ok.injEq,
    not_not, hkeys, hnone hclose, hnone hvolume]
  constructor
  · rintro ⟨-, hnodup, -, hne, -, hpositive, -, -, -, hrange, rfl⟩
    refine ⟨hne, hnodup, fun bar hbar => ⟨?_, ?_⟩, rfl⟩
    · by_contra hle
      exact hpositive ⟨bar, hbar, hclose bar hbar, by simpa using hle⟩
    · simpa using List.filter_eq_nil_iff.mp hrange bar hbar
  · rintro ⟨hne, hnodup, hbars, rfl⟩
    refine ⟨(), hnodup, (), hne, (), ?_, (), hne, (), ?_, rfl⟩
    · rintro ⟨bar, hbar, -, hle⟩
      simp [(hbars bar hbar).1] at hle
    · exact List.filter_eq_nil_iff.mpr fun bar hbar => by simp [(hbars bar hbar).2]

variable [FiniteProducts F]

theorem SourceRow.isNaN_toBar_close {row : SourceRow F} (hclose : isFinite row.close = true)
    (hfactor : row.adjustmentState ∈ adjustedCloseStates → isFinite row.factor = true) :
    isNaN row.toBar.close = false := by
  rw [isNaN_eq_false, toBar]
  split
  · next hadjusted => exact FiniteProducts.mul_eq_self _ _ hclose (hfactor hadjusted)
  · exact FiniteProducts.eq_self _ hclose

/-! ## The panel of a frame -/

section Frame

variable {source : List (SourceRow F)}

omit [PyFloat F] [FiniteProducts F]

theorem mem_adjustmentStates {state : String} :
    state ∈ adjustmentStates source ↔ ∃ row ∈ source, row.adjustmentState = state := by
  rw [adjustmentStates, mem_sortedBy, List.mem_dedup, List.mem_map]

theorem mem_stateBlock {state : String} {row : SourceRow F} :
    row ∈ stateBlock source state ↔ row ∈ source ∧ row.adjustmentState = state := by
  rw [stateBlock, List.mem_filter, decide_eq_true_iff]

theorem perm_flatMap_stateBlock (source : List (SourceRow F)) :
    ((adjustmentStates source).flatMap (stateBlock source)).Perm source := by
  have hnodup : (adjustmentStates source).Nodup :=
    (perm_sortedBy id _).nodup_iff.mpr (List.nodup_dedup _)
  have hall : source.filter (fun row => row.adjustmentState ∈ adjustmentStates source) = source :=
    List.filter_eq_self.mpr fun row hrow =>
      decide_eq_true (mem_adjustmentStates.mpr ⟨row, hrow, rfl⟩)
  have hblocks := perm_flatMap_filter (fun row => row.adjustmentState) source hnodup
  rwa [hall] at hblocks

variable [PyFloat F]

/-- The bars of the blocks, one after another, are those of the rows. -/
theorem perm_flatten_bars (source : List (SourceRow F)) :
    ((adjustmentStates source).map fun state =>
      (stateBlock source state).map SourceRow.toBar).flatten.Perm
        (source.map SourceRow.toBar) := by
  rw [← List.flatMap_def, ← List.map_flatMap]
  exact (perm_flatMap_stateBlock source).map _

theorem nodup_key_toBar :
    ((source.map SourceRow.toBar).map Bar.key).Nodup ↔ (source.map SourceRow.key).Nodup := by
  have hkeys : (source.map SourceRow.toBar).map Bar.key =
      (source.map SourceRow.key).map fun k => toLex (k.2, k.1) := by
    rw [List.map_map, List.map_map]
    exact List.map_congr_left fun row _ => row.key_toBar
  rw [hkeys]
  refine List.nodup_map_iff fun a b hab => ?_
  exact Prod.ext (congrArg (fun p => (ofLex p).2) hab) (congrArg (fun p => (ofLex p).1) hab)

variable [FiniteProducts F]

theorem validatePanel_bars_eq_ok_iff {bars panel : List (Bar F)}
    (hbars : bars.Perm (source.map SourceRow.toBar))
    (hfinite : ∀ row ∈ source, isFinite row.close = true ∧ isFinite row.volume = true)
    (hfactor : ∀ row ∈ source, row.adjustmentState ∈ adjustedCloseStates →
      isFinite row.factor = true) :
    validatePanel bars = .ok panel ↔ source ≠ [] ∧ (source.map SourceRow.key).Nodup ∧
      (∀ row ∈ source,
        le row.toBar.close zero = false ∧ lt row.toBar.high row.toBar.low = false) ∧
      panel = sortedBy Bar.key (source.map SourceRow.toBar) := by
  have hbar : ∀ {p : Bar F → Prop}, (∀ bar ∈ bars, p bar) ↔ ∀ row ∈ source, p row.toBar :=
    fun {p} => by simp only [hbars.mem_iff, List.forall_mem_map]
  have hne : bars ≠ [] ↔ source ≠ [] := by
    rw [ne_eq, ← List.length_eq_zero_iff, hbars.length_eq, List.length_map, List.length_eq_zero_iff]
  rw [validatePanel_eq_ok_iff, hne, (hbars.map Bar.key).nodup_iff, nodup_key_toBar, hbar]
  · refine and_congr_right fun _ => and_congr_right fun hnodup => and_congr_right fun _ => ?_
    have hdistinct := nodup_key_toBar.mpr hnodup
    rw [sortedBy_eq_of_perm hbars fun a ha b hb hab =>
      List.inj_on_of_nodup_map hdistinct (hbars.mem_iff.mp ha) (hbars.mem_iff.mp hb) hab]
  · exact hbar.mpr fun row hrow =>
      SourceRow.isNaN_toBar_close (hfinite row hrow).1 (hfactor row hrow)
  · refine hbar.mpr fun row hrow => ?_
    rw [row.toBar_volume, isNaN_eq_false]
    exact FiniteProducts.eq_self _ (hfinite row hrow).2

/-- The panel of a frame is the bars of its rows, by symbol and date. -/
theorem toAlphaforgePanel_eq_ok_iff {panel : List (Bar F)}
    (hfinite : ∀ row ∈ source, isFinite row.close = true ∧ isFinite row.volume = true) :
    toAlphaforgePanel source = .ok panel ↔ source ≠ [] ∧ (source.map SourceRow.key).Nodup ∧
      (∀ row ∈ source, row.Convertible) ∧
      panel = sortedBy Bar.key (source.map SourceRow.toBar) := by
  unfold toAlphaforgePanel
  simp only [bind_eq_ok_iff, refuseIf_eq_ok_iff]
  rw [exists_congr fun blocks => and_congr_left fun _ => mapM_eq_ok_iff fun state hstate bars =>
    adjustBlock_eq_ok_iff (fun row hrow => (mem_stateBlock.mp hrow).2) (by
      obtain ⟨row, hrow, hrowState⟩ := mem_adjustmentStates.mp hstate
      exact List.ne_nil_of_mem (mem_stateBlock.mpr ⟨hrow, hrowState⟩))]
  constructor
  · rintro ⟨_, ⟨hblock, rfl⟩, -, -, hpanel⟩
    have hrow : ∀ row ∈ source, _ := fun row hrow => hblock row.adjustmentState
      (mem_adjustmentStates.mpr ⟨row, hrow, rfl⟩) row (mem_stateBlock.mpr ⟨hrow, rfl⟩)
    obtain ⟨hne, hdistinct, hbar, rfl⟩ := (validatePanel_bars_eq_ok_iff (perm_flatten_bars source)
      hfinite fun row hr hadjusted => ((hrow row hr).2 hadjusted).1).mp hpanel
    refine ⟨hne, hdistinct, fun row hr => ?_, rfl⟩
    exact ⟨(hrow row hr).1, (hrow row hr).2, (hbar row hr).1, (hbar row hr).2⟩
  · rintro ⟨hne, hdistinct, hconvertible, hpanel⟩
    refine ⟨_, ⟨fun state _ row hrow => ?_, rfl⟩, (), ?_, ?_⟩
    · have hrow := hconvertible row (mem_stateBlock.mp hrow).1
      exact ⟨hrow.state, hrow.factor⟩
    · obtain ⟨row, hrow⟩ := List.exists_mem_of_ne_nil source hne
      have hstate := mem_adjustmentStates.mpr ⟨row, hrow, rfl⟩
      exact fun hnil => List.ne_nil_of_mem hstate (List.map_eq_nil_iff.mp hnil)
    · refine (validatePanel_bars_eq_ok_iff (perm_flatten_bars source) hfinite
        fun row hrow hadjusted => ((hconvertible row hrow).factor hadjusted).1).mpr
          ⟨hne, hdistinct, fun row hrow => ?_, hpanel⟩
      exact ⟨(hconvertible row hrow).close, (hconvertible row hrow).range⟩

end Frame

end BundleData
