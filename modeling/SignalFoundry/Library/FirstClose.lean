import Mathlib.Data.Finset.Max
import Mathlib.Data.Prod.Lex
import SignalFoundry.Library.StableSort

/-!
# The first close at or after an instant

Labels with a closing time each, in the order in which they close; labels that close
together come in label order. A binary search in the sorted closes finds the first label
that closes at or after an instant (`getElem?_searchsortedLeft_eq_some_iff`).
-/

universe u v

/-- `np.searchsorted(keys, value, side="left")` for sorted keys. -/
def searchsortedLeft {τ : Type v} [LinearOrder τ] (keys : List τ) (value : τ) : ℕ :=
  (keys.takeWhile (· < value)).length

section FirstClose

variable {σ : Type u} {τ : Type v} [LinearOrder σ] [LinearOrder τ]

/-- The place of a label in the order of closes. -/
def closing (close : σ → τ) (s : σ) : τ ×ₗ σ := toLex (close s, s)

/-- `s` is the first label to close at or after `a`. -/
structure FirstClose (labels : List σ) (close : σ → τ) (a : τ) (s : σ) : Prop where
  mem : s ∈ labels
  le : a ≤ close s
  first : ∀ t ∈ labels, a ≤ close t → closing close s ≤ closing close t

variable {labels : List σ} {close : σ → τ} {a : τ} {s t : σ}

theorem closing_le_iff :
    closing close s ≤ closing close t ↔ close s < close t ∨ close s = close t ∧ s ≤ t :=
  Prod.Lex.toLex_le_toLex

theorem closing_lt_iff :
    closing close s < closing close t ↔ close s < close t ∨ close s = close t ∧ s < t :=
  Prod.Lex.toLex_lt_toLex

theorem close_le_of_closing_le (h : closing close s ≤ closing close t) : close s ≤ close t :=
  (closing_le_iff.mp h).elim le_of_lt fun h => h.1.le

omit [LinearOrder σ] [LinearOrder τ] in
theorem eq_of_closing_eq (h : closing close s = closing close t) : s = t :=
  congrArg (fun p => (ofLex p).2) h

theorem closing_le_of_le_of_le (hclose : close s ≤ close t) (hlabel : s ≤ t) :
    closing close s ≤ closing close t :=
  closing_le_iff.mpr (hclose.lt_or_eq.imp_right fun h => ⟨h, hlabel⟩)

namespace FirstClose

theorem unique (hs : FirstClose labels close a s) (ht : FirstClose labels close a t) : s = t :=
  eq_of_closing_eq (le_antisymm (hs.first t ht.mem ht.le) (ht.first s hs.mem hs.le))

theorem exists_of_le (hmem : t ∈ labels) (hle : a ≤ close t) :
    ∃ s, FirstClose labels close a s := by
  obtain ⟨s, hs, hfirst⟩ := (labels.toFinset.filter fun t => a ≤ close t).exists_min_image
    (closing close) ⟨t, by simp [hmem, hle]⟩
  rw [Finset.mem_filter, List.mem_toFinset] at hs
  exact ⟨s, hs.1, hs.2, fun u hu hau => hfirst u (by simp [hu, hau])⟩

end FirstClose

/-! ## Searching the sorted closes -/

theorem getElem?_length_takeWhile {α : Type u} (p : α → Bool) (l : List α) :
    l[(l.takeWhile p).length]? = l.find? fun x => !p x := by
  induction l with
  | nil => rfl
  | cons x l ih =>
      by_cases hx : p x = true
      · rw [List.takeWhile_cons_of_pos hx, List.length_cons, List.getElem?_cons_succ, ih,
          List.find?_cons_of_neg (by simp [hx])]
      · rw [List.takeWhile_cons_of_neg hx, List.find?_cons_of_pos (by simp [hx])]
        rfl

theorem getElem?_searchsortedLeft {α : Type u} (key : α → τ) (l : List α) (value : τ) :
    l[searchsortedLeft (l.map key) value]? = l.find? fun x => value ≤ key x := by
  have hlength : searchsortedLeft (l.map key) value =
      (l.takeWhile fun x => decide (key x < value)).length := by
    rw [searchsortedLeft, List.takeWhile_map, List.length_map]
    rfl
  rw [hlength, getElem?_length_takeWhile]
  congr 1
  funext x
  simp [← not_lt]

theorem find?_eq_some_iff_of_pairwise {α : Type u} {r : α → α → Prop} {p : α → Bool} {l : List α}
    (hpair : l.Pairwise r) (hasymm : ∀ x y, r x y → ¬ r y x) {x : α} :
    l.find? p = some x ↔ x ∈ l ∧ p x = true ∧ ∀ y ∈ l, p y = true → y = x ∨ r x y := by
  induction hpair with
  | nil => simp
  | @cons z l hz _ ih =>
      by_cases hpz : p z = true
      · rw [List.find?_cons_of_pos hpz]
        constructor
        · rintro ⟨⟩
          refine ⟨List.mem_cons_self, hpz, fun y hy _ => ?_⟩
          exact (List.mem_cons.mp hy).imp id (hz y)
        · rintro ⟨hx, -, hfirst⟩
          rcases List.mem_cons.mp hx with rfl | hx
          · rfl
          · rcases hfirst z List.mem_cons_self hpz with rfl | hr
            · rfl
            · exact absurd hr (hasymm z x (hz x hx))
      · rw [List.find?_cons_of_neg hpz, ih]
        constructor
        · rintro ⟨hx, hpx, hfirst⟩
          refine ⟨List.mem_cons_of_mem z hx, hpx, fun y hy hpy => ?_⟩
          rcases List.mem_cons.mp hy with rfl | hy
          · exact absurd hpy hpz
          · exact hfirst y hy hpy
        · rintro ⟨hx, hpx, hfirst⟩
          rcases List.mem_cons.mp hx with rfl | hx
          · exact absurd hpx hpz
          · exact ⟨hx, hpx, fun y hy => hfirst y (List.mem_cons_of_mem z hy)⟩

/-- A binary search in the closes, sorted with equal ones in label order, finds the first
label to close at or after an instant. -/
theorem getElem?_searchsortedLeft_eq_some_iff (hlabels : labels.Pairwise (· < ·)) :
    ((sortedBy Prod.snd (labels.map fun s => (s, close s)))[searchsortedLeft
      ((sortedBy Prod.snd (labels.map fun s => (s, close s))).map Prod.snd) a]?).map Prod.fst =
        some s ↔ FirstClose labels close a s := by
  have hpair : (labels.map fun s => (s, close s)).Pairwise fun x y => x.1 < y.1 :=
    List.pairwise_map.mpr hlabels
  have hasymm : ∀ x y : σ × τ, (x.2 < y.2 ∨ x.2 = y.2 ∧ x.1 < y.1) →
      ¬ (y.2 < x.2 ∨ y.2 = x.2 ∧ y.1 < x.1) := by
    rintro x y (hxy | ⟨hxy, hlt⟩) (hyx | ⟨hyx, hgt⟩)
    · exact lt_asymm hxy hyx
    · exact hxy.ne hyx.symm
    · exact hyx.ne hxy.symm
    · exact lt_asymm hlt hgt
  have hmem : ∀ x : σ × τ, x ∈ sortedBy Prod.snd (labels.map fun s => (s, close s)) ↔
      x.1 ∈ labels ∧ x.2 = close x.1 := by
    intro x
    rw [mem_sortedBy, List.mem_map]
    constructor
    · rintro ⟨u, hu, rfl⟩
      exact ⟨hu, rfl⟩
    · rintro ⟨hx, hclose⟩
      exact ⟨x.1, hx, by rw [← hclose]⟩
  rw [getElem?_searchsortedLeft, Option.map_eq_some_iff]
  constructor
  · rintro ⟨x, hx, rfl⟩
    obtain ⟨hx, hle, hfirst⟩ :=
      (find?_eq_some_iff_of_pairwise (pairwise_sortedBy_of_pairwise hpair) hasymm).mp hx
    obtain ⟨hlabel, hclose⟩ := (hmem x).mp hx
    refine ⟨hlabel, by simpa [hclose] using hle, fun t ht hat => ?_⟩
    rcases hfirst (t, close t) ((hmem _).mpr ⟨ht, rfl⟩) (by simpa using hat) with rfl | hlt
    · exact le_rfl
    · rw [hclose] at hlt
      exact (closing_lt_iff.mpr hlt).le
  · intro h
    refine ⟨(s, close s), ?_, rfl⟩
    refine (find?_eq_some_iff_of_pairwise (pairwise_sortedBy_of_pairwise hpair) hasymm).mpr
      ⟨(hmem _).mpr ⟨h.mem, rfl⟩, by simpa using h.le, fun y hy hay => ?_⟩
    obtain ⟨hlabel, hclose⟩ := (hmem y).mp hy
    have hle := h.first y.1 hlabel (by simpa [hclose] using hay)
    rcases hle.eq_or_lt with heq | hlt
    · have hs := eq_of_closing_eq heq
      exact .inl (Prod.ext hs.symm (by rw [hclose, hs]))
    · rw [closing_lt_iff, ← hclose] at hlt
      exact .inr hlt

end FirstClose
