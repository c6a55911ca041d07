import Mathlib.Data.List.Range
import Mathlib.Data.List.SplitLengths
import Mathlib.Data.Nat.Choose.Basic
import Mathlib.Tactic.Ring

/-!
# Splitting and choosing

`numpy.array_split` cuts a list into contiguous parts whose lengths differ by at most
one, and `itertools.combinations` chooses sublists of one length in lexicographic order.
The parts of a range are ranges, and an element is chosen as often as the rest of a
choice can be made among the others.
-/

namespace Splitting

universe u

variable {α : Type u}

/-! ## Contiguous parts -/

/-- The lengths of the parts: the first ones take the remainder. -/
def partLengths (count length : ℕ) : List ℕ :=
  List.replicate (length % count) (length / count + 1) ++
    List.replicate (count - length % count) (length / count)

/-- `np.array_split(l, count)`. -/
def arraySplit (count : ℕ) (l : List α) : List (List α) :=
  (partLengths count l.length).splitLengths l

variable {count : ℕ} {l : List α}

theorem sum_partLengths (hcount : 0 < count) (length : ℕ) :
    (partLengths count length).sum = length := by
  have hlt := Nat.mod_lt length hcount
  rw [partLengths, List.sum_append, List.sum_replicate_nat, List.sum_replicate_nat]
  have hsplit : length % count + (count - length % count) = count := by omega
  calc length % count * (length / count + 1) + (count - length % count) * (length / count)
      = (length % count + (count - length % count)) * (length / count) + length % count := by ring
    _ = length := by rw [hsplit, Nat.div_add_mod]

@[simp] theorem length_arraySplit (hcount : 0 < count) (l : List α) :
    (arraySplit count l).length = count := by
  have hlt := Nat.mod_lt l.length hcount
  simp only [arraySplit, List.length_splitLengths, partLengths, List.length_append,
    List.length_replicate]
  omega

/-- The parts together are the list. -/
theorem flatten_arraySplit (hcount : 0 < count) (l : List α) : (arraySplit count l).flatten = l :=
  List.flatten_splitLengths l _ (sum_partLengths hcount l.length).ge

/-- No part is empty when there are enough elements. -/
theorem ne_nil_of_mem_arraySplit (hcount : 0 < count) (hle : count ≤ l.length) {part : List α}
    (hpart : part ∈ arraySplit count l) : part ≠ [] := by
  have hlengths := List.map_splitLengths_length l (partLengths count l.length)
    (sum_partLengths hcount l.length).le
  have hmem : part.length ∈ partLengths count l.length :=
    hlengths ▸ List.mem_map_of_mem (f := List.length) hpart
  have hquotient := Nat.div_pos hle hcount
  rintro rfl
  rcases List.mem_append.mp hmem with hlong | hshort
  · exact absurd (List.eq_of_mem_replicate hlong) (by simp)
  · exact absurd (List.eq_of_mem_replicate hshort) (by simp only [List.length_nil]; omega)

/-- The parts of a range are ranges. -/
theorem exists_range'_of_mem_splitLengths {lengths : List ℕ} {start length : ℕ} {part : List ℕ}
    (hpart : part ∈ lengths.splitLengths (List.range' start length)) :
    ∃ first size, part = List.range' first size := by
  induction lengths generalizing start length with
  | nil => cases hpart
  | cons n lengths ih =>
      rw [List.splitLengths_cons, List.drop_range'] at hpart
      rcases List.mem_cons.mp hpart with rfl | hrest
      · rcases le_total n length with hle | hle
        · exact ⟨start, n, List.take_range'_of_length_ge hle⟩
        · exact ⟨start, length, List.take_range'_of_length_le hle⟩
      · exact ih hrest

/-! ## Choices -/

/-- `itertools.combinations(l, count)`. -/
def combinations : ℕ → List α → List (List α)
  | 0, _ => [[]]
  | _ + 1, [] => []
  | count + 1, a :: l => (combinations count l).map (a :: ·) ++ combinations (count + 1) l

theorem length_combinations (count : ℕ) (l : List α) :
    (combinations count l).length = l.length.choose count := by
  induction l generalizing count with
  | nil => cases count <;> rfl
  | cons a l ih =>
      cases count with
      | zero => simp [combinations]
      | succ count =>
          rw [combinations, List.length_append, List.length_map, ih, ih, List.length_cons,
            Nat.choose_succ_succ]

theorem sublist_of_mem_combinations {count : ℕ} {l choice : List α}
    (h : choice ∈ combinations count l) : choice.Sublist l ∧ choice.length = count := by
  induction l generalizing count choice with
  | nil =>
      cases count with
      | zero =>
          obtain rfl := List.mem_singleton.mp h
          exact ⟨.slnil, rfl⟩
      | succ count => cases h
  | cons a l ih =>
      cases count with
      | zero =>
          obtain rfl := List.mem_singleton.mp h
          exact ⟨List.nil_sublist _, rfl⟩
      | succ count =>
          rcases List.mem_append.mp h with hwith | hwithout
          · obtain ⟨rest, hrest, rfl⟩ := List.mem_map.mp hwith
            obtain ⟨hsublist, hlength⟩ := ih hrest
            exact ⟨hsublist.cons_cons a, by rw [List.length_cons, hlength]⟩
          · obtain ⟨hsublist, hlength⟩ := ih hwithout
            exact ⟨hsublist.cons a, hlength⟩

variable [DecidableEq α]

/-- An element is in as many choices as there are choices of the others. -/
theorem countP_mem_combinations {a : α} (count : ℕ) {l : List α} (hl : l.Nodup) (ha : a ∈ l) :
    (combinations (count + 1) l).countP (a ∈ ·) = (l.length - 1).choose count := by
  induction l generalizing count with
  | nil => cases ha
  | cons b l ih =>
      obtain ⟨hb, hl⟩ := List.nodup_cons.mp hl
      rw [combinations, List.countP_append, List.countP_map, List.length_cons, Nat.add_sub_cancel]
      by_cases hab : a = b
      · subst hab
        have hall : (combinations count l).countP ((fun choice : List α => decide (a ∈ choice)) ∘
            (a :: ·)) = l.length.choose count := by
          rw [List.countP_eq_length.mpr (by simp), length_combinations]
        have hnone : (combinations (count + 1) l).countP (fun choice => decide (a ∈ choice)) = 0 := by
          refine List.countP_eq_zero.mpr fun choice hchoice => ?_
          have hsublist := (sublist_of_mem_combinations hchoice).1
          simpa using fun hmem => hb (hsublist.subset hmem)
        rw [hall, hnone, Nat.add_zero]
      · have hmem : a ∈ l := (List.mem_cons.mp ha).resolve_left hab
        have hpos : 0 < l.length := List.length_pos_of_mem hmem
        have hwith : (combinations count l).countP ((fun choice : List α => decide (a ∈ choice)) ∘
            (b :: ·)) = (combinations count l).countP (a ∈ ·) := by
          refine List.countP_congr fun choice _ => ?_
          simp [hab]
        rw [hwith, ih count hl hmem]
        obtain ⟨n, hn⟩ : ∃ n, l.length = n + 1 := ⟨l.length - 1, by omega⟩
        cases count with
        | zero =>
            have hnone : (combinations 0 l).countP (a ∈ ·) = 0 := by simp [combinations]
            rw [hnone, Nat.choose_zero_right, Nat.choose_zero_right]
        | succ count =>
            rw [ih count hl hmem, hn, Nat.add_sub_cancel, Nat.choose_succ_succ]

end Splitting
