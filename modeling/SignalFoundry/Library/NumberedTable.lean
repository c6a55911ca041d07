import Mathlib.Algebra.Group.Nat.Defs
import Mathlib.Data.List.Nodup
import Mathlib.Data.List.Range
import Mathlib.Tactic.Common

/-!
# Tables with sequence numbers

A table that only grows hands its rows the numbers from one on, so later rows carry
greater numbers and a number tells how many rows came before.
-/

/-- The rows of a table carry the sequence numbers from one on, as an `AUTOINCREMENT` column
hands them out. -/
structure Numbered {R : Type} (sequence : R → ℕ) (rows : List R) : Prop where
  sequences : rows.map sequence = List.range' 1 rows.length
  length_le : rows.length ≤ 2 ^ 63 - 1

namespace Numbered

variable {R : Type} {sequence : R → ℕ} {rows : List R} {row : R}

theorem nil (sequence : R → ℕ) : Numbered sequence [] := ⟨rfl, Nat.zero_le _⟩

theorem append_singleton (h : Numbered sequence rows) (hrow : sequence row = rows.length + 1)
    (hlength : rows.length + 1 ≤ 2 ^ 63 - 1) : Numbered sequence (rows ++ [row]) where
  sequences := by
    rw [List.map_append, h.sequences, List.length_append, List.length_singleton,
      List.range'_1_concat, List.map_singleton, hrow, Nat.add_comm 1]
  length_le := by rw [List.length_append, List.length_singleton]; exact hlength

theorem of_map_eq {rows' : List R} (h : Numbered sequence rows)
    (heq : rows'.map sequence = rows.map sequence) : Numbered sequence rows' := by
  have hlength := congrArg List.length heq
  rw [List.length_map, List.length_map] at hlength
  exact ⟨by rw [heq, hlength, h.sequences], hlength ▸ h.length_le⟩

theorem bounds (h : Numbered sequence rows) (hrow : row ∈ rows) :
    1 ≤ sequence row ∧ sequence row ≤ rows.length := by
  have hmem := List.mem_map_of_mem (f := sequence) hrow
  rw [h.sequences, List.mem_range'_1] at hmem
  omega

/-- Later rows carry greater numbers. -/
theorem length_lt_of_mem {rows' : List R} (h : Numbered sequence (rows ++ rows'))
    (hrow : row ∈ rows') : rows.length < sequence row := by
  have hmap := h.sequences
  rw [List.map_append, List.length_append, ← List.range'_append_1] at hmap
  have htail := (List.append_inj hmap (by simp)).2
  have hmem := List.mem_map_of_mem (f := sequence) hrow
  rw [htail, List.mem_range'_1] at hmem
  omega

end Numbered
