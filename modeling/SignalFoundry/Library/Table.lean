import Mathlib.Data.List.Nodup

/-!
# Tables with a key

The rows of a table in the order of their insertion, with a function that reads
the key of a row. `find` selects by the key, `update` changes the rows of one key
in place and `upsert` replaces the row of a key or adds one. An update that
leaves keys alone keeps the list of keys, so keys that are unique stay unique.
-/

universe u v

namespace Table

variable {R : Type u} {K : Type v} [DecidableEq K] (key : R → K)

/-- `SELECT ... WHERE key = k`, of at most one row. -/
def find (k : K) (rows : List R) : Option R := rows.find? fun row => key row = k

/-- `UPDATE ... WHERE key = k`. -/
def update (k : K) (change : R → R) (rows : List R) : List R :=
  rows.map fun row => if key row = k then change row else row

/-- `INSERT ... ON CONFLICT(key) DO UPDATE`, where keys are unique. -/
def upsert (row : R) : List R → List R
  | [] => [row]
  | first :: rest => if key first = key row then row :: rest else first :: upsert row rest

variable {key} {k : K} {change : R → R} {rows : List R} {row : R}

theorem find_eq_none_iff : find key k rows = none ↔ ∀ row ∈ rows, key row ≠ k := by
  simp [find]

theorem mem_of_find (h : find key k rows = some row) : row ∈ rows :=
  List.mem_of_find?_eq_some h

theorem key_of_find (h : find key k rows = some row) : key row = k := by
  simpa using List.find?_some h

omit [DecidableEq K] in
/-- Rows with one key are one row. -/
theorem eq_of_key_eq (hnodup : (rows.map key).Nodup) {row' : R} (hrow : row ∈ rows)
    (hrow' : row' ∈ rows) (h : key row = key row') : row = row' :=
  List.inj_on_of_nodup_map hnodup hrow hrow' h

theorem find_eq_some_iff (hnodup : (rows.map key).Nodup) :
    find key k rows = some row ↔ row ∈ rows ∧ key row = k := by
  constructor
  · exact fun h => ⟨mem_of_find h, key_of_find h⟩
  · rintro ⟨hmem, hkey⟩
    obtain ⟨other, hother⟩ : ∃ other, find key k rows = some other := by
      rw [← Option.isSome_iff_exists, find, List.find?_isSome]
      exact ⟨row, hmem, by simpa using hkey⟩
    have hsame := eq_of_key_eq hnodup (mem_of_find hother) hmem
      ((key_of_find hother).trans hkey.symm)
    rw [hother, hsame]

theorem mem_update : row ∈ update key k change rows ↔
    (row ∈ rows ∧ key row ≠ k) ∨ ∃ old ∈ rows, key old = k ∧ row = change old := by
  rw [update, List.mem_map]
  constructor
  · rintro ⟨old, hold, rfl⟩
    by_cases heq : key old = k
    · exact .inr ⟨old, hold, heq, if_pos heq⟩
    · rw [if_neg heq]
      exact .inl ⟨hold, heq⟩
  · rintro (⟨hmem, hne⟩ | ⟨old, hold, heq, rfl⟩)
    · exact ⟨row, hmem, if_neg hne⟩
    · exact ⟨old, hold, if_pos heq⟩

/-- A field that the change leaves alone reads the same in every row. -/
theorem map_update {A : Type*} {field : R → A} (h : ∀ row, field (change row) = field row) :
    (update key k change rows).map field = rows.map field := by
  rw [update, List.map_map]
  apply List.map_congr_left
  intro row _
  by_cases heq : key row = k <;> simp [heq, h]

theorem length_update : (update key k change rows).length = rows.length :=
  List.length_map _

/-- Two changes of one row are one change. -/
theorem update_update {change' : R → R} (hkey : ∀ row, key (change row) = key row) :
    update key k change' (update key k change rows) =
      update key k (fun row => change' (change row)) rows := by
  rw [update, update, update, List.map_map]
  refine List.map_congr_left fun row _ => ?_
  by_cases h : key row = k
  · simp [h, hkey]
  · simp [h]

theorem update_of_not_mem (h : ∀ row ∈ rows, key row ≠ k) : update key k change rows = rows := by
  rw [update]
  conv_rhs => rw [← List.map_id rows]
  apply List.map_congr_left
  intro row hrow
  simp [h row hrow]

theorem find_update_self (hkey : ∀ row, key (change row) = key row)
    (h : find key k rows = some row) : find key k (update key k change rows) = some (change row) := by
  induction rows with
  | nil => cases h
  | cons first rows ih =>
      by_cases heq : key first = k
      · rw [find, List.find?_cons_of_pos (by simpa using heq)] at h
        cases h
        rw [find, update, List.map_cons, if_pos heq,
          List.find?_cons_of_pos (by simpa [hkey] using heq)]
      · rw [find, List.find?_cons_of_neg (by simpa using heq)] at h
        rw [find, update, List.map_cons, if_neg heq, List.find?_cons_of_neg (by simpa using heq)]
        exact ih h

theorem find_update_of_ne (hkey : ∀ row, key (change row) = key row) {k' : K} (hne : k' ≠ k) :
    find key k' (update key k change rows) = find key k' rows := by
  induction rows with
  | nil => rfl
  | cons first rows ih =>
      rw [find, update, List.map_cons] at *
      by_cases heq : key first = k
      · have hfirst : key first ≠ k' := fun h => hne (h.symm.trans heq)
        rw [if_pos heq, List.find?_cons_of_neg (by simpa [hkey] using hfirst), find,
          List.find?_cons_of_neg (by simpa using hfirst)]
        exact ih
      · rw [if_neg heq]
        by_cases hfirst : key first = k'
        · rw [List.find?_cons_of_pos (by simpa using hfirst), find,
            List.find?_cons_of_pos (by simpa using hfirst)]
        · rw [List.find?_cons_of_neg (by simpa using hfirst), find,
            List.find?_cons_of_neg (by simpa using hfirst)]
          exact ih

/-! ## Upserts -/

theorem find_cons {first : R} : find key k (first :: rows) =
    if key first = k then some first else find key k rows := by
  by_cases heq : key first = k
  · rw [find, List.find?_cons_of_pos (by simpa using heq), if_pos heq]
  · rw [find, List.find?_cons_of_neg (by simpa using heq), if_neg heq]
    rfl

theorem find_upsert : find key k (upsert key row rows) =
    if key row = k then some row else find key k rows := by
  induction rows with
  | nil => rw [upsert, find_cons]
  | cons first rows ih =>
      by_cases heq : key first = key row
      · rw [upsert, if_pos heq, find_cons, find_cons, heq]
        split <;> rfl
      · rw [upsert, if_neg heq, find_cons, find_cons, ih]
        by_cases hrow : key row = k
        · rw [if_pos hrow, if_neg (hrow ▸ heq), if_pos hrow]
        · rw [if_neg hrow, if_neg hrow]

theorem map_upsert : (upsert key row rows).map key =
    if key row ∈ rows.map key then rows.map key else rows.map key ++ [key row] := by
  induction rows with
  | nil => simp [upsert]
  | cons first rows ih =>
      by_cases heq : key first = key row
      · rw [upsert, if_pos heq, if_pos (by simp [heq]), List.map_cons, List.map_cons, heq]
      · rw [upsert, if_neg heq, List.map_cons, ih, List.map_cons]
        by_cases hmem : key row ∈ rows.map key
        · rw [if_pos hmem, if_pos (List.mem_cons_of_mem _ hmem)]
        · rw [if_neg hmem, if_neg (by simp [Ne.symm heq, hmem]), List.cons_append]

theorem upsert_of_not_mem (h : ∀ other ∈ rows, key other ≠ key row) :
    upsert key row rows = rows ++ [row] := by
  induction rows with
  | nil => rfl
  | cons first rows ih =>
      obtain ⟨hfirst, hrest⟩ := List.forall_mem_cons.mp h
      rw [upsert, if_neg hfirst, ih hrest, List.cons_append]

theorem mem_of_mem_upsert {other : R} (h : other ∈ upsert key row rows) :
    other = row ∨ other ∈ rows := by
  induction rows with
  | nil => exact .inl (List.mem_singleton.mp h)
  | cons first rest ih =>
      rw [upsert] at h
      split at h
      · exact (List.mem_cons.mp h).imp_right (List.mem_cons_of_mem first)
      · rcases List.mem_cons.mp h with rfl | hrest
        · exact .inr List.mem_cons_self
        · exact (ih hrest).imp_right (List.mem_cons_of_mem first)

theorem nodup_upsert (h : (rows.map key).Nodup) : ((upsert key row rows).map key).Nodup := by
  rw [map_upsert]
  split
  · exact h
  · next hmem =>
      exact List.nodup_append.mpr ⟨h, List.nodup_singleton _, fun a ha b hb heq =>
        hmem (List.mem_singleton.mp hb ▸ heq ▸ ha)⟩

end Table
