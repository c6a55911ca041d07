import SignalFoundry.Library.Json.RoundTrip

/-!
# Measures of documents

Sums over the values, the keys and the separators of a document, and the depth of
its brackets. Neither depends on the order of members, so a document and its
sorted form measure the same.
-/

namespace Json

variable {F : Type}

/-- What the parts of a document add to a sum. -/
structure Weights (F : Type) where
  /-- A value that is neither an array nor an object. -/
  scalar : Json F → ℕ
  /-- The brackets of an array or an object. -/
  brackets : ℕ
  /-- A key with its colon. -/
  key : String → ℕ
  /-- A comma. -/
  comma : ℕ

mutual

def weight (w : Weights F) : Json F → ℕ
  | arr items => w.brackets + itemsWeight w items + w.comma * (items.length - 1)
  | obj members => w.brackets + membersWeight w members + w.comma * (members.length - 1)
  | v => w.scalar v

def itemsWeight (w : Weights F) : List (Json F) → ℕ
  | [] => 0
  | v :: rest => weight w v + itemsWeight w rest

def membersWeight (w : Weights F) : List (String × Json F) → ℕ
  | [] => 0
  | (k, v) :: rest => w.key k + weight w v + membersWeight w rest

end

theorem weight_of_scalar (w : Weights F) {v : Json F} (harr : ∀ items, v ≠ arr items)
    (hobj : ∀ members, v ≠ obj members) : weight w v = w.scalar v := by
  cases v with
  | arr items => exact absurd rfl (harr items)
  | obj members => exact absurd rfl (hobj members)
  | _ => simp only [weight]

theorem itemsWeight_eq_sum (w : Weights F) (items : List (Json F)) :
    itemsWeight w items = (items.map (weight w)).sum := by
  induction items with
  | nil => rfl
  | cons v items ih => rw [itemsWeight, ih, List.map_cons, List.sum_cons]

theorem membersWeight_eq_sum (w : Weights F) (members : List (String × Json F)) :
    membersWeight w members = (members.map fun m => w.key m.1 + weight w m.2).sum := by
  induction members with
  | nil => rfl
  | cons m members ih =>
      obtain ⟨k, v⟩ := m
      rw [membersWeight, ih, List.map_cons, List.sum_cons]

theorem membersWeight_perm (w : Weights F) {members members' : List (String × Json F)}
    (h : members.Perm members') : membersWeight w members = membersWeight w members' := by
  rw [membersWeight_eq_sum, membersWeight_eq_sum]
  exact (h.map _).sum_eq

theorem length_sortedMembers (members : List (String × Json F)) :
    (sortedMembers members).length = members.length := by
  rw [← List.length_map Prod.fst, map_fst_sortedMembers, List.length_map]

theorem length_sortedDict (members : List (String × Json F)) :
    (sortedDict members).length = members.length :=
  (perm_sortedDict members).length_eq.trans (length_sortedMembers members)

theorem length_sortedItems (items : List (Json F)) :
    (sortedItems items).length = items.length := by
  induction items with
  | nil => rfl
  | cons v items ih => rw [sortedItems, List.length_cons, ih, List.length_cons]

mutual

theorem weight_sorted (w : Weights F) : ∀ v : Json F, weight w v.sorted = weight w v
  | arr items => by
      rw [sorted, weight, weight, itemsWeight_sorted w items, length_sortedItems]
  | obj members => by
      rw [sorted_obj, weight, weight, membersWeight_perm w (perm_sortedDict members),
        membersWeight_sorted w members, length_sortedDict]
  | null | bool _ | int _ | float _ | str _ => by simp only [sorted]

theorem itemsWeight_sorted (w : Weights F) : ∀ items : List (Json F),
    itemsWeight w (sortedItems items) = itemsWeight w items
  | [] => rfl
  | v :: rest => by
      rw [sortedItems, itemsWeight, itemsWeight, weight_sorted w v, itemsWeight_sorted w rest]

theorem membersWeight_sorted (w : Weights F) : ∀ members : List (String × Json F),
    membersWeight w (sortedMembers members) = membersWeight w members
  | [] => rfl
  | (k, v) :: rest => by
      rw [sortedMembers, membersWeight, membersWeight, weight_sorted w v,
        membersWeight_sorted w rest]

end

/-! ## Nesting -/

mutual

/-- The brackets around the innermost part. -/
def nesting : Json F → ℕ
  | arr items => itemsNesting items + 1
  | obj members => membersNesting members + 1
  | _ => 0

def itemsNesting : List (Json F) → ℕ
  | [] => 0
  | v :: rest => max (nesting v) (itemsNesting rest)

def membersNesting : List (String × Json F) → ℕ
  | [] => 0
  | (_, v) :: rest => max (nesting v) (membersNesting rest)

end

theorem membersNesting_le_iff {members : List (String × Json F)} {n : ℕ} :
    membersNesting members ≤ n ↔ ∀ m ∈ members, nesting m.2 ≤ n := by
  induction members with
  | nil => simp [membersNesting]
  | cons m members ih => simp [membersNesting, ih]

theorem itemsNesting_le_iff {items : List (Json F)} {n : ℕ} :
    itemsNesting items ≤ n ↔ ∀ v ∈ items, nesting v ≤ n := by
  induction items with
  | nil => simp [itemsNesting]
  | cons v items ih => simp [itemsNesting, ih]

mutual

theorem nesting_sorted : ∀ v : Json F, nesting v.sorted = nesting v
  | arr items => by rw [sorted, nesting, nesting, itemsNesting_sorted items]
  | obj members => by
      have hperm : membersNesting (sortedDict members) = membersNesting (sortedMembers members) :=
        eq_of_forall_ge_iff fun n => by
          simp only [membersNesting_le_iff, (perm_sortedDict members).mem_iff]
      rw [sorted_obj, nesting, nesting, hperm, membersNesting_sorted members]
  | null | bool _ | int _ | float _ | str _ => by simp only [sorted]

theorem itemsNesting_sorted : ∀ items : List (Json F),
    itemsNesting (sortedItems items) = itemsNesting items
  | [] => rfl
  | v :: rest => by
      rw [sortedItems, itemsNesting, itemsNesting, nesting_sorted v, itemsNesting_sorted rest]

theorem membersNesting_sorted : ∀ members : List (String × Json F),
    membersNesting (sortedMembers members) = membersNesting members
  | [] => rfl
  | (k, v) :: rest => by
      rw [sortedMembers, membersNesting, membersNesting, nesting_sorted v,
        membersNesting_sorted rest]

end

/-! ## Conditions on every value -/

/-- A condition on the scalars and the keys of a document, under the number of
brackets around them. -/
structure Rules (F : Type) where
  scalar : Json F → Prop
  key : String → Prop
  depth : ℕ

mutual

/-- Every part of a document at a depth meets the rules. -/
def Meets (r : Rules F) : ℕ → Json F → Prop
  | depth, arr items => depth ≤ r.depth ∧ ItemsMeet r depth items
  | depth, obj members => depth ≤ r.depth ∧ MembersMeet r depth members
  | depth, v => depth ≤ r.depth ∧ r.scalar v

def ItemsMeet (r : Rules F) : ℕ → List (Json F) → Prop
  | _, [] => True
  | depth, v :: rest => Meets r (depth + 1) v ∧ ItemsMeet r depth rest

def MembersMeet (r : Rules F) : ℕ → List (String × Json F) → Prop
  | _, [] => True
  | depth, (k, v) :: rest => (r.key k ∧ Meets r (depth + 1) v) ∧ MembersMeet r depth rest

end

theorem meets_of_scalar (r : Rules F) {v : Json F} (harr : ∀ items, v ≠ arr items)
    (hobj : ∀ members, v ≠ obj members) (depth : ℕ) :
    Meets r depth v ↔ depth ≤ r.depth ∧ r.scalar v := by
  cases v with
  | arr items => exact absurd rfl (harr items)
  | obj members => exact absurd rfl (hobj members)
  | _ => simp only [Meets]

theorem itemsMeet_iff (r : Rules F) (depth : ℕ) (items : List (Json F)) :
    ItemsMeet r depth items ↔ ∀ v ∈ items, Meets r (depth + 1) v := by
  induction items with
  | nil => simp [ItemsMeet]
  | cons v items ih => simp [ItemsMeet, ih]

theorem membersMeet_iff (r : Rules F) (depth : ℕ) (members : List (String × Json F)) :
    MembersMeet r depth members ↔ ∀ m ∈ members, r.key m.1 ∧ Meets r (depth + 1) m.2 := by
  induction members with
  | nil => simp [MembersMeet]
  | cons m members ih => simp [MembersMeet, ih]

mutual

theorem meets_sorted (r : Rules F) : ∀ (depth : ℕ) (v : Json F),
    Meets r depth v.sorted ↔ Meets r depth v
  | depth, arr items => by
      rw [sorted, Meets, Meets, itemsMeet_sorted r depth items]
  | depth, obj members => by
      have hperm : MembersMeet r depth (sortedDict members) ↔
          MembersMeet r depth (sortedMembers members) := by
        simp only [membersMeet_iff, (perm_sortedDict members).mem_iff]
      rw [sorted_obj, Meets, Meets, hperm, membersMeet_sorted r depth members]
  | _, null | _, bool _ | _, int _ | _, float _ | _, str _ => by simp only [sorted]

theorem itemsMeet_sorted (r : Rules F) : ∀ (depth : ℕ) (items : List (Json F)),
    ItemsMeet r depth (sortedItems items) ↔ ItemsMeet r depth items
  | _, [] => .rfl
  | depth, v :: rest => by
      rw [sortedItems, ItemsMeet, ItemsMeet, meets_sorted r (depth + 1) v,
        itemsMeet_sorted r depth rest]

theorem membersMeet_sorted (r : Rules F) : ∀ (depth : ℕ) (members : List (String × Json F)),
    MembersMeet r depth (sortedMembers members) ↔ MembersMeet r depth members
  | _, [] => .rfl
  | depth, (k, v) :: rest => by
      rw [sortedMembers, MembersMeet, MembersMeet, meets_sorted r (depth + 1) v,
        membersMeet_sorted r depth rest]

end

/-! ## Sorting twice -/

theorem sortedMembers_eq_map (members : List (String × Json F)) :
    sortedMembers members = members.map fun m => (m.1, m.2.sorted) := by
  induction members with
  | nil => rfl
  | cons m members ih => rw [sortedMembers, ih, List.map_cons]

theorem sortedDict_of_sorted {members : List (String × Json F)}
    (hvalues : ∀ m ∈ members, m.2.sorted = m.2) (hkeys : members.Pairwise (·.1 ≤ ·.1)) :
    sortedDict members = members := by
  have hmap : sortedMembers members = members := by
    rw [sortedMembers_eq_map]
    have hsame : members.map (fun m => (m.1, m.2.sorted)) = members.map id :=
      List.map_congr_left fun m hm => Prod.ext rfl (hvalues m hm)
    rw [hsame, List.map_id]
  rw [sortedDict, hmap, hkeys.insertionSort_eq]

mutual

theorem sorted_sorted : ∀ v : Json F, v.sorted.sorted = v.sorted
  | arr items => by rw [sorted, sorted, sortedItems_sortedItems items]
  | obj members => by
      have hvalues : ∀ m ∈ sortedDict members, m.2.sorted = m.2 := by
        intro m hm
        have hmem := (perm_sortedDict members).mem_iff.mp hm
        exact sorted_of_mem_sortedMembers members m hmem
      rw [sorted_obj, sorted_obj,
        sortedDict_of_sorted hvalues (List.pairwise_insertionSort _ (sortedMembers members))]
  | null | bool _ | int _ | float _ | str _ => by simp only [sorted]

theorem sortedItems_sortedItems : ∀ items : List (Json F),
    sortedItems (sortedItems items) = sortedItems items
  | [] => rfl
  | v :: rest => by
      rw [sortedItems, sortedItems, sorted_sorted v, sortedItems_sortedItems rest]

theorem sorted_of_mem_sortedMembers : ∀ (members : List (String × Json F)) (m : String × Json F),
    m ∈ sortedMembers members → m.2.sorted = m.2
  | [], _, h => absurd h List.not_mem_nil
  | (k, v) :: rest, m, h => by
      rw [sortedMembers, List.mem_cons] at h
      rcases h with rfl | h
      · exact sorted_sorted v
      · exact sorted_of_mem_sortedMembers rest m h

end

end Json
