import SignalFoundry.Library.OrderedDict

/-!
# Collecting elements by key

A receiver that files what it is sent under a key keeps one element for each
key, drops what it already has and refuses a key that comes back with another
element. Which elements it ends up with depends on the set of elements sent and
on nothing else: neither on their order nor on their repetitions. Sorted by key,
they are one list.
-/

namespace KeyedTable

universe u v

variable {K : Type u} {α : Type v} [DecidableEq K]

/-- Files elements under their keys. A key that comes back with another element
is refused, with what is on file. -/
def collect [DecidableEq α] (key : α → K) (table : OrderedDict K α) :
    List α → Except (α × α) (OrderedDict K α)
  | [] => .ok table
  | x :: rest =>
      match table.get? (key x) with
      | none => collect key (table.set (key x) x) rest
      | some existing => if existing = x then collect key table rest else .error (existing, x)

/-- Elements under the same key are the same. -/
def Coherent (key : α → K) (elements : Set α) : Prop :=
  ∀ x ∈ elements, ∀ y ∈ elements, key x = key y → x = y

/-- Every element is on file under its own key. -/
def Filed (key : α → K) (table : OrderedDict K α) : Prop :=
  ∀ k x, table.get? k = some x → key x = k

/-- The elements on file. -/
def contents (table : OrderedDict K α) : Set α := {x | ∃ k, table.get? k = some x}

variable {key : α → K} {table : OrderedDict K α}

theorem contents_empty : contents (.empty : OrderedDict K α) = ∅ := by
  ext x
  simp [contents]

theorem filed_empty (key : α → K) : Filed key (.empty : OrderedDict K α) := by
  intro k x hx
  simp at hx

theorem Filed.get?_key (h : Filed key table) {x : α} (hx : x ∈ contents table) :
    table.get? (key x) = some x := by
  obtain ⟨k, hk⟩ := hx
  rwa [h k x hk]

/-- What is on file is coherent. -/
theorem Filed.coherent (h : Filed key table) : Coherent key (contents table) := by
  intro x hx y hy hkey
  have hsame := h.get?_key hx
  rw [hkey, h.get?_key hy] at hsame
  exact (Option.some.inj hsame).symm

theorem Filed.set (h : Filed key table) (x : α) : Filed key (table.set (key x) x) := by
  intro k y hy
  rw [OrderedDict.get?_set] at hy
  split at hy
  · next hk =>
    cases hy
    exact hk.symm
  · exact h k y hy

theorem contents_set {x : α} (h : table.get? (key x) = none) :
    contents (table.set (key x) x) = insert x (contents table) := by
  ext y
  constructor
  · rintro ⟨k, hk⟩
    rw [OrderedDict.get?_set] at hk
    split at hk
    · exact .inl (Option.some.inj hk).symm
    · exact .inr ⟨k, hk⟩
  · rintro (rfl | ⟨k, hk⟩)
    · exact ⟨key y, OrderedDict.get?_set_self _ _ _⟩
    · have hne : k ≠ key x := by
        rintro rfl
        rw [h] at hk
        cases hk
      exact ⟨k, by rw [OrderedDict.get?_set_of_ne _ _ hne, hk]⟩

/-- Elements are collected exactly when they agree with each other and with what
is on file, and then they are what is added to it. -/
theorem collect_cases [DecidableEq α] (h : Filed key table) (xs : List α) :
    (Coherent key (contents table ∪ {x | x ∈ xs}) ∧
      ∃ collected, collect key table xs = .ok collected ∧ Filed key collected ∧
        contents collected = contents table ∪ {x | x ∈ xs}) ∨
    (¬ Coherent key (contents table ∪ {x | x ∈ xs}) ∧
      ∃ clash, collect key table xs = .error clash) := by
  induction xs generalizing table with
  | nil =>
      have hnil : contents table ∪ {x | x ∈ ([] : List α)} = contents table := by simp
      rw [hnil]
      exact .inl ⟨h.coherent, table, rfl, h, rfl⟩
  | cons x rest ih =>
      have hcons : contents table ∪ {y | y ∈ x :: rest} =
          insert x (contents table) ∪ {y | y ∈ rest} := by
        ext y
        simp only [Set.mem_union, Set.mem_ofPred_eq, List.mem_cons, Set.mem_insert_iff]
        tauto
      rw [hcons]
      unfold collect
      cases hget : table.get? (key x) with
      | none =>
          simp only
          rw [← contents_set hget]
          exact ih (h.set x)
      | some existing =>
          have hfiled : existing ∈ contents table := ⟨_, hget⟩
          by_cases hsame : existing = x
          · subst hsame
            simp only [if_true, Set.insert_eq_of_mem hfiled]
            exact ih h
          · refine .inr ⟨fun hcoherent => hsame ?_, (existing, x), by simp only [if_neg hsame]⟩
            exact hcoherent existing (.inl (.inr hfiled)) x (.inl (.inl rfl)) (h _ _ hget)

/-! ## Order of the keys -/

/-- The elements on file in the order of their keys. -/
def sorted [LinearOrder K] (key : α → K) (table : OrderedDict K α) : List α :=
  table.values.insertionSort fun x y => key x ≤ key y

theorem mem_contents_iff {x : α} : x ∈ contents table ↔ x ∈ table.values := by
  constructor
  · rintro ⟨k, hk⟩
    exact List.mem_map_of_mem (OrderedDict.get?_eq_some_iff.mp hk)
  · intro hx
    obtain ⟨⟨k, y⟩, hmem, rfl⟩ := List.mem_map.mp hx
    exact ⟨k, OrderedDict.get?_eq_some_iff.mpr hmem⟩

theorem Filed.nodup_values (h : Filed key table) : table.values.Nodup := by
  have hkeys : table.values.map key = table.keys := by
    rw [OrderedDict.values, List.map_map]
    refine List.map_congr_left fun p hp => ?_
    exact h p.1 p.2 (OrderedDict.get?_eq_some_iff.mpr hp)
  exact List.Nodup.of_map key (hkeys ▸ table.nodup_keys)

/-- Two tables that file the same elements sort them to one list. -/
theorem sorted_eq_of_contents [LinearOrder K] {other : OrderedDict K α} (h : Filed key table)
    (hother : Filed key other) (hcontents : contents table = contents other) :
    sorted key table = sorted key other := by
  have hperm : table.values.Perm other.values :=
    (List.perm_ext_iff_of_nodup h.nodup_values hother.nodup_values).mpr fun x => by
      rw [← mem_contents_iff, ← mem_contents_iff, hcontents]
  have hsorted (t : OrderedDict K α) : (sorted key t).Perm t.values :=
    List.perm_insertionSort _ _
  have hpairwise (t : OrderedDict K α) : (sorted key t).Pairwise fun x y => key x ≤ key y :=
    List.pairwise_insertionSort _ _
  refine List.Perm.eq_of_pairwise ?_ (hpairwise table) (hpairwise other)
    ((hsorted table).trans (hperm.trans (hsorted other).symm))
  intro x y hx hy hxy hyx
  have hx' : x ∈ contents table := mem_contents_iff.mpr ((hsorted table).mem_iff.mp hx)
  have hy' : y ∈ contents table := by
    rw [hcontents]
    exact mem_contents_iff.mpr ((hsorted other).mem_iff.mp hy)
  exact h.coherent x hx' y hy' (le_antisymm hxy hyx)

theorem mem_sorted [LinearOrder K] {x : α} : x ∈ sorted key table ↔ x ∈ contents table := by
  rw [mem_contents_iff, sorted, List.mem_insertionSort]

end KeyedTable
