import Mathlib.Algebra.BigOperators.Group.List.Basic
import Mathlib.Algebra.Group.Basic
import Mathlib.Data.List.Nodup
import Mathlib.Data.List.Sort
import Mathlib.Tactic.Abel

/-!
# Insertion-ordered dictionaries

A dictionary that iterates in insertion order: setting a key that is present
keeps its place, setting a new key appends it. The items are a list of pairs
whose keys are distinct, so that reading a key and finding its pair among the
items are one statement (`get?_eq_some_iff`). Sums over the items change by the
term of the one key that a `set` or an `erase` touches; this is how an
accumulated total is compared with the dictionary it was accumulated from.
-/

universe u v w

/-- A dictionary in insertion order. -/
structure OrderedDict (K : Type u) (V : Type v) where
  items : List (K × V)
  nodup_keys : (items.map Prod.fst).Nodup

namespace OrderedDict

variable {K : Type u} {V : Type v}

@[ext] theorem ext {d e : OrderedDict K V} (h : d.items = e.items) : d = e := by
  cases d
  cases e
  cases h
  rfl

def empty : OrderedDict K V := ⟨[], List.nodup_nil⟩

def keys (d : OrderedDict K V) : List K := d.items.map Prod.fst

def values (d : OrderedDict K V) : List V := d.items.map Prod.snd

/-- The number of keys. -/
def size (d : OrderedDict K V) : ℕ := d.items.length

/-- The sum of a term for every item. -/
def sumOf {M : Type w} [Zero M] [Add M] (d : OrderedDict K V) (f : K → V → M) : M :=
  (d.items.map fun p => f p.1 p.2).sum

@[simp] theorem sumOf_empty {M : Type w} [AddCommMonoid M] (f : K → V → M) :
    (empty : OrderedDict K V).sumOf f = 0 := rfl

variable [DecidableEq K]

/-- `d.get(k)`. -/
def get? (d : OrderedDict K V) (k : K) : Option V := d.items.lookup k

/-- `d.get(k, default)`. -/
def getD (d : OrderedDict K V) (k : K) (default : V) : V := (d.get? k).getD default

/-- `d.pop(k, None)`. -/
def erase (d : OrderedDict K V) (k : K) : OrderedDict K V where
  items := d.items.filter fun p => p.1 ≠ k
  nodup_keys := d.nodup_keys.sublist (List.filter_sublist.map Prod.fst)

theorem get?_eq_some_iff {d : OrderedDict K V} {k : K} {v : V} :
    d.get? k = some v ↔ (k, v) ∈ d.items := by
  rw [get?, List.lookup_eq_some_iff]
  constructor
  · rintro ⟨before, after, hitems, -⟩
    simp [hitems]
  · intro hmem
    obtain ⟨before, after, hitems⟩ := List.append_of_mem hmem
    refine ⟨before, after, hitems, fun p hp => ?_⟩
    have hnodup := d.nodup_keys
    rw [hitems, List.map_append, List.nodup_append] at hnodup
    have hne : p.1 ≠ k := hnodup.2.2 p.1 (List.mem_map_of_mem hp) k (by simp)
    simpa using hne.symm

theorem mem_keys_iff {d : OrderedDict K V} {k : K} :
    k ∈ d.keys ↔ ∃ v, d.get? k = some v := by
  simp [keys, get?_eq_some_iff]

theorem get?_eq_none_iff {d : OrderedDict K V} {k : K} :
    d.get? k = none ↔ k ∉ d.keys := by
  rw [mem_keys_iff, Option.eq_none_iff_forall_ne_some]
  simp

/-- Dictionaries of the same items, in whatever order, are those that map alike. -/
theorem items_perm_iff {d e : OrderedDict K V} :
    d.items.Perm e.items ↔ ∀ k, d.get? k = e.get? k := by
  constructor
  · intro hperm k
    ext v
    rw [get?_eq_some_iff, get?_eq_some_iff, hperm.mem_iff]
  · intro h
    refine (List.perm_ext_iff_of_nodup (List.Nodup.of_map _ d.nodup_keys)
      (List.Nodup.of_map _ e.nodup_keys)).mpr ?_
    rintro ⟨k, v⟩
    rw [← get?_eq_some_iff, ← get?_eq_some_iff, h]

instance (d : OrderedDict K V) (k : K) : Decidable (k ∈ d.keys) :=
  inferInstanceAs (Decidable (k ∈ d.items.map Prod.fst))

@[simp] theorem get?_empty (k : K) : (empty : OrderedDict K V).get? k = none := rfl

@[simp] theorem getD_empty (k : K) (v : V) : (empty : OrderedDict K V).getD k v = v := rfl

theorem getD_of_some {d : OrderedDict K V} {k : K} {v w : V} (h : d.get? k = some v) :
    d.getD k w = v := by
  simp [getD, h]

theorem getD_of_none {d : OrderedDict K V} {k : K} {w : V} (h : d.get? k = none) :
    d.getD k w = w := by
  simp [getD, h]

/-- Overwriting a key in place leaves the list of keys as it was. -/
theorem map_fst_replace (items : List (K × V)) (k : K) (v : V) :
    (items.map fun p => if p.1 = k then (k, v) else p).map Prod.fst =
      items.map Prod.fst := by
  rw [List.map_map]
  apply List.map_congr_left
  intro p _
  by_cases hp : p.1 = k <;> simp [hp]

/-- `d[k] = v`. -/
def set (d : OrderedDict K V) (k : K) (v : V) : OrderedDict K V :=
  if h : k ∈ d.keys then
    { items := d.items.map fun p => if p.1 = k then (k, v) else p
      nodup_keys := by
        rw [map_fst_replace]
        exact d.nodup_keys }
  else
    { items := d.items ++ [(k, v)]
      nodup_keys := by
        rw [List.map_append, List.nodup_append]
        refine ⟨d.nodup_keys, List.nodup_singleton _, ?_⟩
        rintro a ha b hb rfl
        simp only [List.map_cons, List.map_nil, List.mem_singleton] at hb
        exact h (hb ▸ ha) }

theorem items_set_of_not_mem {d : OrderedDict K V} {k : K} (h : k ∉ d.keys) (v : V) :
    (d.set k v).items = d.items ++ [(k, v)] := by
  simp [set, h]

theorem items_set_of_mem {d : OrderedDict K V} {k : K} (h : k ∈ d.keys) (v : V) :
    (d.set k v).items = d.items.map fun p => if p.1 = k then (k, v) else p := by
  simp [set, h]

theorem mem_items_set {d : OrderedDict K V} {k : K} {v : V} {p : K × V} :
    p ∈ (d.set k v).items ↔ p = (k, v) ∨ (p ∈ d.items ∧ p.1 ≠ k) := by
  by_cases h : k ∈ d.keys
  · rw [items_set_of_mem h, List.mem_map]
    constructor
    · rintro ⟨q, hq, rfl⟩
      by_cases hqk : q.1 = k
      · simp [hqk]
      · simp [hqk, hq]
    · rintro (rfl | ⟨hp, hpk⟩)
      · obtain ⟨q, hq, hqk⟩ := List.mem_map.mp h
        exact ⟨q, hq, by simp [hqk]⟩
      · exact ⟨p, hp, by simp [hpk]⟩
  · rw [items_set_of_not_mem h]
    have hne : ∀ q ∈ d.items, q.1 ≠ k := fun q hq hqk =>
      h (hqk ▸ List.mem_map_of_mem hq)
    simp only [List.mem_append, List.mem_singleton]
    constructor
    · rintro (hp | rfl)
      · exact .inr ⟨hp, hne p hp⟩
      · exact .inl rfl
    · rintro (rfl | ⟨hp, -⟩)
      · exact .inr rfl
      · exact .inl hp

@[simp] theorem get?_set_self (d : OrderedDict K V) (k : K) (v : V) :
    (d.set k v).get? k = some v := by
  rw [get?_eq_some_iff, mem_items_set]
  exact .inl rfl

theorem get?_set_of_ne (d : OrderedDict K V) {j k : K} (v : V) (h : j ≠ k) :
    (d.set k v).get? j = d.get? j := by
  ext w
  rw [get?_eq_some_iff, mem_items_set, get?_eq_some_iff]
  simp [h]

theorem get?_set (d : OrderedDict K V) (j k : K) (v : V) :
    (d.set k v).get? j = if j = k then some v else d.get? j := by
  split
  · next h => rw [h, get?_set_self]
  · next h => exact get?_set_of_ne d v h

@[simp] theorem get?_erase_self (d : OrderedDict K V) (k : K) : (d.erase k).get? k = none := by
  rw [get?_eq_none_iff]
  simp [keys, erase]

theorem get?_erase_of_ne (d : OrderedDict K V) {j k : K} (h : j ≠ k) :
    (d.erase k).get? j = d.get? j := by
  ext w
  rw [get?_eq_some_iff, get?_eq_some_iff]
  simp [erase, h]

theorem get?_erase (d : OrderedDict K V) (j k : K) :
    (d.erase k).get? j = if j = k then none else d.get? j := by
  split
  · next h => rw [h, get?_erase_self]
  · next h => exact get?_erase_of_ne d h

theorem mem_keys_set {d : OrderedDict K V} {j k : K} {v : V} :
    j ∈ (d.set k v).keys ↔ j = k ∨ j ∈ d.keys := by
  by_cases h : j = k <;> simp [mem_keys_iff, get?_set, h]

theorem size_set (d : OrderedDict K V) (k : K) (v : V) :
    (d.set k v).size = if k ∈ d.keys then d.size else d.size + 1 := by
  unfold size
  split
  · next h => rw [items_set_of_mem h, List.length_map]
  · next h => rw [items_set_of_not_mem h, List.length_append, List.length_singleton]

theorem mem_keys_erase {d : OrderedDict K V} {j k : K} :
    j ∈ (d.erase k).keys ↔ j ≠ k ∧ j ∈ d.keys := by
  by_cases h : j = k <;> simp [mem_keys_iff, get?_erase, h]

/-- The dictionary built by assigning the pairs of a list in order. -/
def ofItems (items : List (K × V)) : OrderedDict K V :=
  items.foldl (fun d p => d.set p.1 p.2) empty

theorem items_foldl_set (items : List (K × V)) (d : OrderedDict K V)
    (h : (d.keys ++ items.map Prod.fst).Nodup) :
    (items.foldl (fun d p => d.set p.1 p.2) d).items = d.items ++ items := by
  induction items generalizing d with
  | nil => simp
  | cons p items ih =>
      have hp : p.1 ∉ d.keys := by
        intro hmem
        rw [List.nodup_append] at h
        exact h.2.2 p.1 hmem p.1 (by simp) rfl
      have hset : (d.set p.1 p.2).items = d.items ++ [p] := items_set_of_not_mem hp p.2
      have hkeys : (d.set p.1 p.2).keys = d.keys ++ [p.1] := by
        simp [keys, hset]
      rw [List.foldl_cons, ih, hset, List.append_assoc, List.singleton_append]
      rw [hkeys, List.append_assoc, List.singleton_append]
      exact h

theorem items_ofItems {items : List (K × V)} (h : (items.map Prod.fst).Nodup) :
    (ofItems items).items = items := by
  unfold ofItems
  rw [items_foldl_set items empty (by simpa [keys, empty] using h)]
  rfl

/-- The items of a list under distinct keys. -/
theorem get?_ofItems_map {key : V → K} {l : List V} (h : (l.map key).Nodup) {k : K} {v : V} :
    (ofItems (l.map fun item => (key item, item))).get? k = some v ↔ v ∈ l ∧ key v = k := by
  have hkeys : ((l.map fun item => (key item, item)).map Prod.fst).Nodup := by
    rw [List.map_map]
    exact h
  rw [get?_eq_some_iff, items_ofItems hkeys, List.mem_map]
  constructor
  · rintro ⟨item, hitem, heq⟩
    cases heq
    exact ⟨hitem, rfl⟩
  · rintro ⟨hv, rfl⟩
    exact ⟨v, hv, rfl⟩

/-- The same keys, every value replaced. -/
def mapValues {W : Type w} (d : OrderedDict K V) (f : V → W) : OrderedDict K W where
  items := d.items.map fun p => (p.1, f p.2)
  nodup_keys := by
    rw [List.map_map]
    exact d.nodup_keys

theorem get?_mapValues {W : Type w} (d : OrderedDict K V) (f : V → W) (k : K) :
    (d.mapValues f).get? k = (d.get? k).map f := by
  ext v
  rw [get?_eq_some_iff, mapValues, List.mem_map, Option.map_eq_some_iff]
  constructor
  · rintro ⟨⟨j, u⟩, hmem, heq⟩
    cases heq
    exact ⟨u, get?_eq_some_iff.mpr hmem, rfl⟩
  · rintro ⟨u, hget, rfl⟩
    exact ⟨(k, u), get?_eq_some_iff.mp hget, rfl⟩

/-- The items in increasing order of their keys. -/
def sortedItems [LinearOrder K] (d : OrderedDict K V) : List (K × V) :=
  d.items.insertionSort fun p q => p.1 ≤ q.1

omit [DecidableEq K] in
theorem sortedItems_perm [LinearOrder K] (d : OrderedDict K V) :
    d.sortedItems.Perm d.items :=
  List.perm_insertionSort _ _

omit [DecidableEq K] in
theorem nodup_keys_sortedItems [LinearOrder K] (d : OrderedDict K V) :
    (d.sortedItems.map Prod.fst).Nodup :=
  ((d.sortedItems_perm.map Prod.fst).nodup_iff).mpr d.nodup_keys

theorem mem_sortedItems_iff [LinearOrder K] {d : OrderedDict K V} {k : K} {v : V} :
    (k, v) ∈ d.sortedItems ↔ d.get? k = some v := by
  rw [d.sortedItems_perm.mem_iff, get?_eq_some_iff]

/-! ## Sums over the items -/

section Sum

theorem items_perm_of_get?_eq_some {d : OrderedDict K V} {k : K} {v : V}
    (h : d.get? k = some v) : d.items.Perm ((k, v) :: (d.erase k).items) := by
  have hnodup : d.items.Nodup := List.Nodup.of_map _ d.nodup_keys
  refine (List.perm_ext_iff_of_nodup hnodup ?_).mpr ?_
  · refine List.nodup_cons.mpr ⟨?_, List.Nodup.of_map _ (d.erase k).nodup_keys⟩
    simp [erase]
  · rintro ⟨j, w⟩
    rw [List.mem_cons, ← get?_eq_some_iff, ← get?_eq_some_iff, get?_erase]
    by_cases hj : j = k
    · subst hj
      simp [h, eq_comm]
    · simp [hj]

theorem erase_of_get?_eq_none {d : OrderedDict K V} {k : K} (h : d.get? k = none) :
    d.erase k = d := by
  apply ext
  simp only [erase, List.filter_eq_self]
  intro p hp
  have hpk : p.1 ≠ k := fun hpk =>
    get?_eq_none_iff.mp h (hpk ▸ List.mem_map_of_mem hp)
  simpa using hpk

theorem erase_set (d : OrderedDict K V) (k : K) (v : V) :
    ((d.set k v).erase k).items.Perm (d.erase k).items := by
  refine (List.perm_ext_iff_of_nodup (List.Nodup.of_map _ (OrderedDict.nodup_keys _))
    (List.Nodup.of_map _ (OrderedDict.nodup_keys _))).mpr ?_
  rintro ⟨j, w⟩
  rw [← get?_eq_some_iff, ← get?_eq_some_iff, get?_erase, get?_erase, get?_set]
  split <;> simp_all

variable {M : Type w} [AddCommMonoid M]

theorem sumOf_eq_erase_add {d : OrderedDict K V} {k : K} {v : V}
    (h : d.get? k = some v) (f : K → V → M) :
    d.sumOf f = (d.erase k).sumOf f + f k v := by
  unfold sumOf
  rw [((items_perm_of_get?_eq_some h).map _).sum_eq, List.map_cons, List.sum_cons, add_comm]

theorem sumOf_set (d : OrderedDict K V) (k : K) (v : V) (f : K → V → M) :
    (d.set k v).sumOf f = (d.erase k).sumOf f + f k v := by
  rw [sumOf_eq_erase_add (get?_set_self d k v)]
  unfold sumOf
  rw [((erase_set d k v).map _).sum_eq]

/-- The term of one key, zero when the key is absent. -/
def termAt (d : OrderedDict K V) (f : K → V → M) (k : K) : M :=
  (d.get? k).elim 0 (f k)

theorem sumOf_eq_erase_add_termAt (d : OrderedDict K V) (f : K → V → M) (k : K) :
    d.sumOf f = (d.erase k).sumOf f + d.termAt f k := by
  unfold termAt
  cases h : d.get? k with
  | none => rw [erase_of_get?_eq_none h, Option.elim_none, add_zero]
  | some v => exact sumOf_eq_erase_add h f

/-- A `set` changes the sum by the change of the term of its key. -/
theorem sumOf_set_eq_add_sub {G : Type w} [AddCommGroup G] (d : OrderedDict K V) (k : K) (v : V)
    (f : K → V → G) : (d.set k v).sumOf f = d.sumOf f + (f k v - d.termAt f k) := by
  rw [sumOf_set, d.sumOf_eq_erase_add_termAt f k]
  abel

theorem sumOf_congr {d : OrderedDict K V} {f g : K → V → M}
    (h : ∀ k v, d.get? k = some v → f k v = g k v) : d.sumOf f = d.sumOf g := by
  unfold sumOf
  rw [List.map_congr_left]
  rintro ⟨k, v⟩ hp
  exact h k v (get?_eq_some_iff.mpr hp)

/-- The sum over all keys but one does not see the term of that key. -/
theorem sumOf_erase_congr {d : OrderedDict K V} {k : K} {f g : K → V → M}
    (h : ∀ j v, j ≠ k → f j v = g j v) : (d.erase k).sumOf f = (d.erase k).sumOf g := by
  apply sumOf_congr
  intro j v hj
  rw [get?_erase] at hj
  split at hj
  · cases hj
  · next hne => exact h j v hne

omit [DecidableEq K] in
theorem sum_values (d : OrderedDict K M) : d.values.sum = d.sumOf fun _ v => v := rfl

omit [DecidableEq K] in
theorem sum_sortedItems [LinearOrder K] (d : OrderedDict K V) (f : K → V → M) :
    (d.sortedItems.map fun p => f p.1 p.2).sum = d.sumOf f :=
  (d.sortedItems_perm.map _).sum_eq

end Sum

end OrderedDict

/-! ## Dictionaries of running totals

A dictionary whose values are amounts that are only ever added to. Whatever key an
amount is booked under, it raises the sum over all keys by itself. -/

namespace OrderedDict

variable {K : Type u} {M : Type v} {W : Type w}

@[simp] theorem values_empty : (empty : OrderedDict K M).values = [] := rfl

theorem values_mapValues (d : OrderedDict K M) (f : M → W) :
    (d.mapValues f).values = d.values.map f := by
  simp [mapValues, values, Function.comp_def]

variable [DecidableEq K] [AddCommMonoid M]

/-- `d[k] += x`, from zero when the key is absent. -/
def addTo (d : OrderedDict K M) (k : K) (x : M) : OrderedDict K M := d.set k (d.getD k 0 + x)

@[simp] theorem sum_values_addTo (d : OrderedDict K M) (k : K) (x : M) :
    (d.addTo k x).values.sum = d.values.sum + x := by
  have hterm : d.termAt (fun _ v => v) k = d.getD k 0 := by
    rw [termAt, getD]
    cases d.get? k <;> rfl
  rw [sum_values, sum_values, addTo, sumOf_set, d.sumOf_eq_erase_add_termAt (fun _ v => v) k,
    hterm, add_assoc]

@[simp] theorem mem_keys_addTo {d : OrderedDict K M} {j k : K} {x : M} :
    j ∈ (d.addTo k x).keys ↔ j = k ∨ j ∈ d.keys := by
  rw [addTo, mem_keys_set]

end OrderedDict
