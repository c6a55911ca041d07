import Mathlib.Data.List.Sort

/-!
# Sorting a set

A set is iterated in an order that its content does not determine: the hash of
its elements, and with it the run of the program, decides. Sorting it by a key
puts the elements with different keys in order and leaves those with equal keys
as the set listed them. What is kept of a sorted set therefore depends on the
content alone exactly when no two kept elements share a key
(`forall_filter_sortedBy_eq_iff`).
-/

universe u v

/-- An order in which sets are iterated: the elements of a set, rearranged. -/
structure SetOrder (α : Type u) where
  arrange : List α → List α
  perm : ∀ l, (arrange l).Perm l

/-- `sorted(values, key=key)`: a stable sort. -/
def sortedBy {α : Type u} {κ : Type v} [LinearOrder κ] (key : α → κ) (l : List α) : List α :=
  l.insertionSort fun a b => key a ≤ key b

namespace SetOrder

variable {α : Type u}

/-- The order in which the elements were listed. -/
def listed (α : Type u) : SetOrder α where
  arrange l := l
  perm l := .refl l

variable [DecidableEq α]

/-- The order that lists two given elements first. -/
def putFirst (a b : α) : SetOrder α where
  arrange l := if a ∈ l ∧ b ∈ l.erase a then a :: b :: (l.erase a).erase b else l
  perm l := by
    split
    · next h =>
        exact (((List.perm_cons_erase h.2).symm.cons a).trans (List.perm_cons_erase h.1).symm)
    · exact .refl l

theorem pair_sublist_putFirst {a b : α} {l : List α} (ha : a ∈ l) (hb : b ∈ l) (hne : a ≠ b) :
    [a, b].Sublist ((putFirst a b).arrange l) := by
  have herase : b ∈ l.erase a := (List.mem_erase_of_ne hne.symm).mpr hb
  have harrange : (putFirst a b).arrange l = a :: b :: (l.erase a).erase b :=
    if_pos ⟨ha, herase⟩
  rw [harrange]
  exact ((List.nil_sublist _).cons_cons b).cons_cons a

end SetOrder

section SortedBy

variable {α : Type u} {κ : Type v} [LinearOrder κ] {key : α → κ} {l l' : List α}

theorem perm_sortedBy (key : α → κ) (l : List α) : (sortedBy key l).Perm l :=
  List.perm_insertionSort _ l

@[simp] theorem mem_sortedBy {a : α} : a ∈ sortedBy key l ↔ a ∈ l := (perm_sortedBy key l).mem_iff

/-- Sorting commutes with a map that keeps the keys. -/
theorem sortedBy_map {β : Type u} {key : α → κ} {key' : β → κ} {f : α → β} (l : List α)
    (h : ∀ a, key' (f a) = key a) : sortedBy key' (l.map f) = (sortedBy key l).map f := by
  refine (List.map_insertionSort (fun a b => key a ≤ key b) (fun a b => key' a ≤ key' b) f l
    fun a _ b _ => ?_).symm
  rw [h, h]

theorem pairwise_sortedBy (key : α → κ) (l : List α) :
    (sortedBy key l).Pairwise fun a b => key a ≤ key b := by
  have : Std.Total fun a b : α => key a ≤ key b := ⟨fun a b => le_total (key a) (key b)⟩
  have : IsTrans α fun a b => key a ≤ key b := ⟨fun _ _ _ => le_trans⟩
  exact List.pairwise_insertionSort _ l

/-- Elements that share a key stay in the order in which they were listed. -/
theorem pairwise_sortedBy_of_pairwise {r : α → α → Prop} (h : l.Pairwise r) :
    (sortedBy key l).Pairwise fun a b => key a < key b ∨ key a = key b ∧ r a b := by
  induction h with
  | nil => exact List.Pairwise.nil
  | @cons a l hal _ ih =>
      have hall : ∀ b ∈ sortedBy key l, r a b := fun b hb =>
        hal b ((List.perm_insertionSort _ l).mem_iff.mp hb)
      change (List.orderedInsert _ a (sortedBy key l)).Pairwise _
      generalize sortedBy key l = sorted at ih hall
      induction sorted with
      | nil => exact List.pairwise_singleton _ a
      | cons b sorted ihs =>
          obtain ⟨hb, hsorted⟩ := List.pairwise_cons.mp ih
          obtain ⟨hab, hrest⟩ := List.forall_mem_cons.mp hall
          rw [List.orderedInsert]
          split_ifs with hle
          · refine List.pairwise_cons.mpr ⟨fun c hc => ?_, ih⟩
            rcases hle.lt_or_eq with hlt | heq
            · rcases List.mem_cons.mp hc with rfl | hc
              · exact .inl hlt
              · exact .inl (hlt.trans_le ((hb c hc).elim le_of_lt fun h => h.1.le))
            · rcases List.mem_cons.mp hc with rfl | hc
              · exact .inr ⟨heq, hab⟩
              · exact (hb c hc).imp heq.trans_lt fun h => ⟨heq.trans h.1, hrest c hc⟩
          · refine List.pairwise_cons.mpr ⟨fun c hc => ?_, ihs hsorted hrest⟩
            rcases (List.mem_orderedInsert _).mp hc with rfl | hc
            · exact .inl (not_le.mp hle)
            · exact hb c hc

/-- The kept elements of a sorted list are determined by what it contains when
no two of them share a key. -/
theorem filter_sortedBy_eq_of_perm {p : α → Bool} (hperm : l.Perm l')
    (hkeys : ∀ a ∈ l, ∀ b ∈ l, p a = true → p b = true → key a = key b → a = b) :
    (sortedBy key l).filter p = (sortedBy key l').filter p := by
  have hsorted : ((sortedBy key l).filter p).Perm ((sortedBy key l').filter p) :=
    (((perm_sortedBy key l).trans hperm).trans (perm_sortedBy key l').symm).filter p
  refine List.Perm.eq_of_pairwise ?_ ((pairwise_sortedBy key l).filter p)
    ((pairwise_sortedBy key l').filter p) hsorted
  intro a b ha hb hab hba
  obtain ⟨ha, hpa⟩ := List.mem_filter.mp ha
  obtain ⟨hb, hpb⟩ := List.mem_filter.mp hb
  exact hkeys a (mem_sortedBy.mp ha) b (hperm.mem_iff.mpr (mem_sortedBy.mp hb)) hpa hpb
    (le_antisymm hab hba)

theorem sortedBy_eq_of_perm (hperm : l.Perm l')
    (hkeys : ∀ a ∈ l, ∀ b ∈ l, key a = key b → a = b) : sortedBy key l = sortedBy key l' := by
  have hkept := filter_sortedBy_eq_of_perm (p := fun _ => true) hperm
    fun a ha b hb _ _ => hkeys a ha b hb
  rwa [List.filter_true, List.filter_true] at hkept

/-- Sorting commutes with keeping some of the elements. -/
theorem filter_sortedBy {p : α → Bool} (hkeys : ∀ a ∈ l, ∀ b ∈ l, key a = key b → a = b) :
    (sortedBy key l).filter p = sortedBy key (l.filter p) := by
  refine List.Perm.eq_of_pairwise ?_ ((pairwise_sortedBy key l).filter p)
    (pairwise_sortedBy key (l.filter p))
    (((perm_sortedBy key l).filter p).trans (perm_sortedBy key _).symm)
  intro a b ha hb hab hba
  exact hkeys a (mem_sortedBy.mp (List.mem_filter.mp ha).1) b
    (List.mem_filter.mp (mem_sortedBy.mp hb)).1 (le_antisymm hab hba)

/-- A last element whose key is beyond all others stays last. -/
theorem sortedBy_concat {x : α} (hnodup : ((l ++ [x]).map key).Nodup)
    (h : ∀ a ∈ l, key a < key x) : sortedBy key (l ++ [x]) = sortedBy key l ++ [x] := by
  have hperm : (sortedBy key (l ++ [x])).Perm (sortedBy key l ++ [x]) :=
    (perm_sortedBy _ _).trans ((perm_sortedBy _ _).symm.append_right _)
  refine List.Perm.eq_of_pairwise ?_ (pairwise_sortedBy _ _) ?_ hperm
  · intro a b ha hb hab hba
    exact List.inj_on_of_nodup_map hnodup (mem_sortedBy.mp ha)
      (mem_sortedBy.mp (hperm.mem_iff.mpr hb)) (le_antisymm hab hba)
  · rw [List.pairwise_append]
    refine ⟨pairwise_sortedBy _ _, List.pairwise_singleton _ _, fun a ha b hb => ?_⟩
    rw [List.mem_singleton.mp hb]
    exact (h a (mem_sortedBy.mp ha)).le

/-- A stable sort leaves two elements that share a key as they were listed. -/
theorem pair_sublist_filter_sortedBy {p : α → Bool} {a b : α} (h : [a, b].Sublist l)
    (hkey : key a = key b) (ha : p a = true) (hb : p b = true) :
    [a, b].Sublist ((sortedBy key l).filter p) := by
  have : Std.Total fun a b : α => key a ≤ key b := ⟨fun a b => le_total (key a) (key b)⟩
  have : IsTrans α fun a b => key a ≤ key b := ⟨fun _ _ _ => le_trans⟩
  have hpair : [a, b].Sublist (sortedBy key l) := List.pair_sublist_insertionSort hkey.le h
  have hfilter := hpair.filter p
  rwa [List.filter_cons_of_pos ha, List.filter_cons_of_pos hb, List.filter_nil] at hfilter

theorem not_nodup_of_sublists {a b : α} (hab : [a, b].Sublist l) (hba : [b, a].Sublist l) :
    ¬ l.Nodup := by
  intro hnodup
  induction l with
  | nil => cases hab
  | cons x xs ih =>
      obtain ⟨hx, hxs⟩ := List.nodup_cons.mp hnodup
      cases hab with
      | cons _ hab =>
          cases hba with
          | cons _ hba => exact ih hab hba hxs
          | cons_cons _ hba => exact hx (hab.subset (by simp))
      | cons_cons _ hab =>
          cases hba with
          | cons _ hba => exact hx (hba.subset (by simp))
          | cons_cons _ hba => exact hx (List.singleton_sublist.mp hab)

/-- What is kept of a sorted set is the same in every order of iteration
exactly when no two kept elements share a key. -/
theorem forall_filter_sortedBy_eq_iff [DecidableEq α] {p : α → Bool} (hnodup : l.Nodup) :
    (∀ order order' : SetOrder α,
      (sortedBy key (order.arrange l)).filter p = (sortedBy key (order'.arrange l)).filter p) ↔
      ∀ a ∈ l, ∀ b ∈ l, p a = true → p b = true → key a = key b → a = b := by
  constructor
  · intro hsame a ha b hb hpa hpb hkey
    by_contra hne
    -- one order lists `a` before `b`, the other `b` before `a`
    have hab : [a, b].Sublist ((sortedBy key ((SetOrder.putFirst a b).arrange l)).filter p) :=
      pair_sublist_filter_sortedBy (SetOrder.pair_sublist_putFirst ha hb hne) hkey hpa hpb
    have hba : [b, a].Sublist ((sortedBy key ((SetOrder.putFirst b a).arrange l)).filter p) :=
      pair_sublist_filter_sortedBy (SetOrder.pair_sublist_putFirst hb ha (Ne.symm hne)) hkey.symm
        hpb hpa
    rw [hsame (SetOrder.putFirst b a) (SetOrder.putFirst a b)] at hba
    have hperm := (perm_sortedBy key ((SetOrder.putFirst a b).arrange l)).trans
      ((SetOrder.putFirst a b).perm l)
    exact not_nodup_of_sublists hab hba ((hperm.nodup_iff.mpr hnodup).filter p)
  · intro hkeys order order'
    apply filter_sortedBy_eq_of_perm ((order.perm l).trans (order'.perm l).symm)
    intro a ha b hb
    exact hkeys a ((order.perm l).mem_iff.mp ha) b ((order.perm l).mem_iff.mp hb)

/-- The order of a list is seen after a stable sort exactly when two of its elements
share a key. -/
theorem forall_perm_sortedBy_iff [DecidableEq α] (hnodup : l.Nodup) :
    (∀ l', l.Perm l' → sortedBy key l' = sortedBy key l) ↔ (l.map key).Nodup := by
  constructor
  · intro hsame
    refine (List.nodup_map_iff_inj_on hnodup).mpr ?_
    have hcontent := (forall_filter_sortedBy_eq_iff (p := fun _ => true) hnodup).mp
      fun order order' => by
        rw [hsame _ (order.perm l).symm, hsame _ (order'.perm l).symm]
    exact fun a ha b hb hkey => hcontent a ha b hb rfl rfl hkey
  · intro hkeys l' hperm
    exact (sortedBy_eq_of_perm hperm fun a ha b hb hkey =>
      List.inj_on_of_nodup_map hkeys ha hb hkey).symm

/-! ### The first elements -/

theorem mem_take_iff_of_pairwise (h : l.Pairwise fun a b => key a < key b) {a : α} {n : ℕ} :
    a ∈ l.take n ↔ a ∈ l ∧ l.countP (fun b => key b < key a) < n := by
  induction l generalizing n with
  | nil => simp
  | cons b l ih =>
      obtain ⟨hb, hl⟩ := List.pairwise_cons.mp h
      cases n with
      | zero => simp
      | succ n =>
          rw [List.take_succ_cons, List.mem_cons, List.mem_cons, ih hl, List.countP_cons]
          constructor
          · rintro (rfl | ⟨ha, hcount⟩)
            · refine ⟨.inl rfl, ?_⟩
              rw [List.countP_eq_zero.mpr fun c hc => by simpa using (hb c hc).le]
              simp
            · refine ⟨.inr ha, ?_⟩
              split <;> omega
          · rintro ⟨rfl | ha, hcount⟩
            · exact .inl rfl
            · refine .inr ⟨ha, ?_⟩
              rw [if_pos (by simpa using hb a ha)] at hcount
              omega

/-- An element is among the first `n` of a sorted list of distinct keys when fewer
than `n` elements come before it. -/
theorem mem_take_sortedBy_iff (hnodup : (l.map key).Nodup) {a : α} {n : ℕ} :
    a ∈ (sortedBy key l).take n ↔ a ∈ l ∧ l.countP (fun b => key b < key a) < n := by
  have hperm := perm_sortedBy key l
  have hdistinct : (sortedBy key l).Pairwise fun a b => key a ≠ key b :=
    List.pairwise_map.mp ((hperm.map key).nodup_iff.mpr hnodup)
  have hstrict : (sortedBy key l).Pairwise fun a b => key a < key b :=
    ((pairwise_sortedBy key l).and hdistinct).imp fun h => lt_of_le_of_ne h.1 h.2
  rw [mem_take_iff_of_pairwise hstrict, hperm.mem_iff, hperm.countP_eq]

end SortedBy
