import Mathlib.Data.Finset.Card
import Mathlib.Logic.Relation

/-!
# Chains of parents

A partial function gives values their parents. A chain of parents is determined by where
it starts: it leads to a root, it strays to a value that has no parent, or it circles.
Of a chain to a root that has no parent, no value is an ancestor of itself, so it is no
longer than there are values with a parent.
-/

universe u

namespace ParentChains

open Relation

variable {α : Type u} {parent? : α → Option α} {root a b : α}

def IsParent (parent? : α → Option α) (a b : α) : Prop := parent? a = some b

/-- A value leads to itself and to its ancestors. -/
def Leads (parent? : α → Option α) : α → α → Prop := ReflTransGen (IsParent parent?)

def IsAncestor (parent? : α → Option α) : α → α → Prop := TransGen (IsParent parent?)

/-- The ancestor that is a number of parents away. -/
def climb (parent? : α → Option α) : ℕ → α → Option α
  | 0, a => some a
  | n + 1, a => (parent? a).bind (climb parent? n)

/-- The chain ends before a root. -/
def Strays (parent? : α → Option α) (root a : α) : Prop :=
  ¬ Leads parent? a root ∧ ∃ b, Leads parent? a b ∧ parent? b = none

/-- The chain neither ends nor meets a root. -/
def Circles (parent? : α → Option α) (root a : α) : Prop :=
  ∀ b, Leads parent? a b → b ≠ root ∧ (parent? b).isSome

/-- Where a chain ends that has not met the root. -/
theorem strays_of_none (h : parent? a = none) (hne : a ≠ root) : Strays parent? root a := by
  refine ⟨fun hleads => ?_, a, .refl, h⟩
  rcases ReflTransGen.cases_head hleads with heq | ⟨b, hparent, -⟩
  · exact hne heq
  · nomatch h.symm.trans hparent

theorem Strays.not_circles (h : Strays parent? root a) : ¬ Circles parent? root a := by
  obtain ⟨-, b, hleads, hnone⟩ := h
  intro hcircles
  have hsome := (hcircles b hleads).2
  rw [hnone] at hsome
  nomatch hsome

theorem Circles.not_leads (h : Circles parent? root a) : ¬ Leads parent? a root :=
  fun hleads => (h root hleads).1 rfl

/-! ## From a parent to its child -/

theorem leads_iff_of_isParent (h : IsParent parent? a b) {c : α} :
    Leads parent? a c ↔ a = c ∨ Leads parent? b c := by
  constructor
  · intro hleads
    rcases ReflTransGen.cases_head hleads with heq | ⟨b', hparent, hrest⟩
    · exact .inl heq
    · obtain rfl : b' = b := Option.some.inj (hparent.symm.trans h)
      exact .inr hrest
  · rintro (rfl | hleads)
    · exact .refl
    · exact .head h hleads

theorem leads_root_iff_of_isParent (h : IsParent parent? a b) (hne : a ≠ root) :
    Leads parent? a root ↔ Leads parent? b root := by
  rw [leads_iff_of_isParent h, or_iff_right hne]

theorem Strays.of_isParent (h : IsParent parent? a b) (hne : a ≠ root)
    (hstrays : Strays parent? root b) : Strays parent? root a := by
  obtain ⟨hroot, c, hleads, hnone⟩ := hstrays
  refine ⟨?_, c, (leads_iff_of_isParent h).mpr (.inr hleads), hnone⟩
  rwa [leads_root_iff_of_isParent h hne]

theorem Circles.of_isParent (h : IsParent parent? a b) (hne : a ≠ root)
    (hcircles : Circles parent? root b) : Circles parent? root a := by
  intro c hleads
  rcases (leads_iff_of_isParent h).mp hleads with rfl | hrest
  · exact ⟨hne, Option.isSome_of_eq_some h⟩
  · exact hcircles c hrest

/-! ## Trails -/

/-- The values visited on the way to a cursor. -/
def Trail (parent? : α → Option α) (root : α) (visited : Finset α) (cursor : α) : Prop :=
  ∀ a ∈ visited, a ≠ root ∧ ∃ b, IsParent parent? a b ∧ (b ∈ visited ∨ b = cursor)

namespace Trail

variable {visited : Finset α} {cursor : α}

theorem empty : Trail parent? root ∅ cursor := fun _ ha => absurd ha (Finset.notMem_empty _)

theorem step [DecidableEq α] (h : Trail parent? root visited cursor) (hne : cursor ≠ root)
    (hparent : IsParent parent? cursor b) : Trail parent? root (insert cursor visited) b := by
  intro a ha
  rcases Finset.mem_insert.mp ha with rfl | hvisited
  · exact ⟨hne, b, hparent, .inr rfl⟩
  · obtain ⟨hroot, next, hnext, hmem | rfl⟩ := h a hvisited
    · exact ⟨hroot, next, hnext, .inl (Finset.mem_insert_of_mem hmem)⟩
    · exact ⟨hroot, next, hnext, .inl (Finset.mem_insert_self _ _)⟩

/-- A trail that meets itself. -/
theorem circles (h : Trail parent? root visited cursor) (hmem : cursor ∈ visited) :
    Circles parent? root cursor := by
  have hclosed (c : α) (hleads : Leads parent? cursor c) : c ∈ visited := by
    induction hleads with
    | refl => exact hmem
    | tail _ hparent ih =>
        obtain ⟨-, next, hnext, hnext_mem⟩ := h _ ih
        obtain rfl := Option.some.inj (hnext.symm.trans hparent)
        rcases hnext_mem with hvisited | rfl
        · exact hvisited
        · exact hmem
  intro c hleads
  obtain ⟨hroot, next, hnext, -⟩ := h c (hclosed c hleads)
  exact ⟨hroot, Option.isSome_of_eq_some hnext⟩

end Trail

/-! ## Chains to a root without a parent -/

/-- What leads to the root is no ancestor of itself. -/
theorem not_isAncestor_self (hroot : parent? root = none) (h : Leads parent? a root) :
    ¬ IsAncestor parent? a a := by
  induction h using ReflTransGen.head_induction_on with
  | refl =>
      intro hcycle
      obtain ⟨b, hparent, -⟩ := TransGen.head'_iff.mp hcycle
      nomatch hroot.symm.trans hparent
  | @head a b hparent _ ih =>
      intro hcycle
      obtain ⟨b', hparent', hback⟩ := TransGen.head'_iff.mp hcycle
      obtain rfl : b' = b := Option.some.inj (hparent'.symm.trans hparent)
      exact ih (.tail' hback hparent)

/-- The root is no farther than there are values with a parent. -/
theorem exists_climb [DecidableEq α] (hroot : parent? root = none) {keys : Finset α}
    (hkeys : ∀ a, (parent? a).isSome → a ∈ keys) (h : Leads parent? a root) :
    ∃ n ≤ keys.card, climb parent? n a = some root := by
  -- The values below the root on the chain are distinct.
  suffices hpath : ∃ path ⊆ keys, climb parent? path.card a = some root ∧
      ∀ b ∈ path, Leads parent? a b by
    obtain ⟨path, hsub, hclimb, -⟩ := hpath
    exact ⟨path.card, Finset.card_le_card hsub, hclimb⟩
  induction h using ReflTransGen.head_induction_on with
  | refl => exact ⟨∅, Finset.empty_subset _, rfl, fun _ hb => absurd hb (Finset.notMem_empty _)⟩
  | @head a b hparent hrest ih =>
      obtain ⟨path, hsub, hclimb, hleads⟩ := ih
      have hnew : a ∉ path := fun hmem =>
        not_isAncestor_self hroot hrest (.tail' (hleads a hmem) hparent)
      refine ⟨insert a path, ?_, ?_, ?_⟩
      · exact Finset.insert_subset (hkeys a (Option.isSome_of_eq_some hparent)) hsub
      · rw [Finset.card_insert_of_notMem hnew, climb, show parent? a = some b from hparent]
        exact hclimb
      · intro c hc
        rw [leads_iff_of_isParent hparent]
        rcases Finset.mem_insert.mp hc with rfl | hc
        · exact .inl rfl
        · exact .inr (hleads c hc)

end ParentChains
