import Mathlib.Data.List.Induction

/-!
# Hash chains

Each entry of a log is linked to its predecessors by a function of the digest so
far and the entry. The digest at the head then determines a log of a given
length, provided that the links actually computed along the two logs in question
do not collide. Nothing is asked of the link function elsewhere: a digest of
bounded size has collisions somewhere.
-/

namespace HashChain

universe u v

variable {H : Type u} {α : Type v} (link : H → α → H)

/-- The digest at the head of a log. -/
def head (genesis : H) (entries : List α) : H := entries.foldl link genesis

/-- The arguments of the links along a log. -/
def links (genesis : H) : List α → List (H × α)
  | [] => []
  | entry :: rest => (genesis, entry) :: links (link genesis entry) rest

/-- No link of one list collides with a link of the other. -/
def CollisionFree (ls ms : List (H × α)) : Prop :=
  ∀ l ∈ ls, ∀ m ∈ ms, link l.1 l.2 = link m.1 m.2 → l = m

theorem head_append_singleton (genesis : H) (entries : List α) (entry : α) :
    head link genesis (entries ++ [entry]) = link (head link genesis entries) entry := by
  simp [head]

theorem links_append (genesis : H) (entries entries' : List α) :
    links link genesis (entries ++ entries') =
      links link genesis entries ++ links link (head link genesis entries) entries' := by
  induction entries generalizing genesis with
  | nil => rfl
  | cons e entries ih => simp [links, ih, head]

theorem links_append_singleton (genesis : H) (entries : List α) (entry : α) :
    links link genesis (entries ++ [entry]) =
      links link genesis entries ++ [(head link genesis entries, entry)] :=
  links_append link genesis entries [entry]

/-- Two logs of one length with one head digest are the same log. -/
theorem eq_of_head_eq {genesis : H} {entries entries' : List α}
    (hlength : entries.length = entries'.length)
    (hfree : CollisionFree link (links link genesis entries) (links link genesis entries'))
    (hhead : head link genesis entries = head link genesis entries') :
    entries = entries' := by
  induction entries using List.reverseRecOn generalizing entries' with
  | nil => exact (List.length_eq_zero_iff.mp hlength.symm).symm
  | append_singleton entries entry ih =>
      cases entries' using List.reverseRecOn with
      | nil => simp at hlength
      | append_singleton entries' entry' =>
          simp only [links_append_singleton, head_append_singleton] at hfree hhead
          have hlast := hfree _ (List.mem_append_right _ (List.mem_singleton_self _)) _
            (List.mem_append_right _ (List.mem_singleton_self _)) hhead
          obtain ⟨hfront, hentry⟩ := Prod.mk.inj hlast
          have hrest := ih (by simpa using hlength)
            (fun l hl m hm => hfree l (List.mem_append_left _ hl) m (List.mem_append_left _ hm))
            hfront
          rw [hrest, hentry]

end HashChain
