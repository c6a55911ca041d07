import Mathlib.Order.Cover
import Mathlib.Data.List.Chain

/-!
# Tilings of an interval

A list of pieces, each with a first and a last point of a linear order. The pieces tile
an interval when each begins right after the one before it ends; then they are laid out
in order, and every point of the interval lies in exactly one of them.
-/

universe u v w

namespace Tiling

variable {α : Type u} {I : Type v} [LinearOrder α] {first last : I → α}

/-- The pieces fill the interval from `start` to `stop`. -/
inductive Tiles (first last : I → α) : α → α → List I → Prop
  | single {piece : I} (ordered : first piece ≤ last piece) :
      Tiles first last (first piece) (last piece) [piece]
  | cons {piece : I} {next stop : α} {pieces : List I} (ordered : first piece ≤ last piece)
      (adjacent : last piece ⋖ next) (rest : Tiles first last next stop pieces) :
      Tiles first last (first piece) stop (piece :: pieces)

namespace Tiles

variable {start stop : α} {pieces : List I}

theorem ordered_of_mem (h : Tiles first last start stop pieces) {piece : I}
    (hpiece : piece ∈ pieces) : first piece ≤ last piece := by
  induction h with
  | single ordered => rwa [List.mem_singleton.mp hpiece]
  | cons ordered _ _ ih =>
      rcases List.mem_cons.mp hpiece with rfl | hrest
      · exact ordered
      · exact ih hrest

theorem start_le_of_mem (h : Tiles first last start stop pieces) {piece : I}
    (hpiece : piece ∈ pieces) : start ≤ first piece := by
  induction h with
  | single => rw [List.mem_singleton.mp hpiece]
  | cons ordered adjacent _ ih =>
      rcases List.mem_cons.mp hpiece with rfl | hrest
      · exact le_rfl
      · exact ordered.trans (adjacent.le.trans (ih hrest))

theorem start_le_stop (h : Tiles first last start stop pieces) : start ≤ stop := by
  induction h with
  | single ordered => exact ordered
  | cons ordered adjacent _ ih => exact ordered.trans (adjacent.le.trans ih)

theorem head?_eq (h : Tiles first last start stop pieces) :
    pieces.head?.map first = some start := by
  cases h <;> rfl

theorem getLast?_eq (h : Tiles first last start stop pieces) :
    pieces.getLast?.map last = some stop := by
  induction h with
  | single => rfl
  | @cons piece next stop pieces _ _ rest ih =>
      cases pieces with
      | nil => nomatch rest
      | cons piece' pieces => rwa [List.getLast?_cons_cons]

/-- Each piece begins right after the one before it. -/
theorem isChain (h : Tiles first last start stop pieces) :
    pieces.IsChain fun piece piece' => last piece ⋖ first piece' := by
  induction h with
  | single => exact .singleton _
  | @cons piece next stop pieces _ adjacent rest ih =>
      cases pieces with
      | nil => nomatch rest
      | cons piece' pieces =>
          have hnext : first piece' = next := Option.some.inj rest.head?_eq
          exact .cons_cons (hnext ▸ adjacent) ih

/-- The pieces are laid out in order, none reaching into a later one. -/
theorem pairwise (h : Tiles first last start stop pieces) :
    pieces.Pairwise fun piece piece' => last piece < first piece' := by
  induction h with
  | single => exact List.pairwise_singleton _ _
  | cons _ adjacent rest ih =>
      exact List.pairwise_cons.mpr ⟨fun piece' hpiece' =>
        adjacent.lt.trans_le (rest.start_le_of_mem hpiece'), ih⟩

theorem pairwise_first (h : Tiles first last start stop pieces) :
    pieces.Pairwise fun piece piece' => first piece < first piece' :=
  h.pairwise.imp_of_mem fun hpiece _ hlt => (h.ordered_of_mem hpiece).trans_lt hlt

theorem exists_mem (h : Tiles first last start stop pieces) {x : α} (hstart : start ≤ x)
    (hstop : x ≤ stop) : ∃ piece ∈ pieces, first piece ≤ x ∧ x ≤ last piece := by
  induction h with
  | single => exact ⟨_, List.mem_singleton_self _, hstart, hstop⟩
  | @cons piece next stop pieces _ adjacent _ ih =>
      rcases le_or_gt x (last piece) with hx | hx
      · exact ⟨piece, List.mem_cons_self, hstart, hx⟩
      · have hnext : next ≤ x := by
          by_contra hbefore
          exact adjacent.2 hx (lt_of_not_ge hbefore)
        obtain ⟨piece', hpiece', hbounds⟩ := ih hnext hstop
        exact ⟨piece', List.mem_cons_of_mem _ hpiece', hbounds⟩

/-- No two pieces share a point. -/
theorem eq_of_mem (h : Tiles first last start stop pieces) {x : α} {piece piece' : I}
    (hpiece : piece ∈ pieces) (hpiece' : piece' ∈ pieces) (hx : first piece ≤ x ∧ x ≤ last piece)
    (hx' : first piece' ≤ x ∧ x ≤ last piece') : piece = piece' := by
  induction h with
  | single => rw [List.mem_singleton.mp hpiece, List.mem_singleton.mp hpiece']
  | cons _ adjacent rest ih =>
      rcases List.mem_cons.mp hpiece with rfl | hrest
      all_goals rcases List.mem_cons.mp hpiece' with rfl | hrest'
      · rfl
      · have hlater := adjacent.lt.trans_le (rest.start_le_of_mem hrest')
        exact absurd (hx'.1.trans hx.2) (not_le_of_gt hlater)
      · have hlater := adjacent.lt.trans_le (rest.start_le_of_mem hrest)
        exact absurd (hx.1.trans hx'.2) (not_le_of_gt hlater)
      · exact ih hrest hrest'

/-- Every point of the interval lies in exactly one piece. -/
theorem existsUnique_mem (h : Tiles first last start stop pieces) {x : α} (hstart : start ≤ x)
    (hstop : x ≤ stop) : ∃! piece, piece ∈ pieces ∧ first piece ≤ x ∧ x ≤ last piece := by
  obtain ⟨piece, hpiece, hx⟩ := h.exists_mem hstart hstop
  refine ⟨piece, ⟨hpiece, hx⟩, ?_⟩
  rintro other ⟨hother, hx'⟩
  exact h.eq_of_mem hother hpiece hx' hx

/-- Values that lie in the interval are sorted into the pieces, none lost and none twice. -/
theorem perm_filter (h : Tiles first last start stop pieces) {β : Type w} (f : β → α)
    (l : List β) :
    (pieces.flatMap fun piece => l.filter fun b => first piece ≤ f b ∧ f b ≤ last piece).Perm
      (l.filter fun b => start ≤ f b ∧ f b ≤ stop) := by
  induction h with
  | single => rw [List.flatMap_singleton]
  | @cons piece next stop pieces ordered adjacent rest ih =>
      rw [List.flatMap_cons]
      refine (List.Perm.append_left _ ih).trans ?_
      have hstop : last piece ≤ stop := adjacent.le.trans rest.start_le_stop
      have hnext (x : α) : next ≤ x ↔ ¬ x ≤ last piece := by
        rw [not_le]
        exact ⟨adjacent.lt.trans_le, fun hx => not_lt.mp (adjacent.2 hx)⟩
      refine .trans (.of_eq ?_) (List.filter_append_perm (fun b => f b ≤ last piece) _)
      rw [List.filter_filter, List.filter_filter]
      congr 1 <;> refine List.filter_congr fun b _ => ?_
      all_goals simp only [← Bool.decide_and, ← decide_not, decide_eq_decide, hnext]
      · exact ⟨fun hb => ⟨hb.2, hb.1, hb.2.trans hstop⟩, fun hb => ⟨hb.2.1, hb.1⟩⟩
      · exact ⟨fun hb => ⟨hb.1, ordered.trans (lt_of_not_ge hb.1).le, hb.2⟩,
          fun hb => ⟨hb.1, hb.2.2⟩⟩

end Tiles

/-- Tilings by what holds of each piece and of neighbours. -/
theorem tiles_iff {start stop : α} {pieces : List I} :
    Tiles first last start stop pieces ↔ (∀ piece ∈ pieces, first piece ≤ last piece) ∧
      pieces.head?.map first = some start ∧ pieces.getLast?.map last = some stop ∧
        pieces.IsChain fun piece piece' => last piece ⋖ first piece' := by
  constructor
  · exact fun h => ⟨fun _ => h.ordered_of_mem, h.head?_eq, h.getLast?_eq, h.isChain⟩
  rintro ⟨hordered, hstart, hstop, hchain⟩
  induction hchain generalizing start with
  | nil => nomatch hstart
  | singleton piece =>
      obtain rfl : first piece = start := Option.some.inj hstart
      obtain rfl : last piece = stop := Option.some.inj hstop
      exact .single (hordered piece List.mem_cons_self)
  | cons_cons hadjacent _ ih =>
      obtain rfl := Option.some.inj hstart
      rw [List.getLast?_cons_cons] at hstop
      obtain ⟨hpiece, hrest⟩ := List.forall_mem_cons.mp hordered
      exact .cons hpiece hadjacent (ih hrest rfl hstop)

end Tiling
