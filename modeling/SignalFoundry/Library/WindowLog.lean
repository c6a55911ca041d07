import Mathlib.Algebra.Order.Group.Basic
import Mathlib.Data.List.Basic
import Mathlib.Data.List.Pairwise

/-!
# Window logs

A limit on the number of events in every window of a given width, kept with a
list of recent times only: a time that is a width old is dropped when the next
event is admitted. What was dropped is never in a window of a later event
(`Kept.push`), and the short list is full only if the window is
(`Kept.within_eq`).
-/

namespace WindowLog

variable {T : Type*} [AddCommGroup T] [LinearOrder T]

/-- The times in the window that ends at `t`. -/
def within (width t : T) (times : List T) : List T :=
  times.filter fun s => t - width < s ∧ s ≤ t

/-- The times that are not yet a width old. -/
def recent (width now : T) (times : List T) : List T := times.filter fun s => now - s < width

/-- The kept times are those that were recent when the last event was admitted. -/
structure Kept (width : T) (limit : ℕ) (times kept : List T) : Prop where
  sorted : times.Pairwise (· ≤ ·)
  bounded : ∀ t, (within width t times).length ≤ limit
  nil : times = [] → kept = []
  recent : ∀ last ∈ times.getLast?, kept = recent width last times

variable {width now : T} {limit : ℕ} {times kept : List T}

theorem Kept.start (width : T) (limit : ℕ) : Kept width limit ([] : List T) [] where
  sorted := .nil
  bounded _ := Nat.zero_le _
  nil _ := rfl
  recent := nofun

/-- Only admitted times are kept. -/
theorem Kept.sublist (h : Kept width limit times kept) : kept.Sublist times := by
  cases hend : times.getLast? with
  | none =>
      rw [h.nil (List.getLast?_eq_none_iff.mp hend)]
      exact List.nil_sublist times
  | some last =>
      rw [h.recent last hend]
      exact List.filter_sublist

omit [AddCommGroup T] in
/-- No admitted time is after the last one. -/
theorem le_of_getLast? {s : T} (hsorted : times.Pairwise (· ≤ ·))
    (hlast : ∀ last ∈ times.getLast?, last ≤ now) (hs : s ∈ times) : s ≤ now := by
  rcases times.eq_nil_or_concat' with rfl | ⟨front, last, rfl⟩
  · cases hs
  · have hle : last ≤ now := hlast last (by simp)
    rcases List.mem_append.mp hs with hfront | hend
    · have hbefore := (List.pairwise_append.mp hsorted).2.2 s hfront last List.mem_cons_self
      exact hbefore.trans hle
    · exact (List.mem_singleton.mp hend).trans_le hle

theorem Kept.getLast?_eq (h : Kept width limit times kept) (hwidth : 0 < width) :
    kept.getLast? = times.getLast? := by
  rcases times.eq_nil_or_concat' with rfl | ⟨front, last, rfl⟩
  · rw [h.nil rfl]
  · have hself : WindowLog.recent width last [last] = [last] := by
      rw [WindowLog.recent, List.filter_eq_self]
      intro s hs
      rw [List.mem_singleton.mp hs, sub_self]
      exact decide_eq_true hwidth
    rw [h.recent last (by simp), WindowLog.recent, List.filter_append]
    rw [WindowLog.recent] at hself
    rw [hself, List.getLast?_concat, List.getLast?_concat]

variable [IsOrderedAddMonoid T]

/-- What is recent of the kept times is all that is recent. -/
theorem Kept.recent_eq (h : Kept width limit times kept)
    (hlast : ∀ last ∈ times.getLast?, last ≤ now) :
    WindowLog.recent width now kept = WindowLog.recent width now times := by
  cases hend : times.getLast? with
  | none =>
      rw [List.getLast?_eq_none_iff] at hend
      rw [h.nil hend, hend]
  | some last =>
      have hle : last ≤ now := hlast last hend
      rw [h.recent last hend, WindowLog.recent, WindowLog.recent, List.filter_filter]
      refine List.filter_congr fun s _ => ?_
      rw [Bool.and_eq_left_iff_imp, decide_eq_true_iff, decide_eq_true_iff]
      exact fun hnow => (sub_le_sub_right hle s).trans_lt hnow

/-- The recent times are those in the window that ends now. -/
theorem Kept.within_eq (h : Kept width limit times kept)
    (hlast : ∀ last ∈ times.getLast?, last ≤ now) :
    within width now times = WindowLog.recent width now kept := by
  rw [h.recent_eq hlast]
  refine List.filter_congr fun s hs => ?_
  rw [decide_eq_decide, sub_lt_comm]
  exact and_iff_left (le_of_getLast? h.sorted hlast hs)

/-- The kept times fit in one window. -/
theorem Kept.length_le (h : Kept width limit times kept) : kept.length ≤ limit := by
  cases hend : times.getLast? with
  | none =>
      rw [h.nil (List.getLast?_eq_none_iff.mp hend)]
      exact Nat.zero_le _
  | some last =>
      have hsame : ∀ other ∈ times.getLast?, other ≤ last := by
        intro other hother
        rw [hend, Option.mem_some_iff] at hother
        exact hother.ge
      have hwithin := h.bounded last
      rwa [h.within_eq hsame, h.recent_eq hsame, ← h.recent last hend] at hwithin

/-- An event is admitted while its window has room. -/
theorem Kept.push (h : Kept width limit times kept) (hwidth : 0 < width)
    (hlast : ∀ last ∈ times.getLast?, last ≤ now)
    (hroom : (WindowLog.recent width now kept).length < limit) :
    Kept width limit (times ++ [now]) (WindowLog.recent width now kept ++ [now]) where
  sorted := by
    refine List.pairwise_append.mpr ⟨h.sorted, List.pairwise_singleton _ _, fun s hs t ht => ?_⟩
    rw [List.mem_singleton.mp ht]
    exact le_of_getLast? h.sorted hlast hs
  bounded t := by
    rw [within, List.filter_append, List.length_append]
    by_cases hnow : t - width < now ∧ now ≤ t
    · -- A window that holds the new event starts after all that is not recent.
      have hsub : (within width t times).Sublist (WindowLog.recent width now times) := by
        refine List.monotone_filter_right times fun s hs => ?_
        rw [decide_eq_true_iff] at hs ⊢
        exact sub_lt_comm.mp ((sub_le_sub_right hnow.2 width).trans_lt hs.1)
      have hcount := hsub.length_le
      rw [← h.recent_eq hlast] at hcount
      have hone : (List.filter (fun s => decide (t - width < s ∧ s ≤ t)) [now]).length ≤ 1 :=
        List.length_filter_le _ _
      exact (Nat.add_le_add hcount hone).trans hroom
    · have hnone : List.filter (fun s => decide (t - width < s ∧ s ≤ t)) [now] = [] := by
        rw [List.filter_eq_nil_iff]
        intro s hs
        rw [List.mem_singleton.mp hs, decide_eq_true_iff]
        exact hnow
      rw [hnone]
      exact h.bounded t
  nil hempty := absurd hempty (by simp)
  recent last hend := by
    rw [List.getLast?_concat, Option.mem_some_iff] at hend
    subst hend
    rw [h.recent_eq hlast]
    simp [WindowLog.recent, hwidth]

end WindowLog
