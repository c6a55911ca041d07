import Mathlib.Data.List.DropRight
import Mathlib.Data.List.SplitBy
import Mathlib.Tactic.Abel

/-!
# Runs of a list

The runs of a list under a relation are its longest pieces in which every element
is related to the next (`List.splitBy`). A program that reads a list from the left
sees them grow: the next element either extends the last run or starts a new one.
A bounded queue that is cleared at every start holds the end of the last run.
-/

universe u

namespace Runs

variable {α : Type u} {r : α → α → Bool} {l m : List α} {a x : α}

/-- The run that a list ends in. -/
def lastRun (r : α → α → Bool) (l : List α) : List α := (l.splitBy r).getLastD []

@[simp] theorem lastRun_nil : lastRun r [] = [] := rfl

/-- A list that ends in an element the next one does not follow. -/
def Breaks (r : α → α → Bool) (l : List α) (a : α) : Prop := ∀ x ∈ l.getLast?, r x a = false

/-- A break starts a new run. -/
theorem splitBy_concat_of_breaks (h : Breaks r l a) :
    (l ++ [a]).splitBy r = l.splitBy r ++ [[a]] := by
  rw [List.splitBy_append_cons [] h]
  rfl

theorem splitBy_eq_concat_lastRun (h : l ≠ []) :
    l.splitBy r = (l.splitBy r).dropLast ++ [lastRun r l] := by
  have hne : l.splitBy r ≠ [] := List.splitBy_ne_nil.mpr h
  rw [lastRun, List.getLastD_eq_getLast?, List.getLast?_eq_some_getLast hne, Option.getD_some,
    List.dropLast_append_getLast]

theorem lastRun_ne_nil (h : l ≠ []) : lastRun r l ≠ [] := by
  apply List.ne_nil_of_mem_splitBy (r := r) (l := l)
  rw [splitBy_eq_concat_lastRun h]
  simp

theorem isChain_lastRun : (lastRun r l).IsChain fun x y => r x y := by
  by_cases h : l = []
  · simp [h]
  · apply List.isChain_of_mem_splitBy (l := l)
    rw [splitBy_eq_concat_lastRun h]
    simp

theorem flatten_dropLast_append_lastRun (h : l ≠ []) :
    (l.splitBy r).dropLast.flatten ++ lastRun r l = l := by
  have hsplit := List.flatten_splitBy r l
  rw [splitBy_eq_concat_lastRun h] at hsplit
  simpa using hsplit

theorem lastRun_isSuffix : lastRun r l <:+ l := by
  by_cases h : l = []
  · simp [h]
  · exact ⟨_, flatten_dropLast_append_lastRun h⟩

theorem getLast?_lastRun : (lastRun r l).getLast? = l.getLast? := by
  by_cases h : l = []
  · simp [h]
  · conv_rhs => rw [← flatten_dropLast_append_lastRun (r := r) h]
    rw [List.getLast?_append_of_ne_nil _ (lastRun_ne_nil h)]

/-- An element that follows the last one extends the last run. -/
theorem splitBy_concat_of_follows (hx : x ∈ l.getLast?) (h : r x a = true) :
    (l ++ [a]).splitBy r = (l.splitBy r).dropLast ++ [lastRun r l ++ [a]] := by
  have hne : l ≠ [] := by
    rintro rfl
    simp at hx
  obtain ⟨hflat, hnil, hchain, hbreak⟩ :=
    List.splitBy_eq_iff.mp (splitBy_eq_concat_lastRun (r := r) hne)
  rw [List.splitBy_eq_iff]
  refine ⟨?_, ?_, ?_, ?_⟩
  · rw [List.flatten_append, List.flatten_singleton, ← List.append_assoc,
      flatten_dropLast_append_lastRun hne]
  · simp only [List.mem_append, List.mem_singleton, not_or] at hnil ⊢
    exact ⟨hnil.1, by simp⟩
  · intro run hrun
    rcases List.mem_append.mp hrun with hrun | hrun
    · exact hchain run (List.mem_append_left _ hrun)
    · rw [List.mem_singleton.mp hrun, List.isChain_append]
      refine ⟨isChain_lastRun, by simp, ?_⟩
      intro y hy z hz
      rw [getLast?_lastRun, Option.mem_def.mp hx] at hy
      cases hy
      cases hz
      exact h
  · rw [List.isChain_append] at hbreak ⊢
    refine ⟨hbreak.1, by simp, ?_⟩
    intro y hy z hz
    cases hz
    obtain ⟨hy', hz', hlast⟩ := hbreak.2.2 y hy _ (by rfl)
    refine ⟨hy', by simp, ?_⟩
    rwa [List.head_append_of_ne_nil hz']

theorem lastRun_concat_of_breaks (h : Breaks r l a) : lastRun r (l ++ [a]) = [a] := by
  rw [lastRun, splitBy_concat_of_breaks h]
  simp

theorem lastRun_concat_of_follows (hx : x ∈ l.getLast?) (h : r x a = true) :
    lastRun r (l ++ [a]) = lastRun r l ++ [a] := by
  rw [lastRun, splitBy_concat_of_follows hx h]
  simp

/-- Every chain that a list ends in lies in its last run. -/
theorem isSuffix_lastRun (hm : m <:+ l) (hchain : m.IsChain fun x y => r x y) :
    m <:+ lastRun r l := by
  induction l using List.reverseRecOn generalizing m with
  | nil => simpa using hm
  | append_singleton l a ih =>
      rcases List.eq_nil_or_concat m with rfl | ⟨m, b, rfl⟩
      · exact List.nil_suffix
      · rw [List.concat_eq_append] at hm hchain ⊢
        obtain ⟨front, hfront⟩ := hm
        rw [← List.append_assoc] at hfront
        obtain ⟨rfl, hb⟩ := List.append_inj' hfront rfl
        cases hb
        by_cases hbreak : Breaks r (front ++ m) a
        · rw [lastRun_concat_of_breaks hbreak]
          rcases List.eq_nil_or_concat m with rfl | ⟨m, c, rfl⟩
          · simp
          · rw [List.concat_eq_append] at hchain hbreak
            have hfollows : r c a = true := by
              rw [List.append_assoc, List.isChain_append] at hchain
              simpa using hchain.2.1
            have hnot : r c a = false := hbreak c (by simp [← List.append_assoc])
            rw [hfollows] at hnot
            cases hnot
        · obtain ⟨y, hy, hr⟩ : ∃ y ∈ (front ++ m).getLast?, r y a = true := by
            simpa [Breaks] using hbreak
          rw [lastRun_concat_of_follows hy hr]
          obtain ⟨rest, hrest⟩ := ih ⟨front, rfl⟩ (List.isChain_append.mp hchain).1
          exact ⟨rest, by rw [← List.append_assoc, hrest]⟩

/-! ## Bounded queues -/

/-- `deque.append` under a `maxlen`: a full queue loses its oldest element. -/
def appendBounded (maxlen : ℕ) (queue : List α) (x : α) : List α := (queue ++ [x]).rtake maxlen

theorem length_rtake (n : ℕ) (l : List α) : (l.rtake n).length = min n l.length := by
  rw [List.rtake, List.length_drop]
  omega

/-- A queue of the last elements stays one. -/
theorem appendBounded_rtake (n : ℕ) (l : List α) (x : α) :
    appendBounded n (l.rtake n) x = (l ++ [x]).rtake n := by
  cases n with
  | zero => simp [appendBounded]
  | succ n =>
      rw [appendBounded, List.rtake_concat_succ, List.rtake_concat_succ, List.rtake, List.rtake,
        List.rtake, List.drop_drop, List.length_drop]
      congr 2
      omega

/-- A running sum that drops the oldest element when the queue is full stays the sum. -/
theorem sum_appendBounded {G : Type u} [AddCommGroup G] {n : ℕ} {queue : List G} (x : G)
    (hpos : 0 < n) (hlength : queue.length ≤ n) :
    (appendBounded n queue x).sum =
      (if queue.length = n then queue.sum - queue.headD 0 else queue.sum) + x := by
  split
  case isTrue hfull =>
    cases queue with
    | nil => simp at hfull; omega
    | cons oldest queue =>
        subst hfull
        simp [appendBounded, List.rtake]
  case isFalse hroom =>
    have hfits : (queue ++ [x]).length - n = 0 := by
      simp
      omega
    rw [appendBounded, List.rtake, hfits, List.drop_zero, List.sum_append, List.sum_singleton]

/-- A suffix is the end of the list of its length. -/
theorem rtake_length_of_isSuffix (h : m <:+ l) : l.rtake m.length = m := by
  obtain ⟨front, rfl⟩ := h
  simp [List.rtake]

end Runs
