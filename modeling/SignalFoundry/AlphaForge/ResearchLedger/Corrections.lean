import SignalFoundry.AlphaForge.ResearchLedger.Calls
import SignalFoundry.Library.BenjaminiHochberg
import SignalFoundry.Library.ExactFloat
import SignalFoundry.Library.Holm

/-!
# The correction of p-values is exact

Read over the rationals, `adjust_p_values` assigns to every trial the adjusted value of
its p-value, and equal p-values are adjusted alike. So the trials it rejects are those
that the procedure of the policy rejects on the sorted p-values, in whatever order it
lists equal ones.
-/

namespace SignalFoundry.ResearchLedger

open Fallible

namespace CorrectionMethod

variable {α : Type} [Field α] [LinearOrder α] (method : CorrectionMethod)

/-- The rejections of the procedure among p-values in increasing order. -/
def rejections (level : α) (ps : List α) : List Bool :=
  match method with
  | holmBonferroni => Holm.stepDown level ps
  | benjaminiHochberg => BenjaminiHochberg.stepUp level ps

/-- The adjusted values of p-values in increasing order. -/
def adjust (ps : List α) : List α :=
  match method with
  | holmBonferroni => Holm.adjustFrom 0 ps
  | benjaminiHochberg => (BenjaminiHochberg.adjustDown ps.length 1 ps.reverse).reverse

variable {method} {level : α} {ps : List α}

theorem length_adjust : (method.adjust ps).length = ps.length := by
  cases method with
  | holmBonferroni => exact Holm.length_adjustFrom ps
  | benjaminiHochberg =>
      rw [adjust, List.length_reverse, BenjaminiHochberg.length_adjustDown, List.length_reverse]

variable [IsStrictOrderedRing α]

/-- A hypothesis is rejected exactly when its adjusted value is at most the level. -/
theorem map_adjust (hpos : 0 < level) (hlevel : level < 1) (ps : List α) :
    (method.adjust ps).map (fun a => decide (a ≤ level)) = method.rejections level ps := by
  cases method with
  | holmBonferroni => exact Holm.map_adjustFrom hlevel hpos.le ps
  | benjaminiHochberg =>
      rw [adjust, rejections, List.map_reverse, BenjaminiHochberg.stepUp]
      rcases ps.eq_nil_or_concat with rfl | ⟨init, last, rfl⟩
      · rfl
      · rw [BenjaminiHochberg.map_adjustDown (by simp) hlevel hlevel]

theorem adjust_eq_of_eq (hsorted : ps.Pairwise (· ≤ ·)) (hnonneg : ∀ p ∈ ps, 0 ≤ p) {x y : α × α}
    (hx : x ∈ ps.zip (method.adjust ps)) (hy : y ∈ ps.zip (method.adjust ps)) (heq : x.1 = y.1) :
    x.2 = y.2 := by
  cases method with
  | holmBonferroni =>
      exact le_antisymm (Holm.adjustFrom_mono hsorted hnonneg hx hy heq.le)
        (Holm.adjustFrom_mono hsorted hnonneg hy hx heq.ge)
  | benjaminiHochberg =>
      have hzip : ps.zip (adjust benjaminiHochberg ps) = (ps.reverse.zip
          (BenjaminiHochberg.adjustDown ps.length 1 ps.reverse)).reverse := by
        rw [adjust, List.zip_eq_zipWith, List.zip_eq_zipWith, List.reverse_zipWith
          (by rw [BenjaminiHochberg.length_adjustDown]), List.reverse_reverse]
      rw [hzip, List.mem_reverse] at hx hy
      exact BenjaminiHochberg.adjustDown_eq_of_eq (List.pairwise_reverse.mpr hsorted)
        (fun p hp => hnonneg p (List.mem_reverse.mp hp)) hx hy heq

/-- Values assigned to names as the procedure adjusts their p-values decide as it does, in
every order of nondecreasing p-values. -/
theorem map_assigned {ordered : List (String × α)} (assigned : String → α) (hpos : 0 < level)
    (hlevel : level < 1) (hsorted : ordered.Pairwise fun a b => a.2 ≤ b.2)
    (hnonneg : ∀ p ∈ ordered, 0 ≤ p.2)
    (hassigned : ∀ p ∈ ordered, (p.2, assigned p.1) ∈
      (ordered.map Prod.snd).zip (method.adjust (ordered.map Prod.snd))) :
    ordered.map (fun p => decide (assigned p.1 ≤ level)) =
      method.rejections level (ordered.map Prod.snd) := by
  have hpairwise : (ordered.map Prod.snd).Pairwise (· ≤ ·) := List.pairwise_map.mpr hsorted
  have hpositive : ∀ p ∈ ordered.map Prod.snd, 0 ≤ p := by
    simpa using fun value name hmem => hnonneg (name, value) hmem
  rw [← map_adjust hpos hlevel]
  refine List.ext_getElem (by simp [length_adjust]) fun i hi hi' => ?_
  rw [List.getElem_map, List.getElem_map]
  rw [List.length_map] at hi hi'
  have hvalue : i < (ordered.map Prod.snd).length := by simpa using hi
  have hplace : ((ordered.map Prod.snd)[i],
      (method.adjust (ordered.map Prod.snd))[i]) ∈
        (ordered.map Prod.snd).zip (method.adjust (ordered.map Prod.snd)) :=
    List.mem_iff_getElem.mpr ⟨i, by simpa [length_adjust] using hi, by simp⟩
  have heq := adjust_eq_of_eq hpairwise hpositive (hassigned ordered[i] (List.getElem_mem hi))
    hplace (by simp)
  simp only at heq
  rw [heq]

end CorrectionMethod

/-! ## The values that the code assigns -/

section Code

variable {limit : ℕ}

theorem adjustedOrdered_holm_eq (running : ExactFloat limit) (values : List (String × ExactFloat limit)) :
    adjustedOrdered.holm running values =
      (values.map Prod.fst).zip (Holm.adjustFrom running (values.map Prod.snd)) := by
  induction values generalizing running with
  | nil => rfl
  | cons p rest ih =>
      obtain ⟨trialId, value⟩ := p
      rw [adjustedOrdered.holm, ih]
      simp [Holm.adjustFrom]

theorem adjustedOrdered_stepUp_eq (count : ℕ) (running : ExactFloat limit)
    (values : List (String × ExactFloat limit)) :
    adjustedOrdered.stepUp count running values =
      (values.map Prod.fst).zip
        (BenjaminiHochberg.adjustDown count running (values.map Prod.snd)) := by
  induction values generalizing running with
  | nil => rfl
  | cons p rest ih =>
      obtain ⟨trialId, value⟩ := p
      rw [adjustedOrdered.stepUp, ih]
      simp [BenjaminiHochberg.adjustDown]

theorem perm_orderedPValues (values : List (String × ExactFloat limit)) :
    (orderedPValues values).Perm values :=
  List.perm_insertionSort _ values

theorem pairwise_orderedPValues (values : List (String × ExactFloat limit)) :
    (orderedPValues values).Pairwise fun a b => a.2 ≤ b.2 := by
  have hiff : ∀ a b : String × ExactFloat limit,
      (PyFloat.lt a.2 b.2 = true ∨ (PyFloat.lt b.2 a.2 = false ∧ a.1 ≤ b.1)) ↔
        toLex (a.2, a.1) ≤ toLex (b.2, b.1) := by
    intro a b
    rw [Prod.Lex.toLex_le_toLex, ← Bool.not_eq_true, ExactFloat.lt_iff, ExactFloat.lt_iff, not_lt]
    constructor
    · rintro (hlt | ⟨hle, hid⟩)
      · exact .inl hlt
      · exact hle.lt_or_eq.imp id fun heq => ⟨heq, hid⟩
    · rintro (hlt | ⟨heq, hid⟩)
      · exact .inl hlt
      · exact .inr ⟨heq.le, hid⟩
  let r (a b : String × ExactFloat limit) : Prop :=
    PyFloat.lt a.2 b.2 = true ∨ (PyFloat.lt b.2 a.2 = false ∧ a.1 ≤ b.1)
  have : Std.Total r := ⟨fun a b => by
    simp only [r, hiff]
    exact le_total _ _⟩
  have : IsTrans _ r := ⟨fun a b c hab hbc => (hiff a c).mpr
    (((hiff a b).mp hab).trans ((hiff b c).mp hbc))⟩
  have hsorted : (orderedPValues values).Pairwise r := List.pairwise_insertionSort r values
  exact hsorted.imp fun {a b} hab =>
    (Prod.Lex.toLex_le_toLex.mp ((hiff a b).mp hab)).elim le_of_lt fun h => h.1.le

/-- The adjusted values in the order of the sort. -/
theorem adjustedOrdered_eq (method : CorrectionMethod)
    (ordered : List (String × ExactFloat limit)) :
    adjustedOrdered method ordered =
      (ordered.map Prod.fst).zip (method.adjust (ordered.map Prod.snd)) := by
  cases method with
  | holmBonferroni => simp [adjustedOrdered, adjustedOrdered_holm_eq, CorrectionMethod.adjust]
  | benjaminiHochberg =>
      simp only [adjustedOrdered, adjustedOrdered_stepUp_eq, CorrectionMethod.adjust,
        List.map_reverse, List.length_map, ExactFloat.ofNat_eq, Nat.cast_one]
      rw [List.zip_eq_zipWith, List.zip_eq_zipWith, List.reverse_zipWith (by
        simp [BenjaminiHochberg.length_adjustDown]), List.reverse_reverse]

/-- What `adjust_p_values` returns for a complete family. -/
structure Corrected (policy : MultipleTestingPolicy (ExactFloat limit))
    (values : List (String × ExactFloat limit)) (rejected : OrderedDict String Bool) : Prop where
  keys : rejected.keys = values.map Prod.fst
  /-- The trials that are rejected, in any order of nondecreasing p-values. -/
  rejections : ∀ ordered : List (String × ExactFloat limit), ordered.Perm values →
    ordered.Pairwise (fun a b => a.2 ≤ b.2) →
      ordered.map (fun p => rejected.getD p.1 false) =
        policy.method.rejections policy.alpha (ordered.map Prod.snd)

theorem adjustPValues_corrected {policy : MultipleTestingPolicy (ExactFloat limit)}
    {values : List (String × ExactFloat limit)} (hlength : values.length = policy.familySize)
    (hnodup : (values.map Prod.fst).Nodup) (hrange : ∀ p ∈ values, 0 ≤ p.2 ∧ p.2 ≤ 1) :
    ∃ adjusted rejected, adjustPValues policy values = .ok (adjusted, rejected) ∧
      adjusted.keys.Perm (values.map Prod.fst) ∧ Corrected policy values rejected := by
  have hvalid : values.all (fun p => PyFloat.isFinite p.2 && PyFloat.le PyFloat.zero p.2 &&
      PyFloat.le p.2 (PyFloat.ofNat 1)) = true := by
    refine List.all_eq_true.mpr fun p hp => ?_
    rw [Bool.and_eq_true, Bool.and_eq_true, ExactFloat.le_iff, ExactFloat.le_iff]
    exact ⟨⟨rfl, by simpa using (hrange p hp).1⟩, by simpa using (hrange p hp).2⟩
  have hperm := perm_orderedPValues values
  have hkeys : ((orderedPValues values).map Prod.fst).Nodup := (hperm.map _).nodup_iff.mpr hnodup
  have hsorted := pairwise_orderedPValues values
  have hadjusted := adjustedOrdered_eq policy.method (orderedPValues values)
  have hlen : (policy.method.adjust ((orderedPValues values).map Prod.snd)).length =
      (orderedPValues values).length := by
    rw [CorrectionMethod.length_adjust, List.length_map]
  have hfst : (adjustedOrdered policy.method (orderedPValues values)).map Prod.fst =
      (orderedPValues values).map Prod.fst := by
    rw [hadjusted, List.map_fst_zip (by rw [hlen, List.length_map])]
  have hitems := OrderedDict.items_ofItems (hfst ▸ hkeys)
  -- every trial is assigned the adjusted value of its p-value
  have hassigned : ∀ p ∈ values,
      (p.2, (OrderedDict.ofItems (adjustedOrdered policy.method (orderedPValues values))).getD p.1
        PyFloat.zero) ∈ ((orderedPValues values).map Prod.snd).zip
          (policy.method.adjust ((orderedPValues values).map Prod.snd)) := by
    intro p hp
    obtain ⟨i, hi, hget⟩ := List.mem_iff_getElem.mp (hperm.mem_iff.mpr hp)
    have hi' := hlen ▸ hi
    have hmem : (p.1, (policy.method.adjust ((orderedPValues values).map Prod.snd))[i]) ∈
        adjustedOrdered policy.method (orderedPValues values) := by
      rw [hadjusted]
      exact List.mem_iff_getElem.mpr ⟨i, by simpa using ⟨hi, hi'⟩, by simp [hget]⟩
    rw [OrderedDict.getD_of_some (OrderedDict.get?_eq_some_iff.mpr (hitems.symm ▸ hmem))]
    exact List.mem_iff_getElem.mpr ⟨i, by simpa using ⟨hi, hi'⟩, by simp [hget]⟩
  generalize hbyTrial : OrderedDict.ofItems
    (adjustedOrdered policy.method (orderedPValues values)) = byTrial at hitems hassigned
  have hrejectedKeys : (values.map fun p => (p.1,
      PyFloat.le (byTrial.getD p.1 PyFloat.zero) policy.alpha)).map Prod.fst =
        values.map Prod.fst := by
    rw [List.map_map]
    rfl
  have hrejectedItems := OrderedDict.items_ofItems (hrejectedKeys.symm ▸ hnodup)
  refine ⟨byTrial, OrderedDict.ofItems (values.map fun p => (p.1,
    PyFloat.le (byTrial.getD p.1 PyFloat.zero) policy.alpha)), ?_, ?_, ?_, ?_⟩
  · rw [adjustPValues, refuseIf_of_not (by simp [hlength, hnodup]), ok_bind,
      refuseIf_of_not (not_not.mpr hvalid), ok_bind, hbyTrial]
    rfl
  · rw [OrderedDict.keys, hitems, hfst]
    exact hperm.map _
  · rw [OrderedDict.keys, hrejectedItems, hrejectedKeys]
  · intro ordered hordered hpairwise
    -- the sorted p-values are the same in both orders
    have hvalues : ordered.map Prod.snd = (orderedPValues values).map Prod.snd :=
      ((hordered.trans hperm.symm).map Prod.snd).eq_of_pairwise
        (fun _ _ _ _ => le_antisymm) (List.pairwise_map.mpr hpairwise)
        (List.pairwise_map.mpr hsorted)
    obtain ⟨-, hpos, hlevel⟩ := policy.alpha_mem
    rw [ExactFloat.lt_iff] at hpos hlevel
    rw [← CorrectionMethod.map_assigned (fun name => byTrial.getD name PyFloat.zero)
      (by simpa using hpos) (by simpa using hlevel) hpairwise
      (fun p hp => (hrange p (hordered.mem_iff.mp hp)).1)
      fun p hp => hvalues.symm ▸ hassigned p (hordered.mem_iff.mp hp)]
    refine List.map_congr_left fun p hp => ?_
    have hmem : (p.1, PyFloat.le (byTrial.getD p.1 PyFloat.zero) policy.alpha) ∈
        (OrderedDict.ofItems (values.map fun p => (p.1,
          PyFloat.le (byTrial.getD p.1 PyFloat.zero) policy.alpha))).items := by
      rw [hrejectedItems]
      exact List.mem_map.mpr ⟨p, hordered.mem_iff.mp hp, rfl⟩
    rw [OrderedDict.getD_of_some (OrderedDict.get?_eq_some_iff.mpr hmem)]
    rfl

end Code

end SignalFoundry.ResearchLedger
