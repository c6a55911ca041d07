import SignalFoundry.AlphaForge.ResearchLedger.Plan
import SignalFoundry.Library.ParentChains

/-!
# The lineage of trials

A frozen plan walks from each of its trials to the root. The check that a trial's parent
is known comes with the trial, so a walk can arrive at a parent that no trial has yet been
found to lack; and nothing keeps a trial from being called by the name of the root.
-/

namespace SignalFoundry.ResearchLedger

open Fallible ParentChains

section Walk

variable {parents : OrderedDict String String} {visited : Finset String} {cursor : String}

/-- The three ends of a walk. -/
theorem walkToRoot_cases (h : Trail parents.get? rootTrialId visited cursor) :
    (walkToRoot parents visited cursor = .ok () ∧ Leads parents.get? cursor rootTrialId) ∨
      ((∃ name, walkToRoot parents visited cursor = .error (.lookup name)) ∧
        Strays parents.get? rootTrialId cursor) ∨
      ((∃ message, walkToRoot parents visited cursor = .error (.governance message)) ∧
        Circles parents.get? rootTrialId cursor) := by
  fun_induction walkToRoot parents visited cursor with
  | case1 visited => exact .inl ⟨rfl, .refl⟩
  | case2 visited cursor hroot hvisited =>
      exact .inr (.inr ⟨⟨_, rfl⟩, h.circles hvisited⟩)
  | case3 visited cursor hroot hvisited hparent =>
      exact .inr (.inl ⟨⟨_, rfl⟩, strays_of_none hparent hroot⟩)
  | case4 visited cursor hroot hvisited parent hparent ih =>
      rcases ih (h.step hroot hparent) with ⟨hok, hleads⟩ | ⟨herror, hstrays⟩ | ⟨herror, hcircles⟩
      · exact .inl ⟨hok, (leads_root_iff_of_isParent hparent hroot).mpr hleads⟩
      · exact .inr (.inl ⟨herror, hstrays.of_isParent hparent hroot⟩)
      · exact .inr (.inr ⟨herror, hcircles.of_isParent hparent hroot⟩)

theorem walkToRoot_eq_ok_iff (h : Trail parents.get? rootTrialId visited cursor) :
    walkToRoot parents visited cursor = .ok () ↔ Leads parents.get? cursor rootTrialId := by
  rcases walkToRoot_cases h with ⟨hok, hleads⟩ | ⟨⟨name, herror⟩, hstrays⟩ | ⟨⟨_, herror⟩, hcircles⟩
  · exact iff_of_true hok hleads
  · exact iff_of_false (fun hok => nomatch hok.symm.trans herror) hstrays.1
  · exact iff_of_false (fun hok => nomatch hok.symm.trans herror) hcircles.not_leads

theorem walkToRoot_lookup_iff (h : Trail parents.get? rootTrialId visited cursor) :
    (∃ name, walkToRoot parents visited cursor = .error (.lookup name)) ↔
      Strays parents.get? rootTrialId cursor := by
  rcases walkToRoot_cases h with ⟨hok, hleads⟩ | ⟨herror, hstrays⟩ | ⟨⟨_, herror⟩, hcircles⟩
  · exact iff_of_false (fun ⟨_, herror⟩ => nomatch hok.symm.trans herror)
      fun hstrays => hstrays.1 hleads
  · exact iff_of_true herror hstrays
  · exact iff_of_false (fun ⟨_, hlookup⟩ => nomatch hlookup.symm.trans herror)
      fun hstrays => hstrays.not_circles hcircles

end Walk

/-! ## Trials and their parents -/

variable {F : Type} [PyFloat F] {trials : List (TrialSpec F)} {trial : TrialSpec F}

/-- The parent of the trial of a name. -/
def parentOf (trials : List (TrialSpec F)) (name : String) : Option String :=
  (trials.map fun trial => (trial.trialId, trial.parentTrialId)).lookup name

/-- The parent of a trial is the root or the name of a trial. -/
def KnownParent (trials : List (TrialSpec F)) (trial : TrialSpec F) : Prop :=
  trial.parentTrialId = rootTrialId ∨ ∃ other ∈ trials, other.trialId = trial.parentTrialId

structure Rooted (trials : List (TrialSpec F)) (trial : TrialSpec F) : Prop where
  known : KnownParent trials trial
  leads : Leads (parentOf trials) trial.trialId rootTrialId

theorem map_fst_parents (trials : List (TrialSpec F)) :
    (trials.map fun trial => (trial.trialId, trial.parentTrialId)).map Prod.fst =
      trials.map TrialSpec.trialId := by
  rw [List.map_map]
  rfl

section Nodup

variable (hnodup : (trials.map TrialSpec.trialId).Nodup)

include hnodup

theorem items_parents :
    (OrderedDict.ofItems (trials.map fun trial => (trial.trialId, trial.parentTrialId))).items =
      trials.map fun trial => (trial.trialId, trial.parentTrialId) :=
  OrderedDict.items_ofItems (by rwa [map_fst_parents])

theorem get?_parents :
    (OrderedDict.ofItems (trials.map fun trial => (trial.trialId, trial.parentTrialId))).get? =
      parentOf trials := by
  funext name
  rw [OrderedDict.get?, items_parents hnodup]
  rfl

theorem mem_keys_parents {name : String} :
    name ∈ (OrderedDict.ofItems
        (trials.map fun trial => (trial.trialId, trial.parentTrialId))).keys ↔
      ∃ trial ∈ trials, trial.trialId = name := by
  rw [OrderedDict.keys, items_parents hnodup, map_fst_parents, List.mem_map]

theorem parentOf_isSome_iff {name : String} :
    (parentOf trials name).isSome ↔ ∃ trial ∈ trials, trial.trialId = name := by
  rw [← mem_keys_parents hnodup, OrderedDict.mem_keys_iff, get?_parents hnodup,
    Option.isSome_iff_exists]

theorem validateLineage_eq : validateLineage trials = trials.forM fun trial =>
    checkParent (.ofItems (trials.map fun trial => (trial.trialId, trial.parentTrialId)))
      trial.trialId trial.parentTrialId := by
  rw [validateLineage, items_parents hnodup, List.forM_eq_forM, List.forM_map]
  rfl

theorem known_iff : ¬ (trial.parentTrialId ≠ rootTrialId ∧ trial.parentTrialId ∉
      (OrderedDict.ofItems
        (trials.map fun trial => (trial.trialId, trial.parentTrialId))).keys) ↔
    KnownParent trials trial := by
  rw [mem_keys_parents hnodup, not_and_or, not_not, not_not]
  rfl

theorem checkParent_eq_ok_iff :
    checkParent (.ofItems (trials.map fun trial => (trial.trialId, trial.parentTrialId)))
      trial.trialId trial.parentTrialId = .ok () ↔ Rooted trials trial := by
  rw [checkParent, bind_eq_ok_iff]
  simp only [refuseIf_eq_ok_iff, exists_const, known_iff hnodup, walkToRoot_eq_ok_iff Trail.empty,
    get?_parents hnodup]
  constructor
  · rintro ⟨hknown, hleads⟩
    exact ⟨hknown, hleads⟩
  · exact fun h => ⟨h.known, h.leads⟩

theorem checkParent_lookup_iff :
    (∃ name, checkParent
        (.ofItems (trials.map fun trial => (trial.trialId, trial.parentTrialId)))
        trial.trialId trial.parentTrialId = .error (.lookup name)) ↔
      KnownParent trials trial ∧ Strays (parentOf trials) rootTrialId trial.trialId := by
  rw [← get?_parents hnodup, ← walkToRoot_lookup_iff Trail.empty, ← known_iff hnodup]
  simp only [checkParent, bind_eq_error_iff, refuseIf_eq_ok_iff, refuseIf_eq_error_iff,
    reduceCtorEq, and_false, false_or, exists_const, exists_and_left]

theorem validateLineage_eq_ok_iff :
    validateLineage trials = .ok () ↔ ∀ trial ∈ trials, Rooted trials trial := by
  rw [validateLineage_eq hnodup, forM_eq_ok_iff]
  simp only [checkParent_eq_ok_iff hnodup]

/-- The dictionary is asked for a parent that is no trial if the first trial that is not
rooted has a known parent and strays. -/
theorem validateLineage_lookup_iff :
    (∃ name, validateLineage trials = .error (.lookup name)) ↔
      ∃ before trial after, trials = before ++ trial :: after ∧
        (∀ earlier ∈ before, Rooted trials earlier) ∧ KnownParent trials trial ∧
          Strays (parentOf trials) rootTrialId trial.trialId := by
  simp only [validateLineage_eq hnodup, forM_eq_error_iff, checkParent_eq_ok_iff hnodup,
    ← checkParent_lookup_iff hnodup]
  constructor
  · rintro ⟨name, before, trial, after, htrials, hbefore, herror⟩
    exact ⟨before, trial, after, htrials, hbefore, name, herror⟩
  · rintro ⟨before, trial, after, htrials, hbefore, name, herror⟩
    exact ⟨name, before, trial, after, htrials, hbefore, herror⟩

/-- Trials that all begin at the root. -/
theorem validateLineage_of_parents (h : ∀ trial ∈ trials, trial.parentTrialId = rootTrialId) :
    validateLineage trials = .ok () := by
  refine (validateLineage_eq_ok_iff hnodup).mpr fun trial htrial => ⟨.inl (h trial htrial), ?_⟩
  refine .single ?_
  have hitem : (trial.trialId, trial.parentTrialId) ∈
      (OrderedDict.ofItems
        (trials.map fun trial => (trial.trialId, trial.parentTrialId))).items := by
    rw [items_parents hnodup]
    exact List.mem_map_of_mem htrial
  rw [IsParent, ← get?_parents hnodup, ← h trial htrial]
  exact OrderedDict.get?_eq_some_iff.mpr hitem

end Nodup

/-! ## Forests -/

/-- Every trial leads to the root, which is no trial, and none is its own ancestor. -/
structure IsForest (trials : List (TrialSpec F)) : Prop where
  acyclic : ∀ trial ∈ trials, ¬ IsAncestor (parentOf trials) trial.trialId trial.trialId
  reaches : ∀ trial ∈ trials, ∃ n ≤ trials.length,
    climb (parentOf trials) n trial.trialId = some rootTrialId
  root_ne : ∀ trial ∈ trials, trial.trialId ≠ rootTrialId

/-- Rooted trials of which none is called by the name of the root are a forest. -/
theorem isForest_of_rooted (hnodup : (trials.map TrialSpec.trialId).Nodup)
    (hroot : ∀ trial ∈ trials, trial.trialId ≠ rootTrialId)
    (h : ∀ trial ∈ trials, Rooted trials trial) : IsForest trials := by
  have hnone : parentOf trials rootTrialId = none := by
    rw [← Option.not_isSome_iff_eq_none, parentOf_isSome_iff hnodup]
    rintro ⟨trial, htrial, heq⟩
    exact hroot trial htrial heq
  have hkeys (name : String) (hname : (parentOf trials name).isSome) :
      name ∈ (trials.map TrialSpec.trialId).toFinset := by
    rw [List.mem_toFinset, List.mem_map]
    exact (parentOf_isSome_iff hnodup).mp hname
  refine ⟨fun trial htrial => not_isAncestor_self hnone (h trial htrial).leads, ?_, hroot⟩
  intro trial htrial
  obtain ⟨n, hn, hclimb⟩ := exists_climb hnone hkeys (h trial htrial).leads
  rw [List.toFinset_card_of_nodup hnodup, List.length_map] at hn
  exact ⟨n, hn, hclimb⟩

/-- The trials of a frozen plan are a forest if none is called by the name of the root. -/
theorem FrozenResearchPlan.isForest [PyRuntime] [DatetimeForms] (plan : FrozenResearchPlan F)
    (hroot : ∀ trial ∈ plan.trials, trial.trialId ≠ rootTrialId) : IsForest plan.trials :=
  isForest_of_rooted plan.trials_nodup hroot
    ((validateLineage_eq_ok_iff plan.trials_nodup).mp plan.lineage)

/-- A plan with a trial of the root's name is refused for some trial, and a trial with a known
parent that strays comes after one that is refused. -/
structure RefusedInTime (trials : List (TrialSpec F)) : Prop where
  root : (∃ trial ∈ trials, trial.trialId = rootTrialId) → ∃ trial ∈ trials, ¬ Rooted trials trial
  strays : ∀ before trial after, trials = before ++ trial :: after → KnownParent trials trial →
    Strays (parentOf trials) rootTrialId trial.trialId → ∃ earlier ∈ before, ¬ Rooted trials earlier

/-- The lineage check raises only its refusals and accepts only forests, exactly of trials
that it refuses in time. -/
theorem validateLineage_forest_iff (hnodup : (trials.map TrialSpec.trialId).Nodup) :
    ((∀ name, validateLineage trials ≠ .error (.lookup name)) ∧
        (validateLineage trials = .ok () → IsForest trials)) ↔ RefusedInTime trials := by
  have hlookup := not_congr (validateLineage_lookup_iff hnodup)
  rw [not_exists] at hlookup
  rw [hlookup, validateLineage_eq_ok_iff hnodup]
  constructor
  · rintro ⟨hstrays, hforest⟩
    refine ⟨?_, ?_⟩
    · rintro ⟨trial, htrial, hname⟩
      by_contra hall
      push Not at hall
      exact (hforest hall).root_ne trial htrial hname
    · intro before trial after htrials hknown hstray
      by_contra hall
      push Not at hall
      exact hstrays ⟨before, trial, after, htrials, hall, hknown, hstray⟩
  · rintro ⟨hroot, hstrays⟩
    refine ⟨?_, fun h => isForest_of_rooted hnodup ?_ h⟩
    · rintro ⟨before, trial, after, htrials, hbefore, hknown, hstray⟩
      obtain ⟨earlier, hearlier, hrefused⟩ := hstrays before trial after htrials hknown hstray
      exact hrefused (hbefore earlier hearlier)
    · intro trial htrial hname
      obtain ⟨other, hother, hrefused⟩ := hroot ⟨trial, htrial, hname⟩
      exact hrefused (h other hother)

namespace Sample

/-- A trial of a name under a parent. -/
def trialUnder (parentTrialId trialId : String)
    (hparent : parentTrialId = rootTrialId ∨ isIdentifier parentTrialId = true)
    (htrial : isIdentifier trialId = true) (hne : trialId ≠ parentTrialId) : TrialSpec ℚ where
  trialId := trialId
  parentTrialId := parentTrialId
  candidate := "momentum"
  configuration := []
  trialId_valid := htrial
  parentTrialId_valid := hparent
  candidate_valid := by decide +kernel
  parent_ne := hne
  configuration_valid := by simp [freezeJson, freezeMembers, refuseIf]

def base : TrialSpec ℚ := trialUnder rootTrialId "A" (.inl rfl) (by decide +kernel) (by decide)

/-- A trial whose parent is `other`. -/
def straying : TrialSpec ℚ :=
  trialUnder "B" "A" (.inr (by decide +kernel)) (by decide +kernel) (by decide)

/-- A trial whose parent is no trial. -/
def other : TrialSpec ℚ :=
  trialUnder "X" "B" (.inr (by decide +kernel)) (by decide +kernel) (by decide)

/-- A trial of the name of the root. -/
def namesake : TrialSpec ℚ :=
  trialUnder "A" rootTrialId (.inr (by decide +kernel)) (by decide +kernel) (by decide)

end Sample

open Sample in
theorem validateLineage_forest_base : (∀ name, validateLineage [base] ≠ .error (.lookup name)) ∧
    (validateLineage [base] = .ok () → IsForest [base]) := by
  have hnodup : ([base].map TrialSpec.trialId).Nodup := List.nodup_singleton _
  have hrooted : Rooted [base] base := ⟨.inl rfl, .single rfl⟩
  refine (validateLineage_forest_iff hnodup).mpr ⟨?_, ?_⟩
  · rintro ⟨trial, htrial, hname⟩
    rw [List.mem_singleton.mp htrial] at hname
    exact absurd hname (by decide)
  · intro before trial after htrials _ hstrays
    have htrial : trial ∈ [base] := htrials ▸ List.mem_append_right _ List.mem_cons_self
    rw [List.mem_singleton.mp htrial] at hstrays
    exact absurd hrooted.leads hstrays.1

open Sample in
/-- A walk asks for the parent of a name before the trial that names it is refused; and a
trial of the root's name is taken for the root. -/
theorem not_validateLineage_forest :
    (([straying, other].map TrialSpec.trialId).Nodup ∧
        ¬ ∀ name, validateLineage [straying, other] ≠ .error (.lookup name)) ∧
      ([namesake, base].map TrialSpec.trialId).Nodup ∧
        ¬ (validateLineage [namesake, base] = .ok () → IsForest [namesake, base]) := by
  have hstraying : ([straying, other].map TrialSpec.trialId).Nodup := by decide
  have hnamesake : ([namesake, base].map TrialSpec.trialId).Nodup := by decide
  refine ⟨⟨hstraying, fun hnone => ?_⟩, hnamesake, fun hforest => ?_⟩
  · have hother : Strays (parentOf [straying, other]) rootTrialId "B" :=
      (strays_of_none rfl (by decide)).of_isParent rfl (by decide)
    have hstrays : Strays (parentOf [straying, other]) rootTrialId "A" :=
      hother.of_isParent rfl (by decide)
    obtain ⟨name, herror⟩ := (validateLineage_lookup_iff hstraying).mpr
      ⟨[], straying, [other], rfl, nofun, .inr ⟨other, by simp, rfl⟩, hstrays⟩
    exact hnone name herror
  · have hrooted : ∀ trial ∈ [namesake, base], Rooted [namesake, base] trial :=
      List.forall_mem_cons.mpr ⟨⟨.inr ⟨base, by simp, rfl⟩, .refl⟩,
        List.forall_mem_singleton.mpr ⟨.inl rfl, .single rfl⟩⟩
    have haccepted := (validateLineage_eq_ok_iff hnamesake).mpr hrooted
    exact (hforest haccepted).root_ne namesake List.mem_cons_self rfl

end SignalFoundry.ResearchLedger
