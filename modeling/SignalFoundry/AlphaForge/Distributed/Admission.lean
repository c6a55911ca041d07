import Mathlib.Algebra.Order.BigOperators.Group.List
import Mathlib.Algebra.Order.Field.Rat
import Mathlib.Data.List.Sort
import Mathlib.Data.Rat.Cast.Order
import SignalFoundry.Library.Fallible
import SignalFoundry.Library.ParallelJobs

/-!
# What admission bounds

A schedule runs each task of a batch once, without interruption, with at most as many at
a time as the concurrency. What the batch declares is a lower bound on the makespan of
every schedule and an upper bound on its memory at every time.
-/

/-! ## Declared budgets

What a batch of tasks declares to need under a concurrency, and the decision whether it
may start. Seconds and hours are rationals. -/

namespace Budgets

open Fallible

/-! ## Tasks -/

/-- `ResourceRequest`. -/
structure ResourceRequest where
  cpus : ℚ
  memoryMb : ℕ
  gpus : ℕ
  scratchMb : ℕ
  expectedSeconds : ℚ
  cpus_mem : 0 < cpus ∧ cpus ≤ 256
  memory_mem : 0 < memoryMb ∧ memoryMb ≤ 1024 * 1024
  gpus_le : gpus ≤ 16
  scratch_le : scratchMb ≤ 4 * 1024 * 1024
  expected_mem : 0 < expectedSeconds ∧ expectedSeconds ≤ 24 * 60 * 60

/-- What admission reads of a `TaskSpec`. -/
structure TaskSpec where
  name : String
  resources : ResourceRequest

/-! ## Budgets -/

/-- `ExperimentBudget`. -/
structure ExperimentBudget where
  wallSeconds : ℚ
  gpuHours : ℚ
  concurrentTasks : ℕ
  memoryMb : ℕ
  storageMb : ℕ
  costUnits : ℚ
  wall_mem : 0 < wallSeconds ∧ wallSeconds ≤ 30 * 24 * 60 * 60
  gpu_mem : 0 < gpuHours ∧ gpuHours ≤ 10000
  cost_mem : 0 < costUnits ∧ costUnits ≤ 1000000
  concurrent_mem : 0 < concurrentTasks ∧ concurrentTasks ≤ 4096
  memory_mem : 0 < memoryMb ∧ memoryMb ≤ 64 * 1024 * 1024
  storage_mem : 0 < storageMb ∧ storageMb ≤ 64 * 1024 * 1024

/-- `ResourceUsage`. -/
structure ResourceUsage where
  wallSeconds : ℚ
  gpuHours : ℚ
  concurrentTasks : ℕ
  memoryMb : ℕ
  storageMb : ℕ
  costUnits : ℚ
  wall_nonneg : 0 ≤ wallSeconds
  gpu_nonneg : 0 ≤ gpuHours
  cost_nonneg : 0 ≤ costUnits

inductive LimitKind where
  | wallSeconds
  | gpuHours
  | concurrentTasks
  | memoryMb
  | storageMb
  | costUnits
  deriving DecidableEq, Repr

/-- `BudgetBreach`; its detail is the label with the two numbers. -/
structure BudgetBreach where
  kind : LimitKind
  limit : ℚ
  observed : ℚ
  stage : String
  label : String
  deriving DecidableEq, Repr

/-- `BudgetError`. -/
structure BudgetError where
  message : String
  deriving DecidableEq, Repr

/-! ## What a batch declares -/

def expectedSeconds (tasks : List TaskSpec) : List ℚ := tasks.map (·.resources.expectedSeconds)

theorem expectedSeconds_pos {tasks : List TaskSpec} :
    ∀ seconds ∈ expectedSeconds tasks, 0 < seconds := by
  intro seconds hmem
  obtain ⟨task, -, rfl⟩ := List.mem_map.mp hmem
  exact task.resources.expected_mem.1

/-- The longest task, or zero for no task. -/
def longest (tasks : List TaskSpec) : ℚ := (expectedSeconds tasks).max?.getD 0

/-- The larger of the longest task and the evenly divided total. -/
def criticalPath (tasks : List TaskSpec) (concurrency : ℤ) : ℚ :=
  max (longest tasks) ((expectedSeconds tasks).sum / concurrency)

def gpuHours (tasks : List TaskSpec) : ℚ :=
  (tasks.map fun task => (task.resources.gpus : ℚ) * task.resources.expectedSeconds / 3600).sum

/-- The largest memory requirements of as many tasks as run at once. -/
def peakMemory (tasks : List TaskSpec) (concurrency : ℤ) : ℕ :=
  (((tasks.map (·.resources.memoryMb)).insertionSort (· ≥ ·)).take concurrency.toNat).sum

theorem longest_nonneg (tasks : List TaskSpec) : 0 ≤ longest tasks := by
  rw [longest]
  cases hmax : (expectedSeconds tasks).max? with
  | none => exact le_rfl
  | some seconds => exact (expectedSeconds_pos seconds (List.max?_eq_some_iff.mp hmax).1).le

theorem criticalPath_nonneg (tasks : List TaskSpec) (concurrency : ℤ) :
    0 ≤ criticalPath tasks concurrency :=
  (longest_nonneg tasks).trans (le_max_left _ _)

theorem gpuHours_nonneg (tasks : List TaskSpec) : 0 ≤ gpuHours tasks := by
  apply List.sum_nonneg
  intro hours hmem
  obtain ⟨task, -, rfl⟩ := List.mem_map.mp hmem
  exact div_nonneg (mul_nonneg (Nat.cast_nonneg _) task.resources.expected_mem.1.le) (by decide)

/-- `declared_usage`. -/
def declaredUsage (tasks : List TaskSpec) (concurrency : ℤ) :
    Except BudgetError ResourceUsage := do
  refuseIf (tasks.isEmpty = true)
    (BudgetError.mk "cannot compute declared usage for an empty batch")
  refuseIf (concurrency < 1) (BudgetError.mk "concurrency must be a positive int")
  return {
    wallSeconds := criticalPath tasks concurrency
    gpuHours := gpuHours tasks
    concurrentTasks := min concurrency.toNat tasks.length
    memoryMb := peakMemory tasks concurrency
    storageMb := (tasks.map (·.resources.scratchMb)).sum
    costUnits := 0
    wall_nonneg := criticalPath_nonneg tasks concurrency
    gpu_nonneg := gpuHours_nonneg tasks
    cost_nonneg := le_rfl }

/-! ## Admission -/

def checks (budget : ExperimentBudget) (usage : ResourceUsage) :
    List (LimitKind × ℚ × ℚ × String) :=
  [(.wallSeconds, budget.wallSeconds, usage.wallSeconds, "elapsed or critical-path wall time"),
    (.gpuHours, budget.gpuHours, usage.gpuHours, "accumulated GPU hours"),
    (.concurrentTasks, budget.concurrentTasks, usage.concurrentTasks,
      "simultaneously running tasks"),
    (.memoryMb, budget.memoryMb, usage.memoryMb, "peak concurrent memory"),
    (.storageMb, budget.storageMb, usage.storageMb, "accumulated scratch and artifact storage"),
    (.costUnits, budget.costUnits, usage.costUnits, "accumulated cost units")]

/-- `_compare`. -/
def compare (budget : ExperimentBudget) (usage : ResourceUsage) (stage : String) :
    List BudgetBreach :=
  (checks budget usage).filterMap fun (kind, limit, observed, label) =>
    if limit < observed then some ⟨kind, limit, observed, stage, label⟩ else none

/-- `AdmissionDecision`. -/
structure AdmissionDecision where
  admitted : Bool
  budget : ExperimentBudget
  declared : ResourceUsage
  breaches : List BudgetBreach
  decidedAt : String
  explained : admitted = breaches.isEmpty

/-- `admit`, at a moment in text form. -/
def admitTasks (budget : ExperimentBudget) (tasks : List TaskSpec) (concurrency : ℤ)
    (moment : String) : Except BudgetError AdmissionDecision := do
  let declared ← declaredUsage tasks concurrency
  let breaches := compare budget declared "admission"
  return ⟨breaches.isEmpty, budget, declared, breaches, moment, rfl⟩

end Budgets

namespace Budgets

open Fallible MeasureTheory

/-- The expected seconds of a task of a batch. -/
noncomputable def duration (tasks : List TaskSpec) (i : Fin tasks.length) : ℝ :=
  (tasks.get i).resources.expectedSeconds

/-- When each task starts. -/
structure Schedule (tasks : List TaskSpec) (concurrency : ℤ) where
  start : Fin tasks.length → ℝ
  capacity : ∀ t, ((ParallelJobs.running start (duration tasks) t).card : ℤ) ≤ concurrency

namespace Schedule

variable {tasks : List TaskSpec} {concurrency : ℤ} (schedule : Schedule tasks concurrency)

/-- The tasks that run at a time. -/
noncomputable def running (t : ℝ) : Finset (Fin tasks.length) :=
  ParallelJobs.running schedule.start (duration tasks) t

/-- From the first start to the last finish. -/
noncomputable def makespan : ℝ :=
  (⨆ i, schedule.start i + duration tasks i) - ⨅ i, schedule.start i

/-- The memory in use at a time. -/
noncomputable def memory (t : ℝ) : ℕ := ∑ i ∈ schedule.running t, (tasks.get i).resources.memoryMb

/-- The GPUs in use, over time. -/
noncomputable def gpuHours : ℝ :=
  (∫ t, ParallelJobs.load schedule.start (duration tasks)
    (fun i => (tasks.get i).resources.gpus) t) / 3600

/-- The scratch space of the tasks that have run. -/
def storage (_schedule : Schedule tasks concurrency) : ℕ :=
  ∑ i : Fin tasks.length, (tasks.get i).resources.scratchMb

/-- What a declared usage says of a schedule. -/
structure Within (usage : ResourceUsage) : Prop where
  wall : (usage.wallSeconds : ℝ) ≤ schedule.makespan
  memory : ∀ t, schedule.memory t ≤ usage.memoryMb
  running : ∀ t, (schedule.running t).card ≤ usage.concurrentTasks
  gpuHours : schedule.gpuHours = usage.gpuHours
  storage : schedule.storage = usage.storageMb

/-! ## Time -/

theorem duration_pos (i : Fin tasks.length) : 0 < duration tasks i := by
  rw [duration]
  exact_mod_cast (tasks.get i).resources.expected_mem.1

theorem le_makespan_bounds (i : Fin tasks.length) :
    (⨅ i, schedule.start i) ≤ schedule.start i ∧
      schedule.start i + duration tasks i ≤ ⨆ i, schedule.start i + duration tasks i :=
  ⟨ciInf_le (Set.finite_range _).bddBelow i,
    le_ciSup (f := fun i => schedule.start i + duration tasks i) (Set.finite_range _).bddAbove i⟩

theorem duration_le_makespan (i : Fin tasks.length) : duration tasks i ≤ schedule.makespan := by
  obtain ⟨hstart, hfinish⟩ := schedule.le_makespan_bounds i
  rw [makespan]
  linarith

theorem sum_ofList {M : Type} [AddCommMonoid M] (f : TaskSpec → M) :
    ∑ i : Fin tasks.length, f (tasks.get i) = (tasks.map f).sum := by
  have hlist : List.ofFn (fun i => f (tasks.get i)) = tasks.map f := by
    change List.ofFn (f ∘ tasks.get) = _
    rw [← List.map_ofFn, List.ofFn_get]
  rw [← List.sum_ofFn, hlist]

theorem sum_duration : ∑ i, duration tasks i = ((expectedSeconds tasks).sum : ℚ) := by
  rw [expectedSeconds, ← sum_ofList, Rat.cast_sum]
  rfl

theorem longest_le_makespan (hne : tasks ≠ []) : (longest tasks : ℝ) ≤ schedule.makespan := by
  obtain ⟨seconds, hmax⟩ : ∃ seconds, (expectedSeconds tasks).max? = some seconds := by
    refine Option.ne_none_iff_exists'.mp fun hnone => hne ?_
    exact List.map_eq_nil_iff.mp (List.max?_eq_none_iff.mp hnone)
  obtain ⟨hmem, -⟩ := List.max?_eq_some_iff.mp hmax
  obtain ⟨task, htask, rfl⟩ := List.mem_map.mp hmem
  obtain ⟨i, rfl⟩ := List.get_of_mem htask
  rw [longest, hmax]
  exact schedule.duration_le_makespan i

theorem sum_le_mul_makespan (hne : tasks ≠ []) :
    ((expectedSeconds tasks).sum : ℝ) ≤ concurrency * schedule.makespan := by
  rw [← sum_duration]
  have hspan := fun i => schedule.le_makespan_bounds i
  have hfirst := hspan ⟨0, List.length_pos_iff.mpr hne⟩
  refine ParallelJobs.sum_duration_le_mul_span (fun i => (duration_pos i).le)
    (fun t => by exact_mod_cast schedule.capacity t) ?_ hspan
  have hduration : 0 < duration tasks ⟨0, List.length_pos_iff.mpr hne⟩ := duration_pos _
  linarith [hfirst.1, hfirst.2]

theorem criticalPath_le_makespan (hne : tasks ≠ []) (hpos : 1 ≤ concurrency) :
    (criticalPath tasks concurrency : ℝ) ≤ schedule.makespan := by
  have hconcurrency : (0 : ℝ) < concurrency := by exact_mod_cast hpos
  rw [criticalPath, Rat.cast_max, max_le_iff]
  refine ⟨schedule.longest_le_makespan hne, ?_⟩
  rw [Rat.cast_div, Rat.cast_intCast, div_le_iff₀ hconcurrency, mul_comm]
  exact schedule.sum_le_mul_makespan hne

/-! ## Memory and concurrency -/

theorem card_running_le (hpos : 1 ≤ concurrency) (t : ℝ) :
    (schedule.running t).card ≤ min concurrency.toNat tasks.length := by
  have hcapacity := schedule.capacity t
  have hcard := Finset.card_le_univ (schedule.running t)
  rw [Fintype.card_fin] at hcard
  rw [running] at hcard ⊢
  omega

theorem memory_le_peakMemory (hpos : 1 ≤ concurrency) (t : ℝ) :
    schedule.memory t ≤ peakMemory tasks concurrency := by
  have hsub : ((schedule.running t).toList.map fun i => (tasks.get i).resources.memoryMb).Subperm
      ((tasks.map (·.resources.memoryMb)).insertionSort (· ≥ ·)) := by
    obtain ⟨few, hperm, hfew⟩ : ((schedule.running t).toList).Subperm (List.finRange tasks.length) :=
      List.subperm_of_subset (schedule.running t).nodup_toList fun i _ => List.mem_finRange i
    have htasks : (List.finRange tasks.length).map (fun i => (tasks.get i).resources.memoryMb) =
        tasks.map (·.resources.memoryMb) := by
      rw [← List.ofFn_eq_map]
      change List.ofFn ((·.resources.memoryMb) ∘ tasks.get) = _
      rw [← List.map_ofFn, List.ofFn_get]
    have hmap := hfew.map fun i => (tasks.get i).resources.memoryMb
    rw [htasks] at hmap
    exact ((hperm.map _).symm.subperm.trans hmap.subperm).trans
      (List.perm_insertionSort _ _).symm.subperm
  have hcard := schedule.card_running_le hpos t
  calc schedule.memory t =
        ((schedule.running t).toList.map fun i => (tasks.get i).resources.memoryMb).sum :=
        (Finset.sum_map_toList _ _).symm
    _ ≤ peakMemory tasks concurrency := by
        refine ParallelJobs.sum_le_sum_take (List.pairwise_insertionSort _ _)
          (fun x _ => Nat.zero_le x) hsub ?_
        rw [List.length_map, Finset.length_toList]
        omega

theorem gpuHours_eq : schedule.gpuHours = (Budgets.gpuHours tasks : ℝ) := by
  rw [gpuHours, ParallelJobs.integral_load fun i => (duration_pos i).le, Budgets.gpuHours,
    ← sum_ofList, Rat.cast_sum, Finset.sum_div]
  refine Finset.sum_congr rfl fun i _ => ?_
  rw [duration]
  push_cast
  rfl

theorem within_of_declaredUsage {usage : ResourceUsage}
    (h : declaredUsage tasks concurrency = .ok usage) : schedule.Within usage := by
  simp only [declaredUsage, bind_eq_ok_iff, refuseIf_eq_ok_iff, pure_eq_ok, Except.ok.injEq,
    List.isEmpty_iff, not_lt] at h
  obtain ⟨-, hne, -, hpos, rfl⟩ := h
  exact ⟨schedule.criticalPath_le_makespan hne hpos, schedule.memory_le_peakMemory hpos,
    schedule.card_running_le hpos, schedule.gpuHours_eq,
    sum_ofList fun task => task.resources.scratchMb⟩

end Schedule

/-! ## Admission -/

theorem mem_compare_iff {budget : ExperimentBudget} {usage : ResourceUsage} {stage : String}
    {breach : BudgetBreach} : breach ∈ compare budget usage stage ↔
      (breach.kind, breach.limit, breach.observed, breach.label) ∈ checks budget usage ∧
        breach.limit < breach.observed ∧ breach.stage = stage := by
  rw [compare, List.mem_filterMap]
  constructor
  · rintro ⟨⟨kind, limit, observed, label⟩, hmem, hbreach⟩
    dsimp only at hbreach
    split_ifs at hbreach with hlt
    cases hbreach
    exact ⟨hmem, hlt, rfl⟩
  · rintro ⟨hmem, hlt, rfl⟩
    exact ⟨_, hmem, if_pos hlt⟩

/-- A usage without breaches is within every limit. -/
theorem le_of_compare_eq_nil {budget : ExperimentBudget} {usage : ResourceUsage} {stage : String}
    (h : compare budget usage stage = []) : ∀ check ∈ checks budget usage,
      check.2.2.1 ≤ check.2.1 := by
  rintro ⟨kind, limit, observed, label⟩ hmem
  rw [← not_lt]
  intro hlt
  have hbreach : (⟨kind, limit, observed, stage, label⟩ : BudgetBreach) ∈
      compare budget usage stage := mem_compare_iff.mpr ⟨hmem, hlt, rfl⟩
  rw [h] at hbreach
  cases hbreach

theorem admit_eq_ok_iff {budget : ExperimentBudget} {tasks : List TaskSpec} {concurrency : ℤ}
    {moment : String} {decision : AdmissionDecision} :
    admitTasks budget tasks concurrency moment = .ok decision ↔
      ∃ declared, declaredUsage tasks concurrency = .ok declared ∧
        decision = ⟨(compare budget declared "admission").isEmpty, budget, declared,
          compare budget declared "admission", moment, rfl⟩ := by
  simp only [admitTasks, bind_eq_ok_iff, pure_eq_ok, Except.ok.injEq]
  exact exists_congr fun declared => and_congr_right fun _ => eq_comm

/-- Every schedule of a batch is bounded by what the batch declares, and so by the
decision to admit it. -/
theorem admission_bounds_every_schedule (tasks : List TaskSpec) (concurrency : ℤ)
    (hne : tasks ≠ []) (hpos : 1 ≤ concurrency) :
    ∃ usage, declaredUsage tasks concurrency = .ok usage ∧
      ∀ schedule : Schedule tasks concurrency, schedule.Within usage ∧
        ∀ budget moment decision, admitTasks budget tasks concurrency moment = .ok decision →
          (∀ breach ∈ decision.breaches, breach.kind = .wallSeconds →
            (budget.wallSeconds : ℝ) < schedule.makespan) ∧
          (decision.admitted = true → ∀ t, schedule.memory t ≤ budget.memoryMb ∧
            (schedule.running t).card ≤ budget.concurrentTasks) := by
  obtain ⟨usage, husage⟩ : ∃ usage, declaredUsage tasks concurrency = .ok usage := by
    have hempty : ¬ tasks.isEmpty = true := by simpa using hne
    rw [declaredUsage, refuseIf_of_not hempty, refuseIf_of_not (not_lt.mpr hpos)]
    exact ⟨_, rfl⟩
  refine ⟨usage, husage, fun schedule => ?_⟩
  have hwithin := schedule.within_of_declaredUsage husage
  refine ⟨hwithin, fun budget moment decision hdecision => ?_⟩
  obtain ⟨declared, hdeclared, rfl⟩ := admit_eq_ok_iff.mp hdecision
  rw [husage] at hdeclared
  cases hdeclared
  constructor
  · intro breach hbreach hkind
    obtain ⟨hmem, hlt, -⟩ := mem_compare_iff.mp hbreach
    rw [hkind] at hmem
    simp only [checks, List.mem_cons, Prod.mk.injEq, reduceCtorEq, false_and, or_false, true_and,
      List.not_mem_nil] at hmem
    obtain ⟨hlimit, hobserved, -⟩ := hmem
    rw [hlimit, hobserved] at hlt
    exact lt_of_lt_of_le (by exact_mod_cast hlt) hwithin.wall
  · intro hadmitted t
    have hnone := le_of_compare_eq_nil (List.isEmpty_iff.mp hadmitted)
    have hmemory : usage.memoryMb ≤ budget.memoryMb :=
      Nat.cast_le.mp (hnone (.memoryMb, budget.memoryMb, usage.memoryMb, "peak concurrent memory")
        (by simp [checks]))
    have hconcurrent : usage.concurrentTasks ≤ budget.concurrentTasks :=
      Nat.cast_le.mp (hnone (.concurrentTasks, budget.concurrentTasks, usage.concurrentTasks,
        "simultaneously running tasks") (by simp [checks]))
    exact ⟨(hwithin.memory t).trans hmemory, (hwithin.running t).trans hconcurrent⟩

/-- A task of an hour on one GPU. -/
def hourTask : TaskSpec where
  name := "train"
  resources :=
    { cpus := 1
      memoryMb := 1024
      gpus := 1
      scratchMb := 10
      expectedSeconds := 3600
      cpus_mem := by decide
      memory_mem := by decide
      gpus_le := by decide
      scratch_le := by decide
      expected_mem := by norm_num }

theorem hour_batch_bounded :
    ∃ usage, declaredUsage [hourTask, hourTask] 2 = .ok usage ∧
      ∀ schedule : Schedule [hourTask, hourTask] 2, schedule.Within usage ∧
        ∀ budget moment decision, admitTasks budget [hourTask, hourTask] 2 moment = .ok decision →
          (∀ breach ∈ decision.breaches, breach.kind = .wallSeconds →
            (budget.wallSeconds : ℝ) < schedule.makespan) ∧
          (decision.admitted = true → ∀ t, schedule.memory t ≤ budget.memoryMb ∧
            (schedule.running t).card ≤ budget.concurrentTasks) :=
  admission_bounds_every_schedule [hourTask, hourTask] 2 (by simp) (by decide)

end Budgets
