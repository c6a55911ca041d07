import Mathlib.Data.List.Basic

/-!
# Machines with outputs

A machine answers each input with an output and a new state. An invariant of its
steps holds after every run, and two machines whose states stay related give the
same outputs. The relation may need a condition on the state after the step;
such a condition can be asked of the end of a run alone when it holds of every
earlier state as well.
-/

namespace Machine

universe u v w x

variable {S : Type u} {T : Type x} {I : Type v} {O : Type w}

/-- The outputs of a run and the state at its end. -/
def run (step : S → I → O × S) (state : S) : List I → List O × S
  | [] => ([], state)
  | input :: inputs =>
      let (output, next) := step state input
      let (outputs, last) := run step next inputs
      (output :: outputs, last)

variable (step : S → I → O × S)

@[simp] theorem run_nil (state : S) : run step state [] = ([], state) := rfl

@[simp] theorem run_cons (state : S) (input : I) (inputs : List I) :
    run step state (input :: inputs) =
      ((step state input).1 :: (run step (step state input).2 inputs).1,
        (run step (step state input).2 inputs).2) := rfl

theorem run_append (state : S) (inputs inputs' : List I) :
    run step state (inputs ++ inputs') =
      ((run step state inputs).1 ++ (run step (run step state inputs).2 inputs').1,
        (run step (run step state inputs).2 inputs').2) := by
  induction inputs generalizing state with
  | nil => rfl
  | cons input inputs ih => simp [ih]

variable {step}

/-- What every step preserves holds after every run. -/
theorem invariant_run {P : S → Prop} (hstep : ∀ state input, P state → P (step state input).2)
    {state : S} (h : P state) (inputs : List I) : P (run step state inputs).2 := by
  induction inputs generalizing state with
  | nil => exact h
  | cons input inputs ih => exact ih (hstep state input h)

/-- A condition that no step establishes holds before a run if it holds after. -/
theorem of_run {P : S → Prop} (hstep : ∀ state input, P (step state input).2 → P state)
    {state : S} {inputs : List I} (h : P (run step state inputs).2) : P state := by
  induction inputs generalizing state with
  | nil => exact h
  | cons input inputs ih => exact hstep state input (ih h)

/-- Machines in related states give the same outputs and end in related states.
The condition `P` of the first machine restricts the steps, and `Q` the inputs of
the second, which come with more than those of the first. -/
theorem simulation_run {J : Type v} {step' : T → J → O × T} {project : J → I}
    {R : S → T → Prop} {P : S → Prop} {Q : J → Prop}
    (hearlier : ∀ state input, P (step state input).2 → P state)
    (hstep : ∀ state state' input, R state state' → Q input →
      P (step state (project input)).2 →
        (step state (project input)).1 = (step' state' input).1 ∧
          R (step state (project input)).2 (step' state' input).2)
    {state : S} {state' : T} (h : R state state') (inputs : List J)
    (hinputs : ∀ input ∈ inputs, Q input)
    (hlast : P (run step state (inputs.map project)).2) :
    (run step state (inputs.map project)).1 = (run step' state' inputs).1 ∧
      R (run step state (inputs.map project)).2 (run step' state' inputs).2 := by
  induction inputs generalizing state state' with
  | nil => exact ⟨rfl, h⟩
  | cons input inputs ih =>
      simp only [List.map_cons, run_cons] at hlast ⊢
      obtain ⟨houtput, hnext⟩ := hstep state state' input h (hinputs input List.mem_cons_self)
        (of_run hearlier hlast)
      obtain ⟨houtputs, hend⟩ := ih hnext
        (fun other hother => hinputs other (List.mem_cons_of_mem input hother)) hlast
      exact ⟨by rw [houtput, houtputs], hend⟩

/-! ## What a run emits -/

section Emissions

variable {A : Type*} {emit : I → O → Option A}

/-- What the steps of a run emit, each from its input and its output. -/
def emitted (step : S → I → O × S) (emit : I → O → Option A) (state : S) (inputs : List I) :
    List A :=
  (inputs.zip (run step state inputs).1).filterMap fun answered => emit answered.1 answered.2

theorem emitted_cons (state : S) (input : I) (inputs : List I) :
    emitted step emit state (input :: inputs) =
      (emit input (step state input).1).toList ++ emitted step emit (step state input).2 inputs := by
  rw [emitted, run_cons, List.zip_cons_cons, List.filterMap_cons]
  cases emit input (step state input).1 <;> rfl

/-- What every step emits in a state that its run can reach. -/
theorem forall_emitted (Inv : S → Prop) {P : A → Prop} {state : S} {inputs : List I}
    (hinv : ∀ state, ∀ input ∈ inputs, Inv state → Inv (step state input).2)
    (hemit : ∀ state, ∀ input ∈ inputs, ∀ a, Inv state →
      emit input (step state input).1 = some a → P a)
    (h : Inv state) : ∀ a ∈ emitted step emit state inputs, P a := by
  induction inputs generalizing state with
  | nil => exact fun _ ha => nomatch ha
  | cons input inputs ih =>
      rw [emitted_cons, List.forall_mem_append]
      refine ⟨fun a ha => hemit state input List.mem_cons_self a h (Option.mem_toList.mp ha), ?_⟩
      exact ih (fun state other hother => hinv state other (List.mem_cons_of_mem _ hother))
        (fun state other hother => hemit state other (List.mem_cons_of_mem _ hother))
        (hinv state input List.mem_cons_self h)

/-- What is emitted leaves a trace in the state, the trace stays, and what is emitted from a
state with a trace is related to what has left it. -/
theorem pairwise_emitted (Inv : S → Prop) (After : A → S → Prop) {R : A → A → Prop}
    (hinv : ∀ state input, Inv state → Inv (step state input).2)
    (hafter : ∀ state input a, Inv state → emit input (step state input).1 = some a →
      After a (step state input).2)
    (hkeep : ∀ state input a, Inv state → After a state → After a (step state input).2)
    (hrelated : ∀ state input a b, Inv state → After a state →
      emit input (step state input).1 = some b → R a b)
    {state : S} (h : Inv state) (inputs : List I) :
    (emitted step emit state inputs).Pairwise R := by
  induction inputs generalizing state with
  | nil => exact List.Pairwise.nil
  | cons input inputs ih =>
      have hnext := hinv state input h
      rw [emitted_cons, List.pairwise_append]
      refine ⟨?_, ih hnext, fun a ha b hb => ?_⟩
      · cases emit input (step state input).1 with
        | none => exact List.Pairwise.nil
        | some a => exact List.pairwise_singleton R a
      · have htrace := hafter state input a h (Option.mem_toList.mp ha)
        exact forall_emitted (fun state => Inv state ∧ After a state)
          (fun state input _ hstate =>
            ⟨hinv state input hstate.1, hkeep state input a hstate.1 hstate.2⟩)
          (fun state input _ b hstate => hrelated state input a b hstate.1 hstate.2)
          ⟨hnext, htrace⟩ b hb

end Emissions

end Machine
