import Mathlib.Data.List.Basic

/-!
# Fallible computations

A function that can raise is a computation in `Except ε`. Its body is a sequence
of guards and of steps that bind an intermediate result, and every argument
about it starts by reading off what each of these steps must have done for the
whole to return. `refuseIf` is the guard that raises when its condition holds,
and `bind_eq_ok_iff` peels one step of the sequence off. `PyError` lists the
built-in exception classes that the code tells apart.
-/

namespace Fallible

universe u v

/-- The guard `if refused: raise error`. -/
def refuseIf {ε : Type u} (refused : Prop) [Decidable refused] (error : ε) :
    Except ε Unit :=
  if refused then .error error else .ok ()

@[simp] theorem refuseIf_eq_ok_iff {ε : Type u} {refused : Prop}
    [Decidable refused] {error : ε} {u : Unit} :
    refuseIf refused error = .ok u ↔ ¬ refused := by
  unfold refuseIf
  split <;> simp_all

theorem refuseIf_eq_error_iff {ε : Type u} {refused : Prop}
    [Decidable refused] {error raised : ε} :
    refuseIf refused error = .error raised ↔ refused ∧ error = raised := by
  unfold refuseIf
  split <;> simp_all

theorem refuseIf_of {ε : Type u} {refused : Prop} [Decidable refused]
    {error : ε} (h : refused) : refuseIf refused error = .error error := by
  rw [refuseIf, if_pos h]

theorem refuseIf_of_not {ε : Type u} {refused : Prop} [Decidable refused]
    {error : ε} (h : ¬ refused) : refuseIf refused error = .ok () :=
  refuseIf_eq_ok_iff.mpr h

theorem refuseIf_congr {ε : Type u} {refused refused' : Prop} [Decidable refused]
    [Decidable refused'] {error : ε} (h : refused ↔ refused') :
    refuseIf refused error = refuseIf refused' error := by
  rw [refuseIf, refuseIf]
  exact if_congr h rfl rfl

/-- A sequence returns exactly when its first step returns and the rest does
on that result. -/
@[simp] theorem bind_eq_ok_iff {ε : Type u} {α β : Type v} {x : Except ε α}
    {f : α → Except ε β} {b : β} :
    (x >>= f) = .ok b ↔ ∃ a, x = .ok a ∧ f a = .ok b := by
  cases x with
  | error e => simp [bind, Except.bind]
  | ok a => simp [bind, Except.bind]

theorem bind_eq_error_iff {ε : Type u} {α β : Type v} {x : Except ε α}
    {f : α → Except ε β} {e : ε} :
    (x >>= f) = .error e ↔ x = .error e ∨ ∃ a, x = .ok a ∧ f a = .error e := by
  cases x with
  | error e' => simp [bind, Except.bind]
  | ok a => simp [bind, Except.bind]

@[simp] theorem ok_bind {ε : Type u} {α β : Type v} (a : α) (f : α → Except ε β) :
    ((.ok a : Except ε α) >>= f) = f a := rfl

@[simp] theorem error_bind {ε : Type u} {α β : Type v} (e : ε) (f : α → Except ε β) :
    ((.error e : Except ε α) >>= f) = .error e := rfl

theorem map_eq_ok_iff {ε : Type u} {α β : Type v} {f : α → β} {x : Except ε α} {b : β} :
    x.map f = .ok b ↔ ∃ a, x = .ok a ∧ f a = b := by
  cases x with
  | error e => simp [Except.map]
  | ok a => simp [Except.map]

@[simp] theorem pure_eq_ok {ε : Type u} {α : Type v} (a : α) :
    (pure a : Except ε α) = .ok a := rfl

@[simp] theorem mapError_eq_ok_iff {ε ε' : Type u} {α : Type v} {f : ε → ε'} {x : Except ε α}
    {a : α} : x.mapError f = .ok a ↔ x = .ok a := by
  cases x with
  | error e => simp [Except.mapError]
  | ok b => simp [Except.mapError]

theorem mapError_eq_error_iff {ε ε' : Type u} {α : Type v} {f : ε → ε'} {x : Except ε α}
    {e : ε'} : x.mapError f = .error e ↔ ∃ raised, x = .error raised ∧ f raised = e := by
  cases x with
  | error raised => simp [Except.mapError]
  | ok a => simp [Except.mapError]

theorem forM_eq_ok_iff {ε α : Type} {f : α → Except ε Unit} {l : List α} {u : Unit} :
    l.forM f = .ok u ↔ ∀ a ∈ l, f a = .ok () := by
  rw [List.forM_eq_forM]
  induction l with
  | nil => simp
  | cons a l ih =>
      rw [List.forM_cons, bind_eq_ok_iff, List.forall_mem_cons]
      exact ⟨fun ⟨_, ha, hl⟩ => ⟨ha, ih.mp hl⟩, fun ⟨ha, hl⟩ => ⟨(), ha, ih.mpr hl⟩⟩

/-- The first refusal of a loop. -/
theorem forM_eq_error_iff {ε α : Type} {f : α → Except ε Unit} {l : List α} {e : ε} :
    l.forM f = .error e ↔ ∃ before a after, l = before ++ a :: after ∧
      (∀ b ∈ before, f b = .ok ()) ∧ f a = .error e := by
  induction l with
  | nil =>
      constructor
      · intro h
        nomatch h
      · rintro ⟨before, a, after, hl, -⟩
        exact absurd hl.symm (by simp)
  | cons a l ih =>
      rw [List.forM_eq_forM, List.forM_cons, bind_eq_error_iff]
      constructor
      · rintro (ha | ⟨_, ha, hl⟩)
        · exact ⟨[], a, l, rfl, fun _ hb => absurd hb List.not_mem_nil, ha⟩
        · obtain ⟨before, c, after, rfl, hbefore, hc⟩ := ih.mp hl
          exact ⟨a :: before, c, after, rfl, List.forall_mem_cons.mpr ⟨ha, hbefore⟩, hc⟩
      · rintro ⟨before, c, after, hl, hbefore, hc⟩
        cases before with
        | nil =>
            obtain ⟨rfl, -⟩ := List.cons.inj hl
            exact .inl hc
        | cons b before =>
            rw [List.cons_append] at hl
            obtain ⟨rfl, hrest⟩ := List.cons.inj hl
            obtain ⟨ha, hbefore⟩ := List.forall_mem_cons.mp hbefore
            exact .inr ⟨(), ha, ih.mpr ⟨before, c, after, hrest, hbefore, hc⟩⟩

/-- A loop none of whose steps raises is a map. -/
theorem mapM_eq_ok_map {ε : Type u} {α β : Type v} {f : α → Except ε β} {g : α → β}
    {l : List α} (h : ∀ x ∈ l, f x = .ok (g x)) : l.mapM f = .ok (l.map g) := by
  induction l with
  | nil => rfl
  | cons x xs ih =>
      rw [List.mapM_cons, h x List.mem_cons_self, ok_bind,
        ih fun y hy => h y (List.mem_cons_of_mem x hy), ok_bind]
      rfl

/-- A loop whose steps return a function of their argument under a condition. -/
theorem mapM_eq_ok_iff {ε : Type u} {α β : Type v} {f : α → Except ε β} {p : α → Prop} {g : α → β}
    {l : List α} {results : List β} (h : ∀ x ∈ l, ∀ y, f x = .ok y ↔ p x ∧ y = g x) :
    l.mapM f = .ok results ↔ (∀ x ∈ l, p x) ∧ results = l.map g := by
  induction l generalizing results with
  | nil => simp [eq_comm]
  | cons x xs ih =>
      obtain ⟨hx, hxs⟩ := List.forall_mem_cons.mp h
      rw [List.mapM_cons, bind_eq_ok_iff, List.forall_mem_cons]
      constructor
      · rintro ⟨y, hy, hrest⟩
        obtain ⟨ys, hys, hresults⟩ := bind_eq_ok_iff.mp hrest
        obtain ⟨hpx, rfl⟩ := (hx y).mp hy
        obtain ⟨hpxs, rfl⟩ := (ih hxs).mp hys
        cases hresults
        exact ⟨⟨hpx, hpxs⟩, rfl⟩
      · rintro ⟨⟨hpx, hpxs⟩, rfl⟩
        refine ⟨g x, (hx _).mpr ⟨hpx, rfl⟩, ?_⟩
        rw [(ih hxs).mpr ⟨hpxs, rfl⟩]
        rfl

theorem length_of_mapM_eq_ok {ε : Type u} {α β : Type v} {f : α → Except ε β} {l : List α}
    {results : List β} (h : l.mapM f = .ok results) : results.length = l.length := by
  induction l generalizing results with
  | nil =>
      cases h
      rfl
  | cons x xs ih =>
      rw [List.mapM_cons] at h
      obtain ⟨y, -, h⟩ := bind_eq_ok_iff.mp h
      obtain ⟨ys, hys, h⟩ := bind_eq_ok_iff.mp h
      cases h
      rw [List.length_cons, List.length_cons, ih hys]

/-! ## What a computation can raise -/

/-- Every exception of a computation satisfies `P`. -/
def Raises {ε : Type u} {α : Type v} (P : ε → Prop) (x : Except ε α) : Prop :=
  ∀ e, x = .error e → P e

namespace Raises

variable {ε ε' : Type u} {α β : Type v} {P : ε → Prop}

theorem ok (a : α) : Raises P (.ok a) := fun _ h => nomatch h

theorem error {e : ε} (h : P e) : Raises P (.error e : Except ε α) := by
  rintro _ ⟨⟩
  exact h

theorem bind {x : Except ε α} {f : α → Except ε β} (hx : Raises P x)
    (hf : ∀ a, Raises P (f a)) : Raises P (x >>= f) := by
  intro e he
  rcases bind_eq_error_iff.mp he with hfirst | ⟨a, -, hrest⟩
  · exact hx e hfirst
  · exact hf a e hrest

theorem refuseIf {refused : Prop} [Decidable refused] {e : ε} (h : P e) :
    Raises P (refuseIf refused e) := by
  intro raised hraised
  obtain ⟨-, rfl⟩ := refuseIf_eq_error_iff.mp hraised
  exact h

theorem mapError {f : ε' → ε} (h : ∀ e, P (f e)) (x : Except ε' α) : Raises P (x.mapError f) := by
  cases x with
  | error e => exact error (h e)
  | ok a => exact ok a

theorem forM {f : α → Except ε PUnit} (l : List α) (h : ∀ a, Raises P (f a)) :
    Raises P (l.forM f) := by
  induction l with
  | nil => exact ok _
  | cons a l ih => exact (h a).bind fun _ => ih

theorem mapM {f : α → Except ε β} {l : List α} (h : ∀ a ∈ l, Raises P (f a)) :
    Raises P (l.mapM f) := by
  induction l with
  | nil => exact ok _
  | cons a l ih =>
      rw [List.mapM_cons]
      exact (h a List.mem_cons_self).bind fun _ =>
        (ih fun b hb => h b (List.mem_cons_of_mem a hb)).bind fun _ => ok _

end Raises

/-! ## Checks that leave evidence -/

/-- A guard whose passing is recorded. -/
def require {ε : Type u} (condition : Prop) [Decidable condition] (error : ε) :
    Except ε (PLift condition) :=
  if h : condition then .ok ⟨h⟩ else .error error

@[simp] theorem require_of {ε : Type u} {condition : Prop} [Decidable condition] {error : ε}
    (h : condition) : require condition error = .ok ⟨h⟩ :=
  dif_pos h

/-- A check without a result, whose passing is recorded. -/
def attest {ε : Type u} (check : Except ε Unit) : Except ε (PLift (check = .ok ())) :=
  match check with
  | .ok () => .ok ⟨rfl⟩
  | .error e => .error e

@[simp] theorem attest_of {ε : Type u} {check : Except ε Unit} (h : check = .ok ()) :
    attest check = .ok ⟨h⟩ := by
  subst h
  rfl

/-- The value of an option with the proof that it is. -/
def found {ε : Type u} {α : Type v} (value? : Option α) (error : ε) :
    Except ε { value : α // value? = some value } :=
  match value? with
  | none => .error error
  | some value => .ok ⟨value, rfl⟩

theorem found_some {ε : Type u} {α : Type v} {value? : Option α} {value : α} {error : ε}
    (h : value? = some value) : found value? error = .ok ⟨value, h⟩ := by
  subst h
  rfl

theorem found_none {ε : Type u} {α : Type v} {value? : Option α} {error : ε}
    (h : value? = none) : found value? error = .error error := by
  subst h
  rfl

/-! ## What a computation meets -/

/-- Every result of a computation satisfies `Q` and every exception `P`. -/
def Ensures {ε : Type u} {α : Type v} (Q : α → Prop) (P : ε → Prop) : Except ε α → Prop
  | .ok a => Q a
  | .error e => P e

namespace Ensures

variable {ε : Type u} {α β : Type v} {P : ε → Prop} {Q Q' : α → Prop} {R : β → Prop}

theorem ok {a : α} (h : Q a) : Ensures Q P (.ok a) := h

theorem error {e : ε} (h : P e) : Ensures Q P (.error e) := h

theorem bind {x : Except ε α} {f : α → Except ε β} (hx : Ensures Q P x)
    (hf : ∀ a, Q a → Ensures R P (f a)) : Ensures R P (x >>= f) := by
  cases x with
  | ok a => exact hf a hx
  | error e => exact hx

theorem mono {x : Except ε α} (hx : Ensures Q P x) (h : ∀ a, Q a → Q' a) : Ensures Q' P x := by
  cases x with
  | ok a => exact h a hx
  | error e => exact hx

/-- What a computation meets holds together with the computation itself. -/
theorem self {x : Except ε α} (hx : Ensures Q P x) : Ensures (fun a => x = .ok a ∧ Q a) P x := by
  cases x with
  | ok a => exact ⟨rfl, hx⟩
  | error e => exact hx

theorem refuseIf {refused : Prop} [Decidable refused] {e : ε} (h : P e) :
    Ensures (fun _ => ¬ refused) P (refuseIf refused e) := by
  by_cases hrefused : refused
  · rw [refuseIf_of hrefused]
    exact h
  · rw [refuseIf_of_not hrefused]
    exact hrefused

theorem mapError {ε' : Type u} {f : ε' → ε} (h : ∀ e, P (f e)) (x : Except ε' α) :
    Ensures (fun _ => True) P (x.mapError f) := by
  cases x with
  | ok a => exact trivial
  | error e => exact h e

/-- A loop keeps what each of its turns keeps. -/
theorem foldlM {f : α → β → Except ε α} {I : List β → α → Prop} {l : List β} {a : α}
    (hstart : I l a) (hstep : ∀ b l a, I (b :: l) a → Ensures (I l) P (f a b)) :
    Ensures (I []) P (l.foldlM f a) := by
  induction l generalizing a with
  | nil => exact hstart
  | cons b l ih => exact (hstep b l a hstart).bind fun a' ha' => ih ha'

theorem result {x : Except ε α} (hx : Ensures Q P x) {a : α} (h : x = .ok a) : Q a := by
  rw [h] at hx
  exact hx

theorem exception {x : Except ε α} (hx : Ensures Q P x) {e : ε} (h : x = .error e) : P e := by
  rw [h] at hx
  exact hx

end Ensures

end Fallible

/-- The built-in exceptions a computation can raise, by the class a handler
would name. `OverflowError` is an `ArithmeticError`; a `KeyError` is none of the
other three. -/
inductive PyError where
  | valueError (message : String)
  | runtimeError (message : String)
  | arithmeticError (message : String)
  | keyError (key : String)
  deriving DecidableEq, Repr
