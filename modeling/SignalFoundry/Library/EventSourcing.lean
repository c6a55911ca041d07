import Mathlib.Data.List.Induction
import SignalFoundry.Library.Fallible

/-!
# Event sourcing

A state is a function of a log of events: `apply` refuses an event, ignores it
or moves to a next state, and an event that moves the state is committed to the
log. The committed logs of a start state are built event by event, every
invariant of the events holds along them, and replaying a committed log from its
start gives the state it led to.
-/

namespace EventSourcing

open Fallible

universe u v w

variable {S : Type u} {E : Type v} {ε : Type w} (apply : S → E → Except ε (Option S))

/-- The logs that can be committed from a start state, with their states. -/
inductive Committed (start : S) : List E → S → Prop
  | nil : Committed start [] start
  | snoc {log : List E} {state next : S} {event : E} :
      Committed start log state → apply state event = .ok (some next) →
        Committed start (log ++ [event]) next

/-- The state after a list of events, none of which is refused. -/
def replay (state : S) : List E → Except ε S
  | [] => .ok state
  | event :: rest => do
      let next ← apply state event
      replay (next.getD state) rest

/-- The events of a list that move the state. -/
def applied (state : S) : List E → List E
  | [] => []
  | event :: rest =>
      match apply state event with
      | .ok (some next) => event :: applied next rest
      | _ => applied state rest

variable {apply} {start state next : S} {log log' : List E} {event : E}

theorem Committed.single (h : apply state event = .ok (some next)) :
    Committed apply state [event] next :=
  .snoc .nil h

theorem Committed.append (h : Committed apply start log state)
    (h' : Committed apply state log' next) : Committed apply start (log ++ log') next := by
  induction h' with
  | nil =>
      rw [List.append_nil]
      exact h
  | snoc _ hevent ih =>
      rw [← List.append_assoc]
      exact .snoc ih hevent

theorem Committed.nil_iff : Committed apply start [] state ↔ state = start := by
  constructor
  · intro h
    generalize hlog : ([] : List E) = log at h
    cases h with
    | nil => rfl
    | snoc _ _ => simp at hlog
  · rintro rfl
    exact .nil

theorem Committed.snoc_iff : Committed apply start (log ++ [event]) next ↔
    ∃ state, Committed apply start log state ∧ apply state event = .ok (some next) := by
  constructor
  · intro h
    generalize hlog : log ++ [event] = whole at h
    cases h with
    | nil => simp at hlog
    | snoc hbefore hevent =>
        obtain ⟨hfront, hlast⟩ := List.append_inj' hlog rfl
        cases hlast
        exact ⟨_, hfront ▸ hbefore, hevent⟩
  · rintro ⟨state, hbefore, hevent⟩
    exact .snoc hbefore hevent

/-- A committed log passes through the state of each of its prefixes. -/
theorem Committed.split (h : Committed apply start (log ++ log') state) :
    ∃ middle, Committed apply start log middle ∧ Committed apply middle log' state := by
  induction log' using List.reverseRecOn generalizing state with
  | nil =>
      rw [List.append_nil] at h
      exact ⟨state, h, .nil⟩
  | append_singleton rest last ih =>
      rw [← List.append_assoc, Committed.snoc_iff] at h
      obtain ⟨before, hbefore, hlast⟩ := h
      obtain ⟨middle, hmiddle, hrest⟩ := ih hbefore
      exact ⟨middle, hmiddle, .snoc hrest hlast⟩

/-- The step of one event of a committed log. -/
theorem Committed.split_at (h : Committed apply start (log ++ event :: log') state) :
    ∃ before after, Committed apply start log before ∧
      apply before event = .ok (some after) ∧ Committed apply after log' state := by
  rw [← List.singleton_append, ← List.append_assoc] at h
  obtain ⟨after, hevent, hafter⟩ := h.split
  obtain ⟨before, hbefore, hstep⟩ := Committed.snoc_iff.mp hevent
  exact ⟨before, after, hbefore, hstep, hafter⟩

/-- What every committed event preserves holds of every committed state. -/
theorem Committed.invariant {P : S → Prop} (h : Committed apply start log state) (hstart : P start)
    (hstep : ∀ state event next, P state → apply state event = .ok (some next) → P next) :
    P state := by
  induction h with
  | nil => exact hstart
  | snoc _ hevent ih => exact hstep _ _ _ ih hevent

theorem replay_append (state : S) (log log' : List E) :
    replay apply state (log ++ log') = (replay apply state log >>= fun s => replay apply s log') := by
  induction log generalizing state with
  | nil => rfl
  | cons event log ih =>
      rw [List.cons_append, replay, replay]
      cases apply state event with
      | error e => rfl
      | ok next => exact ih _

/-- Replaying a committed log gives its state. -/
theorem Committed.replay_eq (h : Committed apply start log state) :
    replay apply start log = .ok state := by
  induction h with
  | nil => rfl
  | snoc _ hevent ih =>
      rw [replay_append, ih, ok_bind, replay, hevent, ok_bind]
      rfl

/-- What a replay applies is committed. -/
theorem committed_of_replay (h : replay apply start log = .ok state) :
    Committed apply start (applied apply start log) state := by
  induction log generalizing start with
  | nil =>
      cases h
      exact .nil
  | cons event log ih =>
      rw [replay, bind_eq_ok_iff] at h
      obtain ⟨moved, hmoved, hrest⟩ := h
      cases moved with
      | none =>
          rw [applied, hmoved]
          exact ih hrest
      | some next =>
          rw [applied, hmoved]
          exact (Committed.single hmoved).append (ih hrest)

end EventSourcing
