import SignalFoundry.Backtesting.EventEngine.Reachable
import SignalFoundry.Backtesting.Journal.Contents

/-!
# What the engine relies on in a journal

A lawful journal holds a list of events. An append leaves this list or extends
it by its event: `True` says that it is extended, `False` that the event is in
it, and an exception says neither. Both journals are lawful; the SQLite one comes
with what happens around each of its appends, among which is an append of the
same event through another connection.
-/

namespace SignalFoundry

open Fallible

/-- What an append may do to the events of a journal, by its result. -/
def AppendOutcome {E : Type} (before after : List E) (event : E)
    (result : Except JournalError Bool) : Prop :=
  (after = before ∧ result ≠ .ok true ∧ (result = .ok false → event ∈ before)) ∨
    after = before ++ [event]

/-- The laws of a journal. `Sound` is the invariant of its own calls. -/
class LawfulJournal (F J : Type) [PyRuntime] [PyFloat F] [FloatText F] [Journal F J] where
  Sound : J → Prop
  isOpen : J → Bool
  stored : J → List (ExecutionEvent F)
  nodup_eventIds : ∀ {journal}, Sound journal →
    ((stored journal).map fun event => event.eventId).Nodup
  count_eq : ∀ {journal}, Sound journal → isOpen journal = true →
    Journal.count F journal = .ok (stored journal).length
  open_of_count : ∀ {journal n}, Journal.count F journal = .ok n → isOpen journal = true
  events_eq : ∀ {journal}, Sound journal → isOpen journal = true →
    Journal.events journal = .ok (stored journal)
  open_of_events : ∀ {journal events}, Journal.events (F := F) journal = .ok events →
    isOpen journal = true
  append : ∀ {journal}, Sound journal → ∀ event : ExecutionEvent F,
    Sound (Journal.append journal event).2 ∧
      isOpen (Journal.append journal event).2 = isOpen journal ∧
      AppendOutcome (stored journal) (stored (Journal.append journal event).2) event
        (Journal.append journal event).1
  close : ∀ {journal}, Sound journal →
    Sound (Journal.close F journal) ∧ stored (Journal.close F journal) = stored journal

variable {F : Type} [PyRuntime] [PyFloat F] [FloatText F]

theorem AppendEffect.outcome {before after : List (ExecutionEvent F)} {event : ExecutionEvent F}
    {result : Except JournalError Bool} (h : AppendEffect before event result after) :
    AppendOutcome before after event result := by
  cases h with
  | kept hnew hknown => exact .inl ⟨rfl, hnew, hknown⟩
  | extended _ _ => exact .inr rfl

variable [Json.LawfulFloatText F]

/-- The in-memory journal is lawful. -/
instance : LawfulJournal F InMemoryJournal where
  Sound := InMemoryJournal.Valid F
  isOpen journal := !journal.closed
  stored := InMemoryJournal.storedEvents F
  nodup_eventIds h := h.nodup_eventIds
  count_eq {journal} h hopen := by
    show journal.count = _
    rw [InMemoryJournal.count, InMemoryJournal.checkOpen,
      refuseIf_of_not (by simpa using hopen), ok_bind, h.length_storedEvents, pure_eq_ok]
  open_of_count {journal n} h := by
    have hcount : journal.count = .ok n := h
    simp only [InMemoryJournal.count, InMemoryJournal.checkOpen, bind_eq_ok_iff,
      refuseIf_eq_ok_iff, exists_const] at hcount
    simpa using hcount.1
  events_eq {journal} h hopen := h.events (by simpa using hopen)
  open_of_events {journal events} h := by
    have hevents : journal.events F = .ok events := h
    simp only [InMemoryJournal.events, InMemoryJournal.exportCanonical, InMemoryJournal.checkOpen,
      bind_eq_ok_iff, refuseIf_eq_ok_iff, exists_const] at hevents
    obtain ⟨_, ⟨hopen, -⟩, -⟩ := hevents
    simpa using hopen
  append {journal} h event := by
    refine ⟨h.appendStep event, ?_, (h.appendEffect event).outcome⟩
    show (!(journal.appendStep event).2.closed) = !journal.closed
    rw [InMemoryJournal.appendStep]
    cases happend : journal.append event with
    | error e => rfl
    | ok result =>
        obtain ⟨stored, next⟩ := result
        rcases InMemoryJournal.append_eq_ok happend with ⟨-, rfl⟩ | ⟨-, rfl⟩ <;> rfl
  close h := ⟨h.close, rfl⟩

/-! ## The SQLite journal in its surroundings -/

/-- What happens around one append: its own conditions, and those of an append
of the same event through another connection just before it, if there is one. -/
structure AppendTurn where
  meanwhile : Option AppendConditions
  conditions : AppendConditions

/-- A SQLite journal with what will happen around its appends. -/
structure SQLiteWorld where
  journal : SQLiteJournal
  turns : ℕ → AppendTurn

namespace SQLiteWorld

/-- The journal when the append of an event starts. -/
def before (world : SQLiteWorld) (event : ExecutionEvent F) : SQLiteJournal :=
  match (world.turns 0).meanwhile with
  | none => world.journal
  | some conditions => (world.journal.append event conditions).2

def append (world : SQLiteWorld) (event : ExecutionEvent F) :
    Except JournalError Bool × SQLiteWorld :=
  let result := (world.before event).append event (world.turns 0).conditions
  (result.1, { journal := result.2, turns := fun n => world.turns (n + 1) })

instance : Journal F SQLiteWorld where
  count world := world.journal.count
  append := append
  events world := world.journal.events F
  close world := { world with journal := { world.journal with closed := true } }

/-- The append of the other connection leaves the events or extends them too. -/
theorem before_cases {world : SQLiteWorld} (h : world.journal.Sound F)
    (event : ExecutionEvent F) :
    (world.before event).Sound F ∧ (world.before event).closed = world.journal.closed ∧
      ((world.before event).storedEvents F = world.journal.storedEvents F ∨
        (world.before event).storedEvents F = world.journal.storedEvents F ++ [event]) := by
  unfold before
  cases (world.turns 0).meanwhile with
  | none => exact ⟨h, rfl, .inl rfl⟩
  | some conditions =>
      obtain ⟨hsound, hclosed, heffect⟩ := h.append event conditions
      refine ⟨hsound, hclosed, ?_⟩
      generalize SQLiteJournal.storedEvents F (world.journal.append event conditions).2 = after
        at heffect
      cases heffect with
      | kept _ _ => exact .inl rfl
      | extended _ _ => exact .inr rfl

end SQLiteWorld

/-- The SQLite journal is lawful, whatever happens around its appends. -/
instance : LawfulJournal F SQLiteWorld where
  Sound world := world.journal.Sound F
  isOpen world := !world.journal.closed
  stored world := world.journal.storedEvents F
  nodup_eventIds := by
    rintro world ⟨journal, hholds⟩
    rw [hholds.storedEvents]
    exact hholds.valid.nodup_eventIds
  count_eq := by
    rintro world ⟨journal, hholds⟩ hopen
    exact hholds.count (by simpa using hopen)
  open_of_count {world n} h := by
    have hcount : world.journal.count = .ok n := h
    simp only [SQLiteJournal.count, SQLiteJournal.checkOpen, bind_eq_ok_iff, refuseIf_eq_ok_iff,
      exists_const] at hcount
    simpa using hcount.1
  events_eq := by
    rintro world ⟨journal, hholds⟩ hopen
    exact hholds.events (by simpa using hopen)
  open_of_events {world events} h := by
    have hevents : world.journal.events F = .ok events := h
    simp only [SQLiteJournal.events, SQLiteJournal.exportCanonical, SQLiteJournal.checkOpen,
      bind_eq_ok_iff, refuseIf_eq_ok_iff, exists_const] at hevents
    obtain ⟨_, ⟨hopen, -⟩, -⟩ := hevents
    simpa using hopen
  append {world} h event := by
    obtain ⟨hsound, hclosed, hbefore⟩ := SQLiteWorld.before_cases h event
    obtain ⟨hnext, hnextClosed, heffect⟩ := hsound.append event (world.turns 0).conditions
    refine ⟨hnext, congrArg (!·) (hnextClosed.trans hclosed), ?_⟩
    show AppendOutcome _ _ _ ((world.before event).append event (world.turns 0).conditions).1
    rcases hbefore with hsame | hextended
    · rw [← hsame]
      exact heffect.outcome
    · -- The other connection has stored the event, so this append adds nothing.
      refine .inr ?_
      rw [hextended] at heffect
      show SQLiteJournal.storedEvents F ((world.before event).append event
        (world.turns 0).conditions).2 = _
      generalize SQLiteJournal.storedEvents F ((world.before event).append event
        (world.turns 0).conditions).2 = after at heffect
      cases heffect with
      | kept _ _ => rfl
      | extended hfresh _ => exact absurd (by simp) hfresh
  close := by
    rintro world ⟨journal, hholds⟩
    exact ⟨⟨journal, hholds.valid, hholds.journal_open, hholds.database, hholds.limits⟩, rfl⟩

end SignalFoundry
