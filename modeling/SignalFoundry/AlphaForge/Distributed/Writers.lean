import SignalFoundry.AlphaForge.Distributed.Mapping
import Mathlib.Logic.Relation

/-!
# Concurrent writers

Calls of `write` for one experiment take their steps on the file system in any order.
The check for a foreign writer and the replacement of the file are separate steps, so
that a call can replace a checkpoint that its check did not see. The state counts the
replacements that a check saw; `Unraced` says that none of a foreign writer came since.

A crash is a run that ends.
-/

namespace Checkpoints

open Fallible

/-- Where a call of `write` is. -/
inductive Phase where
  | started
  /-- `exists` of `write` found a checkpoint. -/
  | found
  /-- `exists` of `read` found a checkpoint. -/
  | reading
  /-- The check passed on a file that had been replaced `seen` times. -/
  | checked (seen : ℕ)
  /-- A part of the encoding is in the temporary file. -/
  | writing (seen : ℕ) (written : List UInt8)
  | returned
  | raised (error : CheckpointError)

namespace Phase

/-- How a finished call ended. -/
def outcome : Phase → Option (Except CheckpointError Unit)
  | returned => some (.ok ())
  | raised e => some (.error e)
  | _ => none

/-- The replacements that a call which passed its check saw. -/
def seen? : Phase → Option ℕ
  | checked seen => some seen
  | writing seen _ => some seen
  | _ => none

end Phase

/-- The file of the experiment, the calls that replaced it in their order, and the
phases of all calls. -/
structure Shared (ι : Type) where
  file : Option (List UInt8)
  replaced : List ι
  phase : ι → Phase

namespace Shared

variable {ι : Type} [DecidableEq ι]

def goto (s : Shared ι) (i : ι) (phase : Phase) : Shared ι :=
  { s with phase := Function.update s.phase i phase }

@[simp] theorem file_goto (s : Shared ι) (i : ι) (phase : Phase) :
    (s.goto i phase).file = s.file := rfl

@[simp] theorem replaced_goto (s : Shared ι) (i : ι) (phase : Phase) :
    (s.goto i phase).replaced = s.replaced := rfl

theorem phase_goto (s : Shared ι) (i j : ι) (phase : Phase) :
    (s.goto i phase).phase j = if j = i then phase else s.phase j :=
  Function.update_apply ..

theorem goto_goto (s : Shared ι) (i : ι) (phase phase' : Phase) :
    (s.goto i phase).goto i phase' = s.goto i phase' := by
  simp [goto]

end Shared

section Writers

variable {F : Type} [FloatText F] [PyRuntime] [DatetimeForms] [JsonScalars F]

/-- The check of a call that read a checkpoint. -/
def judge (m : Manifest F) (seen : ℕ) (content : List UInt8) : Phase :=
  match CheckpointManifest.decode F content with
  | .error e => .raised e
  | .ok existing =>
      if existing.writerId ≠ m.writerId then
        .raised (.concurrentWriter m.experimentId existing.writerId m.writerId)
      else .checked seen

variable {ι : Type} [DecidableEq ι] (calls : ι → Manifest F)

/-- A step of one call. -/
inductive Step (i : ι) (s : Shared ι) : Shared ι → Prop
  | missing (hphase : s.phase i = .started) (hfile : s.file = none) :
      Step i s (s.goto i (.checked s.replaced.length))
  | found {content : List UInt8} (hphase : s.phase i = .started) (hfile : s.file = some content) :
      Step i s (s.goto i .found)
  | vanished (hphase : s.phase i = .found) (hfile : s.file = none) :
      Step i s (s.goto i (.checked s.replaced.length))
  | again {content : List UInt8} (hphase : s.phase i = .found) (hfile : s.file = some content) :
      Step i s (s.goto i .reading)
  | lost (hphase : s.phase i = .reading) (hfile : s.file = none) :
      Step i s (s.goto i (.raised (.os .noEntry)))
  | read {content : List UInt8} (hphase : s.phase i = .reading) (hfile : s.file = some content) :
      Step i s (s.goto i (judge (calls i) s.replaced.length content))
  | refused {seen : ℕ} {e : CheckpointError} (hphase : s.phase i = .checked seen)
      (hencoded : (calls i).encoded = .error e) : Step i s (s.goto i (.raised e))
  | temporary {seen : ℕ} {encoded : List UInt8} (hphase : s.phase i = .checked seen)
      (hencoded : (calls i).encoded = .ok encoded) : Step i s (s.goto i (.writing seen []))
  | chunk {seen : ℕ} {written more encoded : List UInt8} (hphase : s.phase i = .writing seen written)
      (hencoded : (calls i).encoded = .ok encoded) (hmore : more ≠ [])
      (hbegins : written ++ more <+: encoded) :
      Step i s (s.goto i (.writing seen (written ++ more)))
  | replace {seen : ℕ} {encoded : List UInt8} (hphase : s.phase i = .writing seen encoded)
      (hencoded : (calls i).encoded = .ok encoded) :
      Step i s { s.goto i .returned with
        file := some encoded
        replaced := s.replaced ++ [i] }

/-- The states of the runs from no checkpoint whose steps all meet a condition. -/
inductive Reaches (condition : ι → Shared ι → Prop) : Shared ι → Prop
  | start : Reaches condition ⟨none, [], fun _ => .started⟩
  | step {s s' : Shared ι} {i : ι} (hreaches : Reaches condition s) (hcondition : condition i s)
      (hstep : Step calls i s s') : Reaches condition s'

/-- A call that is about to replace the file was not overtaken by a foreign writer since
its check. -/
def Unraced (i : ι) (s : Shared ι) : Prop :=
  ∀ seen encoded, s.phase i = .writing seen encoded → (calls i).encoded = .ok encoded →
    ∀ j ∈ s.replaced.drop seen, (calls j).writerId = (calls i).writerId

/-! ## What every run keeps -/

/-- The file is what the last replacement put there, whole. -/
def Complete (s : Shared ι) : Prop :=
  s.file = none ∧ s.replaced = [] ∨
    ∃ i encoded, s.replaced.getLast? = some i ∧ (calls i).encoded = .ok encoded ∧
      s.file = some encoded

variable {calls} {s s' : Shared ι} {i : ι}

/-- A step leaves the file as it is, or replaces it with a whole encoding. -/
theorem Step.file (h : Step calls i s s') :
    s'.file = s.file ∧ s'.replaced = s.replaced ∨
      ∃ encoded, (calls i).encoded = .ok encoded ∧ s'.file = some encoded ∧
        s'.replaced = s.replaced ++ [i] := by
  cases h with
  | replace hphase hencoded => exact .inr ⟨_, hencoded, rfl, rfl⟩
  | _ => exact .inl ⟨rfl, rfl⟩

theorem Complete.step (h : Complete calls s) (hstep : Step calls i s s') : Complete calls s' := by
  rcases hstep.file with ⟨hfile, hreplaced⟩ | ⟨encoded, hencoded, hfile, hreplaced⟩
  · unfold Complete
    rw [hfile, hreplaced]
    exact h
  · exact .inr ⟨i, encoded, by rw [hreplaced, List.getLast?_concat], hencoded, hfile⟩

theorem Reaches.complete {condition : ι → Shared ι → Prop} (h : Reaches calls condition s) :
    Complete calls s := by
  induction h with
  | start => exact .inl ⟨rfl, rfl⟩
  | step _ _ hstep ih => exact ih.step hstep

omit [DecidableEq ι] in
/-- What is read from a complete file. -/
theorem Complete.judge (h : Complete calls s) {content : List UInt8}
    (hfile : s.file = some content) (m : Manifest F) (seen : ℕ) :
    ∃ j ∈ s.replaced, judge m seen content =
      if (calls j).writerId ≠ m.writerId then
        .raised (.concurrentWriter m.experimentId (calls j).writerId m.writerId)
      else .checked seen := by
  rcases h with ⟨hnone, -⟩ | ⟨j, encoded, hlast, hencoded, hsome⟩
  · rw [hnone] at hfile
    cases hfile
  · obtain rfl := Option.some.inj (hsome.symm.trans hfile)
    simp only [Manifest.encoded, bind_eq_ok_iff, pure_eq_ok, Except.ok.injEq] at hencoded
    obtain ⟨_, hencode, -, -, rfl⟩ := hencoded
    refine ⟨j, List.mem_of_getLast? hlast, ?_⟩
    rw [Checkpoints.judge, CheckpointManifest.decode_encode (calls j).constructed hencode]

variable (calls) in
/-- A step of a run without races: no foreign writer came since the check, and what is
written is not refused. -/
structure Orderly (i : ι) (s : Shared ι) : Prop where
  unraced : Unraced calls i s
  accepted : ∀ seen, s.phase i = .checked seen → ∃ encoded, (calls i).encoded = .ok encoded

variable (calls) in
/-- What holds in the states of a run without races. -/
structure Exclusive (s : Shared ι) : Prop where
  complete : Complete calls s
  /-- The calls that returned are those that replaced the file. -/
  returned : ∀ i, s.phase i = .returned → i ∈ s.replaced
  /-- They share a writer. -/
  same : ∀ i ∈ s.replaced, ∀ j ∈ s.replaced, (calls i).writerId = (calls j).writerId
  /-- A call that found a file still has one. -/
  present : ∀ i, s.phase i = .found ∨ s.phase i = .reading → s.file ≠ none
  /-- A check saw no foreign writer. -/
  checked : ∀ i seen, (s.phase i).seen? = some seen → seen ≤ s.replaced.length ∧
    ∀ j ∈ s.replaced.take seen, (calls j).writerId = (calls i).writerId
  /-- A call that raised found a foreign writer. -/
  raised : ∀ i e, s.phase i = .raised e → ∃ j ∈ s.replaced,
    (calls j).writerId ≠ (calls i).writerId ∧
      e = .concurrentWriter (calls i).experimentId (calls j).writerId (calls i).writerId

omit [DatetimeForms] [JsonScalars F] in
/-- A step that leaves the file keeps what holds of every other call. -/
theorem Exclusive.goto (h : Exclusive calls s) {phase : Phase} (hreturned : phase ≠ .returned)
    (hpresent : phase = .found ∨ phase = .reading → s.file ≠ none)
    (hchecked : ∀ seen, phase.seen? = some seen → seen ≤ s.replaced.length ∧
      ∀ j ∈ s.replaced.take seen, (calls j).writerId = (calls i).writerId)
    (hraised : ∀ e, phase = .raised e → ∃ j ∈ s.replaced,
      (calls j).writerId ≠ (calls i).writerId ∧
        e = .concurrentWriter (calls i).experimentId (calls j).writerId (calls i).writerId) :
    Exclusive calls (s.goto i phase) where
  complete := h.complete
  returned := by
    intro j hj
    rw [Shared.phase_goto] at hj
    split at hj
    · exact absurd hj hreturned
    · exact h.returned j hj
  same := h.same
  present := by
    intro j hj
    rw [Shared.phase_goto] at hj
    split at hj
    · exact hpresent hj
    · exact h.present j hj
  checked := by
    intro j seen hj
    rw [Shared.phase_goto] at hj
    split at hj
    · next heq => exact heq ▸ hchecked seen hj
    · exact h.checked j seen hj
  raised := by
    intro j e hj
    rw [Shared.phase_goto] at hj
    split at hj
    · next heq => exact heq ▸ hraised e hj
    · exact h.raised j e hj

omit [DatetimeForms] [JsonScalars F] in
/-- A check that saw every replacement saw no foreign writer, if the last was none. -/
theorem Exclusive.goto_checked (h : Exclusive calls s)
    (hsame : ∀ j ∈ s.replaced, (calls j).writerId = (calls i).writerId) :
    Exclusive calls (s.goto i (.checked s.replaced.length)) := by
  refine h.goto (by simp) (by simp) ?_ (by simp)
  intro seen hseen
  obtain rfl := Option.some.inj hseen
  exact ⟨le_rfl, fun j hj => hsame j (List.mem_of_mem_take hj)⟩

omit [DatetimeForms] [JsonScalars F] [DecidableEq ι] in
theorem Exclusive.replaced_nil (h : Exclusive calls s) (hfile : s.file = none) :
    s.replaced = [] := by
  rcases h.complete with ⟨-, hreplaced⟩ | ⟨_, _, -, -, hsome⟩
  · exact hreplaced
  · rw [hfile] at hsome
    cases hsome

omit [DatetimeForms] [JsonScalars F] in
/-- A replacement that was not overtaken follows those of its own writer. -/
theorem Exclusive.replace (h : Exclusive calls s) {seen : ℕ} {encoded : List UInt8}
    (hunraced : Unraced calls i s) (hphase : s.phase i = .writing seen encoded)
    (hencoded : (calls i).encoded = .ok encoded)
    (hcomplete : Complete calls { s.goto i .returned with
      file := some encoded
      replaced := s.replaced ++ [i] }) :
    Exclusive calls { s.goto i .returned with
      file := some encoded
      replaced := s.replaced ++ [i] } := by
  have hown : ∀ j ∈ s.replaced, (calls j).writerId = (calls i).writerId := by
    intro j hj
    rw [← List.take_append_drop seen s.replaced, List.mem_append] at hj
    rcases hj with hbefore | hsince
    · exact (h.checked i seen (by rw [hphase]; rfl)).2 j hbefore
    · exact hunraced seen encoded hphase hencoded j hsince
  have hwriter : ∀ j ∈ s.replaced ++ [i], (calls j).writerId = (calls i).writerId := by
    intro j hj
    rcases List.mem_append.mp hj with hold | hnew
    · exact hown j hold
    · rw [List.mem_singleton.mp hnew]
  have hother : ∀ j, j ≠ i → (s.goto i .returned).phase j = s.phase j := fun j hj => by
    rw [Shared.phase_goto, if_neg hj]
  have hself : (s.goto i .returned).phase i = .returned := by
    rw [Shared.phase_goto, if_pos rfl]
  refine ⟨hcomplete, ?_, ?_, fun _ _ => Option.some_ne_none _, ?_, ?_⟩
  · intro j hj
    by_cases hji : j = i
    · exact List.mem_append_right _ (List.mem_singleton.mpr hji)
    · exact List.mem_append_left _ (h.returned j (hother j hji ▸ hj))
  · intro j hj k hk
    rw [hwriter j hj, hwriter k hk]
  · intro j seen' hj
    by_cases hji : j = i
    · subst hji
      rw [hself] at hj
      cases hj
    · obtain ⟨hle, hseen⟩ := h.checked j seen' (hother j hji ▸ hj)
      rw [List.length_append, List.take_append_of_le_length hle]
      exact ⟨hle.trans (Nat.le_add_right _ _), hseen⟩
  · intro j e hj
    by_cases hji : j = i
    · subst hji
      rw [hself] at hj
      cases hj
    · obtain ⟨k, hk, hforeign⟩ := h.raised j e (hother j hji ▸ hj)
      exact ⟨k, List.mem_append_left _ hk, hforeign⟩

theorem Exclusive.step (h : Exclusive calls s) (horderly : Orderly calls i s)
    (hstep : Step calls i s s') : Exclusive calls s' := by
  have hcomplete := h.complete.step hstep
  cases hstep with
  | missing hphase hfile | vanished hphase hfile =>
      refine h.goto_checked ?_
      rw [h.replaced_nil hfile]
      simp
  | found hphase hfile | again hphase hfile =>
      exact h.goto (by simp) (fun _ => hfile ▸ Option.some_ne_none _) (by simp [Phase.seen?])
        (by simp)
  | lost hphase hfile => exact absurd hfile (h.present i (.inr hphase))
  | read hphase hfile =>
      obtain ⟨j, hj, hjudge⟩ := h.complete.judge hfile (calls i) s.replaced.length
      rw [hjudge]
      split
      · next hforeign =>
          refine h.goto (by simp) (by simp) (by simp [Phase.seen?]) ?_
          intro e he
          cases he
          exact ⟨j, hj, hforeign, rfl⟩
      · next hown =>
          exact h.goto_checked fun k hk => (h.same k hk j hj).trans (not_not.mp hown)
  | refused hphase hencoded =>
      obtain ⟨encoded, haccepted⟩ := horderly.accepted _ hphase
      rw [hencoded] at haccepted
      cases haccepted
  | temporary hphase hencoded =>
      exact h.goto (by simp) (by simp) (fun seen hseen => h.checked i seen (hphase ▸ hseen))
        (by simp)
  | chunk hphase hencoded hmore hbegins =>
      exact h.goto (by simp) (by simp) (fun seen hseen => h.checked i seen (hphase ▸ hseen))
        (by simp)
  | replace hphase hencoded => exact h.replace horderly.unraced hphase hencoded hcomplete

theorem Reaches.exclusive (h : Reaches calls (Orderly calls) s) : Exclusive calls s := by
  induction h with
  | start =>
      exact ⟨.inl ⟨rfl, rfl⟩, by simp, by simp, by simp, by simp [Phase.seen?], by simp⟩
  | step _ horderly hstep ih => exact ih.step horderly hstep

variable (calls) in
/-- In the runs where no call replaces the file after a foreign writer did since its
check, and none writes what is refused, all calls that return share a writer, and every
other writer's call that ends raises `ConcurrentWriterError`. In every run the file is a
whole encoding at any moment, and one step puts another in its place. -/
theorem writers_exclusive :
    (∀ s, Reaches calls (Orderly calls) s →
      (∀ i j, s.phase i = .returned → s.phase j = .returned →
        (calls i).writerId = (calls j).writerId) ∧
      ∀ i j outcome, s.phase i = .returned → (calls j).writerId ≠ (calls i).writerId →
        (s.phase j).outcome = some outcome → outcome = .error (.concurrentWriter
          (calls j).experimentId (calls i).writerId (calls j).writerId)) ∧
    ∀ s, Reaches calls (fun _ _ => True) s → Complete calls s ∧ ∀ i s', Step calls i s s' →
      s'.file = s.file ∨ ∃ encoded, (calls i).encoded = .ok encoded ∧ s'.file = some encoded := by
  refine ⟨fun s hs => ?_, fun s hs => ⟨hs.complete, fun i s' hstep => ?_⟩⟩
  · have h := hs.exclusive
    refine ⟨fun i j hi hj => h.same i (h.returned i hi) j (h.returned j hj), ?_⟩
    intro i j outcome hi hforeign houtcome
    cases hphase : s.phase j with
    | returned => exact absurd (h.same j (h.returned j hphase) i (h.returned i hi)) hforeign
    | raised e =>
        obtain ⟨k, hk, -, rfl⟩ := h.raised j e hphase
        rw [hphase] at houtcome
        rw [h.same i (h.returned i hi) k hk]
        exact (Option.some.inj houtcome).symm
    | _ =>
        rw [hphase] at houtcome
        cases houtcome
  · rcases hstep.file with ⟨hfile, -⟩ | ⟨encoded, hencoded, hfile, -⟩
    · exact .inl hfile
    · exact .inr ⟨encoded, hencoded, hfile⟩

omit [DatetimeForms] [JsonScalars F] [DecidableEq ι] in
theorem orderly_of_idle (h : (s.phase i).seen? = none) : Orderly calls i s where
  unraced := fun seen encoded hphase => by
    rw [hphase] at h
    cases h
  accepted := fun seen hphase => by
    rw [hphase] at h
    cases h

omit [DatetimeForms] [JsonScalars F] [DecidableEq ι] in
theorem orderly_of_replaced_nil (h : s.replaced = [])
    (hencoded : ∀ i, ∃ encoded, (calls i).encoded = .ok encoded) : Orderly calls i s where
  unraced := fun _ _ _ _ j hj => by
    rw [h, List.drop_nil] at hj
    cases hj
  accepted := fun _ _ => hencoded i

/-- A call whose check passed fills its temporary file. -/
theorem Reaches.fill {condition : ι → Shared ι → Prop} {seen : ℕ} {encoded : List UInt8}
    (h : Reaches calls condition s) (hphase : s.phase i = .checked seen)
    (hencoded : (calls i).encoded = .ok encoded) (hchecked : condition i s)
    (hempty : condition i (s.goto i (.writing seen []))) :
    Reaches calls condition (s.goto i (.writing seen encoded)) := by
  have hself := (s.phase_goto i i (.writing seen [])).trans (if_pos rfl)
  have hopened := h.step hchecked (.temporary hphase hencoded)
  by_cases hnil : encoded = []
  · rw [hnil]
    exact hopened
  · have hfilled := hopened.step hempty
      (.chunk hself hencoded hnil (List.nil_append encoded ▸ List.prefix_refl encoded))
    rwa [List.nil_append, Shared.goto_goto] at hfilled

/-! ## One call alone -/

section Alone

variable {store : CheckpointStore} {t₀ t : FileTree} {table : String → Option (Manifest F)}
  {random : String}

/-- What `write` does after its check. -/
def CheckpointStore.finish (store : CheckpointStore) (m : Manifest F) (random : String)
    (t : FileTree) : Except CheckpointError Unit × FileTree :=
  match m.encoded with
  | .error e => (.error e, t)
  | .ok encoded => store.persist (m.experimentId ++ ".json") encoded random t

/-- A call whose check passed ends as the rest of `write` does. -/
theorem finish_steps (h : store.Holds t₀ table t) (hdirect : Direct (calls i).experimentId)
    (hsegment : FileTree.IsSegment ((calls i).experimentId ++ ".json"))
    (hfresh : t.node (store.temporary random) = none) {seen : ℕ}
    (hphase : s.phase i = .checked seen)
    (hfile : t.node (store.directory ++ [(calls i).experimentId ++ ".json"]) =
      s.file.map .file) :
    ∃ s', Relation.ReflTransGen (Step calls i) s s' ∧
      (s'.phase i).outcome = some (store.finish (calls i) random t).1 ∧
      (store.finish (calls i) random t).2.node
        (store.directory ++ [(calls i).experimentId ++ ".json"]) = s'.file.map .file := by
  cases hencoded : (calls i).encoded with
  | error e =>
      refine ⟨s.goto i (.raised e), .single (.refused hphase hencoded), ?_, ?_⟩
      · rw [Shared.phase_goto, if_pos rfl, CheckpointStore.finish, hencoded]
        rfl
      · rw [CheckpointStore.finish, hencoded]
        exact hfile
  | ok encoded =>
      have hself := (s.phase_goto i i (.writing seen [])).trans (if_pos rfl)
      have hopened : Step calls i s (s.goto i (.writing seen [])) := .temporary hphase hencoded
      have hfilled : Relation.ReflTransGen (Step calls i) s (s.goto i (.writing seen encoded)) := by
        by_cases hnil : encoded = []
        · rw [hnil]
          exact .single hopened
        · have hchunk : Step calls i (s.goto i (.writing seen [])) _ := .chunk hself hencoded hnil
            (List.nil_append encoded ▸ List.prefix_refl encoded)
          rw [List.nil_append, Shared.goto_goto] at hchunk
          exact .tail (.single hopened) hchunk
      have hready := (s.phase_goto i i (.writing seen encoded)).trans (if_pos rfl)
      have hreplaced := hfilled.tail (.replace hready hencoded)
      have hcreated : store.Holds t₀ table (t.set (store.temporary random)
          (some (.file encoded)) (.created (store.temporary random))) :=
        h.setTemporary random rfl (by simp)
      have htemporary : (t.set (store.temporary random) (some (.file encoded))
          (.created (store.temporary random))).node (store.temporary random) =
            some (.file encoded) := by
        rw [FileTree.node_set, if_pos rfl]
      have hresolve := (hcreated.resolve hdirect).resolve_right fun h => h.1 hsegment
      have hreplace := FileTree.replace_of_resolve hresolve.2 htemporary (hcreated.flat _)
      have hfinish : store.finish (calls i) random t =
          store.persist ((calls i).experimentId ++ ".json") encoded random t := by
        rw [CheckpointStore.finish, hencoded]
      simp only [hfinish, CheckpointStore.persist, FileTree.create, hfresh, hreplace]
      refine ⟨_, hreplaced, ?_, ?_⟩
      · rw [Shared.phase_goto, if_pos rfl]
        rfl
      · rw [FileTree.node_set, if_pos rfl]
        rfl

/-- A call that finds a file reads it again and judges what it read. -/
theorem judge_steps {encoded : List UInt8} (hphase : s.phase i = .started)
    (hcontent : s.file = some encoded) :
    Relation.ReflTransGen (Step calls i) s
      (s.goto i (judge (calls i) s.replaced.length encoded)) := by
  have hfound : Step calls i s (s.goto i .found) := .found hphase hcontent
  have hreading : Step calls i (s.goto i .found) _ :=
    .again ((s.phase_goto i i _).trans (if_pos rfl)) hcontent
  rw [Shared.goto_goto] at hreading
  have hjudged : Step calls i (s.goto i .reading) _ :=
    .read ((s.phase_goto i i _).trans (if_pos rfl)) hcontent
  rw [Shared.goto_goto, Shared.replaced_goto] at hjudged
  exact ((Relation.ReflTransGen.single hfound).tail hreading).tail hjudged

/-- A call that runs without interruption ends as `write` does, with the same file. -/
theorem write_steps (h : store.Holds t₀ table t) (hdirect : Direct (calls i).experimentId)
    (hsegment : FileTree.IsSegment ((calls i).experimentId ++ ".json"))
    (hfresh : t.node (store.temporary random) = none) (hphase : s.phase i = .started)
    (hfile : t.node (store.directory ++ [(calls i).experimentId ++ ".json"]) =
      s.file.map .file) :
    ∃ s', Relation.ReflTransGen (Step calls i) s s' ∧
      (s'.phase i).outcome = some (store.write (calls i) false random t).1 ∧
      (store.write (calls i) false random t).2.node
        (store.directory ++ [(calls i).experimentId ++ ".json"]) = s'.file.map .file := by
  have hexists := h.pathExists hdirect
  obtain ⟨hread, htree⟩ := h.read (calls i).accepted hdirect
  cases htable : table (calls i).experimentId with
  | none =>
      have hmissing : s.file = none := by
        rw [h.absent _ htable] at hfile
        exact Option.map_eq_none_iff.mp hfile.symm
      have hwrite : store.write (calls i) false random t = store.finish (calls i) random t := by
        rw [htable, Option.isSome_none] at hexists
        simp only [CheckpointStore.write, pathFor_eq (calls i).accepted, CheckpointStore.guardWrite,
          hexists]
        rfl
      obtain ⟨s', hsteps, hend⟩ := finish_steps (s := s.goto i (.checked s.replaced.length)) h
        hdirect hsegment hfresh ((s.phase_goto i i _).trans (if_pos rfl)) hfile
      exact ⟨s', .head (.missing hphase hmissing) hsteps, hwrite ▸ hend⟩
  | some existing =>
      obtain ⟨encoded, hencode, hnode⟩ := (h.stored _ _ htable).content
      have hcontent : s.file = some encoded := by
        rw [hnode] at hfile
        obtain ⟨content, hcontent, hfile⟩ := Option.map_eq_some_iff.mp hfile.symm
        cases hfile
        exact hcontent
      have hjudge : judge (calls i) s.replaced.length encoded =
          if existing.writerId ≠ (calls i).writerId then
            .raised (.concurrentWriter (calls i).experimentId existing.writerId (calls i).writerId)
          else .checked s.replaced.length := by
        rw [judge, CheckpointManifest.decode_encode existing.constructed hencode]
      have hsteps : Relation.ReflTransGen (Step calls i) s _ := judge_steps hphase hcontent
      rw [hjudge] at hsteps
      rw [htable, Option.isSome_some] at hexists
      have hnodes := CheckpointStore.node_read F store (calls i).experimentId t
      cases hreply : store.read F (calls i).experimentId t with
      | mk reply t₁ =>
          rw [hreply] at hread htree hnodes
          simp only [htable, Option.map_some] at hread
          subst hread
          have hguard : store.guardWrite (calls i) false ((calls i).experimentId ++ ".json") t =
              (refuseIf (existing.writerId ≠ (calls i).writerId) (CheckpointError.concurrentWriter
                (calls i).experimentId existing.writerId (calls i).writerId), t₁) := by
            simp only [CheckpointStore.guardWrite, hexists, hreply]
            rfl
          by_cases hforeign : existing.writerId ≠ (calls i).writerId
          · rw [if_pos hforeign] at hsteps
            have hwrite : store.write (calls i) false random t =
                (.error (.concurrentWriter (calls i).experimentId existing.writerId
                  (calls i).writerId), t₁) := by
              simp only [CheckpointStore.write, pathFor_eq (calls i).accepted, hguard,
                refuseIf_of hforeign]
            refine ⟨_, hsteps, ?_, ?_⟩
            · rw [hwrite, Shared.phase_goto, if_pos rfl]
              rfl
            · rw [hwrite, hnodes]
              exact hfile
          · rw [if_neg hforeign] at hsteps
            have hwrite : store.write (calls i) false random t =
                store.finish (calls i) random t₁ := by
              simp only [CheckpointStore.write, pathFor_eq (calls i).accepted, hguard,
                refuseIf_of_not hforeign]
              rfl
            obtain ⟨s', hrest, hend⟩ := finish_steps (s := s.goto i (.checked s.replaced.length))
              htree hdirect hsegment (hnodes ▸ hfresh) ((s.phase_goto i i _).trans (if_pos rfl))
              (hnodes ▸ hfile)
            exact ⟨s', hsteps.trans hrest, hwrite ▸ hend⟩

end Alone

end Writers

namespace Sample

open Platform

/-- Two writers of one experiment. -/
def rivals : Bool → Manifest ℚ
  | true => {
      toCheckpointManifest := fields "b" "w1"
        "0e78616c6ae81abd87c9487a22fb94fa06326afadaca5eae4ea666d650f77760"
      constructed := postInit_fields (by decide +kernel) (by decide +kernel) (by decide +kernel) }
  | false => {
      toCheckpointManifest := fields "b" "w2"
        "5b6f0a87934a0ca798673857636513e531fe19616665f84d6d5d8050e6b5839f"
      constructed := postInit_fields (by decide +kernel) (by decide +kernel) (by decide +kernel) }

theorem encoded_rivals : ∀ i, ∃ encoded, (rivals i).encoded = .ok encoded
  | true => Manifest.exists_encoded (by decide +kernel) (by decide +kernel)
  | false => Manifest.exists_encoded (by decide +kernel) (by decide +kernel)

/-- Both writers find no checkpoint, and both replace the file. -/
theorem both_writers_return : (rivals true).writerId ≠ (rivals false).writerId ∧
    ∃ s, Reaches rivals (fun _ _ => True) s ∧ s.phase true = .returned ∧
      s.phase false = .returned := by
  obtain ⟨encoded₁, h₁⟩ := encoded_rivals true
  obtain ⟨encoded₂, h₂⟩ := encoded_rivals false
  have hstart : Reaches rivals (fun _ _ => True) _ := .start
  have hfirst := hstart.step (i := true) trivial (.missing rfl rfl)
  have hboth := hfirst.step (i := false) trivial (.missing rfl rfl)
  have hfilled := hboth.fill (i := true) rfl h₁ trivial trivial
  have hready := hfilled.fill (i := false) rfl h₂ trivial trivial
  have hreplaced := hready.step (i := true) trivial (.replace rfl h₁)
  have hlast := hreplaced.step (i := false) trivial (.replace rfl h₂)
  exact ⟨by decide, _, hlast, rfl, rfl⟩

/-- One writer returns before the other starts, which raises. -/
theorem writers_exclusive_inTurn : ∃ s, Reaches rivals (Orderly rivals) s ∧
    s.phase true = .returned ∧ ∃ outcome, (s.phase false).outcome = some outcome ∧
      outcome = .error (.concurrentWriter "b" "w1" "w2") := by
  obtain ⟨encoded, hencoded⟩ := encoded_rivals true
  have hstart : Reaches rivals (Orderly rivals) _ := .start
  have hfirst := hstart.step (i := true) (orderly_of_replaced_nil rfl encoded_rivals)
    (.missing rfl rfl)
  have hfilled := hfirst.fill (i := true) rfl hencoded
    (orderly_of_replaced_nil rfl encoded_rivals) (orderly_of_replaced_nil rfl encoded_rivals)
  have hreturned := hfilled.step (i := true) (orderly_of_replaced_nil rfl encoded_rivals)
    (.replace rfl hencoded)
  have hfound := hreturned.step (i := false) (orderly_of_idle rfl) (.found rfl rfl)
  have hreading := hfound.step (i := false) (orderly_of_idle rfl) (.again rfl rfl)
  have hread := hreading.step (i := false) (orderly_of_idle rfl) (.read rfl rfl)
  obtain ⟨k, hk, hjudge⟩ := hreading.complete.judge rfl (rivals false) 1
  obtain rfl : k = true := List.mem_singleton.mp hk
  rw [if_pos (by decide)] at hjudge
  have houtcome : (judge (rivals false) 1 encoded).outcome = some (.error
      (.concurrentWriter "b" "w1" "w2")) := congrArg Phase.outcome hjudge
  refine ⟨_, hread, rfl, _, houtcome, ?_⟩
  exact ((writers_exclusive rivals).1 _ hread).2 true false _ rfl (by decide) houtcome

/-- The first writer, alone. -/
theorem write_steps_alone : ∃ s' : Shared Bool,
    Relation.ReflTransGen (Step rivals true) ⟨none, [], fun _ => .started⟩ s' ∧
      (s'.phase true).outcome = some (store.write (rivals true) false "0" tree).1 ∧
      (store.write (rivals true) false "0" tree).2.node
        (store.directory ++ [(rivals true).experimentId ++ ".json"]) = s'.file.map .file := by
  have hdirect : Direct (rivals true).experimentId :=
    ⟨by decide, by decide, by decide, by decide⟩
  have hsegment : FileTree.IsSegment ((rivals true).experimentId ++ ".json") :=
    ⟨by decide, by decide⟩
  have hfresh : tree.node (store.temporary "0") = none := by decide
  have hfile : tree.node (store.directory ++ [(rivals true).experimentId ++ ".json"]) =
      Option.map FileNode.file none := by decide
  exact write_steps opened_tree.holds hdirect hsegment hfresh rfl hfile

end Sample

end Checkpoints
