import SignalFoundry.Foundry.Research.Store

/-!
# The research manager

`Manager` as the steps it takes under its condition: the two halves of a
submission, which validates between them outside the lock, a cancellation, and
the scheduler taking a job, handling the end of its run and letting go of it. A
step that would end the scheduler thread is a fault.
-/

namespace Foundry

namespace Research

/-- The job of the scheduler, with its cancel event. -/
structure Active where
  jobId : String
  cancelled : Bool := false

/-- Where the scheduler thread is. -/
inductive Position where
  | waiting
  | running
  | ending

structure Manager (Request : Type) where
  store : Store := {}
  queue : List String := []
  active : Option Active := none
  position : Position := .waiting
  /-- The submissions that are being validated. -/
  validating : List (Request × String) := []

/-- Why a step is not taken: it is not its turn, or the scheduler stops. -/
inductive Stop where
  | disabled
  | faulted

inductive Reply where
  | returned (job : Job)
  | raised (error : FoundryError)
  | valueError
  | started (jobId : String)
  | done

inductive Step (Request Evidence : Type) where
  | submitLookup (request : Request) (key : String)
  | submitInvalid (request : Request) (key : String) (error : FoundryError)
  | submit (request : Request) (key : String) (now : Timestamp)
  | cancel (jobId : String) (now : Timestamp)
  | take (now : Timestamp)
  | runFinished (evidence : Evidence) (now : Timestamp)
  | runFailed (code : String) (now : Timestamp)
  | release

namespace Manager

variable [PyRuntime] {Request Evidence : Type} [DecidableEq Request] [Canonical Request]
  [EvidenceOf Evidence Request]

/-- What a call shows of its result. -/
def reply : Except FoundryError Job → Reply
  | .ok job => .returned job
  | .error error => .raised error

omit [DecidableEq Request] in
/-- The first half of `submit`: a known key returns, others are validated. -/
def submitLookup (m : Manager Request) (request : Request) (key : String) :
    Reply × Manager Request :=
  match m.store.lookup request key with
  | .ok (some job) => (.returned job, m)
  | .ok none => (.done, { m with validating := (request, key) :: m.validating })
  | .error error => (.raised error, m)

omit [DecidableEq Request] in
/-- The second half of `submit`. -/
def submit (m : Manager Request) (request : Request) (key : String) (now : Timestamp) :
    Reply × Manager Request :=
  match m.store.submit request key now with
  | (.ok (job, created), store) =>
      (.returned job,
        { m with store := store, queue := if created then m.queue ++ [job.jobId] else m.queue })
  | (.error error, store) => (.raised error, { m with store := store })

omit [PyRuntime] [DecidableEq Request] [Canonical Request] in
def cancel (m : Manager Request) (jobId : String) (now : Timestamp) : Reply × Manager Request :=
  match m.store.get jobId with
  | .error error => (.raised error, m)
  | .ok current =>
      if current.state.Terminal then (.returned current, m)
      else
        match m.active with
        | some active =>
            if active.jobId = jobId then
              withdraw { m with active := some { active with cancelled := true } }
            else if jobId ∈ m.queue then withdraw { m with queue := m.queue.erase jobId }
            else (.valueError, m)
        | none =>
            if jobId ∈ m.queue then withdraw { m with queue := m.queue.erase jobId }
            else (.valueError, m)
where
  withdraw (m : Manager Request) : Reply × Manager Request :=
    let (result, store) := m.store.transition jobId .cancelled (some "cancelled") now
    (reply result, { m with store := store })

omit [PyRuntime] [DecidableEq Request] [Canonical Request] in
/-- The scheduler takes the first job of the queue. -/
def take (m : Manager Request) (now : Timestamp) : Except Stop (Reply × Manager Request) :=
  match m.position, m.queue with
  | .waiting, jobId :: queue =>
      match m.store.transition jobId .running none now with
      | (.ok _, store) =>
          .ok (.started jobId, { m with
            store := store, queue := queue, active := some { jobId }, position := .running })
      | (.error _, _) => .error .faulted
  | _, _ => .error .disabled

omit [DecidableEq Request] in
/-- The run of the active job has returned. -/
def runFinished (m : Manager Request) (evidence : Evidence) (now : Timestamp) :
    Except Stop (Reply × Manager Request) :=
  match m.position, m.active with
  | .running, some active =>
      if active.cancelled then .ok (.done, { m with position := .ending })
      else
        match m.store.publish active.jobId evidence now with
        | (.ok _, store) => .ok (.done, { m with store := store, position := .ending })
        | (.error _, _) => .error .faulted
  | _, _ => .error .disabled

omit [PyRuntime] [DecidableEq Request] [Canonical Request] in
/-- The run of the active job has raised. -/
def runFailed (m : Manager Request) (code : String) (now : Timestamp) :
    Except Stop (Reply × Manager Request) :=
  match m.position, m.active with
  | .running, some active =>
      match m.store.get active.jobId with
      | .error _ => .error .faulted
      | .ok current =>
          if current.state.Terminal then .ok (.done, { m with position := .ending })
          else
            match m.store.transition active.jobId .failed (some code) now with
            | (.ok _, store) => .ok (.done, { m with store := store, position := .ending })
            | (.error _, _) => .error .faulted
  | _, _ => .error .disabled

def step (m : Manager Request) : Step Request Evidence → Except Stop (Reply × Manager Request)
  | .submitLookup request key => .ok (m.submitLookup request key)
  | .submitInvalid request key error =>
      if (request, key) ∈ m.validating then
        .ok (.raised error, { m with validating := m.validating.erase (request, key) })
      else .error .disabled
  | .submit request key now =>
      if (request, key) ∈ m.validating then
        .ok ({ m with validating := m.validating.erase (request, key) }.submit request key now)
      else .error .disabled
  | .cancel jobId now => .ok (m.cancel jobId now)
  | .take now => m.take now
  | .runFinished evidence now => m.runFinished evidence now
  | .runFailed code now => m.runFailed code now
  | .release =>
      match m.position with
      | .ending => .ok (.done, { m with active := none, position := .waiting })
      | _ => .error .disabled

end Manager

end Research

end Foundry
