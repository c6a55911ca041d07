import SignalFoundry.Lattice.Shadow.Contracts
import SignalFoundry.Library.Table

/-!
# The shadow store

`ShadowStore` as the tables of its schema. A call runs in the steps between which
other callers can run: a read in autocommit, or a transaction. The columns of
JSON text hold the values they encode.
-/

namespace Shadow

open Fallible

structure CampaignRow where
  campaign : String
  state : CampaignState
  horizonDays : ℤ
  classLabels : List String
  createdAt : String
  modelIdentity : String
  deriving DecidableEq

structure TransitionRow where
  campaign : String
  fromState : CampaignState
  toState : CampaignState
  occurredAt : String
  deriving DecidableEq

structure BatchRow where
  batchId : String
  campaign : String
  asOf : String
  sealedAt : String
  expectedUniverse : List String
  forecastCount : ℕ
  deriving DecidableEq

structure ForecastRow (F : Type) [PyFloat F] where
  forecastId : String
  batchId : String
  campaign : String
  symbol : String
  asOf : String
  targetInstant : String
  horizonDays : ℕ
  distribution : ProbabilityVector F
  featurePrefixDigest : String
  modelIdentity : String

/-- The tables, each in the order of insertion. -/
structure Store (F : Type) [PyFloat F] where
  campaigns : List CampaignRow := []
  transitions : List TransitionRow := []
  batches : List BatchRow := []
  forecasts : List (ForecastRow F) := []

/-- `length(text) = 27 AND substr(text, -1) = 'Z'`. -/
def isInstantText (text : String) : Bool :=
  text.toList.length = 27 && text.toList.getLast? = some 'Z'

/-- The text of `json.dumps` of a list of strings. -/
def stringListText (items : List String) : List Char :=
  '[' :: List.intercalate [',', ' '] (items.map Json.writeString) ++ [']']

namespace Store

variable [PyRuntime] {F : Type} [PyFloat F]

/-! ## Statements -/

/-- `INSERT INTO sl_shadow_campaigns`. -/
def insertCampaign (s : Store F) (row : CampaignRow) : Except ShadowError (Store F) := do
  refuseIf (row.campaign ∈ s.campaigns.map CampaignRow.campaign) .database
  refuseIf (¬ (1 ≤ row.campaign.toList.length ∧ row.campaign.toList.length ≤ 64 ∧
    row.campaign.toList.head?.any PyText.isLowerAscii)) .database
  refuseIf (¬ (1 ≤ row.horizonDays ∧ row.horizonDays ≤ 365)) .database
  refuseIf (¬ (2 ≤ (stringListText row.classLabels).length ∧
    (stringListText row.classLabels).length ≤ 4096)) .database
  refuseIf (isInstantText row.createdAt = false) .database
  refuseIf (isDigest row.modelIdentity = false) .database
  .ok { s with campaigns := s.campaigns ++ [row] }

/-- `UPDATE sl_shadow_campaigns SET state = ? WHERE campaign = ?`, with its
trigger. -/
def updateState (s : Store F) (campaign : String) (state : CampaignState) :
    Except ShadowError (Store F) := do
  refuseIf (∃ row ∈ s.campaigns, row.campaign = campaign ∧
    (row.state = .closed ∨ row.state = .abandoned)) .database
  .ok { s with
    campaigns := Table.update CampaignRow.campaign campaign
      (fun row => { row with state := state }) s.campaigns }

/-- `INSERT INTO sl_shadow_campaign_transitions`. -/
def insertTransition (s : Store F) (row : TransitionRow) : Except ShadowError (Store F) := do
  refuseIf (row.campaign ∉ s.campaigns.map CampaignRow.campaign) .database
  refuseIf (isInstantText row.occurredAt = false) .database
  .ok { s with transitions := s.transitions ++ [row] }

/-- `INSERT INTO sl_shadow_batches`. -/
def insertBatch (s : Store F) (row : BatchRow) : Except ShadowError (Store F) := do
  refuseIf (row.batchId ∈ s.batches.map BatchRow.batchId) .database
  refuseIf ((row.campaign, row.asOf) ∈ s.batches.map fun b => (b.campaign, b.asOf)) .database
  refuseIf (row.campaign ∉ s.campaigns.map CampaignRow.campaign) .database
  refuseIf (isDigest row.batchId = false) .database
  refuseIf (isInstantText row.asOf = false ∨ isInstantText row.sealedAt = false) .database
  refuseIf (row.forecastCount = 0) .database
  .ok { s with batches := s.batches ++ [row] }

/-- `INSERT INTO sl_shadow_forecasts`. -/
def insertForecast (s : Store F) (row : ForecastRow F) : Except ShadowError (Store F) := do
  refuseIf (row.forecastId ∈ s.forecasts.map ForecastRow.forecastId) .database
  refuseIf (row.batchId ∉ s.batches.map BatchRow.batchId) .database
  refuseIf (row.campaign ∉ s.campaigns.map CampaignRow.campaign) .database
  refuseIf (isDigest row.forecastId = false) .database
  refuseIf (¬ (1 ≤ row.symbol.toList.length ∧ row.symbol.toList.length ≤ 24)) .database
  refuseIf (isInstantText row.asOf = false ∨ isInstantText row.targetInstant = false) .database
  refuseIf (¬ (1 ≤ row.horizonDays ∧ row.horizonDays ≤ 365)) .database
  refuseIf (isDigest row.featurePrefixDigest = false ∨ isDigest row.modelIdentity = false) .database
  refuseIf (¬ row.asOf < row.targetInstant) .database
  .ok { s with forecasts := s.forecasts ++ [row] }

/-- `connection.executemany`. -/
def insertForecasts (s : Store F) : List (ForecastRow F) → Except ShadowError (Store F)
  | [] => .ok s
  | row :: rows => do
      let s ← s.insertForecast row
      s.insertForecasts rows

/-- Run the statements of a transaction; an error rolls them back. -/
def transaction (s : Store F) (body : Except ShadowError (Store F)) :
    Except ShadowError Unit × Store F :=
  match body with
  | .ok s' => (.ok (), s')
  | .error error => (.error error, s)

/-! ## Reads -/

def campaignState (s : Store F) (campaign : String) : Except ShadowError CampaignState := do
  refuseIf (isCampaignName campaign = false)
    (.validation ("campaign name " ++ PyRuntime.strRepr campaign ++ " is malformed; expected" ++
      " lowercase alphanumeric with _ or -, at most 64 characters"))
  match Table.find CampaignRow.campaign campaign s.campaigns with
  | some row => .ok row.state
  | none => .error (.notFound ("campaign " ++ PyRuntime.strRepr campaign ++ " does not exist"))

/-- `assert_campaign_transition`. -/
def assertCampaignTransition (current proposed : CampaignState) : Except ShadowError Unit :=
  if proposed ∈ current.permitted then .ok ()
  else if current.permitted = [] then
    .error (.validation ("campaign is terminal in " ++ PyRuntime.strRepr current.value ++ "; " ++
      PyRuntime.strRepr proposed.value ++ " cannot follow. Reopening would allow a forecast after" ++
        " its outcome window opened."))
  else
    .error (.validation (PyRuntime.strRepr current.value ++ " -> " ++
      PyRuntime.strRepr proposed.value ++ " is not a permitted campaign transition"))

end Store

/-! ## Calls -/

section Calls

variable [PyRuntime] {F : Type} [PyFloat F] [FloatText F]

/-- Where a call is: before its next read or transaction. -/
inductive Position (F : Type) [PyFloat F] where
  | create (row : CampaignRow)
  | transition (campaign : String) (target : CampaignState) (now : Instant)
  /-- The state has been read. -/
  | moving (campaign : String) (current target : CampaignState) (now : Instant)
  | sealing (batch : SealedBatch F)
  /-- The campaign has been read as active. -/
  | checking (batch : SealedBatch F)
  /-- No batch of the instant has been found. -/
  | inserting (batch : SealedBatch F)

inductive Outcome (F : Type) [PyFloat F] where
  | next (position : Position F)
  | returned (batchId : Option String)
  | raised (error : ShadowError)

/-- The row of a batch. -/
def batchRow (batch : SealedBatch F) : BatchRow where
  batchId := batch.batchId
  campaign := batch.campaign
  asOf := batch.asOf.encoded
  sealedAt := batch.sealedAt.encoded
  expectedUniverse := batch.expectedUniverse
  forecastCount := batch.forecasts.length

def forecastRow (batchId : String) (item : ShadowForecast F) : ForecastRow F where
  forecastId := item.forecastId
  batchId := batchId
  campaign := item.campaign
  symbol := item.symbol
  asOf := item.asOf.encoded
  targetInstant := item.targetInstant.encoded
  horizonDays := item.horizonDays
  distribution := item.distribution
  featurePrefixDigest := item.featurePrefixDigest
  modelIdentity := item.modelIdentity

namespace Store

/-- `create_campaign`, one insertion in autocommit. -/
def createCampaign (s : Store F) (row : CampaignRow) : Outcome F × Store F :=
  if isCampaignName row.campaign = false then
    (.raised (.validation ("campaign name " ++ PyRuntime.strRepr row.campaign ++ " is malformed;" ++
      " expected lowercase alphanumeric with _ or -, at most 64 characters")), s)
  else if row.classLabels.length < 2 ∨ ¬ row.classLabels.Nodup then
    (.raised (.validation "class_labels must be at least two unique labels"), s)
  else
    match s.transaction (s.insertCampaign { row with state := .draft }) with
    | (.ok (), s) => (.returned none, s)
    | (.error _, s) => (.raised (.conflict ("campaign " ++ PyRuntime.strRepr row.campaign ++
        " already exists")), s)

/-- The read of `transition`. -/
def readState (s : Store F) (campaign : String) (target : CampaignState) (now : Instant) :
    Outcome F :=
  match s.campaignState campaign with
  | .error error => .raised error
  | .ok current =>
      match assertCampaignTransition current target with
      | .error error => .raised error
      | .ok () => .next (.moving campaign current target now)

/-- The transaction of `transition`. -/
def move (s : Store F) (campaign : String) (current target : CampaignState) (now : Instant) :
    Outcome F × Store F :=
  let body := do
    let s ← s.updateState campaign target
    s.insertTransition ⟨campaign, current, target, now.encoded⟩
  match s.transaction body with
  | (.ok (), s) => (.returned none, s)
  | (.error error, s) => (.raised error, s)

/-- The first read of `seal_batch`. -/
def readActive (s : Store F) (batch : SealedBatch F) : Outcome F :=
  match s.campaignState batch.campaign with
  | .error error => .raised error
  | .ok state =>
      if state ≠ .active then
        .raised (.sealedCampaign ("campaign " ++ PyRuntime.strRepr batch.campaign ++ " is " ++
          PyRuntime.strRepr state.value ++ "; forecasts may only be sealed while it is active"))
      else .next (.checking batch)

/-- The second read of `seal_batch`. -/
def readBatch (s : Store F) (batch : SealedBatch F) : Outcome F :=
  match Table.find (fun b : BatchRow => (b.campaign, b.asOf))
      (batch.campaign, batch.asOf.encoded) s.batches with
  | none => .next (.inserting batch)
  | some existing =>
      if existing.batchId = batch.batchId then .returned (some batch.batchId)
      else
        .raised (.conflict ("a different batch is already sealed for " ++
          PyRuntime.strRepr batch.campaign ++ " at " ++ batch.asOf.encoded ++ ": stored " ++
          String.ofList (existing.batchId.toList.take 12) ++ ", offered " ++
          String.ofList (batch.batchId.toList.take 12) ++
          ". One decision instant has one opinion."))

/-- The statements of the transaction of `seal_batch`. -/
def insertRows (s : Store F) (batch : SealedBatch F) : Except ShadowError (Store F) := do
  let s ← s.insertBatch (batchRow batch)
  s.insertForecasts (batch.forecasts.map (forecastRow batch.batchId))

/-- The transaction of `seal_batch`. -/
def insert (s : Store F) (batch : SealedBatch F) : Outcome F × Store F :=
  match s.transaction (s.insertRows batch) with
  | (.ok (), s) => (.returned (some batch.batchId), s)
  | (.error error, s) => (.raised error, s)

/-- The next step of a call. -/
def advance (s : Store F) : Position F → Outcome F × Store F
  | .create row => s.createCampaign row
  | .transition campaign target now => (s.readState campaign target now, s)
  | .moving campaign current target now => s.move campaign current target now
  | .sealing batch => (s.readActive batch, s)
  | .checking batch => (s.readBatch batch, s)
  | .inserting batch => s.insert batch

end Store

/-! ## Schedules -/

/-- A call that starts. -/
inductive Call (F : Type) [PyFloat F] where
  | create (row : CampaignRow)
  | transition (campaign : String) (target : CampaignState) (now : Instant)
  | sealBatch (batch : SealedBatch F)

def Call.position : Call F → Position F
  | create row => .create row
  | transition campaign target now => .transition campaign target now
  | sealBatch batch => .sealing batch

/-- The store with the calls that are under way. -/
structure System (F : Type) [PyFloat F] where
  store : Store F := {}
  calls : List (Position F) := []

/-- A schedule starts calls, takes the next step of one of them, or ends one. -/
inductive Action (F : Type) [PyFloat F] where
  | start (call : Call F)
  | step (index : ℕ)
  | fail (index : ℕ)

def System.act (sys : System F) : Action F → System F
  | .start call => { sys with calls := sys.calls ++ [call.position] }
  | .step index =>
      match sys.calls[index]? with
      | none => sys
      | some position =>
          match sys.store.advance position with
          | (.next position, store) => ⟨store, sys.calls.set index position⟩
          | (_, store) => ⟨store, sys.calls.eraseIdx index⟩
  | .fail index => { sys with calls := sys.calls.eraseIdx index }

def System.run (sys : System F) (actions : List (Action F)) : System F :=
  actions.foldl System.act sys

end Calls

end Shadow
