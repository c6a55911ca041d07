import SignalFoundry.AlphaForge.Broker.PaperAdapter

/-!
# Reconciliation

`reconcile` compares what a session recorded with what the broker reports: the
positions of every symbol, the cash, and the orders that are open on either
side. A report is reconciled exactly when these agree (`Agrees`). An order that
is settled on both sides is open on neither and is compared with nothing, so a
reconciled report says nothing about the states of such orders or about the
fills of orders that were never recorded.
-/

namespace SignalFoundry.Broker

open Fallible

/-- `OrderIntent`: what is read of it here. -/
structure OrderIntent where
  clientOrderId : String
  submittedState : String
  submittedState_mem : ∃ state : OrderState, submittedState = state.value

/-- `OrderIntent.is_terminal`. -/
def OrderIntent.isTerminal (intent : OrderIntent) : Bool :=
  intent.submittedState ∈ [OrderState.filled.value, OrderState.canceled.value,
    OrderState.rejected.value, OrderState.expired.value]

/-- `SessionSnapshot`: what is read of it here. Its cash is the text of a decimal. -/
structure SessionSnapshot where
  cash : ℚ
  positions : List Position
  intents : List OrderIntent
  positions_nodup : (positions.map Position.symbol).Nodup
  intents_nodup : (intents.map OrderIntent.clientOrderId).Nodup

/-- `SessionSnapshot.open_intents`. -/
def SessionSnapshot.openIntents (snapshot : SessionSnapshot) : List OrderIntent :=
  snapshot.intents.filter fun intent => !intent.isTerminal

/-- `DivergenceKind`. No divergence is of the last kind. -/
inductive DivergenceKind where
  | positionQuantity
  | positionOnlyLocal
  | positionOnlyBroker
  | cash
  | orderOnlyLocal
  | orderOnlyBroker
  | orderState
  | unrecordedFill
  deriving DecidableEq, Repr

/-- A value of a divergence: a text, or a decimal that is rendered as one. -/
inductive DivergenceValue where
  | text (value : String)
  | decimal (value : ℚ)
  deriving DecidableEq, Repr

/-- `Divergence`. An interpretation ends before the number that it renders. -/
structure Divergence where
  kind : DivergenceKind
  subject : String
  localValue : DivergenceValue
  brokerValue : DivergenceValue
  interpretation : String
  deriving DecidableEq, Repr

/-- `ReconciliationReport`. -/
structure ReconciliationReport where
  reconciled : Bool
  checkedAt : ℤ
  divergences : List Divergence
  positionsCompared : ℕ
  ordersCompared : ℕ

/-- `MAX_REPORTED_DIVERGENCES`. -/
def maxReportedDivergences : ℕ := 500

section Reconcile

variable (context : DecimalContext)

/-- The comparison of the positions of one symbol. -/
def comparePositions (symbol : String) : Option Position → Option Position →
    Except DecimalSignal (List Divergence)
  | some own, none => .ok [{
      kind := .positionOnlyLocal
      subject := symbol
      localValue := .decimal own.quantity
      brokerValue := .text "absent"
      interpretation := "the system believes it holds this security and the broker does not " ++
        "report it; either a fill was never executed or the position was closed outside this " ++
        "system" }]
  | none, some remote => .ok [{
      kind := .positionOnlyBroker
      subject := symbol
      localValue := .text "absent"
      brokerValue := .decimal remote.quantity
      interpretation := "the broker reports a position this system never opened; a manual " ++
        "trade, another process on the same account, or an unrecorded fill" }]
  | some own, some remote => do
      let difference ← context.sub remote.quantity own.quantity
      if quantityEpsilon < (← context.abs difference) then return [{
        kind := .positionQuantity
        subject := symbol
        localValue := .decimal own.quantity
        brokerValue := .decimal remote.quantity
        interpretation := "quantities differ by " }]
      else return []
  | none, none => .ok []

/-- The comparison of the cash. -/
def compareCash (own remote tolerance : ℚ) : Except DecimalSignal (List Divergence) := do
  let difference ← context.sub remote own
  if tolerance < (← context.abs difference) then return [{
    kind := .cash
    subject := "cash"
    localValue := .decimal own
    brokerValue := .decimal remote
    interpretation := "cash differs by " }]
  else return []

/-- The comparison of an order: its intent and its status where they are open, and what
the broker reports of it. -/
def compareOrders (clientOrderId : String) (reported : Option OrderStatus) :
    Option OrderIntent → Option OrderStatus → List Divergence
  | some intent, none =>
      match reported with
      | none => [{
          kind := .orderOnlyLocal
          subject := clientOrderId
          localValue := .text intent.submittedState
          brokerValue := .text "unknown"
          interpretation := "the system recorded an intent the broker has never heard of; the " ++
            "submission may have been lost in flight, and resubmitting without confirming " ++
            "would risk a duplicate" }]
      | some status => [{
          kind := .orderState
          subject := clientOrderId
          localValue := .text intent.submittedState
          brokerValue := .text status.state.value
          interpretation := "the order reached a terminal state the system has not recorded; " ++
            "its fill may be missing from local accounting" }]
  | none, some remote => [{
      kind := .orderOnlyBroker
      subject := clientOrderId
      localValue := .text "absent"
      brokerValue := .text remote.state.value
      interpretation := "the broker holds a working order this system has no record of; it may " ++
        "fill at any moment against an unmodelled position" }]
  | some intent, some remote =>
      if intent.submittedState ≠ remote.state.value then [{
        kind := .orderState
        subject := clientOrderId
        localValue := .text intent.submittedState
        brokerValue := .text remote.state.value
        interpretation := "local and broker order states disagree" }]
      else []
  | none, none => []

/-- `{item.symbol: item for item in positions}`. -/
def positionsBySymbol (positions : List Position) : OrderedDict String Position :=
  .ofItems (positions.map fun item => (item.symbol, item))

/-- `{item.client_order_id: item for item in intents}`. -/
def intentsById (intents : List OrderIntent) : OrderedDict String OrderIntent :=
  .ofItems (intents.map fun item => (item.clientOrderId, item))

/-- The broker's orders in a state that is not terminal. -/
def openOrders (orders : OrderedDict String OrderStatus) : OrderedDict String OrderStatus :=
  .ofItems (orders.items.filter fun item => !item.2.state.isTerminal)

/-- `sorted(set(a) | set(b))`. -/
def sortedUnion (a b : List String) : List String := sortedBy id (a ++ b).dedup

/-- The divergences of the positions of a session and of the broker. -/
def positionDivergences (own remote : OrderedDict String Position) :
    Except DecimalSignal (List Divergence) := do
  let found ← (sortedUnion own.keys remote.keys).mapM fun symbol =>
    comparePositions context symbol (own.get? symbol) (remote.get? symbol)
  return found.flatten

/-- The divergences of the orders that are open on either side. -/
def orderDivergences (intents : OrderedDict String OrderIntent)
    (orders : OrderedDict String OrderStatus) : List Divergence :=
  (sortedUnion intents.keys (openOrders orders).keys).flatMap fun id =>
    compareOrders id (orders.get? id) (intents.get? id) ((openOrders orders).get? id)

/-- `ReconciliationReport(...)`. -/
def ReconciliationReport.create (reconciled : Bool) (checkedAt : Moment)
    (divergences : List Divergence) (positionsCompared ordersCompared : ℕ) :
    Except AdapterError ReconciliationReport := do
  let checkedAt ← utcTimestamp "checked_at" checkedAt
  refuseIf (maxReportedDivergences < divergences.length)
    (.contract (.reconciliation ("divergence count exceeds the 500 ceiling; the comparison is " ++
      "being run against the wrong account or the wrong snapshot")))
  refuseIf (reconciled = true ∧ divergences ≠ []) (.contract (.reconciliation
    "a report cannot be marked reconciled while carrying divergences"))
  return { reconciled, checkedAt, divergences, positionsCompared, ordersCompared }

/-- `reconcile`. -/
def reconcile (snapshot : SessionSnapshot) (account : AccountSnapshot)
    (brokerOrders : OrderedDict String OrderStatus) (checkedAt : Moment) (cashTolerance : ℚ) :
    Except AdapterError ReconciliationReport := do
  refuseIf (cashTolerance < 0) (.contract (.reconciliation
    "cash_tolerance must be finite and non-negative"))
  let own := positionsBySymbol snapshot.positions
  let remote := positionsBySymbol account.positions
  let positions ← contract (decimal (positionDivergences context own remote))
  let cash ← contract (decimal (compareCash context snapshot.cash account.cash cashTolerance))
  let intents := intentsById snapshot.openIntents
  let divergences := positions ++ cash ++ orderDivergences intents brokerOrders
  ReconciliationReport.create (divergences = []) checkedAt
    (divergences.take maxReportedDivergences)
    (sortedUnion own.keys remote.keys).length
    (sortedUnion intents.keys (openOrders brokerOrders).keys).length

end Reconcile

/-! ## What is compared -/

section Agrees

variable {context : DecimalContext}

/-- The rounded difference of two decimals is within a bound. -/
def Within (context : DecimalContext) (bound a b : ℚ) : Prop :=
  ∃ difference size, context.sub a b = .ok difference ∧ context.abs difference = .ok size ∧
    size ≤ bound

/-- The positions of a symbol that a comparison finds no divergence of. -/
def PositionsAgree (context : DecimalContext) : Option Position → Option Position → Prop
  | some own, some remote => Within context quantityEpsilon remote.quantity own.quantity
  | none, none => True
  | some _, none | none, some _ => False

/-- An order whose intent and status are open with one state, or neither is open. -/
def OrdersAgree : Option OrderIntent → Option OrderStatus → Prop
  | some intent, some status => intent.submittedState = status.state.value
  | none, none => True
  | some _, none | none, some _ => False

/-- The session and the broker agree on all that is compared. -/
structure Agrees (context : DecimalContext) (snapshot : SessionSnapshot)
    (account : AccountSnapshot) (brokerOrders : OrderedDict String OrderStatus)
    (cashTolerance : ℚ) : Prop where
  positions : ∀ symbol, PositionsAgree context
    ((positionsBySymbol snapshot.positions).get? symbol)
    ((positionsBySymbol account.positions).get? symbol)
  cash : Within context cashTolerance account.cash snapshot.cash
  orders : ∀ id, OrdersAgree ((intentsById snapshot.openIntents).get? id)
    ((openOrders brokerOrders).get? id)

theorem comparePositions_eq_nil_iff {symbol : String} {own remote : Option Position}
    {found : List Divergence} (h : comparePositions context symbol own remote = .ok found) :
    found = [] ↔ PositionsAgree context own remote := by
  cases own with
  | none =>
      cases remote <;> cases h <;> simp [PositionsAgree]
  | some own =>
      cases remote with
      | none =>
          cases h
          simp [PositionsAgree]
      | some remote =>
          simp only [comparePositions, bind_eq_ok_iff] at h
          obtain ⟨difference, hdifference, size, hsize, h⟩ := h
          simp only [PositionsAgree, Within, hdifference]
          split at h <;> cases h <;> simp_all

theorem compareCash_eq_nil_iff {own remote tolerance : ℚ} {found : List Divergence}
    (h : compareCash context own remote tolerance = .ok found) :
    found = [] ↔ Within context tolerance remote own := by
  simp only [compareCash, bind_eq_ok_iff] at h
  obtain ⟨difference, hdifference, size, hsize, h⟩ := h
  simp only [Within, hdifference]
  split at h <;> cases h <;> simp_all

theorem compareOrders_eq_nil_iff {id : String} {reported : Option OrderStatus}
    {intent : Option OrderIntent} {status : Option OrderStatus} :
    compareOrders id reported intent status = [] ↔ OrdersAgree intent status := by
  cases intent with
  | none => cases status <;> simp [compareOrders, OrdersAgree]
  | some intent =>
      cases status with
      | none => cases reported <;> simp [compareOrders, OrdersAgree]
      | some status => simp [compareOrders, OrdersAgree]

theorem mem_sortedUnion {a b : List String} {x : String} :
    x ∈ sortedUnion a b ↔ x ∈ a ∨ x ∈ b := by
  simp [sortedUnion]

/-- A key of neither dictionary has nothing in both. -/
theorem get?_eq_none_of_not_mem_sortedUnion {V W : Type} {d : OrderedDict String V}
    {e : OrderedDict String W} {k : String} (h : k ∉ sortedUnion d.keys e.keys) :
    d.get? k = none ∧ e.get? k = none := by
  rw [mem_sortedUnion, not_or] at h
  exact ⟨OrderedDict.get?_eq_none_iff.mpr h.1, OrderedDict.get?_eq_none_iff.mpr h.2⟩

theorem orderDivergences_eq_nil_iff {intents : OrderedDict String OrderIntent}
    {orders : OrderedDict String OrderStatus} :
    orderDivergences intents orders = [] ↔
      ∀ id, OrdersAgree (intents.get? id) ((openOrders orders).get? id) := by
  simp only [orderDivergences, List.flatMap_eq_nil_iff, compareOrders_eq_nil_iff]
  refine ⟨fun h id => ?_, fun h id _ => h id⟩
  by_cases hid : id ∈ sortedUnion intents.keys (openOrders orders).keys
  · exact h id hid
  · obtain ⟨hintent, hstatus⟩ := get?_eq_none_of_not_mem_sortedUnion hid
    rw [hintent, hstatus]
    exact trivial

/-- A loop that collects lists collects nothing when every step does. -/
theorem flatten_eq_nil_iff_of_mapM {ε α β : Type} {f : α → Except ε (List β)} {p : α → Prop}
    {l : List α} {lists : List (List β)}
    (hf : ∀ x ∈ l, ∀ found, f x = .ok found → (found = [] ↔ p x))
    (h : l.mapM f = .ok lists) : lists.flatten = [] ↔ ∀ x ∈ l, p x := by
  induction l generalizing lists with
  | nil =>
      cases h
      simp
  | cons x xs ih =>
      rw [List.mapM_cons] at h
      obtain ⟨found, hfound, h⟩ := bind_eq_ok_iff.mp h
      obtain ⟨rest, hrest, h⟩ := bind_eq_ok_iff.mp h
      cases h
      rw [List.flatten_cons, List.append_eq_nil_iff, List.forall_mem_cons,
        hf x List.mem_cons_self found hfound,
        ih (fun y hy => hf y (List.mem_cons_of_mem x hy)) hrest]

theorem positionDivergences_eq_nil_iff {own remote : OrderedDict String Position}
    {found : List Divergence} (h : positionDivergences context own remote = .ok found) :
    found = [] ↔ ∀ symbol, PositionsAgree context (own.get? symbol) (remote.get? symbol) := by
  simp only [positionDivergences, bind_eq_ok_iff] at h
  obtain ⟨lists, hlists, h⟩ := h
  cases h
  rw [flatten_eq_nil_iff_of_mapM (fun _ _ _ hsymbol => comparePositions_eq_nil_iff hsymbol) hlists]
  refine ⟨fun h symbol => ?_, fun h symbol _ => h symbol⟩
  by_cases hsymbol : symbol ∈ sortedUnion own.keys remote.keys
  · exact h symbol hsymbol
  · obtain ⟨hown, hremote⟩ := get?_eq_none_of_not_mem_sortedUnion hsymbol
    rw [hown, hremote]
    exact trivial

variable {snapshot : SessionSnapshot} {account : AccountSnapshot}
  {brokerOrders : OrderedDict String OrderStatus} {checkedAt : Moment} {cashTolerance : ℚ}
  {report : ReconciliationReport}

/-- A report is reconciled exactly when nothing that is compared diverges. -/
theorem reconciled_iff_agrees
    (h : reconcile context snapshot account brokerOrders checkedAt cashTolerance = .ok report) :
    report.reconciled = true ↔ Agrees context snapshot account brokerOrders cashTolerance := by
  simp only [reconcile, bind_eq_ok_iff] at h
  obtain ⟨_, -, positions, hpositions, cash, hcash, h⟩ := h
  simp only [ReconciliationReport.create, bind_eq_ok_iff] at h
  obtain ⟨_, -, _, -, _, -, h⟩ := h
  cases h
  have hpositions' := positionDivergences_eq_nil_iff
    (mapError_eq_ok_iff.mp (mapError_eq_ok_iff.mp hpositions))
  have hcash' := compareCash_eq_nil_iff (mapError_eq_ok_iff.mp (mapError_eq_ok_iff.mp hcash))
  rw [decide_eq_true_eq, List.append_eq_nil_iff, List.append_eq_nil_iff, hpositions', hcash',
    orderDivergences_eq_nil_iff]
  constructor
  · rintro ⟨⟨hpositions, hcash⟩, horders⟩
    exact ⟨hpositions, hcash, horders⟩
  · exact fun hagrees => ⟨⟨hagrees.positions, hagrees.cash⟩, hagrees.orders⟩

end Agrees

/-! ## Lookups -/

theorem get?_openOrders {orders : OrderedDict String OrderStatus} {id : String}
    {status : OrderStatus} :
    (openOrders orders).get? id = some status ↔
      orders.get? id = some status ∧ status.state.isTerminal = false := by
  rw [OrderedDict.get?_eq_some_iff, openOrders, OrderedDict.items_ofItems
    (orders.nodup_keys.sublist (List.filter_sublist.map Prod.fst)), List.mem_filter,
    ← OrderedDict.get?_eq_some_iff]
  simp

theorem get?_openIntents {snapshot : SessionSnapshot} {id : String} {intent : OrderIntent} :
    (intentsById snapshot.openIntents).get? id = some intent ↔
      (intent ∈ snapshot.intents ∧ intent.isTerminal = false) ∧ intent.clientOrderId = id := by
  have hnodup : (snapshot.openIntents.map OrderIntent.clientOrderId).Nodup :=
    snapshot.intents_nodup.sublist (List.filter_sublist.map _)
  rw [intentsById, OrderedDict.get?_ofItems_map hnodup, SessionSnapshot.openIntents,
    List.mem_filter]
  simp

/-- The texts of the terminal states are theirs alone. -/
theorem OrderIntent.isTerminal_eq {intent : OrderIntent} {state : OrderState}
    (h : intent.submittedState = state.value) : intent.isTerminal = state.isTerminal := by
  rw [isTerminal, h]
  cases state <;> decide

/-! ## What a reconciled report accounts for -/

/-- The quantity that positions have of a symbol, zero if they have none. -/
def quantityIn (positions : List Position) (symbol : String) : ℚ :=
  (((positionsBySymbol positions).get? symbol).map Position.quantity).getD 0

/-- Every difference is within its tolerance, every recorded order has the state that the
broker reports, and every order that is working or filled is recorded. -/
structure Accounted (snapshot : SessionSnapshot) (account : AccountSnapshot)
    (brokerOrders : OrderedDict String OrderStatus) (cashTolerance : ℚ) : Prop where
  quantities : ∀ symbol, |quantityIn account.positions symbol -
    quantityIn snapshot.positions symbol| ≤ quantityEpsilon
  cash : |account.cash - snapshot.cash| ≤ cashTolerance
  states : ∀ intent ∈ snapshot.intents, ∀ status,
    brokerOrders.get? intent.clientOrderId = some status →
    intent.submittedState = status.state.value
  known : ∀ intent ∈ snapshot.intents, intent.isTerminal = false →
    ∃ status, brokerOrders.get? intent.clientOrderId = some status
  recorded : ∀ id status, brokerOrders.get? id = some status →
    status.state.isTerminal = false ∨ 0 < status.filledQuantity →
    ∃ intent ∈ snapshot.intents, intent.clientOrderId = id

/-- A difference beyond a bound that is rounded to within it. -/
def RoundedAway (context : DecimalContext) (bound a b : ℚ) : Prop :=
  Within context bound a b ∧ bound < |a - b|

/-- Nothing is left out of the comparison that would diverge: no difference is rounded
away, orders that are settled on both sides are in one state, and orders that the broker
settled with a fill are recorded. -/
structure NothingHidden (context : DecimalContext) (snapshot : SessionSnapshot)
    (account : AccountSnapshot) (brokerOrders : OrderedDict String OrderStatus)
    (cashTolerance : ℚ) : Prop where
  quantities : ∀ own ∈ snapshot.positions, ∀ remote ∈ account.positions,
    own.symbol = remote.symbol →
    ¬ RoundedAway context quantityEpsilon remote.quantity own.quantity
  cash : ¬ RoundedAway context cashTolerance account.cash snapshot.cash
  settledStates : ∀ intent ∈ snapshot.intents, intent.isTerminal = true → ∀ status,
    brokerOrders.get? intent.clientOrderId = some status → status.state.isTerminal = true →
    intent.submittedState = status.state.value
  settledFills : ∀ id status, brokerOrders.get? id = some status →
    status.state.isTerminal = true → 0 < status.filledQuantity →
    ∃ intent ∈ snapshot.intents, intent.clientOrderId = id

section Accounted

variable {context : DecimalContext} {snapshot : SessionSnapshot} {account : AccountSnapshot}
  {brokerOrders : OrderedDict String OrderStatus} {cashTolerance : ℚ}

theorem quantityIn_of_get? {positions : List Position} {symbol : String} {item : Position}
    (h : (positionsBySymbol positions).get? symbol = some item) :
    quantityIn positions symbol = item.quantity := by
  rw [quantityIn, h]
  rfl

theorem quantityIn_of_mem {positions : List Position}
    (hnodup : (positions.map Position.symbol).Nodup) {item : Position} (h : item ∈ positions) :
    quantityIn positions item.symbol = item.quantity :=
  quantityIn_of_get? ((OrderedDict.get?_ofItems_map hnodup).mpr ⟨h, rfl⟩)

theorem abs_sub_le_of_within {bound a b : ℚ} (h : Within context bound a b)
    (hround : ¬ RoundedAway context bound a b) : |a - b| ≤ bound :=
  not_lt.mp fun hlt => hround ⟨h, hlt⟩

theorem Accounted.nothingHidden
    (h : Accounted snapshot account brokerOrders cashTolerance) :
    NothingHidden context snapshot account brokerOrders cashTolerance where
  quantities own hown remote hremote hsymbol hround := by
    have hquantities := h.quantities own.symbol
    rw [quantityIn_of_mem snapshot.positions_nodup hown, hsymbol,
      quantityIn_of_mem account.positions_nodup hremote] at hquantities
    exact hround.2.not_ge hquantities
  cash hround := hround.2.not_ge h.cash
  settledStates intent hintent _ status hstatus _ := h.states intent hintent status hstatus
  settledFills id status hstatus _ hfilled := h.recorded id status hstatus (.inr hfilled)

/-- An open intent is one of an open order in the same state. -/
theorem Agrees.order_of_intent (h : Agrees context snapshot account brokerOrders cashTolerance)
    {intent : OrderIntent} (hintent : intent ∈ snapshot.intents)
    (hopen : intent.isTerminal = false) :
    ∃ status, brokerOrders.get? intent.clientOrderId = some status ∧
      intent.submittedState = status.state.value := by
  have hagree := h.orders intent.clientOrderId
  rw [get?_openIntents.mpr ⟨⟨hintent, hopen⟩, rfl⟩] at hagree
  cases hstatus : (openOrders brokerOrders).get? intent.clientOrderId with
  | none =>
      rw [hstatus] at hagree
      exact hagree.elim
  | some status =>
      rw [hstatus] at hagree
      exact ⟨status, (get?_openOrders.mp hstatus).1, hagree⟩

/-- An open order is recorded as an intent that is open. -/
theorem Agrees.intent_of_order (h : Agrees context snapshot account brokerOrders cashTolerance)
    {id : String} {status : OrderStatus} (hstatus : brokerOrders.get? id = some status)
    (hopen : status.state.isTerminal = false) :
    ∃ intent ∈ snapshot.intents, intent.isTerminal = false ∧ intent.clientOrderId = id := by
  have hagree := h.orders id
  rw [get?_openOrders.mpr ⟨hstatus, hopen⟩] at hagree
  cases hintent : (intentsById snapshot.openIntents).get? id with
  | none =>
      rw [hintent] at hagree
      exact hagree.elim
  | some intent =>
      obtain ⟨⟨hmem, hintentOpen⟩, hid⟩ := get?_openIntents.mp hintent
      exact ⟨intent, hmem, hintentOpen, hid⟩

theorem Agrees.quantities (h : Agrees context snapshot account brokerOrders cashTolerance)
    (hhidden : NothingHidden context snapshot account brokerOrders cashTolerance)
    (symbol : String) :
    |quantityIn account.positions symbol - quantityIn snapshot.positions symbol| ≤
      quantityEpsilon := by
  have hagree := h.positions symbol
  cases hown : (positionsBySymbol snapshot.positions).get? symbol with
  | none =>
      cases hremote : (positionsBySymbol account.positions).get? symbol with
      | none => simp [quantityIn, hown, hremote, quantityEpsilon]
      | some remote =>
          rw [hown, hremote] at hagree
          exact hagree.elim
  | some own =>
      cases hremote : (positionsBySymbol account.positions).get? symbol with
      | none =>
          rw [hown, hremote] at hagree
          exact hagree.elim
      | some remote =>
          rw [hown, hremote] at hagree
          obtain ⟨hownMem, hownSymbol⟩ :=
            (OrderedDict.get?_ofItems_map snapshot.positions_nodup).mp hown
          obtain ⟨hremoteMem, hremoteSymbol⟩ :=
            (OrderedDict.get?_ofItems_map account.positions_nodup).mp hremote
          rw [quantityIn_of_get? hown, quantityIn_of_get? hremote]
          exact abs_sub_le_of_within hagree
            (hhidden.quantities own hownMem remote hremoteMem (hownSymbol.trans hremoteSymbol.symm))

theorem Agrees.states (h : Agrees context snapshot account brokerOrders cashTolerance)
    (hhidden : NothingHidden context snapshot account brokerOrders cashTolerance)
    {intent : OrderIntent} (hintent : intent ∈ snapshot.intents) {status : OrderStatus}
    (hstatus : brokerOrders.get? intent.clientOrderId = some status) :
    intent.submittedState = status.state.value := by
  cases hterminal : intent.isTerminal with
  | false =>
      obtain ⟨order, horder, hstate⟩ := h.order_of_intent hintent hterminal
      rw [hstatus] at horder
      cases horder
      exact hstate
  | true =>
      cases hsettled : status.state.isTerminal with
      | true => exact hhidden.settledStates intent hintent hterminal status hstatus hsettled
      | false =>
          obtain ⟨other, hother, hopen, hid⟩ := h.intent_of_order hstatus hsettled
          have hsame := List.inj_on_of_nodup_map snapshot.intents_nodup hother hintent hid
          rw [hsame, hterminal] at hopen
          cases hopen

theorem Agrees.accounted (h : Agrees context snapshot account brokerOrders cashTolerance)
    (hhidden : NothingHidden context snapshot account brokerOrders cashTolerance) :
    Accounted snapshot account brokerOrders cashTolerance where
  quantities := h.quantities hhidden
  cash := abs_sub_le_of_within h.cash hhidden.cash
  states _ hintent _ hstatus := h.states hhidden hintent hstatus
  known intent hintent hopen := by
    obtain ⟨status, hstatus, -⟩ := h.order_of_intent hintent hopen
    exact ⟨status, hstatus⟩
  recorded id status hstatus hreason := by
    cases hterminal : status.state.isTerminal with
    | false =>
        obtain ⟨intent, hintent, -, hid⟩ := h.intent_of_order hstatus hterminal
        exact ⟨intent, hintent, hid⟩
    | true =>
        rcases hreason with hopen | hfilled
        · rw [hterminal] at hopen
          cases hopen
        · exact hhidden.settledFills id status hstatus hterminal hfilled

/-- A reconciled report accounts for every difference exactly when, if all that is compared
agrees, nothing is hidden from the comparison. -/
theorem reconciled_accounted_iff {checkedAt : Moment} {report : ReconciliationReport}
    (h : reconcile context snapshot account brokerOrders checkedAt cashTolerance = .ok report) :
    (report.reconciled = true → Accounted snapshot account brokerOrders cashTolerance) ↔
      (Agrees context snapshot account brokerOrders cashTolerance →
        NothingHidden context snapshot account brokerOrders cashTolerance) := by
  rw [reconciled_iff_agrees h]
  exact ⟨fun haccounted hagrees => (haccounted hagrees).nothingHidden,
    fun hhidden hagrees => hagrees.accounted (hhidden hagrees)⟩

end Accounted

/-! ## A hidden fill -/

/-- A session that holds nothing and has recorded no order. -/
def emptySession : SessionSnapshot where
  cash := 99500
  positions := []
  intents := []
  positions_nodup := List.nodup_nil
  intents_nodup := List.nodup_nil

/-- An account with the cash of the session and no position. -/
def emptyAccount : AccountSnapshot where
  accountIdDigest := String.ofList (List.replicate 64 'a')
  cash := 99500
  equity := 99500
  buyingPower := 99500
  positions := []
  observedAt := 0
  isPaper := true
  accountIdDigest_length := by decide
  buyingPower_nonneg := by norm_num
  positions_length := Nat.zero_le _
  positions_nodup := List.nodup_nil

/-- An order that the broker has filled. -/
def filledOrder : OrderStatus where
  clientOrderId := "order-1"
  brokerOrderId := "paper-1"
  symbol := "AAPL"
  side := .buy
  state := .filled
  requestedQuantity := 5
  filledQuantity := 5
  averageFillPrice := some 100
  submittedAt := 0
  updatedAt := 0
  reason := none
  clientOrderId_valid := by decide +kernel
  symbol_valid := isSymbol_aapl
  brokerOrderId_nonblank := by decide
  filledQuantity_nonneg := by norm_num
  filledQuantity_le := le_rfl
  averageFillPrice_pos := by simp
  requestedQuantity_le := fun _ => le_rfl
  averageFillPrice_isSome := fun _ => rfl
  submittedAt_le := le_rfl

/-- What the broker reports of the order. -/
def filledOrders : OrderedDict String OrderStatus := OrderedDict.empty.set "order-1" filledOrder

theorem reconcile_filledOrders :
    ∃ report, reconcile .exact emptySession emptyAccount filledOrders (.aware 0) (1 / 100) =
      .ok report ∧ report.reconciled = true := by
  cases h : reconcile .exact emptySession emptyAccount filledOrders (.aware 0) (1 / 100) with
  | error e =>
      have hok : (reconcile .exact emptySession emptyAccount filledOrders (.aware 0)
        (1 / 100)).toBool = true := by decide +kernel
      rw [h] at hok
      cases hok
  | ok report =>
      have hreconciled : (reconcile .exact emptySession emptyAccount filledOrders (.aware 0)
        (1 / 100)).toOption.map ReconciliationReport.reconciled = some true := by decide +kernel
      rw [h] at hreconciled
      exact ⟨report, rfl, Option.some.inj hreconciled⟩

/-- A report on a fill that was never recorded is reconciled. -/
theorem reconciled_not_accounted :
    ¬ ∀ context snapshot account brokerOrders checkedAt cashTolerance report,
      reconcile context snapshot account brokerOrders checkedAt cashTolerance = .ok report →
      report.reconciled = true → Accounted snapshot account brokerOrders cashTolerance := by
  intro hall
  obtain ⟨report, hreport, hreconciled⟩ := reconcile_filledOrders
  obtain ⟨intent, hintent, -⟩ := (hall _ _ _ _ _ _ report hreport hreconciled).recorded "order-1"
    filledOrder rfl (.inr (by norm_num [filledOrder]))
  cases hintent

/-- The report on the fill accounts for it exactly when the fill is not hidden. -/
theorem reconciled_accounted_iff_filledOrders :
    ∃ report : ReconciliationReport,
      (report.reconciled = true →
        Accounted emptySession emptyAccount filledOrders (1 / 100)) ↔
        (Agrees .exact emptySession emptyAccount filledOrders (1 / 100) →
          NothingHidden .exact emptySession emptyAccount filledOrders (1 / 100)) := by
  obtain ⟨report, hreport, -⟩ := reconcile_filledOrders
  exact ⟨report, reconciled_accounted_iff hreport⟩

end SignalFoundry.Broker
