import Mathlib.Data.List.TakeWhile
import SignalFoundry.AlphaForge.Capacity.Authorization

/-!
# Runs of a capacity policy

A run opens increasing sessions and authorizes requests in each. The requests of a
run may be restricted to those that meet a condition on the state before them.
-/

namespace Capacity

open Fallible

namespace CapacityPolicy

inductive Event where
  | opened (session : PyDate)
  | asked (request : Request) (reply : Except CapacityError CapacityDecision)

/-- The session that is being decided. -/
structure Session where
  resolved : ResolvedCapacity
  ledger : SessionCapacityLedger

/-- The runs of a policy whose requests meet a condition. The newest event of the
log is first. -/
inductive Run (p : CapacityPolicy)
    (condition : List Event → LocateUse → Session → Request → Prop) :
    List Event → LocateUse → Option Session → Prop where
  | start : Run p condition [] .empty none
  | opens {log : List Event} {used : LocateUse} {current : Option Session} {day : PyDate}
      {ledger : SessionCapacityLedger} (run : Run p condition log used current)
      (hlater : ∀ s ∈ current, s.resolved.session < day)
      (hopen : p.openSessionLedger (p.resolve day) = .ok ledger) :
      Run p condition (.opened day :: log) used (some ⟨p.resolve day, ledger⟩)
  | asks {log : List Event} {used : LocateUse} {s : Session}
      (run : Run p condition log used (some s)) (request : Request)
      (hcondition : condition log used s request) :
      Run p condition (.asked request (p.authorize used s.resolved s.ledger request).1 :: log)
        (p.authorize used s.resolved s.ledger request).2.1
        (some ⟨s.resolved, (p.authorize used s.resolved s.ledger request).2.2⟩)

/-- What an event authorizes to open shorts in a symbol. -/
def Event.shorted (symbol : Identifier) : Event → ℚ
  | asked _ (.ok decision) =>
      if decision.side = .openShort ∧ decision.symbol = symbol then decision.authorized else 0
  | _ => 0

/-- What an event authorizes against a locate. -/
def Event.located (locate : LocateRecord) : Event → ℚ
  | asked _ (.ok decision) =>
      if decision.side = .openShort ∧ decision.symbol = locate.symbol ∧
        decision.locateId = some locate.locateId then decision.authorized else 0
  | _ => 0

def Event.isOpened : Event → Bool
  | opened _ => true
  | _ => false

/-- The events since the session was opened. -/
def thisSession (log : List Event) : List Event := log.takeWhile (!·.isOpened)

def shorted (symbol : Identifier) (log : List Event) : ℚ := (log.map (·.shorted symbol)).sum

def located (locate : LocateRecord) (log : List Event) : ℚ := (log.map (·.located locate)).sum

/-- Whether shares have been authorized under an identifier. -/
def Granted (id : String) (log : List Event) : Prop :=
  ∃ request decision, .asked request (.ok decision) ∈ log ∧ request.reservationId = id ∧
    0 < decision.authorized

/-- The quantity of the borrow record in force. -/
def shortable (resolved : ResolvedCapacity) (symbol : Identifier) : ℚ :=
  (resolved.borrow.get? symbol).elim 0 (·.shortableQuantity.val)

/-- The condition on a request: it is well formed, its notional passes the ceiling of
quantities, an identifier that holds shares is presented again for the same symbol,
in the same session and for no fewer shares, and not for a new short, and the new
shorts of the session in the symbol stay within the borrow record. -/
structure Meets (p : CapacityPolicy) (log : List Event) (used : LocateUse) (s : Session)
    (request : Request) (symbol id : Identifier) : Prop where
  wellformed : Wellformed request symbol id
  notional_le : clipped p used s.resolved symbol request.side request.quantity * request.price ≤
    maxQuantity
  held : ∀ r, s.ledger.reservations.get? id = some r →
    r.symbol = symbol ∧ r.quantity.val ≤ request.quantity
  same_session : Granted request.reservationId log → id ∈ s.ledger.reservations.keys
  short_new : request.side = .openShort → ¬ Granted request.reservationId log
  within_borrow : request.side = .openShort →
    shorted symbol (thisSession log) +
      clipped p used s.resolved symbol request.side request.quantity ≤ shortable s.resolved symbol

/-- What holds in the session that is being decided. -/
structure SessionHolds (p : CapacityPolicy) (log : List Event) (s : Session) : Prop where
  sound : s.ledger.Sound
  held : ∀ id r, s.ledger.reservations.get? id = some r → 0 < r.quantity.val → Granted id.val log
  shorted_le : ∀ symbol, shorted symbol (thisSession log) ≤ shortable s.resolved symbol
  locates_mem : ∀ symbol, ∀ locate ∈ s.resolved.locates symbol,
    locate ∈ p.locates ∧ locate.symbol = symbol

/-- What holds of the locates of a run. -/
structure LocatesHold (p : CapacityPolicy) (log : List Event) (used : LocateUse) : Prop where
  located_le_used : ∀ locate : LocateRecord, located locate log ≤ used.getD locate.locateId 0
  located_le : ∀ locate ∈ p.locates, located locate log ≤ locate.quantity.val

variable {p : CapacityPolicy} {log : List Event} {used used' : LocateUse} {s : Session}
  {current : Option Session} {request : Request} {symbol id : Identifier}
  {ledger' : SessionCapacityLedger} {decision : CapacityDecision}

theorem mem_resolveLocates {day : PyDate} {locate : LocateRecord}
    (h : locate ∈ (p.resolve day).locates symbol) : locate ∈ p.locates ∧ locate.symbol = symbol := by
  have hmem : locate ∈ p.resolveLocates day symbol := h
  rw [resolveLocates, List.mem_insertionSort, List.mem_filter] at hmem
  simp only [Bool.and_eq_true, decide_eq_true_eq] at hmem
  exact ⟨hmem.1, hmem.2.2⟩

/-- Locates are told apart by their identifiers and symbols. -/
theorem locate_eq {a b : LocateRecord} (ha : a ∈ p.locates) (hb : b ∈ p.locates)
    (hid : a.locateId = b.locateId) (hsymbol : a.symbol = b.symbol) : a = b :=
  List.inj_on_of_nodup_map p.locates_unique ha hb (by rw [hid, hsymbol])

theorem SessionHolds.opened {day : PyDate} {ledger : SessionCapacityLedger}
    (hopen : p.openSessionLedger (p.resolve day) = .ok ledger) :
    SessionHolds p (.opened day :: log) ⟨p.resolve day, ledger⟩ where
  sound := (SessionCapacityLedger.fresh_of_make hopen).sound
  held id r hr _ := by
    simp [(SessionCapacityLedger.fresh_of_make hopen).reservations_eq] at hr
  shorted_le symbol := by
    simp only [thisSession, Event.isOpened, List.takeWhile_cons_of_neg, Bool.not_true,
      Bool.false_eq_true, not_false_eq_true, shorted, List.map_nil, List.sum_nil, shortable]
    cases (p.resolve day).borrow.get? symbol with
    | none => exact le_rfl
    | some record => exact record.shortableQuantity.property.1
  locates_mem symbol locate hlocate := mem_resolveLocates hlocate

/-- A decision keeps the session. -/
theorem SessionHolds.asked (h : SessionHolds p log s) (hmeets : Meets p log used s request symbol id)
    (hdecided : Decided used s.resolved s.ledger request symbol id decision used' ledger')
    (hle : request.side = .openShort → decision.authorized ≤
      clipped p used s.resolved symbol request.side request.quantity) :
    SessionHolds p (.asked request (.ok decision) :: log) ⟨s.resolved, ledger'⟩ where
  sound := by
    rcases hdecided.ledger_eq with rfl | ⟨-, r, symbolLedger, m, -⟩
    · exact h.sound
    · exact h.sound.moves m
  held other r hr hpositive := by
    have hlater : Granted other.val log →
        Granted other.val (.asked request (.ok decision) :: log) := by
      rintro ⟨earlier, granted, hmem, hrest⟩
      exact ⟨earlier, granted, List.mem_cons_of_mem _ hmem, hrest⟩
    rcases hdecided.ledger_eq with rfl | ⟨-, r', symbolLedger, m, hauthorized⟩
    · exact hlater (h.held other r hr hpositive)
    · simp only [m.reservations_eq, OrderedDict.get?_set] at hr
      split at hr
      · next heq =>
          cases hr
          rw [hauthorized] at hpositive
          exact ⟨request, decision, List.mem_cons_self, by rw [heq, hmeets.wellformed.id_eq],
            hpositive⟩
      · exact hlater (h.held other r hr hpositive)
  shorted_le other := by
    have hbefore := h.shorted_le other
    have hsession : thisSession (.asked request (.ok decision) :: log) =
        .asked request (.ok decision) :: thisSession log := rfl
    rw [hsession, shorted, List.map_cons, List.sum_cons, ← shorted]
    simp only [Event.shorted, hdecided.side_eq, hdecided.symbol_eq]
    split
    · next hshort =>
        obtain ⟨hside, rfl⟩ := hshort
        have hwithin := hmeets.within_borrow hside
        have hauthorized := hle hside
        linarith
    · linarith
  locates_mem := h.locates_mem

/-- A decision keeps the locates. -/
theorem LocatesHold.asked (h : LocatesHold p log used) (hsession : SessionHolds p log s)
    {ledger : SessionCapacityLedger}
    (hdecided : Decided used s.resolved ledger request symbol id decision used' ledger') :
    LocatesHold p (.asked request (.ok decision) :: log) used' := by
  have hcons : ∀ locate : LocateRecord, located locate (.asked request (.ok decision) :: log) =
      Event.located locate (.asked request (.ok decision)) + located locate log := fun _ => rfl
  have hnonneg := hdecided.authorized_nonneg
  rcases hdecided.used_eq with ⟨rfl, hnone⟩ | ⟨hside, chosen, hchosen, hid, hle, rfl⟩
  · have hzero : ∀ locate : LocateRecord,
        Event.located locate (.asked request (.ok decision)) = 0 := by
      intro locate
      simp only [Event.located]
      split
      · next hlocated => exact hnone hlocated.1
      · rfl
    constructor
    · intro locate
      rw [hcons, hzero, zero_add]
      exact h.located_le_used locate
    · intro locate hlocate
      rw [hcons, hzero, zero_add]
      exact h.located_le locate hlocate
  · obtain ⟨hmem, hsymbol⟩ := hsession.locates_mem symbol chosen hchosen
    have hevent : ∀ locate : LocateRecord,
        Event.located locate (.asked request (.ok decision)) =
          if chosen.symbol = locate.symbol ∧ chosen.locateId = locate.locateId then
            decision.authorized else 0 := by
      intro locate
      simp [Event.located, hside, hdecided.symbol_eq, hid, hsymbol]
    constructor
    · intro locate
      have hbefore := h.located_le_used locate
      rw [hcons, hevent, OrderedDict.getD, OrderedDict.get?_set]
      by_cases hsame : locate.locateId = chosen.locateId
      · rw [if_pos hsame, Option.getD_some, ← hsame]
        split <;> linarith
      · rw [if_neg hsame, if_neg fun hboth => hsame hboth.2.symm, ← OrderedDict.getD]
        linarith
    · intro locate hlocate
      rw [hcons, hevent]
      split
      · next hsame =>
          obtain rfl := locate_eq hmem hlocate hsame.2 hsame.1
          have hbefore := h.located_le_used chosen
          unfold available at hle
          linarith
      · have hbefore := h.located_le locate hlocate
        linarith

/-! ## Every run -/

/-- The condition on the requests of a run. -/
def Careful (p : CapacityPolicy) (log : List Event) (used : LocateUse) (s : Session)
    (request : Request) : Prop :=
  ∃ symbol id, Meets p log used s request symbol id

/-- A request that meets the condition is decided. -/
theorem SessionHolds.decided (h : SessionHolds p log s)
    (hmeets : Meets p log used s request symbol id) :
    ∃ decision used' ledger',
      p.authorize used s.resolved s.ledger request = (.ok decision, used', ledger') ∧
        Decided used s.resolved s.ledger request symbol id decision used' ledger' ∧
          (request.side = .openShort → decision.authorized ≤
            clipped p used s.resolved symbol request.side request.quantity) := by
  refine authorize_decided h.sound hmeets.wellformed hmeets.notional_le fun r hr => ?_
  refine ⟨(hmeets.held r hr).1, (hmeets.held r hr).2, fun hside => ?_⟩
  have hnew := hmeets.short_new hside
  rw [← hmeets.wellformed.id_eq] at hnew
  exact le_antisymm (not_lt.mp fun hpositive => hnew (h.held id r hr hpositive))
    r.quantity.property.1

theorem Run.holds (run : Run p (Careful p) log used current) :
    LocatesHold p log used ∧ ∀ s ∈ current, SessionHolds p log s := by
  induction run with
  | start =>
      refine ⟨⟨fun _ => le_rfl, fun locate _ => locate.quantity.property.1⟩, ?_⟩
      rintro s ⟨⟩
  | opens run _ hopen ih =>
      refine ⟨⟨fun locate => ?_, fun locate hlocate => ?_⟩, ?_⟩
      · simpa [located, Event.located] using ih.1.located_le_used locate
      · simpa [located, Event.located] using ih.1.located_le locate hlocate
      · rintro s ⟨⟩
        exact .opened hopen
  | @asks log used s run request hcondition ih =>
      obtain ⟨symbol, id, hmeets⟩ := hcondition
      have hsession := ih.2 s rfl
      obtain ⟨decision, used', ledger', hauthorize, hdecided, hle⟩ := hsession.decided hmeets
      rw [hauthorize]
      refine ⟨ih.1.asked hsession hdecided, ?_⟩
      rintro next ⟨⟩
      exact hsession.asked hmeets hdecided hle

theorem Run.replies (run : Run p (Careful p) log used current) :
    ∀ request reply, .asked request reply ∈ log → ∃ decision, reply = .ok decision ∧
      decision.requested = request.quantity ∧ 0 ≤ decision.authorized ∧
        decision.authorized ≤ decision.requested := by
  induction run with
  | start => simp
  | opens run _ _ ih => simpa using ih
  | @asks log used s run request hcondition ih =>
      obtain ⟨symbol, id, hmeets⟩ := hcondition
      obtain ⟨decision, used', ledger', hauthorize, hdecided, -⟩ :=
        (run.holds.2 s rfl).decided hmeets
      intro asked reply hmem
      rcases List.mem_cons.mp hmem with heq | hmem
      · cases heq
        refine ⟨decision, by rw [hauthorize], hdecided.requested_eq, hdecided.authorized_nonneg, ?_⟩
        rw [hdecided.requested_eq]
        exact hdecided.authorized_le
      · exact ih asked reply hmem

/-- A request under an identifier that holds shares spends nothing. -/
theorem SessionHolds.authorize_granted (h : SessionHolds p log s)
    (hmeets : Meets p log used s request symbol id)
    (hgranted : Granted request.reservationId log) :
    (p.authorize used s.resolved s.ledger request).2 = (used, s.ledger) := by
  obtain ⟨decision, used', ledger', hauthorize, hdecided, -⟩ := h.decided hmeets
  rw [hauthorize]
  have hledger : ledger' = s.ledger := by
    rcases hdecided.ledger_eq with heq | ⟨hnew, -⟩
    · exact heq
    · exact absurd (hmeets.same_session hgranted) (OrderedDict.get?_eq_none_iff.mp hnew)
  have hused : used' = used := by
    rcases hdecided.used_eq with ⟨heq, -⟩ | ⟨hside, -⟩
    · exact heq
    · exact absurd hgranted (hmeets.short_new (hdecided.side_eq ▸ hside))
  rw [hledger, hused]

theorem refuse_eq {resolved resolved' : ResolvedCapacity} {side : Side} {quantity : ℚ}
    (hsession : resolved'.session = resolved.session) (refusal : Refusal) :
    refuse resolved' symbol side quantity refusal = refuse resolved symbol side quantity refusal := by
  unfold refuse
  rw [hsession]

theorem conclude_fst (used' : LocateUse) {resolved resolved' : ResolvedCapacity}
    {ledger : SessionCapacityLedger} {side : Side} {quantity granted : ℚ} {clearance : Clearance}
    (hsession : resolved'.session = resolved.session) :
    (conclude used' resolved' ledger symbol side quantity clearance granted).1 =
      (conclude used resolved ledger symbol side quantity clearance granted).1 := by
  unfold conclude
  rw [refuse_eq hsession, hsession]
  split <;> rfl

/-- What is decided of a cover or a long does not depend on borrow and locate records
nor on what was spent of the locates. -/
theorem authorize_eq_of_ne (p' : CapacityPolicy) (used' : LocateUse)
    {resolved resolved' : ResolvedCapacity} {ledger : SessionCapacityLedger}
    (hside : request.side ≠ .openShort) (hsession : resolved'.session = resolved.session)
    (hliquidity : resolved'.liquidity = resolved.liquidity)
    (hstale : resolved'.staleLiquidity = resolved.staleLiquidity) :
    (p'.authorize used' resolved' ledger request).1 = (p.authorize used resolved ledger request).1 := by
  unfold authorize
  cases identifier "symbol" request.symbol with
  | error error => rfl
  | ok symbol =>
  cases finiteQuantity "quantity" maxQuantity request.quantity with
  | error error => rfl
  | ok quantity =>
  cases finiteQuantity "price" maxQuantity request.price with
  | error error => rfl
  | ok price =>
  have hclear := @clear_eq_of_ne p used resolved symbol quantity.val request.side p' used' resolved'
    hside hliquidity hstale
  simp only [ok_bind, pure_eq_ok, hclear]
  by_cases hzero : quantity.val ≤ 0
  · rw [if_pos hzero, if_pos hzero, refuse_eq hsession]
  · rw [if_neg hzero, if_neg hzero]
    cases p.clear used resolved symbol request.side quantity.val with
    | error refusal => exact refuse_eq hsession refusal
    | ok clearance =>
        dsimp only
        generalize ledger.reserve request.reservationId symbol.val clearance.allowed
          (clearance.allowed * price.val) = reserved
        obtain ⟨reply, next⟩ := reserved
        cases reply with
        | error error => rfl
        | ok reservation => exact conclude_fst used' hsession

/-- After every run whose requests meet the condition, every decision is within its
request, the new shorts of the session in a symbol are within the borrow record in
force, the new shorts of the run against a locate are within its quantity, and a
request under an identifier that holds shares spends nothing. Requests that are not
new shorts are decided alike whatever the borrow and locate records are. -/
theorem shorts_authorized (run : Run p (Careful p) log used current) :
    (∀ request reply, .asked request reply ∈ log → ∃ decision, reply = .ok decision ∧
      decision.requested = request.quantity ∧ 0 ≤ decision.authorized ∧
        decision.authorized ≤ decision.requested) ∧
    (∀ s ∈ current, ∀ symbol, shorted symbol (thisSession log) ≤ shortable s.resolved symbol) ∧
    (∀ locate ∈ p.locates, located locate log ≤ locate.quantity.val) ∧
    (∀ s ∈ current, ∀ request, Careful p log used s request →
      Granted request.reservationId log →
        (p.authorize used s.resolved s.ledger request).2 = (used, s.ledger)) ∧
    (∀ s ∈ current, ∀ request, request.side ≠ .openShort →
      ∀ (p' : CapacityPolicy) used' (resolved' : ResolvedCapacity),
        resolved'.session = s.resolved.session → resolved'.liquidity = s.resolved.liquidity →
          resolved'.staleLiquidity = s.resolved.staleLiquidity →
            (p'.authorize used' resolved' s.ledger request).1 =
              (p.authorize used s.resolved s.ledger request).1) := by
  obtain ⟨hlocates, hsession⟩ := run.holds
  refine ⟨run.replies, fun s hs => (hsession s hs).shorted_le, hlocates.located_le,
    fun s hs request hcareful hgranted => ?_,
    fun s _ request hside p' used' resolved' hday hliquidity hstale =>
      authorize_eq_of_ne p' used' hside hday hliquidity hstale⟩
  obtain ⟨symbol, id, hmeets⟩ := hcareful
  exact (hsession s hs).authorize_granted hmeets hgranted

/-! ## A policy with one locate -/

def january (day : ℕ) : PyDate := .date 2026 1 day

def aaa : Identifier := ⟨"AAA", by decide +kernel⟩

def loc1 : Identifier := ⟨"LOC-1", by decide +kernel⟩

def shares300 : Quantity maxQuantity := ⟨300, by norm_num [maxQuantity]⟩

/-- A policy with one borrow record of 300 shares and one locate of 500. -/
def oneLocate : CapacityPolicy where
  declaration := {
    maxParticipation := 1 / 10
    maxSessionNotional := 1000000
    maxStalenessSessions := 10
    allowNewShorts := true
    maxParticipation_bounds := by norm_num
    maxSessionNotional_bounds := by norm_num [maxNotional]
    maxStalenessSessions_le := by norm_num }
  borrow := [{
    symbol := aaa
    asOfSession := january 2
    effectiveSession := january 2
    expirySession := january 30
    status := .available
    shortableQuantity := shares300
    effective_le := by decide +kernel
    asOf_le := by decide +kernel
    not_shortable := by simp [BorrowStatus.shortable] }]
  locates := [{
    locateId := loc1
    symbol := aaa
    grantedSession := january 2
    expirySession := january 30
    quantity := ⟨500, by norm_num [maxQuantity]⟩
    granted_le := by decide +kernel
    quantity_pos := by norm_num }]
  liquidity := [{
    symbol := aaa
    asOfSession := january 2
    advShares := ⟨10000, by norm_num [maxQuantity]⟩ }]
  borrow_unique := List.nodup_singleton _
  locates_unique := List.nodup_singleton _
  liquidity_unique := List.nodup_singleton _
  records_le := by decide

/-- A new short of 200 shares. -/
def short (reservationId : String) : Request := ⟨"AAA", .openShort, 200, 10, reservationId⟩

/-- The session of a day, opened. -/
def opening : Except CapacityError Session :=
  (oneLocate.openSessionLedger (oneLocate.resolve (january 5))).map
    (⟨oneLocate.resolve (january 5), ·⟩)

theorem run_opening {s : Session} (h : opening = .ok s)
    (condition : List Event → LocateUse → Session → Request → Prop) :
    Run oneLocate condition [.opened (january 5)] .empty (some s) := by
  unfold opening at h
  cases hopen : oneLocate.openSessionLedger (oneLocate.resolve (january 5)) with
  | error error => simp [hopen, Except.map] at h
  | ok ledger =>
      simp only [hopen, Except.map, Except.ok.injEq] at h
      have run : Run oneLocate condition [] .empty none := .start
      exact h ▸ run.opens (by simp) hopen

/-- The log, the locates and the session after a request. -/
def ask (log : List Event) (used : LocateUse) (s : Session) (request : Request) :
    List Event × LocateUse × Session :=
  let decided := oneLocate.authorize used s.resolved s.ledger request
  (.asked request decided.1 :: log, decided.2.1, ⟨s.resolved, decided.2.2⟩)

/-- A new short that is presented again spends its locate again, and two of 200 shares
are authorized against a borrow record of 300. -/
theorem repeated_short_spends_again : ∃ log used s,
    Run oneLocate (fun _ _ _ _ => True) log used (some s) ∧ Granted "R1" log ∧
    used.getD loc1 0 = 200 ∧
    (ask log used s (short "R1")).2.1.getD loc1 0 = 400 ∧
    shorted aaa (thisSession (ask log used s (short "R2")).1) = 400 ∧
    shortable s.resolved aaa = 300 := by
  have hcomputed : opening.map (fun s =>
      let (log, used, s') := ask [.opened (january 5)] .empty s (short "R1")
      ((oneLocate.authorize .empty s.resolved s.ledger (short "R1")).1.map (·.authorized),
        used.getD loc1 0, (ask log used s' (short "R1")).2.1.getD loc1 0,
        shorted aaa (thisSession (ask log used s' (short "R2")).1), shortable s'.resolved aaa)) =
          .ok (.ok 200, 200, 400, 400, 300) := by decide +kernel
  cases hopening : opening with
  | error error => simp [hopening, Except.map] at hcomputed
  | ok s =>
      simp only [hopening, Except.map, Except.ok.injEq, Prod.mk.injEq] at hcomputed
      obtain ⟨hfirst, hused, hagain, hshorted, hshortable⟩ := hcomputed
      refine ⟨_, _, _, (run_opening hopening _).asks (short "R1") trivial, ?_, hused, hagain,
        hshorted, hshortable⟩
      cases hreply : (oneLocate.authorize .empty s.resolved s.ledger (short "R1")).1 with
      | error error => simp [hreply] at hfirst
      | ok decision =>
          simp only [hreply, Except.ok.injEq] at hfirst
          exact ⟨short "R1", decision, List.mem_cons_self, rfl, by rw [hfirst]; norm_num⟩

def r1 : Identifier := ⟨"R1", by decide +kernel⟩

/-- A run of one new short meets the condition. -/
theorem shorts_authorized_oneLocate : ∃ log used s,
    Run oneLocate (Careful oneLocate) log used (some s) ∧ log.length = 2 ∧
      shorted aaa (thisSession log) ≤ shortable s.resolved aaa := by
  have hcomputed : opening.map (fun s =>
      (clipped oneLocate .empty s.resolved aaa .openShort 200, shortable s.resolved aaa,
        s.ledger.reservations.get? r1)) = .ok (200, 300, none) := by decide +kernel
  cases hopening : opening with
  | error error => simp [hopening, Except.map] at hcomputed
  | ok s =>
      simp only [hopening, Except.map, Except.ok.injEq, Prod.mk.injEq] at hcomputed
      obtain ⟨hclipped, hshortable, hnew⟩ := hcomputed
      have hgranted : ∀ id, ¬ Granted id [.opened (january 5)] := by
        rintro id ⟨request, decision, hmem, -⟩
        simp at hmem
      have hmeets : Meets oneLocate [.opened (january 5)] .empty s (short "R1") aaa r1 :=
        { wellformed := ⟨rfl, rfl, by norm_num [short, maxQuantity], by norm_num [short, maxQuantity]⟩
          notional_le := by norm_num [short, hclipped, maxQuantity]
          held := fun r hr => by simp [hnew] at hr
          same_session := fun h => absurd h (hgranted _)
          short_new := fun _ => hgranted _
          within_borrow := fun _ => by
            norm_num [short, hclipped, hshortable, thisSession, Event.isOpened, shorted] }
      have run := (run_opening hopening (Careful oneLocate)).asks (short "R1")
        ⟨aaa, r1, hmeets⟩
      exact ⟨_, _, _, run, rfl, (shorts_authorized run).2.1 _ rfl aaa⟩

end CapacityPolicy

end Capacity
