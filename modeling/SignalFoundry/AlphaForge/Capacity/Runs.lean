import SignalFoundry.AlphaForge.Capacity.Conservation

/-!
# Runs of a capacity ledger

What any sequence of calls does to a ledger, with the log of the calls and of what
they returned.
-/

namespace Capacity

open Fallible

/-- A call on a ledger. -/
inductive Call where
  | reserve (reservationId symbol : String) (quantity notional : ℚ)
  | consume (reservationId : String) (quantity : ℚ)
  | release (reservationId : String)
  deriving DecidableEq

namespace SessionCapacityLedger

/-- What a call returns, which for `reserve` is the quantity of the claim, and the
ledger after it. -/
def step (l : SessionCapacityLedger) : Call → Except CapacityError ℚ × SessionCapacityLedger
  | .reserve reservationId symbol quantity notional =>
      let (reply, next) := l.reserve reservationId symbol quantity notional
      (reply.map (·.quantity.val), next)
  | .consume reservationId quantity => l.consume reservationId quantity
  | .release reservationId => l.release reservationId

/-- What a call on a sound ledger does. -/
inductive Effect (l : SessionCapacityLedger) :
    Call → Except CapacityError ℚ → SessionCapacityLedger → Prop where
  | refused {call : Call} {error : CapacityError} (h : error.isRefusal = true) :
      Effect l call (.error error) l
  | repeated {id symbol : Identifier} {quantity notional : ℚ} {r : Reservation}
      (hr : l.reservations.get? id = some r) :
      Effect l (.reserve id.val symbol.val quantity notional) (.ok r.quantity.val) l
  | reserved {id symbol : Identifier} {quantity notional : ℚ} {r : Reservation}
      {l' : SessionCapacityLedger} {ledger : SymbolLedger} (hnew : l.reservations.get? id = none)
      (m : Moves l l' symbol id ledger r) (hsettled : l'.settled = l.settled) :
      Effect l (.reserve id.val symbol.val quantity notional) (.ok r.quantity.val) l'
  | consumed {id : Identifier} {quantity : ℚ} {r r' : Reservation} {l' : SessionCapacityLedger}
      {ledger : SymbolLedger} (hr : l.reservations.get? id = some r)
      (hquantity : 0 ≤ quantity ∧ quantity ≤ r.quantity.val)
      (m : Moves l l' r.symbol id ledger r') (hsettled : l'.settled = l.settled)
      (hleft : r'.quantity.val = r.quantity.val - quantity) :
      Effect l (.consume id.val quantity) (.ok quantity) l'
  | released {id : Identifier} {r r' : Reservation} {l' : SessionCapacityLedger}
      {ledger : SymbolLedger} (hr : l.reservations.get? id = some r)
      (m : Moves l l' r.symbol id ledger r') (hsettled : l'.settled = insert id l.settled)
      (hleft : r'.quantity.val = 0) : Effect l (.release id.val) (.ok r.quantity.val) l'
  | releasedAgain {id : Identifier} (hsettled : id ∈ l.settled) :
      Effect l (.release id.val) (.ok 0) l

variable {l l' : SessionCapacityLedger}

theorem Sound.effect_reserve (h : l.Sound) (reservationId symbol : String)
    (quantity notional : ℚ) :
    Effect l (.reserve reservationId symbol quantity notional)
      (l.step (.reserve reservationId symbol quantity notional)).1
      (l.step (.reserve reservationId symbol quantity notional)).2 := by
  simp only [step, SessionCapacityLedger.reserve]
  cases hid : identifier "reservation_id" reservationId with
  | error error =>
      obtain ⟨problem, rfl⟩ := identifier_eq_error hid
      exact .refused rfl
  | ok id =>
  cases hsymbol : identifier "symbol" symbol with
  | error error =>
      obtain ⟨problem, rfl⟩ := identifier_eq_error hsymbol
      exact .refused rfl
  | ok symbol =>
  cases hquantity : finiteQuantity "quantity" maxQuantity quantity with
  | error error =>
      obtain ⟨problem, rfl⟩ := finiteQuantity_eq_error hquantity
      exact .refused rfl
  | ok quantity =>
  cases hnotional : finiteQuantity "notional" maxQuantity notional with
  | error error =>
      obtain ⟨problem, rfl⟩ := finiteQuantity_eq_error hnotional
      exact .refused rfl
  | ok notional =>
  obtain rfl := identifier_eq_ok_iff.mp hid
  obtain rfl := identifier_eq_ok_iff.mp hsymbol
  simp only [ok_bind, pure_eq_ok]
  cases hr : l.reservations.get? id with
  | none =>
      obtain ⟨r, l', ledger, hclaim, m, hsettled, -⟩ := h.claim hr symbol quantity notional
      rw [hclaim]
      exact .reserved hr m hsettled
  | some existing =>
      simp only [SessionCapacityLedger.claim, hr]
      split
      · exact .refused rfl
      · exact .repeated hr

/-- The reservation that a call names. -/
theorem requireReservation_cases (l : SessionCapacityLedger) (reservationId : String) :
    (∃ error, l.requireReservation reservationId = .error error ∧ error.isRefusal = true) ∨
      ∃ id r, l.requireReservation reservationId = .ok (id, r) ∧ id.val = reservationId ∧
        l.reservations.get? id = some r := by
  unfold requireReservation
  cases hid : identifier "reservation_id" reservationId with
  | error error =>
      obtain ⟨problem, rfl⟩ := identifier_eq_error hid
      exact .inl ⟨_, rfl, rfl⟩
  | ok id =>
      cases hr : l.reservations.get? id with
      | none => exact .inl ⟨.unknownReservation id, by simp [hr], rfl⟩
      | some r => exact .inr ⟨id, r, by simp [hr], identifier_eq_ok_iff.mp hid, hr⟩

theorem Sound.effect_consume (h : l.Sound) (reservationId : String) (quantity : ℚ) :
    Effect l (.consume reservationId quantity) (l.consume reservationId quantity).1
      (l.consume reservationId quantity).2 := by
  unfold consume
  rcases l.requireReservation_cases reservationId with
    ⟨error, herror, hrefusal⟩ | ⟨id, r, hfound, rfl, hr⟩
  · simp only [herror, error_bind]
    exact .refused hrefusal
  · simp only [hfound, ok_bind]
    cases hquantity : finiteQuantity "quantity" maxQuantity quantity with
    | error error =>
        obtain ⟨problem, rfl⟩ := finiteQuantity_eq_error hquantity
        exact .refused rfl
    | ok quantity =>
        obtain rfl := finiteQuantity_eq_ok_iff.mp hquantity
        by_cases hexceeds : r.quantity.val + conservationTolerance < quantity.val
        · simp only [ok_bind, refuseIf_of hexceeds, error_bind]
          exact .refused rfl
        · simp only [ok_bind, refuseIf_of_not hexceeds, pure_eq_ok]
          have hle : quantity.val ≤ r.quantity.val := by
            rw [conservationTolerance, add_zero] at hexceeds
            exact not_lt.mp hexceeds
          obtain ⟨r', l', ledger, hfill, m, hsettled, hleft⟩ := h.fill hr hle
          rw [hfill]
          exact .consumed hr ⟨quantity.property.1, hle⟩ m hsettled hleft

theorem Sound.effect_release (h : l.Sound) (reservationId : String) :
    Effect l (.release reservationId) (l.release reservationId).1 (l.release reservationId).2 := by
  unfold release
  rcases l.requireReservation_cases reservationId with
    ⟨error, herror, hrefusal⟩ | ⟨id, r, hfound, rfl, hr⟩
  · simp only [herror]
    exact .refused hrefusal
  · simp only [hfound]
    by_cases hsettled : id ∈ l.settled
    · simp only [if_pos hsettled]
      exact .releasedAgain hsettled
    · simp only [if_neg hsettled]
      obtain ⟨r', l', ledger, hsettle, m, hnext, hleft⟩ := h.settle hr
      rw [hsettle]
      exact .released hr m hnext hleft

theorem Sound.effect (h : l.Sound) (call : Call) :
    Effect l call (l.step call).1 (l.step call).2 := by
  cases call with
  | reserve reservationId symbol quantity notional =>
      exact h.effect_reserve reservationId symbol quantity notional
  | consume reservationId quantity => exact h.effect_consume reservationId quantity
  | release reservationId => exact h.effect_release reservationId

/-! ## The log -/

end SessionCapacityLedger

/-- A call with what it returned or raised. -/
abbrev Entry := Call × Except CapacityError ℚ

/-- What an entry grants under an identifier. -/
def Entry.grants (id : String) : Entry → Option ℚ
  | (.reserve other _ _ _, .ok granted) => if other = id then some granted else none
  | _ => none

/-- Whether an entry accepts a fill of a positive quantity, or a release. -/
def Entry.draws (id : String) : Entry → Bool
  | (.consume other quantity, .ok _) => other = id && 0 < quantity
  | (.release other, .ok _) => other = id
  | _ => false

/-- What was granted first under an identifier, in a log whose newest entry is
first. -/
def firstGrant (id : String) : List Entry → Option ℚ
  | [] => none
  | entry :: log => (firstGrant id log).or (entry.grants id)

/-- Whether a fill of a positive quantity or a release has been accepted under an
identifier. -/
def drawn (id : String) (log : List Entry) : Bool := log.any (·.draws id)

/-- What a log says about a reservation: it holds what was granted first as long as
nothing was drawn. -/
def Traced (id : String) (log : List Entry) : Option Reservation → Prop
  | none => firstGrant id log = none ∧ drawn id log = false
  | some r => ∃ granted, firstGrant id log = some granted ∧ r.quantity.val ≤ granted ∧
      (r.quantity.val = granted ↔ granted = 0 ∨ drawn id log = false)

variable {l l' : SessionCapacityLedger} {id : Identifier} {log : List Entry} {entry : Entry}
  {held : Option Reservation} {r : Reservation}

theorem firstGrant_cons (id : String) (entry : Entry) (log : List Entry) :
    firstGrant id (entry :: log) = (firstGrant id log).or (entry.grants id) := rfl

theorem drawn_cons (id : String) (entry : Entry) (log : List Entry) :
    drawn id (entry :: log) = (entry.draws id || drawn id log) := rfl

theorem Traced.quiet (h : Traced id.val log held) (hgrants : entry.grants id.val = none)
    (hdraws : entry.draws id.val = false) : Traced id.val (entry :: log) held := by
  unfold Traced at h ⊢
  simpa only [firstGrant_cons, hgrants, Option.or_none, drawn_cons, hdraws, Bool.false_or] using h

/-- A repeated reservation is not the first. -/
theorem Traced.repeated (h : Traced id.val log (some r)) (hdraws : entry.draws id.val = false) :
    Traced id.val (entry :: log) (some r) := by
  obtain ⟨granted, hfirst, hle, hiff⟩ := h
  refine ⟨granted, by simp [firstGrant_cons, hfirst], hle, ?_⟩
  simpa only [drawn_cons, hdraws, Bool.false_or] using hiff

theorem Traced.first (h : Traced id.val log none)
    (hgrants : entry.grants id.val = some r.quantity.val) (hdraws : entry.draws id.val = false) :
    Traced id.val (entry :: log) (some r) := by
  refine ⟨r.quantity.val, by simp [firstGrant_cons, h.1, hgrants], le_rfl, ?_⟩
  simp only [drawn_cons, hdraws, Bool.false_or, true_iff]
  exact .inr h.2

/-- An entry that draws leaves less than what was granted, unless that is nothing. -/
theorem Traced.draws {left : Reservation} (h : Traced id.val log (some r))
    (hgrants : entry.grants id.val = none) (hdraws : entry.draws id.val = true)
    (hle : left.quantity.val ≤ r.quantity.val)
    (hless : left.quantity.val < r.quantity.val ∨ left.quantity.val = 0) :
    Traced id.val (entry :: log) (some left) := by
  obtain ⟨granted, hfirst, hgranted, -⟩ := h
  refine ⟨granted, by simp [firstGrant_cons, hfirst, hgrants], hle.trans hgranted, ?_⟩
  simp only [drawn_cons, hdraws, Bool.true_or, Bool.true_eq_false, or_false]
  have hnonneg := left.quantity.property.1
  constructor
  · rintro heq
    rcases hless with hless | hzero
    · linarith
    · linarith
  · intro hzero
    linarith

theorem get?_of_moves {symbol other : Identifier} {ledger : SymbolLedger}
    (m : SessionCapacityLedger.Moves l l' symbol id ledger r) :
    l'.reservations.get? other = if other = id then some r else l.reservations.get? other := by
  rw [m.reservations_eq, OrderedDict.get?_set]

/-- One call keeps the log true. -/
theorem Traced.step (hsound : l.Sound) (h : ∀ id : Identifier,
    Traced id.val log (l.reservations.get? id)) {call : Call} {reply : Except CapacityError ℚ}
    (heffect : l.Effect call reply l') (other : Identifier) :
    Traced other.val ((call, reply) :: log) (l'.reservations.get? other) := by
  have hother := h other
  cases heffect with
  | refused hrefusal =>
      refine hother.quiet ?_ ?_
      · cases call <;> rfl
      · cases call <;> rfl
  | @repeated id _ _ _ r hr =>
      by_cases heq : other = id
      · subst heq
        rw [hr] at hother ⊢
        exact hother.repeated rfl
      · refine hother.quiet ?_ rfl
        simp [Entry.grants, Subtype.val_inj, Ne.symm heq]
  | @reserved id _ _ _ r _ _ hnew m hsettled =>
      rw [get?_of_moves m]
      by_cases heq : other = id
      · subst heq
        rw [hnew] at hother
        rw [if_pos rfl]
        exact hother.first (by simp [Entry.grants]) rfl
      · rw [if_neg heq]
        refine hother.quiet ?_ rfl
        simp [Entry.grants, Subtype.val_inj, Ne.symm heq]
  | @consumed id quantity r r' _ _ hr hquantity m hsettled hleft =>
      rw [get?_of_moves m]
      by_cases heq : other = id
      · subst heq
        rw [hr] at hother
        rw [if_pos rfl]
        rcases hquantity.1.eq_or_lt with hzero | hpositive
        · have hquiet : Traced other.val ((.consume other.val quantity, .ok quantity) :: log)
              (some r) := hother.quiet rfl (by simp [Entry.draws, ← hzero])
          simpa only [Traced, hleft, ← hzero, sub_zero] using hquiet
        · refine hother.draws rfl ?_ ?_ ?_
          · simp [Entry.draws, hpositive]
          · linarith
          · exact .inl (by linarith)
      · rw [if_neg heq]
        refine hother.quiet rfl ?_
        simp [Entry.draws, Subtype.val_inj, Ne.symm heq]
  | @released id r r' _ _ hr m hsettled hleft =>
      rw [get?_of_moves m]
      by_cases heq : other = id
      · subst heq
        rw [hr] at hother
        rw [if_pos rfl]
        refine hother.draws rfl (by simp [Entry.draws]) ?_ (.inr hleft)
        rw [hleft]
        exact r.quantity.property.1
      · rw [if_neg heq]
        refine hother.quiet rfl ?_
        simp [Entry.draws, Subtype.val_inj, Ne.symm heq]
  | @releasedAgain id hsettled =>
      by_cases heq : other = id
      · subst heq
        obtain ⟨r, hr, hzero⟩ := hsound.settled_zero other hsettled
        rw [hr] at hother ⊢
        exact hother.draws rfl (by simp [Entry.draws]) le_rfl (.inr hzero)
      · refine hother.quiet rfl ?_
        simp [Entry.draws, Subtype.val_inj, Ne.symm heq]

/-! ## Every run -/

/-- The runs of a ledger: any calls, whether they return or raise. -/
inductive Run (initial : SessionCapacityLedger) : List Entry → SessionCapacityLedger → Prop where
  | start : Run initial [] initial
  | call {log : List Entry} {l : SessionCapacityLedger} (run : Run initial log l) (call : Call) :
      Run initial ((call, (l.step call).1) :: log) (l.step call).2

namespace SessionCapacityLedger

theorem Sound.step (h : l.Sound) (call : Call) : (l.step call).2.Sound := by
  have heffect := h.effect call
  generalize (l.step call).1 = reply at heffect
  generalize (l.step call).2 = next at heffect ⊢
  cases heffect with
  | refused _ => exact h
  | repeated _ => exact h
  | reserved _ m _ => exact h.moves m
  | consumed _ _ m _ _ => exact h.moves m
  | released _ m _ _ => exact h.moves m
  | releasedAgain _ => exact h

/-- A settled reservation stays settled, and an accepted release settles. -/
theorem Effect.settled {call : Call} {reply : Except CapacityError ℚ}
    (h : l.Effect call reply l') {other : Identifier}
    (hsettled : other ∈ l.settled ∨ ∃ returned, call = .release other.val ∧ reply = .ok returned) :
    other ∈ l'.settled := by
  cases h with
  | refused _ => simpa using hsettled
  | repeated _ => simpa using hsettled
  | reserved _ _ heq => simpa [heq] using hsettled
  | consumed _ _ _ heq _ => simpa [heq] using hsettled
  | released _ _ heq _ =>
      rw [heq, Finset.mem_insert]
      simpa [Subtype.val_inj, or_comm, eq_comm] using hsettled
  | releasedAgain hmem =>
      rcases hsettled with hsettled | ⟨returned, hcall, -⟩
      · exact hsettled
      · simp only [Call.release.injEq, Subtype.val_inj] at hcall
        exact hcall ▸ hmem

end SessionCapacityLedger

variable {initial : SessionCapacityLedger}

theorem Run.sound (hfresh : initial.Fresh) (run : Run initial log l) : l.Sound := by
  induction run with
  | start => exact hfresh.sound
  | call _ call ih => exact ih.step call

theorem Run.traced (hfresh : initial.Fresh) (run : Run initial log l) (id : Identifier) :
    Traced id.val log (l.reservations.get? id) := by
  induction run generalizing id with
  | start =>
      rw [hfresh.reservations_eq]
      exact ⟨rfl, rfl⟩
  | call run call ih =>
      have hsound := run.sound hfresh
      exact Traced.step hsound ih (hsound.effect call) id

theorem Run.settled (hfresh : initial.Fresh) (run : Run initial log l) {returned : ℚ}
    (hreleased : (.release id.val, .ok returned) ∈ log) : id ∈ l.settled := by
  induction run with
  | start => simp at hreleased
  | @call log l run call ih =>
      refine ((run.sound hfresh).effect call).settled ?_
      rcases List.mem_cons.mp hreleased with heq | hmem
      · simp only [Prod.mk.injEq] at heq
        exact .inr ⟨returned, heq.1.symm, heq.2.symm⟩
      · exact .inl (ih hmem)

theorem Run.limits_eq (hfresh : initial.Fresh) (run : Run initial log l) :
    l.participationLimits = initial.participationLimits ∧
      l.bookNotionalBudget = initial.bookNotionalBudget := by
  induction run with
  | start => exact ⟨rfl, rfl⟩
  | @call log l run call ih =>
      rw [← ih.1, ← ih.2]
      have heffect := (run.sound hfresh).effect call
      generalize (l.step call).1 = reply at heffect
      generalize (l.step call).2 = next at heffect ⊢
      cases heffect with
      | refused _ => exact ⟨rfl, rfl⟩
      | repeated _ => exact ⟨rfl, rfl⟩
      | reserved _ m _ => exact ⟨m.limits_eq, m.budget_eq⟩
      | consumed _ _ m _ _ => exact ⟨m.limits_eq, m.budget_eq⟩
      | released _ m _ _ => exact ⟨m.limits_eq, m.budget_eq⟩
      | releasedAgain _ => exact ⟨rfl, rfl⟩

/-- A call that raises is refused and changes nothing. -/
theorem SessionCapacityLedger.Sound.step_error (h : l.Sound) {call : Call} {error : CapacityError}
    (herror : (l.step call).1 = .error error) : error.isRefusal = true ∧ (l.step call).2 = l := by
  have heffect := h.effect call
  rw [herror] at heffect
  generalize (l.step call).2 = next at heffect ⊢
  cases heffect with
  | refused hrefusal => exact ⟨hrefusal, rfl⟩

theorem SessionCapacityLedger.Sound.release_settled (h : l.Sound) (hsettled : id ∈ l.settled) :
    l.step (.release id.val) = (.ok 0, l) := by
  obtain ⟨r, hr, -⟩ := h.settled_zero id hsettled
  simp [SessionCapacityLedger.step, SessionCapacityLedger.release,
    SessionCapacityLedger.requireReservation, hr, hsettled]

/-- A repeated reservation returns what the reservation holds and charges nothing. -/
theorem reserve_known (hr : l.reservations.get? id = some r) {symbol : String}
    {quantity notional reply : ℚ}
    (h : (l.step (.reserve id.val symbol quantity notional)).1 = .ok reply) :
    (l.step (.reserve id.val symbol quantity notional)).2 = l ∧ reply = r.quantity.val := by
  simp only [SessionCapacityLedger.step, SessionCapacityLedger.reserve, identifier_val,
    ok_bind] at h ⊢
  cases hsymbol : identifier "symbol" symbol with
  | error error => simp [hsymbol, Except.map] at h
  | ok symbol =>
  cases hquantity : finiteQuantity "quantity" maxQuantity quantity with
  | error error => simp [hsymbol, hquantity, Except.map] at h
  | ok quantity =>
  cases hnotional : finiteQuantity "notional" maxQuantity notional with
  | error error => simp [hsymbol, hquantity, hnotional, Except.map] at h
  | ok notional =>
      simp only [hsymbol, hquantity, hnotional, ok_bind, pure_eq_ok,
        SessionCapacityLedger.claim, hr] at h ⊢
      split at h
      · simp [Except.map] at h
      · next hsame =>
          rw [if_neg hsame]
          exact ⟨rfl, (Except.ok.inj h).symm⟩

/-- After every run the movements of each symbol add up, what is reserved is what
the reservations hold, both budgets are kept, a call that raises is a refusal that
changes nothing, and a repeated release changes nothing. A repeated reservation
charges nothing, and it returns what was granted first exactly when nothing was
granted or no fill and no release has been accepted under the identifier. -/
theorem capacity_conserved {session : PyDate} {limits : OrderedDict String ℚ} {budget : ℚ}
    (hmade : SessionCapacityLedger.make session limits budget = .ok initial)
    (run : Run initial log l) :
    (∀ symbol, (l.ledgerOf symbol).Balanced ∧
      (l.ledgerOf symbol).reserved = l.outstanding symbol ∧
        (l.ledgerOf symbol).reserved + (l.ledgerOf symbol).consumed ≤
          initial.participationLimit symbol) ∧
    (0 ≤ l.bookReserved + l.bookConsumed ∧
      l.bookReserved + l.bookConsumed ≤ initial.bookNotionalBudget.val) ∧
    (∀ call error, (l.step call).1 = .error error →
      error.isRefusal = true ∧ (l.step call).2 = l) ∧
    (∀ (id : Identifier) returned, (.release id.val, .ok returned) ∈ log →
      l.step (.release id.val) = (.ok 0, l)) ∧
    (∀ (id : Identifier) symbol quantity notional granted reply,
      firstGrant id.val log = some granted →
        (l.step (.reserve id.val symbol quantity notional)).1 = .ok reply →
          (l.step (.reserve id.val symbol quantity notional)).2 = l ∧
            (reply = granted ↔ granted = 0 ∨ drawn id.val log = false)) := by
  have hfresh := SessionCapacityLedger.fresh_of_make hmade
  have hsound := run.sound hfresh
  obtain ⟨hlimits, hbudget⟩ := run.limits_eq hfresh
  refine ⟨fun symbol => ⟨hsound.balanced symbol, hsound.reserved_eq symbol, ?_⟩,
    ⟨add_nonneg hsound.bookReserved_nonneg hsound.bookConsumed_nonneg, ?_⟩,
    fun call error => hsound.step_error,
    fun id returned hreleased => hsound.release_settled (run.settled hfresh hreleased),
    fun id symbol quantity notional granted reply hgranted hreply => ?_⟩
  · rw [SessionCapacityLedger.participationLimit, ← hlimits]
    exact hsound.within symbol
  · rw [← hbudget]
    exact hsound.book_le
  · have htraced := run.traced hfresh id
    cases hr : l.reservations.get? id with
    | none =>
        rw [hr] at htraced
        simp [htraced.1] at hgranted
    | some r =>
        rw [hr] at htraced
        obtain ⟨first, hfirst, -, hiff⟩ := htraced
        cases hfirst.symm.trans hgranted
        obtain ⟨hnext, rfl⟩ := reserve_known hr hreply
        exact ⟨hnext, hiff⟩

/-- The ledger of a session with one symbol. -/
def oneSymbol : Except CapacityError SessionCapacityLedger :=
  SessionCapacityLedger.make (.date 2026 1 5) (.ofItems [("AAA", 500)])
    100000

theorem capacity_conserved_oneSymbol : ∃ initial log l, oneSymbol = .ok initial ∧
    Run initial log l ∧ log.length = 2 ∧ ∀ symbol, (l.ledgerOf symbol).Balanced := by
  cases hmade : oneSymbol with
  | error error =>
      have hok : oneSymbol.toBool = true := by decide
      simp [hmade, Except.toBool] at hok
  | ok initial =>
      have started : Run initial [] initial := .start
      have run := (started.call (.reserve "R1" "AAA" 100 1000)).call (.release "R1")
      exact ⟨initial, _, _, rfl, run, rfl, fun symbol =>
        ((capacity_conserved hmade run).1 symbol).1⟩

/-- A reservation that was filled in part is repeated and returns what is left. -/
theorem repeated_reserve_returns_remainder : ∃ initial log l,
    oneSymbol = .ok initial ∧ Run initial log l ∧ firstGrant "R1" log = some 100 ∧
      (l.step (.reserve "R1" "AAA" 100 1000)).1 = .ok 60 := by
  have hcomputed : oneSymbol.map (fun initial =>
      let reserved := initial.step (.reserve "R1" "AAA" 100 1000)
      let filled := reserved.2.step (.consume "R1" 40)
      (reserved.1, (filled.2.step (.reserve "R1" "AAA" 100 1000)).1)) =
        .ok (.ok 100, .ok 60) := by decide +kernel
  cases hmade : oneSymbol with
  | error error => simp [hmade, Except.map] at hcomputed
  | ok initial =>
      simp only [hmade, Except.map, Except.ok.injEq, Prod.mk.injEq] at hcomputed
      have started : Run initial [] initial := .start
      have run := (started.call (.reserve "R1" "AAA" 100 1000)).call (.consume "R1" 40)
      refine ⟨initial, _, _, rfl, run, ?_, hcomputed.2⟩
      simp [firstGrant, Entry.grants, hcomputed.1]

end Capacity
