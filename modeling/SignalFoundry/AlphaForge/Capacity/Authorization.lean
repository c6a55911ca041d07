import SignalFoundry.AlphaForge.Capacity.Conservation
import SignalFoundry.AlphaForge.Capacity.Policy

/-!
# Authorized shorts

The runs of a capacity policy open sessions one after the other and authorize
requests in each. In a run that asks for a new short under an identifier once, and
for no more of a symbol in a session than its borrow record has, every decision is
within its request and neither a borrow record nor a locate is overspent.
-/

namespace Capacity

open Fallible

variable {p : CapacityPolicy} {used used' : LocateUse} {resolved : ResolvedCapacity}
  {ledger ledger' : SessionCapacityLedger} {request : Request} {id symbol : Identifier}
  {quantity : ℚ} {side : Side}

/-! ## Clearances -/

theorem foldl_preferLocate {grants all : List LocateRecord} {best : ℚ × Option LocateRecord}
    (hbest : ∀ locate ∈ best.2, locate ∈ all ∧ best.1 = available used locate)
    (hgrants : grants ⊆ all) :
    ∀ locate ∈ (grants.foldl (preferLocate used) best).2,
      locate ∈ all ∧ (grants.foldl (preferLocate used) best).1 = available used locate := by
  induction grants generalizing best with
  | nil => exact hbest
  | cons grant grants ih =>
      refine ih ?_ (List.cons_subset.mp hgrants).2
      unfold preferLocate
      split
      · rintro locate ⟨⟩
        exact ⟨(List.cons_subset.mp hgrants).1, rfl⟩
      · exact hbest

/-- The locate that is chosen is one of the grants, with what is left of it. -/
theorem chooseLocate_eq {grants : List LocateRecord} {remaining : ℚ} {locate : LocateRecord}
    (h : chooseLocate used grants = (remaining, some locate)) :
    locate ∈ grants ∧ remaining = available used locate := by
  have hchosen := @foldl_preferLocate used grants grants (0, none)
    (by simp) (List.Subset.refl grants) locate
  rw [← chooseLocate, h] at hchosen
  exact hchosen rfl

/-- What a clearance has checked. -/
structure Cleared (used : LocateUse) (resolved : ResolvedCapacity) (symbol : Identifier)
    (side : Side) (quantity : ℚ) (clearance : Clearance) : Prop where
  allowed_nonneg : 0 ≤ clearance.allowed
  allowed_le : clearance.allowed ≤ quantity
  locate_short : side ≠ .openShort → clearance.locate = none
  short_locate : side = .openShort → ∃ locate ∈ resolved.locates symbol,
    clearance.locate = some locate ∧ clearance.allowed ≤ available used locate

theorem cleared_of_clearShort {clearance : Clearance} (hquantity : 0 ≤ quantity)
    (h : p.clearShort used resolved symbol quantity = .ok clearance) :
    Cleared used resolved symbol .openShort quantity clearance := by
  unfold CapacityPolicy.clearShort at h
  split at h
  · cases h
  split at h
  · cases h
  next record _ =>
  split at h
  · cases h
  split at h
  · cases h
  next hshortable =>
  split at h
  · cases h
  split at h
  · cases h
  next remaining chosen hchosen =>
  split at h
  · cases h
  next hremaining =>
  obtain ⟨hmem, hleft⟩ := chooseLocate_eq hchosen
  cases h
  refine ⟨?_, (min_le_left _ _).trans (min_le_left _ _), fun hne => absurd rfl hne,
    fun _ => ⟨chosen, hmem, rfl, (min_le_right _ _).trans hleft.le⟩⟩
  exact le_min (le_min hquantity (not_le.mp hshortable).le) (not_le.mp hremaining).le

theorem cleared_of_clear {clearance : Clearance} (hquantity : 0 ≤ quantity)
    (h : p.clear used resolved symbol side quantity = .ok clearance) :
    Cleared used resolved symbol side quantity clearance := by
  unfold CapacityPolicy.clear at h
  rw [bind_eq_ok_iff] at h
  obtain ⟨cleared, hcleared, h⟩ := h
  split at h
  · cases h
    unfold CapacityPolicy.clearSide at hcleared
    split at hcleared
    · next hside =>
        subst hside
        exact cleared_of_clearShort hquantity hcleared
    · next hside =>
        cases hcleared
        exact ⟨hquantity, le_rfl, fun _ => rfl, fun heq => absurd heq hside⟩
  · cases h

/-- Borrow and locate records are not read for other requests than new shorts. -/
theorem clear_eq_of_ne (p' : CapacityPolicy) (used' : LocateUse) {resolved' : ResolvedCapacity}
    (hside : side ≠ .openShort) (hliquidity : resolved'.liquidity = resolved.liquidity)
    (hstale : resolved'.staleLiquidity = resolved.staleLiquidity) :
    p'.clear used' resolved' symbol side quantity = p.clear used resolved symbol side quantity := by
  simp only [CapacityPolicy.clear, CapacityPolicy.clearSide, if_neg hside, hliquidity, hstale]

/-! ## One request -/

/-- What the checks before the ledger leave of a request, zero if they refuse it. -/
def clipped (p : CapacityPolicy) (used : LocateUse) (resolved : ResolvedCapacity)
    (symbol : Identifier) (side : Side) (quantity : ℚ) : ℚ :=
  match p.clear used resolved symbol side quantity with
  | .error _ => 0
  | .ok clearance => clearance.allowed

/-- A request that a caller may make of a policy in a session. -/
structure Wellformed (request : Request) (symbol id : Identifier) : Prop where
  symbol_eq : symbol.val = request.symbol
  id_eq : id.val = request.reservationId
  quantity_mem : 0 ≤ request.quantity ∧ request.quantity ≤ maxQuantity
  price_mem : 0 ≤ request.price ∧ request.price ≤ maxQuantity

/-- What an authorization decides and leaves. -/
structure Decided (used : LocateUse) (resolved : ResolvedCapacity) (ledger : SessionCapacityLedger)
    (request : Request) (symbol id : Identifier) (decision : CapacityDecision) (used' : LocateUse)
    (ledger' : SessionCapacityLedger) : Prop where
  symbol_eq : decision.symbol = symbol
  side_eq : decision.side = request.side
  requested_eq : decision.requested = request.quantity
  authorized_nonneg : 0 ≤ decision.authorized
  authorized_le : decision.authorized ≤ request.quantity
  /-- The ledger is left, or has a new claim of what was authorized. -/
  ledger_eq : ledger' = ledger ∨ (ledger.reservations.get? id = none ∧ ∃ r symbolLedger,
    ledger.Moves ledger' symbol id symbolLedger r ∧ r.quantity.val = decision.authorized)
  /-- What is spent of a locate is what was authorized of a new short. -/
  used_eq : (used' = used ∧ (decision.side = .openShort → decision.authorized = 0)) ∨
    (decision.side = .openShort ∧ ∃ locate ∈ resolved.locates symbol,
      decision.locateId = some locate.locateId ∧
        decision.authorized ≤ available used locate ∧
          used' = used.set locate.locateId (used.getD locate.locateId 0 + decision.authorized))

/-- A claim that is valid is granted: as it was held, or anew. -/
theorem SessionCapacityLedger.Sound.reserve (h : ledger.Sound) (id symbol : Identifier)
    {quantity notional : ℚ}
    (hquantity : 0 ≤ quantity ∧ quantity ≤ maxQuantity)
    (hnotional : 0 ≤ notional ∧ notional ≤ maxQuantity)
    (hheld : ∀ r, ledger.reservations.get? id = some r → r.symbol = symbol) :
    ∃ r ledger', ledger.reserve id.val symbol.val quantity notional = (.ok r, ledger') ∧
      ((ledger' = ledger ∧ ledger.reservations.get? id = some r) ∨
        (ledger.reservations.get? id = none ∧ r.quantity.val ≤ quantity ∧
          ∃ symbolLedger, ledger.Moves ledger' symbol id symbolLedger r)) := by
  unfold SessionCapacityLedger.reserve
  simp only [identifier_val, finiteQuantity_of hquantity, finiteQuantity_of hnotional, ok_bind,
    pure_eq_ok]
  cases hr : ledger.reservations.get? id with
  | none =>
      obtain ⟨r, ledger', symbolLedger, hclaim, m, -, hle⟩ := h.claim hr symbol
        ⟨quantity, hquantity⟩ ⟨notional, hnotional⟩
      exact ⟨r, ledger', hclaim, .inr ⟨rfl, hle, symbolLedger, m⟩⟩
  | some r =>
      refine ⟨r, ledger, ?_, .inl ⟨rfl, rfl⟩⟩
      simp [SessionCapacityLedger.claim, hr, hheld r hr]

theorem check_eq_ok {decision : CapacityDecision} (hle : decision.authorized ≤ decision.requested)
    (hnonneg : 0 ≤ decision.authorized) : decision.check = .ok decision := by
  have hrequested : ¬ decision.requested + 1 / 10 ^ 9 < decision.authorized := by
    rw [not_lt]
    linarith [show (0 : ℚ) ≤ 1 / 10 ^ 9 by norm_num]
  rw [CapacityDecision.check, refuseIf_of_not hrequested, refuseIf_of_not (not_lt.mpr hnonneg)]
  rfl

/-- A refusal spends nothing. -/
theorem decided_refuse (used : LocateUse) (resolved : ResolvedCapacity)
    (hform : Wellformed request symbol id) (refusal : Refusal)
    (hledger : ledger' = ledger ∨ (ledger.reservations.get? id = none ∧ ∃ r symbolLedger,
      ledger.Moves ledger' symbol id symbolLedger r ∧ r.quantity.val = 0)) :
    ∃ decision, CapacityPolicy.refuse resolved symbol request.side request.quantity refusal =
        .ok decision ∧
      Decided used resolved ledger request symbol id decision used ledger' ∧
        decision.authorized = 0 := by
  have hquantity := hform.quantity_mem.1
  exact ⟨_, check_eq_ok hquantity le_rfl, ⟨rfl, rfl, rfl, le_rfl, hquantity, hledger,
    .inl ⟨rfl, fun _ => rfl⟩⟩, rfl⟩

theorem clipped_of_clear {clearance : Clearance}
    (h : p.clear used resolved symbol side quantity = .ok clearance) :
    clipped p used resolved symbol side quantity = clearance.allowed := by
  rw [clipped, h]

theorem clipped_nonneg (hquantity : 0 ≤ quantity) :
    0 ≤ clipped p used resolved symbol side quantity := by
  unfold clipped
  split
  · exact le_rfl
  · next hclear => exact (cleared_of_clear hquantity hclear).allowed_nonneg

/-- The last part of an authorization, on what the ledger granted. -/
theorem decided_conclude (used : LocateUse) (hform : Wellformed request symbol id)
    {clearance : Clearance} {granted : ℚ}
    (hcleared : Cleared used resolved symbol request.side request.quantity clearance)
    (hnonneg : 0 ≤ granted) (hle : granted ≤ request.quantity)
    (hshort : request.side = .openShort → granted ≤ clearance.allowed)
    (hledger : ledger' = ledger ∨ (ledger.reservations.get? id = none ∧ ∃ r symbolLedger,
      ledger.Moves ledger' symbol id symbolLedger r ∧ r.quantity.val = granted)) :
    ∃ decision used', CapacityPolicy.conclude used resolved ledger' symbol request.side
        request.quantity clearance granted = (.ok decision, used') ∧
      Decided used resolved ledger request symbol id decision used' ledger' ∧
        decision.authorized = granted := by
  unfold CapacityPolicy.conclude
  by_cases hzero : granted ≤ 0
  · obtain rfl : granted = 0 := le_antisymm hzero hnonneg
    rw [if_pos le_rfl]
    obtain ⟨decision, hrefuse, hdecided⟩ := decided_refuse used resolved hform
      (CapacityPolicy.exhausted ledger' symbol clearance) hledger
    exact ⟨decision, used, Prod.ext hrefuse rfl, hdecided⟩
  · rw [if_neg hzero]
    refine ⟨_, _, Prod.ext (check_eq_ok hle hnonneg) rfl, ?_, rfl⟩
    refine ⟨rfl, rfl, rfl, hnonneg, hle, hledger, ?_⟩
    by_cases hside : request.side = .openShort
    · obtain ⟨locate, hmem, hlocate, havailable⟩ := hcleared.short_locate hside
      right
      simp only [hside, hlocate]
      exact ⟨trivial, locate, hmem, rfl, (hshort hside).trans havailable, rfl⟩
    · left
      refine ⟨?_, fun heq => absurd heq hside⟩
      rw [hcleared.locate_short hside]
      split
      · next heq => cases heq
      · rfl

/-- A well-formed request under an identifier that holds no more than it asks for, and
nothing if it is a new short, is decided. -/
theorem authorize_decided (hsound : ledger.Sound) (hform : Wellformed request symbol id)
    (hnotional : clipped p used resolved symbol request.side request.quantity * request.price ≤
      maxQuantity)
    (hheld : ∀ r, ledger.reservations.get? id = some r → r.symbol = symbol ∧
      r.quantity.val ≤ request.quantity ∧ (request.side = .openShort → r.quantity.val = 0)) :
    ∃ decision used' ledger',
      p.authorize used resolved ledger request = (.ok decision, used', ledger') ∧
        Decided used resolved ledger request symbol id decision used' ledger' ∧
          (request.side = .openShort → decision.authorized ≤
            clipped p used resolved symbol request.side request.quantity) := by
  unfold CapacityPolicy.authorize
  rw [← hform.symbol_eq, ← hform.id_eq, identifier_val, finiteQuantity_of hform.quantity_mem,
    finiteQuantity_of hform.price_mem]
  simp only [ok_bind, pure_eq_ok]
  by_cases hzero : request.quantity ≤ 0
  · rw [if_pos hzero]
    obtain ⟨decision, hrefuse, hdecided, hauthorized⟩ := decided_refuse used resolved
      hform { reason := .authorized, detail := "zero-quantity request" } (.inl (Eq.refl ledger))
    refine ⟨decision, used, ledger, Prod.ext hrefuse rfl, hdecided, fun _ => ?_⟩
    rw [hauthorized]
    exact clipped_nonneg hform.quantity_mem.1
  rw [if_neg hzero]
  cases hclear : p.clear used resolved symbol request.side request.quantity with
  | error refusal =>
      obtain ⟨decision, hrefuse, hdecided, hauthorized⟩ := decided_refuse used resolved
        hform refusal (.inl (Eq.refl ledger))
      refine ⟨decision, used, ledger, Prod.ext hrefuse rfl, hdecided, fun _ => ?_⟩
      rw [hauthorized]
      exact clipped_nonneg hform.quantity_mem.1
  | ok clearance =>
      have hcleared := cleared_of_clear hform.quantity_mem.1 hclear
      rw [clipped_of_clear hclear] at hnotional ⊢
      obtain ⟨r, ledger', hreserve, hgranted⟩ := hsound.reserve id symbol
        ⟨hcleared.allowed_nonneg, hcleared.allowed_le.trans hform.quantity_mem.2⟩
        ⟨mul_nonneg hcleared.allowed_nonneg hform.price_mem.1, hnotional⟩
        (fun r hr => (hheld r hr).1)
      simp only [hreserve]
      have hle : r.quantity.val ≤ request.quantity ∧
          (request.side = .openShort → r.quantity.val ≤ clearance.allowed) := by
        rcases hgranted with ⟨-, hr⟩ | ⟨-, hle, -⟩
        · obtain ⟨-, hle, hshort⟩ := hheld r hr
          exact ⟨hle, fun hside => (hshort hside).trans_le hcleared.allowed_nonneg⟩
        · exact ⟨hle.trans hcleared.allowed_le, fun _ => hle⟩
      obtain ⟨decision, used', hconclude, hdecided, hauthorized⟩ := decided_conclude used hform
        hcleared r.quantity.property.1 hle.1 hle.2
        (hgranted.imp And.left fun ⟨hnew, _, symbolLedger, m⟩ => ⟨hnew, r, symbolLedger, m, rfl⟩)
      rw [hconclude]
      exact ⟨decision, used', ledger', rfl, hdecided, fun hside => hauthorized ▸ hle.2 hside⟩

end Capacity
