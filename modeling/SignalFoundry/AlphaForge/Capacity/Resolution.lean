import Mathlib.Data.Finset.Lattice.Lemmas
import SignalFoundry.AlphaForge.Capacity.Shorting
import SignalFoundry.Library.Newest
import SignalFoundry.Library.StableSort

/-!
# What a session resolves

The records that are visible when a session is decided, and the decisions on its
requests, as functions of the books. Records observed on or after the session are not
read. The order of the books matters only where the most recent borrow records of a
symbol tie: their uniqueness is one of the effective session, not of the observation.
-/

namespace Capacity

open Fallible

/-! ## The scans -/

section Scan

variable {R : Type} (symbol : R → Identifier) (asOf : R → PyDate)

theorem get?_keepNewest (kept : OrderedDict Identifier R) (record : R) (name : Identifier) :
    (keepNewest symbol asOf kept record).get? name =
      if symbol record = name then newer asOf (kept.get? name) record else kept.get? name := by
  unfold keepNewest
  by_cases hname : symbol record = name
  · subst hname
    rw [if_pos rfl]
    cases hget : kept.get? (symbol record) with
    | none => simp [newer]
    | some incumbent =>
        dsimp only [newer]
        split_ifs
        · simp
        · exact hget
  · rw [if_neg hname]
    cases kept.get? (symbol record) with
    | none => exact kept.get?_set_of_ne record (Ne.symm hname)
    | some incumbent =>
        dsimp only
        split_ifs
        · exact kept.get?_set_of_ne record (Ne.symm hname)
        · rfl

theorem get?_foldl_keepNewest (l : List R) (kept : OrderedDict Identifier R) (name : Identifier) :
    (l.foldl (keepNewest symbol asOf) kept).get? name =
      (l.filter fun record => symbol record = name).foldl (newer asOf) (kept.get? name) := by
  induction l generalizing kept with
  | nil => rfl
  | cons record l ih =>
      rw [List.foldl_cons, ih, get?_keepNewest]
      by_cases hname : symbol record = name
      · rw [if_pos hname, List.filter_cons_of_pos (by simpa using hname), List.foldl_cons]
      · rw [if_neg hname, List.filter_cons_of_neg (by simpa using hname)]

/-- The loop of `resolve`: records that are not visible are passed over, those that
are stale name their symbol, and of the others the newest is kept. -/
theorem foldl_resolve (skipped stale : R → Bool) (l : List R) (kept : OrderedDict Identifier R)
    (named : Finset Identifier) :
    l.foldl (fun (kept, named) record =>
      if skipped record then (kept, named)
      else if stale record then (kept, insert (symbol record) named)
      else (keepNewest symbol asOf kept record, named)) (kept, named) =
    ((l.filter fun record => !skipped record && !stale record).foldl (keepNewest symbol asOf) kept,
      named ∪ ((l.filter fun record => !skipped record && stale record).map symbol).toFinset) := by
  induction l generalizing kept named with
  | nil => simp
  | cons record l ih =>
      rw [List.foldl_cons]
      cases hskipped : skipped record with
      | true => simp [hskipped, ih]
      | false =>
          cases hstale : stale record with
          | true => simp [hskipped, hstale, ih, Finset.insert_union, Finset.union_insert]
          | false => simp [hskipped, hstale, ih]

end Scan

namespace CapacityPolicy

variable (p : CapacityPolicy) (session : PyDate)

/-- The borrow records that `resolve` chooses from. -/
def visibleBorrow : List BorrowAvailability :=
  p.borrow.filter fun record => !(session ≤ record.asOfSession || !record.covers session) &&
    !isStale record.asOfSession session p.declaration.maxStalenessSessions

def staleBorrowSymbols : Finset Identifier :=
  ((p.borrow.filter fun record => !(session ≤ record.asOfSession || !record.covers session) &&
    isStale record.asOfSession session p.declaration.maxStalenessSessions).map
      BorrowAvailability.symbol).toFinset

def visibleLiquidity : List LiquidityObservation :=
  p.liquidity.filter fun observation => !decide (session ≤ observation.asOfSession) &&
    !isStale observation.asOfSession session p.declaration.maxStalenessSessions

def staleLiquiditySymbols : Finset Identifier :=
  ((p.liquidity.filter fun observation => !decide (session ≤ observation.asOfSession) &&
    isStale observation.asOfSession session p.declaration.maxStalenessSessions).map
      LiquidityObservation.symbol).toFinset

theorem get?_borrow (symbol : Identifier) : (p.resolve session).borrow.get? symbol =
    newest BorrowAvailability.asOfSession
      ((p.visibleBorrow session).filter fun record => record.symbol = symbol) := by
  have hfold := foldl_resolve BorrowAvailability.symbol BorrowAvailability.asOfSession
    (fun record => session ≤ record.asOfSession || !record.covers session)
    (fun record => isStale record.asOfSession session p.declaration.maxStalenessSessions)
    p.borrow .empty ∅
  have hborrow : (p.resolve session).borrow = (p.visibleBorrow session).foldl
      (keepNewest BorrowAvailability.symbol BorrowAvailability.asOfSession) .empty :=
    congrArg Prod.fst hfold
  rw [hborrow, get?_foldl_keepNewest]
  rfl

theorem mem_staleBorrow_iff (symbol : Identifier) : symbol ∈ (p.resolve session).staleBorrow ↔
    symbol ∈ p.staleBorrowSymbols session ∧
      (p.resolve session).borrow.get? symbol = none := by
  have hfold := foldl_resolve BorrowAvailability.symbol BorrowAvailability.asOfSession
    (fun record => session ≤ record.asOfSession || !record.covers session)
    (fun record => isStale record.asOfSession session p.declaration.maxStalenessSessions)
    p.borrow .empty ∅
  have hstale : (p.resolveBorrow session).2 = ∅ ∪ p.staleBorrowSymbols session :=
    congrArg Prod.snd hfold
  rw [Finset.empty_union] at hstale
  rw [OrderedDict.get?_eq_none_iff, ← hstale]
  exact Finset.mem_filter

theorem get?_liquidity (symbol : Identifier) : (p.resolve session).liquidity.get? symbol =
    newest LiquidityObservation.asOfSession
      ((p.visibleLiquidity session).filter fun observation => observation.symbol = symbol) := by
  have hfold := foldl_resolve LiquidityObservation.symbol LiquidityObservation.asOfSession
    (fun observation => decide (session ≤ observation.asOfSession))
    (fun observation => isStale observation.asOfSession session p.declaration.maxStalenessSessions)
    p.liquidity .empty ∅
  have hliquidity : (p.resolve session).liquidity = (p.visibleLiquidity session).foldl
      (keepNewest LiquidityObservation.symbol LiquidityObservation.asOfSession) .empty := by
    refine Eq.trans ?_ (congrArg Prod.fst hfold)
    simp only [resolve, resolveLiquidity, decide_eq_true_eq]
  rw [hliquidity, get?_foldl_keepNewest]
  rfl

theorem mem_staleLiquidity_iff (symbol : Identifier) :
    symbol ∈ (p.resolve session).staleLiquidity ↔ symbol ∈ p.staleLiquiditySymbols session ∧
      (p.resolve session).liquidity.get? symbol = none := by
  have hfold := foldl_resolve LiquidityObservation.symbol LiquidityObservation.asOfSession
    (fun observation => decide (session ≤ observation.asOfSession))
    (fun observation => isStale observation.asOfSession session p.declaration.maxStalenessSessions)
    p.liquidity .empty ∅
  have hstale : (p.resolveLiquidity session).2 = ∅ ∪ p.staleLiquiditySymbols session := by
    refine Eq.trans ?_ (congrArg Prod.snd hfold)
    simp only [resolveLiquidity, decide_eq_true_eq]
  rw [Finset.empty_union] at hstale
  rw [OrderedDict.get?_eq_none_iff, ← hstale]
  exact Finset.mem_filter

end CapacityPolicy

/-! ## Books that agree -/

/-- The same maps, whatever the order of their entries. -/
structure ResolvedCapacity.Agrees (resolved resolved' : ResolvedCapacity) : Prop where
  session : resolved'.session = resolved.session
  borrow : ∀ symbol, resolved'.borrow.get? symbol = resolved.borrow.get? symbol
  locates : ∀ symbol, resolved'.locates symbol = resolved.locates symbol
  liquidity : ∀ symbol, resolved'.liquidity.get? symbol = resolved.liquidity.get? symbol
  staleBorrow : resolved'.staleBorrow = resolved.staleBorrow
  staleLiquidity : resolved'.staleLiquidity = resolved.staleLiquidity
  staleLocates : resolved'.staleLocates = resolved.staleLocates

/-- Books of the same records under the same declaration. -/
structure CapacityPolicy.SameRecords (p p' : CapacityPolicy) : Prop where
  declaration : p'.declaration = p.declaration
  borrow : p.borrow.Perm p'.borrow
  locates : p.locates.Perm p'.locates
  liquidity : p.liquidity.Perm p'.liquidity

/-- Books that differ only in records observed on or after a session. -/
structure CapacityPolicy.SameBefore (session : PyDate) (p p' : CapacityPolicy) : Prop where
  declaration : p'.declaration = p.declaration
  borrow : p'.borrow.filter (·.asOfSession < session) = p.borrow.filter (·.asOfSession < session)
  locates : p'.locates.filter (·.grantedSession < session) =
    p.locates.filter (·.grantedSession < session)
  liquidity : p'.liquidity.filter (·.asOfSession < session) =
    p.liquidity.filter (·.asOfSession < session)

section Agreement

variable {p p' : CapacityPolicy} {session : PyDate}

theorem agrees_of_records (hborrow : ∀ symbol, newest BorrowAvailability.asOfSession
      ((p'.visibleBorrow session).filter fun record => record.symbol = symbol) =
        newest BorrowAvailability.asOfSession
          ((p.visibleBorrow session).filter fun record => record.symbol = symbol))
    (hstaleBorrow : p'.staleBorrowSymbols session = p.staleBorrowSymbols session)
    (hliquidity : ∀ symbol, newest LiquidityObservation.asOfSession
      ((p'.visibleLiquidity session).filter fun observation => observation.symbol = symbol) =
        newest LiquidityObservation.asOfSession
          ((p.visibleLiquidity session).filter fun observation => observation.symbol = symbol))
    (hstaleLiquidity : p'.staleLiquiditySymbols session = p.staleLiquiditySymbols session)
    (hlocates : ∀ symbol, p'.resolveLocates session symbol = p.resolveLocates session symbol)
    (hexpired : (p'.expiredLocates session).toFinset = (p.expiredLocates session).toFinset) :
    (p.resolve session).Agrees (p'.resolve session) := by
  have hget : ∀ symbol, (p'.resolve session).borrow.get? symbol =
      (p.resolve session).borrow.get? symbol := fun symbol => by
    rw [p'.get?_borrow, p.get?_borrow, hborrow]
  have hgetLiquidity : ∀ symbol, (p'.resolve session).liquidity.get? symbol =
      (p.resolve session).liquidity.get? symbol := fun symbol => by
    rw [p'.get?_liquidity, p.get?_liquidity, hliquidity]
  refine ⟨rfl, hget, hlocates, hgetLiquidity, ?_, ?_, ?_⟩
  · ext symbol
    rw [p'.mem_staleBorrow_iff, p.mem_staleBorrow_iff, hstaleBorrow, hget]
  · ext symbol
    rw [p'.mem_staleLiquidity_iff, p.mem_staleLiquidity_iff, hstaleLiquidity, hgetLiquidity]
  · show (p'.expiredLocates session).toFinset.filter _ =
      (p.expiredLocates session).toFinset.filter _
    rw [hexpired]
    exact Finset.filter_congr fun symbol _ => by rw [hlocates]

theorem filter_eq_filter_filter {R : Type} {visible earlier : R → Bool} (l : List R)
    (h : ∀ record, visible record = true → earlier record = true) :
    l.filter visible = (l.filter earlier).filter visible := by
  rw [List.filter_filter]
  refine List.filter_congr fun record _ => ?_
  cases hvisible : visible record with
  | true => simp [h record hvisible]
  | false => simp

/-- What is observed on or after a session is not resolved. -/
theorem CapacityPolicy.SameBefore.agrees (h : p.SameBefore session p') :
    (p.resolve session).Agrees (p'.resolve session) := by
  have hborrow : ∀ stale : BorrowAvailability → Bool,
      p'.borrow.filter (fun record =>
        !(session ≤ record.asOfSession || !record.covers session) && stale record) =
      p.borrow.filter fun record =>
        !(session ≤ record.asOfSession || !record.covers session) && stale record := by
    intro stale
    have hearlier : ∀ record : BorrowAvailability,
        (!(session ≤ record.asOfSession || !record.covers session) && stale record) = true →
          decide (record.asOfSession < session) = true := fun record hvisible => by
      simp only [Bool.and_eq_true, Bool.not_eq_true', Bool.or_eq_false_iff,
        decide_eq_false_iff_not, not_le] at hvisible
      exact decide_eq_true hvisible.1.1
    rw [filter_eq_filter_filter p'.borrow hearlier, h.borrow, ← filter_eq_filter_filter _ hearlier]
  have hliquidity : ∀ stale : LiquidityObservation → Bool,
      p'.liquidity.filter (fun observation =>
        !decide (session ≤ observation.asOfSession) && stale observation) =
      p.liquidity.filter fun observation =>
        !decide (session ≤ observation.asOfSession) && stale observation := by
    intro stale
    have hearlier : ∀ observation : LiquidityObservation,
        (!decide (session ≤ observation.asOfSession) && stale observation) = true →
          decide (observation.asOfSession < session) = true := fun observation hvisible => by
      simp only [Bool.and_eq_true, Bool.not_eq_true', decide_eq_false_iff_not, not_le] at hvisible
      exact decide_eq_true hvisible.1
    rw [filter_eq_filter_filter p'.liquidity hearlier, h.liquidity,
      ← filter_eq_filter_filter _ hearlier]
  have hlocates : ∀ kept : LocateRecord → Bool,
      (∀ locate, kept locate = true → locate.grantedSession < session) →
        p'.locates.filter kept = p.locates.filter kept := by
    intro kept hkept
    have hearlier : ∀ locate, kept locate = true →
        decide (locate.grantedSession < session) = true :=
      fun locate hvisible => decide_eq_true (hkept locate hvisible)
    rw [filter_eq_filter_filter p'.locates hearlier, h.locates,
      ← filter_eq_filter_filter _ hearlier]
  refine agrees_of_records (fun symbol => ?_) ?_ (fun symbol => ?_) ?_ (fun symbol => ?_) ?_
  · rw [CapacityPolicy.visibleBorrow, CapacityPolicy.visibleBorrow, h.declaration, hborrow]
  · rw [CapacityPolicy.staleBorrowSymbols, CapacityPolicy.staleBorrowSymbols, h.declaration,
      hborrow]
  · rw [CapacityPolicy.visibleLiquidity, CapacityPolicy.visibleLiquidity, h.declaration,
      hliquidity]
  · rw [CapacityPolicy.staleLiquiditySymbols, CapacityPolicy.staleLiquiditySymbols, h.declaration,
      hliquidity]
  · rw [CapacityPolicy.resolveLocates, CapacityPolicy.resolveLocates, hlocates _ fun locate hkept => by
      simp only [Bool.and_eq_true, decide_eq_true_eq] at hkept
      exact hkept.1.1]
  · rw [CapacityPolicy.expiredLocates, CapacityPolicy.expiredLocates, hlocates _ fun locate hkept => by
      simp only [Bool.and_eq_true, decide_eq_true_eq] at hkept
      exact hkept.1]

/-- The most recent visible borrow record of each symbol is one. -/
def CapacityPolicy.NoTies (p : CapacityPolicy) (session : PyDate) : Prop :=
  ∀ symbol, Untied BorrowAvailability.asOfSession
    ((p.visibleBorrow session).filter fun record => record.symbol = symbol)

theorem CapacityPolicy.SameRecords.agrees (h : p.SameRecords p') (hties : p.NoTies session) :
    (p.resolve session).Agrees (p'.resolve session) := by
  refine agrees_of_records (fun symbol => ?_) ?_ (fun symbol => ?_) ?_ (fun symbol => ?_) ?_
  · refine newest_eq_of_perm (hties symbol) (List.Perm.filter _ ?_)
    rw [CapacityPolicy.visibleBorrow, CapacityPolicy.visibleBorrow, h.declaration]
    exact h.borrow.filter _
  · rw [CapacityPolicy.staleBorrowSymbols, CapacityPolicy.staleBorrowSymbols, h.declaration]
    exact (List.toFinset_eq_of_perm _ _ ((h.borrow.filter _).map _)).symm
  · have huntied : Untied LiquidityObservation.asOfSession
        ((p.visibleLiquidity session).filter fun observation => observation.symbol = symbol) := by
      intro a b ha hb
      have hsession : a.asOfSession = b.asOfSession := le_antisymm (hb.le a ha.mem) (ha.le b hb.mem)
      obtain ⟨hamem, hasymbol⟩ := List.mem_filter.mp ha.mem
      obtain ⟨hbmem, hbsymbol⟩ := List.mem_filter.mp hb.mem
      have hsymbol : a.symbol = b.symbol :=
        (of_decide_eq_true hasymbol).trans (of_decide_eq_true hbsymbol).symm
      exact List.inj_on_of_nodup_map p.liquidity_unique (List.mem_of_mem_filter hamem)
        (List.mem_of_mem_filter hbmem) (Prod.ext hsymbol hsession)
    refine newest_eq_of_perm huntied (List.Perm.filter _ ?_)
    rw [CapacityPolicy.visibleLiquidity, CapacityPolicy.visibleLiquidity, h.declaration]
    exact h.liquidity.filter _
  · rw [CapacityPolicy.staleLiquiditySymbols, CapacityPolicy.staleLiquiditySymbols, h.declaration]
    exact (List.toFinset_eq_of_perm _ _ ((h.liquidity.filter _).map _)).symm
  · have hperm := (h.locates.filter fun locate => locate.grantedSession < session &&
      locate.active session && locate.symbol = symbol).symm
    refine List.Perm.eq_of_pairwise ?_ (pairwise_sortedBy locateKey _)
      (pairwise_sortedBy locateKey _) (((perm_sortedBy locateKey _).trans hperm).trans
        (perm_sortedBy locateKey _).symm)
    intro a b ha hb hab hba
    have hkey := congrArg (fun key => (ofLex key).2) (le_antisymm hab hba)
    obtain ⟨hamem, hakept⟩ := List.mem_filter.mp (mem_sortedBy.mp ha)
    obtain ⟨hbmem, hbkept⟩ := List.mem_filter.mp (mem_sortedBy.mp hb)
    simp only [Bool.and_eq_true, decide_eq_true_eq] at hakept hbkept
    exact List.inj_on_of_nodup_map p.locates_unique (h.locates.mem_iff.mpr hamem) hbmem
      (Prod.ext (Subtype.ext hkey) (hakept.2.trans hbkept.2.symm))
  · exact (List.toFinset_eq_of_perm _ _ ((h.locates.filter _).map _)).symm

/-- The book with one of its borrow records first. -/
def CapacityPolicy.borrowFirst (p : CapacityPolicy) (record : BorrowAvailability)
    (h : record ∈ p.borrow) : CapacityPolicy :=
  have hperm := List.perm_cons_erase h
  { p with
    borrow := record :: p.borrow.erase record
    borrow_unique := (hperm.map _).nodup_iff.mp p.borrow_unique
    records_le := hperm.length_eq ▸ p.records_le }

theorem sameRecords_borrowFirst (record : BorrowAvailability) (h : record ∈ p.borrow) :
    p.SameRecords (p.borrowFirst record h) :=
  ⟨rfl, List.perm_cons_erase h, .refl _, .refl _⟩

/-- The most recent record that comes first is resolved. -/
theorem get?_borrow_borrowFirst {symbol : Identifier} {record : BorrowAvailability}
    (hlatest : Latest BorrowAvailability.asOfSession
      ((p.visibleBorrow session).filter fun other => other.symbol = symbol) record)
    (h : record ∈ p.borrow) :
    ((p.borrowFirst record h).resolve session).borrow.get? symbol = some record := by
  obtain ⟨hvisible, hsymbol⟩ := List.mem_filter.mp hlatest.mem
  have hkept := (List.mem_filter.mp hvisible).2
  have hfirst : ((p.borrowFirst record h).visibleBorrow session).filter
      (fun other => other.symbol = symbol) =
        record :: ((p.borrow.erase record).filter fun other =>
          !(session ≤ other.asOfSession || !other.covers session) &&
            !isStale other.asOfSession session p.declaration.maxStalenessSessions).filter
              fun other => other.symbol = symbol := by
    have hcons : (p.borrowFirst record h).visibleBorrow session = record ::
        (p.borrow.erase record).filter fun other =>
          !(session ≤ other.asOfSession || !other.covers session) &&
            !isStale other.asOfSession session p.declaration.maxStalenessSessions :=
      List.filter_cons_of_pos hkept
    rw [hcons]
    exact List.filter_cons_of_pos hsymbol
  have hperm : ((p.visibleBorrow session).filter fun other => other.symbol = symbol).Perm
      (((p.borrowFirst record h).visibleBorrow session).filter fun other =>
        other.symbol = symbol) :=
    ((List.perm_cons_erase h).filter _).filter _
  rw [CapacityPolicy.get?_borrow, hfirst]
  rw [hfirst] at hperm
  exact newest_cons_of_latest (hlatest.perm hperm)

/-- The order of the books is not seen exactly when no most recent records tie. -/
theorem forall_agrees_iff : (∀ p', p.SameRecords p' → (p.resolve session).Agrees
    (p'.resolve session)) ↔ p.NoTies session := by
  constructor
  · intro hsame symbol a b ha hb
    have hresolved : ∀ record, Latest BorrowAvailability.asOfSession
        ((p.visibleBorrow session).filter fun other => other.symbol = symbol) record →
          (p.resolve session).borrow.get? symbol = some record := by
      intro record hlatest
      have hmem : record ∈ p.borrow :=
        List.mem_of_mem_filter (List.mem_of_mem_filter hlatest.mem)
      rw [← (hsame _ (sameRecords_borrowFirst record hmem)).borrow symbol,
        get?_borrow_borrowFirst hlatest hmem]
    exact Option.some.inj ((hresolved a ha).symm.trans (hresolved b hb))
  · exact fun hties p' h => h.agrees hties

end Agreement

/-! ## Decisions -/

namespace SessionCapacityLedger

/-- The same ledger under limits in another order. -/
def withLimits (l : SessionCapacityLedger)
    (limits : OrderedDict Identifier (Quantity maxQuantity)) : SessionCapacityLedger :=
  { l with participationLimits := limits }

variable (l : SessionCapacityLedger) (limits : OrderedDict Identifier (Quantity maxQuantity))

theorem remainingParticipation_withLimits
    (h : ∀ symbol, limits.get? symbol = l.participationLimits.get? symbol) (symbol : Identifier) :
    (l.withLimits limits).remainingParticipation symbol = l.remainingParticipation symbol := by
  unfold remainingParticipation withLimits
  rw [h]

theorem record_withLimits (id : Identifier) (built : Except CapacityError Reservation) : (l.withLimits limits).record id built =
      ((l.record id built).1, (l.record id built).2.withLimits limits) := by
  cases built with
  | error error => rfl
  | ok reservation => rfl

/-- The order of the limits is not seen by a reservation. -/
theorem reserve_withLimits (h : ∀ symbol, limits.get? symbol = l.participationLimits.get? symbol)
    (id symbol : String) (quantity notional : ℚ) :
    (l.withLimits limits).reserve id symbol quantity notional =
      ((l.reserve id symbol quantity notional).1,
        (l.reserve id symbol quantity notional).2.withLimits limits) := by
  unfold reserve
  generalize (do
    let id ← identifier "reservation_id" id
    let symbol ← identifier "symbol" symbol
    let quantity ← finiteQuantity "quantity" maxQuantity quantity
    let notional ← finiteQuantity "notional" maxQuantity notional
    return (id, symbol, quantity, notional) : Except CapacityError _) = checked
  rcases checked with error | ⟨id, symbol, quantity, notional⟩
  · rfl
  · have hget : (l.withLimits limits).reservations.get? id = l.reservations.get? id := rfl
    dsimp only [claim]
    rw [hget]
    cases l.reservations.get? id with
    | some existing =>
        dsimp only
        split <;> rfl
    | none =>
        have hallowance : ((l.withLimits limits).request symbol quantity.val).allowance symbol
            quantity.val notional.val =
              (l.request symbol quantity.val).allowance symbol quantity.val notional.val := by
          have hremaining := remainingParticipation_withLimits
            (l.request symbol quantity.val) limits h symbol
          unfold allowance
          rw [show (l.withLimits limits).request symbol quantity.val =
            (l.request symbol quantity.val).withLimits limits from rfl, hremaining]
          rfl
        dsimp only
        rw [hallowance]
        exact record_withLimits ((l.request symbol quantity.val).grant symbol quantity.val _ _)
          limits id _

theorem participationLimits_reserve (id symbol : String) (quantity notional : ℚ) :
    (l.reserve id symbol quantity notional).2.participationLimits = l.participationLimits := by
  have hsame := reserve_withLimits l l.participationLimits (fun _ => rfl) id symbol
    quantity notional
  exact congrArg (fun reserved => reserved.2.participationLimits) hsame

end SessionCapacityLedger

namespace CapacityPolicy

variable (p : CapacityPolicy)

/-- The decisions on a sequence of requests in a session that is open. -/
def decideAll (resolved : ResolvedCapacity) :
    LocateUse → SessionCapacityLedger → List Request → List (Except CapacityError CapacityDecision)
  | _, _, [] => []
  | used, ledger, request :: requests =>
      let (decision, used, ledger) := p.authorize used resolved ledger request
      decision :: decideAll resolved used ledger requests

/-- The decisions of a session. -/
def decisions (session : PyDate) (used : LocateUse) (requests : List Request) :
    Except CapacityError (List (Except CapacityError CapacityDecision)) :=
  (p.openSessionLedger (p.resolve session)).map fun ledger =>
    p.decideAll (p.resolve session) used ledger requests

end CapacityPolicy

section Decisions

open CapacityPolicy

variable {p p' : CapacityPolicy} {resolved resolved' : ResolvedCapacity} {used : LocateUse}
  {ledger : SessionCapacityLedger} {limits : OrderedDict Identifier (Quantity maxQuantity)}

theorem ResolvedCapacity.Agrees.clear (h : resolved.Agrees resolved')
    (hdeclaration : p'.declaration = p.declaration) (used : LocateUse) (symbol : Identifier)
    (side : Side) (quantity : ℚ) :
    p'.clear used resolved' symbol side quantity = p.clear used resolved symbol side quantity := by
  have hkeys : symbol ∈ resolved'.liquidity.keys ↔ symbol ∈ resolved.liquidity.keys := by
    rw [← not_iff_not, ← OrderedDict.get?_eq_none_iff, ← OrderedDict.get?_eq_none_iff, h.liquidity]
  unfold CapacityPolicy.clear CapacityPolicy.clearSide CapacityPolicy.clearShort
  simp only [hdeclaration, h.borrow, h.locates, h.staleBorrow, h.staleLocates, h.staleLiquidity,
    hkeys]

/-- A decision reads the maps and the limits by symbol only. -/
theorem ResolvedCapacity.Agrees.authorize (h : resolved.Agrees resolved')
    (hdeclaration : p'.declaration = p.declaration)
    (hlimits : ∀ symbol, limits.get? symbol = ledger.participationLimits.get? symbol)
    (used : LocateUse) (request : Request) :
    p'.authorize used resolved' (ledger.withLimits limits) request =
      ((p.authorize used resolved ledger request).1,
        (p.authorize used resolved ledger request).2.1,
          (p.authorize used resolved ledger request).2.2.withLimits limits) := by
  unfold CapacityPolicy.authorize
  cases identifier "symbol" request.symbol with
  | error error => rfl
  | ok symbol =>
  cases finiteQuantity "quantity" maxQuantity request.quantity with
  | error error => rfl
  | ok quantity =>
  cases finiteQuantity "price" maxQuantity request.price with
  | error error => rfl
  | ok price =>
  simp only [ok_bind, pure_eq_ok, h.clear hdeclaration]
  by_cases hzero : quantity.val ≤ 0
  · rw [if_pos hzero, if_pos hzero, refuse_eq h.session]
  · rw [if_neg hzero, if_neg hzero]
    cases p.clear used resolved symbol request.side quantity.val with
    | error refusal =>
        dsimp only
        rw [refuse_eq h.session]
    | ok clearance =>
        have hkept := SessionCapacityLedger.participationLimits_reserve ledger
          request.reservationId symbol.val clearance.allowed (clearance.allowed * price.val)
        dsimp only
        rw [SessionCapacityLedger.reserve_withLimits _ _ hlimits]
        generalize ledger.reserve request.reservationId symbol.val clearance.allowed
          (clearance.allowed * price.val) = reserved at hkept
        obtain ⟨reply, next⟩ := reserved
        dsimp only at hkept ⊢
        cases reply with
        | error error => rfl
        | ok reservation =>
            have hremaining := SessionCapacityLedger.remainingParticipation_withLimits next limits
              (by rw [hkept]; exact hlimits) symbol
            simp only [conclude, exhausted, grantReason, refuse, h.session, hremaining]

theorem participationLimits_authorize (p : CapacityPolicy) (used : LocateUse)
    (resolved : ResolvedCapacity) (ledger : SessionCapacityLedger) (request : Request) :
    (p.authorize used resolved ledger request).2.2.participationLimits =
      ledger.participationLimits := by
  have hself : resolved.Agrees resolved :=
    ⟨rfl, fun _ => rfl, fun _ => rfl, fun _ => rfl, rfl, rfl, rfl⟩
  have hsame : p.authorize used resolved (ledger.withLimits ledger.participationLimits) request =
      _ := hself.authorize rfl (fun _ => rfl) used request
  exact congrArg (fun decided => decided.2.2.participationLimits) hsame

theorem ResolvedCapacity.Agrees.decideAll (h : resolved.Agrees resolved')
    (hdeclaration : p'.declaration = p.declaration)
    (hlimits : ∀ symbol, limits.get? symbol = ledger.participationLimits.get? symbol)
    (used : LocateUse) (requests : List Request) :
    p'.decideAll resolved' used (ledger.withLimits limits) requests =
      p.decideAll resolved used ledger requests := by
  induction requests generalizing used ledger with
  | nil => rfl
  | cons request requests ih =>
      have hkept := participationLimits_authorize p used resolved ledger request
      rw [CapacityPolicy.decideAll, CapacityPolicy.decideAll,
        h.authorize hdeclaration hlimits used request]
      exact congrArg _ (ih (by rw [hkept]; exact hlimits) _)

end Decisions

/-! ## The limits of a session -/

section Limits

open CapacityPolicy

variable {p p' : CapacityPolicy} {resolved resolved' : ResolvedCapacity}

theorem items_participationLimits (p : CapacityPolicy) (resolved : ResolvedCapacity) :
    (p.participationLimits resolved).items = resolved.liquidity.items.map fun item =>
      (item.1.val, item.2.advShares.val * p.declaration.maxParticipation) := by
  refine OrderedDict.items_ofItems ?_
  rw [List.map_map]
  have hkeys := resolved.liquidity.nodup_keys.map Subtype.val_injective
  rwa [List.map_map] at hkeys

theorem ResolvedCapacity.Agrees.items_perm (h : resolved.Agrees resolved') :
    resolved'.liquidity.items.Perm resolved.liquidity.items :=
  OrderedDict.items_perm_iff.mpr h.liquidity

theorem ResolvedCapacity.Agrees.participationLimits (h : resolved.Agrees resolved')
    (hdeclaration : p'.declaration = p.declaration) (symbol : String) :
    (p'.participationLimits resolved').get? symbol =
      (p.participationLimits resolved).get? symbol := by
  refine OrderedDict.items_perm_iff.mp ?_ symbol
  rw [items_participationLimits, items_participationLimits, hdeclaration]
  exact h.items_perm.map _

/-- A limit below the observed volume is a quantity. -/
def sessionLimit (p : CapacityPolicy) (item : Identifier × LiquidityObservation) :
    Identifier × Quantity maxQuantity :=
  (item.1, ⟨item.2.advShares.val * p.declaration.maxParticipation,
    mul_nonneg item.2.advShares.property.1 p.declaration.maxParticipation_bounds.1.le,
    (mul_le_of_le_one_right item.2.advShares.property.1
      p.declaration.maxParticipation_bounds.2).trans item.2.advShares.property.2⟩)

theorem mapM_cleanLimit (p : CapacityPolicy) (resolved : ResolvedCapacity) :
    (p.participationLimits resolved).items.mapM SessionCapacityLedger.cleanLimit =
      .ok (resolved.liquidity.items.map (sessionLimit p)) := by
  rw [items_participationLimits, List.mapM_map]
  refine mapM_eq_ok_map fun item _ => ?_
  have hquantity : finiteQuantity s!"participation_limit[{item.1.val}]" maxQuantity _ = .ok _ :=
    finiteQuantity_of (sessionLimit p item).2.property
  show SessionCapacityLedger.cleanLimit
    (item.1.val, item.2.advShares.val * p.declaration.maxParticipation) = _
  unfold SessionCapacityLedger.cleanLimit
  rw [identifier_val, ok_bind]
  exact bind_eq_ok_iff.mpr ⟨_, hquantity, rfl⟩

/-- The limits that a session is opened under. -/
def sessionLimits (p : CapacityPolicy) (resolved : ResolvedCapacity) :
    OrderedDict Identifier (Quantity maxQuantity) :=
  .ofItems (resolved.liquidity.items.map (sessionLimit p))

theorem ResolvedCapacity.Agrees.sessionLimits (h : resolved.Agrees resolved')
    (hdeclaration : p'.declaration = p.declaration) (symbol : Identifier) :
    (Capacity.sessionLimits p' resolved').get? symbol =
      (Capacity.sessionLimits p resolved).get? symbol := by
  have hkeys : ∀ (q : CapacityPolicy) (r : ResolvedCapacity),
      ((r.liquidity.items.map (sessionLimit q)).map Prod.fst).Nodup := fun q r => by
    rw [List.map_map]
    exact r.liquidity.nodup_keys
  refine OrderedDict.items_perm_iff.mp ?_ symbol
  unfold Capacity.sessionLimits
  rw [OrderedDict.items_ofItems (hkeys p' resolved'), OrderedDict.items_ofItems (hkeys p resolved)]
  have hlimit : sessionLimit p' = sessionLimit p := by
    funext item
    simp only [sessionLimit, hdeclaration]
  rw [hlimit]
  exact h.items_perm.map _

/-- Sessions that are opened on maps that agree decide alike. -/
theorem ResolvedCapacity.Agrees.openSessionLedger (h : resolved.Agrees resolved')
    (hdeclaration : p'.declaration = p.declaration) :
    p'.openSessionLedger resolved' = (p.openSessionLedger resolved).map
      (·.withLimits (Capacity.sessionLimits p' resolved')) := by
  have hsize : (p'.participationLimits resolved').size = (p.participationLimits resolved).size := by
    rw [OrderedDict.size, OrderedDict.size, items_participationLimits, items_participationLimits,
      List.length_map, List.length_map]
    exact h.items_perm.length_eq
  unfold CapacityPolicy.openSessionLedger SessionCapacityLedger.make
  rw [hsize, mapM_cleanLimit, mapM_cleanLimit, h.session, hdeclaration]
  cases refuseIf (maxRecords < (p.participationLimits resolved).size)
    (CapacityError.tooManyRecords "participation limits") with
  | error error => rfl
  | ok _ =>
      simp only [ok_bind]
      cases finiteQuantity "book_notional_budget" maxQuantity p.declaration.maxSessionNotional with
      | error error => rfl
      | ok budget => rfl

theorem participationLimits_of_openSessionLedger {ledger : SessionCapacityLedger}
    (h : p.openSessionLedger resolved = .ok ledger) :
    ledger.participationLimits = Capacity.sessionLimits p resolved := by
  unfold CapacityPolicy.openSessionLedger SessionCapacityLedger.make at h
  simp only [mapM_cleanLimit, bind_eq_ok_iff, Except.ok.injEq, pure_eq_ok] at h
  obtain ⟨-, -, cleaned, rfl, budget, -, rfl⟩ := h
  rfl

theorem ResolvedCapacity.Agrees.decisions (h : resolved.Agrees resolved')
    (hdeclaration : p'.declaration = p.declaration) (used : LocateUse) (requests : List Request) :
    ((p'.openSessionLedger resolved').map fun ledger =>
      p'.decideAll resolved' used ledger requests) =
        (p.openSessionLedger resolved).map fun ledger =>
          p.decideAll resolved used ledger requests := by
  rw [h.openSessionLedger hdeclaration]
  cases hopen : p.openSessionLedger resolved with
  | error error => rfl
  | ok ledger =>
      have hlimits : ∀ symbol, (Capacity.sessionLimits p' resolved').get? symbol =
          ledger.participationLimits.get? symbol := fun symbol => by
        rw [participationLimits_of_openSessionLedger hopen, h.sessionLimits hdeclaration]
      exact congrArg Except.ok (h.decideAll hdeclaration hlimits used requests)

end Limits

/-! ## Resolution of two books -/

/-- Two books that resolve a session to the same maps, the same limits and the same
decisions on the same requests. -/
structure CapacityPolicy.Alike (session : PyDate) (p p' : CapacityPolicy) : Prop where
  resolved : (p.resolve session).Agrees (p'.resolve session)
  limits : ∀ symbol, (p'.participationLimits (p'.resolve session)).get? symbol =
    (p.participationLimits (p.resolve session)).get? symbol
  decisions : ∀ used requests,
    p'.decisions session used requests = p.decisions session used requests

theorem ResolvedCapacity.Agrees.alike {p p' : CapacityPolicy} {session : PyDate}
    (h : (p.resolve session).Agrees (p'.resolve session))
    (hdeclaration : p'.declaration = p.declaration) : p.Alike session p' :=
  ⟨h, h.participationLimits hdeclaration, h.decisions hdeclaration⟩

/-- Records observed on or after a session change nothing of it. The order of the
books changes nothing of it exactly when no symbol has two visible borrow records
that are the most recently observed. -/
theorem CapacityPolicy.order_free_iff_no_ties (p : CapacityPolicy) (session : PyDate) :
    (∀ p', p.SameBefore session p' → p.Alike session p') ∧
    ((∀ p', p.SameRecords p' → p.Alike session p') ↔ p.NoTies session) := by
  refine ⟨fun p' h => h.agrees.alike h.declaration, ?_⟩
  rw [← forall_agrees_iff]
  exact ⟨fun hsame p' h => (hsame p' h).resolved,
    fun hagrees p' h => (hagrees p' h).alike h.declaration⟩

/-! ## Two borrow records that tie -/

open CapacityPolicy in
/-- A record of a symbol that was observed on the second of January. -/
def observed (effectiveSession : PyDate) (shares : Quantity maxQuantity)
    (h : january 2 ≤ effectiveSession ∧
      effectiveSession ≤ january 30) : BorrowAvailability where
  symbol := aaa
  asOfSession := january 2
  effectiveSession := effectiveSession
  expirySession := january 30
  status := .available
  shortableQuantity := shares
  effective_le := h.2
  asOf_le := h.1
  not_shortable := by simp [BorrowStatus.shortable]

def shares100 : Quantity maxQuantity := ⟨100, by norm_num [maxQuantity]⟩

open CapacityPolicy in
/-- A policy with two records that were observed on one day and overlap. -/
def overlapping : CapacityPolicy :=
  { oneLocate with
    borrow := [
      observed (january 2) shares300 (by decide +kernel),
      observed (january 3) shares100 (by decide +kernel)]
    borrow_unique := by decide +kernel
    records_le := by decide +kernel }

open CapacityPolicy in
theorem mem_overlapping : observed (january 3) shares100
    (by decide) ∈ overlapping.borrow :=
  List.mem_cons_of_mem _ List.mem_cons_self

open CapacityPolicy in
/-- The record that comes first is resolved. -/
theorem CapacityPolicy.tie_resolved_by_order :
    overlapping.SameRecords (overlapping.borrowFirst _ mem_overlapping) ∧
      (overlapping.resolve (january 5)).borrow.get? aaa ≠
        ((overlapping.borrowFirst _ mem_overlapping).resolve (january 5)).borrow.get? aaa := by
  refine ⟨sameRecords_borrowFirst _ mem_overlapping, ?_⟩
  rw [get?_borrow, get?_borrow]
  decide

end Capacity
