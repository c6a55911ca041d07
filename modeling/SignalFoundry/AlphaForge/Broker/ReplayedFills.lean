import SignalFoundry.AlphaForge.Broker.AdapterRuns

/-!
# Replayed fills

The adapter folds its fills in the order they were made, and the recovery of a
book folds them in the text order of their identities, where `fill-10` comes
before `fill-2`. Both remove a position whose quantity is within
`quantityEpsilon`, so the quantity on record drifts from the sum of the fills by
what was removed, which is at most `quantityEpsilon` for every two fills. The
two folds agree as long as every fill either follows the earlier ones of its
symbol in the text order as well, or is on the side of all of them
(`InTurn`): fills of one side blend to one price in any order.
-/

namespace SignalFoundry.Broker

/-! ## Folds of one symbol -/

/-- The entry of a symbol after its fills. -/
def entryAfter (fills : List Fill) : Option (ℚ × ℚ) := fills.foldl heldAfter none

theorem entryAfter_concat (fills : List Fill) (fill : Fill) :
    entryAfter (fills ++ [fill]) = heldAfter (entryAfter fills) fill := by
  rw [entryAfter, List.foldl_append, entryAfter]
  rfl

/-- The quantity of an entry, zero if there is none. -/
def quantityOf (entry : Option (ℚ × ℚ)) : ℚ := (entry.map Prod.fst).getD 0

/-- A fill either removes the entry, with a quantity that is negligible, or adds
to its quantity. -/
theorem heldAfter_cases (entry : Option (ℚ × ℚ)) (fill : Fill) :
    (∃ held, entry = some held ∧ heldAfter entry fill = none ∧
      |quantityOf entry + fill.signed| ≤ quantityEpsilon) ∨
    ∃ held, heldAfter entry fill = some held ∧
      quantityOf (heldAfter entry fill) = quantityOf entry + fill.signed := by
  cases entry with
  | none => exact .inr ⟨_, rfl, by simp [heldAfter, quantityOf]⟩
  | some held =>
      obtain ⟨quantity, average⟩ := held
      by_cases hflat : |quantity + fill.signed| ≤ quantityEpsilon
      · exact .inl ⟨_, rfl, by simp [heldAfter, hflat], hflat⟩
      · exact .inr ⟨_, if_neg hflat, by simp [heldAfter, hflat, quantityOf]⟩

/-- How many times fills can have removed their entry: an open one takes a fill
that none has been removed by. -/
def removals (fills : List Fill) : ℕ :=
  if (entryAfter fills).isSome then (fills.length - 1) / 2 else fills.length / 2

theorem removals_le (fills : List Fill) : removals fills ≤ fills.length / 2 := by
  unfold removals
  split <;> omega

/-- What fills add up to and what their entry says differ by what was removed. -/
theorem abs_quantityOf_sub_le (fills : List Fill) :
    |quantityOf (entryAfter fills) - (fills.map Fill.signed).sum| ≤
      quantityEpsilon * removals fills ∧ ((entryAfter fills).isSome → 0 < fills.length) := by
  induction fills using List.reverseRecOn with
  | nil => simp [entryAfter, quantityOf, removals]
  | append_singleton fills fill ih =>
      obtain ⟨hdrift, hpos⟩ := ih
      refine ⟨?_, fun _ => by simp⟩
      rw [List.map_append, List.sum_append, List.map_singleton, List.sum_singleton]
      rcases heldAfter_cases (entryAfter fills) fill with ⟨held, hopen, hflat, hsmall⟩ |
        ⟨held, hopen, hquantity⟩
      · have hremovals : removals (fills ++ [fill]) = removals fills + 1 := by
          have hlength := hpos (by rw [hopen]; rfl)
          unfold removals
          rw [entryAfter_concat, hflat, hopen, List.length_append, List.length_singleton]
          simp only [Option.isSome_none, Bool.false_eq_true, if_false, Option.isSome_some, if_true]
          omega
        rw [entryAfter_concat, hflat, hremovals, Nat.cast_add, Nat.cast_one, mul_add, mul_one]
        have hsplit : quantityOf none - ((fills.map Fill.signed).sum + fill.signed) =
            (quantityOf (entryAfter fills) - (fills.map Fill.signed).sum) -
              (quantityOf (entryAfter fills) + fill.signed) := by
          simp only [quantityOf, Option.map_none, Option.getD_none]
          ring
        rw [hsplit]
        exact (abs_sub _ _).trans (add_le_add hdrift hsmall)
      · have hremovals : removals fills ≤ removals (fills ++ [fill]) := by
          unfold removals
          rw [entryAfter_concat, hopen, List.length_append, List.length_singleton]
          split <;> simp only [Option.isSome_some, if_true] <;> omega
        rw [entryAfter_concat, hquantity, add_sub_add_right_eq_sub]
        exact hdrift.trans (mul_le_mul_of_nonneg_left (Nat.cast_le.mpr hremovals)
          quantityEpsilon_pos.le)

/-! ## Fills of one side -/

/-- The shares of fills, and what was paid for them. -/
def shares (fills : List Fill) : ℚ := (fills.map Fill.quantity).sum

def outlay (fills : List Fill) : ℚ := (fills.map fun fill => fill.price * fill.quantity).sum

theorem shares_pos {fills : List Fill} (h : fills ≠ []) : 0 < shares fills := by
  refine List.sum_pos _ (fun q hq => ?_) (by simpa using h)
  obtain ⟨fill, -, rfl⟩ := List.mem_map.mp hq
  exact fill.quantity_pos

theorem quantityEpsilon_lt_shares {fills : List Fill} (h : fills ≠ []) :
    quantityEpsilon < shares fills := by
  obtain ⟨fill, rest, rfl⟩ := List.exists_cons_of_ne_nil h
  rw [shares, List.map_cons, List.sum_cons]
  have hrest : 0 ≤ (rest.map Fill.quantity).sum :=
    List.sum_nonneg fun q hq => by
      obtain ⟨other, -, rfl⟩ := List.mem_map.mp hq
      exact other.quantity_pos.le
  linarith [fill.quantity_gt]

/-- The quantity of shares on a side. -/
def onSide (side : OrderSide) (quantity : ℚ) : ℚ :=
  match side with
  | .buy => quantity
  | .sell => -quantity

@[simp] theorem abs_onSide (side : OrderSide) (quantity : ℚ) :
    |onSide side quantity| = |quantity| := by
  cases side <;> simp [onSide]

theorem onSide_add (side : OrderSide) (a b : ℚ) :
    onSide side a + onSide side b = onSide side (a + b) := by
  cases side with
  | buy => rfl
  | sell => simp only [onSide]; ring

theorem decide_onSide_pos {side : OrderSide} {a b : ℚ} (ha : 0 < a) (hb : 0 < b) :
    decide (onSide side a > 0) = decide (onSide side b > 0) := by
  cases side with
  | buy => simp [onSide, ha, hb]
  | sell => simp [onSide, ha.not_gt, hb.not_gt]

/-- Fills of one side blend to what was paid for a share, in whatever order. -/
theorem entryAfter_of_side {side : OrderSide} {fills : List Fill} (hne : fills ≠ [])
    (hside : ∀ fill ∈ fills, fill.side = side) :
    entryAfter fills = some (onSide side (shares fills), outlay fills / shares fills) := by
  induction fills using List.reverseRecOn with
  | nil => exact absurd rfl hne
  | append_singleton fills fill ih =>
      have hsigned : fill.signed = onSide side fill.quantity := by
        rw [Fill.signed, hside fill (by simp)]
        rfl
      have hshares : shares (fills ++ [fill]) = shares fills + fill.quantity := by
        simp [shares]
      have houtlay : outlay (fills ++ [fill]) = outlay fills + fill.price * fill.quantity := by
        simp [outlay]
      rw [entryAfter_concat]
      rcases eq_or_ne fills [] with rfl | hfills
      · have hquantity := fill.quantity_pos.ne'
        simp [entryAfter, heldAfter, hsigned, shares, outlay, hquantity]
      · rw [ih hfills fun other hother => hside other (List.mem_append_left _ hother)]
        have hpos := shares_pos hfills
        have hsum : 0 < shares fills + fill.quantity := add_pos hpos fill.quantity_pos
        have hopen : ¬ |onSide side (shares fills) + fill.signed| ≤ quantityEpsilon := by
          rw [hsigned, onSide_add, abs_onSide, abs_of_pos hsum, not_le]
          linarith [quantityEpsilon_lt_shares hfills, fill.quantity_pos]
        simp only [heldAfter]
        rw [if_neg hopen, exactAverage, hsigned,
          if_pos (decide_onSide_pos hpos fill.quantity_pos), onSide_add, abs_onSide, abs_onSide,
          abs_onSide, abs_of_pos hpos, abs_of_pos fill.quantity_pos, abs_of_pos hsum,
          div_mul_cancel₀ _ hpos.ne', hshares, houtlay]

/-- Fills of one side leave the same entry in any order. -/
theorem entryAfter_eq_of_perm (side : OrderSide) {fills fills' : List Fill}
    (hperm : fills.Perm fills') (hside : ∀ fill ∈ fills, fill.side = side) :
    entryAfter fills = entryAfter fills' := by
  rcases eq_or_ne fills [] with rfl | hne
  · rw [List.nil_perm.mp hperm]
  · have hne' : fills' ≠ [] := fun hnil => hne (List.perm_nil.mp (hnil ▸ hperm))
    rw [entryAfter_of_side hne hside, entryAfter_of_side hne' fun fill hfill =>
      hside fill (hperm.mem_iff.mpr hfill), shares, shares, outlay, outlay,
      (hperm.map Fill.quantity).sum_eq, (hperm.map fun fill => fill.price * fill.quantity).sum_eq]

/-! ## The text order -/

/-- The fills of a symbol, in order. -/
def fillsOf (symbol : String) (fills : List Fill) : List Fill :=
  fills.filter fun fill => fill.symbol = symbol

theorem fillsOf_concat (symbol : String) (fills : List Fill) (fill : Fill) :
    fillsOf symbol (fills ++ [fill]) =
      if fill.symbol = symbol then fillsOf symbol fills ++ [fill] else fillsOf symbol fills := by
  rw [fillsOf, List.filter_append, List.filter_singleton, fillsOf]
  by_cases h : fill.symbol = symbol <;> simp [h]

theorem mem_fillsOf {symbol : String} {fills : List Fill} {fill : Fill} :
    fill ∈ fillsOf symbol fills ↔ fill ∈ fills ∧ fill.symbol = symbol := by
  simp [fillsOf]

theorem fillIdOf_injective : Function.Injective fillIdOf := by
  intro m n h
  have hdigits := congrArg String.toList h
  simp only [fillIdOf, String.toList_append, List.append_cancel_left_eq, Nat.toString_eq_repr,
    Nat.repr_eq_ofList_toDigits, String.toList_ofList] at hdigits
  have hnumbers := congrArg (fun digits => Nat.ofDigitChars 10 digits 0) hdigits
  simpa only [Nat.ofDigitChars_toDigits (by decide : 1 < 10) le_rfl] using hnumbers

/-- The text order of the fills of every symbol leads to the same entry as theirs. -/
def Converges (fills : List Fill) : Prop :=
  ∀ symbol, entryAfter (sortedBy Fill.fillId (fillsOf symbol fills)) =
    entryAfter (fillsOf symbol fills)

/-- A fill that follows the others of its symbol in the text order, or is on their side,
keeps the two folds together. -/
theorem Converges.concat {fills : List Fill} (hconverges : Converges fills) {fill : Fill}
    (hnodup : ((fills ++ [fill]).map Fill.fillId).Nodup)
    (hturn : (∀ earlier ∈ fillsOf fill.symbol fills, earlier.fillId < fill.fillId) ∨
      ∀ earlier ∈ fillsOf fill.symbol fills, earlier.side = fill.side) :
    Converges (fills ++ [fill]) := by
  intro symbol
  rw [fillsOf_concat]
  split
  · next hsymbol =>
    subst hsymbol
    have hnodup' : ((fillsOf fill.symbol fills ++ [fill]).map Fill.fillId).Nodup :=
      hnodup.sublist ((List.filter_sublist.append_right _).map _)
    rcases hturn with hlater | hside
    · rw [sortedBy_concat hnodup' hlater, entryAfter_concat, entryAfter_concat, hconverges]
    · refine (entryAfter_eq_of_perm fill.side (perm_sortedBy _ _).symm ?_).symm
      intro other hother
      rcases List.mem_append.mp hother with hearlier | hlast
      · exact hside other hearlier
      · rw [List.mem_singleton.mp hlast]
  · exact hconverges symbol

/-! ## The book of a list of fills -/

/-- A fill changes the entry of its own symbol alone. -/
theorem applyFill_get? (book : Book) (fill : Fill) :
    ∃ filled, applyFill .exact book fill = .ok filled ∧
      ∀ symbol, filled.get? symbol = if symbol = fill.symbol then
        heldAfter (book.get? symbol) fill else book.get? symbol := by
  unfold applyFill
  rw [fill.signedQuantity_eq_signed, Fallible.ok_bind]
  cases hget : book.get? fill.symbol with
  | none =>
      refine ⟨_, rfl, fun symbol => ?_⟩
      rw [OrderedDict.get?_set]
      split
      · next hsymbol => rw [hsymbol, hget, heldAfter]
      · rfl
  | some entry =>
      obtain ⟨quantity, average⟩ := entry
      simp only [DecimalContext.add, DecimalContext.abs, DecimalContext.exact_round,
        Fallible.ok_bind]
      by_cases hflat : |quantity + fill.signed| ≤ quantityEpsilon
      · rw [if_pos hflat]
        refine ⟨_, rfl, fun symbol => ?_⟩
        rw [OrderedDict.get?_erase]
        split
        · next hsymbol => rw [hsymbol, hget, heldAfter, if_pos hflat]
        · rfl
      · rw [if_neg hflat, averageAfterFill_eq_exactAverage _ _ (ne_zero_of_not_flat hflat),
          Fallible.ok_bind]
        refine ⟨_, rfl, fun symbol => ?_⟩
        rw [OrderedDict.get?_set]
        split
        · next hsymbol => rw [hsymbol, hget, heldAfter, if_neg hflat]
        · rfl

/-- The entries of a fold are those of the fills of each symbol. -/
theorem foldlM_applyFill_get? (book : Book) (fills : List Fill) :
    ∃ filled, fills.foldlM (applyFill .exact) book = .ok filled ∧
      ∀ symbol, filled.get? symbol =
        (fillsOf symbol fills).foldl heldAfter (book.get? symbol) := by
  induction fills generalizing book with
  | nil => exact ⟨book, rfl, fun _ => rfl⟩
  | cons fill rest ih =>
      obtain ⟨next, hnext, hget⟩ := applyFill_get? book fill
      obtain ⟨filled, hfilled, hrest⟩ := ih next
      refine ⟨filled, by rw [List.foldlM_cons, hnext, Fallible.ok_bind, hfilled], fun symbol => ?_⟩
      rw [hrest, hget, fillsOf, fillsOf]
      by_cases hsymbol : fill.symbol = symbol
      · rw [List.filter_cons_of_pos (by simpa using hsymbol), List.foldl_cons,
          if_pos hsymbol.symm]
      · rw [List.filter_cons_of_neg (by simpa using hsymbol), if_neg (Ne.symm hsymbol)]

/-- A book with the entries of some positions has these positions. -/
theorem positionsOf_eq_ok_sortedBy [PyRuntime] {book : Book}
    {positions : OrderedDict String Position} (hfiled : KeyedTable.Filed Position.symbol positions)
    (hbook : ∀ symbol, book.get? symbol = entryOf positions symbol) :
    positionsOf book = .ok (sortedBy Position.symbol positions.values) := by
  obtain ⟨entry, hentry⟩ : ∃ entry : Position → String × ℚ × ℚ,
      entry = fun p => (p.symbol, (p.quantity, p.averageEntryPrice)) := ⟨_, rfl⟩
  have hitems : (positions.mapValues fun p => (p.quantity, p.averageEntryPrice)).items =
      positions.values.map entry := by
    rw [OrderedDict.mapValues, OrderedDict.values, List.map_map]
    refine List.map_congr_left fun p hp => ?_
    have hsymbol := hfiled p.1 p.2 (OrderedDict.get?_eq_some_iff.mpr hp)
    simp only [Function.comp_apply, hentry, hsymbol]
  have hperm : book.items.Perm (positions.values.map entry) := by
    rw [← hitems, OrderedDict.items_perm_iff]
    intro symbol
    rw [hbook, OrderedDict.get?_mapValues, entryOf]
  have hsorted : book.sortedItems = (sortedBy Position.symbol positions.values).map entry := by
    have hmap : sortedBy Prod.fst (positions.values.map entry) =
        (sortedBy Position.symbol positions.values).map entry :=
      sortedBy_map _ fun p => by rw [hentry]
    rw [← hmap]
    exact sortedBy_eq_of_perm hperm fun a ha b hb hab =>
      List.inj_on_of_nodup_map book.nodup_keys ha hb hab
  rw [positionsOf, hsorted, List.mapM_map]
  refine (Fallible.mapM_eq_ok_map fun p _ => ?_).trans (by rw [List.map_id])
  rw [hentry]
  exact Position.create_eq_ok p.symbol_valid p.averageEntryPrice_pos

/-! ## Runs -/

namespace PaperBrokerAdapter

/-- The quantity that an adapter reports of a symbol, zero if it reports none. -/
def reported (adapter : PaperBrokerAdapter) (symbol : String) : ℚ :=
  ((adapter.positions.get? symbol).map Position.quantity).getD 0

theorem reported_eq (adapter : PaperBrokerAdapter) (symbol : String) :
    adapter.reported symbol = quantityOf (entryOf adapter.positions symbol) := by
  rw [reported, quantityOf, entryOf, Option.map_map]
  rfl

/-- The positions and the identities of the fills, as they follow from the fills. -/
structure Traced (adapter : PaperBrokerAdapter) : Prop where
  entry : ∀ symbol, entryOf adapter.positions symbol = entryAfter (fillsOf symbol adapter.fills)
  filed : KeyedTable.Filed Position.symbol adapter.positions
  fillIds : adapter.fills.map Fill.fillId =
    (List.range adapter.fills.length).map fun n => fillIdOf (n + 1)
  nextFillId : adapter.nextFillId = adapter.fills.length + 1

theorem Traced.nodup {adapter : PaperBrokerAdapter} (h : adapter.Traced) :
    (adapter.fills.map Fill.fillId).Nodup := by
  rw [h.fillIds]
  refine List.Nodup.map (fun m n hmn => ?_) List.nodup_range
  exact Nat.succ_injective (fillIdOf_injective hmn)

section Steps

variable [PyRuntime] [TotalSeconds] {adapter : PaperBrokerAdapter}

omit [TotalSeconds] in
theorem Traced.effect (h : adapter.Traced) {call : Call} {outcome : Outcome (Option OrderStatus)}
    (heffect : Effect adapter call outcome) : outcome.2.Traced := by
  cases heffect with
  | raises | replays => exact h
  | connects | rests | cancels => exact ⟨h.entry, h.filed, h.fillIds, h.nextFillId⟩
  | @fills request quote clock now status updated fill positions haccepts _ _ hfills hpositions =>
      obtain ⟨left, hleft, hentry, hfiled⟩ := applyPosition_exact adapter.positions fill
      rw [hpositions] at hleft
      cases hleft
      refine ⟨fun symbol => ?_, hfiled h.filed, ?_, ?_⟩
      · change entryOf positions symbol = entryAfter (fillsOf symbol (adapter.fills ++ [fill]))
        rw [hentry, fillsOf_concat, h.entry]
        by_cases hsymbol : fill.symbol = symbol
        · rw [if_pos hsymbol.symm, if_pos hsymbol, entryAfter_concat]
        · rw [if_neg (Ne.symm hsymbol), if_neg hsymbol]
      · change (adapter.fills ++ [fill]).map Fill.fillId =
          (List.range (adapter.fills ++ [fill]).length).map fun n => fillIdOf (n + 1)
        rw [List.map_append, h.fillIds, List.length_append, List.length_singleton,
          List.range_succ, List.map_append, List.map_singleton, List.map_singleton, hfills.fillId,
          h.nextFillId]
      · change adapter.nextFillId + 1 = (adapter.fills ++ [fill]).length + 1
        rw [List.length_append, List.length_singleton, h.nextFillId]

theorem after_concat (calls : List Call) (call : Call) :
    adapter.after .exact (calls ++ [call]) =
      (PaperBrokerAdapter.step .exact (adapter.after .exact calls) call).2 := by
  rw [after, Machine.run_append, after]
  rfl

theorem traced_after (hsound : adapter.Sound) (h : adapter.Traced) (calls : List Call) :
    (adapter.after .exact calls).Traced :=
  (Machine.invariant_run (P := fun state : PaperBrokerAdapter => state.Sound ∧ state.Traced)
    (fun _ call hstate =>
      ⟨hstate.1.step call, hstate.2.effect (effect_step hstate.1.room call)⟩)
    ⟨hsound, h⟩ calls).2

omit [PyRuntime] [TotalSeconds] in
theorem traced_of_create {config : BrokerSessionConfig}
    {qualification : Option QualificationDecision} {accountIdDigest : String} {openingCash : ℚ}
    (h : create config qualification accountIdDigest openingCash = .ok adapter) :
    adapter.Traced ∧ adapter.fills = [] := by
  unfold create at h
  simp only [Fallible.bind_eq_ok_iff] at h
  obtain ⟨_, -, _, -, h⟩ := h
  cases h
  exact ⟨⟨fun _ => rfl, KeyedTable.filed_empty _, rfl, rfl⟩, rfl⟩

/-- After any calls with exact decimals, the quantity that is reported of a symbol
differs from the sum of its fills by at most `quantityEpsilon` for every two of them. -/
theorem abs_reported_sub_le {config : BrokerSessionConfig}
    {qualification : Option QualificationDecision} {accountIdDigest : String} {openingCash : ℚ}
    {opened : PaperBrokerAdapter}
    (h : create config qualification accountIdDigest openingCash = .ok opened)
    (calls : List Call) (symbol : String) :
    let fills := fillsOf symbol (opened.after .exact calls).fills
    |(opened.after .exact calls).reported symbol - (fills.map Fill.signed).sum| ≤
      quantityEpsilon * (fills.length / 2 : ℕ) := by
  intro fills
  have htraced := traced_after (sound_of_create h).1 (traced_of_create h).1 calls
  rw [reported_eq, htraced.entry]
  exact (abs_quantityOf_sub_le fills).1.trans (mul_le_mul_of_nonneg_left
    (Nat.cast_le.mpr (removals_le fills)) quantityEpsilon_pos.le)

/-- A call that makes no fill, or one that follows the earlier fills of its symbol in the
text order of the identities, or is on their side. -/
def InTurn (adapter : PaperBrokerAdapter) : Call → Prop
  | .submitOrder request quote clock _ =>
      clock.isOpen = true → request.marketable quote = true →
        adapter.orders.get? request.clientOrderId = none →
        (∀ fill ∈ fillsOf request.symbol adapter.fills,
          fill.fillId < fillIdOf adapter.nextFillId) ∨
        ∀ fill ∈ fillsOf request.symbol adapter.fills, fill.side = request.side
  | .connect _ | .cancelOrder _ _ => True

omit [TotalSeconds] in
/-- A call in turn keeps the two folds together. -/
theorem converges_of_effect (h : adapter.Traced) (hconverges : Converges adapter.fills)
    {call : Call} (hturn : adapter.InTurn call) {outcome : Outcome (Option OrderStatus)}
    (heffect : Effect adapter call outcome) : Converges outcome.2.fills := by
  have htraced := h.effect heffect
  cases heffect with
  | raises | replays | connects | rests | cancels => exact hconverges
  | @fills request quote clock now status updated fill positions haccepts hopen hmarketable
      hfills hpositions =>
      change Converges (adapter.fills ++ [fill])
      refine hconverges.concat htraced.nodup ?_
      rw [hfills.symbol, hfills.fillId, hfills.side]
      exact hturn hopen hmarketable haccepts.new

theorem converges_after (hsound : adapter.Sound) (htraced : adapter.Traced)
    (hconverges : Converges adapter.fills) {calls : List Call}
    (hturn : ∀ before call rest, calls = before ++ call :: rest →
      (adapter.after .exact before).InTurn call) :
    Converges (adapter.after .exact calls).fills := by
  induction calls using List.reverseRecOn with
  | nil => exact hconverges
  | append_singleton calls call ih =>
      have hprefix := ih fun before other rest hcalls =>
        hturn before other (rest ++ [call]) (by rw [hcalls, List.append_assoc, List.cons_append])
      rw [after_concat]
      exact converges_of_effect (traced_after hsound htraced calls) hprefix
        (hturn calls call [] rfl) (effect_step (hsound.after calls).room call)

omit [TotalSeconds] in
/-- The fills that are kept of a delivery, in the order they are folded in. -/
theorem uniqueFills_of_delivered (h : (adapter.fills.map Fill.fillId).Nodup)
    {delivered : List Fill} (hdelivered : ∀ f, f ∈ delivered ↔ f ∈ adapter.fills) :
    ∃ unique, uniqueFills delivered = .ok unique ∧
      KeyedTable.sorted Fill.fillId unique = sortedBy Fill.fillId adapter.fills := by
  have hinj : ∀ f ∈ adapter.fills, ∀ g ∈ adapter.fills, f.fillId = g.fillId → f = g :=
    fun f hf g hg hid => List.inj_on_of_nodup_map h hf hg hid
  rcases uniqueFills_cases delivered with ⟨-, unique, hunique, hfiled, hcontents⟩ |
    ⟨⟨f, hf, g, hg, hid, hne⟩, -⟩
  · refine ⟨unique, hunique, ?_⟩
    have hmem : ∀ f, f ∈ unique.values ↔ f ∈ adapter.fills := fun f => by
      rw [← KeyedTable.mem_contents_iff, hcontents, Set.mem_ofPred_eq, hdelivered]
    have hperm : unique.values.Perm adapter.fills :=
      (List.perm_ext_iff_of_nodup hfiled.nodup_values (List.Nodup.of_map _ h)).mpr hmem
    exact sortedBy_eq_of_perm hperm fun f hf g hg hid =>
      hinj f ((hmem f).mp hf) g ((hmem g).mp hg) hid
  · exact absurd (hinj f ((hdelivered f).mp hf) g ((hdelivered g).mp hg) hid) hne

omit [PyRuntime] [TotalSeconds] in
/-- The positions of a snapshot are those on record, by symbol. -/
theorem positions_of_accountSnapshot {context : DecimalContext} {now : Moment}
    {snapshot : AccountSnapshot} (h : adapter.accountSnapshot context now = .ok snapshot) :
    snapshot.positions = sortedBy Position.symbol adapter.positions.values := by
  unfold accountSnapshot at h
  simp only [Fallible.bind_eq_ok_iff] at h
  obtain ⟨_, -, _, -, _, -, _, -, h⟩ := h
  have hcreate := Fallible.mapError_eq_ok_iff.mp h
  unfold AccountSnapshot.create at hcreate
  simp only [Fallible.bind_eq_ok_iff] at hcreate
  obtain ⟨_, -, _, -, _, -, _, -, hcreate⟩ := hcreate
  cases hcreate
  rfl

/-- After calls of which each is in turn, every delivery of the fills rebuilds the positions
that the account reports. -/
theorem applyFills_rebuilds {config : BrokerSessionConfig}
    {qualification : Option QualificationDecision} {accountIdDigest : String} {openingCash : ℚ}
    {opened : PaperBrokerAdapter}
    (h : create config qualification accountIdDigest openingCash = .ok opened) {calls : List Call}
    (hturn : ∀ before call rest, calls = before ++ call :: rest →
      (opened.after .exact before).InTurn call)
    {delivered : List Fill}
    (hdelivered : ∀ f, f ∈ delivered ↔ f ∈ (opened.after .exact calls).fills)
    {now : Moment} {snapshot : AccountSnapshot}
    (hsnapshot : (opened.after .exact calls).accountSnapshot .exact now = .ok snapshot) :
    applyFillsIdempotently .exact delivered [] = .ok snapshot.positions := by
  obtain ⟨hsound, -⟩ := sound_of_create h
  obtain ⟨hopened, hempty⟩ := traced_of_create h
  have htraced := traced_after hsound hopened calls
  have hconverges := converges_after hsound hopened (hempty ▸ fun _ => rfl) hturn
  obtain ⟨unique, hunique, hsorted⟩ := uniqueFills_of_delivered htraced.nodup hdelivered
  obtain ⟨book, hbook, hentries⟩ := foldlM_applyFill_get? (openingBook [])
    (sortedBy Fill.fillId (opened.after .exact calls).fills)
  have hentry : ∀ symbol,
      book.get? symbol = entryOf (opened.after .exact calls).positions symbol := by
    intro symbol
    have hfilter : fillsOf symbol (sortedBy Fill.fillId (opened.after .exact calls).fills) =
        sortedBy Fill.fillId (fillsOf symbol (opened.after .exact calls).fills) :=
      filter_sortedBy fun f hf g hg hid => List.inj_on_of_nodup_map htraced.nodup hf hg hid
    rw [hentries, hfilter, htraced.entry, ← hconverges]
    rfl
  rw [applyFillsIdempotently, hunique, Fallible.ok_bind, hsorted, hbook, decimal_ok,
    Fallible.ok_bind, positions_of_accountSnapshot hsnapshot]
  exact positionsOf_eq_ok_sortedBy htraced.filed hentry

end Steps

/-! ## Sample runs -/

theorem quantityEpsilon_lt_one : quantityEpsilon < 1 := by norm_num [quantityEpsilon]

/-- A purchase of one share. -/
def buyOne (clientOrderId : String) (price : ℚ) (hid : isClientOrderId clientOrderId = true)
    (hprice : 0 < price) : Call :=
  sampleSubmission clientOrderId .buy 1 price hid quantityEpsilon_lt_one hprice

/-- A sale of one share and a millionth. -/
def sellMore (clientOrderId : String) (hid : isClientOrderId clientOrderId = true) : Call :=
  sampleSubmission clientOrderId .sell (1 + 1 / 1000000) 100 hid
    (by norm_num [quantityEpsilon]) hundred_pos

/-- Two positions that are opened and closed with a millionth to spare. -/
def closings : List Call :=
  [.connect fun _ => none, buyOne "o1" 100 (by decide +kernel) hundred_pos, sellMore "o2" (by decide),
    buyOne "o3" 100 (by decide) hundred_pos, sellMore "o4" (by decide)]

open Platform ExactSeconds in
/-- What two closings remove adds up to more than the tolerance. -/
theorem abs_reported_sub_closings :
    ¬ ∀ opened : PaperBrokerAdapter, ∀ config qualification accountIdDigest openingCash,
      create config qualification accountIdDigest openingCash = .ok opened →
      ∀ calls symbol, |(opened.after .exact calls).reported symbol -
        ((fillsOf symbol (opened.after .exact calls).fills).map Fill.signed).sum| ≤
          quantityEpsilon := by
  intro hall
  have hbound := hall sampleAdapter _ _ _ _ create_sampleAdapter closings "AAPL"
  revert hbound
  decide +kernel

open Platform ExactSeconds in
/-- The two closings stay within the tolerance for every two fills. -/
theorem abs_reported_sub_le_closings :
    let fills := fillsOf "AAPL" (sampleAdapter.after .exact closings).fills
    |(sampleAdapter.after .exact closings).reported "AAPL" - (fills.map Fill.signed).sum| ≤
      quantityEpsilon * (fills.length / 2 : ℕ) :=
  abs_reported_sub_le create_sampleAdapter closings "AAPL"

/-- Two purchases. -/
def purchases : List Call :=
  [.connect fun _ => none, buyOne "o1" 100 (by decide +kernel) hundred_pos,
    buyOne "o2" 200 (by decide) (by norm_num)]

open Platform ExactSeconds in
theorem inTurn_purchases (before : List Call) (call : Call) (rest : List Call)
    (h : purchases = before ++ call :: rest) :
    (sampleAdapter.after .exact before).InTurn call := by
  obtain _ | ⟨first, _ | ⟨second, _ | ⟨third, before⟩⟩⟩ := before
  · cases h
    exact trivial
  · cases h
    exact fun _ _ _ => .inr (by decide)
  · cases h
    exact fun _ _ _ => .inr (by decide +kernel)
  · simp [purchases] at h

open Platform ExactSeconds in
/-- Two purchases that are delivered backwards and again. -/
theorem applyFills_rebuilds_purchases :
    let adapter := sampleAdapter.after .exact purchases
    ∃ snapshot, adapter.accountSnapshot .exact (.aware 0) = .ok snapshot ∧
      applyFillsIdempotently .exact (adapter.fills.reverse ++ adapter.fills) [] =
        .ok snapshot.positions := by
  intro adapter
  have hdelivered : ∀ f, f ∈ adapter.fills.reverse ++ adapter.fills ↔ f ∈ adapter.fills := by simp
  cases hsnapshot : adapter.accountSnapshot .exact (.aware 0) with
  | error e =>
      have hok : (adapter.accountSnapshot .exact (.aware 0)).toBool = true := by decide +kernel
      rw [hsnapshot] at hok
      cases hok
  | ok snapshot =>
      exact ⟨snapshot, rfl, applyFills_rebuilds create_sampleAdapter inTurn_purchases hdelivered
        hsnapshot⟩

/-- Nine purchases, the first at half the price of the others, and a sale. -/
def tenFills : List Call :=
  [.connect fun _ => none, buyOne "o1" 100 (by decide +kernel) hundred_pos,
    buyOne "o2" 200 (by decide) (by norm_num), buyOne "o3" 200 (by decide) (by norm_num),
    buyOne "o4" 200 (by decide) (by norm_num), buyOne "o5" 200 (by decide) (by norm_num),
    buyOne "o6" 200 (by decide) (by norm_num), buyOne "o7" 200 (by decide) (by norm_num),
    buyOne "o8" 200 (by decide) (by norm_num), buyOne "o9" 200 (by decide) (by norm_num),
    sampleSubmission "o10" .sell 1 200 (by decide) quantityEpsilon_lt_one (by norm_num)]

/-- The average entry prices of some positions. -/
def entryPrices {ε : Type} (positions : Except ε (List Position)) : Option (List ℚ) :=
  positions.toOption.map fun items => items.map Position.averageEntryPrice

open Platform ExactSeconds in
/-- In the text order the tenth fill sells what the first one bought, so the rest cost more. -/
theorem applyFills_not_rebuilt :
    ¬ ∀ opened : PaperBrokerAdapter, ∀ config qualification accountIdDigest openingCash,
      create config qualification accountIdDigest openingCash = .ok opened →
      ∀ calls delivered, (∀ f, f ∈ delivered ↔ f ∈ (opened.after .exact calls).fills) →
        ∀ now snapshot, (opened.after .exact calls).accountSnapshot .exact now = .ok snapshot →
          applyFillsIdempotently .exact delivered [] = .ok snapshot.positions := by
  intro hall
  have hrebuilt := hall sampleAdapter _ _ _ _ create_sampleAdapter tenFills
    (sampleAdapter.after .exact tenFills).fills (fun _ => Iff.rfl) (.aware 0)
  have hreported : entryPrices (((sampleAdapter.after .exact tenFills).accountSnapshot .exact
      (.aware 0)).map AccountSnapshot.positions) = some [1700 / 9] := by decide +kernel
  have hreplayed : entryPrices (applyFillsIdempotently .exact
      (sampleAdapter.after .exact tenFills).fills []) = some [200] := by decide +kernel
  cases hsnapshot : (sampleAdapter.after .exact tenFills).accountSnapshot .exact (.aware 0) with
  | error e =>
      rw [hsnapshot] at hreported
      cases hreported
  | ok snapshot =>
      rw [hsnapshot] at hreported
      rw [hrebuilt snapshot hsnapshot] at hreplayed
      have hprices := Option.some.inj (hreported.symm.trans hreplayed)
      revert hprices
      decide +kernel

end PaperBrokerAdapter

end SignalFoundry.Broker
