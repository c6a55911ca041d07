import SignalFoundry.Execution.Events.Codec
import SignalFoundry.Library.Json.RoundTrip
import SignalFoundry.Library.Platform

/-!
# The canonical codec

Encoding an event and decoding the bytes gives the event back. The document of
an event is writable JSON, so it is parsed to itself with its members sorted; a
decoder that reads a sorted object field by field finds what was written; and a
constructor returns the checked fields it is given.
-/

namespace SignalFoundry

open Fallible Json

/-- An integer below the ceilings of a coordinate has few digits. -/
theorem length_toDigits_le {n maximum : ℕ} (h : n ≤ maximum) (hmax : maximum ≤ maxBarIndex) :
    (Nat.toDigits 10 n).length ≤ maxIntegerDigits := by
  have hlt : n < 10 ^ 8 := lt_of_le_of_lt (h.trans hmax) (by decide)
  have hlength : (Nat.toDigits 10 n).length ≤ 8 :=
    (Nat.length_toDigits_le_iff (by decide) (by decide)).mpr hlt
  exact hlength.trans (by decide)

section Codec

variable {F : Type} [PyRuntime]

/-! ## Reading a sorted object -/

theorem uniqueObjectFrom_eq_ok (members rest : List (String × Json F)) (seen : List String)
    (h : (rest.map Prod.fst).Nodup) (hfresh : ∀ k ∈ rest.map Prod.fst, k ∉ seen) :
    uniqueObject.uniqueObjectFrom members seen rest = .ok (.obj members) := by
  induction rest generalizing seen with
  | nil => rfl
  | cons m rest ih =>
      obtain ⟨k, v⟩ := m
      rw [List.map_cons, List.nodup_cons] at h
      rw [uniqueObject.uniqueObjectFrom, if_neg (hfresh k (by simp))]
      refine ih (k :: seen) h.2 fun j hj hmem => ?_
      rcases List.mem_cons.mp hmem with rfl | hmem
      · exact h.1 hj
      · exact hfresh j (List.mem_cons_of_mem k hj) hmem

theorem keepsPairs_eventHooks : KeepsPairs (eventHooks : Hooks F ExecutionEventError) :=
  fun members h => uniqueObjectFrom_eq_ok members members [] h (by simp)

theorem exactKeys_sortedDict {members : List (String × Json F)} {expected : List String}
    (h : members.map Prod.fst = expected) (name : String) :
    exactKeys (.obj (sortedDict members)) expected name = .ok (sortedDict members) := by
  have hperm := perm_keys_sortedDict members
  have hmissing : (expected.filter fun key =>
      !(((sortedDict members).map Prod.fst).contains key)) = [] := by
    rw [List.filter_eq_nil_iff]
    intro k hk
    have hmem : k ∈ (sortedDict members).map Prod.fst := hperm.mem_iff.mpr (h ▸ hk)
    simpa using hmem
  have hunexpected : (((sortedDict members).map Prod.fst).filter fun key =>
      !(expected.contains key)) = [] := by
    rw [List.filter_eq_nil_iff]
    intro k hk
    have hmem : k ∈ expected := h ▸ hperm.mem_iff.mp hk
    simpa using hmem
  simp only [exactKeys, hmissing, hunexpected]
  rw [refuseIf_of_not (by simp), ok_bind]
  rfl

omit [PyRuntime] in
theorem field_sortedDict {members : List (String × Json F)}
    (h : (members.map Prod.fst).Nodup) (key : String) :
    field (sortedDict members) key = (field members key).sorted := by
  rw [field, lookup_sortedDict h, field]
  cases members.lookup key with
  | none => rw [Option.map_none, Option.getD_none, sorted_null]
  | some v => rfl

omit [PyRuntime] in
theorem field_cons (k : String) (v : Json F) (members : List (String × Json F)) (key : String) :
    field ((k, v) :: members) key = if key = k then v else field members key := by
  by_cases h : key = k
  · simp [field, h]
  · have hne : (key == k) = false := by simpa using h
    simp [field, List.lookup_cons, hne, h]

theorem dateFromJson_isoformat (date : PyDate) (name : String) :
    dateFromJson (.str date.isoformat : Json F) name = .ok date := by
  simp [dateFromJson]

theorem coordinateFromDict_sorted (coordinate : EventCoordinate) :
    coordinateFromDict (.obj (sortedDict [
      ("bar_index", .int coordinate.barIndex.1),
      ("ordinal", .int coordinate.ordinal.1),
      ("phase", .str coordinate.phase.lowerName),
      ("session", .str coordinate.session.isoformat)]) : Json F) = .ok coordinate := by
  have hphase : TextEnum.find? EventPhase (PyText.upper coordinate.phase.lowerName) =
      some coordinate.phase := by
    rw [EventPhase.upper_lowerName]
    exact TextEnum.find?_name coordinate.phase
  unfold coordinateFromDict
  rw [exactKeys_sortedDict, ok_bind]
  · simp [field_sortedDict, field_cons, hphase, dateFromJson_isoformat, EventCoordinate.create]
  · rfl

/-! ## Payloads -/

section Payloads

variable [PyFloat F]

omit [PyRuntime] [PyFloat F] in
@[simp] theorem sorted_optionalText {valid : String → Bool} (text : Option (CheckedText valid)) :
    (optionalText text : Json F).sorted = optionalText text := by
  cases text <;> simp [optionalText]

omit [PyRuntime] in
@[simp] theorem sorted_optionalFloat {bound : FloatBound} (x : Option (BoundedFloat F bound)) :
    (optionalFloat x).sorted = optionalFloat x := by
  cases x <;> simp [optionalFloat]

omit [PyRuntime] in
theorem sorted_symbolEntries {bound : FloatBound} (entries : SymbolEntries F bound) :
    entries.toJson.sorted = entries.toJson := by
  have hitems : ∀ es : List (SymbolEntry F bound),
      sortedItems (es.map fun e => (.arr [.str e.1.1, .float e.2.1] : Json F)) =
        es.map fun e => .arr [.str e.1.1, .float e.2.1] := by
    intro es
    induction es with
    | nil => rfl
    | cons e es ih => simp [sortedItems, sorted, ih]
  rw [SymbolEntries.toJson, sorted, hitems]

omit [PyRuntime] in
theorem pairTuple_symbolEntries {bound : FloatBound} (entries : SymbolEntries F bound)
    (name : String) : pairTuple entries.toJson name = .ok (SymbolEntries.raw entries) := by
  have hpairs : ∀ (es : List (SymbolEntry F bound)) (index : ℕ),
      pairsFrom name index (es.map fun e => (.arr [.str e.1.1, .float e.2.1] : Json F)) =
        .ok (es.map fun e => (.str e.1.1, .float e.2.1)) := by
    intro es
    induction es with
    | nil => exact fun _ => rfl
    | cons e es ih => simp [pairsFrom, ih]
  rw [SymbolEntries.toJson, pairTuple, hpairs, SymbolEntries.raw]

variable [FloatText F]

theorem feesFromJson_sorted (fees : Fees F) : feesFromJson fees.toJson.sorted = .ok fees.1 := by
  have hfees : ∀ (cs : List (FeeComponent F)) (index : ℕ),
      feesFrom index (sortedItems (cs.map fun fee => (.obj [("amount", .float fee.amount.1),
        ("category", .str fee.category.value)] : Json F))) = .ok cs := by
    intro cs
    induction cs with
    | nil => exact fun _ => rfl
    | cons fee cs ih =>
        intro index
        have hcategory : checkedName FeeCategory "fill fee category is unknown"
            (.str fee.category.value : Json F) = .ok fee.category :=
          checkedName_str _ fee.category
        rw [List.map_cons, sortedItems, sorted_obj, feesFrom, exactKeys_sortedDict, ok_bind]
        · simp [field_sortedDict, field_cons, hcategory, FeeComponent.create, ih]
        · rfl
  rw [Fees.toJson, sorted, feesFromJson, hfees]

theorem map_fst_toDict (payload : EventPayload F) :
    payload.toDict.map Prod.fst = payloadKeys payload.payloadType := by
  cases payload <;> rfl

theorem nodup_keys_toDict (payload : EventPayload F) :
    (payload.toDict.map Prod.fst).Nodup := by
  rw [map_fst_toDict]
  cases payload.payloadType <;> decide

/-! ### Constructors on checked fields -/

omit [PyRuntime] in
theorem checkedLimitPrice_self (payload : OrderSubmitted F) :
    checkedLimitPrice payload.orderType (optionalFloat payload.limitPrice) =
      .ok payload.limitPrice := by
  have hsome := payload.limitPrice_isSome
  cases horder : payload.orderType with
  | market =>
      cases hprice : payload.limitPrice with
      | none => rfl
      | some price => simp [horder, hprice] at hsome
  | limit =>
      cases hprice : payload.limitPrice with
      | none => simp [horder, hprice] at hsome
      | some price =>
          rw [optionalFloat, checkedLimitPrice]
          · simp
          · simp

omit [PyRuntime] [FloatText F] in
theorem checkedCurrency_self (payload : CashChargeAccrued F) :
    checkedCurrency (.str payload.currency.1 : Json F) = .ok payload.currency := by
  obtain ⟨code, rfl⟩ := payload.currency
  have hcode : EventText.isCurrency "USD" = true := by decide
  simp [checkedCurrency, hcode]

theorem TargetDecided.create_self (payload : TargetDecided F) :
    TargetDecided.create (.str payload.targetId.1) (.str payload.portfolioId.1)
      (.str payload.solverId.1) payload.eligibleSession (.float payload.cashWeight.1)
      (SymbolEntries.raw payload.weights) (.str payload.configurationDigest.1)
      (.str payload.dataDigest.1) (.str payload.problemDigest.1) = .ok payload := by
  have hlength : ¬ (SymbolEntries.raw payload.weights).length > maxTargetAssets := by
    rw [SymbolEntries.raw, List.length_map]
    exact not_lt.mpr payload.weights_length
  simp only [TargetDecided.create, identifier_str, finiteFloat_float, digest_str, ok_bind,
    refuseIf_of_not hlength, normalizedEntries_raw, require_of payload.weights_length,
    attest_of payload.reconciled, pure_eq_ok]

theorem PortfolioMarked.create_self (payload : PortfolioMarked F) :
    PortfolioMarked.create (.str payload.markId.1) (.str (TextEnum.name payload.markType))
      (SymbolEntries.raw payload.prices) (.float payload.cash.1) (.float payload.holdingsValue.1)
      (.float payload.accruedCharges.1) (.float payload.equity.1) = .ok payload := by
  have hlength : ¬ (SymbolEntries.raw payload.prices).length > maxMarkPrices := by
    rw [SymbolEntries.raw, List.length_map]
    exact not_lt.mpr payload.prices_length
  simp only [PortfolioMarked.create, identifier_str, checkedName_str, finiteFloat_float, ok_bind,
    refuseIf_of_not hlength, normalizedEntries_raw, require_of payload.prices_length,
    attest_of payload.reconciled, pure_eq_ok]

omit [PyRuntime] in
theorem OrderSubmitted.create_self (payload : OrderSubmitted F) :
    OrderSubmitted.create (.str payload.orderId.1) (.str payload.symbol.1)
      (.str (TextEnum.name payload.side)) (.float payload.quantity.1)
      (.str (TextEnum.name payload.orderType)) (.str (TextEnum.name payload.timeInForce))
      (optionalFloat payload.limitPrice) = .ok payload := by
  simp only [OrderSubmitted.create, identifier_str, marketSymbol_str, checkedName_str,
    finiteFloat_float, checkedLimitPrice_self, require_of payload.limitPrice_isSome, ok_bind,
    pure_eq_ok]

omit [PyRuntime] in
theorem FillApplied.create_self (payload : FillApplied F) :
    FillApplied.create (.str payload.fillId.1) (.str payload.orderId.1) (.str payload.symbol.1)
      (.str (TextEnum.name payload.side)) (.float payload.quantity.1)
      (.float payload.referencePrice.1) (.float payload.price.1) payload.fees.1 =
        .ok payload := by
  simp only [FillApplied.create, identifier_str, marketSymbol_str, checkedName_str,
    finiteFloat_float, ok_bind, attest_of payload.notional_bounded,
    refuseIf_of_not (not_lt.mpr payload.fees_length), normalizedFees_self,
    require_of payload.fees_length, attest_of payload.fees_bounded,
    pure_eq_ok]

/-- The decoder returns the payload whose members it is given. -/
theorem payloadFromFields_sortedDict (payload : EventPayload F) :
    payloadFromFields payload.payloadType (sortedDict payload.toDict) = .ok payload := by
  have hfield := fun key => field_sortedDict (nodup_keys_toDict payload) key
  cases payload with
  | signalAvailable payload =>
      simp only [payloadFromFields, EventPayload.payloadType, hfield]
      simp only [EventPayload.toDict, field_cons, String.reduceEq, if_true, if_false, sorted_str,
        SignalAvailable.create, identifier_str, digest_str, ok_bind, pure_eq_ok]
  | targetDecided payload =>
      simp only [payloadFromFields, EventPayload.payloadType, hfield]
      simp only [EventPayload.toDict, field_cons, String.reduceEq, if_true, if_false, sorted_str,
        sorted_float, sorted_symbolEntries, dateFromJson_isoformat, pairTuple_symbolEntries,
        ok_bind, TargetDecided.create_self, pure_eq_ok]
  | orderSubmitted payload =>
      simp only [payloadFromFields, EventPayload.payloadType, hfield]
      simp only [EventPayload.toDict, field_cons, String.reduceEq, if_true, if_false, sorted_str,
        sorted_float, sorted_optionalFloat, OrderSubmitted.create_self, ok_bind, pure_eq_ok]
  | orderAccepted payload =>
      simp only [payloadFromFields, EventPayload.payloadType, hfield]
      simp only [EventPayload.toDict, field_cons, String.reduceEq, if_true, if_false, sorted_str,
        sorted_float, OrderAccepted.create, identifier_str, finiteFloat_float, ok_bind,
        pure_eq_ok]
  | orderRejected payload =>
      simp only [payloadFromFields, EventPayload.payloadType, hfield]
      simp only [EventPayload.toDict, field_cons, String.reduceEq, if_true, if_false, sorted_str,
        OrderRejected.create, identifier_str, reason_str, ok_bind, pure_eq_ok]
  | fillApplied payload =>
      simp only [payloadFromFields, EventPayload.payloadType, hfield]
      simp only [EventPayload.toDict, field_cons, String.reduceEq, if_true, if_false, sorted_str,
        sorted_float, feesFromJson_sorted, ok_bind, FillApplied.create_self, pure_eq_ok]
  | orderCancelled payload =>
      simp only [payloadFromFields, EventPayload.payloadType, hfield]
      simp only [EventPayload.toDict, field_cons, String.reduceEq, if_true, if_false, sorted_str,
        sorted_float, OrderCancelled.create, identifier_str, reason_str, finiteFloat_float,
        ok_bind, pure_eq_ok]
  | cashChargeAccrued payload =>
      simp only [payloadFromFields, EventPayload.payloadType, hfield]
      simp only [EventPayload.toDict, field_cons, String.reduceEq, if_true, if_false, sorted_str,
        sorted_float, CashChargeAccrued.create, identifier_str, checkedName_str,
        finiteFloat_float, checkedCurrency_self, ok_bind, pure_eq_ok]
  | portfolioMarked payload =>
      simp only [payloadFromFields, EventPayload.payloadType, hfield]
      simp only [EventPayload.toDict, field_cons, String.reduceEq, if_true, if_false, sorted_str,
        sorted_float, sorted_symbolEntries, pairTuple_symbolEntries, ok_bind,
        PortfolioMarked.create_self, pure_eq_ok]
  | engineHalted payload =>
      simp only [payloadFromFields, EventPayload.payloadType, hfield]
      simp only [EventPayload.toDict, field_cons, String.reduceEq, if_true, if_false, sorted_str,
        sorted_bool, EngineHalted.create, boundedText_str, reason_str, ok_bind, pure_eq_ok]

/-! ## Writable documents -/

section Writable

variable [LawfulFloatText F]

omit [PyRuntime] in
@[simp] theorem writable_boundedFloat {bound : FloatBound} (x : BoundedFloat F bound) :
    (float x.1).Writable :=
  writable_float x.2.isFinite

omit [PyRuntime] [PyFloat F] [LawfulFloatText F] in
@[simp] theorem writable_str (s : String) : (str s : Json F).Writable := trivial

omit [PyRuntime] [PyFloat F] [LawfulFloatText F] in
@[simp] theorem writable_bool (b : Bool) : (bool b : Json F).Writable := trivial

omit [PyRuntime] [PyFloat F] [LawfulFloatText F] in
theorem writable_optionalText {valid : String → Bool} (text : Option (CheckedText valid)) :
    (optionalText text : Json F).Writable := by
  cases text <;> trivial

omit [PyRuntime] in
theorem writable_optionalFloat {bound : FloatBound} (x : Option (BoundedFloat F bound)) :
    (optionalFloat x).Writable := by
  cases x with
  | none => trivial
  | some x => exact writable_boundedFloat x

omit [PyRuntime] in
theorem writable_symbolEntries {bound : FloatBound} (entries : SymbolEntries F bound) :
    entries.toJson.Writable := by
  rw [SymbolEntries.toJson, Writable]
  generalize entries.1 = es
  induction es with
  | nil => trivial
  | cons e es ih => exact ⟨⟨trivial, writable_boundedFloat e.2, trivial⟩, ih⟩

omit [PyRuntime] in
theorem writable_fees (fees : Fees F) : fees.toJson.Writable := by
  rw [Fees.toJson, Writable]
  generalize fees.1 = cs
  induction cs with
  | nil => trivial
  | cons fee cs ih =>
      exact ⟨⟨by simp, writable_boundedFloat fee.amount, trivial, trivial⟩, ih⟩

theorem writable_toDict (payload : EventPayload F) : (obj payload.toDict).Writable := by
  refine ⟨nodup_keys_toDict payload, ?_⟩
  cases payload <;>
    simp [EventPayload.toDict, WritableMembers, writable_symbolEntries, writable_fees,
      writable_optionalFloat]

theorem writable_document (event : EventFields F) : event.document.Writable := by
  refine ⟨?_, trivial, writable_optionalText _, ⟨by simp, ?_, ?_, trivial, trivial, trivial⟩,
    trivial, trivial, trivial, writable_toDict _, trivial, trivial, trivial⟩
  · show (["event_id", "causation_id", "coordinate", "correlation_id", "entity_id", "event_type",
      "payload", "run_id", "schema_version"] : List String).Nodup
    decide
  · exact length_toDigits_le event.coordinate.barIndex.2 le_rfl
  · exact length_toDigits_le event.coordinate.ordinal.2 (by decide)

end Writable

/-! ## Events -/

namespace ExecutionEvent

omit [PyRuntime] [PyFloat F] [FloatText F] in
theorem checkedCausation_optionalText (causationId : Option Digest) :
    checkedCausation (optionalText causationId : Json F) = .ok causationId := by
  cases causationId with
  | none => rfl
  | some cause => simp [optionalText, checkedCausation]

/-- The constructor returns the event whose fields it is given. -/
theorem create_self (event : ExecutionEvent F) :
    create (.str event.runId.1) (.str event.correlationId.1) (.str event.entityId.1)
      event.coordinate event.payload (optionalText event.causationId) = .ok event := by
  simp only [create, identifier_str, checkedCausation_optionalText, ok_bind,
    require_of event.phase_eq, require_of event.eligible, require_of event.size_le, pure_eq_ok]

theorem payloadFromDict_sorted (payload : EventPayload F) :
    payloadFromDict (.str payload.payloadType.eventType) (obj payload.toDict).sorted =
      .ok payload := by
  have htype : checkedName PayloadType "event_type is unknown"
      (.str payload.payloadType.eventType : Json F) = .ok payload.payloadType :=
    checkedName_str _ payload.payloadType
  rw [payloadFromDict, htype, ok_bind, sorted_obj, exactKeys_sortedDict (map_fst_toDict payload),
    ok_bind, payloadFromFields_sortedDict]

/-- The sorted document of an event is decoded to the event. -/
theorem fromDocument_sorted (event : ExecutionEvent F) :
    fromDocument event.document.sorted =
      .ok (event, ⟨event.eventId, event.isDigest_eventId⟩) := by
  have hkeys : (("event_id", (.str event.eventId : Json F)) :: event.body).map Prod.fst =
      envelopeKeys := rfl
  have hnodup : ((("event_id", (.str event.eventId : Json F)) :: event.body).map
      Prod.fst).Nodup := by
    rw [hkeys]
    decide
  have hfield := field_sortedDict hnodup
  have hexact := exactKeys_sortedDict hkeys "event envelope"
  rw [EventFields.document, sorted_obj, fromDocument]
  simp only [hexact, ok_bind, hfield]
  simp only [EventFields.body, field_cons, String.reduceEq, if_true, if_false, sorted_str]
  have hdigest := digest_str (F := F) ⟨event.eventId, event.isDigest_eventId⟩ "event_id"
  rw [refuseIf_of_not (by simp), ok_bind, hdigest, ok_bind, sorted_obj,
    coordinateFromDict_sorted, ok_bind, EventFields.eventType, payloadFromDict_sorted, ok_bind,
    sorted_optionalText, create_self, ok_bind, pure_eq_ok]

variable [LawfulFloatText F]

theorem canonicalBytes_ne_nil (event : ExecutionEvent F) : event.canonicalBytes ≠ [] := by
  intro h
  obtain ⟨c, cs, hcs, -⟩ := starts_write (writable_sorted (writable_document event.toEventFields))
  rw [EventFields.canonicalBytes, canonicalJsonBytes] at h
  have hempty : event.document.dumps = "" := PyText.encodeUtf8_injective (h.trans rfl)
  have hchars := congrArg String.toList hempty
  rw [dumps, String.toList_ofList, hcs] at hchars
  cases hchars

/-- Decoding the canonical bytes of an event gives the event. -/
theorem fromCanonicalBytes_canonicalBytes (event : ExecutionEvent F) :
    fromCanonicalBytes event.canonicalBytes = .ok event := by
  have hsize : ¬ (event.canonicalBytes = [] ∨ event.canonicalBytes.length > maxCanonicalBytes) :=
    not_or.mpr ⟨event.canonicalBytes_ne_nil, not_lt.mpr event.size_le⟩
  have hloads := loads_dumps (eventHooks : Hooks F ExecutionEventError) keepsPairs_eventHooks
    (writable_document event.toEventFields)
  have hdecode : PyText.decodeUtf8 event.canonicalBytes = some event.document.dumps := by
    rw [EventFields.canonicalBytes, canonicalJsonBytes, PyText.decodeUtf8_encodeUtf8]
  rw [fromCanonicalBytes, refuseIf_of_not hsize, ok_bind]
  simp only [hdecode, hloads, ok_bind, fromDocument_sorted]
  rw [refuseIf_of_not (by simp), ok_bind, refuseIf_of_not (by simp), ok_bind, pure_eq_ok]

theorem canonicalBytes_injective :
    Function.Injective fun event : ExecutionEvent F => event.canonicalBytes := by
  intro a b h
  have hread := congrArg (fromCanonicalBytes (F := F)) h
  simpa only [fromCanonicalBytes_canonicalBytes, Except.ok.injEq] using hread

/-- The canonical codec: an event is decoded from its bytes, decoded bytes are
those of the event, and the accepted bytes are those of some event. -/
theorem canonical_codec :
    (∀ event : ExecutionEvent F, fromCanonicalBytes event.canonicalBytes = .ok event) ∧
      (∀ (value : List UInt8) (event : ExecutionEvent F),
        fromCanonicalBytes value = .ok event → event.canonicalBytes = value) ∧
      { value : List UInt8 | ∃ event : ExecutionEvent F, fromCanonicalBytes value = .ok event } =
        Set.range fun event : ExecutionEvent F => event.canonicalBytes := by
  refine ⟨fromCanonicalBytes_canonicalBytes, fun _ _ => canonicalBytes_of_fromCanonicalBytes, ?_⟩
  ext value
  constructor
  · rintro ⟨event, hevent⟩
    exact ⟨event, canonicalBytes_of_fromCanonicalBytes hevent⟩
  · rintro ⟨event, rfl⟩
    exact ⟨event, fromCanonicalBytes_canonicalBytes event⟩

end ExecutionEvent

end Payloads

end Codec

open Platform in
/-- The codec on the concrete platform. -/
theorem ExecutionEvent.canonical_codec_platform :
    (∀ event : ExecutionEvent ℚ, ExecutionEvent.fromCanonicalBytes event.canonicalBytes = .ok event) ∧
      (∀ (value : List UInt8) (event : ExecutionEvent ℚ),
        ExecutionEvent.fromCanonicalBytes value = .ok event → event.canonicalBytes = value) ∧
      { value : List UInt8 | ∃ event : ExecutionEvent ℚ, ExecutionEvent.fromCanonicalBytes value = .ok event } =
        Set.range fun event : ExecutionEvent ℚ => event.canonicalBytes :=
  ExecutionEvent.canonical_codec

section Digests

variable [PyRuntime] {F : Type} [PyFloat F] [FloatText F]

omit [PyRuntime] in
theorem encodeUtf8_ofList (text : List Char) :
    PyText.encodeUtf8 (String.ofList text) = text.flatMap String.utf8EncodeChar := by
  simp [PyText.encodeUtf8, List.utf8Encode]

/-- The bytes of a document, from its characters. -/
def jsonBytes (members : List (String × Json F)) : List UInt8 :=
  (Json.obj members).sorted.write.flatMap String.utf8EncodeChar

/-- Whether an envelope has a given identifier and fits into its size. -/
def EventFields.HasId (event : EventFields F) (eventId : String) : Prop :=
  ((PyRuntime.sha256 (jsonBytes event.body)).flatMap fun b =>
      [PyText.hexDigit (b.toNat / 16), PyText.hexDigit b.toNat]) = eventId.toList ∧
    (jsonBytes (("event_id", .str eventId) :: event.body)).length ≤ maxCanonicalBytes

instance (event : EventFields F) (eventId : String) : Decidable (event.HasId eventId) :=
  inferInstanceAs (Decidable (_ ∧ _))

theorem EventFields.HasId.eventId_eq {event : EventFields F} {eventId : String}
    (h : event.HasId eventId) : event.eventId = eventId := by
  rw [EventFields.eventId, canonicalJsonBytes, Json.dumps, encodeUtf8_ofList, PyText.hexText,
    ← String.ofList_toList (s := eventId)]
  exact congrArg String.ofList h.1

theorem EventFields.HasId.size_le {event : EventFields F} {eventId : String}
    (h : event.HasId eventId) : event.canonicalBytes.length ≤ maxCanonicalBytes := by
  rw [EventFields.canonicalBytes, EventFields.document, h.eventId_eq, canonicalJsonBytes,
    Json.dumps, encodeUtf8_ofList]
  exact h.2

end Digests

open Platform in
/-- The operator of the run `run` stops it on its first bar. -/
def operatorHaltFields : EventFields ℚ where
  runId := ⟨"run", by decide⟩
  correlationId := ⟨"run", by decide⟩
  entityId := ⟨"engine", by decide⟩
  coordinate := {
    session := .date 2024 1 2
    barIndex := ⟨0, Nat.zero_le _⟩
    phase := .control
    ordinal := ⟨0, Nat.zero_le _⟩ }
  payload := .engineHalted ⟨⟨"operator", by decide⟩, ⟨"stop", by decide⟩, false⟩
  causationId := none

open Platform in
set_option maxRecDepth 100000 in
theorem hasId_operatorHaltFields : operatorHaltFields.HasId
    "8464e12f8deb8a22fc8748b37de129043d0da9087f5cc22021761f9d9006cb61" := by
  decide +kernel

open Platform in
def operatorHalt : ExecutionEvent ℚ where
  toEventFields := operatorHaltFields
  phase_eq := rfl
  eligible := trivial
  size_le := hasId_operatorHaltFields.size_le

end SignalFoundry
