import SignalFoundry.Lattice.Tracking.CanonicalBytes
import SignalFoundry.Lattice.Tracking.CursorContent
import SignalFoundry.Library.Platform

/-!
# Cursors are read as they were written

An encoder writes the token of the canonical bytes of a content under the domain of
its kind, and a decoder accepts every token that opens to them. Such a token is the
one of the encoder exactly when its segments are spelled as base64url spells them.
-/

namespace Tracking

open Fallible Json

/-! ## Envelopes -/

namespace CursorToken

/-- `token.split(".")`. -/
def segments (token : CursorToken) : List (List Char) := token.text.toList.splitOn '.'

/-- The segments after the version are spelled as base64url spells them: without `+`,
`/` or padding, and with the spare bits of the last character clear. -/
def Spelled (token : CursorToken) : Prop :=
  ∀ segment ∈ token.segments.tail, Base64.Canonical segment

theorem make_eq_ok_iff {text : String} {token : CursorToken} :
    make text = .ok token ↔ token.text = text := by
  constructor
  · intro h
    rw [make, bind_eq_ok_iff] at h
    obtain ⟨⟨bounded, ascii⟩, _, hmade⟩ := h
    rw [← Except.ok.inj hmade]
  · rintro rfl
    rw [make, require_of ⟨token.bounded, token.ascii⟩]
    rfl

theorem segments_eq_iff {token : CursorToken} {parts : List (List Char)} (hne : parts ≠ [])
    (h : ∀ part ∈ parts, '.' ∉ part) :
    token.segments = parts ↔ token.text = String.ofList (['.'].intercalate parts) := by
  constructor
  · rintro rfl
    rw [segments, List.intercalate_splitOn, String.ofList_toList]
  · intro htext
    rw [segments, htext, String.toList_ofList, List.splitOn_intercalate '.' h hne]

end CursorToken

theorem toNat_digit_lt {n : ℕ} (h : n < 64) : (Base64.digit n).toNat < 128 := by
  have hall : ∀ m < 64, (Base64.digit m).toNat < 128 := by decide
  exact hall n h

theorem dot_not_mem_encode (bytes : List UInt8) : '.' ∉ Base64.encode bytes := by
  intro hmem
  obtain ⟨n, hn, hdigit⟩ := Base64.mem_encode hmem
  have hvalue := Base64.value?_digit hn
  rw [hdigit] at hvalue
  exact absurd hvalue (by simp [show Base64.value? '.' = none by decide])

theorem decodeSegment_eq_ok_iff {value : List Char} {maximum : ℕ} {bytes : List UInt8} :
    decodeSegment value maximum = .ok bytes ↔
      (value ≠ [] ∧ value.length ≤ maximum ∧ ∀ c ∈ value, c.toNat < 128) ∧
        Base64.decodeUnpadded value = some bytes := by
  rw [decodeSegment, bind_eq_ok_iff]
  simp only [refuseIf_eq_ok_iff, not_or, not_lt, not_not, exists_const]
  refine and_congr_right fun _ => ?_
  cases Base64.decodeUnpadded value with
  | none => simp
  | some found => simp

theorem decodeSegment_encode {bytes : List UInt8} (hne : bytes ≠ []) {maximum : ℕ}
    (hlength : (4 * bytes.length + 2) / 3 ≤ maximum) :
    decodeSegment (Base64.encode bytes) maximum = .ok bytes := by
  have hpositive := List.length_pos_iff.mpr hne
  have hencoded := Base64.length_encode bytes
  refine decodeSegment_eq_ok_iff.mpr ⟨⟨?_, hencoded ▸ hlength, fun c hc => ?_⟩,
    Base64.decodeUnpadded_encode bytes⟩
  · rw [← List.length_pos_iff]
    omega
  · obtain ⟨n, hn, rfl⟩ := Base64.mem_encode hc
    exact toNat_digit_lt hn

namespace CursorCodec

variable [PyRuntime] {F : Type} (codec : CursorCodec F)

/-- The code over a body under a domain. -/
def signature (domain body : List UInt8) : List UInt8 :=
  Hmac.digest codec.secret (domain ++ body)

/-- The segments that `_encode` joins. -/
def envelope (domain body : List UInt8) : List (List Char) :=
  [cursorVersion, Base64.encode body, Base64.encode (codec.signature domain body)]

/-- A token that opens to a body under a domain. -/
structure Opens (token : CursorToken) (domain body : List UInt8) : Prop where
  segments : ∃ bodyText macText, token.segments = [cursorVersion, bodyText, macText] ∧
    decodeSegment bodyText 768 = .ok body ∧
    decodeSegment macText 64 = .ok (codec.signature domain body)
  bounded : body.length ≤ 512

variable {codec} {token : CursorToken} {domain body : List UInt8}

theorem opens_of_envelope (hne : body ≠ []) (hbounded : body.length ≤ 512)
    (h : token.segments = codec.envelope domain body) : codec.Opens token domain body := by
  have hmac : (codec.signature domain body).length = 32 := Hmac.length_digest _ _
  refine ⟨⟨_, _, h, decodeSegment_encode hne (by omega), decodeSegment_encode ?_ (by omega)⟩,
    hbounded⟩
  rw [← List.length_pos_iff]
  omega

/-- A token that opens is the one that is written exactly when it is spelled so. -/
theorem Opens.segments_eq_iff (h : codec.Opens token domain body) :
    token.segments = codec.envelope domain body ↔ token.Spelled := by
  obtain ⟨bodyText, macText, hsegments, hbody, hmac⟩ := h.segments
  have hbodyText := Base64.encode_eq_iff_canonical (decodeSegment_eq_ok_iff.mp hbody).2
  have hmacText := Base64.encode_eq_iff_canonical (decodeSegment_eq_ok_iff.mp hmac).2
  simp only [CursorToken.Spelled, hsegments, envelope, List.cons.injEq, List.tail_cons,
    List.forall_mem_cons, List.not_mem_nil, false_implies, implies_true, and_true, true_and,
    ← hbodyText, ← hmacText, eq_comm]

/-- One token that opens to one body under two domains shows two messages with one code. -/
theorem Opens.collision {domain' : List UInt8} (h : codec.Opens token domain body)
    (h' : codec.Opens token domain' body) (hne : domain ≠ domain') :
    Hmac.Collision codec.secret (domain ++ body) (domain' ++ body) := by
  obtain ⟨bodyText, macText, hsegments, -, hmac⟩ := h.segments
  obtain ⟨bodyText', macText', hsegments', -, hmac'⟩ := h'.segments
  rw [hsegments] at hsegments'
  simp only [List.cons.injEq, and_true, true_and] at hsegments'
  obtain ⟨rfl, rfl⟩ := hsegments'
  rw [hmac] at hmac'
  exact ⟨fun heq => hne (List.append_cancel_right heq), Except.ok.inj hmac'⟩

theorem Opens.body_unique {domain' body' : List UInt8} (h : codec.Opens token domain body)
    (h' : codec.Opens token domain' body') : body = body' := by
  obtain ⟨bodyText, macText, hsegments, hbody, -⟩ := h.segments
  obtain ⟨bodyText', macText', hsegments', hbody', -⟩ := h'.segments
  rw [hsegments] at hsegments'
  simp only [List.cons.injEq, and_true, true_and] at hsegments'
  obtain ⟨rfl, rfl⟩ := hsegments'
  exact Except.ok.inj (hbody.symm.trans hbody')

variable [PyFloat F] [FloatText F]

theorem encodeToken_eq_ok_iff {payload : Json F} :
    codec.encodeToken domain payload = .ok token ↔ Admitted payload ∧
      (canonicalBytes payload).length ≤ 512 ∧
      token.segments = codec.envelope domain (canonicalBytes payload) := by
  have hparts : ∀ part ∈ codec.envelope domain (canonicalBytes payload), '.' ∉ part := by
    simp only [envelope, List.forall_mem_cons, List.not_mem_nil, false_implies, implies_true,
      and_true]
    exact ⟨by decide, dot_not_mem_encode _, dot_not_mem_encode _⟩
  simp only [encodeToken, bind_eq_ok_iff, canonicalJson_eq_ok_iff, refuseIf_eq_ok_iff, not_lt,
    CursorToken.make_eq_ok_iff, CursorToken.segments_eq_iff (by simp [envelope]) hparts,
    exists_const]
  constructor
  · rintro ⟨_, ⟨hadmitted, rfl⟩, hsize, htext⟩
    exact ⟨hadmitted, hsize, htext⟩
  · rintro ⟨hadmitted, hsize, htext⟩
    exact ⟨_, ⟨hadmitted, rfl⟩, hsize, htext⟩

theorem decodePayload_eq_ok_iff {payload : List (String × Json F)} :
    codec.decodePayload token domain = .ok payload ↔ ∃ body, codec.Opens token domain body ∧
      decodeBoundedBytes body 512 true = .ok (.obj payload) := by
  constructor
  · intro h
    unfold decodePayload at h
    split at h
    · next version bodyText macText hsegments =>
      simp only [bind_eq_ok_iff, refuseIf_eq_ok_iff, not_or, not_lt, not_not, exists_const,
        mapError_eq_ok_iff] at h
      obtain ⟨rfl, body, hbody, mac, hmac, ⟨hbounded, -⟩, rfl, document, hdocument, h⟩ := h
      split at h
      · cases h
        exact ⟨body, ⟨⟨bodyText, macText, hsegments, hbody, hmac⟩, hbounded⟩, hdocument⟩
      · cases h
    · cases h
  · rintro ⟨body, ⟨⟨bodyText, macText, hsegments, hbody, hmac⟩, hbounded⟩, hdocument⟩
    have hlength : (codec.signature domain body).length = 32 := Hmac.length_digest _ _
    unfold decodePayload
    rw [show token.text.toList.splitOn '.' = [cursorVersion, bodyText, macText] from hsegments]
    simp only [hbody, hmac, ok_bind, hdocument, Except.mapError, signature] at hlength ⊢
    rw [refuseIf_of_not (by simp), refuseIf_of_not (by simp [hlength, hbounded]),
      refuseIf_of_not (by simp)]
    rfl

end CursorCodec

/-! ## Contents -/

/-- The values that the encoders write into a payload. -/
def CursorField {F : Type} : Json F → Prop
  | .null => True
  | .int n => 0 ≤ n ∧ n ≤ 2 ^ 63 - 1
  | .str s => (PyText.encodeUtf8 s).length ≤ 512
  | _ => False

namespace CursorField

variable {F : Type}

section

variable [FloatText F]

theorem writable {v : Json F} (h : CursorField v) : v.Writable := by
  cases v with
  | int n =>
      obtain ⟨hnonneg, hbounded⟩ := h
      have hlt : n.natAbs < 10 ^ maxIntegerDigits :=
        (show n.natAbs < 10 ^ 19 by omega).trans_le (Nat.pow_le_pow_right (by decide) (by decide))
      exact (Nat.length_toDigits_le_iff (by decide) (by decide)).mpr hlt
  | float x => exact h.elim
  | arr items => exact h.elim
  | obj members => exact h.elim
  | _ => trivial

end

theorem sorted_eq {v : Json F} (h : CursorField v) : v.sorted = v := by
  cases v with
  | arr items => exact h.elim
  | obj members => exact h.elim
  | _ => simp only [sorted]

theorem nesting_eq {v : Json F} (h : CursorField v) : nesting v = 0 := by
  cases v with
  | arr items => exact h.elim
  | obj members => exact h.elim
  | _ => simp only [nesting]

theorem weight_eq {v : Json F} (h : CursorField v) (w : Weights F) : weight w v = w.scalar v := by
  cases v with
  | arr items => exact h.elim
  | obj members => exact h.elim
  | _ => simp only [weight]

theorem meets [PyFloat F] {v : Json F} (h : CursorField v) {depth : ℕ} (hdepth : depth ≤ 16) :
    Meets frozen depth v := by
  cases v with
  | null => exact ⟨hdepth, trivial⟩
  | int n => exact ⟨hdepth, by have := h.1; omega, h.2⟩
  | str s => exact ⟨hdepth, h.trans (by decide)⟩
  | bool b => exact h.elim
  | float x => exact h.elim
  | arr items => exact h.elim
  | obj members => exact h.elim

end CursorField

theorem length_encodeUtf8_of_isIdentifier {value : String} (h : isIdentifier value = true) :
    (PyText.encodeUtf8 value).length ≤ 512 := by
  have hlength : value.toList.length ≤ 128 := by
    unfold isIdentifier PyText.isToken at h
    split at h
    · cases h
    · next c cs htext =>
      simp only [Bool.and_eq_true, decide_eq_true_eq] at h
      rw [htext, List.length_cons]
      exact Nat.succ_le_succ h.2
  have hbytes := PyText.length_encodeUtf8_ofList_le value.toList
  rw [String.ofList_toList] at hbytes
  omega

namespace CursorContent

variable {F : Type} {content : CursorContent}

theorem field_of_ofText {text : Option String}
    (h : ∀ s ∈ text, (PyText.encodeUtf8 s).length ≤ 512) : CursorField (ofText text : Json F) := by
  cases text with
  | none => trivial
  | some s => exact h s rfl

theorem field_of_mem (h : content.Valid) : ∀ m ∈ content.members F, CursorField m.2 := by
  have hposition : ∀ {snapshot after : ℤ}, ValidPosition snapshot after →
      CursorField (.int after : Json F) ∧ CursorField (.int snapshot : Json F) :=
    fun h => ⟨⟨h.nonneg, h.ordered.trans h.bounded⟩, h.nonneg.trans h.ordered, h.bounded⟩
  cases content with
  | job snapshot eventSnapshot after state =>
      simp only [members, List.forall_mem_cons, List.not_mem_nil, false_implies, implies_true,
        and_true]
      refine ⟨(hposition h.1).1, (hposition h.2).2, field_of_ofText ?_, (hposition h.1).2⟩
      cases state with
      | none => simp
      | some state => cases state <;> simp [JobState.value] <;> decide
  | event snapshot after jobId =>
      simp only [members, List.forall_mem_cons, List.not_mem_nil, false_implies, implies_true,
        and_true]
      exact ⟨(hposition h.1).1, field_of_ofText fun s hs =>
        length_encodeUtf8_of_isIdentifier (h.2 s hs), (hposition h.1).2⟩
  | run snapshot after filter =>
      simp only [members, List.forall_mem_cons, List.not_mem_nil, false_implies, implies_true,
        and_true]
      exact ⟨(hposition h.1).1, field_of_ofText fun s hs => (h.2 s hs).2.trans (by decide),
        (hposition h.1).2⟩
  | artifact snapshot after runId =>
      simp only [members, List.forall_mem_cons, List.not_mem_nil, false_implies, implies_true,
        and_true]
      exact ⟨(hposition h.1).1, length_encodeUtf8_of_isIdentifier h.2, (hposition h.1).2⟩
  | artifactQuery snapshot after runId role =>
      simp only [members, List.forall_mem_cons, List.not_mem_nil, false_implies, implies_true,
        and_true]
      exact ⟨(hposition h.1).1, field_of_ofText fun s hs =>
        length_encodeUtf8_of_isIdentifier (h.2.2 s hs),
        length_encodeUtf8_of_isIdentifier h.2.1, (hposition h.1).2⟩

/-- The keys of a payload: short, without repetition and in order. -/
structure OrderedKeys (keys : List String) : Prop where
  nonempty : ∀ k ∈ keys, k ≠ ""
  short : ∀ k ∈ keys, (PyText.encodeUtf8 k).length ≤ 256
  nodup : keys.Nodup
  ordered : keys.Pairwise (· ≤ ·)
  few : keys.length ≤ 4

theorem orderedKeys (F : Type) (content : CursorContent) :
    OrderedKeys ((content.members F).map Prod.fst) := by
  cases content <;>
    exact ⟨by simp [members], by simp [members]; decide, by simp [members], by simp [members],
      by simp [members]⟩

end CursorContent

namespace CursorContent

variable {F : Type} {content : CursorContent}

theorem sorted_payload (h : content.Valid) :
    (obj (content.members F)).sorted = obj (content.members F) := by
  rw [sorted_obj, sortedDict_of_sorted (fun m hm => (field_of_mem h m hm).sorted_eq)
    (List.pairwise_map.mp (orderedKeys F content).ordered)]

theorem nesting_payload (h : content.Valid) : nesting (obj (content.members F)) ≤ maxJsonDepth := by
  have hmembers : membersNesting (content.members F) ≤ 0 :=
    membersNesting_le_iff.mpr fun m hm => (field_of_mem h m hm).nesting_eq.le
  rw [nesting]
  exact (Nat.add_le_add_right hmembers 1).trans (by decide)

/-- A sum over a payload, each of whose fields adds little. -/
theorem weight_payload_le (h : content.Valid) (w : Weights F) (b : ℕ)
    (hle : ∀ k v, CursorField v → w.key k + w.scalar v ≤ b) :
    weight w (obj (content.members F)) ≤ w.brackets + 4 * b + w.comma * 3 := by
  have hfew := (orderedKeys F content).few
  rw [List.length_map] at hfew
  have hsum : membersWeight w (content.members F) ≤ (content.members F).length * b := by
    rw [membersWeight_eq_sum]
    refine (List.sum_le_card_nsmul _ b fun n hn => ?_).trans (by rw [List.length_map]; exact le_rfl)
    obtain ⟨m, hm, rfl⟩ := List.mem_map.mp hn
    have hfield := field_of_mem h m hm
    rw [hfield.weight_eq]
    exact hle m.1 m.2 hfield
  rw [weight]
  exact Nat.add_le_add (Nat.add_le_add_left (hsum.trans (Nat.mul_le_mul_right b hfew)) _)
    (Nat.mul_le_mul_left _ (by omega))

variable [FloatText F]

theorem writable_payload (h : content.Valid) : (obj (content.members F)).Writable := by
  have hall : ∀ members : List (String × Json F), (∀ m ∈ members, m.2.Writable) →
      WritableMembers members := by
    intro members hmembers
    induction members with
    | nil => trivial
    | cons m members ih =>
        obtain ⟨hm, hrest⟩ := List.forall_mem_cons.mp hmembers
        exact ⟨hm, ih hrest⟩
  exact ⟨(orderedKeys F content).nodup,
    hall _ fun m hm => (field_of_mem h m hm).writable⟩

/-- The canonical bytes of the payload of a content. -/
def body (F : Type) [FloatText F] (content : CursorContent) : List UInt8 :=
  canonicalBytes (obj (content.members F))

variable [PyFloat F]

/-- The payload of a valid content whose bytes fit is admitted. -/
theorem admitted_payload (h : content.Valid) (hsize : (content.body F).length ≤ 512) :
    Admitted (obj (content.members F)) := by
  have hkeys := orderedKeys F content
  refine ⟨⟨Nat.zero_le _, (membersMeet_iff _ _ _).mpr fun m hm => ⟨⟨?_, ?_⟩, ?_⟩⟩, ?_, ?_⟩
  · exact hkeys.nonempty m.1 (List.mem_map_of_mem hm)
  · exact hkeys.short m.1 (List.mem_map_of_mem hm)
  · exact (field_of_mem h m hm).meets (by decide)
  · refine (weight_payload_le h nodeWeights 1 fun k v _ => ?_).trans ?_
    · simp [nodeWeights]
    · simp [nodeWeights, maxJsonNodes]
  · rw [← length_canonicalBytes]
    exact hsize.trans (by decide)

theorem decodeBoundedBytes_body (h : content.Valid) (hsize : (content.body F).length ≤ 512) :
    decodeBoundedBytes (content.body F) 512 true = .ok (obj (content.members F)) := by
  have htokens : weight (tokenWeights : Weights F) (obj (content.members F)) ≤
      maxJsonStructuralTokens := by
    refine (weight_payload_le h tokenWeights 3 fun k v hv => ?_).trans ?_
    · cases v <;> simp [tokenWeights]
    · simp [tokenWeights, maxJsonStructuralTokens]
  have hread := decodeBoundedBytes_canonicalBytes (writable_payload h) (admitted_payload h hsize)
    (by decide) hsize (nesting_payload h) htokens
  rwa [sorted_payload h] at hread

omit [PyFloat F] in
/-- A payload from which a content is read has the bytes of that content. -/
theorem ReadFrom.canonicalBytes_eq {payload : List (String × Json F)}
    (h : content.ReadFrom payload) (hnodup : (payload.map Prod.fst).Nodup) :
    canonicalBytes (obj payload) = content.body F := by
  have hkeys := hasKeys_iff.mp h.keys
  have hnodup' := (orderedKeys F content).nodup
  refine canonicalBytes_eq_of_sorted (sorted_obj_eq_of_lookup hnodup hnodup' fun k => ?_)
  by_cases hk : k ∈ (content.members F).map Prod.fst
  · obtain ⟨⟨k, v⟩, hm, rfl⟩ := List.mem_map.mp hk
    have hwritten : (content.members F).lookup k = some v :=
      (OrderedDict.get?_eq_some_iff (d := ⟨content.members F, hnodup'⟩)).mpr hm
    have hfield : fieldOf payload k = v := h.fields (k, v) hm
    cases hlookup : payload.lookup k with
    | none =>
        obtain ⟨⟨_, w⟩, hmem, rfl⟩ := List.mem_map.mp ((hkeys k).mpr hk)
        exact absurd rfl (bne_iff_ne.mp (List.lookup_eq_none_iff.mp hlookup _ hmem))
    | some w =>
        rw [fieldOf, hlookup, Option.getD_some] at hfield
        rw [hwritten, hfield]
  · rw [lookup_eq_none hk, lookup_eq_none fun hmem => hk ((hkeys k).mp hmem)]

omit [FloatText F] [PyFloat F] in
theorem readFrom_members (F : Type) (content : CursorContent) :
    content.ReadFrom (content.members F) := by
  refine ⟨hasKeys_iff.mpr fun _ => Iff.rfl, ?_⟩
  cases content <;> simp [members, fieldOf, List.lookup_cons]

end CursorContent

namespace CursorCodec

variable [PyRuntime] {F : Type} [PyFloat F] [FloatText F] {codec : CursorCodec F}
  {token : CursorToken} {kind : CursorKind} {content : CursorContent}

/-- A decoder accepts the tokens that open to the bytes of a valid content. -/
theorem decode_eq_ok_iff_opens :
    codec.decode token kind = .ok content ↔ content.kind = kind ∧ content.Valid ∧
      codec.Opens token kind.domain (content.body F) := by
  simp only [decode_eq_ok_iff, decodePayload_eq_ok_iff]
  refine and_congr_right fun _ => and_congr_right fun hvalid => ?_
  constructor
  · rintro ⟨payload, ⟨body, hopens, hread⟩, hfrom⟩
    obtain ⟨hdistinct, -, hbytes⟩ := decodeBoundedBytes_eq_ok hread
    rwa [← hfrom.canonicalBytes_eq hdistinct.1, hbytes]
  · intro hopens
    exact ⟨content.members F, ⟨content.body F, hopens,
      CursorContent.decodeBoundedBytes_body hvalid hopens.bounded⟩,
      CursorContent.readFrom_members F content⟩

/-- An encoder writes the one spelled token that its decoder accepts for the content. -/
theorem encode_eq_ok_iff_decode : codec.encode content = .ok token ↔
    codec.decode token content.kind = .ok content ∧ token.Spelled := by
  rw [encode_eq_ok_iff, encodeToken_eq_ok_iff, decode_eq_ok_iff_opens]
  constructor
  · rintro ⟨hvalid, -, hsize, hsegments⟩
    have hne : content.body F ≠ [] := List.length_pos_iff.mp
      (length_canonicalBytes_pos (CursorContent.writable_payload hvalid))
    have hopens := opens_of_envelope hne hsize hsegments
    exact ⟨⟨rfl, hvalid, hopens⟩, hopens.segments_eq_iff.mp hsegments⟩
  · rintro ⟨⟨-, hvalid, hopens⟩, hspelled⟩
    exact ⟨hvalid, CursorContent.admitted_payload hvalid hopens.bounded, hopens.bounded,
      hopens.segments_eq_iff.mpr hspelled⟩

end CursorCodec

/-! ## One spelling for each content -/

theorem CursorKind.domain_injective : Function.Injective CursorKind.domain := by
  intro kind kind' h
  cases kind <;> cases kind' <;>
    first | rfl | exact absurd (PyText.encodeUtf8_injective h) (by decide)

namespace CursorCodec

variable [PyRuntime] {F : Type} [PyFloat F] [FloatText F] (codec : CursorCodec F)

/-- A token that continues a query: its decoder accepts it, and its filters are those
of the query. -/
structure Accepts (token : CursorToken) (context : CursorContext) (content : CursorContent) :
    Prop where
  decoded : codec.decode token context.kind = .ok content
  continued : content.context = context

/-- A token that is accepted for two queries shows two messages with one code. -/
theorem collision_of_accepts {token : CursorToken} {context context' : CursorContext}
    {content content' : CursorContent} (h : codec.Accepts token context content)
    (h' : codec.Accepts token context' content') :
    (context = context' ∧ content = content') ∨
      Hmac.Collision codec.secret (context.kind.domain ++ content.body F)
        (context'.kind.domain ++ content.body F) := by
  by_cases hkind : context.kind = context'.kind
  · have hsame := h.decoded.symm.trans ((congrArg (codec.decode token) hkind).trans h'.decoded)
    obtain rfl := Except.ok.inj hsame
    exact Or.inl ⟨h.continued.symm.trans h'.continued, rfl⟩
  · obtain ⟨-, -, hopens⟩ := decode_eq_ok_iff_opens.mp h.decoded
    obtain ⟨-, -, hopens'⟩ := decode_eq_ok_iff_opens.mp h'.decoded
    rw [← hopens.body_unique hopens'] at hopens'
    exact Or.inr (hopens.collision hopens' fun heq => hkind (CursorKind.domain_injective heq))

/-- Cursors of every kind are read back, no token continues two queries unless two
messages have one code, and an accepted token is the one of the encoder exactly when
it is spelled as base64url spells it. -/
theorem cursor_token_of_encoder_iff_spelled :
    (∀ content token, codec.encode content = .ok token →
      codec.Accepts token content.context content) ∧
    (∀ token kind content, codec.decode token kind = .ok content →
      (codec.encode content = .ok token ↔ token.Spelled)) ∧
    ∀ token context context' content content', codec.Accepts token context content →
      codec.Accepts token context' content' → (context = context' ∧ content = content') ∨
        Hmac.Collision codec.secret (context.kind.domain ++ content.body F)
          (context'.kind.domain ++ content.body F) := by
  refine ⟨fun content token h => ?_, fun token kind content h => ?_,
    fun token context context' content content' h h' => codec.collision_of_accepts h h'⟩
  · refine ⟨?_, rfl⟩
    rw [content.kind_context]
    exact (encode_eq_ok_iff_decode.mp h).1
  · obtain ⟨rfl, -⟩ := decode_eq_ok_iff_opens.mp h
    rw [encode_eq_ok_iff_decode]
    exact and_iff_right h

/-! ### Another spelling -/

variable {codec}

omit [PyRuntime] [PyFloat F] [FloatText F] in
theorem ascii_of_all {cs : List Char} (h : cs.all (fun c => decide (c.toNat < 128)) = true) :
    ∀ c ∈ cs, c.toNat < 128 := by
  simpa using h

omit [PyRuntime] [PyFloat F] [FloatText F] in
theorem exists_token (bodyText macText : List Char) (hbody : bodyText.length ≤ 768)
    (hmac : 16 ≤ macText.length ∧ macText.length ≤ 64)
    (hascii : ∀ c ∈ bodyText ++ macText, c.toNat < 128) :
    ∃ token : CursorToken, token.text =
      String.ofList (['.'].intercalate [cursorVersion, bodyText, macText]) := by
  have htext : ['.'].intercalate [cursorVersion, bodyText, macText] =
      cursorVersion ++ ['.'] ++ bodyText ++ ['.'] ++ macText := by
    simp [List.intercalate]
  have hversion : cursorVersion.length = 2 := rfl
  rw [List.forall_mem_append] at hascii
  refine ⟨⟨String.ofList (['.'].intercalate [cursorVersion, bodyText, macText]), ?_, ?_⟩, rfl⟩
  · rw [String.toList_ofList, htext]
    simp only [List.length_append, List.length_singleton]
    omega
  · simp only [String.toList_ofList, htext, List.forall_mem_append]
    exact ⟨⟨⟨⟨ascii_of_all (by decide), ascii_of_all (by decide)⟩, hascii.1⟩,
      ascii_of_all (by decide)⟩, hascii.2⟩

/-- Every token of an encoder has a padded spelling, which its decoder accepts too. -/
theorem exists_padded {content : CursorContent} (hvalid : content.Valid)
    (hbounded : (content.body F).length ≤ 512) :
    ∃ token padded : CursorToken, codec.encode content = .ok token ∧
      padded.text = token.text ++ "=" ∧ codec.decode padded content.kind = .ok content ∧
      codec.encode content ≠ .ok padded := by
  set body := content.body F with hbodyDef
  set mac := codec.signature content.kind.domain body with hmacDef
  have hne : body ≠ [] := List.length_pos_iff.mp
    (length_canonicalBytes_pos (CursorContent.writable_payload hvalid))
  have hmacLength : mac.length = 32 := Hmac.length_digest _ _
  have hbodyText := Base64.length_encode body
  have hmacText := Base64.length_encode mac
  have hascii : ∀ bytes, ∀ c ∈ Base64.encode bytes, c.toNat < 128 := by
    intro bytes c hc
    obtain ⟨n, hn, rfl⟩ := Base64.mem_encode hc
    exact toNat_digit_lt hn
  have hpadAscii : ∀ c ∈ Base64.encode mac ++ ['='], c.toNat < 128 :=
    List.forall_mem_append.mpr ⟨hascii mac, ascii_of_all (by decide)⟩
  obtain ⟨token, htoken⟩ := exists_token (Base64.encode body) (Base64.encode mac) (by omega) (by omega)
    (List.forall_mem_append.mpr ⟨hascii body, hascii mac⟩)
  obtain ⟨padded, hpadded⟩ := exists_token (Base64.encode body) (Base64.encode mac ++ ['='])
    (by omega)
    (by rw [List.length_append, List.length_singleton]; omega)
    (List.forall_mem_append.mpr ⟨hascii body, hpadAscii⟩)
  have hsegments : token.segments = codec.envelope content.kind.domain body := by
    refine (CursorToken.segments_eq_iff (by simp [envelope]) ?_).mpr htoken
    simp only [envelope, List.forall_mem_cons, List.not_mem_nil, false_implies, implies_true,
      and_true]
    exact ⟨by decide, dot_not_mem_encode _, dot_not_mem_encode _⟩
  have hpaddedSegments : padded.segments =
      [cursorVersion, Base64.encode body, Base64.encode mac ++ ['=']] := by
    refine (CursorToken.segments_eq_iff (by simp) ?_).mpr hpadded
    simp only [List.forall_mem_cons, List.not_mem_nil, false_implies, implies_true, and_true]
    exact ⟨by decide, dot_not_mem_encode _, by simp [dot_not_mem_encode]⟩
  have hopens : codec.Opens padded content.kind.domain body := by
    refine ⟨⟨_, _, hpaddedSegments, decodeSegment_encode hne (by omega), ?_⟩, hbounded⟩
    refine decodeSegment_eq_ok_iff.mpr ⟨⟨by simp, ?_, hpadAscii⟩,
      Base64.decodeUnpadded_append_pad (by omega)⟩
    rw [List.length_append, List.length_singleton]
    omega
  have hdecode : codec.decode padded content.kind = .ok content :=
    decode_eq_ok_iff_opens.mpr ⟨rfl, hvalid, hopens⟩
  refine ⟨token, padded, encode_eq_ok_iff_decode.mpr ⟨?_, ?_⟩, ?_, hdecode, fun hencode => ?_⟩
  · exact decode_eq_ok_iff_opens.mpr ⟨rfl, hvalid, opens_of_envelope hne hbounded hsegments⟩
  · exact (opens_of_envelope hne hbounded hsegments).segments_eq_iff.mp hsegments
  · rw [hpadded, htoken, ← String.toList_inj]
    simp [List.intercalate]
  · have hspelled := (encode_eq_ok_iff_decode.mp hencode).2
    have hcanonical := hspelled (Base64.encode mac ++ ['=']) (by simp [hpaddedSegments])
    exact absurd (hcanonical.urlSafe '=' (by simp)) (by decide)

end CursorCodec

open Platform in
/-- The token of an event cursor is accepted with one more padding character. -/
theorem CursorCodec.padding_accepted :
    ∃ token padded : CursorToken,
      (⟨List.replicate 32 7, by decide⟩ : CursorCodec ℚ).encode (.event 10 4 none) = .ok token ∧
      padded.text = token.text ++ "=" ∧
      (⟨List.replicate 32 7, by decide⟩ : CursorCodec ℚ).decode padded .event =
        .ok (.event 10 4 none) ∧
      (⟨List.replicate 32 7, by decide⟩ : CursorCodec ℚ).encode (.event 10 4 none) ≠
        .ok padded := by
  have hvalid : (CursorContent.event 10 4 none).Valid := ⟨⟨by decide, by decide, by decide⟩, nofun⟩
  refine CursorCodec.exists_padded hvalid ?_
  rw [CursorContent.body, length_canonicalBytes]
  decide

end Tracking
