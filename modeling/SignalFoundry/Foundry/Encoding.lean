import SignalFoundry.Library.Fallible
import SignalFoundry.Library.Json.RoundTrip
import SignalFoundry.Library.PyRuntime

/-!
# Bounded JSON

`encode` and `decode` of the boundary. A value is written in the canonical form
within a byte limit, and read back from a text without repeated keys, non-finite
numbers or more structure than the service allows.
-/

/-! ## Boundary of the local service

The error that every refusal raises, the texts that identify records, and the
byte limits of the service. -/

namespace Foundry

def maxRequestBytes : ℕ := 16384

def maxEvidenceBytes : ℕ := 4 * 1024 * 1024

/-- The stable failure that the service shows. -/
structure FoundryError where
  code : String
  detail : String
  status : ℕ := 422
  deriving DecidableEq, Repr

/-- `^[0-9a-f]{64}$`. -/
def isDigestText (text : String) : Bool := PyText.isRun PyText.isHexDigit 64 text

/-- `^[a-z][a-z0-9_-]{0,63}$`. -/
def isIdentifier (text : String) : Bool :=
  PyText.isToken PyText.isLowerAscii
    (fun c => PyText.isLowerAscii c || PyText.isDigitAscii c || c == '_' || c == '-') 63 text

section Sha256

variable [PyRuntime]

/-- `hashlib.sha256(message).hexdigest()`. -/
def hexDigest (message : List UInt8) : String := PyText.hexText (PyRuntime.sha256 message)

theorem isDigestText_hexDigest (message : List UInt8) : isDigestText (hexDigest message) = true := by
  have hrun := PyText.isRun_hexText (PyRuntime.sha256 message)
  rwa [PyRuntime.sha256_length] at hrun

end Sha256

end Foundry

namespace Foundry

open Fallible Json

variable {F : Type} [PyFloat F] [FloatText F]

section Visit

mutual

/-- The values of a tree with their depths. -/
def visit (depth : ℕ) : Json F → List (ℕ × Json F)
  | .arr items => (depth, .arr items) :: visitItems (depth + 1) items
  | .obj members => (depth, .obj members) :: visitMembers (depth + 1) members
  | v => [(depth, v)]

def visitItems (depth : ℕ) : List (Json F) → List (ℕ × Json F)
  | [] => []
  | v :: rest => visit depth v ++ visitItems depth rest

def visitMembers (depth : ℕ) : List (String × Json F) → List (ℕ × Json F)
  | [] => []
  | (_, v) :: rest => visit depth v ++ visitMembers depth rest

end

end Visit

/-- A leaf that `json.dumps(..., allow_nan=False)` writes. -/
def isPlain : Json F → Bool
  | .int n => (Nat.toDigits 10 n.natAbs).length ≤ maxIntegerDigits
  | .float x => PyFloat.isFinite x
  | _ => true

def encode (value : Json F) (maximum : ℕ := maxEvidenceBytes) :
    Except FoundryError (List UInt8) := do
  refuseIf (¬ (visit 0 value).all fun v => isPlain v.2)
    ⟨"invalid_evidence", "Evidence is not finite JSON.", 500⟩
  let payload := PyText.encodeUtf8 value.dumps
  refuseIf (maximum < payload.length)
    ⟨"evidence_limit", "Evidence exceeds the publication byte limit.", 507⟩
  .ok payload

def invalidJson : FoundryError :=
  ⟨"invalid_json", "Expected bounded, finite JSON without duplicate keys.", 422⟩

/-- `_pairs` and `_constant`. -/
def pairHooks : Hooks F FoundryError where
  objectPairs members :=
    if (members.map Prod.fst).Nodup then .ok (.obj members) else .error invalidJson
  parseConstant _ := .error invalidJson
  decodeError := invalidJson

def decode (payload : List UInt8) (maximum : ℕ := maxRequestBytes) :
    Except FoundryError (Json F) := do
  refuseIf (¬ (0 < payload.length ∧ payload.length ≤ maximum))
    ⟨"payload_size", "Payload is empty or exceeds its byte limit.", 413⟩
  match PyText.decodeUtf8 payload with
  | none => .error invalidJson
  | some text => do
      let value ← loads pairHooks text
      let visited := visit 0 value
      refuseIf (200000 < visited.length ∨ ¬ visited.all fun v => v.1 ≤ 32 && isPlain v.2)
        invalidJson
      .ok value

/-- `bool(value)`. -/
def truthy : Json F → Bool
  | .null => false
  | .bool b => b
  | .int n => n ≠ 0
  | .float x => ¬ PyFloat.eq x PyFloat.zero
  | .str s => s ≠ ""
  | .arr items => ¬ items.isEmpty
  | .obj members => ¬ members.isEmpty

omit [PyFloat F] [FloatText F] in
theorem keepsPairs_pairHooks : KeepsPairs (pairHooks : Hooks F FoundryError) :=
  fun _ h => if_pos h

theorem encode_eq_ok_iff {value : Json F} {maximum : ℕ} {payload : List UInt8} :
    encode value maximum = .ok payload ↔
      ((visit 0 value).all fun v => isPlain v.2) = true ∧
        payload = PyText.encodeUtf8 value.dumps ∧ payload.length ≤ maximum := by
  simp only [encode, bind_eq_ok_iff, refuseIf_eq_ok_iff, not_not, not_lt, Except.ok.injEq]
  constructor
  · rintro ⟨-, hplain, -, hlength, rfl⟩
    exact ⟨hplain, rfl, hlength⟩
  · rintro ⟨hplain, rfl, hlength⟩
    exact ⟨(), hplain, (), hlength, rfl⟩

/-- The structure that `decode` allows: 33 levels and 200 000 values. -/
def Bounded (value : Json F) : Prop :=
  (visit 0 value).length ≤ 200000 ∧ ∀ v ∈ visit 0 value, v.1 ≤ 32

instance (value : Json F) : Decidable (Bounded value) := inferInstanceAs (Decidable (_ ∧ _))

/-- A written value is read back from its text, or has more structure than is allowed. -/
theorem decode_dumps_eq {value : Json F} {maximum : ℕ} (hwritable : value.Writable)
    (hlength : (PyText.encodeUtf8 value.dumps).length ≤ maximum)
    (hplain : ∀ v ∈ visit 0 value.sorted, isPlain v.2 = true) :
    decode (PyText.encodeUtf8 value.dumps) maximum =
      if Bounded value.sorted then .ok value.sorted else .error invalidJson := by
  have hpos : 0 < (PyText.encodeUtf8 value.dumps).length := by
    rw [List.length_pos_iff]
    intro hempty
    have htext : value.dumps = "" := PyText.encodeUtf8_injective (hempty.trans rfl)
    obtain ⟨c, cs, hcs, -⟩ := starts_write (writable_sorted hwritable)
    have hchars := congrArg String.toList htext
    rw [dumps, String.toList_ofList, hcs] at hchars
    cases hchars
  have hall : ((visit 0 value.sorted).all fun v => v.1 ≤ 32 && isPlain v.2) = true ↔
      ∀ v ∈ visit 0 value.sorted, v.1 ≤ 32 := by
    rw [List.all_eq_true]
    refine forall₂_congr fun v hv => ?_
    rw [hplain v hv, Bool.and_true, decide_eq_true_iff]
  have hrefused : (200000 < (visit 0 value.sorted).length ∨
      ¬ ((visit 0 value.sorted).all fun v => v.1 ≤ 32 && isPlain v.2) = true) ↔
        ¬ Bounded value.sorted := by
    rw [hall, Bounded, not_and_or, not_le]
  rw [decode, refuseIf_of_not (not_not.mpr ⟨hpos, hlength⟩), ok_bind,
    PyText.decodeUtf8_encodeUtf8]
  dsimp only
  rw [loads_dumps pairHooks keepsPairs_pairHooks hwritable, ok_bind]
  by_cases hbounded : Bounded value.sorted
  · rw [refuseIf_of_not (mt hrefused.mp (not_not.mpr hbounded)), ok_bind, if_pos hbounded]
  · rw [refuseIf_of (hrefused.mpr hbounded), error_bind, if_neg hbounded]

/-- A value within the bounds is read back from its text. -/
theorem decode_dumps {value : Json F} {maximum : ℕ} (hwritable : value.Writable)
    (hlength : (PyText.encodeUtf8 value.dumps).length ≤ maximum)
    (hsize : (visit 0 value.sorted).length ≤ 200000)
    (hplain : ∀ v ∈ visit 0 value.sorted, v.1 ≤ 32 ∧ isPlain v.2 = true) :
    decode (PyText.encodeUtf8 value.dumps) maximum = .ok value.sorted := by
  rw [decode_dumps_eq hwritable hlength fun v hv => (hplain v hv).2]
  exact if_pos ⟨hsize, fun v hv => (hplain v hv).1⟩

/-! ## The values of a sorted tree -/

section Sorted

omit [PyFloat F] [FloatText F] in
theorem visitMembers_eq_flatMap (depth : ℕ) (members : List (String × Json F)) :
    visitMembers depth members = members.flatMap fun m => visit depth m.2 := by
  induction members with
  | nil => rfl
  | cons m members ih =>
      obtain ⟨k, v⟩ := m
      rw [visitMembers, ih, List.flatMap_cons]

omit [FloatText F]

/-- What the bounds read of a visited value. -/
def outline (v : ℕ × Json F) : ℕ × Bool := (v.1, isPlain v.2)

mutual

/-- Sorting the members of objects keeps the depths and the kinds of the values. -/
theorem perm_visit_sorted : ∀ (v : Json F) (depth : ℕ),
    ((visit depth v.sorted).map outline).Perm ((visit depth v).map outline)
  | .arr items, depth => by
      rw [sorted, visit, visit, List.map_cons, List.map_cons]
      exact (perm_visitItems_sorted items (depth + 1)).cons _
  | .obj members, depth => by
      rw [sorted_obj, visit, visit, List.map_cons, List.map_cons, visitMembers_eq_flatMap]
      refine List.Perm.cons _ (((perm_sortedDict members).flatMap_right _).map outline |>.trans ?_)
      rw [← visitMembers_eq_flatMap]
      exact perm_visitMembers_sorted members (depth + 1)
  | .null, _ => by rw [sorted_null]
  | .bool _, _ => by rw [sorted_bool]
  | .int _, _ => by rw [sorted_int]
  | .float _, _ => by rw [sorted_float]
  | .str _, _ => by rw [sorted_str]

theorem perm_visitItems_sorted : ∀ (items : List (Json F)) (depth : ℕ),
    ((visitItems depth (sortedItems items)).map outline).Perm ((visitItems depth items).map outline)
  | [], _ => List.Perm.refl _
  | v :: rest, depth => by
      rw [sortedItems, visitItems, visitItems, List.map_append, List.map_append]
      exact (perm_visit_sorted v depth).append (perm_visitItems_sorted rest depth)

theorem perm_visitMembers_sorted : ∀ (members : List (String × Json F)) (depth : ℕ),
    ((visitMembers depth (sortedMembers members)).map outline).Perm
      ((visitMembers depth members).map outline)
  | [], _ => List.Perm.refl _
  | (k, v) :: rest, depth => by
      rw [sortedMembers, visitMembers, visitMembers, List.map_append, List.map_append]
      exact (perm_visit_sorted v depth).append (perm_visitMembers_sorted rest depth)

end

theorem bounded_sorted_iff {value : Json F} : Bounded value.sorted ↔ Bounded value := by
  have hperm := perm_visit_sorted value 0
  have hlength := hperm.length_eq
  rw [List.length_map, List.length_map] at hlength
  have hdepths : ∀ v : Json F, (∀ u ∈ visit 0 v, u.1 ≤ 32) ↔
      ∀ read ∈ (visit 0 v).map outline, read.1 ≤ 32 := by
    intro v
    rw [List.forall_mem_map]
    rfl
  rw [Bounded, Bounded, hlength, hdepths, hdepths]
  exact and_congr_right fun _ => forall_congr' fun read => by rw [hperm.mem_iff]

variable [FloatText F]

/-- What is encoded is decoded, up to the order of members, unless it has more
structure than `decode` allows: `encode` does not look at the structure. -/
theorem decode_of_encode {value : Json F} {maximum : ℕ} {payload : List UInt8}
    (hencode : encode value maximum = .ok payload) (hwritable : value.Writable) :
    decode payload maximum =
      if Bounded value then .ok value.sorted else .error invalidJson := by
  obtain ⟨hplain, rfl, hlength⟩ := encode_eq_ok_iff.mp hencode
  have hkinds : ∀ v ∈ visit 0 value.sorted, isPlain v.2 = true := by
    intro v hv
    have hmem := (perm_visit_sorted value 0).mem_iff.mp (List.mem_map_of_mem hv)
    obtain ⟨u, hu, houtline⟩ := List.mem_map.mp hmem
    exact (Prod.mk.inj houtline).2 ▸ List.all_eq_true.mp hplain u hu
  rw [decode_dumps_eq hwritable hlength hkinds]
  exact if_congr bounded_sorted_iff rfl rfl

end Sorted

/-! ## Values of a program -/

section Dictionaries

/-- Every object of a value is a dictionary: it has each key once. -/
def UniqueKeys (value : Json F) : Prop :=
  ∀ v ∈ visit 0 value, ∀ members, v.2 = .obj members → (members.map Prod.fst).Nodup

mutual

theorem writable_of_visit [LawfulFloatText F] : ∀ (v : Json F) (depth : ℕ),
    (∀ u ∈ visit depth v, isPlain u.2 = true ∧
      ∀ members, u.2 = .obj members → (members.map Prod.fst).Nodup) → v.Writable
  | .int n, depth, h => by
      have hplain := (h (depth, .int n) (by simp [visit])).1
      simpa [isPlain, Writable] using hplain
  | .float x, depth, h => writable_float (h (depth, .float x) (by simp [visit])).1
  | .arr items, depth, h => by
      rw [Writable]
      exact writableItems_of_visit items (depth + 1) fun u hu => h u (List.mem_cons_of_mem _ hu)
  | .obj members, depth, h => by
      rw [Writable]
      exact ⟨(h (depth, .obj members) List.mem_cons_self).2 members rfl,
        writableMembers_of_visit members (depth + 1) fun u hu => h u (List.mem_cons_of_mem _ hu)⟩
  | .null, _, _ => by simp [Writable]
  | .bool _, _, _ => by simp [Writable]
  | .str _, _, _ => by simp [Writable]

theorem writableItems_of_visit [LawfulFloatText F] : ∀ (items : List (Json F)) (depth : ℕ),
    (∀ u ∈ visitItems depth items, isPlain u.2 = true ∧
      ∀ members, u.2 = .obj members → (members.map Prod.fst).Nodup) → WritableItems items
  | [], _, _ => trivial
  | v :: rest, depth, h =>
      ⟨writable_of_visit v depth fun u hu => h u (List.mem_append_left _ hu),
        writableItems_of_visit rest depth fun u hu => h u (List.mem_append_right _ hu)⟩

theorem writableMembers_of_visit [LawfulFloatText F] : ∀ (members : List (String × Json F)) (depth : ℕ),
    (∀ u ∈ visitMembers depth members, isPlain u.2 = true ∧
      ∀ members, u.2 = .obj members → (members.map Prod.fst).Nodup) → WritableMembers members
  | [], _, _ => trivial
  | (_, v) :: rest, depth, h =>
      ⟨writable_of_visit v depth fun u hu => h u (List.mem_append_left _ hu),
        writableMembers_of_visit rest depth fun u hu => h u (List.mem_append_right _ hu)⟩

end

/-- What is encoded can be written. -/
theorem UniqueKeys.writable [LawfulFloatText F] {value : Json F} (hkeys : UniqueKeys value)
    (hplain : ((visit 0 value).all fun v => isPlain v.2) = true) : value.Writable :=
  writable_of_visit value 0 fun u hu => ⟨List.all_eq_true.mp hplain u hu, hkeys u hu⟩

end Dictionaries

/-! ## The length of a text -/

section Length

theorem length_encodeUtf8_le (cs : List Char) :
    (PyText.encodeUtf8 (String.ofList cs)).length ≤ 4 * cs.length := by
  have hsize : ∀ bytes : ByteArray, bytes.data.toList.length = bytes.size := fun _ => rfl
  rw [PyText.encodeUtf8, String.toByteArray_ofList, hsize]
  induction cs with
  | nil => simp
  | cons c cs ih =>
      have hc := c.utf8Size_le_four
      rw [List.utf8Encode_cons, ByteArray.size_append, List.utf8Encode_singleton,
        List.length_cons]
      simp only [List.size_toByteArray, String.length_utf8EncodeChar]
      omega

theorem length_escape_le (c : Char) : (escape c).length ≤ 12 := by
  unfold escape
  split_ifs <;> simp [hex4]

theorem length_writeString_le (s : String) : (writeString s).length ≤ 12 * s.length + 2 := by
  have hescaped : ∀ cs : List Char, (cs.flatMap escape).length ≤ 12 * cs.length := by
    intro cs
    induction cs with
    | nil => simp
    | cons c cs ih =>
        have hc := length_escape_le c
        rw [List.flatMap_cons, List.length_append, List.length_cons]
        omega
  have hs := hescaped s.toList
  rw [String.length_toList] at hs
  simp only [writeString, List.length_append, List.length_cons, List.length_nil]
  omega

end Length

end Foundry
