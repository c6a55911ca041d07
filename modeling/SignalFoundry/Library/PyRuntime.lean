import Mathlib.Data.List.Basic
import Mathlib.Data.Nat.Basic
import Mathlib.Data.Prod.Lex
import Mathlib.Order.Lex

/-!
# The language runtime

The parts of the standard library that a model meets and that are not worth
rebuilding: SHA-256, the Unicode tables and the rendering of values in error
messages. `PyRuntime` takes them as parameters. What the code itself computes on
texts, namely the whitespace test, the bounded tokens of its regular
expressions, hexadecimal digests and UTF-8 bytes, is defined here.
-/

/-- Runtime functions taken as given. The digest has 32 bytes; nothing else is
assumed of any of them. -/
class PyRuntime where
  sha256 : List UInt8 → List UInt8
  sha256_length : ∀ message, (sha256 message).length = 32
  /-- `str.isprintable` of one character. -/
  isPrintable : Char → Bool
  /-- `str.upper` of one character outside ASCII. -/
  upper : Char → List Char
  /-- `repr` of a string. -/
  strRepr : String → String
  /-- The year, month and day of a date that is written with an ISO week. -/
  isoWeekDate : String → Option (ℕ × ℕ × ℕ)

/-- The rendering of floats: `float.__repr__` with its inverse `float(text)`, and
the formats of error messages. -/
class FloatText (F : Type*) where
  repr : F → String
  parse : String → F
  /-- `format(x, ".3g")`. -/
  format3g : F → String
  /-- `format(x, ".17g")`. -/
  format17g : F → String

namespace PyText

/-- `str.isspace` of one character. -/
def isSpace (c : Char) : Bool :=
  let n := c.toNat
  (9 ≤ n && n ≤ 13) || (28 ≤ n && n ≤ 32) || n == 0x85 || n == 0xA0 || n == 0x1680 ||
    (0x2000 ≤ n && n ≤ 0x200A) || n == 0x2028 || n == 0x2029 || n == 0x202F ||
    n == 0x205F || n == 0x3000

/-- `not text.strip()`. -/
def isBlank (text : String) : Bool := text.toList.all isSpace

/-- `text == text.strip()`. -/
def isStripped (text : String) : Bool :=
  !(text.toList.head?.any isSpace) && !(text.toList.getLast?.any isSpace)

def isLowerAscii (c : Char) : Bool := 'a' ≤ c && c ≤ 'z'

def isUpperAscii (c : Char) : Bool := 'A' ≤ c && c ≤ 'Z'

def isDigitAscii (c : Char) : Bool := '0' ≤ c && c ≤ '9'

def isAlnumAscii (c : Char) : Bool := isLowerAscii c || isUpperAscii c || isDigitAscii c

/-- `text.upper()`. -/
def upper [PyRuntime] (text : String) : String :=
  String.ofList (text.toList.flatMap fun c =>
    if c.toNat < 128 then [c.toUpper] else PyRuntime.upper c)

/-- The regular expression `[first][rest]{0,limit}\Z`. -/
def isToken (first rest : Char → Bool) (limit : ℕ) (text : String) : Bool :=
  match text.toList with
  | [] => false
  | c :: cs => first c && cs.all rest && cs.length ≤ limit

/-- The regular expression `[allowed]{count}\Z`. -/
def isRun (allowed : Char → Bool) (count : ℕ) (text : String) : Bool :=
  text.toList.all allowed && text.toList.length == count

/-! ## Bytes -/

/-- `text.encode("utf-8")`. -/
def encodeUtf8 (text : String) : List UInt8 := text.toByteArray.data.toList

/-- `bytes.decode("utf-8", errors="strict")`. -/
def decodeUtf8 (bytes : List UInt8) : Option String := String.fromUTF8? ⟨bytes.toArray⟩

@[simp] theorem decodeUtf8_encodeUtf8 (text : String) :
    decodeUtf8 (encodeUtf8 text) = some text := by
  obtain ⟨bytes, hvalid⟩ := text
  simp [decodeUtf8, encodeUtf8, String.fromUTF8?, hvalid, String.fromUTF8]

theorem encodeUtf8_injective : Function.Injective encodeUtf8 := by
  intro a b h
  have hdecode := congrArg decodeUtf8 h
  simpa using hdecode

theorem encodeUtf8_of_decodeUtf8 {bytes : List UInt8} {text : String}
    (h : decodeUtf8 bytes = some text) : encodeUtf8 text = bytes := by
  unfold decodeUtf8 String.fromUTF8? at h
  split at h
  · obtain rfl := Option.some.inj h
    simp [encodeUtf8, String.fromUTF8]
  · cases h

/-- `len(text.encode("utf-8"))` adds up over the parts of a text. -/
theorem length_encodeUtf8_append (cs rest : List Char) :
    (encodeUtf8 (String.ofList (cs ++ rest))).length =
      (encodeUtf8 (String.ofList cs)).length + (encodeUtf8 (String.ofList rest)).length := by
  simp [encodeUtf8, String.ofList_append]

/-- One hexadecimal digit, in lower case. -/
def hexDigit (n : ℕ) : Char := Nat.digitChar (n % 16)

/-- `bytes.hex()`. -/
def hexText (bytes : List UInt8) : String :=
  String.ofList (bytes.flatMap fun b => [hexDigit (b.toNat / 16), hexDigit b.toNat])

def isHexDigit (c : Char) : Bool := isDigitAscii c || ('a' ≤ c && c ≤ 'f')

theorem isHexDigit_hexDigit (n : ℕ) : isHexDigit (hexDigit n) = true := by
  have hall : ∀ d < 16, isHexDigit (Nat.digitChar d) = true := by decide
  exact hall (n % 16) (Nat.mod_lt _ (by decide))

theorem length_hexText (bytes : List UInt8) :
    (hexText bytes).toList.length = 2 * bytes.length := by
  induction bytes with
  | nil => rfl
  | cons b bytes ih =>
      simp only [hexText, String.toList_ofList, List.flatMap_cons, List.length_append,
        List.length_cons, List.length_nil] at ih ⊢
      omega

theorem isRun_hexText (bytes : List UInt8) :
    isRun isHexDigit (2 * bytes.length) (hexText bytes) = true := by
  have hlength := length_hexText bytes
  simp only [isRun, Bool.and_eq_true, beq_iff_eq, hlength, and_true, List.all_eq_true]
  intro c hc
  simp only [hexText, String.toList_ofList, List.mem_flatMap, List.mem_cons,
    List.not_mem_nil, or_false] at hc
  obtain ⟨b, -, rfl | rfl⟩ := hc <;> exact isHexDigit_hexDigit _

theorem length_encodeUtf8_ofList {cs : List Char} (h : ∀ c ∈ cs, c.utf8Size = 1) :
    (encodeUtf8 (String.ofList cs)).length = cs.length := by
  have hsize : ∀ bytes : ByteArray, bytes.data.toList.length = bytes.size := fun _ => rfl
  rw [encodeUtf8, String.toByteArray_ofList, hsize]
  induction cs with
  | nil => simp
  | cons c cs ih =>
      have hc : c.utf8Size = 1 := h c List.mem_cons_self
      rw [List.utf8Encode_cons, ByteArray.size_append, ih fun d hd => h d (List.mem_cons_of_mem c hd),
        List.utf8Encode_singleton]
      simp [hc, Nat.add_comm]

theorem length_encodeUtf8_ofList_le (cs : List Char) :
    (encodeUtf8 (String.ofList cs)).length ≤ 4 * cs.length := by
  have hsize : ∀ bytes : ByteArray, bytes.data.toList.length = bytes.size := fun _ => rfl
  rw [encodeUtf8, String.toByteArray_ofList, hsize]
  induction cs with
  | nil => simp
  | cons c cs ih =>
      have hc := c.utf8Size_le_four
      rw [List.utf8Encode_cons, ByteArray.size_append, List.utf8Encode_singleton]
      simp only [List.size_toByteArray, String.length_utf8EncodeChar, List.length_cons]
      omega

/-- The digits of a hexadecimal text are encoded in one byte each. -/
theorem length_encodeUtf8_hexText (bytes : List UInt8) :
    (encodeUtf8 (hexText bytes)).length = 2 * bytes.length := by
  have hall : ∀ d < 16, (Nat.digitChar d).utf8Size = 1 := by decide
  have hdigit : ∀ n, (hexDigit n).utf8Size = 1 := fun n => hall _ (Nat.mod_lt _ (by decide))
  rw [← length_hexText, hexText, length_encodeUtf8_ofList, String.toList_ofList]
  intro c hc
  simp only [List.mem_flatMap, List.mem_cons, List.not_mem_nil, or_false] at hc
  obtain ⟨b, -, rfl | rfl⟩ := hc <;> exact hdigit _

end PyText

/-! ## HMAC

`hmac.digest(key, message, "sha256")` over the digest of the runtime. -/

namespace Hmac

variable [PyRuntime]

/-- The key as one block of 64 bytes. -/
def block (key : List UInt8) : List UInt8 :=
  let key := if 64 < key.length then PyRuntime.sha256 key else key
  key ++ List.replicate (64 - key.length) 0

def digest (key message : List UInt8) : List UInt8 :=
  PyRuntime.sha256 ((block key).map (· ^^^ 0x5C) ++
    PyRuntime.sha256 ((block key).map (· ^^^ 0x36) ++ message))

theorem length_digest (key message : List UInt8) : (digest key message).length = 32 :=
  PyRuntime.sha256_length _

/-- Two messages with one code. -/
structure Collision (key message message' : List UInt8) : Prop where
  differ : message ≠ message'
  same : digest key message = digest key message'

end Hmac
