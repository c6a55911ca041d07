import Mathlib.Data.List.Basic
import SignalFoundry.Library.Json.RoundTrip

/-!
# A concrete platform

A runtime with the real digest and the Unicode tables of the ASCII range, and a
text for every rational: an integer is written as a float with that value is,
and any other rational by a literal of its numerator and denominator. The
platform is one on which every assumption about the runtime holds at once.
-/

/-! ## SHA-256

The compression of 64-byte blocks into a state of eight words, as the standard
describes it. It is the digest of the concrete runtime; nothing is proved of it
but its length. -/

namespace Sha256

/-- The round constants. -/
def constants : List UInt32 :=
  [0x428a2f98, 0x71374491, 0xb5c0fbcf, 0xe9b5dba5, 0x3956c25b, 0x59f111f1, 0x923f82a4, 0xab1c5ed5,
   0xd807aa98, 0x12835b01, 0x243185be, 0x550c7dc3, 0x72be5d74, 0x80deb1fe, 0x9bdc06a7, 0xc19bf174,
   0xe49b69c1, 0xefbe4786, 0x0fc19dc6, 0x240ca1cc, 0x2de92c6f, 0x4a7484aa, 0x5cb0a9dc, 0x76f988da,
   0x983e5152, 0xa831c66d, 0xb00327c8, 0xbf597fc7, 0xc6e00bf3, 0xd5a79147, 0x06ca6351, 0x14292967,
   0x27b70a85, 0x2e1b2138, 0x4d2c6dfc, 0x53380d13, 0x650a7354, 0x766a0abb, 0x81c2c92e, 0x92722c85,
   0xa2bfe8a1, 0xa81a664b, 0xc24b8b70, 0xc76c51a3, 0xd192e819, 0xd6990624, 0xf40e3585, 0x106aa070,
   0x19a4c116, 0x1e376c08, 0x2748774c, 0x34b0bcb5, 0x391c0cb3, 0x4ed8aa4a, 0x5b9cca4f, 0x682e6ff3,
   0x748f82ee, 0x78a5636f, 0x84c87814, 0x8cc70208, 0x90befffa, 0xa4506ceb, 0xbef9a3f7, 0xc67178f2]

structure State where
  a : UInt32
  b : UInt32
  c : UInt32
  d : UInt32
  e : UInt32
  f : UInt32
  g : UInt32
  h : UInt32

def initial : State :=
  ⟨0x6a09e667, 0xbb67ae85, 0x3c6ef372, 0xa54ff53a, 0x510e527f, 0x9b05688c, 0x1f83d9ab, 0x5be0cd19⟩

def rotateRight (x n : UInt32) : UInt32 := (x >>> n) ||| (x <<< (32 - n))

def wordBytes (w : UInt32) : List UInt8 :=
  [(w >>> 24).toUInt8, (w >>> 16).toUInt8, (w >>> 8).toUInt8, w.toUInt8]

/-- The big-endian words of a list of bytes. -/
def words : List UInt8 → List UInt32
  | b₁ :: b₂ :: b₃ :: b₄ :: rest =>
      ((b₁.toUInt32 <<< 24) ||| (b₂.toUInt32 <<< 16) ||| (b₃.toUInt32 <<< 8) ||| b₄.toUInt32) ::
        words rest
  | _ => []

/-- The message with its end mark, zeros and its length in bits. -/
def padded (message : List UInt8) : List UInt8 :=
  let zeros := (119 - message.length % 64) % 64
  let bits := 8 * message.length
  message ++ 0x80 :: List.replicate zeros 0 ++
    (List.range 8).map fun i => UInt8.ofNat (bits / 256 ^ (7 - i))

/-- The message schedule, newest word first. -/
def scheduleFrom : ℕ → List UInt32 → List UInt32
  | 0, ws => ws
  | n + 1, ws =>
      let w₂ := ws.getD 1 0
      let w₁₅ := ws.getD 14 0
      let s₀ := rotateRight w₁₅ 7 ^^^ rotateRight w₁₅ 18 ^^^ (w₁₅ >>> 3)
      let s₁ := rotateRight w₂ 17 ^^^ rotateRight w₂ 19 ^^^ (w₂ >>> 10)
      scheduleFrom n ((ws.getD 15 0 + s₀ + ws.getD 6 0 + s₁) :: ws)

def schedule (block : List UInt8) : List UInt32 :=
  (scheduleFrom 48 (words block).reverse).reverse

def round (state : State) (step : UInt32 × UInt32) : State :=
  let s₁ := rotateRight state.e 6 ^^^ rotateRight state.e 11 ^^^ rotateRight state.e 25
  let choice := (state.e &&& state.f) ^^^ ((~~~ state.e) &&& state.g)
  let t₁ := state.h + s₁ + choice + step.1 + step.2
  let s₀ := rotateRight state.a 2 ^^^ rotateRight state.a 13 ^^^ rotateRight state.a 22
  let majority := (state.a &&& state.b) ^^^ (state.a &&& state.c) ^^^ (state.b &&& state.c)
  ⟨t₁ + (s₀ + majority), state.a, state.b, state.c, state.d + t₁, state.e, state.f, state.g⟩

def compress (state : State) (block : List UInt8) : State :=
  let last := (constants.zip (schedule block)).foldl round state
  ⟨state.a + last.a, state.b + last.b, state.c + last.c, state.d + last.d, state.e + last.e,
    state.f + last.f, state.g + last.g, state.h + last.h⟩

/-- The 64-byte blocks of a padded message. -/
def blocks : ℕ → List UInt8 → List (List UInt8)
  | 0, _ => []
  | n + 1, bytes => bytes.take 64 :: blocks n (bytes.drop 64)

/-- `hashlib.sha256(message).digest()`. -/
def digest (message : List UInt8) : List UInt8 :=
  let bytes := padded message
  let final := (blocks (bytes.length / 64) bytes).foldl compress initial
  [final.a, final.b, final.c, final.d, final.e, final.f, final.g, final.h].flatMap wordBytes

theorem length_digest (message : List UInt8) : (digest message).length = 32 := by
  simp [digest, wordBytes]

end Sha256

namespace Platform

scoped instance runtime : PyRuntime where
  sha256 := Sha256.digest
  sha256_length := Sha256.length_digest
  isPrintable c := 0x20 ≤ c.toNat && c.toNat < 0x7F
  upper c := [c]
  strRepr text := "'" ++ text ++ "'"
  isoWeekDate _ := none

/-- The characters that follow the integer part of a rational. -/
def fractionText (q : ℚ) : List Char :=
  '.' :: '0' :: if q.den = 1 then [] else 'e' :: Nat.toDigits 10 q.den

def rationalText (q : ℚ) : List Char := Json.writeInt q.num ++ fractionText q

/-- The denominator that the characters after an integer part stand for. -/
def denominatorOf : List Char → ℕ
  | '.' :: '0' :: 'e' :: digits => Nat.ofDigitChars 10 digits 0
  | _ => 1

def parseRational (text : List Char) : ℚ :=
  match Json.scanNumber text with
  | none => 0
  | some (token, _) =>
      let magnitude : ℤ := Nat.ofDigitChars 10 token.whole 0
      (if token.negative then -magnitude else magnitude) / denominatorOf token.fractional

scoped instance rationalFloatText : FloatText ℚ where
  repr q := String.ofList (rationalText q)
  parse text := parseRational text.toList
  format3g q := String.ofList (rationalText q)
  format17g q := String.ofList (rationalText q)

open Json

theorem endsDigits_fractionText (q : ℚ) : EndsDigits (fractionText q) := by
  intro c cs h
  injection h with hc
  subst hc
  decide

theorem scan_fractionText (q : ℚ) :
    (scanFraction (fractionText q)).1 ++ (scanExponent (scanFraction (fractionText q)).2).1 =
      fractionText q ∧ (scanExponent (scanFraction (fractionText q)).2).2 = [] := by
  have hzero : PyText.isDigitAscii '0' = true := by decide
  have hexponent : PyText.isDigitAscii 'e' = false := by decide
  by_cases hden : q.den = 1
  · simp [fractionText, hden, scanFraction, hzero, scanDigits, scanExponent]
  · obtain ⟨d, ds, hdigits⟩ : ∃ d ds, Nat.toDigits 10 q.den = d :: ds := by
      cases hcs : Nat.toDigits 10 q.den with
      | nil => exact absurd hcs Nat.toDigits_ne_nil
      | cons d ds => exact ⟨d, ds, rfl⟩
    have hdigit : ∀ c ∈ d :: ds, PyText.isDigitAscii c = true := fun c hc =>
      isDigitAscii_of_mem_toDigits (hdigits ▸ hc)
    have hds := scanDigits_of_all fun c hc => hdigit c (List.mem_cons_of_mem d hc)
    simp [fractionText, hden, hdigits, scanFraction, hzero, scanDigits, hexponent, scanExponent,
      hdigit d List.mem_cons_self, hds]

/-- A rational text is scanned as one float token. -/
theorem scanNumber_rationalText (q : ℚ) :
    scanNumber (rationalText q) =
      some (⟨decide (q.num < 0), Nat.toDigits 10 q.num.natAbs, fractionText q⟩, []) := by
  obtain ⟨hnegative, hunsigned⟩ := unsigned_append (writeInt_ne_nil q.num) (fractionText q)
  obtain ⟨hsign, hdigits⟩ := unsigned_writeInt q.num
  rw [hsign] at hnegative
  rw [hdigits] at hunsigned
  have hwhole := scanWhole_append (endsDigits_fractionText q) (scanWhole_toDigits q.num.natAbs)
  obtain ⟨hfractional, hrest⟩ := scan_fractionText q
  simp only [scanNumber, rationalText, hnegative, hunsigned, hwhole, List.nil_append, hfractional,
    hrest]

theorem denominatorOf_fractionText (q : ℚ) : denominatorOf (fractionText q) = q.den := by
  by_cases hden : q.den = 1
  · simp [fractionText, hden, denominatorOf]
  · simp [fractionText, hden, denominatorOf, Nat.ofDigitChars_ten_toDigits]

instance : LawfulFloatText ℚ where
  isFloatLiteral_repr q _ := by
    refine ⟨_, (congrArg scanNumber String.toList_ofList).trans (scanNumber_rationalText q), ?_, ?_⟩
    · simp [fractionText]
    · rw [NumberToken.text]
      show _ = (String.ofList (rationalText q)).toList
      rw [String.toList_ofList, rationalText, writeInt]
      by_cases hnum : q.num < 0
      · simp [hnum]
      · simp [hnum]
  parse_repr q _ := by
    have hsign : (if decide (q.num < 0) = true then -(q.num.natAbs : ℤ) else q.num.natAbs) =
        q.num := by
      by_cases hnum : q.num < 0
      · rw [if_pos (by simpa using hnum)]
        omega
      · rw [if_neg (by simpa using hnum)]
        omega
    show parseRational (String.ofList (rationalText q)).toList = q
    rw [String.toList_ofList, parseRational, scanNumber_rationalText q]
    simp only [denominatorOf_fractionText, Nat.ofDigitChars_ten_toDigits, hsign]
    exact Rat.num_div_den q

end Platform
