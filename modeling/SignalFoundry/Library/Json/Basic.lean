import Mathlib.Data.List.Sort
import Mathlib.Data.String.Basic
import SignalFoundry.Library.Fallible
import SignalFoundry.Library.PyRuntime

/-!
# JSON texts

The `json` module of the language as far as canonical documents need it. A value
is written in the compact form with sorted keys and ASCII escapes, and read by a
recursive-descent parser that is handed the pairs of every object, so that a
caller decides what an object with a repeated key is.

A text with an escaped lone surrogate is refused by the parser: such a string is
no sequence of characters, and no caller accepts it.
-/

/-- A JSON value. An object keeps its members in the order of the document. -/
inductive Json (F : Type) where
  | null
  | bool (value : Bool)
  | int (value : ℤ)
  | float (value : F)
  | str (value : String)
  | arr (items : List (Json F))
  | obj (members : List (String × Json F))

namespace Json

variable {F : Type}

/-! ## Writing -/

mutual

/-- The value with the members of every object in the order of their keys. -/
def sorted : Json F → Json F
  | arr items => arr (sortedItems items)
  | obj members => obj ((sortedMembers members).insertionSort (·.1 ≤ ·.1))
  | v => v

def sortedItems : List (Json F) → List (Json F)
  | [] => []
  | v :: rest => v.sorted :: sortedItems rest

def sortedMembers : List (String × Json F) → List (String × Json F)
  | [] => []
  | (k, v) :: rest => (k, v.sorted) :: sortedMembers rest

end

@[simp] theorem sorted_null : (null : Json F).sorted = null := by simp [sorted]

@[simp] theorem sorted_bool (b : Bool) : (bool b : Json F).sorted = bool b := by simp [sorted]

@[simp] theorem sorted_int (n : ℤ) : (int n : Json F).sorted = int n := by simp [sorted]

@[simp] theorem sorted_float (x : F) : (float x).sorted = float x := by simp [sorted]

@[simp] theorem sorted_str (s : String) : (str s : Json F).sorted = str s := by simp [sorted]

/-- The members of a sorted object. -/
def sortedDict (members : List (String × Json F)) : List (String × Json F) :=
  (sortedMembers members).insertionSort (·.1 ≤ ·.1)

theorem sorted_obj (members : List (String × Json F)) :
    (obj members).sorted = obj (sortedDict members) := by
  rw [sorted, sortedDict]

/-- Four hexadecimal digits. -/
def hex4 (n : ℕ) : List Char :=
  [PyText.hexDigit (n / 4096), PyText.hexDigit (n / 256), PyText.hexDigit (n / 16),
    PyText.hexDigit n]

/-- One character of a string under `ensure_ascii`. -/
def escape (c : Char) : List Char :=
  if c = '\\' then ['\\', '\\']
  else if c = '\x22' then ['\\', '\x22']
  else if ' ' ≤ c ∧ c ≤ '~' then [c]
  else if c = '\n' then ['\\', 'n']
  else if c = '\r' then ['\\', 'r']
  else if c = '\t' then ['\\', 't']
  else if c = '\x0c' then ['\\', 'f']
  else if c = '\x08' then ['\\', 'b']
  else if c.toNat < 0x10000 then '\\' :: 'u' :: hex4 c.toNat
  else
    let n := c.toNat - 0x10000
    '\\' :: 'u' :: hex4 (0xD800 + n / 0x400) ++ '\\' :: 'u' :: hex4 (0xDC00 + n % 0x400)

def writeString (s : String) : List Char :=
  '\x22' :: s.toList.flatMap escape ++ ['\x22']

def writeInt (n : ℤ) : List Char :=
  if n < 0 then '-' :: Nat.toDigits 10 n.natAbs else Nat.toDigits 10 n.natAbs

variable [FloatText F]

mutual

/-- The compact text of a value. -/
def write : Json F → List Char
  | null => ['n', 'u', 'l', 'l']
  | bool true => ['t', 'r', 'u', 'e']
  | bool false => ['f', 'a', 'l', 's', 'e']
  | int n => writeInt n
  | float x => (FloatText.repr x).toList
  | str s => writeString s
  | arr [] => ['[', ']']
  | arr (v :: rest) => '[' :: (v.write ++ writeItems rest)
  | obj [] => ['\x7b', '\x7d']
  | obj ((k, v) :: rest) => '\x7b' :: (writeString k ++ ':' :: (v.write ++ writeMembers rest))

/-- What follows the first item of an array. -/
def writeItems : List (Json F) → List Char
  | [] => [']']
  | v :: rest => ',' :: (v.write ++ writeItems rest)

/-- What follows the first member of an object. -/
def writeMembers : List (String × Json F) → List Char
  | [] => ['\x7d']
  | (k, v) :: rest => ',' :: (writeString k ++ ':' :: (v.write ++ writeMembers rest))

end

/-- `json.dumps(value, sort_keys=True, separators=(",", ":"), ensure_ascii=True)`. -/
def dumps (v : Json F) : String := String.ofList v.sorted.write

/-! ## Reading -/

/-- What the caller of `json.loads` decides: the value of the pairs of an object,
the value of a non-finite constant, and the error for a malformed text. -/
structure Hooks (F : Type) (ε : Type) where
  objectPairs : List (String × Json F) → Except ε (Json F)
  parseConstant : String → Except ε (Json F)
  decodeError : ε

/-- The digit limit of `int(text)`. -/
def maxIntegerDigits : ℕ := 4300

def isSpace (c : Char) : Bool := c = ' ' || c = '\t' || c = '\n' || c = '\r'

def skipSpace (cs : List Char) : List Char := cs.dropWhile isSpace

def hexValue? (c : Char) : Option ℕ :=
  if '0' ≤ c ∧ c ≤ '9' then some (c.toNat - 48)
  else if 'a' ≤ c ∧ c ≤ 'f' then some (c.toNat - 87)
  else if 'A' ≤ c ∧ c ≤ 'F' then some (c.toNat - 55)
  else none

/-- The value of four hexadecimal digits. -/
def hexValue4? (a b c d : Char) : Option ℕ := do
  return (((← hexValue? a) * 16 + (← hexValue? b)) * 16 + (← hexValue? c)) * 16 + (← hexValue? d)

/-- The character of a one-letter escape. -/
def shortEscape? : Char → Option Char
  | '\x22' => some '\x22'
  | '\\' => some '\\'
  | '/' => some '/'
  | 'b' => some '\x08'
  | 'f' => some '\x0c'
  | 'n' => some '\n'
  | 'r' => some '\r'
  | 't' => some '\t'
  | _ => none

/-- The rest of a string after its opening quote, and what follows its closing
one. -/
def scanString : List Char → Option (List Char × List Char)
  | [] => none
  | '\x22' :: rest => some ([], rest)
  | '\\' :: 'u' :: a :: b :: c :: d :: rest =>
      match hexValue4? a b c d with
      | none => none
      | some high =>
          if high < 0xD800 ∨ 0xDFFF < high then
            (scanString rest).map fun (cs, tail) => (Char.ofNat high :: cs, tail)
          else if high ≤ 0xDBFF then
            match rest with
            | '\\' :: 'u' :: e :: f :: g :: h :: rest =>
                match hexValue4? e f g h with
                | none => none
                | some low =>
                    if 0xDC00 ≤ low ∧ low ≤ 0xDFFF then
                      (scanString rest).map fun (cs, tail) =>
                        (Char.ofNat (0x10000 + (high - 0xD800) * 0x400 + (low - 0xDC00)) :: cs,
                          tail)
                    else none
            | _ => none
          else none
  | '\\' :: c :: rest =>
      match shortEscape? c with
      | none => none
      | some decoded => (scanString rest).map fun (cs, tail) => (decoded :: cs, tail)
  | c :: rest =>
      if c.toNat < 0x20 then none
      else (scanString rest).map fun (cs, tail) => (c :: cs, tail)

/-- The digits a text starts with, and what follows them. -/
def scanDigits : List Char → List Char × List Char
  | [] => ([], [])
  | c :: cs =>
      if PyText.isDigitAscii c then ((c :: (scanDigits cs).1), (scanDigits cs).2) else ([], c :: cs)

/-- `(0|[1-9][0-9]*)`. -/
def scanWhole : List Char → Option (List Char × List Char)
  | [] => none
  | c :: cs =>
      if c = '0' then some (['0'], cs)
      else if PyText.isDigitAscii c then some (c :: (scanDigits cs).1, (scanDigits cs).2)
      else none

/-- `(\.[0-9]+)?`. -/
def scanFraction : List Char → List Char × List Char
  | '.' :: c :: cs =>
      if PyText.isDigitAscii c then ('.' :: c :: (scanDigits cs).1, (scanDigits cs).2)
      else ([], '.' :: c :: cs)
  | cs => ([], cs)

/-- `([eE][-+]?[0-9]+)?`. -/
def scanExponent : List Char → List Char × List Char
  | e :: s :: cs =>
      if e = 'e' ∨ e = 'E' then
        if PyText.isDigitAscii s then (e :: s :: (scanDigits cs).1, (scanDigits cs).2)
        else if s = '-' ∨ s = '+' then
          match cs with
          | c :: rest =>
              if PyText.isDigitAscii c then
                (e :: s :: c :: (scanDigits rest).1, (scanDigits rest).2)
              else ([], e :: s :: cs)
          | [] => ([], e :: s :: cs)
        else ([], e :: s :: cs)
      else ([], e :: s :: cs)
  | cs => ([], cs)

/-- A scanned number: its sign, its digits and the part that makes it a float. -/
structure NumberToken where
  negative : Bool
  whole : List Char
  fractional : List Char

def startsNegative (cs : List Char) : Bool := cs.head? == some '-'

/-- The text after an optional minus sign. -/
def unsigned (cs : List Char) : List Char := if startsNegative cs then cs.tail else cs

/-- The number token a text starts with, and what follows it. -/
def scanNumber (cs : List Char) : Option (NumberToken × List Char) :=
  match scanWhole (unsigned cs) with
  | none => none
  | some (whole, rest) =>
      let (fraction, rest) := scanFraction rest
      let (exponent, rest) := scanExponent rest
      some (⟨startsNegative cs, whole, fraction ++ exponent⟩, rest)

def NumberToken.text (token : NumberToken) : List Char :=
  (if token.negative then ['-'] else []) ++ token.whole ++ token.fractional

/-- The value of a number token; `none` is the `ValueError` of an integer with
too many digits. -/
def NumberToken.value? (token : NumberToken) : Option (Json F) :=
  if token.fractional = [] then
    if token.whole.length ≤ maxIntegerDigits then
      let magnitude : ℤ := Nat.ofDigitChars 10 token.whole 0
      some (int (if token.negative then -magnitude else magnitude))
    else none
  else some (float (FloatText.parse (String.ofList token.text)))

section Parser

variable {ε : Type} (hooks : Hooks F ε)

def parseNumber (cs : List Char) : Except ε (Json F × List Char) :=
  match scanNumber cs with
  | none => .error hooks.decodeError
  | some (token, rest) =>
      match (token.value? : Option (Json F)) with
      | none => .error hooks.decodeError
      | some v => .ok (v, rest)

mutual

/-- One value. The first argument bounds the number of nested calls. -/
def parseValue : ℕ → List Char → Except ε (Json F × List Char)
  | 0, _ => .error hooks.decodeError
  | fuel + 1, cs =>
      match cs with
      | '\x22' :: rest =>
          match scanString rest with
          | none => .error hooks.decodeError
          | some (s, rest) => .ok (str (String.ofList s), rest)
      | '\x7b' :: rest => parseObject fuel (skipSpace rest)
      | '[' :: rest => parseArray fuel (skipSpace rest)
      | 'n' :: 'u' :: 'l' :: 'l' :: rest => .ok (null, rest)
      | 't' :: 'r' :: 'u' :: 'e' :: rest => .ok (bool true, rest)
      | 'f' :: 'a' :: 'l' :: 's' :: 'e' :: rest => .ok (bool false, rest)
      | 'N' :: 'a' :: 'N' :: rest => do return (← hooks.parseConstant "NaN", rest)
      | 'I' :: 'n' :: 'f' :: 'i' :: 'n' :: 'i' :: 't' :: 'y' :: rest => do
          return (← hooks.parseConstant "Infinity", rest)
      | '-' :: 'I' :: 'n' :: 'f' :: 'i' :: 'n' :: 'i' :: 't' :: 'y' :: rest => do
          return (← hooks.parseConstant "-Infinity", rest)
      | cs => parseNumber hooks cs

/-- An array after its bracket. -/
def parseArray : ℕ → List Char → Except ε (Json F × List Char)
  | 0, _ => .error hooks.decodeError
  | fuel + 1, cs =>
      match cs with
      | ']' :: rest => .ok (arr [], rest)
      | cs => do
          let (items, rest) ← parseItems fuel cs
          return (arr items, rest)

/-- The items of an array up to its closing bracket. -/
def parseItems : ℕ → List Char → Except ε (List (Json F) × List Char)
  | 0, _ => .error hooks.decodeError
  | fuel + 1, cs => do
      let (v, rest) ← parseValue fuel cs
      match skipSpace rest with
      | ']' :: rest => return ([v], rest)
      | ',' :: rest => do
          let (items, rest) ← parseItems fuel (skipSpace rest)
          return (v :: items, rest)
      | _ => .error hooks.decodeError

/-- An object after its brace. -/
def parseObject : ℕ → List Char → Except ε (Json F × List Char)
  | 0, _ => .error hooks.decodeError
  | fuel + 1, cs =>
      match cs with
      | '\x7d' :: rest => do return (← hooks.objectPairs [], rest)
      | cs => do
          let (members, rest) ← parseMembers fuel cs
          return (← hooks.objectPairs members, rest)

/-- The members of an object up to its closing brace. -/
def parseMembers : ℕ → List Char → Except ε (List (String × Json F) × List Char)
  | 0, _ => .error hooks.decodeError
  | fuel + 1, cs =>
      match cs with
      | '\x22' :: rest =>
          match scanString rest with
          | none => .error hooks.decodeError
          | some (key, rest) =>
              match skipSpace rest with
              | ':' :: rest => do
                  let (v, rest) ← parseValue fuel (skipSpace rest)
                  match skipSpace rest with
                  | '\x7d' :: rest => return ([(String.ofList key, v)], rest)
                  | ',' :: rest => do
                      let (members, rest) ← parseMembers fuel (skipSpace rest)
                      return ((String.ofList key, v) :: members, rest)
                  | _ => .error hooks.decodeError
              | _ => .error hooks.decodeError
      | _ => .error hooks.decodeError

end

/-- `json.loads(text)`. Every nested call but every other one has consumed a
character, which bounds their number by the length of the text. -/
def loads (text : String) : Except ε (Json F) := do
  if text.toList.head? = some '\uFEFF' then
    .error hooks.decodeError
  else
    let cs := skipSpace text.toList
    let (v, rest) ← parseValue hooks (2 * cs.length + 2) cs
    if skipSpace rest = [] then return v else .error hooks.decodeError

end Parser

end Json

/-! ## Payloads without floats

A payload that is digested for an identity often holds no float, so that its floats
are the elements of the unit type. -/

namespace Json

instance floatlessText : FloatText Unit := ⟨fun _ => "", fun _ => (), fun _ => "", fun _ => ""⟩

end Json
