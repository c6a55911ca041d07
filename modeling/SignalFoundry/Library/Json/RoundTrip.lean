import SignalFoundry.Library.Json.Basic
import SignalFoundry.Library.OrderedDict
import SignalFoundry.Library.PyFloat

/-!
# Reading back what was written

`loads_dumps`: a document is read back from its canonical text, with its members
in the order of their keys. The parser is proved complete on written texts only,
one scanner at a time: a scanner that stopped inside a text stops at the same
place when a delimiter and anything else follows, so each part of a document can
be read on its own.
-/

/-! ## Other escapes

The compact text of a document under another escape of characters. `dumps` with
`ensure_ascii=False` escapes the quote, the backslash and the control characters
and leaves every other character as it is. -/

namespace Json

/-- One character of a string without `ensure_ascii`. -/
def escapeControl (c : Char) : List Char :=
  if c = '\\' then ['\\', '\\']
  else if c = '\x22' then ['\\', '\x22']
  else if ' ' ≤ c then [c]
  else if c = '\n' then ['\\', 'n']
  else if c = '\r' then ['\\', 'r']
  else if c = '\t' then ['\\', 't']
  else if c = '\x0c' then ['\\', 'f']
  else if c = '\x08' then ['\\', 'b']
  else '\\' :: 'u' :: hex4 c.toNat

variable {F : Type} [FloatText F] (esc : Char → List Char)

def writeStringWith (s : String) : List Char :=
  '\x22' :: s.toList.flatMap esc ++ ['\x22']

mutual

/-- The compact text of a value, its strings under an escape. -/
def writeWith : Json F → List Char
  | null => ['n', 'u', 'l', 'l']
  | bool true => ['t', 'r', 'u', 'e']
  | bool false => ['f', 'a', 'l', 's', 'e']
  | int n => writeInt n
  | float x => (FloatText.repr x).toList
  | str s => writeStringWith esc s
  | arr [] => ['[', ']']
  | arr (v :: rest) => '[' :: (writeWith v ++ writeItemsWith rest)
  | obj [] => ['\x7b', '\x7d']
  | obj ((k, v) :: rest) =>
      '\x7b' :: (writeStringWith esc k ++ ':' :: (writeWith v ++ writeMembersWith rest))

def writeItemsWith : List (Json F) → List Char
  | [] => [']']
  | v :: rest => ',' :: (writeWith v ++ writeItemsWith rest)

def writeMembersWith : List (String × Json F) → List Char
  | [] => ['\x7d']
  | (k, v) :: rest =>
      ',' :: (writeStringWith esc k ++ ':' :: (writeWith v ++ writeMembersWith rest))

end

/-- `json.dumps(value, sort_keys=True, separators=(",", ":"), ensure_ascii=False)`. -/
def dumpsUnicode (v : Json F) : String := String.ofList (v.sorted.writeWith escapeControl)

mutual

theorem writeWith_escape : ∀ v : Json F, v.writeWith escape = v.write
  | null | bool true | bool false | int _ | float _ | str _ | arr [] | obj [] => by
      simp only [writeWith, write, writeStringWith, writeString]
  | arr (v :: rest) => by
      rw [writeWith, write, writeWith_escape v, writeItemsWith_escape rest]
  | obj ((k, v) :: rest) => by
      rw [writeWith, write, writeWith_escape v, writeMembersWith_escape rest]
      rfl

theorem writeItemsWith_escape : ∀ items : List (Json F),
    writeItemsWith escape items = writeItems items
  | [] => by rw [writeItemsWith, writeItems]
  | v :: rest => by
      rw [writeItemsWith, writeItems, writeWith_escape v, writeItemsWith_escape rest]

theorem writeMembersWith_escape : ∀ members : List (String × Json F),
    writeMembersWith escape members = writeMembers members
  | [] => by rw [writeMembersWith, writeMembers]
  | (k, v) :: rest => by
      rw [writeMembersWith, writeMembers, writeWith_escape v, writeMembersWith_escape rest]
      rfl

end

end Json

namespace Json

/-- What may follow a value inside a document. -/
def Delimited : List Char → Prop
  | [] => True
  | c :: _ => c = ',' ∨ c = ']' ∨ c = '\x7d'

/-! ## Strings -/

theorem hexValue?_hexDigit (n : ℕ) : hexValue? (PyText.hexDigit n) = some (n % 16) := by
  have hall : ∀ d < 16, hexValue? (Nat.digitChar d) = some d := by decide
  exact hall (n % 16) (Nat.mod_lt _ (by decide))

theorem hexValue4?_digits {n : ℕ} (h : n < 65536) :
    hexValue4? (PyText.hexDigit (n / 4096)) (PyText.hexDigit (n / 256))
      (PyText.hexDigit (n / 16)) (PyText.hexDigit n) = some n := by
  simp only [hexValue4?, hexValue?_hexDigit, Option.bind_eq_bind, Option.bind_some,
    Option.pure_def, Option.some.injEq]
  omega

theorem scanString_unicode {n : ℕ} (h : n < 0xD800 ∨ 0xDFFF < n ∧ n < 0x10000)
    (tail : List Char) :
    scanString ('\\' :: 'u' :: hex4 n ++ tail) =
      (scanString tail).map fun p => (Char.ofNat n :: p.1, p.2) := by
  have hlt : n < 65536 := by omega
  simp only [hex4, List.cons_append, List.nil_append]
  rw [scanString]
  simp only [hexValue4?_digits hlt]
  rw [if_pos (by omega)]

theorem scanString_surrogates {n : ℕ} (h : n < 0x100000) (tail : List Char) :
    scanString ('\\' :: 'u' :: hex4 (0xD800 + n / 0x400) ++
        '\\' :: 'u' :: hex4 (0xDC00 + n % 0x400) ++ tail) =
      (scanString tail).map fun p => (Char.ofNat (0x10000 + n) :: p.1, p.2) := by
  have hhigh : 0xD800 + n / 0x400 < 65536 := by omega
  have hlow : 0xDC00 + n % 0x400 < 65536 := by omega
  simp only [hex4, List.cons_append, List.nil_append]
  rw [scanString]
  simp only [hexValue4?_digits hhigh, hexValue4?_digits hlow]
  rw [if_neg (by omega), if_pos (by omega), if_pos (by omega)]
  have hvalue : 0x10000 + (0xD800 + n / 0x400 - 0xD800) * 0x400 +
      (0xDC00 + n % 0x400 - 0xDC00) = 0x10000 + n := by omega
  rw [hvalue]

/-- A plain character is scanned as itself. -/
theorem scanString_plain {c : Char} (hbackslash : c ≠ '\\') (hquote : c ≠ '\x22') (hc : ' ' ≤ c)
    (tail : List Char) :
    scanString (c :: tail) = (scanString tail).map fun p => (c :: p.1, p.2) := by
  have hprintable : ¬ c.toNat < 0x20 := not_lt.mpr hc
  rw [scanString, if_neg hprintable]
  · exact hquote
  · rintro a b d e rest rfl
    exact absurd rfl hbackslash
  · rintro d rest rfl
    exact absurd rfl hbackslash

/-- An escaped character is scanned as that character. -/
theorem scanString_escape (c : Char) (tail : List Char) :
    scanString (escape c ++ tail) = (scanString tail).map fun p => (c :: p.1, p.2) := by
  unfold escape
  split_ifs with hbackslash hquote hplain hnewline hreturn htab hfeed hback hbmp
  · subst hbackslash
    simp [scanString, shortEscape?]
  · subst hquote
    simp [scanString, shortEscape?]
  · exact scanString_plain hbackslash hquote hplain.1 tail
  · subst hnewline
    simp [scanString, shortEscape?]
  · subst hreturn
    simp [scanString, shortEscape?]
  · subst htab
    simp [scanString, shortEscape?]
  · subst hfeed
    simp [scanString, shortEscape?]
  · subst hback
    simp [scanString, shortEscape?]
  · rw [scanString_unicode ?_ tail, Char.ofNat_toNat]
    rcases c.valid with h | ⟨h, -⟩
    · exact .inl h
    · exact .inr ⟨h, hbmp⟩
  · have hrange : c.toNat - 0x10000 < 0x100000 := by
      have hlt : c.toNat < 0x110000 := by
        rcases c.valid with h | ⟨-, h⟩
        · exact lt_trans h (by decide)
        · exact h
      omega
    have hvalue : 0x10000 + (c.toNat - 0x10000) = c.toNat := by omega
    have hscan := scanString_surrogates hrange tail
    rw [hvalue, Char.ofNat_toNat] at hscan
    simpa using hscan

/-- An escape whose texts are scanned as the characters they stand for. -/
def Escapes (esc : Char → List Char) : Prop :=
  ∀ (c : Char) (tail : List Char),
    scanString (esc c ++ tail) = (scanString tail).map fun p => (c :: p.1, p.2)

theorem escapes_escapeControl : Escapes escapeControl := by
  intro c tail
  unfold escapeControl
  split_ifs with hbackslash hquote hplain hnewline hreturn htab hfeed hback
  · subst hbackslash
    simp [scanString, shortEscape?]
  · subst hquote
    simp [scanString, shortEscape?]
  · exact scanString_plain hbackslash hquote hplain tail
  · subst hnewline
    simp [scanString, shortEscape?]
  · subst hreturn
    simp [scanString, shortEscape?]
  · subst htab
    simp [scanString, shortEscape?]
  · subst hfeed
    simp [scanString, shortEscape?]
  · subst hback
    simp [scanString, shortEscape?]
  · have hcontrol : c.toNat < 0x20 := not_le.mp hplain
    rw [scanString_unicode (.inl (by omega)) tail, Char.ofNat_toNat]

theorem scanString_flatMap {esc : Char → List Char} (h : Escapes esc) (cs rest : List Char) :
    scanString (cs.flatMap esc ++ '\x22' :: rest) = some (cs, rest) := by
  induction cs with
  | nil => simp [scanString]
  | cons c cs ih =>
      rw [List.flatMap_cons, List.append_assoc, h, ih]
      rfl

theorem scanString_flatMap_escape (cs rest : List Char) :
    scanString (cs.flatMap escape ++ '\x22' :: rest) = some (cs, rest) :=
  scanString_flatMap scanString_escape cs rest

/-! ## Numbers -/

theorem Delimited.head_ne {rest : List Char} (h : Delimited rest) {c : Char} {cs : List Char}
    (hrest : rest = c :: cs) : PyText.isDigitAscii c = false ∧ c ≠ '.' ∧ c ≠ 'e' ∧ c ≠ 'E' ∧
      c ≠ '-' ∧ c ≠ '+' := by
  subst hrest
  rcases h with rfl | rfl | rfl <;> decide

/-- A text that does not continue a run of digits. -/
def EndsDigits (rest : List Char) : Prop :=
  ∀ c cs, rest = c :: cs → PyText.isDigitAscii c = false

theorem Delimited.endsDigits {rest : List Char} (h : Delimited rest) : EndsDigits rest :=
  fun _ _ hrest => (h.head_ne hrest).1

theorem scanDigits_append {rest : List Char} (h : EndsDigits rest) (cs : List Char) :
    scanDigits (cs ++ rest) = ((scanDigits cs).1, (scanDigits cs).2 ++ rest) := by
  induction cs with
  | nil =>
      cases rest with
      | nil => rfl
      | cons c rest => simp [scanDigits, h c rest rfl]
  | cons c cs ih =>
      by_cases hc : PyText.isDigitAscii c = true
      · simp [scanDigits, hc, ih]
      · simp [scanDigits, hc]

theorem scanWhole_append {rest : List Char} (h : EndsDigits rest) {cs whole tail : List Char}
    (hscan : scanWhole cs = some (whole, tail)) :
    scanWhole (cs ++ rest) = some (whole, tail ++ rest) := by
  cases cs with
  | nil => simp [scanWhole] at hscan
  | cons c cs =>
      simp only [scanWhole, List.cons_append] at hscan ⊢
      split at hscan
      · next hzero =>
        rw [if_pos hzero]
        cases hscan
        rfl
      · next hzero =>
        rw [if_neg hzero]
        split at hscan
        · next hdigit =>
          rw [if_pos hdigit, scanDigits_append h]
          cases hscan
          rfl
        · cases hscan

theorem scanFraction_append {rest : List Char} (h : Delimited rest) (cs : List Char) :
    scanFraction (cs ++ rest) = ((scanFraction cs).1, (scanFraction cs).2 ++ rest) := by
  cases cs with
  | nil =>
      match rest with
      | [] => rfl
      | [c] => simp [scanFraction]
      | c :: d :: rest => simp [scanFraction, (h.head_ne rfl).2.1]
  | cons c cs =>
      by_cases hpoint : c = '.'
      · subst hpoint
        cases cs with
        | nil =>
            cases rest with
            | nil => rfl
            | cons d rest => simp [scanFraction, (h.head_ne rfl).1]
        | cons d cs =>
            by_cases hd : PyText.isDigitAscii d = true
            · simp [scanFraction, hd, scanDigits_append h.endsDigits]
            · simp [scanFraction, hd]
      · simp [scanFraction, hpoint]

theorem scanExponent_append {rest : List Char} (h : Delimited rest) (cs : List Char) :
    scanExponent (cs ++ rest) = ((scanExponent cs).1, (scanExponent cs).2 ++ rest) := by
  match cs with
  | [] =>
      match rest with
      | [] => rfl
      | [c] => rfl
      | c :: d :: rest =>
          obtain ⟨-, -, he, hE, -, -⟩ := h.head_ne rfl
          simp [scanExponent, he, hE]
  | [e] =>
      cases rest with
      | nil => rfl
      | cons c rest =>
          obtain ⟨hdigit, -, -, -, hminus, hplus⟩ := h.head_ne rfl
          simp [scanExponent, hdigit, hminus, hplus]
  | e :: s :: cs =>
      by_cases he : e = 'e' ∨ e = 'E'
      · by_cases hs : PyText.isDigitAscii s = true
        · simp [scanExponent, he, hs, scanDigits_append h.endsDigits]
        · by_cases hsign : s = '-' ∨ s = '+'
          · match cs with
            | [] =>
                cases rest with
                | nil => simp [scanExponent, he, hs, hsign]
                | cons c rest => simp [scanExponent, he, hs, hsign, (h.head_ne rfl).1]
            | c :: cs =>
                by_cases hc : PyText.isDigitAscii c = true
                · simp [scanExponent, he, hs, hsign, hc, scanDigits_append h.endsDigits]
                · simp [scanExponent, he, hs, hsign, hc]
          · simp [scanExponent, he, hs, hsign]
      · simp [scanExponent, he]

theorem unsigned_append {cs : List Char} (h : cs ≠ []) (rest : List Char) :
    startsNegative (cs ++ rest) = startsNegative cs ∧ unsigned (cs ++ rest) = unsigned cs ++ rest := by
  cases cs with
  | nil => exact absurd rfl h
  | cons c cs =>
      refine ⟨rfl, ?_⟩
      by_cases hc : c = '-'
      · simp [unsigned, startsNegative, hc]
      · simp [unsigned, startsNegative, hc]

/-- A number at the end of a text is scanned alike before a delimiter. -/
theorem scanNumber_append {rest : List Char} (h : Delimited rest) {cs tail : List Char}
    {token : NumberToken} (hscan : scanNumber cs = some (token, tail)) :
    scanNumber (cs ++ rest) = some (token, tail ++ rest) := by
  have hne : cs ≠ [] := by
    rintro rfl
    simp [scanNumber, unsigned, startsNegative, scanWhole] at hscan
  obtain ⟨hnegative, hunsigned⟩ := unsigned_append hne rest
  unfold scanNumber at hscan ⊢
  rw [hnegative, hunsigned]
  cases hwhole : scanWhole (unsigned cs) with
  | none =>
      rw [hwhole] at hscan
      cases hscan
  | some p =>
      obtain ⟨whole, after⟩ := p
      simp only [hwhole, Option.some.injEq, Prod.mk.injEq] at hscan
      obtain ⟨rfl, rfl⟩ := hscan
      simp only [scanWhole_append h.endsDigits hwhole, scanFraction_append h, scanExponent_append h]

theorem scanDigits_of_all {ds : List Char} (h : ∀ c ∈ ds, PyText.isDigitAscii c = true) :
    scanDigits ds = (ds, []) := by
  induction ds with
  | nil => rfl
  | cons d ds ih =>
      simp [scanDigits, h d List.mem_cons_self, ih fun c hc => h c (List.mem_cons_of_mem d hc)]

theorem isDigitAscii_of_mem_toDigits {n : ℕ} {c : Char} (h : c ∈ Nat.toDigits 10 n) :
    PyText.isDigitAscii c = true := by
  have hdigit := Nat.isDigit_of_mem_toDigits (by decide) (by decide) h
  simpa [PyText.isDigitAscii, Char.isDigit, Char.le_def] using hdigit

/-- A positive number is not written with a leading zero. -/
theorem head_toDigits_ne_zero {n : ℕ} (h : 0 < n) : (Nat.toDigits 10 n).head? ≠ some '0' := by
  induction n using Nat.strong_induction_on with
  | _ n ih =>
      by_cases hlt : n < 10
      · have hall : ∀ d < 10, 0 < d → [Nat.digitChar d].head? ≠ some '0' := by decide
        rw [Nat.toDigits_of_lt_base hlt]
        exact hall n hlt h
      · have hdiv : 0 < n / 10 := Nat.div_pos (not_lt.mp hlt) (by decide)
        have hsplit := Nat.toDigits_append_toDigits (b := 10) (n := n / 10) (d := n % 10)
          (by decide) hdiv (Nat.mod_lt _ (by decide))
        rw [Nat.div_add_mod] at hsplit
        have hhead := ih (n / 10) (Nat.div_lt_self h (by decide)) hdiv
        rw [← hsplit]
        cases hdigits : Nat.toDigits 10 (n / 10) with
        | nil => exact absurd hdigits Nat.toDigits_ne_nil
        | cons c cs =>
            rw [hdigits] at hhead
            simpa using hhead

theorem scanWhole_toDigits (n : ℕ) :
    scanWhole (Nat.toDigits 10 n) = some (Nat.toDigits 10 n, []) := by
  by_cases hzero : n = 0
  · subst hzero
    decide
  · have hhead := head_toDigits_ne_zero (Nat.pos_of_ne_zero hzero)
    have hdigit := fun c => isDigitAscii_of_mem_toDigits (n := n) (c := c)
    cases hdigits : Nat.toDigits 10 n with
    | nil => exact absurd hdigits Nat.toDigits_ne_nil
    | cons c cs =>
        rw [hdigits] at hhead hdigit
        have hc : c ≠ '0' := by simpa using hhead
        simp [scanWhole, hc, hdigit c List.mem_cons_self,
          scanDigits_of_all fun d hd => hdigit d (List.mem_cons_of_mem c hd)]

theorem writeInt_ne_nil (n : ℤ) : writeInt n ≠ [] := by
  unfold writeInt
  split
  · exact List.cons_ne_nil _ _
  · exact Nat.toDigits_ne_nil

theorem unsigned_writeInt (n : ℤ) :
    startsNegative (writeInt n) = decide (n < 0) ∧
      unsigned (writeInt n) = Nat.toDigits 10 n.natAbs := by
  by_cases hn : n < 0
  · simp [writeInt, hn, unsigned, startsNegative]
  · have hminus : '-' ∉ Nat.toDigits 10 n.natAbs := fun h =>
      absurd (isDigitAscii_of_mem_toDigits h) (by decide)
    have hhead : startsNegative (Nat.toDigits 10 n.natAbs) = false := by
      rw [startsNegative, beq_eq_false_iff_ne]
      exact fun h => hminus (List.mem_of_head? h)
    simp [writeInt, hn, unsigned, hhead]

theorem scanNumber_writeInt (n : ℤ) :
    scanNumber (writeInt n) =
      some (⟨decide (n < 0), Nat.toDigits 10 n.natAbs, []⟩, []) := by
  obtain ⟨hnegative, hunsigned⟩ := unsigned_writeInt n
  simp [scanNumber, hnegative, hunsigned, scanWhole_toDigits, scanFraction, scanExponent]

/-! ## Values -/

variable {F : Type} [FloatText F]

/-- A text that the number scanner takes whole, as a float. -/
def IsFloatLiteral (text : List Char) : Prop :=
  ∃ token, scanNumber text = some (token, []) ∧ token.fractional ≠ [] ∧ token.text = text

mutual

/-- A value whose numbers are read back from their texts and whose objects have
no repeated key. -/
def Writable : Json F → Prop
  | int n => (Nat.toDigits 10 n.natAbs).length ≤ maxIntegerDigits
  | float x => IsFloatLiteral (FloatText.repr x).toList ∧ FloatText.parse (FloatText.repr x) = x
  | arr items => WritableItems items
  | obj members => (members.map Prod.fst).Nodup ∧ WritableMembers members
  | _ => True

def WritableItems : List (Json F) → Prop
  | [] => True
  | v :: rest => v.Writable ∧ WritableItems rest

def WritableMembers : List (String × Json F) → Prop
  | [] => True
  | (_, v) :: rest => v.Writable ∧ WritableMembers rest

end

theorem value?_writeInt {n : ℤ} (h : (Nat.toDigits 10 n.natAbs).length ≤ maxIntegerDigits) :
    (NumberToken.value? ⟨decide (n < 0), Nat.toDigits 10 n.natAbs, []⟩ : Option (Json F)) =
      some (int n) := by
  rw [NumberToken.value?, if_pos rfl, if_pos h]
  simp only [Nat.ofDigitChars_ten_toDigits, decide_eq_true_eq, Option.some.injEq, int.injEq]
  split <;> omega

/-- The first character of a number. -/
theorem head_of_scanNumber {cs tail : List Char} {token : NumberToken}
    (h : scanNumber cs = some (token, tail)) :
    ∃ c rest, cs = c :: rest ∧ (PyText.isDigitAscii c = true ∨
      c = '-' ∧ ∃ d rest', rest = d :: rest' ∧ PyText.isDigitAscii d = true) := by
  cases cs with
  | nil => simp [scanNumber, unsigned, startsNegative, scanWhole] at h
  | cons c rest =>
      refine ⟨c, rest, rfl, ?_⟩
      by_cases hc : c = '-'
      · subst hc
        right
        cases rest with
        | nil => simp [scanNumber, unsigned, startsNegative, scanWhole] at h
        | cons d rest' =>
            refine ⟨rfl, d, rest', rfl, ?_⟩
            by_contra hd
            have hzero : d ≠ '0' := fun hz => hd (by rw [hz]; decide)
            simp [scanNumber, unsigned, startsNegative, scanWhole, hd, hzero] at h
      · left
        by_contra hd
        have hzero : c ≠ '0' := fun hz => hd (by rw [hz]; decide)
        simp [scanNumber, unsigned, startsNegative, scanWhole, hd, hzero, hc] at h

variable {ε : Type} (hooks : Hooks F ε)

/-- A text that starts with a number is parsed as one. -/
theorem parseValue_number (fuel : ℕ) {cs rest : List Char} {token : NumberToken} {v : Json F}
    (hscan : scanNumber cs = some (token, rest)) (hvalue : token.value? = some v) :
    parseValue hooks (fuel + 1) cs = .ok (v, rest) := by
  have hnumber : parseNumber hooks cs = .ok (v, rest) := by
    simp only [parseNumber, hscan, hvalue]
  obtain ⟨c, tail, rfl, hdigit | ⟨rfl, d, tail', rfl, hd⟩⟩ := head_of_scanNumber hscan
  · rw [parseValue]
    · exact hnumber
    -- no other form of value starts with a digit
    all_goals
      intros
      rename_i heq
      cases heq
      exact absurd hdigit (by decide)
  · rw [parseValue]
    · exact hnumber
    -- a minus sign before a digit is not the negative infinity
    all_goals
      intros
      rename_i heq
      cases heq
      try exact absurd hd (by decide)

/-- A text inside an array or after a colon that the parser does not skip over. -/
def Starts (cs : List Char) : Prop :=
  ∃ c rest, cs = c :: rest ∧ isSpace c = false ∧ c ≠ ']' ∧ c ≠ '\uFEFF'

theorem starts_of_scanNumber {cs tail : List Char} {token : NumberToken}
    (h : scanNumber cs = some (token, tail)) : Starts cs := by
  obtain ⟨c, rest, rfl, hdigit | ⟨rfl, -⟩⟩ := head_of_scanNumber h
  · refine ⟨c, rest, rfl, ?_, ?_, ?_⟩
    · by_contra hspace
      simp only [isSpace, Bool.not_eq_false, Bool.or_eq_true, decide_eq_true_eq] at hspace
      rcases hspace with ((rfl | rfl) | rfl) | rfl <;> exact absurd hdigit (by decide)
    all_goals
      rintro rfl
      exact absurd hdigit (by decide)
  · exact ⟨'-', rest, rfl, by decide, by decide, by decide⟩

variable (esc : Char → List Char)

theorem starts_writeWith {v : Json F} (h : v.Writable) :
    Starts (v.writeWith esc) := by
  cases v with
  | null => exact ⟨_, _, rfl, by decide, by decide, by decide⟩
  | bool b => cases b <;> exact ⟨_, _, rfl, by decide, by decide, by decide⟩
  | int n => exact starts_of_scanNumber (scanNumber_writeInt n)
  | float x =>
      obtain ⟨token, hscan, -, -⟩ := h.1
      exact starts_of_scanNumber hscan
  | str s => exact ⟨_, _, rfl, by decide, by decide, by decide⟩
  | arr items => cases items <;> exact ⟨_, _, rfl, by decide, by decide, by decide⟩
  | obj members =>
      cases members with
      | nil => exact ⟨_, _, rfl, by decide, by decide, by decide⟩
      | cons m members => exact ⟨_, _, rfl, by decide, by decide, by decide⟩

theorem skipSpace_of_starts {cs : List Char} (h : Starts cs) (rest : List Char) :
    skipSpace (cs ++ rest) = cs ++ rest := by
  obtain ⟨c, tail, rfl, hc, -, -⟩ := h
  simp [skipSpace, hc]

/-- An object whose keys do not repeat is what the caller makes of its pairs. -/
def KeepsPairs (hooks : Hooks F ε) : Prop :=
  ∀ members : List (String × Json F), (members.map Prod.fst).Nodup →
    hooks.objectPairs members = .ok (obj members)

/-- The parser reads every value that fits in the given number of calls. -/
def ReadsValues (n : ℕ) : Prop :=
  ∀ (v : Json F) (rest : List Char), v.Writable → Delimited rest →
    2 * (v.writeWith esc).length ≤ n → parseValue hooks n (v.writeWith esc ++ rest) = .ok (v, rest)

def ReadsItems (n : ℕ) : Prop :=
  ∀ (v : Json F) (items : List (Json F)) (rest : List Char), v.Writable → WritableItems items →
    2 * ((v.writeWith esc).length + (writeItemsWith esc items).length) ≤ n →
      parseItems hooks n (v.writeWith esc ++ writeItemsWith esc items ++ rest) =
        .ok (v :: items, rest)

def ReadsMembers (n : ℕ) : Prop :=
  ∀ (k : String) (v : Json F) (members : List (String × Json F)) (rest : List Char),
    v.Writable → WritableMembers members →
      2 * ((v.writeWith esc).length + (writeMembersWith esc members).length) ≤ n →
        parseMembers hooks n (writeStringWith esc k ++
          ':' :: (v.writeWith esc ++ writeMembersWith esc members) ++ rest) =
            .ok ((k, v) :: members, rest)

theorem delimited_writeItemsWith (items : List (Json F)) (rest : List Char) :
    Delimited (writeItemsWith esc items ++ rest) := by
  cases items with
  | nil => exact Or.inr (Or.inl rfl)
  | cons v items => exact Or.inl rfl

theorem delimited_writeMembersWith (members : List (String × Json F)) (rest : List Char) :
    Delimited (writeMembersWith esc members ++ rest) := by
  cases members with
  | nil => exact Or.inr (Or.inr rfl)
  | cons m members => exact Or.inl rfl

theorem length_writeWith_pos {v : Json F} (h : v.Writable) : 0 < (v.writeWith esc).length := by
  obtain ⟨c, cs, hcs, -, -, -⟩ := starts_writeWith esc h
  simp [hcs]

theorem readsItems_succ {n : ℕ} (hvalues : ReadsValues hooks esc n) (hitems : ReadsItems hooks esc n) :
    ReadsItems hooks esc (n + 1) := by
  intro v items rest hv hrest hfuel
  have hpos := length_writeWith_pos esc hv
  cases items with
  | nil =>
      simp only [writeItemsWith, List.length_cons, List.length_nil] at hfuel
      rw [parseItems, List.append_assoc, hvalues v _ hv (delimited_writeItemsWith esc _ _) (by omega)]
      rfl
  | cons w items =>
      obtain ⟨hw, hitemsw⟩ := hrest
      simp only [writeItemsWith, List.length_cons, List.length_append] at hfuel
      rw [parseItems, List.append_assoc, hvalues v _ hv (delimited_writeItemsWith esc _ _) (by omega)]
      have hskip : skipSpace (writeItemsWith esc (w :: items) ++ rest) =
          ',' :: (w.writeWith esc ++ writeItemsWith esc items ++ rest) := by
        simp [writeItemsWith, skipSpace, isSpace]
      simp only [Fallible.ok_bind, hskip]
      rw [List.append_assoc, skipSpace_of_starts (starts_writeWith esc hw), ← List.append_assoc,
        hitems w items rest hw hitemsw (by omega)]
      rfl

variable {esc}

theorem scanString_writeStringWith (hesc : Escapes esc) (s : String) (rest : List Char) :
    ∃ tail, writeStringWith esc s ++ rest = '\x22' :: tail ∧
      scanString tail = some (s.toList, rest) := by
  refine ⟨s.toList.flatMap esc ++ '\x22' :: rest, ?_, scanString_flatMap hesc _ _⟩
  simp [writeStringWith]

theorem scanString_writeString (s : String) (rest : List Char) :
    ∃ tail, writeString s ++ rest = '\x22' :: tail ∧ scanString tail = some (s.toList, rest) :=
  scanString_writeStringWith scanString_escape s rest

theorem readsMembers_succ (hesc : Escapes esc) {n : ℕ} (hvalues : ReadsValues hooks esc n)
    (hmembers : ReadsMembers hooks esc n) : ReadsMembers hooks esc (n + 1) := by
  intro k v members rest hv hrest hfuel
  have hpos := length_writeWith_pos esc hv
  obtain ⟨tail, htext, hscan⟩ :=
    scanString_writeStringWith hesc k (':' :: (v.writeWith esc ++ writeMembersWith esc members ++ rest))
  have htext' : writeStringWith esc k ++
      ':' :: (v.writeWith esc ++ writeMembersWith esc members) ++ rest = '\x22' :: tail := by
    rw [← htext]
    simp
  have hcolon : skipSpace (':' :: (v.writeWith esc ++ writeMembersWith esc members ++ rest)) =
      ':' :: (v.writeWith esc ++ writeMembersWith esc members ++ rest) := by
    simp [skipSpace, isSpace]
  rw [htext', parseMembers]
  simp only [hscan, hcolon]
  rw [List.append_assoc, skipSpace_of_starts (starts_writeWith esc hv)]
  cases members with
  | nil =>
      simp only [writeMembersWith, List.length_cons, List.length_nil] at hfuel
      rw [hvalues v _ hv (delimited_writeMembersWith esc _ _) (by omega)]
      simp only [Fallible.ok_bind, String.ofList_toList]
      rfl
  | cons m members =>
      obtain ⟨j, w⟩ := m
      obtain ⟨hw, hmembersw⟩ := hrest
      simp only [writeMembersWith, List.length_cons, List.length_append] at hfuel
      rw [hvalues v _ hv (delimited_writeMembersWith esc _ _) (by omega)]
      have hskip : skipSpace (writeMembersWith esc ((j, w) :: members) ++ rest) =
          ',' :: (writeStringWith esc j ++
            ':' :: (w.writeWith esc ++ writeMembersWith esc members) ++ rest) := by
        simp [writeMembersWith, skipSpace, isSpace]
      have hstarts : Starts (writeStringWith esc j ++
          ':' :: (w.writeWith esc ++ writeMembersWith esc members)) :=
        ⟨_, _, rfl, by decide, by decide, by decide⟩
      have hkey := skipSpace_of_starts hstarts rest
      simp only [Fallible.ok_bind, hskip, hkey, String.ofList_toList,
        hmembers j w members rest hw hmembersw (by omega)]
      rfl

theorem readsValues_succ (hesc : Escapes esc) {n : ℕ} (hkeeps : KeepsPairs hooks)
    (hitems : ∀ m < n, ReadsItems hooks esc m) (hmembers : ∀ m < n, ReadsMembers hooks esc m) :
    ReadsValues hooks esc (n + 1) := by
  intro v rest hv hdelimited hfuel
  cases v with
  | null => simp [writeWith, parseValue]
  | bool b => cases b <;> simp [writeWith, parseValue]
  | int k =>
      have hscan := scanNumber_append hdelimited (scanNumber_writeInt k)
      rw [writeWith, parseValue_number hooks n hscan (value?_writeInt hv), List.nil_append]
  | float x =>
      obtain ⟨⟨token, hscan, hfractional, htext⟩, hparse⟩ := hv
      have hvalue : (token.value? : Option (Json F)) = some (float x) := by
        rw [NumberToken.value?, if_neg hfractional, htext, String.ofList_toList, hparse]
      rw [writeWith, parseValue_number hooks n (scanNumber_append hdelimited hscan) hvalue,
        List.nil_append]
  | str s =>
      obtain ⟨tail, htext, hscan⟩ := scanString_writeStringWith hesc s rest
      rw [writeWith, htext, parseValue]
      simp only [hscan, String.ofList_toList]
  | arr items =>
      cases items with
      | nil =>
          simp only [writeWith, List.length_cons, List.length_nil] at hfuel
          obtain ⟨m, rfl⟩ : ∃ m, n = m + 1 := ⟨n - 1, by omega⟩
          simp [writeWith, parseValue, parseArray, skipSpace, isSpace]
      | cons v items =>
          obtain ⟨hv, hrest⟩ := hv
          simp only [writeWith, List.length_cons, List.length_append] at hfuel
          obtain ⟨m, rfl⟩ : ∃ m, n = m + 1 := ⟨n - 1, by omega⟩
          have hread := hitems m (by omega) v items rest hv hrest (by omega)
          rw [writeWith, List.cons_append, parseValue, List.append_assoc,
            skipSpace_of_starts (starts_writeWith esc hv), ← List.append_assoc]
          obtain ⟨c, cs, hcs, -, hc, -⟩ := starts_writeWith esc hv
          rw [parseArray, hread, Fallible.ok_bind]
          · rfl
          · intro tail htail
            rw [hcs] at htail
            exact hc (by injection htail)
  | obj members =>
      cases members with
      | nil =>
          simp only [writeWith, List.length_cons, List.length_nil] at hfuel
          obtain ⟨m, rfl⟩ : ∃ m, n = m + 1 := ⟨n - 1, by omega⟩
          simp [writeWith, parseValue, parseObject, skipSpace, isSpace, hkeeps [] (by simp)]
      | cons member members =>
          obtain ⟨k, v⟩ := member
          obtain ⟨hnodup, hv, hrest⟩ := hv
          simp only [writeWith, List.length_cons, List.length_append] at hfuel
          obtain ⟨m, rfl⟩ : ∃ m, n = m + 1 := ⟨n - 1, by omega⟩
          have hread := hmembers m (by omega) k v members rest hv hrest (by omega)
          have hstarts : Starts (writeStringWith esc k ++
              ':' :: (v.writeWith esc ++ writeMembersWith esc members)) :=
            ⟨_, _, rfl, by decide, by decide, by decide⟩
          rw [writeWith, List.cons_append, parseValue, skipSpace_of_starts hstarts]
          rw [parseObject, hread, Fallible.ok_bind]
          · simp only [hkeeps _ hnodup]
            rfl
          · intro tail htail
            exact absurd htail (by simp [writeStringWith])

/-- A written value is read back, and what follows it is left. -/
theorem parseValue_writeWith (hesc : Escapes esc) (hkeeps : KeepsPairs hooks) (n : ℕ) :
    ReadsValues hooks esc n ∧ ReadsItems hooks esc n ∧ ReadsMembers hooks esc n := by
  induction n using Nat.strong_induction_on with
  | _ n ih =>
      cases n with
      | zero =>
          refine ⟨fun v rest hv _ hfuel => ?_, fun v items rest hv _ hfuel => ?_,
            fun k v members rest hv _ hfuel => ?_⟩ <;>
          · have hpos := length_writeWith_pos esc hv
            omega
      | succ n =>
          obtain ⟨hvalues, hitems, hmembers⟩ := ih n (Nat.lt_succ_self n)
          exact ⟨readsValues_succ hooks hesc hkeeps (fun m hm => (ih m (by omega)).2.1)
            fun m hm => (ih m (by omega)).2.2, readsItems_succ hooks esc hvalues hitems,
            readsMembers_succ hooks hesc hvalues hmembers⟩

/-! ## Documents -/

/-- The decimal rendering of finite floats: `repr` writes a float literal and
`float` reads it back. -/
class LawfulFloatText (F : Type) [PyFloat F] [FloatText F] : Prop where
  isFloatLiteral_repr : ∀ x : F, PyFloat.isFinite x = true →
    IsFloatLiteral (FloatText.repr x).toList
  parse_repr : ∀ x : F, PyFloat.isFinite x = true → FloatText.parse (FloatText.repr x) = x

theorem writable_float [PyFloat F] [LawfulFloatText F] {x : F} (h : PyFloat.isFinite x = true) :
    (float x).Writable :=
  ⟨LawfulFloatText.isFloatLiteral_repr x h, LawfulFloatText.parse_repr x h⟩

theorem writableMembers_iff {members : List (String × Json F)} :
    WritableMembers members ↔ ∀ m ∈ members, m.2.Writable := by
  induction members with
  | nil => simp [WritableMembers]
  | cons m members ih =>
      obtain ⟨k, v⟩ := m
      simp [WritableMembers, ih]

omit [FloatText F] in
theorem map_fst_sortedMembers (members : List (String × Json F)) :
    (sortedMembers members).map Prod.fst = members.map Prod.fst := by
  induction members with
  | nil => rfl
  | cons m members ih =>
      obtain ⟨k, v⟩ := m
      simp [sortedMembers, ih]

omit [FloatText F] in
theorem mem_sortedMembers_iff {members : List (String × Json F)} {k : String} {w : Json F} :
    (k, w) ∈ sortedMembers members ↔ ∃ v, (k, v) ∈ members ∧ v.sorted = w := by
  induction members with
  | nil => simp [sortedMembers]
  | cons m members ih =>
      obtain ⟨j, u⟩ := m
      simp only [sortedMembers, List.mem_cons, Prod.mk.injEq, ih]
      constructor
      · rintro (⟨rfl, rfl⟩ | ⟨v, hv, rfl⟩)
        · exact ⟨u, .inl ⟨rfl, rfl⟩, rfl⟩
        · exact ⟨v, .inr hv, rfl⟩
      · rintro ⟨v, ⟨rfl, rfl⟩ | hv, rfl⟩
        · exact .inl ⟨rfl, rfl⟩
        · exact .inr ⟨v, hv, rfl⟩

omit [FloatText F] in
theorem perm_sortedDict (members : List (String × Json F)) :
    (sortedDict members).Perm (sortedMembers members) :=
  List.perm_insertionSort (fun a b : String × Json F => a.1 ≤ b.1) (sortedMembers members)

omit [FloatText F] in
theorem perm_keys_sortedDict (members : List (String × Json F)) :
    ((sortedDict members).map Prod.fst).Perm (members.map Prod.fst) := by
  rw [← map_fst_sortedMembers members]
  exact (perm_sortedDict members).map Prod.fst

mutual

theorem writable_sorted : ∀ {v : Json F}, v.Writable → v.sorted.Writable
  | arr items, h => by
      rw [sorted, Writable]
      exact writableItems_sortedItems h
  | obj members, h => by
      rw [sorted_obj, Writable]
      refine ⟨(perm_keys_sortedDict members).nodup_iff.mpr h.1, writableMembers_iff.mpr ?_⟩
      intro m hm
      exact writableMembers_iff.mp (writableMembers_sortedMembers h.2) m
        ((perm_sortedDict members).mem_iff.mp hm)
  | null, _ => trivial
  | bool _, _ => trivial
  | int _, h => h
  | float _, h => h
  | str _, _ => trivial

theorem writableItems_sortedItems : ∀ {items : List (Json F)}, WritableItems items →
    WritableItems (sortedItems items)
  | [], _ => trivial
  | _ :: _, h => ⟨writable_sorted h.1, writableItems_sortedItems h.2⟩

theorem writableMembers_sortedMembers : ∀ {members : List (String × Json F)},
    WritableMembers members → WritableMembers (sortedMembers members)
  | [], _ => trivial
  | (_, _) :: _, h => ⟨writable_sorted h.1, writableMembers_sortedMembers h.2⟩

end

theorem starts_write {v : Json F} (h : v.Writable) : Starts v.write := by
  rw [← writeWith_escape]
  exact starts_writeWith escape h

/-- A document is read back from the text that is written for it. -/
theorem loads_writeWith {esc : Char → List Char} (hesc : Escapes esc) (hkeeps : KeepsPairs hooks)
    {v : Json F} (h : v.Writable) : loads hooks (String.ofList (v.writeWith esc)) = .ok v := by
  have hread := (parseValue_writeWith hooks hesc hkeeps (2 * (v.writeWith esc).length + 2)).1 v []
    h trivial (by omega)
  have hskip := skipSpace_of_starts (starts_writeWith esc h) []
  obtain ⟨c, cs, hcs, -, -, hmark⟩ := starts_writeWith esc h
  rw [List.append_nil] at hread hskip
  rw [loads, String.toList_ofList, if_neg (by simpa [hcs] using hmark), hskip]
  simp only [hread, Fallible.ok_bind]
  rfl

theorem loads_write (hkeeps : KeepsPairs hooks) {v : Json F} (h : v.Writable) :
    loads hooks (String.ofList v.write) = .ok v := by
  rw [← writeWith_escape]
  exact loads_writeWith hooks scanString_escape hkeeps h

/-- A document is read back from its canonical text. -/
theorem loads_dumps (hkeeps : KeepsPairs hooks) {v : Json F} (h : v.Writable) :
    loads hooks v.dumps = .ok v.sorted :=
  loads_write hooks hkeeps (writable_sorted h)

omit [FloatText F] in
/-- A member of a sorted object, by its key. -/
theorem lookup_sortedDict {members : List (String × Json F)}
    (h : (members.map Prod.fst).Nodup) (k : String) :
    (sortedDict members).lookup k = (members.lookup k).map sorted := by
  have hnodup : ((sortedDict members).map Prod.fst).Nodup :=
    (perm_keys_sortedDict members).nodup_iff.mpr h
  ext w
  have hsorted := OrderedDict.get?_eq_some_iff (d := ⟨sortedDict members, hnodup⟩) (k := k) (v := w)
  have hmembers := fun v => OrderedDict.get?_eq_some_iff (d := ⟨members, h⟩) (k := k) (v := v)
  simp only [OrderedDict.get?] at hsorted hmembers
  rw [hsorted, (perm_sortedDict members).mem_iff, mem_sortedMembers_iff, Option.map_eq_some_iff]
  simp only [hmembers]

end Json
