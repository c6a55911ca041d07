import Mathlib.Data.List.Basic
import Mathlib.Tactic.IntervalCases

/-!
# Base64

The URL-safe encoding without padding, and the strict decoding of a padded text in
which the two alternative characters may also be written as the standard ones. A
text that is decoded is the encoding of its bytes exactly when it is spelled with
URL-safe characters alone and its spare bits are clear.
-/

namespace Base64

/-! ## Encoding -/

/-- The URL-safe character of six bits. -/
def digit (n : ℕ) : Char :=
  if n < 26 then Char.ofNat (65 + n)
  else if n < 52 then Char.ofNat (71 + n)
  else if n < 62 then Char.ofNat (n - 4)
  else if n = 62 then '-' else '_'

/-- The groups of six bits of a text of bytes. -/
def groups : List UInt8 → List ℕ
  | [] => []
  | [a] => [a.toNat / 4, a.toNat % 4 * 16]
  | [a, b] => [a.toNat / 4, a.toNat % 4 * 16 + b.toNat / 16, b.toNat % 16 * 4]
  | a :: b :: c :: rest =>
      a.toNat / 4 :: (a.toNat % 4 * 16 + b.toNat / 16) :: (b.toNat % 16 * 4 + c.toNat / 64) ::
        c.toNat % 64 :: groups rest

/-- `base64.urlsafe_b64encode(data).rstrip(b"=")`. -/
def encode (bytes : List UInt8) : List Char := (groups bytes).map digit

/-! ## Decoding -/

/-- The six bits of a character under `altchars=b"-_"`. -/
def value? (c : Char) : Option ℕ :=
  if 'A' ≤ c ∧ c ≤ 'Z' then some (c.toNat - 65)
  else if 'a' ≤ c ∧ c ≤ 'z' then some (c.toNat - 71)
  else if '0' ≤ c ∧ c ≤ '9' then some (c.toNat + 4)
  else if c = '-' ∨ c = '+' then some 62
  else if c = '_' ∨ c = '/' then some 63
  else none

/-- The bytes of groups of six bits; the spare bits of the last group are dropped. -/
def bytesOf : List ℕ → Option (List UInt8)
  | [] => some []
  | [_] => none
  | [a, b] => some [UInt8.ofNat (a * 4 + b / 16)]
  | [a, b, c] => some [UInt8.ofNat (a * 4 + b / 16), UInt8.ofNat (b % 16 * 16 + c / 4)]
  | a :: b :: c :: d :: rest => do
      return UInt8.ofNat (a * 4 + b / 16) :: UInt8.ofNat (b % 16 * 16 + c / 4) ::
        UInt8.ofNat (c % 4 * 64 + d) :: (← bytesOf rest)

/-- The padding that completes a quadruple. -/
def padding (length : ℕ) : List Char := List.replicate ((4 - length % 4) % 4) '='

/-- `base64.b64decode(text, altchars=b"-_", validate=True)`; `none` is its `Error`. -/
def decode (text : List Char) : Option (List UInt8) := do
  let data := text.takeWhile (· ≠ '=')
  if text.dropWhile (· ≠ '=') = padding data.length then
    bytesOf (← data.mapM value?)
  else none

/-! ## Characters -/

theorem value?_digit {n : ℕ} (h : n < 64) : value? (digit n) = some n := by
  interval_cases n <;> decide

theorem value?_lt {c : Char} {n : ℕ} (h : value? c = some n) : n < 64 := by
  have hle : ∀ {a b : Char}, a ≤ b ↔ a.toNat ≤ b.toNat := fun {a b} => Iff.rfl
  unfold value? at h
  split_ifs at h with hupper hlower hdigit
  · obtain rfl := Option.some.inj h
    have hlast : c.toNat ≤ 90 := hle.mp hupper.2
    omega
  · obtain rfl := Option.some.inj h
    have hlast : c.toNat ≤ 122 := hle.mp hlower.2
    omega
  · obtain rfl := Option.some.inj h
    have hlast : c.toNat ≤ 57 := hle.mp hdigit.2
    omega
  · obtain rfl := Option.some.inj h
    decide
  · obtain rfl := Option.some.inj h
    decide

/-- A character of the URL-safe alphabet. -/
def isUrlSafe (c : Char) : Bool := c ≠ '+' && c ≠ '/' && c ≠ '='

/-- A character that is decoded is the one its bits are written with exactly when it
is URL-safe. -/
theorem digit_value? {c : Char} {n : ℕ} (h : value? c = some n) :
    digit n = c ↔ isUrlSafe c = true := by
  have hle : ∀ {a b : Char}, a ≤ b ↔ a.toNat ≤ b.toNat := fun {a b} => Iff.rfl
  have hsafe : ∀ d : Char, d = '+' ∨ d = '/' ∨ d = '=' → isUrlSafe d = false := by
    rintro d (rfl | rfl | rfl) <;> decide
  unfold value? at h
  split_ifs at h with hupper hlower hdigit hdash hline
  · obtain rfl := Option.some.inj h
    have hfirst : 65 ≤ c.toNat := hle.mp hupper.1
    have hlast : c.toNat ≤ 90 := hle.mp hupper.2
    have hchar : digit (c.toNat - 65) = c := by
      rw [digit, if_pos (by omega), show 65 + (c.toNat - 65) = c.toNat by omega, Char.ofNat_toNat]
    refine iff_of_true hchar ?_
    by_contra hnot
    simp only [isUrlSafe, Bool.and_eq_true, decide_eq_true_eq, not_and_or, not_not] at hnot
    rcases hnot with (rfl | rfl) | rfl <;> exact absurd hfirst (by decide)
  · obtain rfl := Option.some.inj h
    have hfirst : 97 ≤ c.toNat := hle.mp hlower.1
    have hlast : c.toNat ≤ 122 := hle.mp hlower.2
    have hchar : digit (c.toNat - 71) = c := by
      rw [digit, if_neg (by omega), if_pos (by omega),
        show 71 + (c.toNat - 71) = c.toNat by omega, Char.ofNat_toNat]
    refine iff_of_true hchar ?_
    by_contra hnot
    simp only [isUrlSafe, Bool.and_eq_true, decide_eq_true_eq, not_and_or, not_not] at hnot
    rcases hnot with (rfl | rfl) | rfl <;> exact absurd hfirst (by decide)
  · obtain rfl := Option.some.inj h
    have hfirst : 48 ≤ c.toNat := hle.mp hdigit.1
    have hlast : c.toNat ≤ 57 := hle.mp hdigit.2
    have hchar : digit (c.toNat + 4) = c := by
      rw [digit, if_neg (by omega), if_neg (by omega), if_pos (by omega),
        Nat.add_sub_cancel, Char.ofNat_toNat]
    refine iff_of_true hchar ?_
    by_contra hnot
    simp only [isUrlSafe, Bool.and_eq_true, decide_eq_true_eq, not_and_or, not_not] at hnot
    rcases hnot with (rfl | rfl) | rfl
    · exact absurd hfirst (by decide)
    · exact absurd hfirst (by decide)
    · exact absurd hlast (by decide)
  · obtain rfl := Option.some.inj h
    rcases hdash with rfl | rfl <;> decide
  · obtain rfl := Option.some.inj h
    rcases hline with rfl | rfl <;> decide

/-! ## Groups -/

/-- The bits of the last group that stand for no byte are clear. -/
def SpareClear : List ℕ → Prop
  | [_, b] => b % 16 = 0
  | [_, _, c] => c % 4 = 0
  | _ :: _ :: _ :: _ :: rest => SpareClear rest
  | _ => True

theorem groups_lt (bytes : List UInt8) : ∀ n ∈ groups bytes, n < 64 := by
  induction bytes using groups.induct with
  | case1 => simp [groups]
  | case2 a =>
      have ha := a.toNat_lt
      simp only [groups, List.forall_mem_cons, List.not_mem_nil, false_implies, implies_true,
        and_true]
      omega
  | case3 a b =>
      have ha := a.toNat_lt
      have hb := b.toNat_lt
      simp only [groups, List.forall_mem_cons, List.not_mem_nil, false_implies, implies_true,
        and_true]
      omega
  | case4 a b c rest ih =>
      have ha := a.toNat_lt
      have hb := b.toNat_lt
      have hc := c.toNat_lt
      simp only [groups, List.forall_mem_cons]
      exact ⟨by omega, by omega, by omega, by omega, ih⟩

theorem ofNat_eq {a : UInt8} {n : ℕ} (h : n = a.toNat) : UInt8.ofNat n = a := by
  rw [h, UInt8.ofNat_toNat]

theorem bytesOf_groups (bytes : List UInt8) : bytesOf (groups bytes) = some bytes := by
  induction bytes using groups.induct with
  | case1 => rfl
  | case2 a =>
      have ha := a.toNat_lt
      rw [groups, bytesOf, ofNat_eq (a := a) (by omega)]
  | case3 a b =>
      have ha := a.toNat_lt
      have hb := b.toNat_lt
      rw [groups, bytesOf, ofNat_eq (a := a) (by omega), ofNat_eq (a := b) (by omega)]
  | case4 a b c rest ih =>
      have ha := a.toNat_lt
      have hb := b.toNat_lt
      have hc := c.toNat_lt
      rw [groups, bytesOf, ih, ofNat_eq (a := a) (by omega), ofNat_eq (a := b) (by omega),
        ofNat_eq (a := c) (by omega)]
      rfl

theorem length_groups (bytes : List UInt8) :
    (groups bytes).length = (4 * bytes.length + 2) / 3 := by
  induction bytes using groups.induct with
  | case1 => rfl
  | case2 a => simp [groups]
  | case3 a b => simp [groups]
  | case4 a b c rest ih =>
      simp only [groups, List.length_cons, ih]
      omega

theorem toNat_ofNat {n : ℕ} (h : n < 256) : (UInt8.ofNat n).toNat = n := by
  rw [UInt8.toNat_ofNat']
  exact Nat.mod_eq_of_lt h

/-- Groups are those of their bytes exactly when their spare bits are clear. -/
theorem groups_bytesOf {l : List ℕ} (hlt : ∀ n ∈ l, n < 64) {bytes : List UInt8}
    (h : bytesOf l = some bytes) : groups bytes = l ↔ SpareClear l := by
  induction l using bytesOf.induct generalizing bytes with
  | case1 =>
      cases h
      simp [groups, SpareClear]
  | case2 a => cases h
  | case3 a b =>
      cases h
      simp only [List.forall_mem_cons, List.not_mem_nil, false_implies, implies_true,
        and_true] at hlt
      rw [groups, toNat_ofNat (by omega), SpareClear]
      simp only [List.cons.injEq, and_true]
      omega
  | case4 a b c =>
      cases h
      simp only [List.forall_mem_cons, List.not_mem_nil, false_implies, implies_true,
        and_true] at hlt
      rw [groups, toNat_ofNat (by omega), toNat_ofNat (by omega), SpareClear]
      simp only [List.cons.injEq, and_true]
      omega
  | case5 a b c d rest ih =>
      simp only [List.forall_mem_cons] at hlt
      obtain ⟨ha, hb, hc, hd, hrest⟩ := hlt
      simp only [bytesOf, Option.bind_eq_bind, Option.pure_def, Option.bind_eq_some_iff,
        Option.some.injEq] at h
      obtain ⟨tail, htail, rfl⟩ := h
      rw [groups, toNat_ofNat (by omega), toNat_ofNat (by omega), toNat_ofNat (by omega),
        SpareClear, ← ih hrest htail]
      simp only [List.cons.injEq]
      constructor
      · exact fun heq => heq.2.2.2.2
      · exact fun heq => ⟨by omega, by omega, by omega, by omega, heq⟩

/-! ## Texts -/

theorem length_encode (bytes : List UInt8) :
    (encode bytes).length = (4 * bytes.length + 2) / 3 := by
  rw [encode, List.length_map, length_groups]

theorem mem_encode {bytes : List UInt8} {c : Char} (h : c ∈ encode bytes) :
    ∃ n < 64, digit n = c := by
  obtain ⟨n, hn, rfl⟩ := List.mem_map.mp h
  exact ⟨n, groups_lt bytes n hn, rfl⟩

theorem isUrlSafe_digit {n : ℕ} (h : n < 64) : isUrlSafe (digit n) = true :=
  (digit_value? (value?_digit h)).mp rfl

theorem mapM_value?_map_digit {l : List ℕ} (h : ∀ n ∈ l, n < 64) :
    (l.map digit).mapM value? = some l := by
  induction l with
  | nil => rfl
  | cons n l ih =>
      obtain ⟨hn, hl⟩ := List.forall_mem_cons.mp h
      rw [List.map_cons, List.mapM_cons, value?_digit hn, ih hl]
      rfl

theorem map_digit_of_mapM {cs : List Char} {l : List ℕ} (h : cs.mapM value? = some l) :
    l.map digit = cs ↔ ∀ c ∈ cs, isUrlSafe c = true := by
  induction cs generalizing l with
  | nil =>
      cases h
      simp
  | cons c cs ih =>
      simp only [List.mapM_cons, Option.bind_eq_bind, Option.pure_def, Option.bind_eq_some_iff,
        Option.some.injEq] at h
      obtain ⟨n, hn, rest, hrest, rfl⟩ := h
      rw [List.map_cons, List.cons.injEq, digit_value? hn, ih hrest, List.forall_mem_cons]

theorem lt_of_mapM {cs : List Char} {l : List ℕ} (h : cs.mapM value? = some l) :
    ∀ n ∈ l, n < 64 := by
  induction cs generalizing l with
  | nil =>
      cases h
      simp
  | cons c cs ih =>
      simp only [List.mapM_cons, Option.bind_eq_bind, Option.pure_def, Option.bind_eq_some_iff,
        Option.some.injEq] at h
      obtain ⟨n, hn, rest, hrest, rfl⟩ := h
      exact List.forall_mem_cons.mpr ⟨value?_lt hn, ih hrest⟩

/-- A text without padding, spelled as the encoding spells it. -/
structure Canonical (text : List Char) : Prop where
  urlSafe : ∀ c ∈ text, isUrlSafe c = true
  spareClear : ∀ l, text.mapM value? = some l → SpareClear l

/-- A text that is decoded after it is padded. -/
def decodeUnpadded (text : List Char) : Option (List UInt8) := decode (text ++ padding text.length)

theorem decode_append_pads {text : List Char} (h : '=' ∉ text) (k : ℕ) :
    decode (text ++ List.replicate k '=') =
      if List.replicate k '=' = padding text.length then (text.mapM value?).bind bytesOf
      else none := by
  have hdata : ∀ c ∈ text, decide (c ≠ '=') = true := fun c hc =>
    decide_eq_true fun heq => h (by rwa [← heq])
  have htake : (text ++ List.replicate k '=').takeWhile (· ≠ '=') = text := by
    rw [List.takeWhile_append_of_pos hdata]
    cases k <;> simp [List.replicate_succ]
  have hdrop : (text ++ List.replicate k '=').dropWhile (· ≠ '=') = List.replicate k '=' := by
    rw [List.dropWhile_append_of_pos hdata]
    cases k <;> simp [List.replicate_succ]
  simp only [decode, htake, hdrop, Option.bind_eq_bind]

theorem decodeUnpadded_of_not_mem {text : List Char} (h : '=' ∉ text) :
    decodeUnpadded text = (text.mapM value?).bind bytesOf := by
  rw [decodeUnpadded, padding, decode_append_pads h, ← padding, if_pos rfl]

theorem not_mem_encode (bytes : List UInt8) : '=' ∉ encode bytes := by
  intro hmem
  obtain ⟨n, hn, heq⟩ := mem_encode hmem
  have hsafe := isUrlSafe_digit hn
  rw [heq] at hsafe
  exact absurd hsafe (by decide)

theorem decodeUnpadded_encode (bytes : List UInt8) :
    decodeUnpadded (encode bytes) = some bytes := by
  rw [decodeUnpadded_of_not_mem (not_mem_encode bytes), encode,
    mapM_value?_map_digit (groups_lt bytes), Option.bind_some, bytesOf_groups]

/-- A text that is decoded is the encoding of its bytes exactly when it is spelled as
the encoding spells it. -/
theorem encode_eq_iff_canonical {text : List Char} {bytes : List UInt8}
    (h : decodeUnpadded text = some bytes) : encode bytes = text ↔ Canonical text := by
  constructor
  · rintro rfl
    refine ⟨fun c hc => ?_, fun l hl => ?_⟩
    · obtain ⟨n, hn, rfl⟩ := mem_encode hc
      exact isUrlSafe_digit hn
    · rw [encode, mapM_value?_map_digit (groups_lt bytes)] at hl
      obtain rfl := Option.some.inj hl
      exact (groups_bytesOf (groups_lt bytes) (bytesOf_groups bytes)).mp rfl
  · intro hcanonical
    have hpad : '=' ∉ text := fun hmem =>
      absurd (hcanonical.urlSafe '=' hmem) (by decide)
    rw [decodeUnpadded_of_not_mem hpad] at h
    obtain ⟨l, hl, hbytes⟩ := Option.bind_eq_some_iff.mp h
    rw [encode, (groups_bytesOf (lt_of_mapM hl) hbytes).mpr (hcanonical.spareClear l hl)]
    exact (map_digit_of_mapM hl).mpr hcanonical.urlSafe

/-- One padding character may be written where one is missing. -/
theorem decodeUnpadded_append_pad {bytes : List UInt8} (h : bytes.length % 3 = 2) :
    decodeUnpadded (encode bytes ++ ['=']) = some bytes := by
  have hlength := length_encode bytes
  have hone : padding (encode bytes).length = List.replicate 1 '=' := by
    rw [padding]
    congr 1
    omega
  have hnone : padding (encode bytes ++ ['=']).length = [] := by
    rw [padding, List.length_append, List.length_singleton]
    have hzero : (4 - ((encode bytes).length + 1) % 4) % 4 = 0 := by omega
    rw [hzero, List.replicate_zero]
  have hpads : ['='] = List.replicate 1 '=' := rfl
  rw [decodeUnpadded, hnone, List.append_nil, hpads, decode_append_pads (not_mem_encode bytes),
    hone, if_pos rfl, encode, mapM_value?_map_digit (groups_lt bytes), Option.bind_some,
    bytesOf_groups]

end Base64
