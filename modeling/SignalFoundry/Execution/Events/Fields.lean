import SignalFoundry.Library.Fallible
import SignalFoundry.Library.Json.Basic
import SignalFoundry.Library.PyFloat

/-!
# Field checks of execution events

Each check of a raw field returns a value of a subtype that says what was
checked, so an event is built from checked parts only and a check passes on a
value it has returned before. A raw field is a `Json` value: a caller in the
language can pass other objects as well, which every check here refuses as a
value of the wrong type.
-/

namespace SignalFoundry

open PyFloat

/-- `ExecutionEventError`. -/
structure ExecutionEventError where
  message : String
  deriving DecidableEq, Repr

def maxIdentifierLength : ℕ := 128
def maxSymbolLength : ℕ := 64
def maxReasonLength : ℕ := 64
def maxDetailLength : ℕ := 512
def maxTargetAssets : ℕ := 512
def maxMarkPrices : ℕ := 5000
def maxBarIndex : ℕ := 10000000
def maxPhaseOrdinal : ℕ := 1000000
def maxCanonicalBytes : ℕ := 131072
def maxAbsoluteWeight : ℕ := 100
def maxQuantity : ℕ := 10 ^ 15
def maxPrice : ℕ := 10 ^ 12
def maxMoney : ℕ := 10 ^ 18

/-! ## Texts -/

namespace EventText

open PyText

/-- `_IDENTIFIER`. -/
def isIdentifier : String → Bool :=
  isToken isAlnumAscii
    (fun c => isAlnumAscii c || c == '.' || c == '_' || c == ':' || c == '-') 127

/-- `_SYMBOL`. -/
def isSymbol : String → Bool :=
  isToken isAlnumAscii
    (fun c => isAlnumAscii c || c == '.' || c == '_' || c == ':' || c == '/' || c == '-') 63

/-- `_REASON`. -/
def isReason : String → Bool :=
  isToken isLowerAscii (fun c => isLowerAscii c || isDigitAscii c || c == '_') 63

/-- `_SHA256`. -/
def isDigest : String → Bool := isRun isHexDigit 64

/-- `_CURRENCY`. -/
def isCurrency : String → Bool := isRun isUpperAscii 3

/-- The condition of `_bounded_text`. -/
def isDetail [PyRuntime] (text : String) : Bool :=
  text ≠ "" && isStripped text && text.toList.length ≤ maxDetailLength &&
    text.toList.all PyRuntime.isPrintable

end EventText

/-- A text that passed a check. -/
abbrev CheckedText (valid : String → Bool) := { text : String // valid text = true }

abbrev Identifier := CheckedText EventText.isIdentifier

abbrev MarketSymbol := CheckedText EventText.isSymbol

abbrev Reason := CheckedText EventText.isReason

abbrev Digest := CheckedText EventText.isDigest

abbrev Detail [PyRuntime] := CheckedText EventText.isDetail

variable {F : Type}

/-- The check that a value is a text of a given form. -/
def checkedText (valid : String → Bool) (message : String) (value : Json F) :
    Except ExecutionEventError (CheckedText valid) :=
  match value with
  | .str text => if h : valid text = true then .ok ⟨text, h⟩ else .error ⟨message⟩
  | _ => .error ⟨message⟩

@[simp] theorem checkedText_str {valid : String → Bool} (message : String)
    (text : CheckedText valid) :
    checkedText valid message (.str text.1 : Json F) = .ok text := by
  simp [checkedText, text.2]

/-- `_identifier`. -/
def identifier (value : Json F) (name : String) : Except ExecutionEventError Identifier :=
  checkedText EventText.isIdentifier
    (name ++ " must match '[A-Za-z0-9][A-Za-z0-9._:-]\x7b0,127\x7d\\\\Z' and be at most " ++
      toString maxIdentifierLength ++ " ASCII characters") value

@[simp] theorem identifier_str (text : Identifier) (name : String) :
    identifier (.str text.1 : Json F) name = .ok text :=
  checkedText_str _ text

/-- `_symbol`. -/
def marketSymbol (value : Json F) (name : String) : Except ExecutionEventError MarketSymbol :=
  checkedText EventText.isSymbol
    (name ++ " must be a non-empty bounded ASCII market identifier") value

@[simp] theorem marketSymbol_str (text : MarketSymbol) (name : String) :
    marketSymbol (.str text.1 : Json F) name = .ok text :=
  checkedText_str _ text

/-- `_reason`. -/
def reason (value : Json F) (name : String) : Except ExecutionEventError Reason :=
  checkedText EventText.isReason
    (name ++ " must be a lowercase machine reason no longer than " ++ toString maxReasonLength ++
      " characters") value

@[simp] theorem reason_str (text : Reason) (name : String) :
    reason (.str text.1 : Json F) name = .ok text :=
  checkedText_str _ text

/-- `_digest`. -/
def digest (value : Json F) (name : String) : Except ExecutionEventError Digest :=
  checkedText EventText.isDigest (name ++ " must be a lowercase SHA-256 digest") value

@[simp] theorem digest_str (text : Digest) (name : String) :
    digest (.str text.1 : Json F) name = .ok text :=
  checkedText_str _ text

/-- `_bounded_text`. -/
def boundedText [PyRuntime] (value : Json F) (name : String) :
    Except ExecutionEventError Detail :=
  checkedText EventText.isDetail
    (name ++ " must be non-empty printable text no longer than " ++ toString maxDetailLength ++
      " characters") value

@[simp] theorem boundedText_str [PyRuntime] (text : Detail) (name : String) :
    boundedText (.str text.1 : Json F) name = .ok text :=
  checkedText_str _ text

/-- An enumeration whose members are told apart by a text. -/
class TextEnum (α : Type) where
  members : List α
  name : α → String
  mem_members : ∀ a, a ∈ members
  name_injective : Function.Injective name

/-- The member of an enumeration that a text names. -/
def TextEnum.find? (α : Type) [TextEnum α] (text : String) : Option α :=
  (members : List α).find? fun a => name a == text

@[simp] theorem TextEnum.find?_name {α : Type} [TextEnum α] (a : α) :
    TextEnum.find? α (name a) = some a := by
  have hfind : ∀ bs : List α, a ∈ bs → bs.find? (fun b => name b == name a) = some a := by
    intro bs ha
    induction bs with
    | nil => cases ha
    | cons b bs ih =>
        by_cases hb : b = a
        · subst hb
          simp
        · have hname : name b ≠ name a := fun h => hb (name_injective h)
          rw [List.find?_cons_of_neg (by simpa using hname)]
          exact ih ((List.mem_cons.mp ha).resolve_left (Ne.symm hb))
  exact hfind members (mem_members a)

/-- The check that a value names a member of an enumeration. -/
def checkedName (α : Type) [TextEnum α] (message : String) (value : Json F) :
    Except ExecutionEventError α :=
  match value with
  | .str text =>
      match TextEnum.find? α text with
      | some a => .ok a
      | none => .error ⟨message⟩
  | _ => .error ⟨message⟩

@[simp] theorem checkedName_str {α : Type} [TextEnum α] (message : String) (a : α) :
    checkedName α message (.str (TextEnum.name a) : Json F) = .ok a := by
  simp [checkedName]

/-! ## Integers -/

/-- `_bounded_integer`. -/
def boundedInteger (maximum : ℕ) (value : Json F) (name : String) :
    Except ExecutionEventError { n : ℕ // n ≤ maximum } :=
  match value with
  | .int n =>
      if h : 0 ≤ n ∧ n.toNat ≤ maximum then .ok ⟨n.toNat, h.2⟩
      else .error ⟨name ++ " must be an integer in [0, " ++ toString maximum ++ "]"⟩
  | _ => .error ⟨name ++ " must be an integer in [0, " ++ toString maximum ++ "]"⟩

@[simp] theorem boundedInteger_int {maximum : ℕ} (n : { n : ℕ // n ≤ maximum })
    (name : String) : boundedInteger maximum (.int n.1 : Json F) name = .ok n := by
  simp [boundedInteger, n.2]

/-! ## Floats -/

variable [PyFloat F] [FloatText F]

/-- The keyword arguments of `_finite_float`. -/
structure FloatBound where
  maximumAbsolute : ℕ
  positive : Bool := false
  nonnegative : Bool := false

/-- A float that `_finite_float` returns. Among the zeros it is the positive
one. -/
structure FloatBound.Admits (bound : FloatBound) (x : F) : Prop where
  isFinite : PyFloat.isFinite x = true
  bounded : lt (ofNat bound.maximumAbsolute) (PyFloat.abs x) = false
  positive : bound.positive = true → le x zero = false
  nonnegative : bound.nonnegative = true → lt x zero = false
  normal : eq x zero = true → x = zero

abbrev BoundedFloat (F : Type) [PyFloat F] (bound : FloatBound) :=
  { x : F // bound.Admits x }

omit [FloatText F] in
theorem FloatBound.Admits.zero_of_eq {bound : FloatBound} {x : F}
    (hpositive : bound.positive = true → le x zero = false) (hzero : eq x zero = true) :
    bound.Admits (zero : F) where
  isFinite := isFinite_zero
  bounded := not_ofNat_lt_abs_zero _
  positive h := by
    have hle := le_zero_of_eq_zero x hzero
    rw [show (ofNat 0 : F) = zero from rfl, hpositive h] at hle
    cases hle
  nonnegative _ := not_lt_zero
  normal _ := rfl

/-- `float(value)` of an integer or a float that is not a Boolean. -/
def toFloat? : Json F → Option F
  | .int n => ofInt n
  | .float x => some x
  | _ => none

/-- `_finite_float`. -/
def finiteFloat (bound : FloatBound) (value : Json F) (name : String) :
    Except ExecutionEventError (BoundedFloat F bound) :=
  match toFloat? value with
  | none => .error ⟨name ++ " must be a finite real number"⟩
  | some result =>
      if hbound : isFinite result = true ∧
          lt (ofNat bound.maximumAbsolute) (PyFloat.abs result) = false then
        if hpositive : bound.positive = true → le result zero = false then
          if hnonneg : bound.nonnegative = true → lt result zero = false then
            if hzero : eq result zero = true then
              .ok ⟨zero, .zero_of_eq hpositive hzero⟩
            else
              .ok ⟨result, hbound.1, hbound.2, hpositive, hnonneg, fun h => absurd h hzero⟩
          else .error ⟨name ++ " must be non-negative"⟩
        else .error ⟨name ++ " must be positive"⟩
      else .error ⟨name ++ " must be finite with magnitude at most " ++
        FloatText.format3g (ofNat bound.maximumAbsolute : F)⟩

@[simp] theorem finiteFloat_float {bound : FloatBound} (x : BoundedFloat F bound)
    (name : String) : finiteFloat bound (.float x.1) name = .ok x := by
  obtain ⟨x, h⟩ := x
  simp only [finiteFloat, toFloat?, dif_pos (And.intro h.isFinite h.bounded), dif_pos h.positive,
    dif_pos h.nonnegative]
  split
  · next hzero => simp only [h.normal hzero]
  · rfl

def weightBound : FloatBound := { maximumAbsolute := maxAbsoluteWeight }
def quantityBound : FloatBound := { maximumAbsolute := maxQuantity, positive := true }
def priceBound : FloatBound := { maximumAbsolute := maxPrice, positive := true }
def moneyBound : FloatBound := { maximumAbsolute := maxMoney }
def feeBound : FloatBound := { maximumAbsolute := maxMoney, nonnegative := true }
def chargeBound : FloatBound := { maximumAbsolute := maxMoney, positive := true }

/-- `_reconcile`: reconcile arithmetic at its actual scale. -/
def reconcile (left right : F) (name : String) (terms : List F) :
    Except ExecutionEventError Unit :=
  if eq left right = true then .ok ()
  else
    let scale := maxOf zero ((left :: right :: terms).map PyFloat.abs)
    if eq scale zero = true then
      .error ⟨name ++ " does not reconcile at exact zero scale"⟩
    else
      let tolerance := mul (mul (ofNat 32) (ofNat (Nat.max terms.length 1))) (ulp scale)
      if lt tolerance (PyFloat.abs (sub left right)) = true then
        .error ⟨name ++ " does not reconcile: actual=" ++ FloatText.format17g left ++
          ", expected=" ++ FloatText.format17g right⟩
      else .ok ()

end SignalFoundry
