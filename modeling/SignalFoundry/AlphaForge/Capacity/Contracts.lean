import Mathlib.Data.Rat.Cast.Order
import SignalFoundry.Library.Fallible
import SignalFoundry.Library.PyRuntime

/-!
# Capacity fields

The validators of identifiers and quantities that the capacity records, ledgers
and policies share. Quantities are rationals.
-/

namespace Capacity

open Fallible

/-! ## Errors -/

/-- What a validator finds wrong with a field. -/
inductive FieldProblem where
  | padded
  | tooLong
  | characters
  | negative (number : ℚ)
  | exceeds (maximum number : ℚ)
  deriving DecidableEq, Repr

/-! ## Identifiers -/

/-- `MAX_IDENTIFIER_CHARS`. -/
def maxIdentifierChars : ℕ := 64

def isIdentifierChar (c : Char) : Bool :=
  PyText.isAlnumAscii c || c == '.' || c == '_' || c == '-'

/-- What `identifier` accepts. -/
structure IsIdentifier (text : String) : Prop where
  stripped : PyText.isBlank text = false ∧ PyText.isStripped text = true
  length_le : text.length ≤ maxIdentifierChars
  chars : text.toList.all isIdentifierChar = true

instance (text : String) : Decidable (IsIdentifier text) :=
  decidable_of_iff ((PyText.isBlank text = false ∧ PyText.isStripped text = true) ∧
      text.length ≤ maxIdentifierChars ∧ text.toList.all isIdentifierChar = true)
    ⟨fun ⟨h, h', h''⟩ => ⟨h, h', h''⟩, fun ⟨h, h', h''⟩ => ⟨h, h', h''⟩⟩

/-- A text that has passed `identifier`. -/
abbrev Identifier := { text : String // IsIdentifier text }

/-- Raised when a record is unusable, or when an action would breach a policy. -/
inductive CapacityError where
  /-- `CapacityContractError` of a field. -/
  | contract (name : String) (problem : FieldProblem)
  | tooManyRecords (name : String)
  | duplicateRecord (name : String)
  | authorizedExceedsRequest
  | authorizedNegative
  /-- `CapacityPolicyViolation`. -/
  | alreadyClaimed (id symbol : Identifier)
  | unknownReservation (id : Identifier)
  | fillExceeds (quantity : ℚ) (id : Identifier) (reserved : ℚ)
  | conservationViolated (symbol : Identifier)
  | bookBudgetExceeded
  | keyError (symbol : Identifier)
  deriving DecidableEq

/-- Whether an error is about what the caller asks, and not one of the conservation
check. -/
def CapacityError.isRefusal : CapacityError → Bool
  | conservationViolated _ => false
  | bookBudgetExceeded => false
  | keyError _ => false
  | _ => true

/-- `identifier`. -/
def identifier (name value : String) : Except CapacityError Identifier :=
  if hstripped : PyText.isBlank value = false ∧ PyText.isStripped value = true then
    if hlength : value.length ≤ maxIdentifierChars then
      if hchars : value.toList.all isIdentifierChar = true then
        .ok ⟨value, hstripped, hlength, hchars⟩
      else .error (.contract name .characters)
    else .error (.contract name .tooLong)
  else .error (.contract name .padded)

@[simp] theorem identifier_val (name : String) (id : Identifier) :
    identifier name id.val = .ok id := by
  have h := id.property
  rw [identifier, dif_pos h.stripped, dif_pos h.length_le, dif_pos h.chars]

theorem identifier_eq_ok_iff {name value : String} {id : Identifier} :
    identifier name value = .ok id ↔ id.val = value := by
  constructor
  · intro h
    unfold identifier at h
    split at h
    · split at h
      · split at h <;> cases h
        rfl
      · cases h
    · cases h
  · rintro rfl
    exact identifier_val name id

theorem identifier_eq_error {name value : String} {error : CapacityError}
    (h : identifier name value = .error error) : ∃ problem, error = .contract name problem := by
  unfold identifier at h
  split at h
  · split at h
    · split at h <;> cases h
      exact ⟨_, rfl⟩
    · cases h
      exact ⟨_, rfl⟩
  · cases h
    exact ⟨_, rfl⟩

/-! ## Quantities -/

/-- `MAX_QUANTITY`. -/
def maxQuantity : ℚ := 1000000000000

/-- `MAX_NOTIONAL`. -/
def maxNotional : ℚ := 1000000000000000

/-- `MAX_RECORDS`. -/
def maxRecords : ℕ := 200000

/-- A number that has passed `finite_quantity` under a ceiling. -/
abbrev Quantity (maximum : ℚ) := { number : ℚ // 0 ≤ number ∧ number ≤ maximum }

/-- `finite_quantity`. -/
def finiteQuantity (name : String) (maximum value : ℚ) : Except CapacityError (Quantity maximum) :=
  if hnonneg : 0 ≤ value then
    if hmaximum : value ≤ maximum then .ok ⟨value, hnonneg, hmaximum⟩
    else .error (.contract name (.exceeds maximum value))
  else .error (.contract name (.negative value))

theorem finiteQuantity_of {name : String} {maximum value : ℚ} (h : 0 ≤ value ∧ value ≤ maximum) :
    finiteQuantity name maximum value = .ok ⟨value, h⟩ := by
  rw [finiteQuantity, dif_pos h.1, dif_pos h.2]

theorem finiteQuantity_eq_ok_iff {name : String} {maximum value : ℚ} {number : Quantity maximum} :
    finiteQuantity name maximum value = .ok number ↔ number.val = value := by
  constructor
  · intro h
    unfold finiteQuantity at h
    split at h
    · split at h <;> cases h
      rfl
    · cases h
  · rintro rfl
    exact finiteQuantity_of number.property

theorem finiteQuantity_eq_error {name : String} {maximum value : ℚ} {error : CapacityError}
    (h : finiteQuantity name maximum value = .error error) :
    ∃ problem, error = .contract name problem := by
  unfold finiteQuantity at h
  split at h
  · split at h <;> cases h
    exact ⟨_, rfl⟩
  · cases h
    exact ⟨_, rfl⟩

end Capacity
