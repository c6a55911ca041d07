import Mathlib.Data.List.Sort
import SignalFoundry.Backtesting.Ledger.Basic
import SignalFoundry.Execution.Events.Fields

/-!
# Parts of payloads

The enumerations of the event contract, and the entries that a payload holds in
the order of their keys without repetition, however they were passed.
-/

namespace SignalFoundry

open Fallible PyFloat

/-! ## Enumerations -/

inductive EventPhase where
  | openMark
  | orderSubmission
  | execution
  | dayCancel
  | charge
  | closeMark
  | signal
  | targetDecision
  | control
  deriving DecidableEq, Repr

namespace EventPhase

/-- The integer value, which orders the phases of one bar. -/
def value : EventPhase → ℕ
  | openMark => 10
  | orderSubmission => 20
  | execution => 30
  | dayCancel => 40
  | charge => 50
  | closeMark => 60
  | signal => 70
  | targetDecision => 80
  | control => 90

theorem value_injective : Function.Injective value := by
  intro a b h
  cases a <;> cases b <;> simp_all [value]

def name : EventPhase → String
  | openMark => "OPEN_MARK"
  | orderSubmission => "ORDER_SUBMISSION"
  | execution => "EXECUTION"
  | dayCancel => "DAY_CANCEL"
  | charge => "CHARGE"
  | closeMark => "CLOSE_MARK"
  | signal => "SIGNAL"
  | targetDecision => "TARGET_DECISION"
  | control => "CONTROL"

instance : TextEnum EventPhase where
  members := [openMark, orderSubmission, execution, dayCancel, charge, closeMark, signal,
    targetDecision, control]
  name := name
  mem_members phase := by cases phase <;> simp
  name_injective a b h := by cases a <;> cases b <;> simp_all [name]

/-- `phase.name.lower()`. -/
def lowerName (phase : EventPhase) : String := String.ofList (phase.name.toList.map Char.toLower)

/-- The written name of a phase is read back. -/
theorem upper_lowerName [PyRuntime] (phase : EventPhase) :
    PyText.upper phase.lowerName = phase.name := by
  cases phase <;> rfl

end EventPhase

inductive FeeCategory where
  | commission
  | exchangeFee
  | otherFee
  deriving DecidableEq, Repr

def FeeCategory.value : FeeCategory → String
  | commission => "commission"
  | exchangeFee => "exchange_fee"
  | otherFee => "other_fee"

instance : TextEnum FeeCategory where
  members := [.commission, .exchangeFee, .otherFee]
  name := FeeCategory.value
  mem_members category := by cases category <;> simp
  name_injective a b h := by cases a <;> cases b <;> simp_all [FeeCategory.value]

inductive Side where
  | buy
  | sell
  deriving DecidableEq, Repr

instance : TextEnum Side where
  members := [.buy, .sell]
  name
    | .buy => "buy"
    | .sell => "sell"
  mem_members side := by cases side <;> simp
  name_injective a b h := by cases a <;> cases b <;> simp_all

inductive OrderType where
  | market
  | limit
  deriving DecidableEq, Repr

instance : TextEnum OrderType where
  members := [.market, .limit]
  name
    | .market => "market"
    | .limit => "limit"
  mem_members orderType := by cases orderType <;> simp
  name_injective a b h := by cases a <;> cases b <;> simp_all

inductive TimeInForce where
  | day
  deriving DecidableEq, Repr

instance : TextEnum TimeInForce where
  members := [.day]
  name
    | .day => "day"
  mem_members timeInForce := by cases timeInForce; simp
  name_injective a b _ := by cases a; cases b; rfl

inductive MarkType where
  | open
  | close
  deriving DecidableEq, Repr

instance : TextEnum MarkType where
  members := [.open, .close]
  name
    | .open => "open"
    | .close => "close"
  mem_members markType := by cases markType <;> simp
  name_injective a b h := by cases a <;> cases b <;> simp_all

instance : TextEnum ChargeCategory where
  members := chargeCategories
  name := ChargeCategory.name
  mem_members := ChargeCategory.mem_chargeCategories
  name_injective := ChargeCategory.name_injective

/-! ## Entries in the order of their keys -/

/-- A list in the strict order of the keys of its entries. -/
abbrev KeySorted {α : Type} (key : α → String) :=
  { entries : List α // (entries.map key).Pairwise (· < ·) }

section KeySorted

variable {α : Type} {key : α → String}

/-- Entries without a repeated key, sorted by key. -/
def KeySorted.ofNodup (entries : List α) (h : (entries.map key).Nodup) : KeySorted key :=
  ⟨entries.insertionSort (key · ≤ key ·), by
    have hsorted : ((entries.insertionSort (key · ≤ key ·)).map key).Pairwise (· ≤ ·) := by
      rw [List.pairwise_map]
      exact List.pairwise_insertionSort (key · ≤ key ·) entries
    have hnodup : ((entries.insertionSort (key · ≤ key ·)).map key).Nodup := by
      rw [((List.perm_insertionSort (key · ≤ key ·) entries).map key).nodup_iff]
      exact h
    exact (hsorted.and hnodup).imp fun h => lt_of_le_of_ne h.1 h.2⟩

theorem KeySorted.nodup (entries : KeySorted key) : (entries.1.map key).Nodup :=
  entries.2.imp fun h => ne_of_lt h

/-- Sorted entries are left in their order. -/
@[simp] theorem KeySorted.ofNodup_self (entries : KeySorted key) :
    KeySorted.ofNodup entries.1 entries.nodup = entries := by
  apply Subtype.ext
  apply List.Pairwise.insertionSort_eq
  exact (List.pairwise_map.mp entries.2).imp fun h => le_of_lt h

end KeySorted

/-! ## Symbols with numbers -/

/-- A symbol with its number. -/
abbrev SymbolEntry (F : Type) [PyFloat F] (bound : FloatBound) :=
  MarketSymbol × BoundedFloat F bound

/-- Normalized entries: one for each symbol, in the order of the symbols. -/
abbrev SymbolEntries (F : Type) [PyFloat F] (bound : FloatBound) :=
  KeySorted fun entry : SymbolEntry F bound => entry.1.1

/-- The words by which the errors about a field of entries name its parts. -/
structure EntryNames where
  field : String
  noun : String
  duplicate : String
  value : String

section Entries

variable {F : Type} [PyRuntime] [PyFloat F] [FloatText F] {bound : FloatBound}

/-- The loop that checks raw entries, from one index on. -/
def checkedEntries (names : EntryNames) (bound : FloatBound) (index : ℕ)
    (seen : List MarketSymbol) :
    List (Json F × Json F) → Except ExecutionEventError (List (SymbolEntry F bound))
  | [] => .ok []
  | (rawSymbol, rawValue) :: rest => do
      let symbol ← marketSymbol rawSymbol
        (names.field ++ "[" ++ toString index ++ "] " ++ names.noun)
      refuseIf (symbol ∈ seen) ⟨names.duplicate ++ " " ++ PyRuntime.strRepr symbol.1⟩
      let value ← finiteFloat bound rawValue
        (names.value ++ " for " ++ PyRuntime.strRepr symbol.1)
      let entries ← checkedEntries names bound (index + 1) (symbol :: seen) rest
      return (symbol, value) :: entries

theorem nodup_of_checkedEntries {names : EntryNames} {index : ℕ} {seen : List MarketSymbol}
    {raw : List (Json F × Json F)} {entries : List (SymbolEntry F bound)}
    (h : checkedEntries names bound index seen raw = .ok entries) :
    (entries.map fun entry => entry.1.1).Nodup ∧ ∀ entry ∈ entries, entry.1 ∉ seen := by
  induction raw generalizing index seen entries with
  | nil =>
      cases h
      simp
  | cons r raw ih =>
      obtain ⟨rawSymbol, rawValue⟩ := r
      simp only [checkedEntries, bind_eq_ok_iff, refuseIf_eq_ok_iff, pure_eq_ok] at h
      obtain ⟨symbol, -, -, hseen, value, -, rest, hrest, heq⟩ := h
      cases heq
      obtain ⟨hnodup, hfresh⟩ := ih hrest
      refine ⟨?_, ?_⟩
      · rw [List.map_cons, List.nodup_cons]
        refine ⟨fun hmem => ?_, hnodup⟩
        obtain ⟨entry, hentry, htext⟩ := List.mem_map.mp hmem
        exact hfresh entry hentry (by rw [Subtype.ext htext]; exact List.mem_cons_self)
      · intro entry hentry
        rcases List.mem_cons.mp hentry with rfl | hentry
        · exact hseen
        · exact fun hmem => hfresh entry hentry (List.mem_cons_of_mem symbol hmem)

/-- Checked entries pass the loop again. -/
theorem checkedEntries_self (names : EntryNames) (index : ℕ) (seen : List MarketSymbol)
    {entries : List (SymbolEntry F bound)} (hnodup : (entries.map fun entry => entry.1.1).Nodup)
    (hfresh : ∀ entry ∈ entries, entry.1 ∉ seen) :
    checkedEntries names bound index seen
      (entries.map fun entry => ((.str entry.1.1 : Json F), (.float entry.2.1 : Json F))) =
        .ok entries := by
  induction entries generalizing index seen with
  | nil => rfl
  | cons entry entries ih =>
      rw [List.map_cons, List.nodup_cons] at hnodup
      have hrest : ∀ e ∈ entries, e.1 ∉ entry.1 :: seen := by
        intro e he hmem
        rcases List.mem_cons.mp hmem with heq | hmem
        · exact hnodup.1 (List.mem_map.mpr ⟨e, he, congrArg Subtype.val heq⟩)
        · exact hfresh e (List.mem_cons_of_mem entry he) hmem
      rw [List.map_cons, checkedEntries, marketSymbol, checkedText_str, ok_bind,
        refuseIf_of_not (hfresh entry List.mem_cons_self), ok_bind, finiteFloat_float, ok_bind,
        ih _ _ hnodup.2 hrest]
      rfl

/-- The loop over raw entries and the sort that follows it. -/
def normalizedEntries (names : EntryNames) (bound : FloatBound) (raw : List (Json F × Json F)) :
    Except ExecutionEventError (SymbolEntries F bound) :=
  match h : checkedEntries names bound 0 [] raw with
  | .error e => .error e
  | .ok entries => .ok (KeySorted.ofNodup entries (nodup_of_checkedEntries h).1)

/-- The raw form of normalized entries. -/
def SymbolEntries.raw (entries : SymbolEntries F bound) : List (Json F × Json F) :=
  entries.1.map fun entry => (.str entry.1.1, .float entry.2.1)

@[simp] theorem normalizedEntries_raw (names : EntryNames) (entries : SymbolEntries F bound) :
    normalizedEntries names bound (SymbolEntries.raw entries) = .ok entries := by
  have hself := checkedEntries_self (F := F) names 0 [] entries.nodup fun _ _ => by simp
  unfold normalizedEntries
  split
  · next e he =>
    rw [SymbolEntries.raw, hself] at he
    cases he
  · next found hfound =>
    have heq := hfound
    rw [SymbolEntries.raw, hself] at heq
    cases heq
    rw [KeySorted.ofNodup_self]

end Entries

end SignalFoundry
