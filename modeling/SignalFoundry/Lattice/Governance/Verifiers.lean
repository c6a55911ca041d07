import SignalFoundry.Lattice.Governance.Store
import SignalFoundry.Library.HashChain
import SignalFoundry.Library.Json.Parsed
import SignalFoundry.Library.Platform

/-!
# The two verifiers of a lane

The store and the console agree on what a lane may hold. The material of a chain digest
is uniquely decodable, so that the last digest of a verified lane determines the kinds
and the payloads of its events, unless texts that were digested collide.
-/

/-! ## The read-only verifier

The console recomputes the chain of a lane from its stored rows and reports the first
fault as a text. It reads one payload after the other, where the store reads all of them
before its walk. -/

namespace Governance

open Fallible

/-- `MAX_CHAIN_ROWS_VERIFIED`. -/
def maxChainRowsVerified : ℕ := 10000

section Verifier

variable [PyRuntime] (F : Type) [PyFloat F] [FloatText F]

/-- The loop of `_verify_chain_readonly`, at a position with the digest before it. -/
def faultFrom (previous : String) (position : ℕ) : List EventRow → Option String
  | [] => none
  | row :: rest =>
      let number := String.ofList (Nat.toDigits 10 position)
      if row.sequence ≠ position then
        some ("sequence gap: expected " ++ number ++ ", found " ++
          String.ofList (Nat.toDigits 10 row.sequence))
      else
        match (PyValue.loads row.payload : Option (PyValue F)) with
        | none => some ("payload at sequence " ++ number ++ " is unreadable")
        | some payload =>
            match canonicalDigest payload with
            | .error _ => some ("payload at sequence " ++ number ++
                " is not canonically representable (non-finite value)")
            | .ok recomputed =>
                if recomputed ≠ row.payloadDigest then
                  some ("payload at sequence " ++ number ++ " does not match its recorded digest")
                else if row.previousDigest ≠ previous then
                  some ("chain breaks at sequence " ++ number)
                else if chainDigest previous recomputed position row.kind ≠ row.chainDigest then
                  some ("chain digest at sequence " ++ number ++ " does not reproduce")
                else faultFrom row.chainDigest (position + 1) rest

/-- `_verify_chain_readonly`: the first fault of a lane. -/
def verifyChainReadonly (s : Store) (laneIdentity : String) : Option String :=
  if maxChainRowsVerified < (s.eventsOf laneIdentity).length then
    some ("chain exceeds the 10000-event verification ceiling; " ++
      "reported as unverified rather than verified on a prefix")
  else faultFrom F genesisDigest 1 (s.eventsOf laneIdentity)

variable {F}

/-- One row that both verifiers pass over. -/
structure EventRow.Links (F : Type) [PyFloat F] [FloatText F] (previous : String) (position : ℕ)
    (row : EventRow) (payload : PyValue F) : Prop where
  sequence_eq : row.sequence = position
  loads_eq : PyValue.loads row.payload = some payload
  digest_eq : canonicalDigest payload = .ok row.payloadDigest
  previous_eq : row.previousDigest = previous
  chain_eq : row.chainDigest = Governance.chainDigest previous row.payloadDigest position row.kind

theorem faultFrom_cons_eq_none {previous : String} {position : ℕ} {row : EventRow}
    {rest : List EventRow} :
    faultFrom F previous position (row :: rest) = none ↔
      (∃ payload : PyValue F, row.Links F previous position payload) ∧
        faultFrom F row.chainDigest (position + 1) rest = none := by
  constructor
  · intro h
    unfold faultFrom at h
    split at h
    · cases h
    · next hsequence =>
        split at h
        · cases h
        · next payload hloads =>
            split at h
            · cases h
            · next recomputed hdigest =>
                split_ifs at h with hpayload hprevious hchain
                rw [not_not] at hsequence hpayload hprevious hchain
                subst hpayload
                exact ⟨⟨payload, hsequence, hloads, hdigest, hprevious, hchain.symm⟩, h⟩
  · rintro ⟨⟨payload, hrow⟩, hrest⟩
    rw [faultFrom, if_neg (not_not.mpr hrow.sequence_eq), hrow.loads_eq]
    simp only [hrow.digest_eq, if_neg (not_not.mpr hrow.previous_eq), ← hrow.chain_eq, ne_eq,
      not_true_eq_false, if_false]
    exact hrest

theorem verifyFrom_cons_eq_ok {laneIdentity previous : String} {position : ℕ} {row : EventRow}
    {payload : PyValue F} {rest : List (GovernanceEvent F)}
    (hloads : PyValue.loads row.payload = some payload) :
    Store.verifyFrom laneIdentity previous position (⟨row.laneIdentity, row.sequence, row.kind,
        payload, row.payloadDigest, row.previousDigest, row.chainDigest, row.recordedAt⟩ :: rest) =
        .ok () ↔
      row.Links F previous position payload ∧
        Store.verifyFrom laneIdentity row.chainDigest (position + 1) rest = .ok () := by
  simp only [Store.verifyFrom, bind_eq_ok_iff, refuseIf_eq_ok_iff, not_not]
  constructor
  · rintro ⟨-, hsequence, recomputed, hdigest, -, rfl, -, hprevious, -, hchain, hrest⟩
    exact ⟨⟨hsequence, hloads, hdigest, hprevious, hsequence ▸ hchain.symm⟩, hrest⟩
  · rintro ⟨hrow, hrest⟩
    exact ⟨(), hrow.sequence_eq, row.payloadDigest, hrow.digest_eq, (), rfl, (), hrow.previous_eq, (),
      hrow.sequence_eq ▸ hrow.chain_eq.symm, hrest⟩

/-- The console finds no fault in rows that the store reads and verifies. -/
theorem faultFrom_eq_none_iff (laneIdentity previous : String) (position : ℕ)
    (rows : List EventRow) :
    faultFrom F previous position rows = none ↔ ∃ events, rows.mapM (EventRow.toEvent F) =
      .ok events ∧ Store.verifyFrom laneIdentity previous position events = .ok () := by
  induction rows generalizing previous position with
  | nil => exact ⟨fun _ => ⟨[], rfl, rfl⟩, fun _ => rfl⟩
  | cons row rest ih =>
      rw [faultFrom_cons_eq_none, ih]
      constructor
      · rintro ⟨⟨payload, hrow⟩, events, hevents, hverified⟩
        have hevent : row.toEvent F = .ok ⟨row.laneIdentity, row.sequence, row.kind, payload,
            row.payloadDigest, row.previousDigest, row.chainDigest, row.recordedAt⟩ := by
          rw [EventRow.toEvent, hrow.loads_eq]
        refine ⟨_ :: events, ?_, (verifyFrom_cons_eq_ok hrow.loads_eq).mpr ⟨hrow, hverified⟩⟩
        rw [List.mapM_cons, hevent, hevents]
        rfl
      · rintro ⟨all, hall, hverified⟩
        rw [List.mapM_cons] at hall
        obtain ⟨event, hevent, hall⟩ := bind_eq_ok_iff.mp hall
        obtain ⟨events, hevents, hall⟩ := bind_eq_ok_iff.mp hall
        cases hall
        unfold EventRow.toEvent at hevent
        split at hevent
        · cases hevent
        · next payload hloads =>
            cases hevent
            obtain ⟨hrow, hrest⟩ := (verifyFrom_cons_eq_ok hloads).mp hverified
            exact ⟨⟨payload, hrow⟩, events, hevents, hrest⟩

end Verifier

end Governance

namespace Governance

open Fallible

/-! ## The material of a chain digest -/

def chainMaterial (previousDigest payloadDigest : String) (sequence : ℕ) (kind : EventKind) :
    String :=
  previousDigest ++ ":" ++ payloadDigest ++ ":" ++ String.ofList (Nat.toDigits 10 sequence) ++
    ":" ++ kind.value

theorem EventKind.value_injective : Function.Injective EventKind.value := by
  intro a b h
  cases a <;> cases b <;> first | rfl | exact absurd h (by decide)

theorem length_of_isDigest {text : String} (h : Shadow.isDigest text = true) :
    text.toList.length = 64 := by
  rw [Shadow.isDigest, PyText.isRun, Bool.and_eq_true, beq_iff_eq] at h
  exact h.2

theorem toDigits_injective {n m : ℕ} (h : Nat.toDigits 10 n = Nat.toDigits 10 m) : n = m := by
  have hvalue := congrArg (fun ds => Nat.ofDigitChars 10 ds 0) h
  simpa only [Nat.ofDigitChars_ten_toDigits] using hvalue

/-- What stands before the first separator is determined, and what follows it. -/
theorem append_cons_inj {c : Char} {l l' r r' : List Char} (hl : c ∉ l) (hl' : c ∉ l')
    (h : l ++ c :: r = l' ++ c :: r') : l = l' ∧ r = r' := by
  induction l generalizing l' with
  | nil =>
      cases l' with
      | nil => exact ⟨rfl, List.tail_eq_of_cons_eq h⟩
      | cons d l' =>
          obtain rfl : c = d := List.head_eq_of_cons_eq h
          exact absurd List.mem_cons_self hl'
  | cons d l ih =>
      cases l' with
      | nil =>
          obtain rfl : d = c := List.head_eq_of_cons_eq h
          exact absurd List.mem_cons_self hl
      | cons e l' =>
          obtain ⟨hhead, htail⟩ := List.cons_eq_cons.mp h
          obtain ⟨hrest, hright⟩ := ih (fun hmem => hl (List.mem_cons_of_mem d hmem))
            (fun hmem => hl' (List.mem_cons_of_mem e hmem)) htail
          exact ⟨by rw [hhead, hrest], hright⟩

theorem colon_notMem_toDigits (n : ℕ) : ':' ∉ Nat.toDigits 10 n := fun h =>
  absurd (Json.isDigitAscii_of_mem_toDigits h) (by decide)

theorem chainMaterial_injective {previous previous' payload payload' : String} {n n' : ℕ}
    {kind kind' : EventKind} (hprevious : Shadow.isDigest previous = true)
    (hprevious' : Shadow.isDigest previous' = true) (hpayload : Shadow.isDigest payload = true)
    (hpayload' : Shadow.isDigest payload' = true)
    (h : chainMaterial previous payload n kind = chainMaterial previous' payload' n' kind') :
    previous = previous' ∧ payload = payload' ∧ n = n' ∧ kind = kind' := by
  have hlength := (length_of_isDigest hprevious).trans (length_of_isDigest hprevious').symm
  have hlength' := (length_of_isDigest hpayload).trans (length_of_isDigest hpayload').symm
  have hcolon : ":".toList = [':'] := by decide
  have htext := congrArg String.toList h
  simp only [chainMaterial, String.toList_append, String.toList_ofList, hcolon, List.append_assoc,
    List.singleton_append] at htext
  obtain ⟨hfirst, htext⟩ := List.append_inj htext hlength
  obtain ⟨hsecond, htext⟩ := List.append_inj (List.cons.inj htext).2 hlength'
  obtain ⟨hnumber, hkind⟩ := append_cons_inj (colon_notMem_toDigits n) (colon_notMem_toDigits n')
    (List.cons.inj htext).2
  exact ⟨String.toList_injective hfirst, String.toList_injective hsecond,
    toDigits_injective hnumber, EventKind.value_injective (String.toList_injective hkind)⟩

/-! ## Rows of a lane -/

section Rows

variable [PyRuntime] (F : Type) [PyFloat F] [FloatText F]

/-- What the schema admits in a row, for payloads that are objects. -/
structure EventRow.Admitted (row : EventRow) : Prop where
  sequence : 0 < row.sequence
  payload : 2 ≤ row.payload.toList.length ∧ row.payload.toList.length ≤ 1048576
  payloadDigest : Shadow.isDigest row.payloadDigest = true
  previousDigest : Shadow.isDigest row.previousDigest = true
  chainDigest : Shadow.isDigest row.chainDigest = true
  object : ∀ payload : PyValue F, PyValue.loads row.payload = some payload →
    ∃ members, payload = .dict members

/-- A lane that the console verifies whole. -/
structure Store.Admits (s : Store) (laneIdentity : String) : Prop where
  count : (s.eventsOf laneIdentity).length ≤ maxChainRowsVerified
  rows : ∀ row ∈ s.eventsOf laneIdentity, row.Admitted F

/-- The text that was digested for the link of a verified row. -/
def EventRow.material (row : EventRow) : String :=
  chainMaterial row.previousDigest row.payloadDigest row.sequence row.kind

/-- The text that was digested for the payload of a row. -/
def EventRow.canonical (row : EventRow) : Option String :=
  (PyValue.loads row.payload : Option (PyValue F)).bind PyValue.dumps

/-- The digest does not take two of these texts to one. -/
def DigestsApart (texts texts' : List String) : Prop :=
  ∀ text ∈ texts, ∀ text' ∈ texts', digestText text = digestText text' → text = text'

/-- The texts of two rows are read as equal dictionaries: one document, whose members
are in the order of their keys, is laid out for both. -/
def SamePayload (row row' : EventRow) : Prop :=
  ∃ payload payload' : PyValue F, PyValue.loads row.payload = some payload ∧
    PyValue.loads row'.payload = some payload' ∧ payload.layOut = payload'.layOut ∧
    payload.layOut.isSome = true

/-- What the link of a row covers beside the digest before it. -/
def entry (row : EventRow) : String × ℕ × EventKind := (row.payloadDigest, row.sequence, row.kind)

def entryLink (previous : String) (e : String × ℕ × EventKind) : String :=
  chainDigest previous e.1 e.2.1 e.2.2

variable {F}

/-- The rows that the console verifies form a hash chain of their entries. -/
theorem links_of_faultFrom {previous : String} {position : ℕ} {rows : List EventRow}
    (h : faultFrom F previous position rows = none) :
    HashChain.links entryLink previous (rows.map entry) =
        rows.map (fun row => (row.previousDigest, entry row)) ∧
      HashChain.head entryLink previous (rows.map entry) =
        (rows.getLast?.map EventRow.chainDigest).getD previous := by
  induction rows generalizing previous position with
  | nil => exact ⟨rfl, rfl⟩
  | cons row rest ih =>
      obtain ⟨⟨payload, hrow⟩, hrest⟩ := faultFrom_cons_eq_none.mp h
      obtain ⟨hlinks, hhead⟩ := ih hrest
      have hlink : entryLink previous (entry row) = row.chainDigest := by
        rw [hrow.chain_eq, entryLink, entry, hrow.sequence_eq]
      constructor
      · rw [List.map_cons, HashChain.links, hlink, hlinks, List.map_cons, hrow.previous_eq]
      · rw [List.map_cons, HashChain.head, List.foldl_cons, hlink]
        refine hhead.trans ?_
        rw [List.getLast?_cons]
        cases rest.getLast? with
        | none => rfl
        | some last => rfl

/-- A verified row was digested from the text of its payload. -/
theorem payload_of_faultFrom {previous : String} {position : ℕ} {rows : List EventRow}
    (h : faultFrom F previous position rows = none) : ∀ row ∈ rows, ∃ (payload : PyValue F)
      (text : String), PyValue.loads row.payload = some payload ∧ payload.dumps = some text ∧
        row.payloadDigest = digestText text := by
  induction rows generalizing previous position with
  | nil => exact fun row hrow => absurd hrow List.not_mem_nil
  | cons first rest ih =>
      obtain ⟨⟨payload, hfirst⟩, hrest⟩ := faultFrom_cons_eq_none.mp h
      refine List.forall_mem_cons.mpr ⟨?_, ih hrest⟩
      have hdigest := hfirst.digest_eq
      unfold canonicalDigest at hdigest
      split at hdigest
      · cases hdigest
      · next text htext =>
          exact ⟨payload, text, hfirst.loads_eq, htext, (Except.ok.inj hdigest).symm⟩

omit [PyFloat F] in
/-- The links of two verified lanes do not collide. -/
theorem collisionFree_of_apart {rows rows' : List EventRow}
    (hrows : ∀ row ∈ rows, row.Admitted F) (hrows' : ∀ row ∈ rows', row.Admitted F)
    (hapart : DigestsApart (rows.map EventRow.material) (rows'.map EventRow.material)) :
    HashChain.CollisionFree entryLink (rows.map fun row => (row.previousDigest, entry row))
      (rows'.map fun row => (row.previousDigest, entry row)) := by
  intro l hl m hm hlink
  obtain ⟨row, hrow, rfl⟩ := List.mem_map.mp hl
  obtain ⟨row', hrow', rfl⟩ := List.mem_map.mp hm
  have hmaterial : row.material = row'.material := hapart _ (List.mem_map_of_mem hrow) _
    (List.mem_map_of_mem hrow') hlink
  obtain ⟨hprevious, hpayload, hsequence, hkind⟩ := chainMaterial_injective
    (hrows row hrow).previousDigest (hrows' row' hrow').previousDigest
    (hrows row hrow).payloadDigest (hrows' row' hrow').payloadDigest hmaterial
  rw [entry, entry, hprevious, hpayload, hsequence, hkind]

/-- Rows with one digest of their payloads have equal payloads. -/
theorem samePayload_of_digest_eq [Json.LawfulFloatText F] {rows rows' : List EventRow}
    {previous previous' : String} {position position' : ℕ}
    (h : faultFrom F previous position rows = none)
    (h' : faultFrom F previous' position' rows' = none)
    (hapart : DigestsApart (rows.filterMap (EventRow.canonical F))
      (rows'.filterMap (EventRow.canonical F)))
    {row row' : EventRow} (hrow : row ∈ rows) (hrow' : row' ∈ rows')
    (hdigest : row.payloadDigest = row'.payloadDigest) : SamePayload F row row' := by
  obtain ⟨payload, text, hloads, htext, hpayload⟩ := payload_of_faultFrom h row hrow
  obtain ⟨payload', text', hloads', htext', hpayload'⟩ := payload_of_faultFrom h' row' hrow'
  have hcanonical : row.canonical F = some text := by
    rw [EventRow.canonical, hloads, Option.bind_some, htext]
  have hcanonical' : row'.canonical F = some text' := by
    rw [EventRow.canonical, hloads', Option.bind_some, htext']
  obtain rfl : text = text' := hapart text (List.mem_filterMap.mpr ⟨row, hrow, hcanonical⟩)
    text' (List.mem_filterMap.mpr ⟨row', hrow', hcanonical'⟩)
    (hpayload.symm.trans (hdigest.trans hpayload'))
  obtain ⟨document, hdocument, -⟩ := Option.map_eq_some_iff.mp htext
  exact ⟨payload, payload', hloads, hloads', PyValue.layOut_eq_of_dumps_eq hloads hloads' htext
    htext', by rw [hdocument]; rfl⟩

/-- Two verified lanes of one length and one last digest record the same. -/
theorem same_of_last_eq [Json.LawfulFloatText F] {rows rows' : List EventRow}
    (hrows : ∀ row ∈ rows, row.Admitted F) (hrows' : ∀ row ∈ rows', row.Admitted F)
    (h : faultFrom F genesisDigest 1 rows = none) (h' : faultFrom F genesisDigest 1 rows' = none)
    (hlength : rows.length = rows'.length)
    (hlast : rows.getLast?.map EventRow.chainDigest = rows'.getLast?.map EventRow.chainDigest)
    (hmaterial : DigestsApart (rows.map EventRow.material) (rows'.map EventRow.material))
    (hcanonical : DigestsApart (rows.filterMap (EventRow.canonical F))
      (rows'.filterMap (EventRow.canonical F))) :
    rows.map EventRow.kind = rows'.map EventRow.kind ∧
      List.Forall₂ (SamePayload F) rows rows' := by
  obtain ⟨hlinks, hhead⟩ := links_of_faultFrom h
  obtain ⟨hlinks', hhead'⟩ := links_of_faultFrom h'
  have hentries : rows.map entry = rows'.map entry := by
    have hfree : HashChain.CollisionFree entryLink
        (HashChain.links entryLink genesisDigest (rows.map entry))
        (HashChain.links entryLink genesisDigest (rows'.map entry)) := by
      rw [hlinks, hlinks']
      exact collisionFree_of_apart hrows hrows' hmaterial
    refine HashChain.eq_of_head_eq entryLink (by simpa using hlength) hfree ?_
    rw [hhead, hhead', hlast]
  constructor
  · have hkinds := congrArg (List.map fun e : String × ℕ × EventKind => e.2.2) hentries
    rwa [List.map_map, List.map_map] at hkinds
  · rw [List.forall₂_iff_get]
    refine ⟨hlength, fun i hi hi' => ?_⟩
    refine samePayload_of_digest_eq h h' hcanonical (List.get_mem ..) (List.get_mem ..) ?_
    have hentry := congrArg (fun es => (es[i]?).map Prod.fst) hentries
    simpa [entry, hi, hi'] using hentry

theorem faultFrom_of_readonly {s : Store} {laneIdentity : String} (h : s.Admits F laneIdentity)
    (hnone : verifyChainReadonly F s laneIdentity = none) :
    faultFrom F genesisDigest 1 (s.eventsOf laneIdentity) = none := by
  rwa [verifyChainReadonly, if_neg (not_lt.mpr h.count)] at hnone

/-- `verify_chain` counts the rows of its lane. -/
theorem count_of_verifyChain {s : Store} {laneIdentity : String} {count : ℕ}
    (h : s.verifyChain F laneIdentity = .ok count) :
    count = (s.eventsOf laneIdentity).length := by
  simp only [Store.verifyChain, Store.loadEvents, bind_eq_ok_iff, Except.ok.injEq] at h
  obtain ⟨events, ⟨_, -, hevents⟩, _, -, rfl⟩ := h
  exact length_of_mapM_eq_ok hevents

theorem readonly_eq_none_iff {s : Store} {laneIdentity : String} (h : s.Admits F laneIdentity) :
    verifyChainReadonly F s laneIdentity = none ↔
      s.verifyChain F laneIdentity = .ok (s.eventsOf laneIdentity).length := by
  have hceiling : ¬ maxEventsPerQuery < (s.eventsOf laneIdentity).length :=
    not_lt.mpr (h.count.trans (by decide))
  constructor
  · intro hnone
    obtain ⟨events, hevents, hverified⟩ := (faultFrom_eq_none_iff laneIdentity _ _ _).mp
      (faultFrom_of_readonly h hnone)
    rw [Store.verifyChain, Store.loadEvents, refuseIf_of_not hceiling, ok_bind, hevents, ok_bind,
      hverified, ok_bind, length_of_mapM_eq_ok hevents]
  · intro hverify
    simp only [Store.verifyChain, Store.loadEvents, bind_eq_ok_iff] at hverify
    obtain ⟨events, ⟨_, -, hevents⟩, _, hverified, -⟩ := hverify
    rw [verifyChainReadonly, if_neg (not_lt.mpr h.count)]
    exact (faultFrom_eq_none_iff laneIdentity _ _ _).mpr ⟨events, hevents, hverified⟩

variable (F) in
/-- The console finds no fault in a lane exactly when `verify_chain` returns the number of
its events, and otherwise `verify_chain` raises. Two lanes that both verify, of one
length and one last digest, record the same kinds and equal payloads in the same order. -/
theorem verifiers_agree [Json.LawfulFloatText F] :
    (∀ (s : Store) (laneIdentity : String), s.Admits F laneIdentity →
      (verifyChainReadonly F s laneIdentity = none ↔
        s.verifyChain F laneIdentity = .ok (s.eventsOf laneIdentity).length) ∧
      (verifyChainReadonly F s laneIdentity ≠ none →
        ∃ e, s.verifyChain F laneIdentity = .error e)) ∧
    ∀ (s s' : Store) (laneIdentity laneIdentity' : String), s.Admits F laneIdentity →
      s'.Admits F laneIdentity' → verifyChainReadonly F s laneIdentity = none →
      verifyChainReadonly F s' laneIdentity' = none →
      (s.eventsOf laneIdentity).length = (s'.eventsOf laneIdentity').length →
      (s.eventsOf laneIdentity).getLast?.map EventRow.chainDigest =
        (s'.eventsOf laneIdentity').getLast?.map EventRow.chainDigest →
      DigestsApart ((s.eventsOf laneIdentity).map EventRow.material)
        ((s'.eventsOf laneIdentity').map EventRow.material) →
      DigestsApart ((s.eventsOf laneIdentity).filterMap (EventRow.canonical F))
        ((s'.eventsOf laneIdentity').filterMap (EventRow.canonical F)) →
      (s.eventsOf laneIdentity).map EventRow.kind = (s'.eventsOf laneIdentity').map EventRow.kind ∧
        List.Forall₂ (SamePayload F) (s.eventsOf laneIdentity) (s'.eventsOf laneIdentity') := by
  refine ⟨fun s laneIdentity hadmits => ?_, ?_⟩
  · have hnone := readonly_eq_none_iff hadmits
    refine ⟨hnone, fun hfault => ?_⟩
    cases hverify : s.verifyChain F laneIdentity with
    | error e => exact ⟨e, rfl⟩
    | ok count =>
        rw [count_of_verifyChain hverify] at hverify
        exact absurd (hnone.mpr hverify) hfault
  · intro s s' laneIdentity laneIdentity' hadmits hadmits' h h' hlength hlast hmaterial hcanonical
    exact same_of_last_eq hadmits.rows hadmits'.rows (faultFrom_of_readonly hadmits h)
      (faultFrom_of_readonly hadmits' h') hlength hlast hmaterial hcanonical

end Rows

/-! ## A lane with one event -/

section Sole

open Platform

/-- A policy without members, as the first event of its lane. -/
def soleRow : EventRow where
  laneIdentity := String.ofList (List.replicate 64 'a')
  sequence := 1
  kind := .policy
  payload := "\x7b\x7d"
  payloadDigest := digestText "\x7b\x7d"
  previousDigest := genesisDigest
  chainDigest := chainDigest genesisDigest (digestText "\x7b\x7d") 1 .policy
  idempotencyDigest := none
  recordedAt := ⟨.date 2026 1 2, 12, 0, 0, 0⟩

def soleStore : Store where
  events := [soleRow]

theorem eventsOf_soleStore : soleStore.eventsOf soleRow.laneIdentity = [soleRow] := by
  simp [Store.eventsOf, soleStore]

theorem loads_soleRow : (PyValue.loads soleRow.payload : Option (PyValue ℚ)) = some (.dict []) := by
  have hread := PyValue.loads_write (v := (.dict [] : PyValue ℚ)) (j := .obj [])
    ⟨List.nodup_nil, trivial⟩ rfl
  have htext : soleRow.payload = String.ofList (Json.obj [] : Json ℚ).write := by decide
  rw [htext, hread]
  rfl

theorem dumps_sole : (PyValue.dict [] : PyValue ℚ).dumps = some "\x7b\x7d" := by decide

theorem admits_soleStore : soleStore.Admits ℚ soleRow.laneIdentity where
  count := by
    rw [eventsOf_soleStore]
    decide
  rows := by
    rw [eventsOf_soleStore]
    refine List.forall_mem_singleton.mpr ⟨by decide, by decide, isDigest_digestText _, by decide,
      isDigest_digestText _, fun payload hpayload => ⟨[], ?_⟩⟩
    exact Option.some.inj (hpayload.symm.trans loads_soleRow)

theorem readonly_soleStore : verifyChainReadonly ℚ soleStore soleRow.laneIdentity = none := by
  rw [verifyChainReadonly, eventsOf_soleStore, if_neg (by decide), faultFrom_cons_eq_none]
  refine ⟨⟨.dict [], rfl, loads_soleRow, ?_, rfl, rfl⟩, rfl⟩
  rw [canonicalDigest, dumps_sole]
  rfl

theorem verifiers_agree_sole :
    soleStore.verifyChain ℚ soleRow.laneIdentity = .ok 1 ∧
      List.Forall₂ (SamePayload ℚ) (soleStore.eventsOf soleRow.laneIdentity)
        (soleStore.eventsOf soleRow.laneIdentity) := by
  obtain ⟨hagree, hsame⟩ := verifiers_agree ℚ
  have hverify := ((hagree _ _ admits_soleStore).1).mp readonly_soleStore
  refine ⟨by rw [hverify, eventsOf_soleStore]; rfl, (hsame _ _ _ _ admits_soleStore
    admits_soleStore readonly_soleStore readonly_soleStore rfl rfl ?_ ?_).2⟩
  · rw [eventsOf_soleStore]
    intro text htext text' htext' _
    rw [List.mem_singleton.mp htext, List.mem_singleton.mp htext']
  · have hcanonical : soleRow.canonical ℚ = some "\x7b\x7d" := by
      rw [EventRow.canonical, loads_soleRow, Option.bind_some, dumps_sole]
    rw [eventsOf_soleStore, List.filterMap_cons_some hcanonical]
    intro text htext text' htext' _
    rw [List.mem_singleton.mp htext, List.mem_singleton.mp htext']

end Sole

end Governance
