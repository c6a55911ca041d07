import SignalFoundry.Foundry.Trading.Journal
import SignalFoundry.Library.Platform

/-!
# Coherence of the paper journal

After any transactions of the kinds that the service makes, the chain verifies,
the cached values are those of the last events of their keys, and the stop is
recorded once and for good (`Coherent`). The last ten sequence numbers are kept
for it, so that a stop is never refused.
-/

namespace Foundry

namespace Trading

open Fallible Json

namespace Journal

/-! ## The values of events -/

section Carried

/-- The text before the value of an event that records a key. -/
def opening (key : String) : List Char :=
  '\x7b' :: writeString "key" ++ ':' :: (writeString key ++ ',' :: (writeString "value" ++ [':']))

/-- The text of the value that an event records for a key. -/
def carried (key : String) (row : EventRow) : Option (List Char) := do
  let text ← PyText.decodeUtf8 row.payload
  if opening key <+: text.toList then some (text.toList.drop (opening key).length).dropLast
  else none

/-- The value in the last event that carries a key. -/
def last (key : String) (events : List EventRow) : Option (List Char) :=
  events.foldl (fun found row => (carried key row).or found) none

/-- The text of a cached value. -/
def cached (j : Journal) (key : String) : Option (List Char) := do
  let row ← Table.find StateRow.key key j.state
  let text ← PyText.decodeUtf8 row.value
  return text.toList

theorem last_append (key : String) (events : List EventRow) (row : EventRow) :
    last key (events ++ [row]) = (carried key row).or (last key events) := by
  simp [last]

theorem eq_of_writeString_append {s t : String} {rest rest' : List Char}
    (h : writeString s ++ rest = writeString t ++ rest') : s = t := by
  obtain ⟨tail, htail, hscan⟩ := scanString_writeString s rest
  obtain ⟨tail', htail', hscan'⟩ := scanString_writeString t rest'
  rw [htail, htail'] at h
  rw [(List.cons.inj h).2, hscan'] at hscan
  exact String.toList_injective (Prod.mk.inj (Option.some.inj hscan)).1.symm

variable {F : Type} [FloatText F]

theorem toList_dumps_entry (key : String) (value : Json F) :
    (entry key value).dumps.toList = opening key ++ (value.dumps.toList ++ ['\x7d']) := by
  have hsorted : sortedDict [("key", .str key), ("value", value)] =
      [("key", .str key), ("value", value.sorted)] := by
    simp [sortedDict, sortedMembers, List.insertionSort, show ("key" : String) ≤ "value" by decide]
  simp [dumps, entry, sorted_obj, hsorted, write, writeMembers, opening]

theorem opening_prefix_iff (key key' : String) (rest : List Char) :
    opening key <+: opening key' ++ rest ↔ key = key' := by
  constructor
  · rintro ⟨tail, h⟩
    simp only [opening, List.cons_append, List.append_assoc, List.cons.injEq, true_and,
      List.append_cancel_left_eq] at h
    exact eq_of_writeString_append h
  · rintro rfl
    exact List.prefix_append _ _

/-- What an event that records a key carries. -/
theorem carried_entry {row : EventRow} {key' : String} {value : Json F}
    (h : row.payload = PyText.encodeUtf8 (entry key' value).dumps) (key : String) :
    carried key row = if key = key' then some value.dumps.toList else none := by
  simp only [carried, h, PyText.decodeUtf8_encodeUtf8, Option.bind_eq_bind, Option.bind_some,
    toList_dumps_entry, opening_prefix_iff]
  split
  · next heq =>
      subst heq
      rw [List.drop_left, List.dropLast_concat]
  · rfl

/-- An object without the member `key` records no key. -/
theorem carried_obj {row : EventRow} {members : List (String × Json F)}
    (h : row.payload = PyText.encodeUtf8 (Json.obj members).dumps)
    (hmembers : "key" ∉ members.map Prod.fst) (key : String) : carried key row = none := by
  simp only [carried, h, PyText.decodeUtf8_encodeUtf8, Option.bind_eq_bind, Option.bind_some,
    ite_eq_right_iff, reduceCtorEq, imp_false]
  rintro ⟨tail, htail⟩
  have hperm := (perm_keys_sortedDict members).mem_iff (a := "key")
  rw [dumps, String.toList_ofList, sorted_obj] at htail
  cases hsorted : sortedDict members with
  | nil =>
      rw [hsorted] at htail
      simp [write, opening, writeString] at htail
  | cons first rest =>
      obtain ⟨k, v⟩ := first
      rw [hsorted] at htail
      simp only [write, opening, List.cons_append, List.append_assoc, List.cons.injEq,
        true_and] at htail
      obtain rfl := eq_of_writeString_append htail
      rw [hsorted] at hperm
      exact hmembers (hperm.mp List.mem_cons_self)

end Carried

/-! ## The chain -/

section Chain

variable [PyRuntime] {F : Type} [PyFloat F] [FloatText F]

/-- What verification checks of a row. -/
structure Linked (F : Type) [PyFloat F] [FloatText F] (previous : String) (count : ℕ)
    (row : EventRow) : Prop where
  digest : eventDigest F row.seq row.recordedAt row.kind row.previous row.payload = .ok row.digest
  seq : row.seq = count + 1
  previous : row.previous = previous
  capacity : count + 1 ≤ maxEvents

theorem verifyFrom_cons_iff {previous : String} {count : ℕ} {row : EventRow}
    {rows : List EventRow} : verifyFrom F previous count (row :: rows) = .ok () ↔
      Linked F previous count row ∧ verifyFrom F row.digest (count + 1) rows = .ok () := by
  simp only [verifyFrom, bind_eq_ok_iff, refuseIf_eq_ok_iff, not_or, ne_eq, not_not, not_lt]
  constructor
  · rintro ⟨expected, hdigest, -, ⟨hseq, hprevious, hsame, hcapacity⟩, hrest⟩
    exact ⟨⟨hsame ▸ hdigest, hseq, hprevious, hcapacity⟩, hrest⟩
  · rintro ⟨⟨hdigest, hseq, hprevious, hcapacity⟩, hrest⟩
    exact ⟨row.digest, hdigest, (), ⟨hseq, hprevious, rfl, hcapacity⟩, hrest⟩

/-- The digest that the next row chains to. -/
def headDigest (previous : String) (rows : List EventRow) : String :=
  (rows.getLast?.map EventRow.digest).getD previous

theorem verifyFrom_append_iff {previous : String} {count : ℕ} {rows : List EventRow}
    {row : EventRow} : verifyFrom F previous count (rows ++ [row]) = .ok () ↔
      verifyFrom F previous count rows = .ok () ∧
        Linked F (headDigest previous rows) (count + rows.length) row := by
  induction rows generalizing previous count with
  | nil =>
      rw [List.nil_append, verifyFrom_cons_iff]
      simp only [verifyFrom, headDigest, List.getLast?_nil, Option.map_none, Option.getD_none,
        List.length_nil, Nat.add_zero, and_true, true_and]
  | cons first rows ih =>
      have hhead : headDigest first.digest rows = headDigest previous (first :: rows) := by
        cases hlast : rows.getLast? <;> simp [headDigest, List.getLast?_cons, hlast]
      rw [List.cons_append, verifyFrom_cons_iff, verifyFrom_cons_iff, ih, hhead, List.length_cons,
        and_assoc, Nat.add_right_comm, Nat.add_assoc]

theorem linked_getLast {previous : String} {rows : List EventRow} {row : EventRow}
    (h : verifyFrom F previous 0 rows = .ok ()) (hlast : rows.getLast? = some row) :
    ∃ previous', Linked F previous' (rows.length - 1) row := by
  obtain ⟨front, rfl⟩ := List.getLast?_eq_some_iff.mp hlast
  have hlinked := (verifyFrom_append_iff.mp h).2
  rw [Nat.zero_add] at hlinked
  rw [List.length_append, List.length_singleton, Nat.add_sub_cancel]
  exact ⟨_, hlinked⟩

theorem next_of_verify {j : Journal} (h : verify F j = .ok ()) :
    j.next = (j.events.length + 1, headDigest zeroDigest j.events) := by
  unfold next headDigest
  cases hlast : j.events.getLast? with
  | none =>
      rw [List.getLast?_eq_none_iff] at hlast
      rw [hlast]
      rfl
  | some row =>
      obtain ⟨previous, hlinked⟩ := linked_getLast h hlast
      have hpos : 0 < j.events.length :=
        List.length_pos_iff.mpr (List.ne_nil_of_mem (List.mem_of_getLast? hlast))
      have hseq := hlinked.seq
      simp only [Option.map_some, Option.getD_some, Prod.mk.injEq, and_true]
      omega

theorem length_headDigest {j : Journal} (h : verify F j = .ok ()) :
    (headDigest zeroDigest j.events).length = 64 := by
  unfold headDigest
  cases hlast : j.events.getLast? with
  | none => rfl
  | some row =>
      obtain ⟨previous, hlinked⟩ := linked_getLast h hlast
      obtain ⟨head, -, hdigest⟩ := bind_eq_ok_iff.mp hlinked.digest
      have hlength := PyText.length_hexText (PyRuntime.sha256 (head ++ row.payload))
      rw [PyRuntime.sha256_length] at hlength
      rw [Option.map_some, Option.getD_some, ← Except.ok.inj hdigest]
      exact hlength

/-- An event is added at the end of the chain. -/
theorem record_eq_ok_iff {j j' : Journal} {kind : String} {payload : Json F} {now : IsoTime}
    (h : verify F j = .ok ()) : j.record kind payload now = .ok j' ↔
      (j.events.length < maxEvents ∧ (j.events.length + 10 < maxEvents ∨ kind = "stop")) ∧
        ∃ row, (row.kind = kind ∧ encode payload 16384 = .ok row.payload) ∧
          row.recordedAt = now.1 ∧ Linked F (headDigest zeroDigest j.events) j.events.length row ∧
            j' = { j with events := j.events ++ [row] } := by
  simp only [record, next_of_verify h, bind_eq_ok_iff, refuseIf_eq_ok_iff, Except.ok.injEq]
  constructor
  · rintro ⟨-, hreserve, -, hcapacity, raw, hraw, digest, hdigest, rfl⟩
    refine ⟨⟨?_, ?_⟩, ⟨_, now.1, kind, raw, _, digest⟩, ⟨rfl, hraw⟩, rfl,
      ⟨hdigest, rfl, rfl, ?_⟩, rfl⟩
    · omega
    · by_cases hkind : kind = "stop"
      · exact .inr hkind
      · exact .inl (by simp only [hkind, not_false_eq_true, ne_eq, and_true, maxEvents] at *; omega)
    · omega
  · rintro ⟨⟨hcapacity, hreserve⟩, ⟨seq, recordedAt, kind, raw, previous, digest⟩, ⟨rfl, hraw⟩,
      rfl, ⟨hdigest, rfl, rfl, -⟩, rfl⟩
    refine ⟨(), ?_, (), ?_, raw, hraw, digest, hdigest, rfl⟩
    · rintro ⟨hfull, hkind⟩
      rcases hreserve with hlt | heq
      · unfold maxEvents at *
        omega
      · exact hkind heq
    · omega

end Chain

/-! ## Transactions -/

section Transactions

variable [PyRuntime] {F : Type} [PyFloat F] [FloatText F] {j j' : Journal}

/-- The row that caches a value. -/
def stateRow (key : String) (value : Json F) : StateRow :=
  ⟨key, PyText.encodeUtf8 value.dumps, hexDigest (PyText.encodeUtf8 value.dumps)⟩

theorem store_eq_ok_iff {key : String} {value : Json F} : j.store key value = .ok j' ↔
    (∃ payload, encode value 16384 = .ok payload) ∧
      j' = { j with state := Table.upsert StateRow.key (stateRow key value) j.state } := by
  simp only [store, bind_eq_ok_iff, encode_eq_ok_iff, Except.ok.injEq]
  constructor
  · rintro ⟨_, ⟨hplain, rfl, hlength⟩, rfl⟩
    exact ⟨⟨_, hplain, rfl, hlength⟩, rfl⟩
  · rintro ⟨⟨_, hplain, rfl, hlength⟩, rfl⟩
    exact ⟨_, ⟨hplain, rfl, hlength⟩, rfl⟩

omit [PyRuntime] in
theorem transaction_cases {α : Type} (j : Journal)
    (body : Journal → Except Raised (α × Journal)) :
    (∃ e, j.transaction body = (.error e, j)) ∨
      ∃ a j', j.transaction body = (.ok a, j') ∧ body j = .ok (a, j') := by
  unfold transaction
  cases body j with
  | error e => exact .inl ⟨e, rfl⟩
  | ok result => exact .inr ⟨result.1, result.2, rfl, rfl⟩

omit [PyRuntime] in
/-- A transaction keeps what its body keeps, since a failure is rolled back. -/
theorem transaction_keeps {α : Type} {P : Journal → Prop}
    {body : Journal → Except Raised (α × Journal)} (h : P j)
    (hbody : ∀ a j', body j = .ok (a, j') → P j') : P (j.transaction body).2 := by
  rcases transaction_cases j body with ⟨e, hrun⟩ | ⟨a, j', hrun, hok⟩
  · rwa [hrun]
  · rw [hrun]
    exact hbody a j' hok

omit [PyRuntime] in
theorem lift_eq_ok_iff {α : Type} {x : Except FoundryError α} {a : α} :
    lift x = .ok a ↔ x = .ok a :=
  mapError_eq_ok_iff

/-- What the rows of the journal keep. -/
structure Coherent (F : Type) [PyFloat F] [FloatText F] (j : Journal) : Prop where
  verified : verify F j = .ok ()
  keys : (j.state.map StateRow.key).Nodup
  cached : ∀ key, key ≠ "requests" → key ≠ "stopped" → j.cached key = last key j.events
  stopped : (j.events.countP (·.kind = "stop") = 0 ∧
      Table.find StateRow.key "stopped" j.state = none) ∨
    (j.events.countP (·.kind = "stop") = 1 ∧
      Table.find StateRow.key "stopped" j.state = some (stateRow "stopped" (.bool true : Json F)))
  reserve : j.events.length + 10 ≤ maxEvents + j.events.countP (·.kind = "stop")

theorem coherent_empty : Coherent F {} where
  verified := rfl
  keys := List.nodup_nil
  cached _ _ _ := rfl
  stopped := .inl ⟨rfl, rfl⟩
  reserve := by decide

/-- An event of another kind than the stop, with the state that goes with it. -/
theorem Coherent.recorded (h : Coherent F j) {row : EventRow} {state : List StateRow}
    (hlinked : Linked F (headDigest zeroDigest j.events) j.events.length row)
    (hkind : row.kind ≠ "stop") (hroom : j.events.length + 10 < maxEvents)
    (hkeys : (state.map StateRow.key).Nodup)
    (hcached : ∀ key, key ≠ "requests" → key ≠ "stopped" →
      Journal.cached { j with state := state } key = (carried key row).or (j.cached key))
    (hstopped : Table.find StateRow.key "stopped" state =
      Table.find StateRow.key "stopped" j.state) :
    Coherent F { state := state, events := j.events ++ [row] } := by
  have hcount : (j.events ++ [row]).countP (·.kind = "stop") =
      j.events.countP (·.kind = "stop") := by
    simp [List.countP_append, hkind]
  refine ⟨verifyFrom_append_iff.mpr ⟨h.verified, by rwa [Nat.zero_add]⟩, hkeys,
    fun key hrequests hstop => ?_, ?_, ?_⟩
  · rw [last_append, ← h.cached key hrequests hstop]
    exact hcached key hrequests hstop
  · rw [hcount, hstopped]
    exact h.stopped
  · rw [hcount, List.length_append, List.length_singleton]
    omega

omit [PyFloat F] in
theorem cached_upsert {key : String} {value : Json F} {events : List EventRow} (other : String) :
    Journal.cached ⟨Table.upsert StateRow.key (stateRow key value) j.state, events⟩ other =
      if other = key then some value.dumps.toList else j.cached other := by
  simp only [Journal.cached, Table.find_upsert, stateRow]
  by_cases heq : key = other
  · simp [heq]
  · rw [if_neg heq, if_neg (Ne.symm heq)]

theorem Coherent.set (h : Coherent F j) {key : String} (value : Json F) {kind : String}
    (hkind : kind ≠ "stop") (hkey : key ≠ "stopped") (now : IsoTime) :
    Coherent F (j.set key value kind now).2 := by
  refine transaction_keeps h fun _ j' hbody => ?_
  simp only [bind_eq_ok_iff, lift_eq_ok_iff, record_eq_ok_iff h.verified, Except.ok.injEq,
    Prod.mk.injEq] at hbody
  obtain ⟨_, ⟨⟨-, hroom⟩, row, ⟨rfl, hpayload⟩, -, hlinked, rfl⟩, _, hstore, -, rfl⟩ := hbody
  obtain ⟨-, rfl⟩ := store_eq_ok_iff.mp hstore
  obtain ⟨-, hpayload, -⟩ := encode_eq_ok_iff.mp hpayload
  refine h.recorded hlinked hkind (hroom.resolve_right hkind) (Table.nodup_upsert h.keys)
    (fun other _ _ => ?_) ?_
  · rw [cached_upsert, carried_entry hpayload]
    split <;> rfl
  · exact Table.find_upsert.trans (if_neg hkey)

theorem Coherent.append (h : Coherent F j) {kind : String} {members : List (String × Json F)}
    (hkind : kind ≠ "stop") (hmembers : "key" ∉ members.map Prod.fst) (now : IsoTime) :
    Coherent F (j.append kind (.obj members) now).2 := by
  refine transaction_keeps h fun _ j' hbody => ?_
  simp only [bind_eq_ok_iff, lift_eq_ok_iff, record_eq_ok_iff h.verified, Except.ok.injEq,
    Prod.mk.injEq] at hbody
  obtain ⟨_, ⟨⟨-, hroom⟩, row, ⟨rfl, hpayload⟩, -, hlinked, rfl⟩, -, rfl⟩ := hbody
  obtain ⟨-, hpayload, -⟩ := encode_eq_ok_iff.mp hpayload
  refine h.recorded hlinked hkind (hroom.resolve_right hkind) h.keys (fun other _ _ => ?_) rfl
  rw [carried_obj hpayload hmembers]
  rfl

theorem Coherent.request (h : Coherent F j) (now : F) : Coherent F (j.request now).2 := by
  refine transaction_keeps h fun _ j' hbody => ?_
  simp only [bind_eq_ok_iff, lift_eq_ok_iff, Except.ok.injEq, Prod.mk.injEq] at hbody
  obtain ⟨_, -, _, -, -, -, -, -, _, hstore, -, rfl⟩ := hbody
  obtain ⟨-, rfl⟩ := store_eq_ok_iff.mp hstore
  refine ⟨h.verified, Table.nodup_upsert h.keys, fun key hrequests hstopped => ?_, ?_, h.reserve⟩
  · rw [cached_upsert, if_neg hrequests]
    exact h.cached key hrequests hstopped
  · rw [Table.find_upsert, if_neg (by simp [stateRow])]
    exact h.stopped

/-- The digest of an event with short texts. -/
theorem exists_eventDigest {seq : ℕ} {recordedAt kind previous : String} (hseq : seq ≤ maxEvents)
    (hrecorded : recordedAt.length ≤ 32) (hkind : kind.length ≤ 64) (hprevious : previous.length = 64)
    (payload : List UInt8) :
    ∃ digest, eventDigest F seq recordedAt kind previous payload = .ok digest := by
  have hdigits : (Nat.toDigits 10 seq).length ≤ 6 :=
    (Nat.length_toDigits_le_iff (by decide) (by decide)).mpr (hseq.trans_lt (by decide))
  have hwrite : (writeInt seq).length ≤ 6 := by
    rw [writeInt, if_neg (by omega)]
    exact hdigits
  have hat := length_writeString_le recordedAt
  have hkindText := length_writeString_le kind
  have hparent := length_writeString_le previous
  refine ⟨_, bind_eq_ok_iff.mpr ⟨_, encode_eq_ok_iff.mpr ⟨?_, rfl, ?_⟩, rfl⟩⟩
  · simp [visit, visitItems, isPlain, hdigits.trans (show 6 ≤ maxIntegerDigits by decide)]
  · refine (length_encodeUtf8_le _).trans ?_
    simp only [sorted, sortedItems, write, writeItems, List.length_cons, List.length_append,
      List.length_nil, maxEvidenceBytes]
    omega

theorem get_of_find {key : String} {value : Json F}
    (hfind : Table.find StateRow.key key j.state = some (stateRow key value)) :
    j.get key = (decode (PyText.encodeUtf8 value.dumps) : Except FoundryError (Json F)) := by
  rw [get, hfind]
  dsimp only
  rw [refuseIf_of_not (by simp [stateRow]), ok_bind]
  rfl

/-- Whether the journal has stopped. -/
theorem get_stopped_of_find (hfind : Table.find StateRow.key "stopped" j.state =
    some (stateRow "stopped" (.bool true : Json F))) : j.get "stopped" = .ok (.bool true : Json F) := by
  have hwritable : (Json.bool true : Json F).Writable := by simp [Writable]
  rw [get_of_find hfind, decode_dumps hwritable]
  · rw [sorted_bool]
  · exact (length_encodeUtf8_le _).trans (by simp [write, maxRequestBytes])
  · simp [visit]
  · simp [visit, isPlain]

/-- The payload of the stop. -/
def stopPayload : Json F := .obj [("reason", .str "operator_stop")]

omit [PyRuntime] in
theorem encode_stopPayload : encode (stopPayload : Json F) 16384 =
    .ok (PyText.encodeUtf8 (stopPayload : Json F).dumps) := by
  refine encode_eq_ok_iff.mpr ⟨by simp [stopPayload, visit, visitMembers, isPlain], rfl, ?_⟩
  refine (length_encodeUtf8_le _).trans ?_
  simp [stopPayload, sorted_obj, sortedDict, sortedMembers, write, writeMembers, writeString, escape]

omit [PyRuntime] in
theorem encode_true : encode (.bool true : Json F) 16384 =
    .ok (PyText.encodeUtf8 (.bool true : Json F).dumps) :=
  encode_eq_ok_iff.mpr ⟨by simp [visit, isPlain], rfl,
    (length_encodeUtf8_le _).trans (by simp [write])⟩

/-- A stop is never refused. -/
theorem Coherent.stop (h : Coherent F j) (now : IsoTime) :
    ∃ j', j.stop F now = (.ok (), j') ∧ Coherent F j' ∧
      Table.find StateRow.key "stopped" j'.state = some (stateRow "stopped" (.bool true : Json F)) := by
  rcases h.stopped with ⟨hcount, hnone⟩ | ⟨hcount, hsome⟩
  · have hroom : j.events.length + 10 ≤ maxEvents := by
      have hreserve := h.reserve
      omega
    have hlength := length_headDigest h.verified
    obtain ⟨digest, hdigest⟩ : ∃ digest, eventDigest F (j.events.length + 1) now.1 "stop"
        (headDigest zeroDigest j.events) (PyText.encodeUtf8 (stopPayload : Json F).dumps) =
          .ok digest :=
      exists_eventDigest (by omega) now.2 (by decide) hlength _
    let row : EventRow := ⟨j.events.length + 1, now.1, "stop",
      PyText.encodeUtf8 (stopPayload : Json F).dumps, headDigest zeroDigest j.events, digest⟩
    have hlinked : Linked F (headDigest zeroDigest j.events) j.events.length row :=
      ⟨hdigest, rfl, rfl, by omega⟩
    have hrecord : j.record "stop" (stopPayload : Json F) now =
        .ok { j with events := j.events ++ [row] } :=
      (record_eq_ok_iff h.verified).mpr ⟨⟨by omega, .inr rfl⟩, row, ⟨rfl, encode_stopPayload⟩, rfl,
        hlinked, rfl⟩
    have hstore : Journal.store { j with events := j.events ++ [row] } "stopped"
        (.bool true : Json F) = .ok ⟨Table.upsert StateRow.key
          (stateRow "stopped" (.bool true : Json F)) j.state, j.events ++ [row]⟩ :=
      store_eq_ok_iff.mpr ⟨⟨_, encode_true⟩, rfl⟩
    have hstopped : Table.find StateRow.key "stopped" (Table.upsert StateRow.key
        (stateRow "stopped" (.bool true : Json F)) j.state) =
          some (stateRow "stopped" (.bool true : Json F)) :=
      Table.find_upsert.trans (if_pos rfl)
    have hcounted : (j.events ++ [row]).countP (·.kind = "stop") =
        j.events.countP (·.kind = "stop") + 1 := by
      simp [List.countP_append, row]
    refine ⟨⟨_, _⟩, ?_, ⟨verifyFrom_append_iff.mpr ⟨h.verified, by rwa [Nat.zero_add]⟩,
      Table.nodup_upsert h.keys, fun key hrequests hstop => ?_,
      .inr ⟨by rw [hcounted, hcount], hstopped⟩, ?_⟩, hstopped⟩
    · have hget : lift (j.get (F := F) "stopped") = .ok .null := by rw [get, hnone]; rfl
      have hrecord' := lift_eq_ok_iff.mpr hrecord
      rw [stopPayload] at hrecord'
      simp only [Journal.stop, transaction, hget, ok_bind, truthy, Bool.false_eq_true, if_false,
        hrecord', lift_eq_ok_iff.mpr hstore]
    · have hcarried : carried key row = none :=
        carried_obj (show row.payload = PyText.encodeUtf8 (stopPayload : Json F).dumps from rfl)
          (by simp) key
      rw [cached_upsert, if_neg hstop, last_append, hcarried, Option.none_or]
      exact h.cached key hrequests hstop
    · rw [hcounted, List.length_append, List.length_singleton]
      omega
  · refine ⟨j, ?_, h, hsome⟩
    simp only [Journal.stop, transaction, get_stopped_of_find hsome]
    rfl

end Transactions

/-! ## Histories -/

section Histories

inductive Call (F : Type) where
  | set (key : String) (value : Json F) (kind : String) (now : IsoTime)
  | append (kind : String) (payload : Json F) (now : IsoTime)
  | request (now : F)
  | stop (now : IsoTime)

/-- A call as the service makes it: it leaves the stop and its key to `stop`, and
appends objects that record no key. -/
def Call.Ordinary {F : Type} : Call F → Prop
  | .set key _ kind _ => kind ≠ "stop" ∧ key ≠ "stopped"
  | .append kind payload _ =>
      kind ≠ "stop" ∧ ∃ members, payload = .obj members ∧ "key" ∉ members.map Prod.fst
  | _ => True

variable [PyRuntime] {F : Type} [PyFloat F] [FloatText F] {j : Journal}

def perform (j : Journal) : Call F → Except Raised Unit × Journal
  | .set key value kind now => j.set key value kind now
  | .append kind payload now => j.append kind payload now
  | .request now => j.request now
  | .stop now => j.stop F now

/-- The journal after transactions, each committed or rolled back. -/
def after (j : Journal) (calls : List (Call F × Bool)) : Journal :=
  calls.foldl (fun j call => if call.2 then (j.perform call.1).2 else j) j

theorem Coherent.perform (h : Coherent F j) {call : Call F} (hcall : call.Ordinary) :
    Coherent F (j.perform call).2 := by
  cases call with
  | set key value kind now => exact h.set value hcall.1 hcall.2 now
  | append kind payload now =>
      obtain ⟨hkind, members, rfl, hmembers⟩ := hcall
      exact h.append hkind hmembers now
  | request now => exact h.request now
  | stop now =>
      obtain ⟨j', hrun, hcoherent, -⟩ := h.stop now
      rw [Journal.perform, hrun]
      exact hcoherent

theorem Coherent.after (h : Coherent F j) {calls : List (Call F × Bool)}
    (hcalls : ∀ call ∈ calls, call.1.Ordinary) : Coherent F (j.after calls) := by
  induction calls generalizing j with
  | nil => exact h
  | cons call calls ih =>
      refine ih ?_ fun other hother => hcalls other (List.mem_cons_of_mem _ hother)
      dsimp only
      split
      · exact h.perform (hcalls call List.mem_cons_self)
      · exact h

theorem Coherent.stopped_iff (h : Coherent F j) :
    (∃ row ∈ j.events, row.kind = "stop") ↔ j.get "stopped" = .ok (.bool true : Json F) := by
  have hcount : (∃ row ∈ j.events, row.kind = "stop") ↔
      0 < j.events.countP (·.kind = "stop") := by
    simp [List.countP_pos_iff]
  rw [hcount]
  rcases h.stopped with ⟨hzero, hnone⟩ | ⟨hone, hsome⟩
  · rw [hzero, get, hnone]
    simp
  · rw [hone, get_stopped_of_find hsome]
    simp

omit [PyRuntime] [PyFloat F] [FloatText F] in
theorem prefix_transaction {α : Type} {body : Journal → Except Raised (α × Journal)}
    (h : ∀ a j', body j = .ok (a, j') → j.events <+: j'.events) :
    j.events <+: (j.transaction body).2.events := by
  rcases transaction_cases j body with ⟨e, hrun⟩ | ⟨a, j', hrun, hbody⟩
  · rw [hrun]
  · rw [hrun]
    exact h a j' hbody

theorem prefix_record {j' : Journal} {kind : String} {payload : Json F} {now : IsoTime}
    (h : j.record kind payload now = .ok j') : j.events <+: j'.events := by
  simp only [record, bind_eq_ok_iff, Except.ok.injEq] at h
  obtain ⟨-, -, -, -, _, -, _, -, rfl⟩ := h
  exact List.prefix_append _ _

theorem events_store {j' : Journal} {key : String} {value : Json F}
    (h : j.store key value = .ok j') : j'.events = j.events := by
  obtain ⟨-, rfl⟩ := store_eq_ok_iff.mp h
  rfl

/-- Events are only added. -/
theorem prefix_perform (j : Journal) (call : Call F) : j.events <+: (j.perform call).2.events := by
  cases call with
  | set key value kind now =>
      refine prefix_transaction fun _ j' hbody => ?_
      simp only [bind_eq_ok_iff, lift_eq_ok_iff, Except.ok.injEq, Prod.mk.injEq] at hbody
      obtain ⟨_, hrecord, _, hstore, -, rfl⟩ := hbody
      rw [events_store hstore]
      exact prefix_record hrecord
  | append kind payload now =>
      refine prefix_transaction fun _ j' hbody => ?_
      simp only [bind_eq_ok_iff, lift_eq_ok_iff, Except.ok.injEq, Prod.mk.injEq] at hbody
      obtain ⟨_, hrecord, -, rfl⟩ := hbody
      exact prefix_record hrecord
  | request now =>
      refine prefix_transaction fun _ j' hbody => ?_
      simp only [bind_eq_ok_iff, lift_eq_ok_iff, Except.ok.injEq, Prod.mk.injEq] at hbody
      obtain ⟨_, -, _, -, -, -, -, -, _, hstore, -, rfl⟩ := hbody
      rw [events_store hstore]
  | stop now =>
      refine prefix_transaction fun _ j' hbody => ?_
      obtain ⟨stopped, -, hbody⟩ := bind_eq_ok_iff.mp hbody
      split at hbody
      · obtain ⟨-, rfl⟩ := Prod.mk.inj (Except.ok.inj hbody)
        exact List.prefix_rfl
      · simp only [bind_eq_ok_iff, lift_eq_ok_iff, Except.ok.injEq, Prod.mk.injEq] at hbody
        obtain ⟨_, hrecord, _, hstore, -, rfl⟩ := hbody
        rw [events_store hstore]
        exact prefix_record hrecord

theorem prefix_after (j : Journal) (calls : List (Call F × Bool)) :
    j.events <+: (j.after calls).events := by
  induction calls generalizing j with
  | nil => exact List.prefix_rfl
  | cons call calls ih =>
      refine List.IsPrefix.trans ?_ (ih _)
      dsimp only
      split
      · exact prefix_perform j call.1
      · exact List.prefix_rfl

/-- After transactions of the kinds that the service makes, each committed or
rolled back. -/
theorem coherent_after {calls : List (Call F × Bool)} (h : ∀ call ∈ calls, call.1.Ordinary) :
    verify F (after {} calls) = .ok () ∧
      (∀ key, key ≠ "requests" → key ≠ "stopped" →
        (after {} calls).cached key = last key (after {} calls).events) ∧
      (((∃ row ∈ (after {} calls).events, row.kind = "stop") ↔
          (after {} calls).get "stopped" = .ok (.bool true : Json F)) ∧
        (after {} calls).events.countP (·.kind = "stop") ≤ 1 ∧
        ∀ later : List (Call F × Bool), (∀ call ∈ later, call.1.Ordinary) →
          (after {} calls).get "stopped" = .ok (.bool true : Json F) →
            ((after {} calls).after later).get "stopped" = .ok (.bool true : Json F)) ∧
      (after {} calls).events.length ≤ maxEvents ∧
      ∀ now, ((after {} calls).stop F now).1 = .ok () := by
  have hcoherent := coherent_empty.after h
  have honce : (after {} calls).events.countP (·.kind = "stop") ≤ 1 := by
    rcases hcoherent.stopped with ⟨hcount, -⟩ | ⟨hcount, -⟩ <;> omega
  refine ⟨hcoherent.verified, hcoherent.cached, ⟨hcoherent.stopped_iff, honce,
    fun later hlater hstopped => ?_⟩, ?_, fun now => ?_⟩
  · obtain ⟨row, hrow, hkind⟩ := hcoherent.stopped_iff.mpr hstopped
    exact (hcoherent.after hlater).stopped_iff.mp ⟨row, (prefix_after _ later).subset hrow, hkind⟩
  · have hreserve := hcoherent.reserve
    omega
  · obtain ⟨j', hrun, -⟩ := hcoherent.stop now
    rw [hrun]

end Histories

/-- The time of the events below. -/
def noon : IsoTime := ⟨"2026-01-02T12:00:00+00:00", by decide⟩

open Platform in
theorem coherent_after_stop :
    verify ℚ (after {} [(.set "state" (.str "ready") "state" noon, true),
      (.append "no_order" (.obj [("symbol", .str "SPY")]) noon, true), (.stop noon, true),
      (.request (60 : ℚ), false)]) = .ok () :=
  (coherent_after (F := ℚ) (by
    intro call hcall
    simp only [List.mem_cons, List.not_mem_nil, or_false] at hcall
    rcases hcall with rfl | rfl | rfl | rfl
    · exact ⟨by decide, by decide⟩
    · exact ⟨by decide, _, rfl, by decide⟩
    · trivial
    · trivial)).1

open Platform in
/-- An appended event of the kind of the stop is no stop. -/
theorem append_stop_incoherent :
    (∃ row ∈ (after {} [((.append "stop" (.obj []) noon : Call ℚ), true)]).events,
        row.kind = "stop") ∧
      (after {} [((.append "stop" (.obj []) noon : Call ℚ), true)]).get "stopped" =
        .ok (.null : Json ℚ) := by
  have hencode : encode (.obj [] : Json ℚ) 16384 =
      .ok (PyText.encodeUtf8 (.obj [] : Json ℚ).dumps) :=
    encode_eq_ok_iff.mpr ⟨by simp [visit, visitMembers, isPlain], rfl,
      (length_encodeUtf8_le _).trans (by simp [sorted_obj, sortedDict, sortedMembers, write])⟩
  obtain ⟨digest, hdigest⟩ : ∃ digest, eventDigest ℚ 1 noon.1 "stop" zeroDigest
      (PyText.encodeUtf8 (.obj [] : Json ℚ).dumps) = .ok digest :=
    exists_eventDigest (by decide) noon.2 (by decide) (by decide) _
  let row : EventRow := ⟨1, noon.1, "stop", PyText.encodeUtf8 (.obj [] : Json ℚ).dumps, zeroDigest,
    digest⟩
  have hrecord : record {} "stop" (.obj [] : Json ℚ) noon = .ok ⟨[], [row]⟩ :=
    (record_eq_ok_iff coherent_empty.verified).mpr ⟨⟨by decide, .inr rfl⟩, row, ⟨rfl, hencode⟩, rfl,
      ⟨hdigest, rfl, rfl, by decide⟩, rfl⟩
  have hrun : after {} [((.append "stop" (.obj []) noon : Call ℚ), true)] = ⟨[], [row]⟩ := by
    simp only [after, List.foldl_cons, List.foldl_nil, if_true, perform, append, transaction,
      lift_eq_ok_iff.mpr hrecord, ok_bind]
  rw [hrun]
  exact ⟨⟨row, List.mem_singleton_self _, rfl⟩, rfl⟩

end Journal

end Trading

end Foundry
