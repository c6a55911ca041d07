import SignalFoundry.Backtesting.Journal.Reachable
import SignalFoundry.Backtesting.Journal.SQLite
import SignalFoundry.Library.Machine

/-!
# The two journals agree

The database of an in-memory journal has its records as rows and its totals as
metadata. On that database an append by the SQLite journal reads what the other
journal reads from its list and its index, so both make the same checks, and the
constraints of the tables hold of the row of a checked event. The only
constraint that the other journal does not check is the uniqueness of the
digests, which a collision would break.
-/

namespace SignalFoundry

open Fallible

/-! ## Records of a chain -/

section Chain

variable [PyRuntime]

/-- What a record of a chain from some position on satisfies. -/
structure Chained (count : ℕ) (hash : List UInt8) (contents : List (String × List UInt8))
    (record : JournalRecord) : Prop where
  ordinal_gt : (count : ℤ) < record.ordinal
  eventHash : record.eventHash = chainHash record.previousHash record.content
  link : (record.previousHash, record.content) ∈ HashChain.links chainHash hash contents

theorem chained_of_mem {count : ℕ} {hash : List UInt8} {contents : List (String × List UInt8)}
    {record : JournalRecord} (h : record ∈ chainRecords count hash contents) :
    Chained count hash contents record := by
  induction contents generalizing count hash with
  | nil => cases h
  | cons content contents ih =>
      rcases List.mem_cons.mp h with rfl | h
      · exact ⟨Int.lt_succ _, rfl, List.mem_cons_self⟩
      · obtain ⟨hordinal, heventHash, hlink⟩ := ih h
        push_cast at hordinal
        exact ⟨by omega, heventHash, List.mem_cons_of_mem _ hlink⟩

theorem ordinal_of_getElem? {count : ℕ} {hash : List UInt8}
    {contents : List (String × List UInt8)} {index : ℕ} {record : JournalRecord}
    (h : (chainRecords count hash contents)[index]? = some record) :
    record.ordinal = count + index + 1 := by
  induction contents generalizing count hash index with
  | nil => cases h
  | cons content contents ih =>
      cases index with
      | zero =>
          cases h
          simp [nextRecord]
      | succ index =>
          have hrest := ih h
          push_cast at hrest ⊢
          omega

theorem pairwise_ordinal (count : ℕ) (hash : List UInt8)
    (contents : List (String × List UInt8)) :
    (chainRecords count hash contents).Pairwise fun a b => a.ordinal < b.ordinal := by
  induction contents generalizing count hash with
  | nil => exact List.Pairwise.nil
  | cons content contents ih =>
      refine List.Pairwise.cons ?_ (ih (count + 1) (chainHash hash content))
      intro record hrecord
      have hordinal := (chained_of_mem hrecord).ordinal_gt
      push_cast at hordinal
      exact hordinal

/-- The links of a list are among those of every longer list. -/
theorem ChainCollisionFree.of_prefix {contents contents' : List (String × List UInt8)}
    (hfree : ChainCollisionFree contents' contents') (h : contents <+: contents') :
    ChainCollisionFree contents contents := by
  obtain ⟨rest, rfl⟩ := h
  have hlinks : ∀ l ∈ HashChain.links chainHash genesisHash contents,
      l ∈ HashChain.links chainHash genesisHash (contents ++ rest) := by
    intro l hl
    rw [HashChain.links_append]
    exact List.mem_append_left _ hl
  intro l hl m hm
  exact hfree l (hlinks l hl) m (hlinks m hm)

end Chain

/-- No two of the inputs that are hashed for the records of a journal collide. -/
def InMemoryJournal.CollisionFree [PyRuntime] (journal : InMemoryJournal) : Prop :=
  ChainCollisionFree (journal.records.map JournalRecord.content)
    (journal.records.map JournalRecord.content)

/-- The search for the only element that satisfies a predicate. -/
theorem find?_eq_some_iff_of_unique {α : Type} {p : α → Bool} {l : List α}
    (h : ∀ a ∈ l, ∀ b ∈ l, p a = true → p b = true → a = b) {a : α} :
    l.find? p = some a ↔ a ∈ l ∧ p a = true := by
  constructor
  · intro hfind
    exact ⟨List.mem_of_find?_eq_some hfind, List.find?_some hfind⟩
  · rintro ⟨hmem, hp⟩
    cases hfind : l.find? p with
    | none => exact absurd hp (List.find?_eq_none.mp hfind a hmem)
    | some b =>
        rw [h b (List.mem_of_find?_eq_some hfind) a hmem (List.find?_some hfind) hp]

/-- The row of a record. -/
def rowOf (record : JournalRecord) : EventRow where
  ordinal := record.ordinal
  eventId := record.eventId
  payload := record.payload
  payloadSize := record.payload.length
  previousHash := record.previousHash
  eventHash := record.eventHash

/-- The tables that hold what an in-memory journal holds. -/
def databaseOf (journal : InMemoryJournal) : JournalDatabase where
  metadata := { eventCount := journal.records.length
                totalPayloadBytes := journal.totalPayloadBytes
                headHash := headHashOf journal.records }
  events := journal.records.map rowOf

theorem readMetadata_of_checked {database : JournalDatabase} (h : database.metadata.Checked) :
    database.readMetadata = .ok
      ({ count := database.metadata.eventCount.toNat, eventHash := database.metadata.headHash,
         eventHash_length := h.length_headHash }, database.metadata.totalPayloadBytes.toNat) := by
  rw [JournalDatabase.readMetadata, refuseIf_of_not (not_lt.mpr h.eventCount_nonneg), ok_bind,
    refuseIf_of_not (not_lt.mpr h.totalPayloadBytes_nonneg), ok_bind,
    require_of h.length_headHash, ok_bind]
  rfl

theorem readMetadata_databaseOf (journal : InMemoryJournal) :
    (databaseOf journal).readMetadata = .ok (journal.head, journal.totalPayloadBytes) :=
  readMetadata_of_checked ⟨Int.natCast_nonneg _, Int.natCast_nonneg _,
    length_headHashOf journal.eventHash_length⟩

/-- What the checks of an event say about its content. -/
structure CheckedContent (limits : JournalLimits) (content : String × List UInt8) : Prop where
  eventId : checkedEventId content.1 limits.maxEventIdBytes.1 = .ok content.1
  payload_length : content.2.length ≤ limits.maxEventBytes.1

theorem CheckedContent.encodable {limits : JournalLimits} {content : String × List UInt8}
    (h : CheckedContent limits content) : Encodable content := by
  obtain ⟨⟨-, hlength⟩, -, -⟩ := checkedEventId_eq_ok_iff.mp h.eventId
  have hidMax := limits.maxEventIdBytes.2.2
  have hpayloadMax := limits.maxEventBytes.2.2
  simp only [hardMaxEventIdBytes, hardMaxEventBytes] at hidMax hpayloadMax
  exact ⟨lt_of_le_of_lt (hlength.trans hidMax) (by decide),
    lt_of_le_of_lt (h.payload_length.trans hpayloadMax) (by decide)⟩

/-- An identifier without control characters has characters before the first NUL. -/
theorem sqlLength_pos {eventId : String} {maximumBytes : ℕ}
    (h : checkedEventId eventId maximumBytes = .ok eventId) : sqlLength eventId ≥ 1 := by
  obtain ⟨⟨hne, -⟩, hcontrol, -⟩ := checkedEventId_eq_ok_iff.mp h
  cases hchars : eventId.toList with
  | nil =>
      have hempty : eventId = "" := String.toList_injective hchars
      exact absurd (by rw [hempty]; rfl) hne
  | cons c cs =>
      have hc : (c != '\x00') = true := by
        rw [bne_iff_ne]
        rintro rfl
        rw [hchars] at hcontrol
        simp at hcontrol
      rw [sqlLength, hchars]
      simp [hc]

theorem insertEvent_of_checked {database : JournalDatabase} {row : EventRow}
    (hordinal : row.ordinal = database.metadata.eventCount + 1)
    (hprevious : row.previousHash = database.metadata.headHash) (hchecked : row.Checked)
    (hnew : ∀ other ∈ database.events, ¬ other.Conflicts row) :
    database.insertEvent row = .ok { database with events := database.events ++ [row] } := by
  have htrigger : ¬ (row.ordinal ≠ database.metadata.eventCount + 1 ∨
      row.previousHash ≠ database.metadata.headHash) :=
    not_or.mpr ⟨not_not.mpr hordinal, not_not.mpr hprevious⟩
  have hunique : ¬ ∃ other ∈ database.events, other.Conflicts row := by
    rintro ⟨other, hmem, hconflict⟩
    exact hnew other hmem hconflict
  rw [JournalDatabase.insertEvent, refuseIf_of_not htrigger, ok_bind,
    refuseIf_of_not (not_not.mpr hchecked), ok_bind, refuseIf_of_not hunique, ok_bind, pure_eq_ok]

theorem updateMetadata_of_checked {metadata row : MetadataRow} {events : List EventRow}
    {eventCount : ℤ} {headHash : List UInt8} (hcount : metadata.eventCount = eventCount)
    (hhash : metadata.headHash = headHash) (hchecked : row.Checked) :
    JournalDatabase.updateMetadata { metadata, events } row eventCount headHash =
      .ok (1, { metadata := row, events }) := by
  rw [JournalDatabase.updateMetadata, if_pos ⟨hcount, hhash⟩,
    refuseIf_of_not (not_not.mpr hchecked), ok_bind, pure_eq_ok]

theorem during_ok {α : Type} (operation : String) (a : α) :
    during operation (.ok a) = .ok a := rfl

section Queries

variable [PyRuntime] {F : Type} [PyFloat F] [FloatText F] {journal : InMemoryJournal}

namespace InMemoryJournal

theorem Valid.eq_chainRecords (h : journal.Valid F) :
    journal.records =
      chainRecords 0 genesisHash (journal.records.map JournalRecord.content) := by
  obtain ⟨state, hrun, -⟩ := h.verifies
  exact (runVerified_of_foldlM rfl hrun).eq_chainRecords

theorem Valid.encodable (h : journal.Valid F) {record : JournalRecord}
    (hrecord : record ∈ journal.records) : Encodable record.content := by
  obtain ⟨state, hrun, -⟩ := h.verifies
  exact (runVerified_of_foldlM rfl hrun).encodable record hrecord

theorem Valid.chained (h : journal.Valid F) {record : JournalRecord}
    (hrecord : record ∈ journal.records) :
    Chained 0 genesisHash (journal.records.map JournalRecord.content) record := by
  rw [h.eq_chainRecords] at hrecord
  exact chained_of_mem hrecord

theorem Valid.ordinal_getElem? (h : journal.Valid F) {index : ℕ} {record : JournalRecord}
    (hrecord : journal.records[index]? = some record) : record.ordinal = index + 1 := by
  rw [h.eq_chainRecords] at hrecord
  simpa using ordinal_of_getElem? hrecord

/-- The row with an identifier is that of the record the index finds. -/
theorem Valid.find?_eventId (h : journal.Valid F) (id : String) :
    (databaseOf journal).events.find? (fun row => row.eventId = id) =
      (journal.existing? id).map rowOf := by
  have hunique : ∀ a ∈ journal.records, ∀ b ∈ journal.records,
      decide (a.eventId = id) = true → decide (b.eventId = id) = true → a = b := by
    intro a ha b hb haid hbid
    have hfound := h.existing?_eq_some_iff.mpr ⟨ha, of_decide_eq_true haid⟩
    rw [h.existing?_eq_some_iff.mpr ⟨hb, of_decide_eq_true hbid⟩] at hfound
    exact (Option.some.inj hfound).symm
  have hrecords : journal.records.find? (fun record => record.eventId = id) =
      journal.existing? id := by
    refine Option.ext fun record => ?_
    rw [find?_eq_some_iff_of_unique hunique, h.existing?_eq_some_iff, decide_eq_true_iff]
  rw [← hrecords, databaseOf, List.find?_map]
  rfl

/-- The row at the ordinal of the count is that of the last record. -/
theorem Valid.find?_ordinal (h : journal.Valid F) :
    (databaseOf journal).events.find? (fun row => row.ordinal = (journal.records.length : ℤ)) =
      journal.records.getLast?.map rowOf := by
  have hunique : ∀ a ∈ journal.records, ∀ b ∈ journal.records,
      decide (a.ordinal = (journal.records.length : ℤ)) = true →
        decide (b.ordinal = (journal.records.length : ℤ)) = true → a = b := by
    intro a ha b hb halast hblast
    obtain ⟨i, hi⟩ := List.getElem?_of_mem ha
    obtain ⟨j, hj⟩ := List.getElem?_of_mem hb
    have haordinal := h.ordinal_getElem? hi
    have hbordinal := h.ordinal_getElem? hj
    have hij : i = j := by
      have := of_decide_eq_true halast
      have := of_decide_eq_true hblast
      omega
    rw [hij, hj] at hi
    exact (Option.some.inj hi).symm
  have hrecords : journal.records.find?
      (fun record => record.ordinal = (journal.records.length : ℤ)) =
        journal.records.getLast? := by
    cases hlast : journal.records.getLast? with
    | none => simp [List.getLast?_eq_none_iff.mp hlast]
    | some last =>
        rw [find?_eq_some_iff_of_unique hunique]
        refine ⟨List.mem_of_getLast? hlast, decide_eq_true ?_⟩
        have hpos : 0 < journal.records.length :=
          List.length_pos_of_mem (List.mem_of_getLast? hlast)
        rw [List.getLast?_eq_getElem?] at hlast
        rw [h.ordinal_getElem? hlast]
        omega
  rw [← hrecords, databaseOf, List.find?_map]
  rfl

theorem Valid.checkTail (h : journal.Valid F) (canonicalEvent : ExecutionEvent F) :
    SQLiteJournal.checkTail (databaseOf journal) journal.head.count canonicalEvent =
      journal.checkLast canonicalEvent := by
  show SQLiteJournal.checkTail (databaseOf journal) journal.records.length canonicalEvent = _
  rw [SQLiteJournal.checkTail, h.find?_ordinal, checkLast]
  cases hlast : journal.records.getLast? with
  | none => rw [if_pos (by simp [List.getLast?_eq_none_iff.mp hlast])]
  | some last =>
      have hne : journal.records ≠ [] := by
        rintro hnil
        simp [hnil] at hlast
      rw [if_neg (by simpa using hne)]
      rfl

end InMemoryJournal

namespace InMemoryJournal

variable {content : String × List UInt8}

/-- The digest of a new record is that of no other, unless two inputs collide. -/
theorem Valid.eventHash_ne (h : journal.Valid F) (hchecked : CheckedContent journal.limits content)
    (hfresh : journal.existing? content.1 = none)
    (hfree : (journal.push content).CollisionFree)
    {record : JournalRecord} (hrecord : record ∈ journal.records) :
    record.eventHash ≠ chainHash (headHashOf journal.records) content := by
  intro hcollide
  obtain ⟨-, heventHash, hlink⟩ := h.chained hrecord
  obtain ⟨state, hrun, -⟩ := h.verifies
  have hhead : HashChain.head chainHash genesisHash
      (journal.records.map JournalRecord.content) = headHashOf journal.records := by
    rw [← (tracks_of_foldlM hrun).previousHash]
    exact ((runVerified_of_foldlM rfl hrun).head).symm
  have hlinks : HashChain.links chainHash genesisHash
      ((journal.push content).records.map JournalRecord.content) =
        HashChain.links chainHash genesisHash (journal.records.map JournalRecord.content) ++
          [(headHashOf journal.records, content)] := by
    rw [InMemoryJournal.push, List.map_append, List.map_singleton,
      HashChain.links_append_singleton, hhead]
    rfl
  have hinputs := hfree (record.previousHash, record.content)
    (hlinks ▸ List.mem_append_left _ hlink) (headHashOf journal.records, content)
    (hlinks ▸ List.mem_append_right _ (List.mem_singleton_self _))
    (heventHash.symm.trans hcollide)
  have hgenesis : genesisHash.length = hashSize := by decide
  have hlength := (length_of_mem_links hgenesis hlink).1.trans
    (length_headHashOf journal.eventHash_length).symm
  have hsame := (chainInput_injective hlength (h.encodable hrecord) hchecked.encodable hinputs).2
  exact h.existing?_eq_none_iff.mp hfresh record hrecord (congrArg Prod.fst hsame)

/-- The constraints of the columns hold of the row of a checked content. -/
theorem nextRow_checked (journal : InMemoryJournal)
    (hchecked : CheckedContent journal.limits content) :
    (SQLiteJournal.nextRow journal.head content).Checked where
  ordinal_pos := by
    show (journal.records.length : ℤ) + 1 ≥ 1
    omega
  eventId_nonempty := sqlLength_pos hchecked.eventId
  eventId_length := by
    obtain ⟨⟨-, hlength⟩, -, -⟩ := checkedEventId_eq_ok_iff.mp hchecked.eventId
    exact hlength.trans journal.limits.maxEventIdBytes.2.2
  payload_length := hchecked.payload_length.trans journal.limits.maxEventBytes.2.2
  payloadSize_eq := rfl
  length_previousHash := length_headHashOf journal.eventHash_length
  length_eventHash := PyRuntime.sha256_length _

theorem nextMetadata_checked (journal : InMemoryJournal) (nextTotal : ℕ)
    (content : String × List UInt8) :
    (SQLiteJournal.nextMetadata journal.head nextTotal content).Checked where
  eventCount_nonneg := by
    show (journal.records.length : ℤ) + 1 ≥ 0
    omega
  totalPayloadBytes_nonneg := Int.natCast_nonneg _
  length_headHash := PyRuntime.sha256_length _

/-- The keys of the table keep the row of a new content apart. -/
theorem Valid.not_conflicts (h : journal.Valid F)
    (hchecked : CheckedContent journal.limits content)
    (hfresh : journal.existing? content.1 = none)
    (hfree : (journal.push content).CollisionFree) :
    ∀ other ∈ (databaseOf journal).events,
      ¬ other.Conflicts (SQLiteJournal.nextRow journal.head content) := by
  intro other hother hconflict
  obtain ⟨record, hrecord, rfl⟩ := List.mem_map.mp hother
  rcases hconflict with hordinal | hid | hhash
  · obtain ⟨index, hindex⟩ := List.getElem?_of_mem hrecord
    have hbound := (List.getElem?_eq_some_iff.mp hindex).1
    have hold : record.ordinal = index + 1 := h.ordinal_getElem? hindex
    have hnew : record.ordinal = journal.records.length + 1 := hordinal
    omega
  · exact h.existing?_eq_none_iff.mp hfresh record hrecord hid
  · exact h.eventHash_ne hchecked hfresh hfree hrecord hhash

/-- The statements that write a checked new content take place. -/
theorem Valid.writeEvent (h : journal.Valid F) (hchecked : CheckedContent journal.limits content)
    (hfresh : journal.existing? content.1 = none)
    (hfree : (journal.push content).CollisionFree) :
    SQLiteJournal.writeEvent (databaseOf journal) journal.head
      (journal.totalPayloadBytes + content.2.length) content =
        .ok (databaseOf (journal.push content)) := by
  have hinsert := insertEvent_of_checked (rfl : _ = (databaseOf journal).metadata.eventCount + 1)
    rfl (journal.nextRow_checked hchecked) (h.not_conflicts hchecked hfresh hfree)
  have hcount : (databaseOf journal).metadata.eventCount = (journal.head.count : ℤ) := rfl
  have hhash : (databaseOf journal).metadata.headHash = journal.head.eventHash := rfl
  rw [SQLiteJournal.writeEvent, hinsert, during_ok, ok_bind,
    updateMetadata_of_checked hcount hhash (journal.nextMetadata_checked _ content), during_ok,
    ok_bind]
  show (refuseIf (1 ≠ 1) _ >>= fun _ => pure _) = _
  rw [refuseIf_of_not (by simp), ok_bind, pure_eq_ok]
  simp only [databaseOf, InMemoryJournal.push, SQLiteJournal.nextMetadata, SQLiteJournal.nextRow,
    head, rowOf, nextRecord, headHashOf_append_singleton, List.map_append, List.map_singleton,
    List.length_append, List.length_singleton, Nat.cast_add, Nat.cast_one]

/-! ## One append -/

theorem store_of_existing (hopen : journal.closed = false) {existing : JournalRecord}
    (hexisting : journal.existing? content.1 = some existing) (canonicalEvent : ExecutionEvent F) :
    journal.store content canonicalEvent =
      if existing.payload = content.2 then .ok (false, journal)
      else .error (collisionError content.1) := by
  rw [store, checkOpen, refuseIf_of_not (by simp [hopen]), ok_bind, hexisting]
  rfl

theorem store_of_new (hopen : journal.closed = false)
    (hexisting : journal.existing? content.1 = none) (canonicalEvent : ExecutionEvent F) :
    journal.store content canonicalEvent = do
      refuseIf (journal.head.count ≥ journal.limits.maxEvents.1)
        (.resourceLimit "journal event-count limit would be exceeded")
      refuseIf (journal.totalPayloadBytes + content.2.length >
          journal.limits.maxTotalPayloadBytes.1)
        (.resourceLimit "journal payload-size limit would be exceeded")
      journal.checkLast canonicalEvent
      return (true, journal.push content) := by
  rw [store, checkOpen, refuseIf_of_not (by simp [hopen]), ok_bind, hexisting]
  rfl

/-- The transaction of a checked content does to the tables what storing it does
to the list. -/
theorem Valid.transaction (h : journal.Valid F) (hopen : journal.closed = false)
    {sql : SQLiteJournal} (hdatabase : sql.database = databaseOf journal)
    (hlimits : sql.limits = journal.limits) {conditions : AppendConditions}
    (hstatements : conditions.statements = .ok ()) (hcommit : conditions.commit = .ok ())
    (hgrowth : conditions.sizeBefore + (content.2.length + 16 * sql.pageSize) ≤
      sql.maxDatabaseBytes.1)
    (hchecked : CheckedContent journal.limits content) {canonicalEvent : ExecutionEvent F}
    (hfree : ∀ next, journal.store content canonicalEvent = .ok (true, next) →
      next.CollisionFree) :
    sql.transaction conditions content canonicalEvent =
      (journal.store content canonicalEvent).map fun result =>
        (result.1, databaseOf result.2) := by
  have hcheckGrowth : sql.checkDatabaseGrowth conditions content.2.length = .ok () :=
    refuseIf_of_not (not_lt.mpr hgrowth)
  obtain ⟨limits, maxDatabaseBytes, pageSize, database, closed⟩ := sql
  obtain rfl : database = databaseOf journal := hdatabase
  obtain rfl : limits = journal.limits := hlimits
  rw [SQLiteJournal.transaction]
  simp only [hstatements, during_ok, ok_bind, h.find?_eventId]
  cases hexisting : journal.existing? content.1 with
  | some existing =>
      obtain ⟨hmem, hid⟩ := h.existing?_eq_some_iff.mp hexisting
      have hhash : (rowOf existing).eventHash =
          chainHash (rowOf existing).previousHash (content.1, (rowOf existing).payload) := by
        rw [← hid]
        exact (h.chained hmem).eventHash
      simp only [store_of_existing hopen hexisting, Option.map_some]
      rw [refuseIf_of_not (not_not.mpr hhash), ok_bind]
      show (if existing.payload = content.2 then _ else _) = _
      split
      · rfl
      · rfl
  | none =>
      have hstore := store_of_new hopen hexisting canonicalEvent
      simp only [Option.map_none, readMetadata_databaseOf, ok_bind, h.checkTail, hcheckGrowth]
      rw [hstore]
      by_cases hcount : journal.head.count ≥ journal.limits.maxEvents.1
      · rw [refuseIf_of hcount, error_bind]
        rfl
      rw [refuseIf_of_not hcount, ok_bind] at hstore ⊢
      rw [ok_bind]
      by_cases htotal : journal.totalPayloadBytes + content.2.length >
          journal.limits.maxTotalPayloadBytes.1
      · rw [refuseIf_of htotal, error_bind]
        rfl
      rw [refuseIf_of_not htotal, ok_bind] at hstore ⊢
      rw [ok_bind]
      cases hlast : journal.checkLast canonicalEvent with
      | error e => rfl
      | ok u =>
          rw [hlast, ok_bind] at hstore
          rw [ok_bind, ok_bind, h.writeEvent hchecked hexisting (hfree _ hstore), ok_bind, hcommit,
            during_ok, ok_bind]
          rfl

theorem Valid.appendStep (h : journal.Valid F) (event : ExecutionEvent F) :
    (journal.appendStep event).2.Valid F := by
  have hafter := h.after (.append event)
  rw [JournalCall.after] at hafter
  rw [InMemoryJournal.appendStep]
  cases happend : journal.append event with
  | error e => exact h
  | ok result =>
      rw [happend] at hafter
      exact hafter

theorem store_eq_ok {next : InMemoryJournal} {stored : Bool} {canonicalEvent : ExecutionEvent F}
    (h : journal.store content canonicalEvent = .ok (stored, next)) :
    (stored = false ∧ next = journal) ∨ (stored = true ∧ next = journal.push content) := by
  simp only [store, bind_eq_ok_iff] at h
  obtain ⟨-, -, h⟩ := h
  split at h
  · split at h
    · cases h
      exact .inl ⟨rfl, rfl⟩
    · cases h
  · simp only [bind_eq_ok_iff, pure_eq_ok, Except.ok.injEq, Prod.mk.injEq] at h
    obtain ⟨-, -, -, -, -, -, hstored, hnext⟩ := h
    exact .inr ⟨hstored.symm, hnext.symm⟩

theorem append_eq_ok {next : InMemoryJournal} {stored : Bool} {event : ExecutionEvent F}
    (h : journal.append event = .ok (stored, next)) :
    (stored = false ∧ next = journal) ∨
      (stored = true ∧ next = journal.push (event.eventId, event.canonicalBytes)) := by
  simp only [append, bind_eq_ok_iff] at h
  obtain ⟨content, hcontent, decoded, -, h⟩ := h
  rw [← (canonicalEvent_eq_ok_iff.mp hcontent).1]
  exact store_eq_ok h

/-- The records of a journal are kept by an append. -/
theorem prefix_appendStep (journal : InMemoryJournal) (event : ExecutionEvent F) :
    journal.records <+: (journal.appendStep event).2.records := by
  rw [appendStep]
  cases happend : journal.append event with
  | error e => exact List.prefix_rfl
  | ok result =>
      obtain ⟨stored, next⟩ := result
      rcases append_eq_ok happend with ⟨-, rfl⟩ | ⟨-, rfl⟩
      · exact List.prefix_rfl
      · exact List.prefix_append _ _

end InMemoryJournal

/-- Conditions of an append under which nothing but the checks of the journal
refuses an event. -/
structure AppendConditions.Untroubled (conditions : AppendConditions)
    (maxDatabaseBytes pageSize : ℕ) (event : ExecutionEvent F) : Prop where
  statements : conditions.statements = .ok ()
  growth : conditions.sizeBefore + (event.canonicalBytes.length + 16 * pageSize) ≤
    maxDatabaseBytes
  commit : conditions.commit = .ok ()
  sidecars : conditions.sidecars = .ok ()
  size : conditions.sizeAfter ≤ maxDatabaseBytes

/-- Journals that hold the same. -/
structure Agrees (F : Type) [PyFloat F] [FloatText F] (maxDatabaseBytes pageSize : ℕ)
    (journal : InMemoryJournal) (sql : SQLiteJournal) : Prop where
  valid : journal.Valid F
  database : sql.database = databaseOf journal
  limits : sql.limits = journal.limits
  journal_open : journal.closed = false
  sql_open : sql.closed = false
  maxDatabaseBytes : sql.maxDatabaseBytes.1 = maxDatabaseBytes
  pageSize : sql.pageSize = pageSize

/-- One append to journals that agree. -/
theorem Agrees.append {maxDatabaseBytes pageSize : ℕ} {sql : SQLiteJournal}
    (h : Agrees F maxDatabaseBytes pageSize journal sql) {event : ExecutionEvent F}
    {conditions : AppendConditions}
    (hconditions : conditions.Untroubled maxDatabaseBytes pageSize event)
    (hfree : (journal.appendStep event).2.CollisionFree) :
    (journal.appendStep event).1 = (sql.append event conditions).1 ∧
      Agrees F maxDatabaseBytes pageSize (journal.appendStep event).2
        (sql.append event conditions).2 := by
  have hopen : sql.checkOpen = .ok () := refuseIf_of_not (by simp [h.sql_open])
  cases hcontent : canonicalEvent journal.limits event with
  | error e =>
      have hsql : sql.append event conditions = (.error e, sql) := by
        rw [SQLiteJournal.append, SQLiteJournal.prepare, hopen, ok_bind, h.limits, hcontent,
          error_bind]
      have hjournal : journal.appendStep event = (.error e, journal) := by
        rw [InMemoryJournal.appendStep, InMemoryJournal.append, hcontent, error_bind]
      rw [hsql, hjournal]
      exact ⟨rfl, h⟩
  | ok content =>
      obtain ⟨hsame, hlength, decoded, hdecoded, hid, -⟩ :=
        InMemoryJournal.canonicalEvent_eq_ok_iff.mp hcontent
      have hchecked : CheckedContent journal.limits content := by
        refine ⟨?_, hlength⟩
        obtain ⟨hsize, hcontrol, hdecodedId⟩ := checkedEventId_eq_ok_iff.mp hid
        rw [hdecodedId] at hsize hcontrol
        exact checkedEventId_eq_ok_iff.mpr ⟨hsize, hcontrol, rfl⟩
      have hgrowth : conditions.sizeBefore + (content.2.length + 16 * sql.pageSize) ≤
          sql.maxDatabaseBytes.1 := by
        rw [hsame, h.pageSize, h.maxDatabaseBytes]
        exact hconditions.growth
      have hprepare : sql.prepare event = .ok (content, decoded) := by
        rw [SQLiteJournal.prepare, hopen, ok_bind, h.limits, hcontent, ok_bind, hdecoded, ok_bind,
          pure_eq_ok]
      have happend : journal.append event = journal.store content decoded := by
        rw [InMemoryJournal.append, hcontent, ok_bind, hdecoded, ok_bind]
      have hnext : ∀ next, journal.store content decoded = .ok (true, next) →
          next.CollisionFree := by
        intro next hnext
        rw [InMemoryJournal.appendStep, happend, hnext] at hfree
        exact hfree
      have htransaction := h.valid.transaction h.journal_open h.database h.limits
        hconditions.statements hconditions.commit hgrowth hchecked hnext
      have hvalid := h.valid.appendStep event
      rw [SQLiteJournal.append, hprepare]
      rw [InMemoryJournal.appendStep, happend] at hvalid ⊢
      simp only [htransaction]
      cases hstore : journal.store content decoded with
      | error e => exact ⟨rfl, h⟩
      | ok result =>
          obtain ⟨stored, next⟩ := result
          rw [hstore] at hvalid
          rcases InMemoryJournal.store_eq_ok hstore with ⟨rfl, rfl⟩ | ⟨rfl, rfl⟩
          · exact ⟨rfl, h⟩
          · have hcommitted : sql.checkCommitted conditions = .ok true := by
              rw [SQLiteJournal.checkCommitted, hconditions.sidecars, ok_bind,
                SQLiteJournal.checkDatabaseSize,
                refuseIf_of_not (not_lt.mpr (h.maxDatabaseBytes ▸ hconditions.size)), ok_bind,
                pure_eq_ok]
            exact ⟨hcommitted.symm, hvalid, rfl, h.limits, h.journal_open, h.sql_open,
              h.maxDatabaseBytes, h.pageSize⟩

/-! ## The reads -/

theorem recordsFromDatabase_databaseOf (h : journal.Valid F) :
    (databaseOf journal).recordsFromDatabase = .ok journal.records := by
  have hsorted : ((databaseOf journal).events.mergeSort fun a b => a.ordinal ≤ b.ordinal) =
      (databaseOf journal).events := by
    refine List.mergeSort_of_pairwise ?_
    rw [databaseOf, List.pairwise_map, h.eq_chainRecords]
    refine (pairwise_ordinal 0 genesisHash _).imp fun hlt => ?_
    exact decide_eq_true hlt.le
  have hrow : ∀ record ∈ journal.records,
      JournalDatabase.recordOfRow (rowOf record) = .ok record := by
    intro record hrecord
    have hgenesis : genesisHash.length = hashSize := by decide
    have hprevious : (rowOf record).previousHash.length = hashSize :=
      (length_of_mem_links hgenesis (h.chained hrecord).link).1
    have hhash : (rowOf record).eventHash.length = hashSize :=
      journal.eventHash_length record hrecord
    rw [JournalDatabase.recordOfRow, refuseIf_of_not (by simp [rowOf]), ok_bind,
      refuseIf_of_not (not_or.mpr ⟨not_not.mpr hprevious, not_not.mpr hhash⟩), ok_bind,
      pure_eq_ok]
    rfl
  have hrecords : journal.records.mapM (JournalDatabase.recordOfRow ∘ rowOf) =
      .ok (journal.records.map id) := mapM_eq_ok_map hrow
  rw [JournalDatabase.recordsFromDatabase, hsorted, databaseOf, List.mapM_map, hrecords,
    List.map_id]

theorem Agrees.verifiedSnapshot {maxDatabaseBytes pageSize : ℕ} {sql : SQLiteJournal}
    (h : Agrees F maxDatabaseBytes pageSize journal sql) :
    sql.verifiedSnapshot F =
      .ok (journal.records.map JournalRecord.payload, journal.head) := by
  rw [SQLiteJournal.verifiedSnapshot, h.database, readMetadata_databaseOf, ok_bind]
  show ((databaseOf journal).recordsFromDatabase >>= _) = _
  rw [recordsFromDatabase_databaseOf h.valid, ok_bind, h.limits, h.valid.verifiedRecords, ok_bind,
    pure_eq_ok]

/-- What two journals answer alike. -/
structure SameReads (F : Type) [PyFloat F] [FloatText F] (journal : InMemoryJournal)
    (sql : SQLiteJournal) : Prop where
  count : journal.count = sql.count
  headHash : journal.headHash = sql.headHash
  exportCanonical : journal.exportCanonical F = sql.exportCanonical F
  verify : ∃ head, journal.verify F = .ok head ∧ sql.verify F = .ok head

theorem Agrees.sameReads {maxDatabaseBytes pageSize : ℕ} {sql : SQLiteJournal}
    (h : Agrees F maxDatabaseBytes pageSize journal sql) : SameReads F journal sql := by
  have hopen : journal.checkOpen = .ok () := refuseIf_of_not (by simp [h.journal_open])
  have hsqlOpen : sql.checkOpen = .ok () := refuseIf_of_not (by simp [h.sql_open])
  refine ⟨?_, ?_, ?_, journal.head, h.valid.verify h.journal_open, ?_⟩
  · rw [InMemoryJournal.count, SQLiteJournal.count, hopen, hsqlOpen, h.database,
      readMetadata_databaseOf]
    rfl
  · rw [InMemoryJournal.headHash, SQLiteJournal.headHash, hopen, hsqlOpen, h.database,
      readMetadata_databaseOf]
    rfl
  · rw [h.valid.exportCanonical h.journal_open, SQLiteJournal.exportCanonical, hsqlOpen, ok_bind,
      h.verifiedSnapshot, ok_bind, pure_eq_ok]
  · rw [SQLiteJournal.verify, hsqlOpen, ok_bind, h.verifiedSnapshot, ok_bind, pure_eq_ok]

theorem agrees_of_create {maxEvents maxEventBytes maxTotalPayloadBytes maxEventIdBytes
    maxDatabaseBytes busyTimeoutMs : ℤ} {pageSize : ℕ} {sql : SQLiteJournal}
    (hjournal : InMemoryJournal.create maxEvents maxEventBytes maxTotalPayloadBytes
      maxEventIdBytes = .ok journal)
    (hsql : SQLiteJournal.create maxEvents maxEventBytes maxTotalPayloadBytes maxEventIdBytes
      maxDatabaseBytes busyTimeoutMs pageSize = .ok sql) :
    Agrees F sql.maxDatabaseBytes.1 sql.pageSize journal sql := by
  obtain ⟨hvalid, hempty, hopen⟩ := InMemoryJournal.valid_of_create (F := F) hjournal
  simp only [InMemoryJournal.create, bind_eq_ok_iff, pure_eq_ok, Except.ok.injEq] at hjournal
  simp only [SQLiteJournal.create, bind_eq_ok_iff, pure_eq_ok, Except.ok.injEq] at hsql
  obtain ⟨limits, hlimits, rfl⟩ := hjournal
  obtain ⟨limits', hlimits', maxDatabase, -, -, -, -, -, rfl⟩ := hsql
  rw [hlimits, Except.ok.injEq] at hlimits'
  exact ⟨hvalid, rfl, hlimits'.symm, rfl, rfl, rfl, rfl⟩

/-! ## Runs of appends -/

/-- A journal in memory and one in SQLite, opened empty with the same limits,
answer every sequence of appends alike, and after each of them hold the same and
verify. -/
theorem journals_agree {maxEvents maxEventBytes maxTotalPayloadBytes maxEventIdBytes
    maxDatabaseBytes busyTimeoutMs : ℤ} {pageSize : ℕ} {journal₀ : InMemoryJournal}
    {sql₀ : SQLiteJournal}
    (hjournal : InMemoryJournal.create maxEvents maxEventBytes maxTotalPayloadBytes
      maxEventIdBytes = .ok journal₀)
    (hsql : SQLiteJournal.create maxEvents maxEventBytes maxTotalPayloadBytes maxEventIdBytes
      maxDatabaseBytes busyTimeoutMs pageSize = .ok sql₀)
    (calls : List (ExecutionEvent F × AppendConditions))
    (hcalls : ∀ call ∈ calls,
      call.2.Untroubled sql₀.maxDatabaseBytes.1 sql₀.pageSize call.1)
    (hfree : (Machine.run InMemoryJournal.appendStep journal₀
      (calls.map Prod.fst)).2.CollisionFree)
    (done : List (ExecutionEvent F × AppendConditions)) (hdone : done <+: calls) :
    (Machine.run InMemoryJournal.appendStep journal₀ (done.map Prod.fst)).1 =
        (Machine.run (fun sql call => SQLiteJournal.append sql call.1 call.2) sql₀ done).1 ∧
      SameReads F (Machine.run InMemoryJournal.appendStep journal₀ (done.map Prod.fst)).2
        (Machine.run (fun sql call => SQLiteJournal.append sql call.1 call.2) sql₀ done).2 := by
  have hearlier : ∀ (journal : InMemoryJournal) (event : ExecutionEvent F),
      (journal.appendStep event).2.CollisionFree → journal.CollisionFree :=
    fun journal event hnext => ChainCollisionFree.of_prefix hnext
      ((journal.prefix_appendStep event).map _)
  obtain ⟨rest, rfl⟩ := hdone
  rw [List.map_append, Machine.run_append] at hfree
  have hrun := Machine.simulation_run (P := InMemoryJournal.CollisionFree) hearlier
    (fun journal sql call h hcall hnext => h.append hcall hnext)
    (agrees_of_create hjournal hsql) done
    (fun call hcall => hcalls call (List.mem_append_left rest hcall))
    (Machine.of_run hearlier hfree)
  exact ⟨hrun.1, hrun.2.sameReads⟩

end Queries

/-- A database for the two events of `twoEventJournal`. -/
def twoEventDatabase : SQLiteJournal where
  limits := twoEventJournal.limits
  maxDatabaseBytes := ⟨1048576, by decide⟩
  pageSize := 4096
  database := .initial
  closed := false

def calm : AppendConditions where
  statements := .ok ()
  sizeBefore := 40960
  commit := .ok ()
  sidecars := .ok ()
  sizeAfter := 49152

theorem calm_untroubled [PyRuntime] {F : Type} [PyFloat F] [FloatText F]
    (event : ExecutionEvent F) :
    calm.Untroubled twoEventDatabase.maxDatabaseBytes.1 twoEventDatabase.pageSize event := by
  have hsize := event.size_le
  refine ⟨rfl, ?_, rfl, rfl, by decide⟩
  simp only [maxCanonicalBytes] at hsize
  simp only [calm, twoEventDatabase]
  omega

open Platform in
/-- The stop of a run, stored in both journals. -/
theorem journals_agree_operatorHalt :
    (Machine.run InMemoryJournal.appendStep twoEventJournal [operatorHalt]).1 =
        (Machine.run (fun sql call => SQLiteJournal.append sql call.1 call.2) twoEventDatabase
          [(operatorHalt, calm)]).1 ∧
      SameReads ℚ (Machine.run InMemoryJournal.appendStep twoEventJournal [operatorHalt]).2
        (Machine.run (fun sql call => SQLiteJournal.append sql call.1 call.2) twoEventDatabase
          [(operatorHalt, calm)]).2 := by
  have hsql : SQLiteJournal.create 2 131072 262144 64 1048576 5000 4096 =
      .ok twoEventDatabase := rfl
  have hfree : (Machine.run InMemoryJournal.appendStep twoEventJournal
      [operatorHalt]).2.CollisionFree := by
    rw [Machine.run_cons, Machine.run_nil, InMemoryJournal.appendStep, append_operatorHalt]
    -- The content is a variable, so that nothing computes its digest.
    generalize (operatorHalt.eventId, operatorHalt.canonicalBytes) = content
    intro l hl m hm _
    have hlinks : HashChain.links chainHash genesisHash
        ((twoEventJournal.push content).records.map JournalRecord.content) =
          [(genesisHash, content)] := rfl
    rw [hlinks, List.mem_singleton] at hl hm
    rw [hl, hm]
  refine journals_agree create_twoEventJournal hsql [(operatorHalt, calm)] ?_ hfree
    [(operatorHalt, calm)] List.prefix_rfl
  intro call hcall
  rw [List.mem_singleton.mp hcall]
  exact calm_untroubled operatorHalt

end SignalFoundry
