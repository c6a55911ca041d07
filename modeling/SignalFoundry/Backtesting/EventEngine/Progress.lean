import SignalFoundry.Backtesting.EventEngine.Synced

/-!
# Every history is reached

An in-memory journal with enough room stores every event that the reducer of its
engine accepts. So each history of a configuration is the log of a reachable
engine, which commits its events one by one.
-/

namespace SignalFoundry

open EventSourcing Fallible

variable [PyRuntime] {F : Type} [PyFloat F] [FloatText F]

namespace InMemoryJournal

variable {journal : InMemoryJournal} {n : ℕ} {event : ExecutionEvent F}

/-- A journal with room for `n` more events of any size. -/
structure Roomy (journal : InMemoryJournal) (n : ℕ) : Prop where
  eventId : 64 ≤ journal.limits.maxEventIdBytes.1
  event : maxCanonicalBytes ≤ journal.limits.maxEventBytes.1
  count : journal.records.length + n ≤ journal.limits.maxEvents.1
  total : journal.totalPayloadBytes + n * maxCanonicalBytes ≤
    journal.limits.maxTotalPayloadBytes.1

omit [PyRuntime] in
theorem Roomy.push [PyRuntime] (h : journal.Roomy (n + 1)) {content : String × List UInt8}
    (hsize : content.2.length ≤ maxCanonicalBytes) : (journal.push content).Roomy n := by
  refine ⟨h.eventId, h.event, ?_, ?_⟩
  · have hcount := h.count
    show (journal.records ++ [_]).length + n ≤ journal.limits.maxEvents.1
    rw [List.length_append, List.length_singleton]
    omega
  · have htotal := h.total
    rw [Nat.add_mul] at htotal
    show journal.totalPayloadBytes + content.2.length + n * maxCanonicalBytes ≤
      journal.limits.maxTotalPayloadBytes.1
    omega

/-- An event after the stored ones is stored by a journal that has room. -/
theorem Valid.append_later [Json.LawfulFloatText F] (h : journal.Valid F)
    (hopen : journal.closed = false) (hroom : journal.Roomy (n + 1))
    (hfresh : ∀ stored ∈ journal.storedEvents F, stored.eventId ≠ event.eventId)
    (hlater : ∀ stored ∈ journal.storedEvents F, stored.orderKey < event.orderKey) :
    journal.append event = .ok (true, journal.push (event.eventId, event.canonicalBytes)) := by
  have hstored : ∀ record ∈ journal.records, ∃ stored ∈ journal.storedEvents F,
      record.eventId = stored.eventId ∧ record.payload = stored.canonicalBytes := by
    intro record hrecord
    have hcontent := List.mem_map_of_mem (f := JournalRecord.content) hrecord
    rw [← h.map_content, List.mem_map] at hcontent
    obtain ⟨stored, hmem, hsame⟩ := hcontent
    obtain ⟨hid, hpayload⟩ := Prod.mk.inj hsame
    exact ⟨stored, hmem, hid.symm, hpayload.symm⟩
  have hsize : event.canonicalBytes.length ≤ maxCanonicalBytes := event.size_le
  have hunknown : journal.existing? event.eventId = none := by
    refine h.existing?_eq_none_iff.mpr fun record hrecord hid => ?_
    obtain ⟨stored, hmem, hsame, -⟩ := hstored record hrecord
    exact hfresh stored hmem (hsame.symm.trans hid)
  have hcount : ¬ (journal.records.length ≥ journal.limits.maxEvents.1) := by
    have := hroom.count
    omega
  have hfits : ¬ (journal.totalPayloadBytes + event.canonicalBytes.length >
      journal.limits.maxTotalPayloadBytes.1) := by
    have htotal := hroom.total
    rw [Nat.add_mul] at htotal
    omega
  have hlast : journal.checkLast event = .ok () := by
    refine checkLast_eq_ok_iff.mpr fun last hmem => ?_
    obtain ⟨stored, hstoredMem, -, hpayload⟩ := hstored last (List.mem_of_getLast? hmem)
    exact ⟨stored, hpayload ▸ decodeEvent_canonicalBytes stored, hlater stored hstoredMem⟩
  have hbytes : event.canonicalBytes.length ≤ journal.limits.maxEventBytes.1 :=
    le_trans hsize hroom.event
  rw [append, canonicalEvent_of_le hroom.eventId hbytes, ok_bind,
    decodeEvent_canonicalBytes, ok_bind, store, checkOpen, refuseIf_of_not (by simp [hopen]),
    ok_bind]
  simp only [hunknown, refuseIf_of_not hcount, refuseIf_of_not hfits, hlast, ok_bind, pure_eq_ok]

end InMemoryJournal

variable [Json.LawfulFloatText F] {args : EngineArgs F} {log : List (ExecutionEvent F)}
  {engine : DeterministicEventEngine F InMemoryJournal}

/-- An engine that will commit `n` more events that its reducer accepts. -/
structure Ready (engine : DeterministicEventEngine F InMemoryJournal) (n : ℕ) : Prop where
  usable : engine.recoveryRequired = false
  isOpen : engine.journal.closed = false
  roomy : engine.journal.Roomy n

/-- A ready engine commits the next event of its history. -/
theorem Reachable.process_of_apply (h : Reachable (InMemoryJournal.Valid F) args engine log)
    {n : ℕ} (hready : Ready engine (n + 1)) {event : ExecutionEvent F} {next : Reducer F}
    (happly : Reducer.apply engine.config engine.reducer event = .ok (some next)) :
    ∃ following, (EngineCall.process event).run engine = ⟨[event], none, following⟩ ∧
      following.config = engine.config ∧ following.reducer = next ∧ Ready following n := by
  obtain ⟨ledger, -, -, -, hhistory⟩ := h.origin
  have hvalid : engine.journal.Valid F := h.synced.sound
  have hstored : engine.journal.storedEvents F = log := h.synced.usable hready.usable
  obtain ⟨transition, hplan, rfl⟩ := apply_eq_some_iff.mp happly
  obtain ⟨parent, haccepted⟩ := accepted_of_plan hplan
  have hfresh : ∀ stored ∈ engine.journal.storedEvents F, stored.eventId ≠ event.eventId := by
    intro stored hmem hsame
    rw [hstored] at hmem
    exact OrderedDict.get?_eq_none_iff.mp haccepted.fresh
      (hhistory.recorded.mem_fingerprints_iff.mpr ⟨stored, hmem, hsame⟩)
  have hlater : ∀ stored ∈ engine.journal.storedEvents F, stored.orderKey < event.orderKey := by
    rw [hstored]
    exact hhistory.recorded.earlier_of_cursor haccepted.later
  have happend := hvalid.append_later hready.isOpen hready.roomy hfresh hlater
  obtain ⟨journal, hjournal⟩ : ∃ journal, journal =
    engine.journal.push (event.eventId, event.canonicalBytes) := ⟨_, rfl⟩
  rw [← hjournal] at happend
  refine ⟨engine.publish journal event transition, ?_, rfl, rfl, hready.usable, ?_, ?_⟩
  · have hchecks : engine.config.requireEvent event = .ok () :=
      (requireEvent_eq_ok_iff (u := ())).mpr ⟨haccepted.runId, haccepted.inCalendar⟩
    have hstep : Journal.append engine.journal event = (.ok true, journal) := by
      show engine.journal.appendStep event = _
      rw [InMemoryJournal.appendStep, happend]
    have husable : engine.requireUsable = .ok () := requireUsable_eq_ok_iff.mpr hready.usable
    have hprocess : engine.process event = (.ok true, engine.publish journal event transition) := by
      simp only [DeterministicEventEngine.process, husable, ok_bind, hchecks,
        DeterministicEventEngine.processEvent, hplan, hstep]
    rw [EngineCall.run, hprocess]
  · show journal.closed = false
    rw [hjournal]
    exact hready.isOpen
  · show journal.Roomy n
    rw [hjournal]
    exact hready.roomy.push event.size_le

/-- A ready engine commits the events of its history one by one. -/
theorem Reachable.run_of_committed (h : Reachable (InMemoryJournal.Valid F) args engine log)
    {n : ℕ} {events : List (ExecutionEvent F)} {next : Reducer F}
    (hcommitted : Committed (Reducer.apply engine.config) engine.reducer events next)
    (hready : Ready engine (events.length + n)) :
    ∃ following, Machine.run EngineCall.step engine (events.map .process) =
        (events.map fun event => [event], following) ∧
      following.config = engine.config ∧ following.reducer = next ∧ Ready following n := by
  induction events generalizing engine log with
  | nil =>
      rw [List.length_nil, Nat.zero_add] at hready
      exact ⟨engine, rfl, rfl, (Committed.nil_iff.mp hcommitted).symm, hready⟩
  | cons event rest ih =>
      rw [List.length_cons, Nat.add_right_comm] at hready
      rw [← List.nil_append (event :: rest)] at hcommitted
      obtain ⟨before, after, hbefore, happly, hafter⟩ := hcommitted.split_at
      rw [Committed.nil_iff.mp hbefore] at happly
      obtain ⟨middle, hrun, hconfig, hreducer, hmiddle⟩ := h.process_of_apply hready happly
      have hcalled := h.called (.process event)
      rw [hrun] at hcalled
      rw [← hreducer, ← hconfig] at hafter
      obtain ⟨following, hrest, hsame, hnext, hlast⟩ := ih hcalled hafter hmiddle
      have hstep : EngineCall.step engine (.process event) = ([event], middle) := by
        rw [EngineCall.step, hrun]
      refine ⟨following, ?_, hsame.trans hconfig, hnext, hlast⟩
      rw [List.map_cons, Machine.run_cons, hstep, hrest, List.map_cons]

/-- Every history that fits into a journal is the log of a run of a new engine. -/
theorem exists_run_of_history {runId : String} {config : EngineConfig}
    {ledger : PortfolioLedger F} {ownedJournal : InMemoryJournal} {reducer : Reducer F}
    (hconfig : EngineConfig.create runId args = .ok config)
    (howned : InMemoryJournal.create config.maxEvents.1 defaultMaxEventBytes
      defaultMaxTotalPayloadBytes defaultMaxEventIdBytes = .ok ownedJournal)
    (hledger : PortfolioLedger.create args.initialCash = .ok ledger)
    (hhistory : History config ledger log reducer) {n : ℕ}
    (hroom : ownedJournal.Roomy (log.length + n)) :
    ∃ engine live : DeterministicEventEngine F InMemoryJournal,
      DeterministicEventEngine.create runId args (.owned id) = .ok engine ∧
        engine.journal.Valid F ∧
        Machine.run EngineCall.step engine (log.map .process) =
          (log.map fun event => [event], live) ∧
        live.config = config ∧ live.reducer = reducer ∧ Ready live n := by
  obtain ⟨hvalid, hempty, hopen⟩ := InMemoryJournal.valid_of_create (F := F) howned
  have hcount : ownedJournal.count = .ok 0 := by
    rw [InMemoryJournal.count, InMemoryJournal.checkOpen, refuseIf_of_not (by simp [hopen]),
      ok_bind, hempty]
    rfl
  have hcreate : DeterministicEventEngine.create runId args
      (JournalArgument.owned (J := InMemoryJournal) id) = _ :=
    create_of_parts hconfig howned hcount hledger
  have hstart : Reachable (InMemoryJournal.Valid F) args _ [] := .created hcreate hvalid
  obtain ⟨live, hrun, hsame, hreducer, hready⟩ :=
    hstart.run_of_committed hhistory ⟨rfl, hopen, hroom⟩
  exact ⟨_, live, hcreate, hvalid, hrun, hsame, hreducer, hready⟩

/-- Every history that fits into a journal is the log of a reachable engine. -/
theorem exists_reachable_of_history {runId : String} {config : EngineConfig}
    {ledger : PortfolioLedger F} {ownedJournal : InMemoryJournal} {reducer : Reducer F}
    (hconfig : EngineConfig.create runId args = .ok config)
    (howned : InMemoryJournal.create config.maxEvents.1 defaultMaxEventBytes
      defaultMaxTotalPayloadBytes defaultMaxEventIdBytes = .ok ownedJournal)
    (hledger : PortfolioLedger.create args.initialCash = .ok ledger)
    (hhistory : History config ledger log reducer) {n : ℕ}
    (hroom : ownedJournal.Roomy (log.length + n)) :
    ∃ live : DeterministicEventEngine F InMemoryJournal,
      Reachable (InMemoryJournal.Valid F) args live log ∧ live.config = config ∧
        live.reducer = reducer ∧ Ready live n := by
  obtain ⟨engine, live, hcreate, hvalid, hrun, hsame, hreducer, hready⟩ :=
    exists_run_of_history hconfig howned hledger hhistory hroom
  have hreachable := (Reachable.created hcreate hvalid).run (log.map EngineCall.process)
  rw [hrun, List.nil_append, ← List.flatMap_def, List.flatMap_singleton'] at hreachable
  exact ⟨live, hreachable, hsame, hreducer, hready⟩

end SignalFoundry
