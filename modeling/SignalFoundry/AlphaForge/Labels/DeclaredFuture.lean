import Mathlib.Tactic.Linarith
import Mathlib.Tactic.Ring
import SignalFoundry.AlphaForge.Labels.Reads

/-!
# The declared future of a label

Every label reads its symbol up to the end of its event, but a quantile label also ranks
the other symbols of its date, whose events may end later. It depends on no later close
exactly when their values cannot carry its rank into another quantile.
-/

namespace SignalFoundry.Labels

open Fallible

variable {K : Type} [Field K] [LinearOrder K]

/-! ## Accepted panels -/

section Panels

variable {panel : Panel K} {contract : LabelContract K}

/-- The checks of a panel that read no close. -/
structure Accepted (panel : Panel K) (contract : LabelContract K) : Prop where
  size : ¬(panel.rows.length = 0 ∨ maxPanelRows < panel.rows.length)
  symbols : ∀ row ∈ panel.rows, isSymbol row.symbol = true
  nodup : (panel.rows.map fun row => (row.date, row.symbol)).Nodup
  benchmark : contract.benchmarkSymbol ∈ panel.rows.map (·.symbol)
  history : ¬(datesOf panel.rows contract.benchmarkSymbol).length ≤ contract.maxHorizon
  calendars : ∀ symbol ∈ sortedSymbols (panel.rows.map (·.symbol)),
    checkSymbol contract.maxHorizon (datesOf panel.rows contract.benchmarkSymbol)
      (datesOf panel.rows symbol) symbol = .ok ()
  sides : ∀ definition ∈ contract.definitions,
    checkSide panel contract.benchmarkSymbol definition = .ok ()

/-- The sessions of a validated panel. -/
def panelSessions (panel : Panel K) : List (Session K) :=
  sortedBy (·.symbol) (sortedBy (·.date) (panel.rows.map PanelRow.session))

theorem validatePanel_eq_ok_iff {validated : List (Session K)} :
    validatePanel panel contract = .ok validated ↔ Accepted panel contract ∧
      (∀ row ∈ panel.rows, row.close.any (0 < ·) = true) ∧ panelSessions panel = validated := by
  simp only [validatePanel, bind_eq_ok_iff, refuseIf_eq_ok_iff, forM_eq_ok_iff, exists_const,
    not_not, Except.ok.injEq, panelSessions]
  constructor
  · rintro ⟨hsize, hsymbols, hnodup, hcloses, hbenchmark, hhistory, hcalendars, hsides, hvalidated⟩
    exact ⟨⟨hsize, hsymbols, hnodup, hbenchmark, hhistory, hcalendars, hsides⟩, hcloses, hvalidated⟩
  · rintro ⟨⟨hsize, hsymbols, hnodup, hbenchmark, hhistory, hcalendars, hsides⟩, hcloses,
      hvalidated⟩
    exact ⟨hsize, hsymbols, hnodup, hcloses, hbenchmark, hhistory, hcalendars, hsides, hvalidated⟩

/-- The sessions of the tradable symbols. -/
def tradable (panel : Panel K) (contract : LabelContract K) : List (Session K) :=
  (panelSessions panel).filter (·.symbol ≠ contract.benchmarkSymbol)

/-- The checks of a request on the number of its sessions. -/
structure Bounded (contract : LabelContract K) (sessions : ℕ) : Prop where
  tradable : sessions ≠ 0
  cells : ¬maxLabelCells < sessions * contract.definitions.length
  evaluations : ¬maxTripleBarrierEvaluations <
    sessions * tripleBarrierEvaluations contract.definitions

/-- What `build_label_set` returns, and when. -/
theorem buildLabelSet_eq_ok_iff {sqrt : K → K} {dataset : LabelDataset K} :
    buildLabelSet sqrt panel contract = .ok dataset ↔ Accepted panel contract ∧
      (∀ row ∈ panel.rows, row.close.any (0 < ·) = true) ∧
      Bounded contract (tradable panel contract).length ∧
      rejectBoundaryCrossings (eventTable (tradable panel contract) contract.definitions)
        contract.protectedBoundaries = .ok () ∧
      ⟨valueColumn sqrt (tradable panel contract),
        eventTable (tradable panel contract) contract.definitions⟩ = dataset := by
  simp only [buildLabelSet, bind_eq_ok_iff, validatePanel_eq_ok_iff, refuseIf_eq_ok_iff,
    exists_const, Except.ok.injEq]
  constructor
  · rintro ⟨validated, ⟨haccepted, hcloses, rfl⟩, htradable, hcells, hbudget, _, hreject, hdataset⟩
    exact ⟨haccepted, hcloses, ⟨htradable, hcells, hbudget⟩, hreject, hdataset⟩
  · rintro ⟨haccepted, hcloses, ⟨htradable, hcells, hbudget⟩, hreject, hdataset⟩
    exact ⟨_, ⟨haccepted, hcloses, rfl⟩, htradable, hcells, hbudget, (), hreject, hdataset⟩

theorem Accepted.distinct (h : Accepted panel contract) :
    DistinctSessions (tradable panel contract) := by
  have hrows : DistinctSessions (panel.rows.map PanelRow.session) := by
    rw [DistinctSessions, List.map_map]
    exact h.nodup
  have hperm : (panelSessions panel).Perm (panel.rows.map PanelRow.session) :=
    (perm_sortedBy _ _).trans (perm_sortedBy _ _)
  exact ((hperm.map _).nodup_iff.mpr hrows).sublist (List.filter_sublist.map _)

theorem mem_tradable {session : Session K} : session ∈ tradable panel contract ↔
    (∃ row ∈ panel.rows, row.session = session) ∧ session.symbol ≠ contract.benchmarkSymbol := by
  rw [tradable, panelSessions, List.mem_filter, mem_sortedBy, mem_sortedBy, List.mem_map,
    decide_eq_true_eq]

/-! ## Panels with other closes -/

/-- A row with another close. -/
def PanelRow.replaced (closes : ℤ → String → Option K) (row : PanelRow K) : PanelRow K :=
  { row with close := closes row.date row.symbol }

/-- A panel with other closes, on the same dates. -/
def Panel.replaceCloses (panel : Panel K) (closes : ℤ → String → Option K) : Panel K :=
  { panel with rows := panel.rows.map (PanelRow.replaced closes) }

omit [Field K] [LinearOrder K] in
theorem map_replaceCloses {β : Type} (f : PanelRow K → β) (closes : ℤ → String → Option K)
    (h : ∀ row, f (row.replaced closes) = f row) :
    (panel.replaceCloses closes).rows.map f = panel.rows.map f := by
  rw [Panel.replaceCloses, List.map_map]
  exact List.map_congr_left fun row _ => h row

omit [Field K] [LinearOrder K] in
theorem datesOf_replaceCloses (closes : ℤ → String → Option K) (symbol : String) :
    datesOf (panel.replaceCloses closes).rows symbol = datesOf panel.rows symbol := by
  rw [datesOf, datesOf, Panel.replaceCloses, List.filter_map, List.map_map]
  rfl

theorem checkSide_replaceCloses (closes : ℤ → String → Option K) (benchmark : String)
    (definition : LabelDefinition K) :
    checkSide (panel.replaceCloses closes) benchmark definition =
      checkSide panel benchmark definition := by
  rw [checkSide, checkSide]
  split
  · rename_i name _
    have hrows : (∀ row ∈ (panel.replaceCloses closes).rows, row.symbol ≠ benchmark →
        row.side name = some 1 ∨ row.side name = some (-1)) ↔ ∀ row ∈ panel.rows,
        row.symbol ≠ benchmark → row.side name = some 1 ∨ row.side name = some (-1) :=
      List.forall_mem_map
    rw [refuseIf_congr (not_congr hrows)]
    rfl
  · rfl

theorem Accepted.replaceCloses (h : Accepted panel contract) (closes : ℤ → String → Option K) :
    Accepted (panel.replaceCloses closes) contract where
  size := by
    rw [Panel.replaceCloses, List.length_map]
    exact h.size
  symbols := by
    intro row hrow
    obtain ⟨original, horiginal, rfl⟩ := List.mem_map.mp hrow
    exact h.symbols original horiginal
  nodup := by
    rw [map_replaceCloses _ closes fun _ => rfl]
    exact h.nodup
  benchmark := by
    rw [map_replaceCloses _ closes fun _ => rfl]
    exact h.benchmark
  history := by
    rw [datesOf_replaceCloses]
    exact h.history
  calendars := by
    intro symbol hsymbol
    rw [map_replaceCloses _ closes fun _ => rfl] at hsymbol
    rw [datesOf_replaceCloses, datesOf_replaceCloses]
    exact h.calendars symbol hsymbol
  sides := by
    intro definition hdefinition
    rw [checkSide_replaceCloses]
    exact h.sides definition hdefinition

theorem tradable_replaceCloses (closes : ℤ → String → Option K) :
    tradable (panel.replaceCloses closes) contract = (tradable panel contract).map
      (Session.replaced fun date symbol => (closes date symbol).getD 0) := by
  have hrows : (panel.replaceCloses closes).rows.map PanelRow.session =
      (panel.rows.map PanelRow.session).map
        (Session.replaced fun date symbol => (closes date symbol).getD 0) := by
    rw [Panel.replaceCloses, List.map_map, List.map_map]
    rfl
  rw [tradable, tradable, panelSessions, panelSessions, hrows, sortedBy_map _ fun _ => rfl,
    sortedBy_map _ fun _ => rfl, List.filter_map]
  rfl

theorem eventTable_replaced (closes : ℤ → String → K) (sessions : List (Session K))
    (definitions : List (LabelDefinition K)) :
    eventTable (sessions.map (Session.replaced closes)) definitions =
      eventTable sessions definitions := by
  have hsymbols : ((sessions.map (Session.replaced closes)).map (·.symbol)) =
      sessions.map (·.symbol) := by
    rw [List.map_map]
    rfl
  have hframe : ∀ symbol definition,
      eventFrame (groupOf (sessions.map (Session.replaced closes)) symbol) definition =
        eventFrame (groupOf sessions symbol) definition := by
    intro symbol definition
    rw [eventFrame, eventFrame]
    simp only [requiredEnd_replaced, observable_replaced]
    rw [groupOf_replaced, List.zipIdx_map, List.map_map]
    refine List.map_congr_left fun site _ => ?_
    simp only [Function.comp_apply, List.getElem?_map, Option.map_map]
    rfl
  rw [eventTable, eventTable, hsymbols]
  simp only [hframe]

theorem buildLabelSet_replaceCloses {sqrt : K → K} {dataset : LabelDataset K}
    (h : buildLabelSet sqrt panel contract = .ok dataset) {closes : ℤ → String → Option K}
    (hcloses : ∀ row ∈ panel.rows, (closes row.date row.symbol).any (0 < ·) = true) :
    buildLabelSet sqrt (panel.replaceCloses closes) contract =
      .ok ⟨valueColumn sqrt ((tradable panel contract).map
        (Session.replaced fun date symbol => (closes date symbol).getD 0)), dataset.events⟩ := by
  obtain ⟨haccepted, -, hbounded, hreject, rfl⟩ := buildLabelSet_eq_ok_iff.mp h
  rw [buildLabelSet_eq_ok_iff, tradable_replaceCloses, eventTable_replaced, List.length_map]
  refine ⟨haccepted.replaceCloses closes, fun row hrow => ?_, hbounded, hreject, rfl⟩
  obtain ⟨original, horiginal, rfl⟩ := List.mem_map.mp hrow
  exact hcloses original horiginal

end Panels

/-! ## The declared future -/

/-- The value of the first barrier that is touched after a session, up to an end. -/
def FirstTouch (sessions : List (Session K)) (symbol : String) (start last : ℤ)
    (upper lower value : K) : Prop :=
  ∃ now ∈ sessions, now.symbol = symbol ∧ now.date = start ∧
    let path := sessions.filter fun session =>
      session.symbol = symbol ∧ start < session.date ∧ session.date ≤ last
    let up := fun session : Session K => upper ≤ session.close / now.close - 1
    let down := fun session : Session K => session.close / now.close - 1 ≤ -lower
    (value = 0 ∧ ∀ session ∈ path, ¬up session ∧ ¬down session) ∨
      ∃ first ∈ path, (value = 1 ∧ up first ∨ value = -1 ∧ down first) ∧
        ∀ session ∈ path, session.date < first.date → ¬up session ∧ ¬down session

/-- An event of a definition at a value. -/
def IsEventOf (event : Event) (definition : LabelDefinition K) (cell : Cell K) : Prop :=
  event.label = definition.name ∧ event.symbol = cell.symbol ∧ event.date = cell.date

/-- Labels use exactly their declared future. -/
structure UsesDeclaredFuture (sqrt : K → K) (panel : Panel K) (contract : LabelContract K)
    (dataset : LabelDataset K) : Prop where
  observed : ∀ definition ∈ contract.definitions, ∀ cell ∈ dataset.values definition,
    cell.value.isSome → ∃ event ∈ dataset.events, IsEventOf event definition cell ∧
      event.observable = true ∧ event.requiredFutureEnd.isSome
  causal : ∀ definition ∈ contract.definitions, ∀ cell ∈ dataset.values definition,
    cell.value.isSome → ∀ event ∈ dataset.events, IsEventOf event definition cell →
    ∀ last, event.requiredFutureEnd = some last → ∀ closes replaced,
    (∀ row ∈ panel.rows, row.date ≤ last → closes row.date row.symbol = row.close) →
    buildLabelSet sqrt (panel.replaceCloses closes) contract = .ok replaced →
    cell ∈ replaced.values definition
  boundaries : ∀ event ∈ dataset.events, event.observable = true →
    ∀ boundary ∈ contract.protectedBoundaries, ∀ last, event.requiredFutureEnd = some last →
      ¬(event.date < boundary ∧ boundary ≤ last)
  disjoint : ∀ definition ∈ contract.definitions, definition.overlapPolicy = .nonOverlapping →
    ∀ event ∈ dataset.events, ∀ other ∈ dataset.events, event.label = definition.name →
    other.label = definition.name → event.symbol = other.symbol → event ≠ other →
    event.observable = true → other.observable = true →
    ∀ last last', event.requiredFutureEnd = some last → other.requiredFutureEnd = some last' →
    ∀ date, ¬((event.date < date ∧ date ≤ last) ∧ other.date < date ∧ date ≤ last')
  barriers : ∀ definition ∈ contract.definitions, ∀ upper lower,
    definition.kind = .tripleBarrier upper lower → ∀ cell ∈ dataset.values definition,
    ∀ value, cell.value = some value → ∀ event ∈ dataset.events, IsEventOf event definition cell →
    ∀ last, event.requiredFutureEnd = some last →
      FirstTouch (tradable panel contract) cell.symbol cell.date last upper lower value

section Proofs

variable {sqrt : K → K} {panel : Panel K} {contract : LabelContract K}

/-- The event of a value is the event of its site. -/
theorem eq_eventAt {definition : LabelDefinition K}
    (hdefinition : definition ∈ contract.definitions) {sessions : List (Session K)}
    (hdistinct : DistinctSessions sessions) {site : Session K × ℕ} (hsite : site ∈ sites sessions)
    {event : Event}
    (hevent : event ∈ eventTable sessions contract.definitions)
    (hlabel : event.label = definition.name) (hsymbol : event.symbol = site.1.symbol)
    (hdate : event.date = site.1.date) : event = eventAt sessions definition site := by
  obtain ⟨other, hother, site', hsite', rfl⟩ := mem_eventTable.mp hevent
  have hsame : other = definition :=
    List.inj_on_of_nodup_map contract.nodup_names hother hdefinition hlabel
  rw [hsame, sites_inj hdistinct hsite' hsite hdate hsymbol]

/-- Observable events of a symbol that do not overlap. -/
theorem disjoint_of_nonOverlapping {sessions : List (Session K)}
    (hdistinct : DistinctSessions sessions) {definition : LabelDefinition K}
    (hpolicy : definition.overlapPolicy = .nonOverlapping) {site other : Session K × ℕ}
    (hother : other ∈ sites sessions)
    (hsymbol : site.1.symbol = other.1.symbol) (hlt : site.2 < other.2)
    (hobservable : observable (groupOf sessions site.1.symbol) definition site.2 = true)
    (hobservable' : observable (groupOf sessions other.1.symbol) definition other.2 = true)
    {last : ℤ} (hlast : endAt sessions definition site = some last) : last ≤ other.1.date := by
  have hmultiple := (observable_iff.mp hobservable).2.resolve_left (by simp [hpolicy])
  have hmultiple' := (observable_iff.mp hobservable').2.resolve_left (by simp [hpolicy])
  have hstep : site.2 + definition.horizon ≤ other.2 := by
    obtain ⟨k, hk⟩ := Nat.dvd_of_mod_eq_zero hmultiple
    obtain ⟨k', hk'⟩ := Nat.dvd_of_mod_eq_zero hmultiple'
    rw [hk, hk'] at hlt ⊢
    have hk := Nat.lt_of_mul_lt_mul_left hlt
    calc definition.horizon * k + definition.horizon = definition.horizon * (k + 1) := by ring
      _ ≤ definition.horizon * k' := Nat.mul_le_mul_left _ hk
  obtain ⟨final, hfinal, rfl⟩ := endAt_eq_some_iff.mp hlast
  have hgroup := mem_sites.mp hother
  rw [← hsymbol] at hgroup
  exact (date_le_iff (pairwise_groupOf hdistinct site.1.symbol) hfinal hgroup).mpr hstep

/-- The first index of a predicate and the sessions before it. -/
theorem of_findIdx_lt {α : Type} {date : α → ℤ} {l : List α}
    (hsorted : l.Pairwise fun x y => date x < date y) {p q : α → Bool}
    (hlt : l.findIdx p < l.findIdx q) : ∃ first ∈ l, p first = true ∧
      ∀ a ∈ l, date a < date first → p a = false ∧ q a = false := by
  have hlength : l.findIdx p < l.length := hlt.trans_le List.findIdx_le_length
  refine ⟨l[l.findIdx p], List.getElem_mem hlength, List.findIdx_getElem, fun a ha hdate => ?_⟩
  obtain ⟨j, hj, rfl⟩ := List.mem_iff_getElem.mp ha
  have hbefore : j < l.findIdx p := (date_lt_iff hsorted (List.getElem?_eq_getElem hj)
    (List.getElem?_eq_getElem hlength)).mp hdate
  exact ⟨by simpa using List.not_of_lt_findIdx hbefore,
    by simpa using List.not_of_lt_findIdx (hbefore.trans hlt)⟩

/-- Two searches that stop at one index, of predicates that nothing satisfies both of. -/
theorem forall_not_of_findIdx_eq {α : Type} {l : List α} {p q : α → Bool}
    (heq : l.findIdx p = l.findIdx q) (hneither : ∀ a, ¬(p a = true ∧ q a = true)) :
    ∀ a ∈ l, p a = false ∧ q a = false := by
  have hlength : l.findIdx p = l.length := by
    by_contra hne
    have hp : l.findIdx p < l.length := lt_of_le_of_ne List.findIdx_le_length hne
    have hq : l.findIdx q < l.length := heq ▸ hp
    have hlast : q l[l.findIdx q] = true := List.findIdx_getElem
    simp only [← heq] at hlast
    exact hneither _ ⟨List.findIdx_getElem, hlast⟩
  intro a ha
  exact ⟨List.findIdx_eq_length.mp hlength a ha, List.findIdx_eq_length.mp (heq ▸ hlength) a ha⟩

/-- The path of an event, by position and by date. -/
theorem mem_path_iff {sessions : List (Session K)} (hdistinct : DistinctSessions sessions)
    {definition : LabelDefinition K} {site : Session K × ℕ} (hsite : site ∈ sites sessions)
    {last : ℤ} (hlast : endAt sessions definition site = some last) {session : Session K} :
    session ∈ sessions.filter (fun session => session.symbol = site.1.symbol ∧
        site.1.date < session.date ∧ session.date ≤ last) ↔
      session ∈ ((groupOf sessions site.1.symbol).drop (site.2 + 1)).take definition.horizon := by
  obtain ⟨final, hfinal, rfl⟩ := endAt_eq_some_iff.mp hlast
  have hsorted := pairwise_groupOf hdistinct site.1.symbol
  have hnow := mem_sites.mp hsite
  rw [List.mem_filter, decide_eq_true_eq]
  constructor
  · rintro ⟨hmem, hsymbol, hafter, hbefore⟩
    obtain ⟨i, hi⟩ := List.mem_iff_getElem?.mp (mem_groupOf.mpr ⟨hmem, hsymbol⟩)
    have hlower := (date_lt_iff hsorted hnow hi).mp hafter
    have hupper := (date_le_iff hsorted hi hfinal).mp hbefore
    refine List.mem_iff_getElem?.mpr ⟨i - (site.2 + 1), ?_⟩
    rw [List.getElem?_take_of_lt (by omega), List.getElem?_drop,
      show site.2 + 1 + (i - (site.2 + 1)) = i by omega]
    exact hi
  · intro hpath
    obtain ⟨i, hi⟩ := List.mem_iff_getElem?.mp hpath
    have hlt : i < definition.horizon := by
      by_contra hge
      rw [List.getElem?_take, if_neg hge] at hi
      cases hi
    rw [List.getElem?_take_of_lt hlt, List.getElem?_drop] at hi
    obtain ⟨hmem, hsymbol⟩ := mem_groupOf.mp (List.mem_of_getElem? hi)
    exact ⟨hmem, hsymbol, (date_lt_iff hsorted hnow hi).mpr (by omega),
      (date_le_iff hsorted hi hfinal).mpr (by omega)⟩

/-- A triple-barrier value is that of the first barrier touched. -/
theorem firstTouch_of_tripleBarrier [IsStrictOrderedRing K] {sessions : List (Session K)}
    (hdistinct : DistinctSessions sessions)
    {definition : LabelDefinition K} {upper lower value : K}
    (hkind : definition.kind = .tripleBarrier upper lower) {site : Session K × ℕ}
    (hsite : site ∈ sites sessions)
    (hvalue : tripleBarrier (groupOf sessions site.1.symbol) upper lower definition.horizon site.2 =
      some value) {last : ℤ} (hlast : endAt sessions definition site = some last) :
    FirstTouch sessions site.1.symbol site.1.date last upper lower value := by
  have hnow := mem_sites.mp hsite
  have hmem := (mem_groupOf.mp (List.mem_of_getElem? hnow)).1
  have hvalid := definition.kind_valid
  rw [hkind] at hvalid
  have hneither : ∀ r : K, ¬(upper ≤ r ∧ r ≤ -lower) := by
    rintro r ⟨hup, hdown⟩
    linarith [hvalid.1, hvalid.2]
  have hsorted : (((groupOf sessions site.1.symbol).drop (site.2 + 1)).take
      definition.horizon).Pairwise fun x y => x.date < y.date :=
    ((pairwise_groupOf hdistinct _).sublist (List.drop_sublist _ _)).sublist (List.take_sublist _ _)
  refine ⟨site.1, hmem, rfl, rfl, ?_⟩
  simp only [mem_path_iff hdistinct hsite hlast]
  rw [tripleBarrier] at hvalue
  split at hvalue
  · rw [closeAt, hnow] at hvalue
    simp only [Option.map_some, Option.some.injEq, List.findIdx_map] at hvalue
    split_ifs at hvalue with hup hdown
    · obtain ⟨first, hfirst, htouch, hbefore⟩ := of_findIdx_lt hsorted hup
      refine .inr ⟨first, hfirst, .inl ⟨hvalue.symm, of_decide_eq_true htouch⟩, ?_⟩
      intro session hsession hdate
      obtain ⟨hnotup, hnotdown⟩ := hbefore session hsession hdate
      exact ⟨of_decide_eq_false hnotup, of_decide_eq_false hnotdown⟩
    · obtain ⟨first, hfirst, htouch, hbefore⟩ := of_findIdx_lt hsorted hdown
      refine .inr ⟨first, hfirst, .inr ⟨hvalue.symm, of_decide_eq_true htouch⟩, ?_⟩
      intro session hsession hdate
      obtain ⟨hnotdown, hnotup⟩ := hbefore session hsession hdate
      exact ⟨of_decide_eq_false hnotup, of_decide_eq_false hnotdown⟩
    · -- both searches stop at one index, which cannot touch both barriers
      refine .inl ⟨hvalue.symm, fun session hsession => ?_⟩
      obtain ⟨hnotup, hnotdown⟩ := forall_not_of_findIdx_eq
        (le_antisymm (not_lt.mp hdown) (not_lt.mp hup))
        (fun later hboth => hneither _ ⟨of_decide_eq_true hboth.1, of_decide_eq_true hboth.2⟩)
        session hsession
      exact ⟨of_decide_eq_false hnotup, of_decide_eq_false hnotdown⟩
  · cases hvalue

/-- No event crosses a boundary that a label set has passed. -/
theorem not_crosses {events : List Event} {boundaries : List ℤ}
    (h : rejectBoundaryCrossings events boundaries = .ok ()) {event : Event}
    (hevent : event ∈ events) {boundary : ℤ} (hboundary : boundary ∈ boundaries) :
    event.crosses boundary = false := by
  have hpassed := forM_eq_ok_iff.mp h boundary hboundary
  split at hpassed
  · rename_i hnone
    exact Bool.eq_false_of_not_eq_true (List.find?_eq_none.mp hnone event hevent)
  · cases hpassed

/-! ## Closes that move every later value -/

/-- The close of a row. -/
def panelClose (panel : Panel K) (date : ℤ) (symbol : String) : Option K :=
  (panel.rows.find? fun row => row.date = date ∧ row.symbol = symbol).bind (·.close)

omit [Field K] [LinearOrder K] in
theorem panelClose_eq (hnodup : (panel.rows.map fun row => (row.date, row.symbol)).Nodup)
    {row : PanelRow K} (hrow : row ∈ panel.rows) :
    panelClose panel row.date row.symbol = row.close := by
  rw [panelClose]
  cases hfind : panel.rows.find? fun other => other.date = row.date ∧ other.symbol = row.symbol with
  | none => exact absurd (by simp) (List.find?_eq_none.mp hfind row hrow)
  | some other =>
      have hkey := List.find?_some hfind
      rw [decide_eq_true_eq] at hkey
      rw [List.inj_on_of_nodup_map hnodup (List.mem_of_find?_eq_some hfind) hrow
        (Prod.ext hkey.1 hkey.2)]
      rfl

theorem exists_pos_of_any {close : Option K} (h : close.any (0 < ·) = true) :
    ∃ value, close = some value ∧ 0 < value := by
  cases close with
  | none => cases h
  | some value => exact ⟨value, rfl, of_decide_eq_true h⟩

/-- Closes up to a date, and after it every close at a level of that of an earlier date. -/
def movedCloses (panel : Panel K) (start last : ℤ) (level : K) : ℤ → String → Option K :=
  fun date symbol =>
    if date ≤ last then panelClose panel date symbol
    else some (level * (panelClose panel start symbol).getD 1)

/-- The moved closes of the sessions. -/
def movedTo (panel : Panel K) (start last : ℤ) (level : K) : ℤ → String → K :=
  fun date symbol => (movedCloses panel start last level date symbol).getD 0

variable (haccepted : Accepted panel contract)
  (hpositive : ∀ row ∈ panel.rows, row.close.any (0 < ·) = true) (start last : ℤ) (level : K)

include hpositive

theorem panelClose_pos (date : ℤ) (symbol : String) :
    panelClose panel date symbol = none ∨ ∃ close, panelClose panel date symbol = some close ∧
      0 < close := by
  rw [panelClose]
  cases hfind : panel.rows.find? fun row => row.date = date ∧ row.symbol = symbol with
  | none => exact .inl rfl
  | some row =>
      exact .inr (exists_pos_of_any (hpositive row (List.mem_of_find?_eq_some hfind)))

include haccepted

theorem movedCloses_pos [IsStrictOrderedRing K] (hlevel : 0 < level) :
    ∀ row ∈ panel.rows,
      (movedCloses panel start last level row.date row.symbol).any (0 < ·) = true := by
  intro row hrow
  rw [movedCloses]
  split
  · rw [panelClose_eq haccepted.nodup hrow]
    exact hpositive row hrow
  · rw [Option.any_some, decide_eq_true_eq]
    rcases panelClose_pos hpositive start row.symbol with hnone | ⟨close, hclose, hpos⟩
    · rw [hnone, Option.getD_none, mul_one]
      exact hlevel
    · rw [hclose, Option.getD_some]
      exact mul_pos hlevel hpos

omit hpositive in
theorem movedCloses_of_le : ∀ row ∈ panel.rows, row.date ≤ last →
    movedCloses panel start last level row.date row.symbol = row.close := by
  intro row hrow hle
  rw [movedCloses, if_pos hle, panelClose_eq haccepted.nodup hrow]

omit hpositive in
theorem movedCloses_session : ∀ session ∈ tradable panel contract, session.date ≤ last →
    movedTo panel start last level session.date session.symbol = session.close := by
  intro session hsession hle
  obtain ⟨⟨row, hrow, rfl⟩, -⟩ := mem_tradable.mp hsession
  exact congrArg (Option.getD · 0) (movedCloses_of_le haccepted start last level row hrow hle)

/-- A close of a tradable session is positive, and the close of its row. -/
theorem close_pos {session : Session K} (h : session ∈ tradable panel contract) :
    0 < session.close ∧ panelClose panel session.date session.symbol = some session.close := by
  obtain ⟨⟨row, hrow, rfl⟩, -⟩ := mem_tradable.mp h
  obtain ⟨close, hclose, hpos⟩ := exists_pos_of_any (hpositive row hrow)
  have hsession : row.session.close = close := by rw [PanelRow.session, hclose, Option.getD_some]
  rw [hsession]
  exact ⟨hpos, (panelClose_eq haccepted.nodup hrow).trans hclose⟩

/-- A value whose event ends later is moved to the level. -/
theorem cellAt_moved {definition : LabelDefinition K} {quantiles : ℕ}
    (hkind : definition.kind = .quantile quantiles) (hstart : start ≤ last)
    {site : Session K × ℕ} (hsite : site ∈ sites (tradable panel contract))
    (hdate : site.1.date = start)
    (hlater : endsAfter (tradable panel contract) definition last site = true)
    (hsome : (cellAt sqrt (tradable panel contract) definition site).value.isSome) :
    (cellAt sqrt ((tradable panel contract).map (Session.replaced (movedTo panel start last level)))
        definition (replacedSite (movedTo panel start last level) site)).value =
      some (level - 1) := by
  have hobservable := (isSome_cellAt_iff sqrt definition hkind hsite).mp hsome
  rw [← observable_replaced _ (movedTo panel start last level)] at hobservable
  have hnow := mem_sites.mp hsite
  obtain ⟨hmem, -⟩ := mem_groupOf.mp (List.mem_of_getElem? hnow)
  obtain ⟨hpos, hclose⟩ := close_pos haccepted hpositive hmem
  cases hend : endAt (tradable panel contract) definition site with
  | none => simp [endsAfter, hend] at hlater
  | some final =>
      rw [endsAfter, hend, Option.any_some, decide_eq_true_eq] at hlater
      obtain ⟨finalSession, hfinal, hfinalDate⟩ := endAt_eq_some_iff.mp hend
      have hfinalSymbol := (mem_groupOf.mp (List.mem_of_getElem? hfinal)).2
      have hnowClose : movedTo panel start last level site.1.date site.1.symbol = site.1.close :=
        movedCloses_session haccepted start last level site.1 hmem (hdate ▸ hstart)
      have hfinalClose : movedTo panel start last level finalSession.date finalSession.symbol =
          level * site.1.close := by
        rw [movedTo, movedCloses, if_neg (by rw [hfinalDate]; exact hlater.not_ge), hfinalSymbol,
          ← hdate, hclose]
        rfl
      have hreturn : futureReturn (groupOf ((tradable panel contract).map
          (Session.replaced (movedTo panel start last level))) site.1.symbol) definition.horizon
          site.2 = some (level - 1) := by
        rw [groupOf_replaced, futureReturn, closeAt, closeAt, List.getElem?_map, List.getElem?_map,
          hnow, hfinal]
        simp only [Option.map_some, Session.replaced, hnowClose, hfinalClose, Option.bind_eq_bind,
          Option.bind_some]
        rw [mul_div_cancel_right₀ _ hpos.ne']
      refine (cellAt_value sqrt definition hobservable).trans ?_
      rw [definitionValue, hkind]
      exact hreturn

/-- A forward return is above minus one. -/
theorem forward_pos [IsStrictOrderedRing K] {definition : LabelDefinition K} {quantiles : ℕ}
    (hkind : definition.kind = .quantile quantiles) {site : Session K × ℕ} {r : K}
    (hvalue : (cellAt sqrt (tradable panel contract) definition site).value = some r) :
    0 < 1 + r := by
  have hsome := (observable_of_cellAt (Option.isSome_iff_exists.mpr ⟨r, hvalue⟩)).1
  rw [cellAt_value sqrt definition hsome, definitionValue, hkind] at hvalue
  obtain ⟨now, hnow, hvalue⟩ := Option.bind_eq_some_iff.mp hvalue
  obtain ⟨later, hlater, hvalue⟩ := Option.bind_eq_some_iff.mp hvalue
  obtain ⟨session, hsession, rfl⟩ := closeAt_eq_some_iff.mp hnow
  obtain ⟨final, hfinal, rfl⟩ := closeAt_eq_some_iff.mp hlater
  have hpos := (close_pos haccepted hpositive (mem_groupOf.mp (List.mem_of_getElem? hsession)).1).1
  have hpos' := (close_pos haccepted hpositive (mem_groupOf.mp (List.mem_of_getElem? hfinal)).1).1
  rw [← Option.some.inj hvalue, add_sub_cancel]
  exact div_pos hpos' hpos

end Proofs

section Main

variable [IsStrictOrderedRing K] {sqrt : K → K} {panel : Panel K} {contract : LabelContract K}
  {dataset : LabelDataset K}

/-- A causal label keeps its bucket when every later value is moved to a level. -/
theorem bucket_eq_of_causal (hbuild : buildLabelSet sqrt panel contract = .ok dataset)
    (huses : UsesDeclaredFuture sqrt panel contract dataset) {definition : LabelDefinition K}
    (hdefinition : definition ∈ contract.definitions) {quantiles : ℕ}
    (hkind : definition.kind = .quantile quantiles) {site : Session K × ℕ}
    (hsite : site ∈ sites (tradable panel contract)) {last : ℤ}
    (hend : endAt (tradable panel contract) definition site = some last)
    (hsome : (cellAt sqrt (tradable panel contract) definition site).value.isSome)
    (hcount : quantiles ≤ countOn sqrt definition (tradable panel contract) site.1.date)
    {level : K} (hlevel : 0 < level) :
    bucket quantiles (countOn sqrt definition (tradable panel contract) site.1.date)
        (knownRank sqrt definition (tradable panel contract) site last +
          (peers (tradable panel contract) site.1.date).countP fun other =>
            endsAfter (tradable panel contract) definition last other &&
              (cellAt sqrt (tradable panel contract) definition site).ranksUpTo
                (cellAt sqrt ((tradable panel contract).map
                  (Session.replaced (movedTo panel site.1.date last level))) definition
                  (replacedSite (movedTo panel site.1.date last level) other))) =
      bucket quantiles (countOn sqrt definition (tradable panel contract) site.1.date)
        ((peers (tradable panel contract) site.1.date).countP fun other =>
          (cellAt sqrt (tradable panel contract) definition site).ranksUpTo
            (cellAt sqrt (tradable panel contract) definition other)) := by
  obtain ⟨haccepted, hpositive, -, -, rfl⟩ := buildLabelSet_eq_ok_iff.mp hbuild
  have hdistinct := haccepted.distinct
  have hreplaced : buildLabelSet sqrt (panel.replaceCloses
      (movedCloses panel site.1.date last level)) contract = .ok ⟨valueColumn sqrt
        ((tradable panel contract).map (Session.replaced (movedTo panel site.1.date last level))),
        eventTable (tradable panel contract) contract.definitions⟩ :=
    buildLabelSet_replaceCloses hbuild
      (movedCloses_pos haccepted hpositive site.1.date last level hlevel)
  have hcell : labelAt sqrt (tradable panel contract) definition site ∈
      valueColumn sqrt (tradable panel contract) definition :=
    mem_valueColumn.mpr ⟨site, hsite, rfl⟩
  have hkey := labelAt_key (tradable panel contract) sqrt definition site
  have hlabel := labelAt_quantile (tradable panel contract) sqrt hkind site
  rw [if_neg (not_lt.mpr hcount)] at hlabel
  have hlabelSome : (labelAt sqrt (tradable panel contract) definition site).value.isSome := by
    rw [hlabel, Option.isSome_map]
    exact hsome
  have hmem := huses.causal definition hdefinition _ hcell hlabelSome
    (eventAt (tradable panel contract) definition site)
    (mem_eventTable.mpr ⟨definition, hdefinition, site, hsite, rfl⟩) ⟨rfl, hkey.2.symm, hkey.1.symm⟩
    last hend _ _ (movedCloses_of_le haccepted site.1.date last level) hreplaced
  obtain ⟨other, hother, heq⟩ := mem_valueColumn.mp hmem
  obtain rfl : other = replacedSite (movedTo panel site.1.date last level) site := by
    have hkey' := labelAt_key ((tradable panel contract).map
      (Session.replaced (movedTo panel site.1.date last level))) sqrt definition other
    rw [← heq] at hkey'
    exact sites_inj (hdistinct.replaced _) hother (replacedSite_mem hsite)
      (hkey'.1.symm.trans hkey.1) (hkey'.2.symm.trans hkey.2)
  have hvalue := congrArg Cell.value heq
  have hcloses := movedCloses_session haccepted site.1.date last level
  have hdate : (replacedSite (movedTo panel site.1.date last level) site).1.date = site.1.date :=
    rfl
  rw [hlabel, labelAt_quantile _ sqrt hkind, hdate, countOn_replaced sqrt hkind,
    if_neg (not_lt.mpr hcount), rank_replaced hdistinct hend hcloses sqrt,
    cellAt_replaced hdistinct hcloses hend le_rfl] at hvalue
  obtain ⟨r, hr⟩ := Option.isSome_iff_exists.mp hsome
  rw [hr, Option.map_some, Option.map_some, Option.some.injEq, Nat.cast_inj] at hvalue
  exact hvalue.symm

omit [Field K] [IsStrictOrderedRing K] in
theorem ranksUpTo_eq_decide {cell other : Cell K} {r w : K} (hcell : cell.value = some r)
    (hother : other.value = some w) :
    cell.ranksUpTo other = decide (w < r ∨ w = r ∧ other.symbol ≤ cell.symbol) := by
  rw [Cell.ranksUpTo, hcell, hother, Bool.decide_or, Bool.decide_and]

/-- If no label depends on a later close, the ranks of every quantile definition are settled. -/
theorem ranksSettled_of_causal (hbuild : buildLabelSet sqrt panel contract = .ok dataset)
    (huses : UsesDeclaredFuture sqrt panel contract dataset) {definition : LabelDefinition K}
    (hdefinition : definition ∈ contract.definitions) {quantiles : ℕ}
    (hkind : definition.kind = .quantile quantiles) :
    RanksSettled sqrt definition quantiles (tradable panel contract) := by
  intro site hsite last hend hsome hcount
  obtain ⟨haccepted, hpositive, -, -, -⟩ := buildLabelSet_eq_ok_iff.mp hbuild
  obtain ⟨r, hr⟩ := Option.isSome_iff_exists.mp hsome
  have hforward : 0 < 1 + r := forward_pos haccepted hpositive hkind hr
  have hstart : site.1.date ≤ last := by
    obtain ⟨final, hfinal, rfl⟩ := endAt_eq_some_iff.mp hend
    exact (date_le_iff (pairwise_groupOf haccepted.distinct _) (mem_sites.mp hsite) hfinal).mpr
      (Nat.le_add_right _ _)
  have hmoved : ∀ level : K, ∀ other ∈ peers (tradable panel contract) site.1.date,
      endsAfter (tradable panel contract) definition last other = true →
      (cellAt sqrt (tradable panel contract) definition other).value.isSome →
      (cellAt sqrt (tradable panel contract) definition site).ranksUpTo
        (cellAt sqrt ((tradable panel contract).map
          (Session.replaced (movedTo panel site.1.date last level))) definition
          (replacedSite (movedTo panel site.1.date last level) other)) =
        decide (level - 1 < r ∨ level - 1 = r ∧ other.1.symbol ≤ site.1.symbol) := by
    intro level other hother hlater hvalue
    obtain ⟨hmem, hdate⟩ := mem_sites_of_mem_peers hother
    exact ranksUpTo_eq_decide hr
      (cellAt_moved haccepted hpositive site.1.date last level hkind hstart hmem hdate hlater
        hvalue)
  have hhigh := bucket_eq_of_causal hbuild huses hdefinition hkind hsite hend hsome hcount
    (mul_pos two_pos hforward)
  have hlow := bucket_eq_of_causal hbuild huses hdefinition hkind hsite hend hsome hcount
    (half_pos hforward)
  have hnone : (peers (tradable panel contract) site.1.date).countP (fun other =>
      endsAfter (tradable panel contract) definition last other &&
        (cellAt sqrt (tradable panel contract) definition site).ranksUpTo
          (cellAt sqrt ((tradable panel contract).map
            (Session.replaced (movedTo panel site.1.date last (2 * (1 + r))))) definition
            (replacedSite (movedTo panel site.1.date last (2 * (1 + r))) other))) = 0 := by
    refine List.countP_eq_zero.mpr fun other hother hranks => ?_
    rw [Bool.and_eq_true] at hranks
    have hvalue := isSome_of_ranksUpTo hranks.2
    rw [isSome_cellAt_replaced sqrt hkind _ (mem_sites_of_mem_peers hother).1] at hvalue
    have hlevel := hranks.2
    rw [hmoved _ other hother hranks.1 hvalue, decide_eq_true_eq] at hlevel
    rcases hlevel with hlt | ⟨heq, -⟩
    · linarith
    · linarith
  have hall : (peers (tradable panel contract) site.1.date).countP (fun other =>
      endsAfter (tradable panel contract) definition last other &&
        (cellAt sqrt (tradable panel contract) definition site).ranksUpTo
          (cellAt sqrt ((tradable panel contract).map
            (Session.replaced (movedTo panel site.1.date last ((1 + r) / 2)))) definition
            (replacedSite (movedTo panel site.1.date last ((1 + r) / 2)) other))) =
      laterCount sqrt definition (tradable panel contract) site.1.date last := by
    rw [laterCount]
    refine List.countP_congr fun other hother => ?_
    rw [Bool.and_eq_true, Bool.and_eq_true]
    refine and_congr_right fun hlater => ⟨fun hranks => ?_, fun hvalue => ?_⟩
    · have hvalue := isSome_of_ranksUpTo hranks
      rwa [isSome_cellAt_replaced sqrt hkind _ (mem_sites_of_mem_peers hother).1] at hvalue
    · rw [hmoved _ other hother hlater hvalue, decide_eq_true_eq]
      exact .inl (by linarith)
  rw [hnone, Nat.add_zero] at hhigh
  rw [hall] at hlow
  exact hhigh.trans hlow.symm

omit [IsStrictOrderedRing K] in
/-- A label of settled ranks depends on no close after its event. -/
theorem causal_of_ranksSettled (hbuild : buildLabelSet sqrt panel contract = .ok dataset)
    {definition : LabelDefinition K} (hdefinition : definition ∈ contract.definitions)
    (hsettled : ∀ quantiles, definition.kind = .quantile quantiles →
      RanksSettled sqrt definition quantiles (tradable panel contract))
    {cell : Cell K} (hcell : cell ∈ dataset.values definition) (hsome : cell.value.isSome)
    {event : Event} (hevent : event ∈ dataset.events) (hof : IsEventOf event definition cell)
    {last : ℤ} (hlast : event.requiredFutureEnd = some last) {closes : ℤ → String → Option K}
    (hcloses : ∀ row ∈ panel.rows, row.date ≤ last → closes row.date row.symbol = row.close)
    {replaced : LabelDataset K}
    (hreplaced : buildLabelSet sqrt (panel.replaceCloses closes) contract = .ok replaced) :
    cell ∈ replaced.values definition := by
  obtain ⟨haccepted, -, -, -, rfl⟩ := buildLabelSet_eq_ok_iff.mp hbuild
  obtain ⟨-, -, -, -, rfl⟩ := buildLabelSet_eq_ok_iff.mp hreplaced
  obtain ⟨site, hsite, rfl⟩ := mem_valueColumn.mp hcell
  obtain ⟨hdate, hsymbol⟩ := labelAt_key (tradable panel contract) sqrt definition site
  have heq := eq_eventAt hdefinition haccepted.distinct hsite hevent hof.1 (hof.2.1.trans hsymbol)
    (hof.2.2.trans hdate)
  rw [heq] at hlast
  have hsessions : ∀ session ∈ tradable panel contract, session.date ≤ last →
      (closes session.date session.symbol).getD 0 = session.close := by
    intro session hsession hle
    obtain ⟨⟨row, hrow, rfl⟩, -⟩ := mem_tradable.mp hsession
    exact congrArg (Option.getD · 0) (hcloses row hrow hle)
  rw [tradable_replaceCloses]
  exact mem_valueColumn.mpr ⟨_, replacedSite_mem hsite,
    (labelAt_replaced sqrt haccepted.distinct hlast hsessions hsettled hsite hsome).symm⟩

omit [IsStrictOrderedRing K] in
/-- Observable events of one symbol and one label are disjoint under `non_overlapping`. -/
theorem disjoint_events (hdistinct : DistinctSessions (tradable panel contract))
    {definition : LabelDefinition K} (hdefinition : definition ∈ contract.definitions)
    (hpolicy : definition.overlapPolicy = .nonOverlapping) {event other : Event}
    (hevent : event ∈ eventTable (tradable panel contract) contract.definitions)
    (hother : other ∈ eventTable (tradable panel contract) contract.definitions)
    (hlabel : event.label = definition.name) (hlabel' : other.label = definition.name)
    (hsymbol : event.symbol = other.symbol) (hne : event ≠ other)
    (hobservable : event.observable = true) (hobservable' : other.observable = true)
    {last last' : ℤ} (hlast : event.requiredFutureEnd = some last)
    (hlast' : other.requiredFutureEnd = some last') (date : ℤ) :
    ¬((event.date < date ∧ date ≤ last) ∧ other.date < date ∧ date ≤ last') := by
  obtain ⟨_, _, site, hsite, rfl⟩ := mem_eventTable.mp hevent
  obtain ⟨_, _, site', hsite', rfl⟩ := mem_eventTable.mp hother
  have heq := eq_eventAt hdefinition hdistinct hsite hevent hlabel rfl rfl
  have heq' := eq_eventAt hdefinition hdistinct hsite' hother hlabel' rfl rfl
  rw [heq] at hne hobservable hlast hsymbol ⊢
  rw [heq'] at hne hobservable' hlast' hsymbol ⊢
  have hsame : site.1.symbol = site'.1.symbol := hsymbol
  rintro ⟨⟨hstart, hend⟩, hstart', hend'⟩
  rcases lt_trichotomy site.2 site'.2 with hlt | hposition | hgt
  · exact absurd (hend.trans (disjoint_of_nonOverlapping hdistinct hpolicy hsite' hsame hlt
      hobservable hobservable' hlast)) hstart'.not_ge
  · have hgroup := mem_sites.mp hsite
    have hgroup' := mem_sites.mp hsite'
    rw [← hsame, ← hposition, hgroup] at hgroup'
    exact hne (congrArg _ (Prod.ext (Option.some.inj hgroup') hposition))
  · exact absurd (hend'.trans (disjoint_of_nonOverlapping hdistinct hpolicy hsite hsame.symm hgt
      hobservable' hobservable hlast')) hstart.not_ge

/-- A triple-barrier label is that of the first barrier touched up to the end of its event. -/
theorem firstTouch_of_mem (hdistinct : DistinctSessions (tradable panel contract))
    {definition : LabelDefinition K} (hdefinition : definition ∈ contract.definitions)
    {upper lower : K} (hkind : definition.kind = .tripleBarrier upper lower) {cell : Cell K}
    (hcell : cell ∈ valueColumn sqrt (tradable panel contract) definition) {value : K}
    (hvalue : cell.value = some value) {event : Event}
    (hevent : event ∈ eventTable (tradable panel contract) contract.definitions)
    (hof : IsEventOf event definition cell) {last : ℤ}
    (hlast : event.requiredFutureEnd = some last) :
    FirstTouch (tradable panel contract) cell.symbol cell.date last upper lower value := by
  obtain ⟨site, hsite, rfl⟩ := mem_valueColumn.mp hcell
  have hlabel : labelAt sqrt (tradable panel contract) definition site =
      cellAt sqrt (tradable panel contract) definition site := by
    rw [labelAt, hkind]
  rw [hlabel] at hvalue hof ⊢
  have heq := eq_eventAt hdefinition hdistinct hsite hevent hof.1 hof.2.1 hof.2.2
  rw [heq] at hlast
  rw [cellAt_value sqrt definition (observable_of_cellAt
    (Option.isSome_iff_exists.mpr ⟨value, hvalue⟩)).1, definitionValue, hkind] at hvalue
  exact firstTouch_of_tripleBarrier hdistinct hkind hsite hvalue hlast

end Main

/-! ## A symbol with more sessions -/

/-- A square root that is exact on the squares of rationals. -/
def rationalSqrt (x : ℚ) : ℚ := (Nat.sqrt x.num.toNat : ℚ) / (Nat.sqrt x.den : ℚ)

def denseDefinition : LabelDefinition ℚ where
  name := "rank"
  kind := .quantile 2
  horizon := 1
  overlapPolicy := .allow
  name_valid := by decide +kernel
  kind_valid := ⟨by decide, by decide⟩
  horizon_mem := by decide

def denseContract : LabelContract ℚ where
  benchmarkSymbol := "SPY"
  definitions := [denseDefinition]
  protectedBoundaries := []
  benchmark_valid := by decide
  length_definitions := by decide
  nodup_names := by decide
  names_ne_keys := by decide
  sorted_boundaries := by decide

def pricedRow (date : ℤ) (symbol : String) (close : ℚ) : PanelRow ℚ :=
  ⟨date, symbol, some close, fun _ => none⟩

/-- A trades on a date that the benchmark and B do not have. -/
def densePanel : Panel ℚ where
  columns := []
  rows := [pricedRow 0 "SPY" 100, pricedRow 2 "SPY" 101, pricedRow 0 "A" 10, pricedRow 1 "A" 11,
    pricedRow 2 "A" 12, pricedRow 0 "B" 10, pricedRow 2 "B" 12]

theorem exists_eq_ok {ε α : Type} {x : Except ε α} (h : x.toOption.isSome = true) :
    ∃ a, x = .ok a := by
  cases x with
  | error e => cases h
  | ok a => exact ⟨a, rfl⟩

theorem dense_build :
    (buildLabelSet rationalSqrt densePanel denseContract).toOption.isSome = true := by
  decide

/-- The closes of the panel with another close of B on the last date. -/
def lowerCloses : ℤ → String → Option ℚ := fun date symbol =>
  if date = 2 ∧ symbol = "B" then some (21 / 2) else panelClose densePanel date symbol

end SignalFoundry.Labels
