import SignalFoundry.AlphaForge.Labels.Contracts

/-!
# What a label reads

A label is a function of the closes of its symbol up to the end of its event. Closes that
are replaced later leave it as it was, and so they leave the whole event table.
-/

namespace SignalFoundry.Labels

open Fallible

variable {K : Type} [Field K] [LinearOrder K]

/-! ## Values by position -/

section Positions

variable {group other : List (Session K)} {definition : LabelDefinition K} {position : ℕ}

omit [Field K] [LinearOrder K] in
theorem closeAt_congr {i : ℕ} (h : group[i]? = other[i]?) : closeAt group i = closeAt other i := by
  rw [closeAt, closeAt, h]

omit [Field K] [LinearOrder K] in
theorem closeAt_eq_some_iff {i : ℕ} {close : K} :
    closeAt group i = some close ↔ ∃ session, group[i]? = some session ∧ session.close = close := by
  rw [closeAt, Option.map_eq_some_iff]

omit [LinearOrder K] in
theorem futureReturn_congr {horizon : ℕ} (hnow : group[position]? = other[position]?)
    (hlater : group[position + horizon]? = other[position + horizon]?) :
    futureReturn group horizon position = futureReturn other horizon position := by
  rw [futureReturn, futureReturn, closeAt_congr hnow, closeAt_congr hlater]

omit [LinearOrder K] in
theorem pctChange_congr {i : ℕ} (h : ∀ j ≤ i, group[j]? = other[j]?) :
    pctChange group i = pctChange other i := by
  cases i with
  | zero => rfl
  | succ i => rw [pctChange, pctChange, closeAt_congr (h i (by omega)), closeAt_congr (h _ le_rfl)]

theorem mapM_congr {α β : Type} {f g : α → Option β} {l : List α} (h : ∀ a ∈ l, f a = g a) :
    l.mapM f = l.mapM g := by
  induction l with
  | nil => rfl
  | cons a l ih =>
      obtain ⟨ha, hl⟩ := List.forall_mem_cons.mp h
      rw [List.mapM_cons, List.mapM_cons, ha, ih hl]

omit [Field K] [LinearOrder K] in
theorem lt_length_iff_isSome {i : ℕ} : i < group.length ↔ (group[i]?).isSome := by
  simp

theorem tripleBarrier_congr {upper lower : K} {horizon : ℕ}
    (h : ∀ i ≤ position + horizon, group[i]? = other[i]?) :
    tripleBarrier group upper lower horizon position =
      tripleBarrier other upper lower horizon position := by
  have hpath : (group.drop (position + 1)).take horizon =
      (other.drop (position + 1)).take horizon := by
    refine List.ext_getElem? fun i => ?_
    rw [List.getElem?_take, List.getElem?_take, List.getElem?_drop, List.getElem?_drop]
    split
    · exact h _ (by omega)
    · rfl
  have hlength : position + horizon < group.length ↔ position + horizon < other.length := by
    rw [lt_length_iff_isSome, lt_length_iff_isSome, h _ le_rfl]
  simp only [tripleBarrier, hlength, closeAt_congr (h position (by omega)), hpath]

omit [LinearOrder K] in
theorem trailingVol_congr (sqrt : K → K) {window : ℕ} (h : ∀ i ≤ position, group[i]? = other[i]?) :
    trailingVol group sqrt window position = trailingVol other sqrt window position := by
  have hchanges : ((List.range window).mapM fun i => pctChange group (position - i)) =
      (List.range window).mapM fun i => pctChange other (position - i) :=
    mapM_congr fun i _ => pctChange_congr fun j hj => h j (by omega)
  rw [trailingVol, trailingVol, hchanges]

theorem sideAt_congr {side : SideSource} (h : ∀ i ≤ position, group[i]? = other[i]?) :
    sideAt group side position = sideAt other side position := by
  cases side with
  | laggedReturn => rw [sideAt, sideAt, pctChange_congr h]
  | column name => rw [sideAt, sideAt, h position le_rfl]

/-- A label reads the sessions up to its horizon and no later one. -/
theorem definitionValue_congr (sqrt : K → K)
    (h : ∀ i ≤ position + definition.horizon, group[i]? = other[i]?) :
    definitionValue group sqrt definition position =
      definitionValue other sqrt definition position := by
  have hforward := futureReturn_congr (h position (by omega)) (h _ le_rfl)
  have hpast : ∀ i ≤ position, group[i]? = other[i]? := fun i hi => h i (by omega)
  rw [definitionValue, definitionValue, hforward]
  cases definition.kind with
  | regression => rfl
  | classification => rfl
  | threshold threshold => rfl
  | quantile quantiles => rfl
  | tripleBarrier upper lower => exact tripleBarrier_congr h
  | volatilityScaled window =>
      dsimp only
      rw [trailingVol_congr sqrt hpast]
  | metaLabel threshold side =>
      dsimp only
      rw [sideAt_congr hpast]

omit [LinearOrder K] in
theorem isSome_getElem?_of_futureReturn {horizon : ℕ}
    (h : (futureReturn group horizon position).isSome) : (group[position + horizon]?).isSome := by
  rw [futureReturn, Option.isSome_iff_exists] at h
  obtain ⟨value, hvalue⟩ := h
  obtain ⟨now, -, hvalue⟩ := Option.bind_eq_some_iff.mp hvalue
  obtain ⟨later, hlater, -⟩ := Option.bind_eq_some_iff.mp hvalue
  obtain ⟨session, hsession, -⟩ := closeAt_eq_some_iff.mp hlater
  rw [hsession]
  rfl

theorem isSome_getElem?_of_tripleBarrier {upper lower : K} {horizon : ℕ}
    (h : (tripleBarrier group upper lower horizon position).isSome) :
    (group[position + horizon]?).isSome := by
  rw [tripleBarrier] at h
  split at h
  · rwa [← lt_length_iff_isSome]
  · cases h

/-- A label with a value has the whole of its horizon. -/
theorem isSome_getElem?_of_definitionValue {sqrt : K → K}
    (h : (definitionValue group sqrt definition position).isSome) :
    (group[position + definition.horizon]?).isSome := by
  rw [definitionValue] at h
  cases hkind : definition.kind with
  | regression => exact isSome_getElem?_of_futureReturn (by simpa only [hkind] using h)
  | quantile quantiles => exact isSome_getElem?_of_futureReturn (by simpa only [hkind] using h)
  | classification =>
      rw [hkind] at h
      exact isSome_getElem?_of_futureReturn (by simpa using h)
  | threshold threshold =>
      rw [hkind] at h
      exact isSome_getElem?_of_futureReturn (by simpa using h)
  | tripleBarrier upper lower =>
      rw [hkind] at h
      exact isSome_getElem?_of_tripleBarrier h
  | volatilityScaled window =>
      rw [hkind] at h
      obtain ⟨value, hvalue⟩ := Option.isSome_iff_exists.mp h
      obtain ⟨vol, -, hvalue⟩ := Option.bind_eq_some_iff.mp hvalue
      obtain ⟨r, hr, -⟩ := Option.bind_eq_some_iff.mp hvalue
      exact isSome_getElem?_of_futureReturn (Option.isSome_iff_exists.mpr ⟨r, hr⟩)
  | metaLabel threshold side =>
      rw [hkind] at h
      obtain ⟨value, hvalue⟩ := Option.isSome_iff_exists.mp h
      obtain ⟨s, -, hvalue⟩ := Option.bind_eq_some_iff.mp hvalue
      obtain ⟨r, hr, -⟩ := Option.bind_eq_some_iff.mp hvalue
      exact isSome_getElem?_of_futureReturn (Option.isSome_iff_exists.mpr ⟨r, hr⟩)

end Positions

/-! ## Sessions by symbol -/

section Groups

variable {sessions : List (Session K)}

/-- No symbol has two sessions on a date. -/
def DistinctSessions (sessions : List (Session K)) : Prop :=
  (sessions.map fun session => (session.date, session.symbol)).Nodup

omit [Field K] [LinearOrder K] in
@[simp] theorem mem_groupOf {symbol : String} {session : Session K} :
    session ∈ groupOf sessions symbol ↔ session ∈ sessions ∧ session.symbol = symbol := by
  rw [groupOf, mem_sortedBy, List.mem_filter, decide_eq_true_eq]

omit [Field K] [LinearOrder K] in
theorem pairwise_groupOf (h : DistinctSessions sessions) (symbol : String) :
    (groupOf sessions symbol).Pairwise fun x y => x.date < y.date := by
  have hdates : ((sessions.filter (·.symbol = symbol)).map (·.date)).Nodup := by
    refine ((h.of_map _).filter _).map_on fun x hx y hy hdate => ?_
    obtain ⟨hx, hsymbol⟩ := List.mem_filter.mp hx
    obtain ⟨hy, hsymbol'⟩ := List.mem_filter.mp hy
    exact List.inj_on_of_nodup_map h hx hy (Prod.ext hdate
      ((of_decide_eq_true hsymbol).trans (of_decide_eq_true hsymbol').symm))
  have hnodup : ((groupOf sessions symbol).map (·.date)).Nodup :=
    ((perm_sortedBy _ _).map _).nodup_iff.mpr hdates
  have hle := pairwise_sortedBy (fun session : Session K => session.date)
    (sessions.filter (·.symbol = symbol))
  exact (hle.and (List.pairwise_map.mp hnodup)).imp fun hpair => lt_of_le_of_ne hpair.1 hpair.2

/-- Sessions are ordered as their positions are. -/
theorem date_lt_iff {α : Type} {date : α → ℤ} {l : List α}
    (h : l.Pairwise fun x y => date x < date y) {i j : ℕ} {x y : α} (hx : l[i]? = some x)
    (hy : l[j]? = some y) : date x < date y ↔ i < j := by
  obtain ⟨hi, rfl⟩ := List.getElem?_eq_some_iff.mp hx
  obtain ⟨hj, rfl⟩ := List.getElem?_eq_some_iff.mp hy
  have hlt := List.pairwise_iff_getElem.mp h
  constructor
  · intro hdate
    by_contra hle
    rcases Nat.lt_or_eq_of_le (not_lt.mp hle) with hji | rfl
    · exact absurd (hlt j i hj hi hji) hdate.not_gt
    · exact lt_irrefl _ hdate
  · exact hlt i j hi hj

theorem date_le_iff {α : Type} {date : α → ℤ} {l : List α}
    (h : l.Pairwise fun x y => date x < date y) {i j : ℕ} {x y : α} (hx : l[i]? = some x)
    (hy : l[j]? = some y) : date x ≤ date y ↔ i ≤ j := by
  rw [← not_lt, date_lt_iff h hy hx, not_lt]

/-- The sessions with their positions among the sessions of their symbol. -/
def sites (sessions : List (Session K)) : List (Session K × ℕ) :=
  (sortedSymbols (sessions.map (·.symbol))).flatMap fun symbol =>
    (groupOf sessions symbol).zipIdx

theorem mem_sortedSymbols {symbols : List String} {symbol : String} :
    symbol ∈ sortedSymbols symbols ↔ symbol ∈ symbols := by
  rw [sortedSymbols, List.mem_insertionSort, List.mem_dedup]

omit [Field K] [LinearOrder K] in
theorem mem_sites {site : Session K × ℕ} : site ∈ sites sessions ↔
    (groupOf sessions site.1.symbol)[site.2]? = some site.1 := by
  rw [sites, List.mem_flatMap]
  constructor
  · rintro ⟨symbol, -, hmem⟩
    have hsite := List.mem_zipIdx_iff_getElem?.mp hmem
    rwa [(mem_groupOf.mp (List.mem_of_getElem? hsite)).2]
  · intro hsite
    refine ⟨site.1.symbol, ?_, List.mem_zipIdx_iff_getElem?.mpr hsite⟩
    rw [mem_sortedSymbols]
    exact List.mem_map_of_mem (mem_groupOf.mp (List.mem_of_getElem? hsite)).1

/-- The value of a definition at a site. -/
def cellAt (sqrt : K → K) (sessions : List (Session K)) (definition : LabelDefinition K)
    (site : Session K × ℕ) : Cell K :=
  ⟨site.1.date, site.1.symbol,
    if definition.overlapPolicy = .nonOverlapping ∧
      observable (groupOf sessions site.1.symbol) definition site.2 = false
    then none
    else definitionValue (groupOf sessions site.1.symbol) sqrt definition site.2⟩

/-- The required end at a site. -/
def endAt (sessions : List (Session K)) (definition : LabelDefinition K)
    (site : Session K × ℕ) : Option ℤ :=
  requiredEnd (groupOf sessions site.1.symbol) definition site.2

/-- The event of a definition at a site. -/
def eventAt (sessions : List (Session K)) (definition : LabelDefinition K)
    (site : Session K × ℕ) : Event :=
  ⟨site.1.date, site.1.symbol, definition.name,
    (groupOf sessions site.1.symbol)[site.2 + 1]?.map (·.date), endAt sessions definition site,
    observable (groupOf sessions site.1.symbol) definition site.2⟩

omit [Field K] [LinearOrder K] in
theorem flatMap_zipIdx_eq_map_sites {β : Type} (f : List (Session K) → Session K × ℕ → β) :
    ((sortedSymbols (sessions.map (·.symbol))).flatMap fun symbol =>
      (groupOf sessions symbol).zipIdx.map (f (groupOf sessions symbol))) =
    (sites sessions).map fun site => f (groupOf sessions site.1.symbol) site := by
  rw [sites, List.map_flatMap]
  refine List.flatMap_congr fun symbol _ => List.map_congr_left fun site hsite => ?_
  have hgroup := List.mem_of_getElem? (List.mem_zipIdx_iff_getElem?.mp hsite)
  rw [(mem_groupOf.mp hgroup).2]

/-- A raw column lists the cells of all sites. -/
theorem rawColumn_perm (sqrt : K → K) (definition : LabelDefinition K) :
    (rawColumn sqrt sessions definition).Perm
      ((sites sessions).map (cellAt sqrt sessions definition)) := by
  refine (perm_sortedBy _ _).trans ((perm_sortedBy _ _).trans (List.Perm.of_eq ?_))
  exact flatMap_zipIdx_eq_map_sites fun group site => (⟨site.1.date, site.1.symbol,
    if definition.overlapPolicy = .nonOverlapping ∧ observable group definition site.2 = false
    then none else definitionValue group sqrt definition site.2⟩ : Cell K)

theorem mem_eventTable {definitions : List (LabelDefinition K)} {event : Event} :
    event ∈ eventTable sessions definitions ↔
      ∃ definition ∈ definitions, ∃ site ∈ sites sessions,
        event = eventAt sessions definition site := by
  rw [eventTable, mem_sortedBy, mem_sortedBy, mem_sortedBy, List.mem_flatMap]
  constructor
  · rintro ⟨symbol, hsymbol, hmem⟩
    obtain ⟨definition, hdefinition, hevent⟩ := List.mem_flatMap.mp hmem
    obtain ⟨site, hsite, rfl⟩ := List.mem_map.mp hevent
    have hgroup := List.mem_zipIdx_iff_getElem?.mp hsite
    have heq := (mem_groupOf.mp (List.mem_of_getElem? hgroup)).2
    subst heq
    exact ⟨definition, hdefinition, site, mem_sites.mpr hgroup, rfl⟩
  · rintro ⟨definition, hdefinition, site, hsite, rfl⟩
    have hgroup := mem_sites.mp hsite
    refine ⟨site.1.symbol, ?_, List.mem_flatMap.mpr ⟨definition, hdefinition, ?_⟩⟩
    · rw [mem_sortedSymbols]
      exact List.mem_map_of_mem (mem_groupOf.mp (List.mem_of_getElem? hgroup)).1
    · exact List.mem_map.mpr ⟨site, List.mem_zipIdx_iff_getElem?.mpr hgroup, rfl⟩

omit [Field K] [LinearOrder K] in
/-- A symbol has one site on a date. -/
theorem sites_inj (h : DistinctSessions sessions) {site other : Session K × ℕ}
    (hsite : site ∈ sites sessions) (hother : other ∈ sites sessions)
    (hdate : site.1.date = other.1.date) (hsymbol : site.1.symbol = other.1.symbol) :
    site = other := by
  have hgroup := mem_sites.mp hsite
  have hgroup' := mem_sites.mp hother
  rw [← hsymbol] at hgroup'
  have hsorted := pairwise_groupOf h site.1.symbol
  have hposition : site.2 = other.2 :=
    le_antisymm ((date_le_iff hsorted hgroup hgroup').mp hdate.le)
      ((date_le_iff hsorted hgroup' hgroup).mp hdate.ge)
  rw [← hposition, hgroup] at hgroup'
  exact Prod.ext (Option.some.inj hgroup') hposition

theorem endAt_eq_some_iff {definition : LabelDefinition K} {site : Session K × ℕ} {date : ℤ} :
    endAt sessions definition site = some date ↔ ∃ last,
      (groupOf sessions site.1.symbol)[site.2 + definition.horizon]? = some last ∧
        last.date = date := by
  rw [endAt, requiredEnd, Option.map_eq_some_iff]

/-- A cell with a value has an event that is observable, and an end. -/
theorem observable_of_cellAt {sqrt : K → K} {definition : LabelDefinition K}
    {site : Session K × ℕ} (h : (cellAt sqrt sessions definition site).value.isSome) :
    observable (groupOf sessions site.1.symbol) definition site.2 = true ∧
      (endAt sessions definition site).isSome := by
  rw [cellAt] at h
  dsimp only at h
  split at h
  · cases h
  · rename_i hpolicy
    have hend : (endAt sessions definition site).isSome := by
      rw [endAt, requiredEnd, Option.isSome_map]
      exact isSome_getElem?_of_definitionValue h
    refine ⟨?_, hend⟩
    cases hallow : definition.overlapPolicy with
    | allow =>
        rw [observable, hallow]
        simpa [endAt] using hend
    | nonOverlapping =>
        by_contra hnot
        exact hpolicy ⟨hallow, Bool.eq_false_of_not_eq_true hnot⟩

theorem observable_iff {group : List (Session K)} {definition : LabelDefinition K}
    {position : ℕ} : observable group definition position = true ↔
      (requiredEnd group definition position).isSome ∧
        (definition.overlapPolicy = .allow ∨ position % definition.horizon = 0) := by
  simp [observable]

/-! ## Labels of a site -/

/-- The label of a definition at a site. -/
def labelAt (sqrt : K → K) (sessions : List (Session K)) (definition : LabelDefinition K)
    (site : Session K × ℕ) : Cell K :=
  match definition.kind with
  | .quantile quantiles =>
      { cellAt sqrt sessions definition site with
        value := quantileLabel quantiles ((rawColumn sqrt sessions definition).filter
          (·.date = site.1.date)) (cellAt sqrt sessions definition site) }
  | _ => cellAt sqrt sessions definition site

theorem mem_valueColumn {sqrt : K → K} {definition : LabelDefinition K} {cell : Cell K} :
    cell ∈ valueColumn sqrt sessions definition ↔
      ∃ site ∈ sites sessions, cell = labelAt sqrt sessions definition site := by
  have hraw : ∀ raw, raw ∈ rawColumn sqrt sessions definition ↔
      ∃ site ∈ sites sessions, cellAt sqrt sessions definition site = raw := fun raw => by
    rw [(rawColumn_perm sqrt definition).mem_iff, List.mem_map]
  rw [valueColumn]
  cases hkind : definition.kind with
  | quantile quantiles =>
      simp only [quantileColumn, List.mem_map, hraw, labelAt, hkind]
      constructor
      · rintro ⟨raw, ⟨site, hsite, rfl⟩, rfl⟩
        exact ⟨site, hsite, rfl⟩
      · rintro ⟨site, hsite, rfl⟩
        exact ⟨_, ⟨site, hsite, rfl⟩, rfl⟩
  | regression => simp only [hraw, labelAt, hkind, eq_comm]
  | classification => simp only [hraw, labelAt, hkind, eq_comm]
  | threshold threshold => simp only [hraw, labelAt, hkind, eq_comm]
  | tripleBarrier upper lower => simp only [hraw, labelAt, hkind, eq_comm]
  | volatilityScaled window => simp only [hraw, labelAt, hkind, eq_comm]
  | metaLabel threshold side => simp only [hraw, labelAt, hkind, eq_comm]

variable (sessions) in
theorem labelAt_key (sqrt : K → K) (definition : LabelDefinition K) (site : Session K × ℕ) :
    (labelAt sqrt sessions definition site).date = site.1.date ∧
      (labelAt sqrt sessions definition site).symbol = site.1.symbol := by
  rw [labelAt]
  split
  · exact ⟨rfl, rfl⟩
  · exact ⟨rfl, rfl⟩

theorem isSome_cellAt_of_labelAt {sqrt : K → K} {definition : LabelDefinition K}
    {site : Session K × ℕ} (h : (labelAt sqrt sessions definition site).value.isSome) :
    (cellAt sqrt sessions definition site).value.isSome := by
  rw [labelAt] at h
  split at h
  · dsimp only [quantileLabel] at h
    split at h
    · cases h
    · simpa using h
  · exact h

end Groups

/-! ## Replaced closes -/

section Replaced

variable {sessions : List (Session K)}

/-- A session with another close. -/
def Session.replaced (closes : ℤ → String → K) (session : Session K) : Session K :=
  { session with close := closes session.date session.symbol }

omit [Field K] [LinearOrder K] in
theorem DistinctSessions.replaced (h : DistinctSessions sessions) (closes : ℤ → String → K) :
    DistinctSessions (sessions.map (Session.replaced closes)) := by
  rw [DistinctSessions, List.map_map]
  exact h

/-- A site with another close. -/
def replacedSite (closes : ℤ → String → K) (site : Session K × ℕ) : Session K × ℕ :=
  (site.1.replaced closes, site.2)

omit [Field K] [LinearOrder K] in
theorem groupOf_replaced (closes : ℤ → String → K) (symbol : String) :
    groupOf (sessions.map (Session.replaced closes)) symbol =
      (groupOf sessions symbol).map (Session.replaced closes) := by
  rw [groupOf, groupOf, List.filter_map]
  exact sortedBy_map _ fun _ => rfl

omit [Field K] [LinearOrder K] in
theorem sites_replaced (closes : ℤ → String → K) :
    sites (sessions.map (Session.replaced closes)) =
      (sites sessions).map (replacedSite closes) := by
  have hsymbols : ((sessions.map (Session.replaced closes)).map (·.symbol)) =
      sessions.map (·.symbol) := by
    rw [List.map_map]
    rfl
  rw [sites, sites, hsymbols, List.map_flatMap]
  refine List.flatMap_congr fun symbol _ => ?_
  rw [groupOf_replaced, List.zipIdx_map]
  rfl

variable (sessions) in
theorem requiredEnd_replaced (closes : ℤ → String → K) (definition : LabelDefinition K)
    (symbol : String) (position : ℕ) :
    requiredEnd (groupOf (sessions.map (Session.replaced closes)) symbol) definition position =
      requiredEnd (groupOf sessions symbol) definition position := by
  rw [requiredEnd, requiredEnd, groupOf_replaced, List.getElem?_map, Option.map_map]
  rfl

theorem endAt_replaced (closes : ℤ → String → K) (definition : LabelDefinition K)
    (site : Session K × ℕ) :
    endAt (sessions.map (Session.replaced closes)) definition (replacedSite closes site) =
      endAt sessions definition site :=
  requiredEnd_replaced sessions closes definition site.1.symbol site.2

variable (sessions) in
theorem observable_replaced (closes : ℤ → String → K) (definition : LabelDefinition K)
    (symbol : String) (position : ℕ) :
    observable (groupOf (sessions.map (Session.replaced closes)) symbol) definition position =
      observable (groupOf sessions symbol) definition position := by
  rw [observable, observable, requiredEnd_replaced]

/-- A cell whose end is not after the first replaced date is what it was. -/
theorem cellAt_replaced (hdistinct : DistinctSessions sessions) {sqrt : K → K}
    {definition : LabelDefinition K} {closes : ℤ → String → K} {last : ℤ}
    (hcloses : ∀ session ∈ sessions, session.date ≤ last →
      closes session.date session.symbol = session.close)
    {site : Session K × ℕ} {date : ℤ} (hend : endAt sessions definition site = some date)
    (hdate : date ≤ last) :
    cellAt sqrt (sessions.map (Session.replaced closes)) definition (replacedSite closes site) =
      cellAt sqrt sessions definition site := by
  obtain ⟨final, hfinal, rfl⟩ := endAt_eq_some_iff.mp hend
  have hsorted := pairwise_groupOf hdistinct site.1.symbol
  have hvalue : definitionValue ((groupOf sessions site.1.symbol).map (Session.replaced closes))
      sqrt definition site.2 =
        definitionValue (groupOf sessions site.1.symbol) sqrt definition site.2 := by
    refine definitionValue_congr sqrt fun i hi => ?_
    rw [List.getElem?_map]
    cases hsession : (groupOf sessions site.1.symbol)[i]? with
    | none => rfl
    | some session =>
        have hmem := (mem_groupOf.mp (List.mem_of_getElem? hsession)).1
        have hle := ((date_le_iff hsorted hsession hfinal).mpr hi).trans hdate
        rw [Option.map_some, Session.replaced, hcloses session hmem hle]
  have hobservable := observable_replaced sessions closes definition site.1.symbol site.2
  rw [groupOf_replaced] at hobservable
  have hgroup : groupOf (sessions.map (Session.replaced closes))
      (replacedSite closes site).1.symbol =
        (groupOf sessions site.1.symbol).map (Session.replaced closes) :=
    groupOf_replaced closes site.1.symbol
  simp only [cellAt, hgroup]
  simp only [replacedSite, Session.replaced] at hobservable hvalue ⊢
  simp only [hobservable, hvalue]

end Replaced

/-! ## Ranks -/

theorem bucket_mono (quantiles count : ℕ) {rank rank' : ℕ} (h : rank ≤ rank') :
    bucket quantiles count rank ≤ bucket quantiles count rank' := by
  have hproduct : rank * quantiles + count - 1 ≤ rank' * quantiles + count - 1 :=
    Nat.sub_le_sub_right (Nat.add_le_add_right (Nat.mul_le_mul_right _ h) _) _
  exact max_le_max le_rfl (min_le_min le_rfl (Nat.div_le_div_right hproduct))

theorem countP_or_of_disjoint {α : Type} {p q : α → Bool} {l : List α}
    (h : ∀ a ∈ l, ¬(p a = true ∧ q a = true)) :
    l.countP (fun a => p a || q a) = l.countP p + l.countP q := by
  induction l with
  | nil => rfl
  | cons a l ih =>
      obtain ⟨ha, hl⟩ := List.forall_mem_cons.mp h
      rw [List.countP_cons, List.countP_cons, List.countP_cons, ih hl]
      cases hp : p a with
      | false => simp [Nat.add_assoc]
      | true =>
          have hq : q a = false := Bool.eq_false_of_not_eq_true fun hq => ha ⟨hp, hq⟩
          simp [hq, Nat.add_right_comm]

section Ranks

variable {sessions : List (Session K)} (sqrt : K → K) (definition : LabelDefinition K)

/-- The sites of a date. -/
def peers (sessions : List (Session K)) (date : ℤ) : List (Session K × ℕ) :=
  (sites sessions).filter (·.1.date = date)

theorem countP_rawColumn (date : ℤ) (p : Cell K → Bool) :
    ((rawColumn sqrt sessions definition).filter (·.date = date)).countP p =
      (peers sessions date).countP fun site => p (cellAt sqrt sessions definition site) := by
  rw [peers, List.countP_filter, List.countP_filter,
    (rawColumn_perm sqrt definition).countP_eq, List.countP_map]
  rfl

/-- An event of a site that ends by a date. -/
def endsBy (sessions : List (Session K)) (definition : LabelDefinition K) (last : ℤ)
    (site : Session K × ℕ) : Bool := (endAt sessions definition site).any (· ≤ last)

/-- An event of a site that ends after a date. -/
def endsAfter (sessions : List (Session K)) (definition : LabelDefinition K) (last : ℤ)
    (site : Session K × ℕ) : Bool := (endAt sessions definition site).any (last < ·)

/-- The values of a date. -/
def countOn (sessions : List (Session K)) (date : ℤ) : ℕ :=
  (peers sessions date).countP fun site => (cellAt sqrt sessions definition site).value.isSome

/-- The rank of a value among those of its date whose events end by a date. -/
def knownRank (sessions : List (Session K)) (site : Session K × ℕ) (last : ℤ) : ℕ :=
  (peers sessions site.1.date).countP fun other => endsBy sessions definition last other &&
    (cellAt sqrt sessions definition site).ranksUpTo (cellAt sqrt sessions definition other)

/-- The values of a date whose events end after a date. -/
def laterCount (sessions : List (Session K)) (date last : ℤ) : ℕ :=
  (peers sessions date).countP fun site => endsAfter sessions definition last site &&
    (cellAt sqrt sessions definition site).value.isSome

/-- The values whose events end later than that of a value cannot carry its rank into another
quantile. -/
def RanksSettled (quantiles : ℕ) (sessions : List (Session K)) : Prop :=
  ∀ site ∈ sites sessions, ∀ last, endAt sessions definition site = some last →
    (cellAt sqrt sessions definition site).value.isSome →
    quantiles ≤ countOn sqrt definition sessions site.1.date →
    bucket quantiles (countOn sqrt definition sessions site.1.date)
        (knownRank sqrt definition sessions site last) =
      bucket quantiles (countOn sqrt definition sessions site.1.date)
        (knownRank sqrt definition sessions site last +
          laterCount sqrt definition sessions site.1.date last)

omit [Field K] in
theorem isSome_of_ranksUpTo {cell other : Cell K} (h : cell.ranksUpTo other = true) :
    other.value.isSome := by
  rw [Cell.ranksUpTo] at h
  split at h
  · rename_i heq _
    rw [heq]
    rfl
  · cases h

/-- A rank splits into the values that end by a date and the values that end after it. -/
theorem rank_split (cells : Session K × ℕ → Cell K) {site : Session K × ℕ} {last : ℤ}
    (hknown : ∀ other, endsBy sessions definition last other = true →
      cells other = cellAt sqrt sessions definition other)
    (hend : ∀ other ∈ peers sessions site.1.date, (cells other).value.isSome →
      (endAt sessions definition other).isSome) :
    (peers sessions site.1.date).countP (fun other =>
        (cellAt sqrt sessions definition site).ranksUpTo (cells other)) =
      knownRank sqrt definition sessions site last +
        (peers sessions site.1.date).countP fun other =>
          endsAfter sessions definition last other &&
            (cellAt sqrt sessions definition site).ranksUpTo (cells other) := by
  rw [knownRank, ← countP_or_of_disjoint]
  · refine List.countP_congr fun other hother => ?_
    cases hvalue : endAt sessions definition other with
    | none =>
        have hnone : (cellAt sqrt sessions definition site).ranksUpTo (cells other) = false :=
          Bool.eq_false_of_not_eq_true fun hranks => by
            have hsome := hend other hother (isSome_of_ranksUpTo hranks)
            rw [hvalue] at hsome
            cases hsome
        simp [endsBy, endsAfter, hvalue, hnone]
    | some date =>
        by_cases hle : date ≤ last
        · have hby : endsBy sessions definition last other = true := by simp [endsBy, hvalue, hle]
          have hafter : endsAfter sessions definition last other = false := by
            simp [endsAfter, hvalue, hle]
          rw [hknown other hby, hby, hafter]
          simp
        · have hby : endsBy sessions definition last other = false := by simp [endsBy, hvalue, hle]
          have hafter : endsAfter sessions definition last other = true := by
            simpa [endsAfter, hvalue] using hle
          rw [hby, hafter]
          simp
  · rintro other - ⟨hby, hafter⟩
    rw [Bool.and_eq_true] at hby hafter
    have hle := hby.1
    have hlt := hafter.1
    cases hvalue : endAt sessions definition other with
    | none => simp [endsBy, hvalue] at hle
    | some date =>
        simp only [endsBy, endsAfter, hvalue, Option.any_some, decide_eq_true_eq] at hle hlt
        exact absurd hlt hle.not_gt

/-- The rank of a value among all values of its date. -/
theorem rank_eq (site : Session K × ℕ) (last : ℤ) :
    (peers sessions site.1.date).countP (fun other =>
        (cellAt sqrt sessions definition site).ranksUpTo (cellAt sqrt sessions definition other)) =
      knownRank sqrt definition sessions site last +
        (peers sessions site.1.date).countP fun other =>
          endsAfter sessions definition last other &&
            (cellAt sqrt sessions definition site).ranksUpTo
              (cellAt sqrt sessions definition other) :=
  rank_split sqrt definition (cellAt sqrt sessions definition) (fun _ _ => rfl)
    fun _ _ h => (observable_of_cellAt h).2

theorem cellAt_value {site : Session K × ℕ}
    (h : observable (groupOf sessions site.1.symbol) definition site.2 = true) :
    (cellAt sqrt sessions definition site).value =
      definitionValue (groupOf sessions site.1.symbol) sqrt definition site.2 := by
  rw [cellAt]
  exact if_neg fun hnot => Bool.false_ne_true (hnot.2.symm.trans h)

/-- A forward return has a value exactly when its event is observable. -/
theorem isSome_cellAt_iff {quantiles : ℕ} (hkind : definition.kind = .quantile quantiles)
    {site : Session K × ℕ} (hsite : site ∈ sites sessions) :
    (cellAt sqrt sessions definition site).value.isSome ↔
      observable (groupOf sessions site.1.symbol) definition site.2 = true := by
  refine ⟨fun h => (observable_of_cellAt h).1, fun h => ?_⟩
  have hnow := mem_sites.mp hsite
  obtain ⟨last, hlast⟩ := Option.isSome_iff_exists.mp (observable_iff.mp h).1
  rw [requiredEnd, Option.map_eq_some_iff] at hlast
  obtain ⟨final, hfinal, -⟩ := hlast
  rw [cellAt_value sqrt definition h, definitionValue, hkind]
  simp [futureReturn, closeAt, hnow, hfinal]

/-! ## Labels after later closes are replaced -/

variable {closes : ℤ → String → K}

omit [Field K] [LinearOrder K] in
theorem peers_replaced (closes : ℤ → String → K) (date : ℤ) :
    peers (sessions.map (Session.replaced closes)) date =
      (peers sessions date).map (replacedSite closes) := by
  rw [peers, peers, sites_replaced, List.filter_map]
  rfl

omit [Field K] [LinearOrder K] in
theorem mem_sites_of_mem_peers {date : ℤ} {site : Session K × ℕ} (h : site ∈ peers sessions date) :
    site ∈ sites sessions ∧ site.1.date = date := by
  obtain ⟨hsite, hdate⟩ := List.mem_filter.mp h
  exact ⟨hsite, of_decide_eq_true hdate⟩

omit [Field K] [LinearOrder K] in
theorem replacedSite_mem {site : Session K × ℕ} (h : site ∈ sites sessions) :
    replacedSite closes site ∈ sites (sessions.map (Session.replaced closes)) := by
  rw [sites_replaced]
  exact List.mem_map_of_mem h

variable {definition}

theorem isSome_cellAt_replaced {quantiles : ℕ} (hkind : definition.kind = .quantile quantiles)
    (closes : ℤ → String → K) {site : Session K × ℕ} (hsite : site ∈ sites sessions) :
    (cellAt sqrt (sessions.map (Session.replaced closes)) definition
        (replacedSite closes site)).value.isSome =
      (cellAt sqrt sessions definition site).value.isSome := by
  rw [Bool.eq_iff_iff, isSome_cellAt_iff sqrt definition hkind (replacedSite_mem hsite),
    isSome_cellAt_iff sqrt definition hkind hsite]
  exact iff_of_eq (congrArg (· = true)
    (observable_replaced sessions closes definition site.1.symbol site.2))

theorem countOn_replaced {quantiles : ℕ} (hkind : definition.kind = .quantile quantiles)
    (closes : ℤ → String → K) (date : ℤ) :
    countOn sqrt definition (sessions.map (Session.replaced closes)) date =
      countOn sqrt definition sessions date := by
  rw [countOn, countOn, peers_replaced, List.countP_map]
  refine List.countP_congr fun site hsite => iff_of_eq (congrArg (· = true) ?_)
  exact isSome_cellAt_replaced sqrt hkind closes (mem_sites_of_mem_peers hsite).1

variable (sessions) in
/-- A quantile label as a bucket of a rank among the sites of its date. -/
theorem labelAt_quantile {quantiles : ℕ} (hkind : definition.kind = .quantile quantiles)
    (site : Session K × ℕ) :
    (labelAt sqrt sessions definition site).value =
      if countOn sqrt definition sessions site.1.date < quantiles then none
      else (cellAt sqrt sessions definition site).value.map fun _ =>
        (bucket quantiles (countOn sqrt definition sessions site.1.date)
          ((peers sessions site.1.date).countP fun other =>
            (cellAt sqrt sessions definition site).ranksUpTo
              (cellAt sqrt sessions definition other)) : K) := by
  have hlabel : (labelAt sqrt sessions definition site).value = quantileLabel quantiles
      ((rawColumn sqrt sessions definition).filter (·.date = site.1.date))
      (cellAt sqrt sessions definition site) := by
    rw [labelAt, hkind]
  rw [hlabel, quantileLabel, countP_rawColumn, countP_rawColumn]
  rfl

variable (hdistinct : DistinctSessions sessions) {site : Session K × ℕ} {last : ℤ}
  (hend : endAt sessions definition site = some last)
  (hcloses : ∀ session ∈ sessions, session.date ≤ last →
    closes session.date session.symbol = session.close)

include hdistinct hend hcloses

/-- The rank of a value after later closes are replaced. -/
theorem rank_replaced (sqrt : K → K) :
    (peers (sessions.map (Session.replaced closes)) site.1.date).countP (fun other =>
        (cellAt sqrt (sessions.map (Session.replaced closes)) definition
          (replacedSite closes site)).ranksUpTo
          (cellAt sqrt (sessions.map (Session.replaced closes)) definition other)) =
      knownRank sqrt definition sessions site last +
        (peers sessions site.1.date).countP fun other =>
          endsAfter sessions definition last other &&
            (cellAt sqrt sessions definition site).ranksUpTo
              (cellAt sqrt (sessions.map (Session.replaced closes)) definition
                (replacedSite closes other)) := by
  rw [cellAt_replaced hdistinct hcloses hend le_rfl, peers_replaced, List.countP_map]
  refine rank_split sqrt definition (fun other => cellAt sqrt
    (sessions.map (Session.replaced closes)) definition (replacedSite closes other)) ?_ ?_
  · intro other hby
    cases hvalue : endAt sessions definition other with
    | none => simp [endsBy, hvalue] at hby
    | some date =>
        rw [endsBy, hvalue, Option.any_some, decide_eq_true_eq] at hby
        exact cellAt_replaced hdistinct hcloses hvalue hby
  · intro other _ hsome
    rw [← endAt_replaced closes]
    exact (observable_of_cellAt hsome).2

/-- A settled label is what it was after later closes are replaced. -/
theorem quantileLabelAt_replaced {quantiles : ℕ} (hkind : definition.kind = .quantile quantiles)
    (hsettled : RanksSettled sqrt definition quantiles sessions) (hsite : site ∈ sites sessions)
    (hsome : (cellAt sqrt sessions definition site).value.isSome) :
    (labelAt sqrt (sessions.map (Session.replaced closes)) definition
        (replacedSite closes site)).value = (labelAt sqrt sessions definition site).value := by
  have hcell : cellAt sqrt (sessions.map (Session.replaced closes)) definition
      (replacedSite closes site) = cellAt sqrt sessions definition site :=
    cellAt_replaced hdistinct hcloses hend le_rfl
  have hrank := rank_replaced hdistinct hend hcloses sqrt
  have hdate : (replacedSite closes site).1.date = site.1.date := rfl
  rw [labelAt_quantile _ sqrt hkind, labelAt_quantile _ sqrt hkind, hdate,
    countOn_replaced sqrt hkind, hrank, hcell, rank_eq sqrt definition site last]
  split
  · rfl
  · rename_i hcount
    have hsame := hsettled site hsite last hend hsome (not_lt.mp hcount)
    have hbound : ∀ cells : Session K × ℕ → Cell K,
        (∀ other ∈ peers sessions site.1.date, (cells other).value.isSome =
          (cellAt sqrt sessions definition other).value.isSome) →
        bucket quantiles (countOn sqrt definition sessions site.1.date)
            (knownRank sqrt definition sessions site last +
              (peers sessions site.1.date).countP fun other =>
                endsAfter sessions definition last other &&
                  (cellAt sqrt sessions definition site).ranksUpTo (cells other)) =
          bucket quantiles (countOn sqrt definition sessions site.1.date)
            (knownRank sqrt definition sessions site last) := by
      intro cells hcells
      refine le_antisymm (le_of_le_of_eq (bucket_mono _ _ (Nat.add_le_add_left ?_ _)) hsame.symm)
        (bucket_mono _ _ (Nat.le_add_right _ _))
      refine List.countP_mono_left fun other hother h => ?_
      rw [Bool.and_eq_true] at h ⊢
      exact ⟨h.1, (hcells other hother) ▸ isSome_of_ranksUpTo h.2⟩
    rw [hbound _ fun other hother =>
      isSome_cellAt_replaced sqrt hkind closes (mem_sites_of_mem_peers hother).1,
      hbound _ fun _ _ => rfl]

theorem labelAt_replaced
    (hsettled : ∀ quantiles, definition.kind = .quantile quantiles →
      RanksSettled sqrt definition quantiles sessions)
    (hsite : site ∈ sites sessions)
    (hsome : (labelAt sqrt sessions definition site).value.isSome) :
    labelAt sqrt (sessions.map (Session.replaced closes)) definition (replacedSite closes site) =
      labelAt sqrt sessions definition site := by
  cases hkind : definition.kind with
  | quantile quantiles =>
      have hvalue := quantileLabelAt_replaced sqrt hdistinct hend hcloses hkind
        (hsettled quantiles hkind) hsite (isSome_cellAt_of_labelAt hsome)
      rw [labelAt, labelAt, hkind] at hvalue ⊢
      exact congrArg (Cell.mk site.1.date site.1.symbol) hvalue
  | _ =>
      rw [labelAt, labelAt, hkind]
      exact cellAt_replaced hdistinct hcloses hend le_rfl

end Ranks

end SignalFoundry.Labels
