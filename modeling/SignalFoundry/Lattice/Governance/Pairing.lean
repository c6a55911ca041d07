import SignalFoundry.Lattice.Governance.Comparison
import SignalFoundry.Library.Table

/-!
# Runs of the pairing

A run of the pairing returns exactly when each arm asks a question once and every
question observed in both arms has one admissible answer; what it then returns is
the scores of these questions in the order in which they are visited.
-/

namespace Governance

open Fallible Shadow

section Indexes

variable {F : Type} [PyFloat F]

theorem foldlM_index_eq_ok_iff {forecasts : List (ShadowForecast F)}
    {indexed result : OrderedDict PairKey (ShadowForecast F)} :
    forecasts.foldlM
      (fun indexed item => do
        refuseIf (keyOf item ∈ indexed.keys) (ComparisonError.comparison ("duplicate forecast for " ++
          item.symbol ++ " at " ++ item.asOf.isoformat ++ "; the pairing would be ambiguous"))
        .ok (indexed.set (keyOf item) item)) indexed = .ok result ↔
      (indexed.keys ++ forecasts.map keyOf).Nodup ∧
        result.items = indexed.items ++ forecasts.map fun item => (keyOf item, item) := by
  induction forecasts generalizing indexed with
  | nil =>
      simp only [List.foldlM_nil, pure_eq_ok, Except.ok.injEq, List.map_nil, List.append_nil]
      exact ⟨fun h => ⟨indexed.nodup_keys, by rw [h]⟩, fun h => OrderedDict.ext h.2.symm⟩
  | cons item items ih =>
      simp only [List.foldlM_cons, bind_eq_ok_iff, refuseIf_eq_ok_iff, Except.ok.injEq,
        List.map_cons]
      constructor
      · rintro ⟨_, ⟨_, hfresh, rfl⟩, h⟩
        obtain ⟨hnodup, hitems⟩ := ih.mp h
        rw [OrderedDict.keys, OrderedDict.items_set_of_not_mem hfresh] at hnodup
        rw [OrderedDict.items_set_of_not_mem hfresh] at hitems
        exact ⟨by simpa [OrderedDict.keys] using hnodup, by simpa using hitems⟩
      · rintro ⟨hnodup, hitems⟩
        have hfresh : keyOf item ∉ indexed.keys := fun h =>
          (List.nodup_append.mp hnodup).2.2 _ h _ List.mem_cons_self rfl
        refine ⟨_, ⟨(), hfresh, rfl⟩, ih.mpr ?_⟩
        rw [OrderedDict.keys, OrderedDict.items_set_of_not_mem hfresh]
        exact ⟨by simpa [OrderedDict.keys] using hnodup, by simpa using hitems⟩

/-- An arm is indexed exactly when no two of its forecasts share a key. -/
theorem index_eq_ok_iff {forecasts : List (ShadowForecast F)}
    {result : OrderedDict PairKey (ShadowForecast F)} :
    index forecasts = .ok result ↔
      (forecasts.map keyOf).Nodup ∧
        result.items = forecasts.map fun item => (keyOf item, item) := by
  rw [index, foldlM_index_eq_ok_iff]
  simp [OrderedDict.empty, OrderedDict.keys]

/-- The keys of an arm. -/
def Arm.keys (arm : Arm F) : List PairKey := arm.forecasts.map keyOf

/-- The forecast of an arm under a key. -/
def Arm.forecast? (arm : Arm F) (key : PairKey) : Option (ShadowForecast F) :=
  Table.find keyOf key arm.forecasts

theorem lookup_map_keyed {α κ : Type} [DecidableEq κ] (key : α → κ) (l : List α) (k : κ) :
    (l.map fun a => (key a, a)).lookup k = l.find? fun a => key a = k := by
  induction l with
  | nil => rfl
  | cons a l ih =>
      rw [List.map_cons, List.lookup_cons, List.find?_cons, ih]
      by_cases h : key a = k
      · simp [h]
      · have hne : (k == key a) = false := by simpa using Ne.symm h
        simp [h, hne]

theorem Arm.index_forecasts {arm : Arm F} {indexed : OrderedDict PairKey (ShadowForecast F)}
    (h : index arm.forecasts = .ok indexed) :
    arm.keys.Nodup ∧ indexed.keys = arm.keys ∧ indexed.size = arm.keys.length ∧
      ∀ key, indexed.get? key = arm.forecast? key := by
  obtain ⟨hnodup, hitems⟩ := index_eq_ok_iff.mp h
  refine ⟨hnodup, ?_, ?_, fun key => ?_⟩
  · simp [OrderedDict.keys, hitems, Arm.keys, Function.comp_def]
  · simp [OrderedDict.size, hitems, Arm.keys]
  · rw [OrderedDict.get?, hitems, lookup_map_keyed, Arm.forecast?, Table.find]

theorem Arm.exists_index {arm : Arm F} (h : arm.keys.Nodup) :
    ∃ indexed, index arm.forecasts = .ok indexed := by
  have hmap : (arm.forecasts.map fun item => (keyOf item, item)).map Prod.fst = arm.keys := by
    simp [Arm.keys, Function.comp_def]
  exact ⟨⟨_, by rw [hmap]; exact h⟩, index_eq_ok_iff.mpr ⟨h, rfl⟩⟩

theorem Arm.forecast?_isSome_iff {arm : Arm F} {key : PairKey} :
    (arm.forecast? key).isSome ↔ key ∈ arm.keys := by
  simp [Arm.forecast?, Table.find, Arm.keys]

/-- The keys of both arms. -/
def sharedKeys (champion challenger : Arm F) : List PairKey :=
  champion.keys.filter (· ∈ challenger.keys)

theorem mem_sharedKeys {champion challenger : Arm F} {key : PairKey} :
    key ∈ sharedKeys champion challenger ↔ key ∈ champion.keys ∧ key ∈ challenger.keys := by
  simp [sharedKeys]

/-- The shared keys as the loop visits them. -/
def visited (order : SetOrder PairKey) (champion challenger : Arm F) : List PairKey :=
  sortedBy PairKey.sortKey (order.arrange (sharedKeys champion challenger))

theorem perm_visited (order : SetOrder PairKey) (champion challenger : Arm F) :
    (visited order champion challenger).Perm (sharedKeys champion challenger) :=
  (perm_sortedBy _ _).trans (order.perm _)

end Indexes

/-! ## Questions -/

section Answers

variable [PyRuntime] {F : Type} [PyFloat F] [FloatMath F]

/-- What the outcomes of a pair have to satisfy. -/
structure Answerable (championForecast challengerForecast : ShadowForecast F)
    (championOutcome challengerOutcome : ShadowOutcome) : Prop where
  agreed : championOutcome.realizedLabel = challengerOutcome.realizedLabel
  championLater : championForecast.asOf.before championOutcome.observedAt = true
  challengerLater : challengerForecast.asOf.before challengerOutcome.observedAt = true
  championClass : championOutcome.realizedLabel ∈ championForecast.distribution.labels
  challengerClass : championOutcome.realizedLabel ∈ challengerForecast.distribution.labels

/-- A question observed in both arms is scored exactly when its answers are
admissible. -/
theorem exists_comparePair_eq_ok_iff {key : PairKey}
    {championForecast challengerForecast : ShadowForecast F}
    {championOutcome challengerOutcome : ShadowOutcome} :
    (∃ pair, comparePair key championForecast challengerForecast championOutcome challengerOutcome =
      .ok pair) ↔
      Answerable championForecast challengerForecast championOutcome challengerOutcome := by
  constructor
  · rintro ⟨pair, h⟩
    simp only [comparePair, bind_eq_ok_iff, refuseIf_eq_ok_iff, mapError_eq_ok_iff,
      assertPrecedes_eq_ok_iff, not_not] at h
    obtain ⟨-, hagreed, -, hchampion, -, hchallenger, b, hb, b', hb', -⟩ := h
    exact ⟨hagreed, hchampion, hchallenger, exists_brierScore_eq_ok_iff.mp ⟨b, hb⟩,
      exists_brierScore_eq_ok_iff.mp ⟨b', hb'⟩⟩
  · intro h
    obtain ⟨b, hb⟩ := exists_brierScore_eq_ok_iff.mpr h.championClass
    obtain ⟨b', hb'⟩ := exists_brierScore_eq_ok_iff.mpr h.challengerClass
    obtain ⟨l, hl⟩ := exists_logScore_eq_ok h.championClass
    obtain ⟨l', hl'⟩ := exists_logScore_eq_ok h.challengerClass
    refine ⟨⟨key, key.asOf.date, b, b', l, l'⟩, ?_⟩
    simp only [comparePair, bind_eq_ok_iff, refuseIf_eq_ok_iff, mapError_eq_ok_iff,
      assertPrecedes_eq_ok_iff, not_not]
    exact ⟨(), h.agreed, (), h.championLater, (), h.challengerLater, b, hb, b', hb', l, hl, l', hl',
      rfl⟩

theorem key_of_comparePair {key : PairKey} {championForecast challengerForecast : ShadowForecast F}
    {championOutcome challengerOutcome : ShadowOutcome} {pair : PairedScore F}
    (h : comparePair key championForecast challengerForecast championOutcome challengerOutcome =
      .ok pair) : pair.key = key := by
  simp only [comparePair, bind_eq_ok_iff, Except.ok.injEq] at h
  obtain ⟨-, -, -, -, -, -, -, -, -, -, -, -, -, -, rfl⟩ := h
  rfl

end Answers

section Questions

variable [PyRuntime] {F : Type} [PyFloat F] [FloatText F]

/-- The outcome an arm is scored against under a key. -/
def Arm.observed (arm : Arm F) (key : PairKey) : Option ShadowOutcome := do
  latestObserved (arm.history (← arm.forecast? key).forecastId)

/-- Whether a key is scored in both arms. -/
def scored (champion challenger : Arm F) (key : PairKey) : Bool :=
  (champion.observed key).isSome && (challenger.observed key).isSome

/-- The inputs the pairing does not refuse. -/
structure Accepted (champion challenger : Arm F) : Prop where
  championKeys : champion.keys.Nodup
  challengerKeys : challenger.keys.Nodup
  answerable : ∀ key championForecast challengerForecast championOutcome challengerOutcome,
    champion.forecast? key = some championForecast →
    challenger.forecast? key = some challengerForecast →
    latestObserved (champion.history championForecast.forecastId) = some championOutcome →
    latestObserved (challenger.history challengerForecast.forecastId) = some challengerOutcome →
    Answerable championForecast challengerForecast championOutcome challengerOutcome
  sized : ((sharedKeys champion challenger).filter (scored champion challenger)).length ≤ maxPairs

/-- No two questions scored in both arms have the same instant and symbol. -/
def Unambiguous (champion challenger : Arm F) : Prop :=
  ∀ key ∈ sharedKeys champion challenger, ∀ key' ∈ sharedKeys champion challenger,
    scored champion challenger key = true → scored champion challenger key' = true →
      key.sortKey = key'.sortKey → key = key'

/-! ## The loop -/

variable [FloatMath F]

/-- What the loop makes of a key: its score, if it is observed in both arms. -/
def verdict (champion challenger : Arm F) (key : PairKey) :
    Except ComparisonError (Option (PairedScore F)) :=
  match champion.forecast? key, challenger.forecast? key with
  | some championForecast, some challengerForecast =>
      match latestObserved (champion.history championForecast.forecastId),
        latestObserved (challenger.history challengerForecast.forecastId) with
      | some championOutcome, some challengerOutcome =>
          (comparePair key championForecast challengerForecast championOutcome
            challengerOutcome).map some
      | _, _ => .ok none
  | _, _ => .ok none

def pairAt (champion challenger : Arm F) (key : PairKey) : Option (PairedScore F) :=
  (verdict champion challenger key).toOption.join

/-- The state of the loop after a key with a verdict. -/
def Pairing.after (champion challenger : Arm F) (state : Pairing F) (keys : List PairKey) :
    Pairing F where
  pairs := state.pairs ++ keys.filterMap (pairAt champion challenger)
  championUnscored := state.championUnscored + keys.countP fun key => champion.observed key = none
  challengerUnscored :=
    state.challengerUnscored + keys.countP fun key => challenger.observed key = none

theorem Pairing.after_cons (champion challenger : Arm F) (state : Pairing F) (key : PairKey)
    (keys : List PairKey) :
    state.after champion challenger (key :: keys) =
      (state.after champion challenger [key]).after champion challenger keys := by
  simp only [Pairing.after, List.filterMap_cons, List.countP_cons, List.filterMap_nil,
    List.countP_nil, Pairing.mk.injEq]
  refine ⟨?_, by omega, by omega⟩
  cases pairAt champion challenger key <;> simp

/-- One step of the loop either raises what its key raises or records its
verdict. -/
theorem pairStep_eq_ok_iff {champion challenger : Arm F}
    {championIndex challengerIndex : OrderedDict PairKey (ShadowForecast F)}
    (hchampion : ∀ key, championIndex.get? key = champion.forecast? key)
    (hchallenger : ∀ key, challengerIndex.get? key = challenger.forecast? key) {key : PairKey}
    (hshared : key ∈ champion.keys ∧ key ∈ challenger.keys) {state result : Pairing F} :
    pairStep champion challenger championIndex challengerIndex state key = .ok result ↔
      (∃ pair, verdict champion challenger key = .ok pair) ∧
        result = state.after champion challenger [key] := by
  obtain ⟨c, hc⟩ := Option.isSome_iff_exists.mp (Arm.forecast?_isSome_iff.mpr hshared.1)
  obtain ⟨d, hd⟩ := Option.isSome_iff_exists.mp (Arm.forecast?_isSome_iff.mpr hshared.2)
  have hc' : champion.observed key = latestObserved (champion.history c.forecastId) := by
    rw [Arm.observed, hc]
    rfl
  have hd' : challenger.observed key = latestObserved (challenger.history d.forecastId) := by
    rw [Arm.observed, hd]
    rfl
  simp only [pairStep, hchampion, hchallenger, hc, hd, pairForecasts, verdict, Pairing.after,
    pairAt, hc', hd', List.countP_singleton, decide_eq_true_eq, List.filterMap_cons,
    List.filterMap_nil]
  cases latestObserved (champion.history c.forecastId) with
  | none => simp [Except.toOption, eq_comm]
  | some a =>
      cases latestObserved (challenger.history d.forecastId) with
      | none => simp [Except.toOption, eq_comm]
      | some b =>
          cases hpair : comparePair key c d a b with
          | error e => simp [Except.map, hpair]
          | ok pair => simp [Except.map, Except.toOption, hpair, eq_comm]

/-- The loop returns exactly when every key has a verdict. -/
theorem foldlM_pairStep_eq_ok_iff {champion challenger : Arm F}
    {championIndex challengerIndex : OrderedDict PairKey (ShadowForecast F)}
    (hchampion : ∀ key, championIndex.get? key = champion.forecast? key)
    (hchallenger : ∀ key, challengerIndex.get? key = challenger.forecast? key)
    {keys : List PairKey} (hshared : ∀ key ∈ keys, key ∈ champion.keys ∧ key ∈ challenger.keys)
    {state result : Pairing F} :
    keys.foldlM (pairStep champion challenger championIndex challengerIndex) state = .ok result ↔
      (∀ key ∈ keys, ∃ pair, verdict champion challenger key = .ok pair) ∧
        result = state.after champion challenger keys := by
  induction keys generalizing state with
  | nil => simp [Pairing.after, eq_comm]
  | cons key keys ih =>
      have hkey := hshared key List.mem_cons_self
      have hkeys : ∀ k ∈ keys, k ∈ champion.keys ∧ k ∈ challenger.keys := fun k hk =>
        hshared k (List.mem_cons_of_mem key hk)
      rw [List.foldlM_cons, bind_eq_ok_iff, Pairing.after_cons, List.forall_mem_cons]
      constructor
      · rintro ⟨next, hstep, hrest⟩
        obtain ⟨hpair, rfl⟩ := (pairStep_eq_ok_iff hchampion hchallenger hkey).mp hstep
        obtain ⟨hpairs, rfl⟩ := (ih hkeys).mp hrest
        exact ⟨⟨hpair, hpairs⟩, rfl⟩
      · rintro ⟨⟨hpair, hpairs⟩, rfl⟩
        exact ⟨_, (pairStep_eq_ok_iff hchampion hchallenger hkey).mpr ⟨hpair, rfl⟩,
          (ih hkeys).mpr ⟨hpairs, rfl⟩⟩

omit [FloatMath F] in
theorem observed_of_forecast {arm : Arm F} {key : PairKey} {forecast : ShadowForecast F}
    (h : arm.forecast? key = some forecast) :
    arm.observed key = latestObserved (arm.history forecast.forecastId) := by
  rw [Arm.observed, h]
  rfl

omit [FloatMath F] in
/-- A key scored in both arms has a forecast and an observed outcome in each. -/
theorem exists_of_scored {champion challenger : Arm F} {key : PairKey}
    (h : scored champion challenger key = true) :
    ∃ c d a b, champion.forecast? key = some c ∧ challenger.forecast? key = some d ∧
      latestObserved (champion.history c.forecastId) = some a ∧
      latestObserved (challenger.history d.forecastId) = some b := by
  simp only [scored, Bool.and_eq_true, Option.isSome_iff_exists, Arm.observed,
    Option.bind_eq_bind, Option.bind_eq_some_iff] at h
  obtain ⟨⟨a, c, hc, ha⟩, b, d, hd, hb⟩ := h
  exact ⟨c, d, a, b, hc, hd, ha, hb⟩

theorem verdict_of_scored {champion challenger : Arm F} {key : PairKey}
    {c d : ShadowForecast F} {a b : ShadowOutcome} (hc : champion.forecast? key = some c)
    (hd : challenger.forecast? key = some d)
    (ha : latestObserved (champion.history c.forecastId) = some a)
    (hb : latestObserved (challenger.history d.forecastId) = some b) :
    verdict champion challenger key = (comparePair key c d a b).map some := by
  simp only [verdict, hc, hd, ha, hb]

theorem verdict_of_not_scored {champion challenger : Arm F} {key : PairKey}
    (h : scored champion challenger key = false) :
    verdict champion challenger key = .ok none := by
  unfold verdict
  split
  · next c d hc hd =>
      rw [scored, observed_of_forecast hc, observed_of_forecast hd] at h
      split
      · next a b ha hb => simp [ha, hb] at h
      · rfl
  · rfl

theorem Accepted.exists_verdict {champion challenger : Arm F} (h : Accepted champion challenger)
    (key : PairKey) : ∃ pair, verdict champion challenger key = .ok pair := by
  cases hscored : scored champion challenger key with
  | false => exact ⟨none, verdict_of_not_scored hscored⟩
  | true =>
      obtain ⟨c, d, a, b, hc, hd, ha, hb⟩ := exists_of_scored hscored
      obtain ⟨pair, hpair⟩ : ∃ pair, comparePair key c d a b = .ok pair :=
        exists_comparePair_eq_ok_iff.mpr
        (h.answerable key c d a b hc hd ha hb)
      exact ⟨some pair, by rw [verdict_of_scored hc hd ha hb, hpair, Except.map]⟩

/-- A key with a verdict has a score, its own, exactly when it is scored in both
arms. -/
theorem map_key_pairAt {champion challenger : Arm F} {key : PairKey}
    (h : ∃ pair, verdict champion challenger key = .ok pair) :
    (pairAt champion challenger key).map PairedScore.key =
      if scored champion challenger key = true then some key else none := by
  cases hscored : scored champion challenger key with
  | false =>
      rw [pairAt, verdict_of_not_scored hscored]
      rfl
  | true =>
      obtain ⟨c, d, a, b, hc, hd, ha, hb⟩ := exists_of_scored hscored
      obtain ⟨pair, hpair⟩ := h
      rw [verdict_of_scored hc hd ha hb] at hpair
      rw [pairAt, verdict_of_scored hc hd ha hb]
      cases hscore : comparePair key c d a b with
      | error e =>
          rw [hscore] at hpair
          cases hpair
      | ok score => simp [Except.map, Except.toOption, key_of_comparePair hscore]

theorem filterMap_pairAt {champion challenger : Arm F} {keys : List PairKey}
    (h : ∀ key ∈ keys, ∃ pair, verdict champion challenger key = .ok pair) :
    keys.filterMap (pairAt champion challenger) =
        (keys.filter (scored champion challenger)).filterMap (pairAt champion challenger) ∧
      (keys.filterMap (pairAt champion challenger)).map PairedScore.key =
        keys.filter (scored champion challenger) := by
  induction keys with
  | nil => exact ⟨rfl, rfl⟩
  | cons key keys ih =>
      obtain ⟨hfilter, hkeys⟩ := ih fun k hk => h k (List.mem_cons_of_mem key hk)
      have hkey := map_key_pairAt (h key List.mem_cons_self)
      cases hscored : scored champion challenger key with
      | false =>
          rw [hscored, if_neg (by decide), Option.map_eq_none_iff] at hkey
          rw [List.filterMap_cons_none hkey, List.filter_cons_of_neg (by simp [hscored])]
          exact ⟨hfilter, hkeys⟩
      | true =>
          rw [hscored, if_pos rfl, Option.map_eq_some_iff] at hkey
          obtain ⟨pair, hpair, hpairKey⟩ := hkey
          rw [List.filterMap_cons_some hpair, List.filter_cons_of_pos hscored,
            List.filterMap_cons_some hpair, List.map_cons, hpairKey, hkeys, ← hfilter]
          exact ⟨rfl, rfl⟩

/-! ## Runs -/

/-- A cohort of two arms whose questions are visited in an order. -/
structure Paired (order : SetOrder PairKey) (champion challenger : Arm F)
    (cohort : PairedCohort F) : Prop where
  pairs : cohort.pairs =
    (visited order champion challenger).filterMap (pairAt champion challenger)
  championTotal : cohort.championTotal = champion.keys.length
  challengerTotal : cohort.challengerTotal = challenger.keys.length
  championOnly : cohort.championOnly = (champion.keys.filter (· ∉ challenger.keys)).length
  challengerOnly : cohort.challengerOnly = (challenger.keys.filter (· ∉ champion.keys)).length
  championUnscored : cohort.championUnscored =
    (sharedKeys champion challenger).countP fun key => champion.observed key = none
  challengerUnscored : cohort.challengerUnscored =
    (sharedKeys champion challenger).countP fun key => challenger.observed key = none

/-- The number of pairs is the number of questions scored in both arms. -/
theorem length_filterMap_pairAt {order : SetOrder PairKey} {champion challenger : Arm F}
    (h : ∀ key ∈ visited order champion challenger,
      ∃ pair, verdict champion challenger key = .ok pair) :
    ((visited order champion challenger).filterMap (pairAt champion challenger)).length =
      ((sharedKeys champion challenger).filter (scored champion challenger)).length := by
  have hkeys := congrArg List.length (filterMap_pairAt h).2
  rw [List.length_map] at hkeys
  rw [hkeys]
  exact ((perm_visited order champion challenger).filter _).length_eq

theorem Paired.of_eq_ok {order : SetOrder PairKey} {champion challenger : Arm F}
    {cohort : PairedCohort F} (h : buildPairedCohort order champion challenger = .ok cohort) :
    Accepted champion challenger ∧ Paired order champion challenger cohort := by
  simp only [buildPairedCohort, bind_eq_ok_iff] at h
  obtain ⟨championIndex, hchampion, challengerIndex, hchallenger, state, hloop, ⟨hsized⟩, -, h⟩ := h
  obtain ⟨hnodup, hkeys, hsize, hget⟩ := Arm.index_forecasts hchampion
  obtain ⟨hnodup', hkeys', hsize', hget'⟩ := Arm.index_forecasts hchallenger
  simp only [hkeys, hkeys', hsize, hsize', Except.ok.injEq] at hloop h
  have hshared : ∀ key ∈ visited order champion challenger,
      key ∈ champion.keys ∧ key ∈ challenger.keys := fun key hkey =>
    mem_sharedKeys.mp ((perm_visited order champion challenger).mem_iff.mp hkey)
  obtain ⟨hverdicts, rfl⟩ :=
    (foldlM_pairStep_eq_ok_iff hget hget' hshared).mp hloop
  subst h
  have hpairs : (Pairing.after champion challenger {} (visited order champion challenger)).pairs =
      (visited order champion challenger).filterMap (pairAt champion challenger) := by
    simp [Pairing.after]
  refine ⟨⟨hnodup, hnodup', ?_, ?_⟩, ⟨hpairs, rfl, rfl, rfl, rfl, ?_, ?_⟩⟩
  · intro key c d a b hc hd ha hb
    have hkey : key ∈ visited order champion challenger := by
      rw [(perm_visited order champion challenger).mem_iff, mem_sharedKeys]
      exact ⟨Arm.forecast?_isSome_iff.mp (by simp [hc]), Arm.forecast?_isSome_iff.mp (by simp [hd])⟩
    obtain ⟨pair, hpair⟩ := hverdicts key hkey
    rw [verdict_of_scored hc hd ha hb] at hpair
    refine exists_comparePair_eq_ok_iff.mp (?_ : ∃ score, comparePair key c d a b = .ok score)
    cases hscore : comparePair key c d a b with
    | error e =>
        rw [hscore] at hpair
        cases hpair
    | ok score => exact ⟨score, rfl⟩
  · rwa [hpairs, length_filterMap_pairAt hverdicts] at hsized
  · simp [Pairing.after, (perm_visited order champion challenger).countP_eq]
  · simp [Pairing.after, (perm_visited order champion challenger).countP_eq]

/-- Nothing else is refused. -/
theorem Accepted.exists_cohort {champion challenger : Arm F} (h : Accepted champion challenger)
    (order : SetOrder PairKey) :
    ∃ cohort, buildPairedCohort order champion challenger = .ok cohort := by
  obtain ⟨championIndex, hchampion⟩ := Arm.exists_index h.championKeys
  obtain ⟨challengerIndex, hchallenger⟩ := Arm.exists_index h.challengerKeys
  obtain ⟨-, hkeys, -, hget⟩ := Arm.index_forecasts hchampion
  obtain ⟨-, hkeys', -, hget'⟩ := Arm.index_forecasts hchallenger
  have hshared : ∀ key ∈ visited order champion challenger,
      key ∈ champion.keys ∧ key ∈ challenger.keys := fun key hkey =>
    mem_sharedKeys.mp ((perm_visited order champion challenger).mem_iff.mp hkey)
  have hverdicts : ∀ key ∈ visited order champion challenger,
      ∃ pair, verdict champion challenger key = .ok pair := fun key _ => h.exists_verdict key
  have hloop : (visited order champion challenger).foldlM
      (pairStep champion challenger championIndex challengerIndex) {} =
        .ok (Pairing.after champion challenger {} (visited order champion challenger)) :=
    (foldlM_pairStep_eq_ok_iff hget hget' hshared).mpr ⟨hverdicts, rfl⟩
  have hsized : (Pairing.after champion challenger {}
      (visited order champion challenger)).pairs.length ≤ maxPairs := by
    rw [Pairing.after, List.nil_append, length_filterMap_pairAt hverdicts]
    exact h.sized
  simp only [buildPairedCohort, hchampion, hchallenger, ok_bind, hkeys, hkeys']
  simp only [visited, sharedKeys] at hloop hsized
  rw [hloop, ok_bind, require_of hsized]
  exact ⟨_, rfl⟩

end Questions

end Governance
