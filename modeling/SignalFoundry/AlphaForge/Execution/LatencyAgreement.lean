import SignalFoundry.AlphaForge.Execution.Latency
import SignalFoundry.Library.Platform
import Mathlib.Data.Prod.Lex

/-!
# Latency resolution agrees

The stages of a schedule are the sessions at fixed offsets from the origin, and the
sessions of a frozen calendar are in the order of their positions. From this the
schedule of the model is the one of the backtest, the parser accepts what was
serialized, and a longer delay is never an earlier stage.
-/

namespace SignalFoundry.Latency

open Fallible

variable {calendar : List PyDate}

/-! ## Positions -/

theorem idxOf?_eq_some_iff_getElem? {α : Type} [DecidableEq α] {l : List α} (hnodup : l.Nodup)
    {a : α} {i : ℕ} : l.idxOf? a = some i ↔ l[i]? = some a := by
  rw [List.idxOf?_eq_some_iff, List.getElem?_eq_some_iff]
  constructor
  · rintro ⟨h, ha, -⟩
    exact ⟨h, by simpa using ha⟩
  · rintro ⟨h, ha⟩
    refine ⟨h, by simpa using ha, fun j hj hsame => ?_⟩
    have hsame : l[j] = l[i] := by simpa [ha] using hsame
    exact hj.ne ((hnodup.getElem_inj_iff).mp hsame)

theorem nodup_of_sorted (hsorted : calendar.Pairwise (· < ·)) : calendar.Nodup :=
  hsorted.imp fun h => h.ne

theorem idxOf_eq_of_getElem? {α : Type} [DecidableEq α] {l : List α} (hnodup : l.Nodup) {a : α}
    {i : ℕ} (h : l[i]? = some a) : l.idxOf a = i := by
  obtain ⟨hlt, rfl⟩ := List.getElem?_eq_some_iff.mp h
  exact hnodup.idxOf_getElem i hlt

/-- Sessions are in the order of their positions. -/
theorem le_of_positions (hsorted : calendar.Pairwise (· < ·)) {i j : ℕ} {a b : PyDate}
    (ha : calendar[i]? = some a) (hb : calendar[j]? = some b) (hij : i ≤ j) : a ≤ b := by
  obtain ⟨hi, rfl⟩ := List.getElem?_eq_some_iff.mp ha
  obtain ⟨hj, rfl⟩ := List.getElem?_eq_some_iff.mp hb
  rcases hij.eq_or_lt with rfl | hlt
  · exact le_rfl
  · exact (List.pairwise_iff_getElem.mp hsorted i j hi hj hlt).le

theorem lt_of_positions (hsorted : calendar.Pairwise (· < ·)) {i j : ℕ} {a b : PyDate}
    (ha : calendar[i]? = some a) (hb : calendar[j]? = some b) (hij : i < j) : a < b := by
  obtain ⟨hi, rfl⟩ := List.getElem?_eq_some_iff.mp ha
  obtain ⟨hj, rfl⟩ := List.getElem?_eq_some_iff.mp hb
  exact List.pairwise_iff_getElem.mp hsorted i j hi hj hij

/-- Positions are in the order of their sessions. -/
theorem idxOf_le_idxOf (hsorted : calendar.Pairwise (· < ·)) {a b : PyDate} (ha : a ∈ calendar)
    (hb : b ∈ calendar) (hle : a ≤ b) : calendar.idxOf a ≤ calendar.idxOf b := by
  by_contra hlt
  have hat : ∀ {x}, x ∈ calendar → calendar[calendar.idxOf x]? = some x := fun hx => by
    rw [List.getElem?_eq_getElem (List.idxOf_lt_length_iff.mpr hx), List.getElem_idxOf]
  exact (lt_of_positions hsorted (hat hb) (hat ha) (not_le.mp hlt)).not_ge hle

/-- The adjacent elements of a list in a transitive relation. -/
theorem any_adjacent_eq_false_of_pairwise {α : Type} {r : α → α → Prop} {bad : α × α → Bool}
    (hbad : ∀ a b, r a b → bad (a, b) = false) :
    ∀ {l : List α}, l.Pairwise r → (l.zip l.tail).any bad = false
  | [], _ => rfl
  | [_], _ => rfl
  | a :: b :: l, h => by
      obtain ⟨ha, hrest⟩ := List.pairwise_cons.mp h
      have ih := any_adjacent_eq_false_of_pairwise hbad hrest
      rw [List.tail_cons] at ih ⊢
      rw [List.zip_cons_cons, List.any_cons, hbad a b (ha b List.mem_cons_self), Bool.false_or]
      exact ih

theorem frozenCalendar_eq_ok (hsorted : calendar.Pairwise (· < ·))
    (hlength : calendar.length ≤ maxCalendarSessions) (hne : calendar ≠ []) :
    frozenCalendar calendar = .ok calendar := by
  have hadjacent : (calendar.zip calendar.tail).any (fun p => p.2 ≤ p.1) = false :=
    any_adjacent_eq_false_of_pairwise (fun a b h => by simpa using h) hsorted
  rw [frozenCalendar, refuseIf_of_not (not_lt.mpr hlength), ok_bind, refuseIf_of_not hne, ok_bind,
    refuseIf_of_not (by rw [hadjacent]; exact Bool.false_ne_true), ok_bind]
  rfl

theorem integer_eq_ok {name : String} {minimum maximum lag : ℕ}
    (h : minimum ≤ lag ∧ lag ≤ maximum) : integer name minimum maximum lag = .ok lag := by
  rw [integer, refuseIf_of_not (not_not.mpr (by exact_mod_cast h)), ok_bind, Int.toNat_natCast]
  rfl

/-! ## The schedule of an origin -/

namespace LatencySchedule

/-- The constructor returns the schedule of its arguments, when they are valid. -/
theorem make_eq_ok_iff {origin : PyDate} {stages : Stages PyDate} {lag : ℤ} {digest : String}
    {s : LatencySchedule} : make origin stages lag digest = .ok s ↔
      s.originSession = origin ∧ s.stages = stages ∧ (s.executionLagSessions : ℤ) = lag ∧
        s.modelDigest = digest := by
  constructor
  · intro h
    obtain ⟨⟨hmonotone⟩, -, h⟩ := bind_eq_ok_iff.mp h
    obtain ⟨⟨hfill⟩, -, h⟩ := bind_eq_ok_iff.mp h
    obtain ⟨⟨hlag⟩, -, h⟩ := bind_eq_ok_iff.mp h
    obtain ⟨⟨hdigest⟩, -, h⟩ := bind_eq_ok_iff.mp h
    cases h
    exact ⟨rfl, rfl, Int.toNat_of_nonneg (by omega), rfl⟩
  · rintro ⟨rfl, rfl, rfl, rfl⟩
    have hlag : ((1 : ℕ) : ℤ) ≤ s.executionLagSessions ∧
        (s.executionLagSessions : ℤ) ≤ maxStageDelaySessions := by exact_mod_cast s.lag_mem
    simp only [make, require_of s.monotone, require_of s.submission_lt_fill, require_of hlag,
      require_of s.digest_valid, ok_bind]
    rfl

theorem make_self (s : LatencySchedule) :
    make s.originSession s.stages s.executionLagSessions s.modelDigest = .ok s :=
  make_eq_ok_iff.mpr ⟨rfl, rfl, rfl, rfl⟩

end LatencySchedule

namespace LatencyModel

variable [PyRuntime] {model slower : LatencyModel} {lag : ℕ}

/-- Where the stages of an origin are, and that the sessions there make a schedule. -/
structure Resolves (model : LatencyModel) (calendar : List PyDate) (lag : ℕ) (origin : PyDate)
    (index : ℕ) (s : LatencySchedule) : Prop where
  origin_at : calendar[index]? = some origin
  origin_eq : s.originSession = origin
  stages_at : Stages.Forall₂ (fun offset session => calendar[index + offset]? = some session)
    (model.offsets lag) s.stages
  lag_eq : s.executionLagSessions = lag
  digest_eq : s.modelDigest = model.configurationDigest

theorem offsets_submission_add_lag_le (model : LatencyModel) (lag : ℕ) :
    (model.offsets lag).submission + lag ≤ (model.offsets lag).fill := by
  simp only [offsets]
  omega

/-- Every stage is before the fill, and every stage before the next one. -/
theorem offsets_pairwise : (0 :: (model.offsets lag).toList).Pairwise (· ≤ ·) := by
  simp only [offsets, Stages.toList, List.pairwise_cons, List.mem_cons, List.not_mem_nil, or_false,
    forall_eq_or_imp, forall_eq, false_imp_iff, implies_true, and_true, List.Pairwise.nil]
  omega

/-- The sessions at the offsets are there when the fill is. -/
theorem exists_sessionsAt {index : ℕ} (h : index + (model.offsets lag).fill < calendar.length) :
    ∃ stages, sessionsAt calendar index (model.offsets lag) = some stages := by
  have hat : ∀ offset ≤ (model.offsets lag).fill,
      ∃ session, calendar[index + offset]? = some session := fun offset hle =>
    ⟨_, List.getElem?_eq_getElem (by omega)⟩
  obtain ⟨data, hdata⟩ := hat (model.offsets lag).data (by simp only [offsets]; omega)
  obtain ⟨feature, hfeature⟩ := hat (model.offsets lag).feature (by simp only [offsets]; omega)
  obtain ⟨signal, hsignal⟩ := hat (model.offsets lag).signal (by simp only [offsets]; omega)
  obtain ⟨submission, hsubmission⟩ :=
    hat (model.offsets lag).submission (by simp only [offsets]; omega)
  obtain ⟨fill, hfill⟩ := hat (model.offsets lag).fill le_rfl
  exact ⟨⟨data, feature, signal, submission, fill⟩,
    Stages.traverse_eq_some_iff.mpr ⟨hdata, hfeature, hsignal, hsubmission, hfill⟩⟩

/-- Sessions at offsets that are in order are in order. -/
theorem stages_pairwise (hsorted : calendar.Pairwise (· < ·)) {index : ℕ} {origin : PyDate}
    (horigin : calendar[index]? = some origin) {stages : Stages PyDate}
    (hstages : Stages.Forall₂ (fun offset session => calendar[index + offset]? = some session)
      (model.offsets lag) stages) : (origin :: stages.toList).Pairwise (· ≤ ·) := by
  have hforall : List.Forall₂ (fun offset session => calendar[index + offset]? = some session)
      (0 :: (model.offsets lag).toList) (origin :: stages.toList) :=
    .cons horigin (.cons hstages.data (.cons hstages.feature (.cons hstages.signal
      (.cons hstages.submission (.cons hstages.fill .nil)))))
  refine List.pairwise_iff_getElem.mpr fun i j hi hj hij => ?_
  have hlength := hforall.length_eq
  have hat := List.forall₂_iff_get.mp hforall
  exact le_of_positions hsorted (hat.2 i (by omega) hi) (hat.2 j (by omega) hj)
    (Nat.add_le_add_left (List.pairwise_iff_getElem.mp offsets_pairwise i j _ _ hij) index)

/-- The constructor returns the schedule of the sessions at the offsets. -/
theorem exists_resolves (model : LatencyModel) (hsorted : calendar.Pairwise (· < ·))
    (hlag : 1 ≤ lag ∧ lag ≤ maxStageDelaySessions) {index : ℕ} {origin : PyDate}
    (horigin : calendar[index]? = some origin)
    (hfits : index + (model.offsets lag).fill < calendar.length) :
    ∃ s, model.Resolves calendar lag origin index s := by
  obtain ⟨stages, hstages⟩ := exists_sessionsAt hfits
  have hstages := Stages.traverse_eq_some_iff.mp hstages
  refine ⟨⟨origin, stages, lag, model.configurationDigest,
    stages_pairwise hsorted horigin hstages, ?_, hlag, isSha256_canonicalDigest _ _⟩,
    horigin, rfl, hstages, rfl, rfl⟩
  refine lt_of_positions hsorted hstages.submission hstages.fill ?_
  have hle := model.offsets_submission_add_lag_le lag
  omega

theorem Resolves.sessionsAt_eq {origin : PyDate} {index : ℕ} {s : LatencySchedule}
    (h : model.Resolves calendar lag origin index s) :
    sessionsAt calendar index (model.offsets lag) = some s.stages :=
  Stages.traverse_eq_some_iff.mpr h.stages_at

theorem Resolves.make_eq {origin : PyDate} {index : ℕ} {s : LatencySchedule}
    (h : model.Resolves calendar lag origin index s) :
    LatencySchedule.make origin s.stages lag model.configurationDigest = .ok s :=
  LatencySchedule.make_eq_ok_iff.mpr ⟨h.origin_eq, rfl, by exact_mod_cast h.lag_eq, h.digest_eq⟩

theorem Resolves.fits {origin : PyDate} {index : ℕ} {s : LatencySchedule}
    (h : model.Resolves calendar lag origin index s) :
    index + (model.offsets lag).fill < calendar.length :=
  (List.getElem?_eq_some_iff.mp h.stages_at.fill).1

theorem cumulativeOffsets_eq (hlag : 1 ≤ lag ∧ lag ≤ maxStageDelaySessions) :
    model.cumulativeOffsets lag = if maxTotalDelaySessions < (model.offsets lag).fill
      then .error ⟨"resolved logical latency exceeds " ++ toString maxTotalDelaySessions ++
        " sessions"⟩ else .ok (model.offsets lag) := by
  rw [cumulativeOffsets, integer_eq_ok hlag, ok_bind, refuseIf]
  split <;> rfl

/-- The schedules of the model are those that resolve, within the total delay. -/
theorem schedule_eq_ok_iff (hsorted : calendar.Pairwise (· < ·))
    (hlength : calendar.length ≤ maxCalendarSessions)
    (hlag : 1 ≤ lag ∧ lag ≤ maxStageDelaySessions) {origin : PyDate} {s : LatencySchedule} :
    model.schedule origin calendar lag = .ok s ↔
      (model.offsets lag).fill ≤ maxTotalDelaySessions ∧
        ∃ index, model.Resolves calendar lag origin index s := by
  by_cases hmem : origin ∈ calendar
  · obtain ⟨index, horigin⟩ := List.getElem?_of_mem hmem
    have hposition := (idxOf?_eq_some_iff_getElem? (nodup_of_sorted hsorted)).mpr horigin
    have hone : ∀ i, calendar[i]? = some origin → i = index := fun i hi =>
      (idxOf_eq_of_getElem? (nodup_of_sorted hsorted) hi).symm.trans
        (idxOf_eq_of_getElem? (nodup_of_sorted hsorted) horigin)
    rw [schedule, frozenCalendar_eq_ok hsorted hlength (List.ne_nil_of_mem hmem), ok_bind,
      hposition]
    dsimp only
    rw [integer_eq_ok hlag, ok_bind, cumulativeOffsets_eq hlag]
    by_cases htotal : maxTotalDelaySessions < (model.offsets lag).fill
    · simp [htotal]
    · rw [if_neg htotal, ok_bind]
      by_cases hfits : index + (model.offsets lag).fill < calendar.length
      · obtain ⟨expected, hexpected⟩ := exists_resolves model hsorted hlag horigin hfits
        rw [refuseIf_of_not (not_le.mpr hfits), ok_bind, hexpected.sessionsAt_eq]
        dsimp only
        rw [hexpected.make_eq, Except.ok.injEq]
        constructor
        · rintro rfl
          exact ⟨not_lt.mp htotal, index, hexpected⟩
        · rintro ⟨-, other, h⟩
          obtain rfl := hone other h.origin_at
          have hsame := hexpected.make_eq
          have hstages : some expected.stages = some s.stages :=
            hexpected.sessionsAt_eq.symm.trans h.sessionsAt_eq
          rw [Option.some.inj hstages, h.make_eq, Except.ok.injEq] at hsame
          exact hsame.symm
      · rw [refuseIf_of (not_lt.mp hfits), error_bind]
        refine ⟨fun heq => (by cases heq), ?_⟩
        rintro ⟨-, other, h⟩
        obtain rfl := hone other h.origin_at
        exact absurd h.fits hfits
  · have hposition : calendar.idxOf? origin = none := List.idxOf?_eq_none_iff.mpr hmem
    constructor
    · intro h
      rw [schedule] at h
      obtain ⟨frozen, hfrozen, h⟩ := bind_eq_ok_iff.mp h
      have hsame : frozen = calendar := by
        simp only [frozenCalendar, bind_eq_ok_iff] at hfrozen
        obtain ⟨-, -, -, -, -, -, hfrozen⟩ := hfrozen
        exact (Except.ok.inj hfrozen).symm
      rw [hsame, hposition] at h
      cases h
    · rintro ⟨-, index, h⟩
      exact absurd (List.mem_of_getElem? h.origin_at) hmem

end LatencyModel

/-! ## The backtest -/

section Backtest

variable [PyRuntime] {model slower : LatencyModel} {lag : ℕ}

/-- What is built inline is what the model resolves. -/
theorem resolves_of_inlineSchedule {origin : PyDate} {index : ℕ}
    (horigin : calendar[index]? = some origin) {s : LatencySchedule}
    (h : inlineSchedule model calendar lag (model.offsets lag) origin index = .ok s) :
    model.Resolves calendar lag origin index s := by
  rw [inlineSchedule] at h
  obtain ⟨-, -, h⟩ := bind_eq_ok_iff.mp h
  cases hstages : LatencyModel.sessionsAt calendar index (model.offsets lag) with
  | none =>
      rw [hstages] at h
      cases h
  | some stages =>
      rw [hstages] at h
      obtain ⟨horiginEq, rfl, hlagEq, hdigest⟩ :=
        LatencySchedule.make_eq_ok_iff.mp (mapError_eq_ok_iff.mp h)
      exact ⟨horigin, horiginEq, Stages.traverse_eq_some_iff.mp hstages, by exact_mod_cast hlagEq,
        hdigest⟩

theorem resolves_of_mem_resolveTargets (hsorted : calendar.Pairwise (· < ·))
    (liquidation : Option PyDate) : ∀ (origins taken : List PyDate) (s : LatencySchedule),
      s ∈ (resolveTargets model calendar lag (model.offsets lag) liquidation taken origins).1 →
        s.originSession ∈ origins ∧
          ∃ index, model.Resolves calendar lag s.originSession index s
  | [], _, s, h => by cases h
  | origin :: rest, taken, s, h => by
      have hrest : ∀ taken, s ∈ (resolveTargets model calendar lag (model.offsets lag) liquidation
          taken rest).1 → s.originSession ∈ origin :: rest ∧
            ∃ index, model.Resolves calendar lag s.originSession index s := fun taken h =>
        (resolves_of_mem_resolveTargets hsorted liquidation rest taken s h).imp_left
          (List.mem_cons_of_mem _)
      rw [resolveTargets] at h
      cases hposition : calendar.idxOf? origin with
      | none =>
          rw [hposition] at h
          cases h
      | some index =>
          rw [hposition] at h
          have horigin := (idxOf?_eq_some_iff_getElem? (nodup_of_sorted hsorted)).mp hposition
          dsimp only at h
          split at h
          · split at h
            · cases h
            · exact hrest taken h
          · cases hinline : inlineSchedule model calendar lag (model.offsets lag) origin index with
            | error error =>
                rw [hinline] at h
                cases h
            | ok schedule =>
                rw [hinline] at h
                have hresolves := resolves_of_inlineSchedule horigin hinline
                have hhead : schedule.originSession ∈ origin :: rest ∧
                    ∃ index, model.Resolves calendar lag schedule.originSession index schedule := by
                  rw [hresolves.origin_eq]
                  exact ⟨List.mem_cons_self, index, hresolves⟩
                dsimp only at h
                split at h
                · exact List.mem_singleton.mp h ▸ hhead
                · rcases List.mem_cons.mp h with rfl | h
                  · exact hhead
                  · exact hrest _ h

/-- Every schedule that a backtest builds is the one of the model. -/
theorem schedule_of_mem_backtestSchedules (hsorted : calendar.Pairwise (· < ·))
    (hlength : calendar.length ≤ maxCalendarSessions)
    (hlag : 1 ≤ lag ∧ lag ≤ maxStageDelaySessions) {liquidation : Option PyDate}
    {origins : List PyDate} {s : LatencySchedule}
    (h : s ∈ (backtestSchedules model calendar lag liquidation origins).1) :
    s.originSession ∈ origins ∧ model.schedule s.originSession calendar lag = .ok s := by
  rw [backtestSchedules, LatencyModel.cumulativeOffsets_eq hlag] at h
  by_cases htotal : maxTotalDelaySessions < (model.offsets lag).fill
  · rw [if_pos htotal] at h
    cases h
  · rw [if_neg htotal, Int.toNat_natCast] at h
    obtain ⟨hmem, hresolves⟩ := resolves_of_mem_resolveTargets hsorted liquidation _ _ s h
    exact ⟨(List.mem_insertionSort _).mp hmem,
      (LatencyModel.schedule_eq_ok_iff hsorted hlength hlag).mpr ⟨not_lt.mp htotal, hresolves⟩⟩

end Backtest

/-! ## The parser -/

section Parser

variable [PyRuntime] {model : LatencyModel} {lag : ℕ}

theorem sessionOf_isoformat (name : String) (date : PyDate) :
    sessionOf name (.text date.isoformat) = .ok date := by
  simp only [sessionOf, PyDate.fromIsoformat_isoformat, refuseIf_of_not (not_not.mpr rfl), ok_bind]
  rfl

/-- What is serialized is read back, before the calendar is looked at. -/
theorem fromConfig_toDict (s : LatencySchedule) (calendar : List PyDate) :
    LatencySchedule.fromConfig s.toDict calendar = do
      let frozen ← frozenCalendar calendar
      let outside := s.stageSessions.filter (· ∉ frozen)
      refuseIf (outside ≠ []) ⟨"latency schedule contains sessions outside the frozen calendar: " ++
        LatencySchedule.reprTexts (outside.map PyDate.isoformat)⟩
      let indices := s.stageSessions.map frozen.idxOf
      refuseIf ((indices.zip indices.tail).any (fun p => p.2 < p.1) = true)
        ⟨"latency schedule is not monotonic on the frozen calendar"⟩
      refuseIf ((frozen.idxOf s.stages.fill : ℤ) - frozen.idxOf s.stages.submission <
          s.executionLagSessions)
        ⟨"fill stage must preserve the declared execution lag on the frozen calendar"⟩
      return s := by
  have hunknown : (s.toDict.map Prod.fst).filter (· ∉ LatencySchedule.configKeys) = [] := by
    simp [LatencySchedule.toDict, LatencySchedule.configKeys]
  have hmissing : LatencySchedule.configKeys.filter (· ∉ s.toDict.map Prod.fst) = [] := by
    simp [LatencySchedule.toDict, LatencySchedule.configKeys]
  have hlag : integerOf "execution_lag_sessions" 1 maxStageDelaySessions
      (.integer s.executionLagSessions) = .ok s.executionLagSessions :=
    integer_eq_ok s.lag_mem
  have hdigest : digestOf "model_digest" (.text s.modelDigest) = .ok s.modelDigest := by
    rw [digestOf, refuseIf_of_not (not_not.mpr s.digest_valid), ok_bind]
    rfl
  rw [LatencySchedule.fromConfig]
  simp only [hunknown, hmissing, refuseIf_of_not (not_not.mpr rfl), ok_bind]
  have hitems : (s.toDict.lookup "origin_session").getD .other = .text s.originSession.isoformat ∧
      (s.toDict.lookup "data_available_session").getD .other =
        .text s.stages.data.isoformat ∧
      (s.toDict.lookup "feature_available_session").getD .other =
        .text s.stages.feature.isoformat ∧
      (s.toDict.lookup "signal_available_session").getD .other =
        .text s.stages.signal.isoformat ∧
      (s.toDict.lookup "submission_session").getD .other = .text s.stages.submission.isoformat ∧
      (s.toDict.lookup "fill_session").getD .other = .text s.stages.fill.isoformat ∧
      (s.toDict.lookup "execution_lag_sessions").getD .other = .integer s.executionLagSessions ∧
      (s.toDict.lookup "model_digest").getD .other = .text s.modelDigest :=
    ⟨rfl, rfl, rfl, rfl, rfl, rfl, rfl, rfl⟩
  obtain ⟨horigin, hdata, hfeature, hsignal, hsubmission, hfill, hlagItem, hdigestItem⟩ := hitems
  rw [horigin, hdata, hfeature, hsignal, hsubmission, hfill, hlagItem, hdigestItem]
  simp only [sessionOf_isoformat, hlag, hdigest, ok_bind, s.make_self]

theorem mem_calendar_of_resolves {origin : PyDate} {index : ℕ} {s : LatencySchedule}
    (h : model.Resolves calendar lag origin index s) : ∀ session ∈ s.stageSessions,
      session ∈ calendar := by
  intro session hsession
  simp only [LatencySchedule.stageSessions, Stages.toList, List.mem_cons, List.not_mem_nil,
    or_false] at hsession
  rcases hsession with rfl | rfl | rfl | rfl | rfl | rfl
  · exact h.origin_eq ▸ List.mem_of_getElem? h.origin_at
  · exact List.mem_of_getElem? h.stages_at.data
  · exact List.mem_of_getElem? h.stages_at.feature
  · exact List.mem_of_getElem? h.stages_at.signal
  · exact List.mem_of_getElem? h.stages_at.submission
  · exact List.mem_of_getElem? h.stages_at.fill

/-- On the calendar, the fill is the lag after the submission. -/
theorem idxOf_submission_add_lag_le (hsorted : calendar.Pairwise (· < ·)) {origin : PyDate}
    {index : ℕ} {s : LatencySchedule} (h : model.Resolves calendar lag origin index s) :
    calendar.idxOf s.stages.submission + lag ≤ calendar.idxOf s.stages.fill := by
  rw [idxOf_eq_of_getElem? (nodup_of_sorted hsorted) h.stages_at.submission,
    idxOf_eq_of_getElem? (nodup_of_sorted hsorted) h.stages_at.fill]
  have hle := model.offsets_submission_add_lag_le lag
  omega

/-- The parser accepts a schedule that the calendar resolves. -/
theorem fromConfig_of_resolves (hsorted : calendar.Pairwise (· < ·))
    (hlength : calendar.length ≤ maxCalendarSessions) {origin : PyDate} {index : ℕ}
    {s : LatencySchedule} (h : model.Resolves calendar lag origin index s) :
    LatencySchedule.fromConfig s.toDict calendar = .ok s := by
  have hmem := mem_calendar_of_resolves h
  have houtside : s.stageSessions.filter (· ∉ calendar) = [] :=
    List.filter_eq_nil_iff.mpr fun session hsession => by simpa using hmem session hsession
  have hindices : (s.stageSessions.map calendar.idxOf).Pairwise (· ≤ ·) :=
    List.pairwise_map.mpr (List.Pairwise.imp_of_mem
      (fun ha hb hle => idxOf_le_idxOf hsorted (hmem _ ha) (hmem _ hb) hle) s.monotone)
  have hadjacent : ((s.stageSessions.map calendar.idxOf).zip
      (s.stageSessions.map calendar.idxOf).tail).any (fun p => p.2 < p.1) = false :=
    any_adjacent_eq_false_of_pairwise (fun a b h => by simpa using h) hindices
  have hfill := idxOf_submission_add_lag_le hsorted h
  have hlagEq := h.lag_eq
  rw [fromConfig_toDict, frozenCalendar_eq_ok hsorted hlength
    (List.ne_nil_of_mem (List.mem_of_getElem? h.origin_at)), ok_bind]
  simp only [houtside, hadjacent]
  rw [refuseIf_of_not (not_not.mpr rfl), ok_bind, refuseIf_of_not Bool.false_ne_true, ok_bind,
    refuseIf_of_not (by omega), ok_bind]
  rfl

end Parser

/-! ## Slower models -/

section Slower

variable [PyRuntime] {model slower : LatencyModel} {lag : ℕ}

/-- The five delays of a model. -/
def LatencyModel.delays (model : LatencyModel) : Stages ℕ where
  data := model.dataDelaySessions
  feature := model.featureDelaySessions
  signal := model.inferenceDelaySessions
  submission := model.submissionDelaySessions
  fill := model.fillDelaySessions

/-- Delays that are no shorter reach no stage earlier. -/
theorem offsets_mono (lag : ℕ) (h : Stages.Forall₂ (· ≤ ·) model.delays slower.delays) :
    Stages.Forall₂ (· ≤ ·) (model.offsets lag) (slower.offsets lag) := by
  obtain ⟨hdata, hfeature, hsignal, hsubmission, hfill⟩ := h
  simp only [LatencyModel.delays] at hdata hfeature hsignal hsubmission hfill
  constructor <;> simp only [LatencyModel.offsets] <;> omega

theorem stages_mono (hsorted : calendar.Pairwise (· < ·))
    (hdelays : Stages.Forall₂ (· ≤ ·) model.delays slower.delays) {origin : PyDate}
    {index other : ℕ} {s t : LatencySchedule} (hs : model.Resolves calendar lag origin index s)
    (ht : slower.Resolves calendar lag origin other t) :
    Stages.Forall₂ (· ≤ ·) s.stages t.stages := by
  obtain rfl : index = other :=
    (idxOf_eq_of_getElem? (nodup_of_sorted hsorted) hs.origin_at).symm.trans
      (idxOf_eq_of_getElem? (nodup_of_sorted hsorted) ht.origin_at)
  have hoffsets := offsets_mono lag hdelays
  have hle : ∀ {i j : ℕ} {a b : PyDate}, calendar[index + i]? = some a →
      calendar[index + j]? = some b → i ≤ j → a ≤ b := fun ha hb hij =>
    le_of_positions hsorted ha hb (Nat.add_le_add_left hij index)
  exact ⟨hle hs.stages_at.data ht.stages_at.data hoffsets.data,
    hle hs.stages_at.feature ht.stages_at.feature hoffsets.feature,
    hle hs.stages_at.signal ht.stages_at.signal hoffsets.signal,
    hle hs.stages_at.submission ht.stages_at.submission hoffsets.submission,
    hle hs.stages_at.fill ht.stages_at.fill hoffsets.fill⟩

/-- The model, the backtest and the parser agree on the schedule of every origin. -/
theorem latency_agrees (model : LatencyModel) {calendar : List PyDate}
    (hsorted : calendar.Pairwise (· < ·)) (hlength : calendar.length ≤ maxCalendarSessions)
    {lag : ℕ} (hlag : 1 ≤ lag ∧ lag ≤ maxStageDelaySessions) :
    (∀ origin, (∃ s, model.schedule origin calendar lag = .ok s) ↔
      origin ∈ calendar ∧ (model.offsets lag).fill ≤ maxTotalDelaySessions ∧
        calendar.idxOf origin + (model.offsets lag).fill < calendar.length) ∧
    (∀ origin s, model.schedule origin calendar lag = .ok s →
      s.originSession = origin ∧ s.executionLagSessions = lag ∧
        Stages.Forall₂ (fun offset session =>
          calendar[calendar.idxOf origin + offset]? = some session)
            (model.offsets lag) s.stages ∧
        s.stageSessions.Pairwise (· ≤ ·) ∧
        calendar.idxOf s.stages.submission + lag ≤ calendar.idxOf s.stages.fill) ∧
    (∀ liquidation origins, ∀ s ∈ (backtestSchedules model calendar lag liquidation origins).1,
      s.originSession ∈ origins ∧ model.schedule s.originSession calendar lag = .ok s) ∧
    (∀ origin s, model.schedule origin calendar lag = .ok s →
      LatencySchedule.fromConfig s.toDict calendar = .ok s) ∧
    ∀ slower : LatencyModel, Stages.Forall₂ (· ≤ ·) model.delays slower.delays →
      ∀ origin s t, model.schedule origin calendar lag = .ok s →
        slower.schedule origin calendar lag = .ok t → Stages.Forall₂ (· ≤ ·) s.stages t.stages := by
  have hiff : ∀ (m : LatencyModel) origin s, m.schedule origin calendar lag = .ok s ↔
      (m.offsets lag).fill ≤ maxTotalDelaySessions ∧
        ∃ index, m.Resolves calendar lag origin index s :=
    fun _ _ _ => LatencyModel.schedule_eq_ok_iff hsorted hlength hlag
  have hposition : ∀ {origin : PyDate} {index : ℕ}, calendar[index]? = some origin →
      calendar.idxOf origin = index := idxOf_eq_of_getElem? (nodup_of_sorted hsorted)
  refine ⟨fun origin => ?_, fun origin s hs => ?_, fun liquidation origins s hs =>
    schedule_of_mem_backtestSchedules hsorted hlength hlag hs, fun origin s hs => ?_,
    fun slower hdelays origin s t hs ht => ?_⟩
  · constructor
    · rintro ⟨s, hs⟩
      obtain ⟨htotal, index, hresolves⟩ := (hiff model origin s).mp hs
      rw [hposition hresolves.origin_at]
      exact ⟨List.mem_of_getElem? hresolves.origin_at, htotal, hresolves.fits⟩
    · rintro ⟨hmem, htotal, hfits⟩
      have horigin : calendar[calendar.idxOf origin]? = some origin := by
        rw [List.getElem?_eq_getElem (List.idxOf_lt_length_iff.mpr hmem), List.getElem_idxOf]
      obtain ⟨s, hs⟩ := LatencyModel.exists_resolves model hsorted hlag horigin hfits
      exact ⟨s, (hiff model origin s).mpr ⟨htotal, _, hs⟩⟩
  · obtain ⟨-, index, hresolves⟩ := (hiff model origin s).mp hs
    rw [hposition hresolves.origin_at]
    exact ⟨hresolves.origin_eq, hresolves.lag_eq, hresolves.stages_at, s.monotone,
      idxOf_submission_add_lag_le hsorted hresolves⟩
  · obtain ⟨-, index, hresolves⟩ := (hiff model origin s).mp hs
    exact fromConfig_of_resolves hsorted hlength hresolves
  · obtain ⟨-, index, hresolves⟩ := (hiff model origin s).mp hs
    obtain ⟨-, other, hlater⟩ := (hiff slower origin t).mp ht
    exact stages_mono hsorted hdelays hresolves hlater

end Slower

/-! ## Fixed models -/

/-- Sessions in increasing order, 336 to a year. -/
def nthSession (n : ℕ) : PyDate where
  year := n / 336 % 9999 + 1
  month := n / 28 % 12 + 1
  day := n % 28 + 1
  year_mem := by omega
  month_mem := by omega
  day_mem := by
    have hdays : 28 ≤ daysInMonth (n / 336 % 9999 + 1) (n / 28 % 12 + 1) := by
      unfold daysInMonth
      split_ifs <;> decide
    omega

theorem nthSession_lt {i j : ℕ} (hij : i < j) (hj : j < 336 * 9999) :
    nthSession i < nthSession j := by
  change (nthSession i).key < (nthSession j).key
  simp only [PyDate.key, nthSession, Prod.Lex.toLex_lt_toLex]
  omega

theorem pairwise_nthSession (count : ℕ) (h : count ≤ 336 * 9999) :
    ((List.range count).map nthSession).Pairwise (· < ·) := by
  refine List.pairwise_map.mpr (List.Pairwise.imp_of_mem ?_ List.pairwise_lt_range)
  intro i j _ hj hij
  exact nthSession_lt hij ((List.mem_range.mp hj).trans_le h)

open Platform in
/-- A model without delays. -/
def immediate : LatencyModel where
  dataDelaySessions := 0
  featureDelaySessions := 0
  inferenceDelaySessions := 0
  submissionDelaySessions := 0
  fillDelaySessions := 0
  calibrationProvenance := "none"
  stages_le := by decide
  total_lt := by decide
  provenance_valid := by decide

open Platform in
theorem immediate_schedules :
    ∃ s, immediate.schedule (nthSession 0) ((List.range 2).map nthSession) (1 : ℕ) = .ok s :=
  ((latency_agrees immediate (pairwise_nthSession 2 (by decide)) (by decide)
    (show 1 ≤ 1 ∧ 1 ≤ maxStageDelaySessions by decide)).1 _).mpr
      ⟨by decide, by decide, by decide⟩

open Platform in
/-- A lag of no session, and a calendar of more sessions than the ceiling, are refused though
the fill is on the calendar. -/
theorem refused_schedules :
    (¬ ((∃ s, immediate.schedule (nthSession 0) [nthSession 0] (0 : ℕ) = .ok s) ↔
      nthSession 0 ∈ [nthSession 0] ∧ (immediate.offsets 0).fill ≤ maxTotalDelaySessions ∧
        [nthSession 0].idxOf (nthSession 0) + (immediate.offsets 0).fill <
          [nthSession 0].length)) ∧
    ((List.range 1000001).map nthSession).Pairwise (· < ·) ∧
    ¬ ((∃ s, immediate.schedule (nthSession 0) ((List.range 1000001).map nthSession) (1 : ℕ) =
        .ok s) ↔
      nthSession 0 ∈ (List.range 1000001).map nthSession ∧
        (immediate.offsets 1).fill ≤ maxTotalDelaySessions ∧
          ((List.range 1000001).map nthSession).idxOf (nthSession 0) +
            (immediate.offsets 1).fill < ((List.range 1000001).map nthSession).length) := by
  refine ⟨fun h => ?_, pairwise_nthSession _ (by decide), fun h => ?_⟩
  · obtain ⟨s, hs⟩ := h.mpr ⟨by decide, by decide, by decide⟩
    rw [LatencyModel.schedule, frozenCalendar_eq_ok (List.pairwise_singleton _ _) (by decide)
      (List.cons_ne_nil _ _), ok_bind] at hs
    cases hs
  · have hhead : (List.range 1000001).map nthSession =
        nthSession 0 :: ((List.range 1000000).map Nat.succ).map nthSession := by
      rw [List.range_succ_eq_map, List.map_cons]
    obtain ⟨s, hs⟩ := h.mpr ⟨by rw [hhead]; exact List.mem_cons_self, by decide, by
      rw [hhead, List.idxOf_cons_self, List.length_cons, List.length_map, List.length_map,
        List.length_range]
      decide⟩
    rw [LatencyModel.schedule, frozenCalendar, refuseIf_of (by
      rw [List.length_map, List.length_range]
      decide), error_bind, error_bind] at hs
    cases hs

end SignalFoundry.Latency
