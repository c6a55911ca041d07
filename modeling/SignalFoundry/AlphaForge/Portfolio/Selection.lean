import SignalFoundry.AlphaForge.Portfolio.ExposurePass

/-!
# The names that a projection holds

Clipping, scaling and trimming keep the sign that the target gives to every name, and
so does filling, except that it fills a name at zero on the long side. A name at zero
has no room, unless a long-only book clipped it there.
-/

namespace SignalFoundry.Portfolio

open Fallible

variable {n : ℕ}

/-- A book holds no name against the sign of its target. -/
structure KeepsSelection (target weights : Weights n) : Prop where
  zero : ∀ i, target i = 0 → weights i = 0
  long : ∀ i, 0 < target i → 0 ≤ weights i
  short : ∀ i, target i < 0 → weights i ≤ 0

theorem activeNames_eq_true_iff {target : Weights n} {i : Fin n} :
    activeNames target i = true ↔ target i ≠ 0 := by
  rw [activeNames, decide_eq_true_eq, abs_pos]

/-! ## Clipping and shrinking -/

section Clip

variable {limits : Limits n} (hvalid : limits.Valid) {target weights : Weights n}

theorem KeepsSelection.shrink (h : KeepsSelection target weights) {scale : Fin n → ℚ}
    (hscale : ∀ i, 0 ≤ scale i) : KeepsSelection target fun i => weights i * scale i where
  zero i hi := by rw [h.zero i hi, zero_mul]
  long i hi := mul_nonneg (h.long i hi) (hscale i)
  short i hi := mul_nonpos_of_nonpos_of_nonneg (h.short i hi) (hscale i)

include hvalid

theorem KeepsSelection.clip (h : KeepsSelection target weights) :
    KeepsSelection target (clip weights limits.lower limits.caps) where
  zero i hi := by
    rw [Portfolio.clip, h.zero i hi, max_eq_left (hvalid.lower_nonpos i),
      min_eq_left (hvalid.caps_nonneg i)]
  long i hi := le_min (le_max_of_le_left (h.long i hi)) (hvalid.caps_nonneg i)
  short i hi := (min_le_left _ _).trans (max_le (h.short i hi) (hvalid.lower_nonpos i))

end Clip

theorem KeepsSelection.self (target : Weights n) : KeepsSelection target target :=
  ⟨fun _ h => h, fun _ h => h.le, fun _ h => h.le⟩

/-! ## Filling -/

/-- A name that is wanted short and is at zero has no room. -/
def NoRoomAtZero (limits : Limits n) (target weights : Weights n) : Prop :=
  ∀ i, target i < 0 → weights i = 0 → limits.caps i = 0

/-- No name that is wanted short is clipped to zero with a position cap. -/
def NoClippedShort (limits : Limits n) (target : Weights n) : Prop :=
  ∀ i, target i < 0 → limits.lower i = 0 → limits.caps i = 0

section Fill

variable {limits : Limits n} (hvalid : limits.Valid) {target weights : Weights n}

include hvalid

theorem noRoomAtZero_clip (hshort : NoClippedShort limits target) :
    NoRoomAtZero limits target (clip target limits.lower limits.caps) := by
  intro i hi hzero
  by_contra hcaps
  have hpos : 0 < limits.caps i := lt_of_le_of_ne (hvalid.caps_nonneg i) (Ne.symm hcaps)
  have hlower : limits.lower i < 0 :=
    lt_of_le_of_ne (hvalid.lower_nonpos i) fun h => hcaps (hshort i hi h)
  have hclipped : clip target limits.lower limits.caps i < 0 :=
    (min_le_left _ _).trans_lt (max_lt hi hlower)
  exact hclipped.ne hzero

/-- A round of filling holds no name against its target. -/
theorem keepsSelection_fillRound (hshort : NoClippedShort limits target)
    (hbox : InBox limits weights) (hkeeps : KeepsSelection target weights)
    (hroom : NoRoomAtZero limits target weights) {next : Weights n}
    (hnext : fillRound limits.grossTarget (activeNames target) limits.lower limits.caps weights =
      some next) :
    KeepsSelection target next ∧ NoRoomAtZero limits target next := by
  obtain ⟨hunder, havailable, rfl⟩ := fillRound_eq_some_iff.mp hnext
  have htolerance := constraintTolerance_pos
  have hheadroom := headroom_nonneg hvalid (activeNames target) hbox
  generalize hroomEq : headroom (activeNames target) limits.caps weights = room at *
  have hshare : ∀ i, 0 ≤ room i / net room * min (limits.grossTarget - gross weights) (net room) :=
    fun i => mul_nonneg (div_nonneg (hheadroom i) (by linarith)) (le_min (by linarith) (by linarith))
  have hinactive : ∀ i, target i = 0 → room i = 0 := fun i hi => by
    rw [← hroomEq, headroom, if_neg (by rw [activeNames_eq_true_iff]; exact not_not.mpr hi)]
  have hfull : ∀ i, target i ≠ 0 → limits.caps i = 0 → room i = 0 := fun i hi hcaps => by
    have hweight : |weights i| = 0 :=
      le_antisymm ((hbox.abs_le_caps hvalid i).trans_eq hcaps) (abs_nonneg _)
    rw [← hroomEq, headroom, if_pos (activeNames_eq_true_iff.mpr hi), hcaps, hweight, sub_zero]
  generalize hshares : (fun i => room i / net room *
    min (limits.grossTarget - gross weights) (net room)) = share
  have hshareEq : ∀ i, room i / net room * min (limits.grossTarget - gross weights) (net room) =
      share i := fun i => congrFun hshares i
  simp only [hshareEq] at hshare ⊢
  have hnoShare : ∀ i, room i = 0 → share i = 0 := fun i hi => by
    rw [← hshareEq, hi, zero_div, zero_mul]
  have hgrown : KeepsSelection target
      fun i => weights i + (if weights i < 0 then (-1 : ℚ) else 1) * share i := by
    refine ⟨fun i hi => ?_, fun i hi => ?_, fun i hi => ?_⟩
    · rw [hkeeps.zero i hi, hnoShare i (hinactive i hi), mul_zero, add_zero]
    · have hweight := hkeeps.long i hi
      rw [if_neg hweight.not_gt, one_mul]
      exact add_nonneg hweight (hshare i)
    · rcases (hkeeps.short i hi).lt_or_eq with hlt | hzero
      · rw [if_pos hlt, neg_one_mul]
        linarith [hshare i]
      · rw [hzero, hnoShare i (hfull i hi.ne (hroom i hi hzero)), mul_zero, add_zero]
  refine ⟨hgrown.clip hvalid, fun i hi hzero => ?_⟩
  by_contra hcaps
  have hpos : 0 < limits.caps i := lt_of_le_of_ne (hvalid.caps_nonneg i) (Ne.symm hcaps)
  have hlower : limits.lower i < 0 :=
    lt_of_le_of_ne (hvalid.lower_nonpos i) fun h => hcaps (hshort i hi h)
  have hweight : weights i < 0 :=
    lt_of_le_of_ne (hkeeps.short i hi) fun h => hcaps (hroom i hi h)
  have hclipped : clip (fun i => weights i + (if weights i < 0 then (-1 : ℚ) else 1) * share i)
      limits.lower limits.caps i < 0 := by
    refine (min_le_left _ _).trans_lt (max_lt ?_ hlower)
    beta_reduce
    rw [if_pos hweight, neg_one_mul]
    linarith [hshare i]
  exact hclipped.ne hzero

theorem keepsSelection_fillRounds (hshort : NoClippedShort limits target) (rounds : ℕ)
    (hbox : InBox limits weights) (hkeeps : KeepsSelection target weights)
    (hroom : NoRoomAtZero limits target weights) :
    KeepsSelection target (fillRounds limits.grossTarget (activeNames target) limits.lower
      limits.caps rounds weights) := by
  induction rounds generalizing weights with
  | zero => exact hkeeps
  | succ rounds ih =>
      rw [fillRounds]
      cases hnext : fillRound limits.grossTarget (activeNames target) limits.lower limits.caps
          weights with
      | none => exact hkeeps
      | some next =>
          obtain ⟨hkeepsNext, hroomNext⟩ :=
            keepsSelection_fillRound hvalid hshort hbox hkeeps hroom hnext
          exact ih (fillRound_spec hvalid hbox hnext).1 hkeepsNext hroomNext

/-- A round never takes a name with a cap off the long side. -/
theorem pos_fillRound {active : Fin n → Bool} (hbox : InBox limits weights) {i : Fin n}
    (hcaps : 0 < limits.caps i)
    (hgrows : 0 < weights i ∨ weights i = 0 ∧ active i = true) {next : Weights n}
    (hnext : fillRound limits.grossTarget active limits.lower limits.caps weights = some next) :
    0 < next i := by
  obtain ⟨hunder, havailable, rfl⟩ := fillRound_eq_some_iff.mp hnext
  have htolerance := constraintTolerance_pos
  have hheadroom := headroom_nonneg hvalid active hbox i
  have hmin : 0 < min (limits.grossTarget - gross weights)
      (net (headroom active limits.caps weights)) := lt_min (by linarith) (by linarith)
  have hnet : 0 < net (headroom active limits.caps weights) := by linarith
  refine lt_min (lt_max_of_lt_left ?_) hcaps
  beta_reduce
  rcases hgrows with hpos | ⟨hzero, hactive⟩
  · rw [if_neg hpos.not_gt, one_mul]
    exact add_pos_of_pos_of_nonneg hpos (mul_nonneg (div_nonneg hheadroom hnet.le) hmin.le)
  · have hroom : headroom active limits.caps weights i = limits.caps i := by
      rw [headroom, if_pos hactive, hzero, abs_zero, sub_zero]
    rw [hzero, if_neg (lt_irrefl 0), one_mul, zero_add, hroom]
    exact mul_pos (div_pos hcaps hnet) hmin

theorem pos_fillRounds {active : Fin n → Bool} (rounds : ℕ) (hbox : InBox limits weights)
    {i : Fin n} (hcaps : 0 < limits.caps i) (hpos : 0 < weights i) :
    0 < fillRounds limits.grossTarget active limits.lower limits.caps rounds weights i := by
  induction rounds generalizing weights with
  | zero => exact hpos
  | succ rounds ih =>
      rw [fillRounds]
      cases hnext : fillRound limits.grossTarget active limits.lower limits.caps weights with
      | none => exact hpos
      | some next =>
          exact ih (fillRound_spec hvalid hbox hnext).1
            (pos_fillRound hvalid hbox hcaps (.inl hpos) hnext)

end Fill

/-! ## The first pass -/

section Pass

variable {limits : Limits n} (hvalid : limits.Valid) {target : Weights n}

/-- The clipped target is short of the gross target and the held names have room. -/
structure Underfilled (limits : Limits n) (target : Weights n) : Prop where
  pos : 0 < gross (clip target limits.lower limits.caps)
  under : gross (clip target limits.lower limits.caps) < limits.grossTarget - constraintTolerance
  room : constraintTolerance <
    net (headroom (activeNames target) limits.caps (clip target limits.lower limits.caps))

include hvalid

/-- Without a clipped short name that is filled, the first pass keeps the selection. -/
theorem keepsSelection_exposurePass
    (hfill : ¬ Underfilled limits target ∨ NoClippedShort limits target) :
    KeepsSelection target (exposurePass limits (activeNames target) target) := by
  have hclip := (KeepsSelection.self target).clip hvalid
  have htolerance := constraintTolerance_pos
  obtain ⟨sized, hbox, -, hpass, hsized⟩ := sized_spec hvalid (activeNames target) target
  have hkeeps : KeepsSelection target sized := by
    rw [hsized]
    split
    · next h => exact hclip.shrink fun _ => div_nonneg hvalid.grossTarget_pos.le h.2.le
    · split
      · next h =>
          rcases hfill with hroom | hshort
          · have hbreak : fillRound limits.grossTarget (activeNames target) limits.lower limits.caps
                (clip target limits.lower limits.caps) = none := by
              cases hnext : fillRound limits.grossTarget (activeNames target) limits.lower
                  limits.caps (clip target limits.lower limits.caps) with
              | none => rfl
              | some next =>
                  exact absurd ⟨h.2, h.1, (fillRound_eq_some_iff.mp hnext).2.1⟩ hroom
            rw [fillToTarget, fillRounds, hbreak]
            exact hclip
          · exact keepsSelection_fillRounds hvalid hshort 64 (clip_inBox hvalid target) hclip
              (noRoomAtZero_clip hvalid hshort)
      · exact hclip
  rw [hpass]
  split
  · next hnet =>
      obtain ⟨scale, hscale, hshift, -⟩ := shiftNet_spec hvalid hbox (by linarith)
      rw [hshift]
      exact hkeeps.shrink fun i => (hscale i).1
  · exact hkeeps

/-- A clipped short name is filled on the long side. -/
theorem pos_exposurePass (hunder : Underfilled limits target)
    (hnet : limits.grossTarget ≤ limits.maxNet + constraintTolerance) {i : Fin n}
    (hshort : target i < 0) (hlower : limits.lower i = 0) (hcaps : 0 < limits.caps i) :
    0 < exposurePass limits (activeNames target) target i := by
  have htolerance := constraintTolerance_pos
  have hclipped : clip target limits.lower limits.caps i = 0 := by
    rw [clip, hlower, max_eq_right hshort.le, min_eq_left hcaps.le]
  have hbox := clip_inBox hvalid target
  obtain ⟨sized, -, -, hpass, hsized⟩ := sized_spec hvalid (activeNames target) target
  obtain ⟨next, hnext⟩ : ∃ next, fillRound limits.grossTarget (activeNames target) limits.lower
      limits.caps (clip target limits.lower limits.caps) = some next :=
    ⟨_, fillRound_eq_some_iff.mpr ⟨by linarith [hunder.under], hunder.room, rfl⟩⟩
  have hfilled : sized = fillRounds limits.grossTarget (activeNames target) limits.lower
      limits.caps 63 next := by
    rw [hsized, if_neg fun h => by linarith [h.1, hunder.under],
      if_pos ⟨hunder.under, hunder.pos⟩, fillToTarget, fillRounds, hnext]
  have hpos : 0 < next i := pos_fillRound hvalid hbox hcaps
    (.inr ⟨hclipped, activeNames_eq_true_iff.mpr hshort.ne⟩) hnext
  obtain ⟨hnextBox, hnextGross⟩ := fillRound_spec hvalid hbox hnext
  have hgross := (fillRounds_spec hvalid (activeNames target) 63 hnextBox hnextGross).2
  rw [hpass, if_neg, hfilled]
  · exact pos_fillRounds hvalid 63 hnextBox hcaps hpos
  · rw [hfilled]
    exact not_lt.mpr ((abs_net_le_gross _).trans (hgross.trans hnet))

end Pass

/-! ## The projection -/

section Projection

variable {target : Weights n} {c : PortfolioConstraints}
  {previous liquidityCaps : Option (Weights n)}

/-- An aligned array as an argument of the projection. -/
def asArray (array : Option (Weights n)) : Option (Σ m, Weights m) :=
  array.map fun weights => ⟨n, weights⟩

/-- The smaller of the position and the liquidity cap of a name. -/
def nameCap (c : PortfolioConstraints) (liquidityCaps : Option (Weights n)) (i : Fin n) : ℚ :=
  match liquidityCaps with
  | none => c.maxPosition
  | some liquidity => min c.maxPosition (liquidity i)

theorem alignTo_self (weights : Weights n) : alignTo n ⟨n, weights⟩ = some weights := by
  rw [alignTo, dif_pos rfl]
  rfl

theorem positionCaps_eq_ok [WeightText] {caps : Weights n}
    (h : positionCaps c (asArray liquidityCaps) = .ok caps) :
    caps = nameCap c liquidityCaps ∧ ∀ i, 0 ≤ caps i := by
  cases liquidityCaps with
  | none =>
      cases h
      exact ⟨rfl, fun _ => c.positive.1.le⟩
  | some liquidity =>
      unfold positionCaps at h
      simp only [asArray, Option.map_some, alignTo_self] at h
      obtain ⟨_, hnonneg, h⟩ := bind_eq_ok_iff.mp h
      cases h
      refine ⟨rfl, fun i => le_min c.positive.1.le ?_⟩
      exact not_lt.mp fun hneg => refuseIf_eq_ok_iff.mp hnonneg ⟨i, hneg⟩

/-- The turnover limit applies when there is one and a previous book. -/
theorem turnoverLimit_eq_ok [WeightText] {turnover : Option (ℚ × Weights n)}
    (h : turnoverLimit c (asArray previous) = .ok turnover) :
    (turnover = none ↔ c.maxTurnover = none ∨ previous = none) ∧
      ∀ cap start, turnover = some (cap, start) ↔
        c.maxTurnover = some cap ∧ previous = some start := by
  unfold turnoverLimit at h
  cases hbudget : c.maxTurnover with
  | none =>
      simp only [hbudget] at h
      cases h
      simp
  | some budget =>
      cases previous with
      | none =>
          simp only [hbudget, asArray, Option.map_none] at h
          cases h
          simp
      | some start =>
          simp only [hbudget, asArray, Option.map_some, alignTo_self] at h
          obtain ⟨_, -, h⟩ := bind_eq_ok_iff.mp h
          cases h
          simp

/-- What the limits of a projection are. -/
structure LimitsOf (c : PortfolioConstraints) (previous liquidityCaps : Option (Weights n))
    (limits : Limits n) : Prop where
  valid : limits.Valid
  caps_eq : limits.caps = nameCap c liquidityCaps
  lower_eq : ∀ i, limits.lower i = if c.longOnly then 0 else -limits.caps i
  maxNet_eq : limits.maxNet = c.maxNet
  grossTarget_eq : limits.grossTarget = c.grossTarget
  turnover_eq_none : limits.turnover = none ↔ c.maxTurnover = none ∨ previous = none
  turnover_eq_some : ∀ cap start, limits.turnover = some (cap, start) ↔
    c.maxTurnover = some cap ∧ previous = some start
  net_of_longOnly : c.longOnly = true →
    limits.grossTarget ≤ limits.maxNet + constraintTolerance

theorem grossTarget_pos (c : PortfolioConstraints) : 0 < c.grossTarget :=
  lt_min (lt_min c.positive.2.1 (sub_pos.mpr c.cashBuffer_mem.2)) c.positive.2.2

theorem limitsOf_projectionLimits [WeightText] {limits : Limits n}
    (h : projectionLimits c (asArray previous) (asArray liquidityCaps) = .ok limits) :
    LimitsOf c previous liquidityCaps limits := by
  obtain ⟨_, hfeasible, h⟩ := bind_eq_ok_iff.mp h
  obtain ⟨caps, hcaps, h⟩ := bind_eq_ok_iff.mp h
  obtain ⟨turnover, hturnover, h⟩ := bind_eq_ok_iff.mp h
  cases h
  obtain ⟨hcapsEq, hnonneg⟩ := positionCaps_eq_ok hcaps
  obtain ⟨hnone, hsome⟩ := turnoverLimit_eq_ok hturnover
  refine ⟨⟨hnonneg, ?_, c.maxNet_nonneg, grossTarget_pos c⟩, hcapsEq, fun _ => rfl, rfl, rfl, hnone,
    hsome, fun hlong => ?_⟩
  · cases hlong : c.longOnly with
    | false => exact .inr fun i => by simp
    | true => exact .inl fun i => by simp
  · obtain ⟨_, -, hfeasible⟩ := bind_eq_ok_iff.mp hfeasible
    obtain ⟨_, -, hfeasible⟩ := bind_eq_ok_iff.mp hfeasible
    obtain ⟨_, -, hfeasible⟩ := bind_eq_ok_iff.mp hfeasible
    obtain ⟨_, -, hfeasible⟩ := bind_eq_ok_iff.mp hfeasible
    have hnet := not_lt.mp fun hlt => refuseIf_eq_ok_iff.mp hfeasible ⟨hlong, hlt⟩
    exact (min_le_left _ _).trans hnet

theorem projectToFeasible_eq_ok_iff [WeightText] {result : Weights n} :
    projectToFeasible target c (asArray previous) (asArray liquidityCaps) = .ok result ↔
      ∃ limits, projectionLimits c (asArray previous) (asArray liquidityCaps) = .ok limits ∧
        iterate limits (activeNames target) maxProjectionIterations target = some result := by
  rw [projectToFeasible, bind_eq_ok_iff]
  refine exists_congr fun limits => and_congr_right fun _ => ?_
  cases iterate limits (activeNames target) maxProjectionIterations target with
  | none => simp
  | some weights => simp

/-- A book obeys the limits of its constraints, up to the tolerance. -/
structure KeepsLimits (c : PortfolioConstraints) (previous liquidityCaps : Option (Weights n))
    (weights : Weights n) : Prop where
  position : ∀ i, |weights i| ≤ nameCap c liquidityCaps i + constraintTolerance
  longOnly : c.longOnly = true → ∀ i, -constraintTolerance ≤ weights i
  gross_le : gross weights ≤
    min (min c.maxGross (1 - c.cashBuffer)) c.maxLeverage + constraintTolerance
  net_le : |net weights| ≤ c.maxNet + constraintTolerance
  turnover : ∀ cap ∈ c.maxTurnover, ∀ start ∈ previous,
    (gross fun i => weights i - start i) ≤ cap + constraintTolerance

theorem keepsLimits_of_satisfied {limits : Limits n}
    (hlimits : LimitsOf c previous liquidityCaps limits) {weights : Weights n}
    (h : satisfied limits weights = true) : KeepsLimits c previous liquidityCaps weights := by
  obtain ⟨hexposure, hturnover⟩ := satisfied_iff.mp h
  refine ⟨fun i => ?_, fun hlong i => ?_, ?_, ?_, fun cap hcap start hstart => ?_⟩
  · have hlower := hexposure.lower_le i
    have hcaps := hexposure.le_caps i
    have hneg := hlimits.valid.neg_caps_le i
    rw [← hlimits.caps_eq, abs_le]
    constructor <;> linarith
  · have hlower := hexposure.lower_le i
    rw [hlimits.lower_eq, if_pos hlong, zero_sub] at hlower
    exact hlower
  · have hgross := hexposure.gross_le
    rwa [hlimits.grossTarget_eq] at hgross
  · have hnet := hexposure.net_le
    rwa [hlimits.maxNet_eq] at hnet
  · exact hturnover (cap, start) ((hlimits.turnover_eq_some cap start).mpr ⟨hcap, hstart⟩)

/-- A long-only projection fills a name that the target holds short: the name has a cap, and
the book that is left of the target is not empty, short of its gross target, and has room. -/
structure FillsShort (target : Weights n) (c : PortfolioConstraints)
    (liquidityCaps : Option (Weights n)) : Prop where
  longOnly : c.longOnly = true
  short : ∃ i, target i < 0 ∧ 0 < nameCap c liquidityCaps i
  pos : 0 < ∑ i, min (max (target i) 0) (nameCap c liquidityCaps i)
  under : ∑ i, min (max (target i) 0) (nameCap c liquidityCaps i) <
    c.grossTarget - constraintTolerance
  room : constraintTolerance < ∑ i, if target i ≠ 0 then
    nameCap c liquidityCaps i - min (max (target i) 0) (nameCap c liquidityCaps i) else 0

theorem fillsShort_iff {limits : Limits n} (hlimits : LimitsOf c previous liquidityCaps limits) :
    FillsShort target c liquidityCaps ↔ c.longOnly = true ∧
      (∃ i, target i < 0 ∧ limits.lower i = 0 ∧ 0 < limits.caps i) ∧
        Underfilled limits target := by
  by_cases hlong : c.longOnly = true
  · have hlower : ∀ i, limits.lower i = 0 := fun i => by rw [hlimits.lower_eq, if_pos hlong]
    have hclip : ∀ i, |clip target limits.lower limits.caps i| =
        min (max (target i) 0) (nameCap c liquidityCaps i) := fun i => by
      rw [clip, hlower, ← hlimits.caps_eq,
        abs_of_nonneg (le_min (le_max_right _ _) (hlimits.valid.caps_nonneg i))]
    have hgross : gross (clip target limits.lower limits.caps) =
        ∑ i, min (max (target i) 0) (nameCap c liquidityCaps i) :=
      Finset.sum_congr rfl fun i _ => hclip i
    have hroom : net (headroom (activeNames target) limits.caps
        (clip target limits.lower limits.caps)) = ∑ i, if target i ≠ 0 then
          nameCap c liquidityCaps i - min (max (target i) 0) (nameCap c liquidityCaps i)
            else 0 := by
      refine Finset.sum_congr rfl fun i _ => ?_
      rw [headroom, hclip, hlimits.caps_eq]
      exact if_congr activeNames_eq_true_iff rfl rfl
    constructor
    · intro h
      obtain ⟨i, hi, hcaps⟩ := h.short
      rw [← hlimits.caps_eq] at hcaps
      refine ⟨hlong, ⟨i, hi, hlower i, hcaps⟩, ?_, ?_, ?_⟩
      · rw [hgross]
        exact h.pos
      · rw [hgross, hlimits.grossTarget_eq]
        exact h.under
      · rw [hroom]
        exact h.room
    · rintro ⟨-, ⟨i, hi, -, hcaps⟩, hunder⟩
      rw [hlimits.caps_eq] at hcaps
      have hpos := hunder.pos
      have hless := hunder.under
      have hheadroom := hunder.room
      rw [hgross] at hpos hless
      rw [hlimits.grossTarget_eq] at hless
      rw [hroom] at hheadroom
      exact ⟨hlong, ⟨i, hi, hcaps⟩, hpos, hless, hheadroom⟩
  · exact iff_of_false (fun h => hlong h.longOnly) fun h => hlong h.1

/-- The projection keeps the limits, and without a turnover limit the selection, unless it
fills a name that the target holds short. -/
theorem projection_keeps_book_iff [WeightText] {target : Weights n} {c : PortfolioConstraints}
    {previous liquidityCaps : Option (Weights n)} {weights : Weights n}
    (h : projectToFeasible target c (asArray previous) (asArray liquidityCaps) = .ok weights) :
    (KeepsLimits c previous liquidityCaps weights ∧
      (c.maxTurnover = none ∨ previous = none → KeepsSelection target weights)) ↔
      ¬ ((c.maxTurnover = none ∨ previous = none) ∧ FillsShort target c liquidityCaps) := by
  obtain ⟨limits, hlimitsEq, hiterate⟩ := projectToFeasible_eq_ok_iff.mp h
  have hlimits := limitsOf_projectionLimits hlimitsEq
  have hkeeps := keepsLimits_of_satisfied hlimits (satisfied_of_iterate hiterate)
  rw [and_iff_right hkeeps, not_and]
  refine imp_congr_right fun happlies => ?_
  have hnone := hlimits.turnover_eq_none.mpr happlies
  rw [iterate_of_no_turnover hlimits.valid hnone] at hiterate
  cases hiterate
  rw [fillsShort_iff hlimits]
  constructor
  · rintro hselection ⟨hlong, ⟨i, hi, hlower, hcaps⟩, hunder⟩
    exact (hselection.short i hi).not_gt
      (pos_exposurePass hlimits.valid hunder (hlimits.net_of_longOnly hlong) hi hlower hcaps)
  · intro hfill
    refine keepsSelection_exposurePass hlimits.valid ?_
    by_cases hunder : Underfilled limits target
    · refine .inr fun i hi hlower => ?_
      by_contra hcaps
      have hpos : 0 < limits.caps i :=
        lt_of_le_of_ne (hlimits.valid.caps_nonneg i) (Ne.symm hcaps)
      cases hlong : c.longOnly with
      | true => exact hfill ⟨hlong, ⟨i, hi, hlower, hpos⟩, hunder⟩
      | false =>
          rw [hlimits.lower_eq, hlong] at hlower
          exact hcaps (neg_eq_zero.mp hlower)
    · exact .inl hunder

end Projection

/-! ## Fixed books -/

/-- Every weight is written in the same way. -/
@[reducible] def plainText : WeightText := ⟨fun q => toString q, fun q => toString q⟩

theorem no_buffer_mem : (0 : ℚ) ≤ 0 ∧ (0 : ℚ) < 1 := by norm_num

/-- A fully invested book of two names. -/
def twoNames (longOnly : Bool) : PortfolioConstraints where
  maxPosition := 1
  longOnly := longOnly
  positive := by norm_num
  maxNet_nonneg := by norm_num
  maxTurnover_nonneg := by simp
  cashBuffer_mem := no_buffer_mem
  maxNet_le := by norm_num
  maxGross_le := by norm_num
  maxPosition_le := by decide +kernel

theorem eq_ok_of_toOption {ε α : Type} {x : Except ε α} {a : α} (h : x.toOption = some a) :
    x = .ok a := by
  cases x with
  | error e => cases h
  | ok b => exact congrArg Except.ok (Option.some.inj h)

theorem short_is_kept :
    @projectToFeasible 2 plainText ![1 / 2, -1 / 2] (twoNames false) none none =
        .ok ![1 / 2, -1 / 2] ∧
      KeepsLimits (twoNames false) none none ![1 / 2, -1 / 2] ∧
        KeepsSelection ![1 / 2, -1 / 2] ![1 / 2, -1 / 2] := by
  have hprojected : @projectToFeasible 2 plainText ![1 / 2, -1 / 2] (twoNames false) none none =
      .ok ![1 / 2, -1 / 2] := eq_ok_of_toOption (by decide +kernel)
  obtain ⟨hlimits, hselection⟩ := (@projection_keeps_book_iff 2 plainText ![1 / 2, -1 / 2]
    (twoNames false) none none _ hprojected).mpr fun h => Bool.false_ne_true h.2.longOnly
  exact ⟨hprojected, hlimits, hselection (.inl rfl)⟩

/-- The second name is wanted short and is held long. -/
theorem short_held_long :
    @projectToFeasible 2 plainText ![1 / 2, -1 / 2] (twoNames true) none none =
        .ok ![2 / 3, 1 / 3] ∧
      ¬ KeepsSelection ![1 / 2, -1 / 2] ![2 / 3, 1 / 3] := by
  refine ⟨eq_ok_of_toOption (by decide +kernel), fun h => ?_⟩
  have hshort := h.short 1 (by norm_num)
  norm_num at hshort

end SignalFoundry.Portfolio
