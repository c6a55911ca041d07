import SignalFoundry.AlphaForge.Portfolio.CappedBooks

/-!
# Limits of constructed portfolios

One day keeps the limits of the book before it, or cuts a leaver; every run that cuts none
obeys its limits.
-/

namespace SignalFoundry.Construction

/-! ## A day -/

section Days

variable {Date Symbol : Type} [LinearOrder Date] [LinearOrder Symbol] (cfg : PortfolioSettings)

omit [LinearOrder Date] [LinearOrder Symbol] in
theorem length_scores (rows : List (FrameRow Date Symbol)) :
    (cfg.scores rows).length = rows.length := by
  rw [PortfolioSettings.scores]
  dsimp only
  split_ifs
  · simp
  · simp
  · simp
  · simp

omit [LinearOrder Date] [LinearOrder Symbol] in
theorem length_target (rows : List (FrameRow Date Symbol)) : (rows.map (·.symbol)).length =
    (cfg.limits.applyCaps (normalizeScores (cfg.scores rows) cfg.maxGross)).length := by
  rw [Limits.length_applyCaps, length_normalizeScores, length_scores, List.length_map]

omit [LinearOrder Date] [LinearOrder Symbol] in
theorem symbols_target (rows : List (FrameRow Date Symbol)) :
    (cfg.target rows).symbols = rows.map (·.symbol) :=
  List.map_fst_zip (length_target cfg rows).le

variable {cfg} (hlimits : cfg.limits.Nonneg)

omit [LinearOrder Date] [LinearOrder Symbol] in
include hlimits in
theorem target_within (rows : List (FrameRow Date Symbol)) :
    cfg.limits.Within (cfg.target rows) :=
  .of_bounds (Limits.applyCaps_bounds hlimits _) (length_target cfg rows)

/-- What the turnover cap of a day can do. -/
theorem capTurnover_cases (prev weights : Book Symbol) :
    (cfg.capTurnover prev weights = weights ∧ ∀ cap, cfg.turnoverCap = some cap → 0 < cap →
        prev = [] ∨ prev.turnover weights ≤ cap) ∨
      ∃ cap, cfg.turnoverCap = some cap ∧ 0 < cap ∧ cap < prev.turnover weights ∧
        cfg.capTurnover prev weights = blend prev weights (cap / prev.turnover weights) := by
  rw [PortfolioSettings.capTurnover]
  cases hcap : cfg.turnoverCap with
  | none => exact .inl ⟨rfl, fun cap h => by cases h⟩
  | some cap =>
      dsimp only
      split
      · rename_i hempty
        exact .inl ⟨rfl, fun _ _ _ => .inl (List.isEmpty_iff.mp hempty)⟩
      · split
        · rename_i hbinds
          exact .inr ⟨cap, rfl, hbinds.2, hbinds.1, rfl⟩
        · rename_i hloose
          refine .inl ⟨rfl, fun other hother hpos => .inr ?_⟩
          cases hother
          exact not_lt.mp fun hlt => hloose ⟨hlt, hpos⟩

omit [LinearOrder Date] in
theorem symbols_step (prev : Book Symbol) (rows : List (FrameRow Date Symbol)) :
    (cfg.step prev rows).symbols = rows.map (·.symbol) := by
  rw [PortfolioSettings.step, ← symbols_target cfg rows]
  rcases capTurnover_cases prev (cfg.target rows) with ⟨heq, -⟩ | ⟨cap, -, -, -, heq⟩
  · rw [heq]
  · rw [heq, symbols_blend]

omit [LinearOrder Date] in
include hlimits in
/-- A day keeps the limits of the day before. -/
theorem step_within {prev : Book Symbol} {rows : List (FrameRow Date Symbol)}
    (hrows : (rows.map (·.symbol)).Nodup) (hprev : prev.symbols.Nodup)
    (hwithin : cfg.limits.Within prev) (hkeep : ¬cfg.CutsLeavers prev (cfg.target rows)) :
    cfg.limits.Within (cfg.step prev rows) := by
  have htarget := target_within hlimits rows
  rw [PortfolioSettings.step]
  rcases capTurnover_cases prev (cfg.target rows) with ⟨heq, -⟩ | ⟨cap, hcap, hpos, hlt, heq⟩
  · rwa [heq]
  · rw [heq]
    have hturnover := hpos.trans hlt
    refine hwithin.blend hprev (by rwa [symbols_target]) htarget hlimits.maxWeight
      (fun symbol hmem => ?_) (div_nonneg hpos.le hturnover.le)
      ((div_le_one hturnover).mpr hlt.le)
    by_contra hne
    exact hkeep ⟨cap, hcap, hpos, hlt, symbol, hmem, hne⟩

omit [LinearOrder Date] in
/-- The turnover of a day is within its cap exactly when no leaver is cut. -/
theorem step_turnover_le_iff {prev : Book Symbol} (hne : prev ≠ [])
    {rows : List (FrameRow Date Symbol)} (hrows : (rows.map (·.symbol)).Nodup) :
    (∀ cap, cfg.turnoverCap = some cap → 0 < cap → prev.turnover (cfg.step prev rows) ≤ cap) ↔
      ¬cfg.CutsLeavers prev (cfg.target rows) := by
  rw [PortfolioSettings.step]
  rcases capTurnover_cases prev (cfg.target rows) with ⟨heq, hle⟩ | ⟨cap, hcap, hpos, hlt, heq⟩
  · rw [heq]
    refine iff_of_true (fun cap hcap hpos => (hle cap hcap hpos).resolve_left hne) ?_
    rintro ⟨cap, hcap, hpos, hlt, -⟩
    exact ((hle cap hcap hpos).resolve_left hne).not_gt hlt
  · have hturnover := hpos.trans hlt
    have hfactor : 0 < 1 - cap / prev.turnover (cfg.target rows) :=
      sub_pos.mpr ((div_lt_one hturnover).mpr hlt)
    have hblend : prev.turnover (blend prev (cfg.target rows) _) = _ :=
      turnover_blend (by rwa [symbols_target]) (div_nonneg hpos.le hturnover.le)
    rw [mul_div_cancel₀ _ hturnover.ne'] at hblend
    rw [heq, hblend]
    constructor
    · rintro hle ⟨-, -, -, -, hleave⟩
      have hpositive := mul_pos (leaving_pos_iff.mpr hleave) hfactor
      have hcap' := hle cap hcap hpos
      linarith
    · intro hkeep other hother _
      rw [hcap] at hother
      cases hother
      have hzero : leaving prev (cfg.target rows) = 0 := by
        refine le_antisymm (not_lt.mp fun hleave => hkeep ?_) (leaving_nonneg _ _)
        exact ⟨cap, hcap, hpos, hlt, leaving_pos_iff.mp hleave⟩
      rw [hzero, zero_mul, add_zero]

end Days

/-! ## A run of days -/

namespace Book

variable {Symbol : Type} [DecidableEq Symbol] {book other prev next prev' next' : Book Symbol}

theorem weightOf_perm (hnodup : book.symbols.Nodup) (h : book.Perm other) (symbol : Symbol) :
    book.weightOf symbol = other.weightOf symbol := by
  have hnodup' : other.symbols.Nodup := (h.map Prod.fst).nodup_iff.mp hnodup
  by_cases hmem : symbol ∈ book.symbols
  · obtain ⟨w, hw, rfl⟩ := List.mem_map.mp hmem
    rw [weightOf_of_mem hnodup hw, weightOf_of_mem hnodup' (h.mem_iff.mp hw)]
  · have hmem' : symbol ∉ other.symbols := fun h' => hmem ((h.map Prod.fst).mem_iff.mpr h')
    rw [weightOf_of_notMem hmem, weightOf_of_notMem hmem']

theorem turnover_perm (hprev : prev.symbols.Nodup) (hnext : next.symbols.Nodup)
    (hp : prev.Perm prev') (hn : next.Perm next') :
    prev.turnover next = prev'.turnover next' := by
  rw [turnover_eq hnext (mem_allSymbols_left prev next) (mem_allSymbols_right prev next),
    turnover_eq ((hn.map Prod.fst).nodup_iff.mp hnext)
      (fun symbol h => mem_allSymbols_left prev next symbol ((hp.map Prod.fst).mem_iff.mpr h))
      (fun symbol h => mem_allSymbols_right prev next symbol ((hn.map Prod.fst).mem_iff.mpr h))]
  exact Finset.sum_congr rfl fun symbol _ => by
    rw [weightOf_perm hprev hp, weightOf_perm hnext hn]

end Book

theorem Limits.Within.of_perm {Symbol : Type} {limits : Limits} {book other : Book Symbol}
    (hwithin : limits.Within book) (h : book.Perm other) : limits.Within other where
  weight := fun w hw => hwithin.weight w (h.mem_iff.mpr hw)
  gross := by
    rw [Book.gross, ← (h.map fun w => |w.2|).sum_eq]
    exact hwithin.gross
  net := by
    rw [Book.net, ← (h.map Prod.snd).sum_eq]
    exact hwithin.net

section Runs

variable {Date Symbol : Type} [LinearOrder Date] [LinearOrder Symbol] {cfg : PortfolioSettings}

/-- The days of a run, in order, none empty and none with a symbol twice. -/
structure WellFormedDays (days : List (Date × List (FrameRow Date Symbol))) : Prop where
  sorted : days.Pairwise fun day next => day.1 < next.1
  ne_nil : ∀ day ∈ days, day.2 ≠ []
  nodup : ∀ day ∈ days, (day.2.map (·.symbol)).Nodup

omit [LinearOrder Symbol] in
theorem bookOf_append (first second : List (TargetRow Date Symbol)) (date : Date) :
    bookOf (first ++ second) date = bookOf first date ++ bookOf second date := by
  rw [bookOf, List.filter_append, List.map_append]
  rfl

omit [LinearOrder Symbol] in
theorem bookOf_block (book : Book Symbol) (date : Date) :
    bookOf (book.map fun w => (⟨date, w.1, w.2⟩ : TargetRow Date Symbol)) date = book := by
  rw [bookOf, List.filter_eq_self.mpr, List.map_map]
  · exact List.map_id _
  · intro row hrow
    obtain ⟨w, -, rfl⟩ := List.mem_map.mp hrow
    exact decide_eq_true rfl

omit [LinearOrder Symbol] in
theorem bookOf_eq_nil {rows : List (TargetRow Date Symbol)} {date : Date}
    (h : ∀ row ∈ rows, row.date ≠ date) : bookOf rows date = [] := by
  rw [bookOf, List.filter_eq_nil_iff.mpr fun row hrow => by simpa using h row hrow]
  rfl

omit [LinearOrder Symbol] in
theorem bookOf_perm {rows others : List (TargetRow Date Symbol)} (h : rows.Perm others)
    (date : Date) : (bookOf rows date).Perm (bookOf others date) :=
  (h.filter _).map _

omit [LinearOrder Date] in
theorem date_mem_of_mem_blocksFrom {prev : Book Symbol}
    {days : List (Date × List (FrameRow Date Symbol))} {row : TargetRow Date Symbol}
    (h : row ∈ cfg.blocksFrom prev days) : row.date ∈ days.map Prod.fst := by
  induction days generalizing prev with
  | nil => cases h
  | cons day days ih =>
      rcases List.mem_append.mp h with hblock | hrest
      · obtain ⟨w, -, rfl⟩ := List.mem_map.mp hblock
        exact List.mem_cons_self
      · exact List.mem_cons_of_mem _ (ih hrest)

omit [LinearOrder Date] in
theorem blocksFrom_append (prev : Book Symbol)
    (before after : List (Date × List (FrameRow Date Symbol))) :
    cfg.blocksFrom prev (before ++ after) = cfg.blocksFrom prev before ++
      cfg.blocksFrom (before.foldl (fun prev day => cfg.step prev day.2) prev) after := by
  induction before generalizing prev with
  | nil => rfl
  | cons day before ih =>
      rw [List.cons_append, PortfolioSettings.blocksFrom, ih, PortfolioSettings.blocksFrom,
        List.append_assoc, List.foldl_cons]

omit [LinearOrder Date] in
theorem bookAfter_concat (before : List (Date × List (FrameRow Date Symbol)))
    (day : Date × List (FrameRow Date Symbol)) :
    cfg.bookAfter (before ++ [day]) = cfg.step (cfg.bookAfter before) day.2 := by
  rw [PortfolioSettings.bookAfter, List.foldl_append]
  rfl

variable (cfg) in
omit [LinearOrder Date] in
theorem symbols_bookAfter_concat (before : List (Date × List (FrameRow Date Symbol)))
    (day : Date × List (FrameRow Date Symbol)) :
    (cfg.bookAfter (before ++ [day])).symbols = day.2.map (·.symbol) := by
  rw [bookAfter_concat, symbols_step]

variable (cfg) in
/-- The book of a day is what the loop had after it. -/
theorem bookOf_blocksFrom {before after : List (Date × List (FrameRow Date Symbol))}
    {day : Date × List (FrameRow Date Symbol)} (hdays : WellFormedDays (before ++ day :: after)) :
    bookOf (cfg.blocksFrom [] (before ++ day :: after)) day.1 =
      cfg.bookAfter (before ++ [day]) := by
  obtain ⟨-, hafter, hbefore⟩ := List.pairwise_append.mp hdays.sorted
  have hnext := (List.pairwise_cons.mp hafter).1
  have hearlier : bookOf (cfg.blocksFrom [] before) day.1 = [] := bookOf_eq_nil fun row hrow => by
    obtain ⟨other, hother, hdate⟩ := List.mem_map.mp (date_mem_of_mem_blocksFrom hrow)
    rw [← hdate]
    exact (hbefore other hother day List.mem_cons_self).ne
  have hlater : ∀ book, bookOf (cfg.blocksFrom book after) day.1 = [] := fun book =>
    bookOf_eq_nil fun row hrow => by
      obtain ⟨other, hother, hdate⟩ := List.mem_map.mp (date_mem_of_mem_blocksFrom hrow)
      rw [← hdate]
      exact (hnext other hother).ne'
  rw [blocksFrom_append, bookOf_append, hearlier, List.nil_append, PortfolioSettings.blocksFrom,
    bookOf_append, bookOf_block, hlater, List.append_nil, bookAfter_concat]
  rfl

variable (cfg) in
theorem bookOf_result {before after : List (Date × List (FrameRow Date Symbol))}
    {day : Date × List (FrameRow Date Symbol)} (hdays : WellFormedDays (before ++ day :: after)) :
    (cfg.bookAfter (before ++ [day])).Perm (bookOf ((cfg.blocksFrom [] (before ++ day :: after)
      ).insertionSort rowOrder) day.1) := by
  rw [← bookOf_blocksFrom cfg hdays]
  exact bookOf_perm (List.perm_insertionSort _ _).symm _

variable (cfg) in
/-- The dates of a result are the dates of its days. -/
theorem date_mem_result_iff {days : List (Date × List (FrameRow Date Symbol))}
    (hdays : WellFormedDays days) {date : Date} :
    date ∈ ((cfg.blocksFrom [] days).insertionSort rowOrder).map (·.date) ↔
      ∃ before day after, days = before ++ day :: after ∧ day.1 = date := by
  have hmem : date ∈ ((cfg.blocksFrom [] days).insertionSort rowOrder).map (·.date) ↔
      date ∈ (cfg.blocksFrom [] days).map (·.date) :=
    ((List.perm_insertionSort _ _).map _).mem_iff
  rw [hmem]
  constructor
  · intro h
    obtain ⟨row, hrow, rfl⟩ := List.mem_map.mp h
    obtain ⟨day, hday, hdate⟩ := List.mem_map.mp (date_mem_of_mem_blocksFrom hrow)
    obtain ⟨before, after, rfl⟩ := List.append_of_mem hday
    exact ⟨before, day, after, rfl, hdate⟩
  · rintro ⟨before, day, after, rfl, rfl⟩
    have hbook := bookOf_blocksFrom cfg hdays
    by_contra hnone
    rw [bookOf_eq_nil fun row hrow hdate => hnone (List.mem_map.mpr ⟨row, hrow, hdate⟩)] at hbook
    have hsymbols := symbols_bookAfter_concat cfg before day
    rw [← hbook] at hsymbols
    exact hdays.ne_nil day (by simp) (List.map_eq_nil_iff.mp hsymbols.symm)

variable (cfg) in
/-- Consecutive dates are those of consecutive days. -/
theorem consecutiveDates_iff {days : List (Date × List (FrameRow Date Symbol))}
    (hdays : WellFormedDays days) {date next : Date} :
    ConsecutiveDates ((cfg.blocksFrom [] days).insertionSort rowOrder) date next ↔
      ∃ before day following after, days = before ++ day :: following :: after ∧
        day.1 = date ∧ following.1 = next := by
  constructor
  · rintro ⟨hdate, hnext, hlt, hbetween⟩
    obtain ⟨before, day, rest, rfl, rfl⟩ := (date_mem_result_iff cfg hdays).mp hdate
    obtain ⟨-, hafter, hbefore⟩ := List.pairwise_append.mp hdays.sorted
    obtain ⟨other, hother, rfl⟩ : ∃ other ∈ before ++ day :: rest, other.1 = next := by
      obtain ⟨front, other, back, heq, hother⟩ := (date_mem_result_iff cfg hdays).mp hnext
      exact ⟨other, by simp [heq], hother⟩
    rcases List.mem_append.mp hother with hearly | hlate
    · exact absurd (hbefore other hearly day List.mem_cons_self) hlt.not_gt
    · rcases List.mem_cons.mp hlate with rfl | hrest
      · exact absurd hlt (lt_irrefl _)
      · cases rest with
        | nil => cases hrest
        | cons following after =>
            refine ⟨before, day, following, after, rfl, rfl, ?_⟩
            rcases List.mem_cons.mp hrest with rfl | hlater
            · rfl
            · have hfirst := (List.pairwise_cons.mp hafter).1 following List.mem_cons_self
              have hsecond := (List.pairwise_cons.mp (List.pairwise_cons.mp hafter).2).1 other hlater
              obtain ⟨row, hrow, hdate⟩ := List.mem_map.mp ((date_mem_result_iff cfg
                hdays).mpr ⟨before ++ [day], following, after, by simp, rfl⟩)
              exact absurd ⟨hdate ▸ hfirst, hdate ▸ hsecond⟩ (hbetween row hrow)
  · rintro ⟨before, day, following, after, rfl, rfl, rfl⟩
    obtain ⟨-, hafter, hbefore⟩ := List.pairwise_append.mp hdays.sorted
    have hfirst := List.pairwise_cons.mp hafter
    have hsecond := List.pairwise_cons.mp hfirst.2
    refine ⟨(date_mem_result_iff cfg hdays).mpr ⟨before, day, _, rfl, rfl⟩,
      (date_mem_result_iff cfg hdays).mpr ⟨before ++ [day], following, after, by simp, rfl⟩,
      hfirst.1 following List.mem_cons_self, ?_⟩
    rintro row hrow ⟨hlower, hupper⟩
    have hdate := (date_mem_result_iff cfg hdays).mp (List.mem_map.mpr ⟨row, hrow, rfl⟩)
    obtain ⟨other, hother, heq⟩ : ∃ other ∈ before ++ day :: following :: after,
        other.1 = row.date := by
      obtain ⟨front, other, back, heq, hother⟩ := hdate
      exact ⟨other, by simp [heq], hother⟩
    rw [← heq] at hlower hupper
    rcases List.mem_append.mp hother with hearly | hlate
    · exact (hbefore other hearly day List.mem_cons_self).not_gt hlower
    · rcases List.mem_cons.mp hlate with rfl | hrest
      · exact lt_irrefl _ hlower
      · rcases List.mem_cons.mp hrest with rfl | hlater
        · exact lt_irrefl _ hupper
        · exact (hsecond.1 other hlater).not_gt hupper

omit [LinearOrder Date] in
/-- Every book of a run is within the limits, when no day cuts a leaver. -/
theorem bookAfter_within (hlimits : cfg.limits.Nonneg)
    {days : List (Date × List (FrameRow Date Symbol))}
    (hnodup : ∀ day ∈ days, (day.2.map (·.symbol)).Nodup)
    (hkeep : ∀ before day after, days = before ++ day :: after →
      ¬cfg.CutsLeavers (cfg.bookAfter before) (cfg.target day.2)) :
    (cfg.bookAfter days).symbols.Nodup ∧ cfg.limits.Within (cfg.bookAfter days) := by
  induction days using List.reverseRecOn with
  | nil =>
      refine ⟨List.nodup_nil, ⟨fun w hw => ?_, hlimits.maxGross, ?_⟩⟩
      · cases hw
      · exact abs_zero.trans_le hlimits.maxNet
  | append_singleton days day ih =>
      have hday := hnodup day (by simp)
      obtain ⟨hprev, hwithin⟩ := ih (fun other hother => hnodup other (by simp [hother]))
        fun before other after heq => hkeep before other (after ++ [day]) (by simp [heq])
      refine ⟨by rwa [symbols_bookAfter_concat cfg], ?_⟩
      rw [bookAfter_concat]
      exact step_within hlimits hday hprev hwithin (hkeep days day [] rfl)

/-- A run obeys its limits exactly when no day cuts a leaver. -/
theorem obeyed_iff (hlimits : cfg.limits.Nonneg)
    {days : List (Date × List (FrameRow Date Symbol))} (hdays : WellFormedDays days) :
    cfg.Obeyed ((cfg.blocksFrom [] days).insertionSort rowOrder) ↔
      ∀ before day after, days = before ++ day :: after →
        ¬cfg.CutsLeavers (cfg.bookAfter before) (cfg.target day.2) := by
  have hturnover : ∀ before day following after, days = before ++ day :: following :: after →
      (bookOf ((cfg.blocksFrom [] days).insertionSort rowOrder) day.1).turnover
          (bookOf ((cfg.blocksFrom [] days).insertionSort rowOrder) following.1) =
        (cfg.bookAfter (before ++ [day])).turnover
          (cfg.step (cfg.bookAfter (before ++ [day])) following.2) := by
    rintro before day following after rfl
    have hfirst := bookOf_result cfg hdays
    have hsplit : before ++ day :: following :: after =
        (before ++ [day]) ++ following :: after := by simp
    rw [hsplit] at hdays hfirst ⊢
    have hsecond := bookOf_result cfg hdays
    rw [← bookAfter_concat]
    refine (Book.turnover_perm ?_ ?_ hfirst hsecond).symm
    · rw [symbols_bookAfter_concat cfg]
      exact hdays.nodup day (by simp)
    · rw [symbols_bookAfter_concat cfg]
      exact hdays.nodup following (by simp)
  have hne : ∀ before day after, days = before ++ day :: after →
      cfg.bookAfter (before ++ [day]) ≠ [] := by
    intro before day after heq hnil
    have hsymbols := symbols_bookAfter_concat cfg before day
    rw [hnil] at hsymbols
    exact hdays.ne_nil day (by simp [heq]) (List.map_eq_nil_iff.mp hsymbols.symm)
  constructor
  · intro hobeyed before day after heq hcuts
    rcases List.eq_nil_or_concat before with rfl | ⟨earlier, last, rfl⟩
    · obtain ⟨-, -, -, -, symbol, -, hweight⟩ := hcuts
      exact hweight rfl
    · rw [List.concat_eq_append] at heq hcuts
      have hconsecutive : days = earlier ++ last :: day :: after := by simp [heq]
      refine (step_turnover_le_iff (hne _ _ _ hconsecutive)
        (hdays.nodup day (by simp [heq]))).mp (fun cap hcap hpos => ?_) hcuts
      rw [← hturnover _ _ _ _ hconsecutive]
      exact hobeyed.turnover cap hcap hpos _ _
        ((consecutiveDates_iff cfg hdays).mpr ⟨_, _, _, _, hconsecutive, rfl, rfl⟩)
  · intro hkeep
    refine ⟨fun row hrow => ?_, fun cap hcap hpos date next hconsecutive => ?_⟩
    · obtain ⟨before, day, after, rfl, hdate⟩ := (date_mem_result_iff cfg hdays).mp
        (List.mem_map.mpr ⟨row, hrow, rfl⟩)
      rw [← hdate]
      refine (bookAfter_within hlimits (fun other hother => hdays.nodup other ?_)
        fun front other back heq => hkeep front other (back ++ after) ?_).2.of_perm
          (bookOf_result cfg hdays)
      · rcases List.mem_append.mp hother with h | h
        · exact List.mem_append_left _ h
        · exact List.mem_append_right _ (List.mem_singleton.mp h ▸ List.mem_cons_self)
      · calc before ++ day :: after = (before ++ [day]) ++ after := by simp
          _ = front ++ other :: (back ++ after) := by rw [heq]; simp
    · obtain ⟨before, day, following, after, heq, rfl, rfl⟩ :=
        (consecutiveDates_iff cfg hdays).mp hconsecutive
      rw [hturnover _ _ _ _ heq]
      refine (step_turnover_le_iff (hne _ _ _ heq) (hdays.nodup following (by simp [heq]))).mpr
        (hkeep (before ++ [day]) following after (by simp [heq])) cap hcap hpos

omit [LinearOrder Symbol] in
/-- The days of a frame with a date and a symbol at most once. -/
theorem wellFormed_groups {frame : List (FrameRow Date Symbol)}
    (hnodup : (frame.map fun row => (row.date, row.symbol)).Nodup) :
    WellFormedDays (groups frame) := by
  have hsorted : ((frame.map (·.date)).dedup.insertionSort (· ≤ ·)).Pairwise (· < ·) := by
    have hle := List.pairwise_insertionSort (· ≤ ·) (frame.map (·.date)).dedup
    have hdistinct : ((frame.map (·.date)).dedup.insertionSort (· ≤ ·)).Nodup :=
      (List.perm_insertionSort _ _).nodup_iff.mpr (List.nodup_dedup _)
    exact (hle.and hdistinct).imp fun h => lt_of_le_of_ne h.1 h.2
  refine ⟨?_, fun day hday hnil => ?_, fun day hday => ?_⟩
  · rw [groups, List.pairwise_map]
    exact hsorted
  · obtain ⟨date, hdate, rfl⟩ := List.mem_map.mp hday
    obtain ⟨row, hrow, rfl⟩ := List.mem_map.mp
      (List.mem_dedup.mp ((List.mem_insertionSort _).mp hdate))
    have hempty : frame.filter (·.date = row.date) = [] := hnil
    exact absurd (decide_eq_true rfl) (List.filter_eq_nil_iff.mp hempty row hrow)
  · obtain ⟨date, -, rfl⟩ := List.mem_map.mp hday
    have hfiltered := (hnodup.of_map _).filter (p := fun row => decide (row.date = date))
    refine hfiltered.map_on fun row hrow other hother hsymbol => ?_
    have hdate := of_decide_eq_true (List.mem_filter.mp hrow).2
    have hdate' := of_decide_eq_true (List.mem_filter.mp hother).2
    exact List.inj_on_of_nodup_map hnodup (List.mem_filter.mp hrow).1 (List.mem_filter.mp hother).1
      (Prod.ext (hdate.trans hdate'.symm) hsymbol)

/-- A constructed portfolio obeys its limits on every day exactly when the turnover cap never
binds while a name that the day before holds has left the universe. -/
theorem constructPortfolio_obeyed_iff {signals : List (SignalRow Date Symbol)}
    {features : Option (FeatureTable Date Symbol)} {rows : List (TargetRow Date Symbol)}
    (hlimits : cfg.limits.Nonneg)
    (hnodup : (signals.map fun row => (row.date, row.symbol)).Nodup)
    (h : constructPortfolio signals features cfg = .ok rows) :
    cfg.Obeyed rows ↔ ∀ before day after,
      groups (merged signals features (cfg.volLookback.getD 20)) = before ++ day :: after →
        ¬cfg.CutsLeavers (cfg.bookAfter before) (cfg.target day.2) := by
  rw [constructPortfolio] at h
  split at h
  · cases h
  · cases h
    refine obeyed_iff hlimits (wellFormed_groups ?_)
    rw [merged, List.map_map]
    exact hnodup

end Runs

/-! ## A name that leaves -/

/-- Two days of a name each, and a cap of a twentieth. -/
def rotation : List (SignalRow ℕ ℕ) := [⟨1, 1, .finite 1⟩, ⟨2, 2, .finite 1⟩]

def rotationSettings : PortfolioSettings where
  scheme := none
  maxWeight := none
  maxGrossExposure := none
  maxNetExposure := none
  inverseVolScaling := none
  turnoverCap := some (1 / 20)
  volLookback := none
  cashBuffer := none
  others := []

/-- The limits of the cap, none of which is negative. -/
def rotationLimits : { limits : Limits // limits.Nonneg } :=
  ⟨rotationSettings.limits, by decide +kernel, by decide +kernel, by decide +kernel⟩

theorem rotation_nonneg : rotationSettings.limits.Nonneg := rotationLimits.2

theorem rotation_rows : constructPortfolio rotation none rotationSettings =
    .ok [⟨1, 1, 1 / 10⟩, ⟨2, 2, 1 / 40⟩] := by
  rw [constructPortfolio, if_neg (by decide)]
  exact congrArg Except.ok (by decide +kernel)

theorem constructPortfolio_rotation_obeyed_iff :
    rotationSettings.Obeyed ([⟨1, 1, 1 / 10⟩, ⟨2, 2, 1 / 40⟩] : List (TargetRow ℕ ℕ)) ↔
      ∀ before day after, groups (merged rotation none 20) = before ++ day :: after →
        ¬rotationSettings.CutsLeavers (rotationSettings.bookAfter before)
          (rotationSettings.target day.2) :=
  constructPortfolio_obeyed_iff rotation_nonneg (by decide) rotation_rows

/-- The second day turns over an eighth. -/
theorem rotation_not_obeyed : (rotation.map fun row => (row.date, row.symbol)).Nodup ∧
    rotationSettings.limits.Nonneg ∧
    constructPortfolio rotation none rotationSettings =
      .ok [⟨1, 1, 1 / 10⟩, ⟨2, 2, 1 / 40⟩] ∧
    ¬rotationSettings.Obeyed ([⟨1, 1, 1 / 10⟩, ⟨2, 2, 1 / 40⟩] : List (TargetRow ℕ ℕ)) := by
  refine ⟨by decide, rotation_nonneg, rotation_rows, fun hobeyed => ?_⟩
  have hle := hobeyed.turnover (1 / 20) rfl (by norm_num) 1 2
    ⟨by decide, by decide, by decide, by decide⟩
  exact absurd hle (by decide +kernel)

end SignalFoundry.Construction
