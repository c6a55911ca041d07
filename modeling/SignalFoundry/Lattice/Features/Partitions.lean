import SignalFoundry.Library.Fallible
import SignalFoundry.Library.PyDate
import SignalFoundry.Library.StableSort
import SignalFoundry.Library.Tiling

/-!
# Backfill partitions

A backfill walks its interval of application dates by calendar years or months. The
walk takes the day after a partition before it looks whether the interval is over.
-/

universe u

namespace Features

open Fallible Tiling

inductive PartitionBy where
  | year
  | month
  deriving DecidableEq, Repr

namespace PartitionBy

/-- The key of the year or the month of a date. -/
def key : PartitionBy → PyDate → String
  | year, d => String.ofList (PyDate.padded 4 d.year)
  | month, d => String.ofList (PyDate.padded 4 d.year ++ '-' :: PyDate.padded 2 d.month)

/-- The last date of the year or the month of a date. -/
def boundary : PartitionBy → PyDate → Option PyDate
  | year, d => PyDate.ofFields d.year 12 31
  | month, d => PyDate.ofFields d.year d.month (daysInMonth d.year d.month)

end PartitionBy

/-- The regular expression `^[0-9]{4}(?:-[0-9]{2})?$`. -/
def isPartitionKey (key : String) : Bool :=
  match key.toList with
  | [y₁, y₂, y₃, y₄] => [y₁, y₂, y₃, y₄].all PyText.isDigitAscii
  | [y₁, y₂, y₃, y₄, '-', m₁, m₂] => [y₁, y₂, y₃, y₄, m₁, m₂].all PyText.isDigitAscii
  | _ => false

/-- `BackfillPartition`. -/
@[ext] structure BackfillPartition where
  key : String
  start : PyDate
  «end» : PyDate
  key_valid : isPartitionKey key = true
  ordered : start ≤ «end»

instance : DecidableEq BackfillPartition := fun _ _ =>
  decidable_of_iff _ BackfillPartition.ext_iff.symm

/-- The partition that the walk makes at a date. A validation error is a `ValueError`. -/
def partitionAt (last : PyDate) (partitionBy : PartitionBy) (cursor : PyDate) :
    Except PyError { partition : BackfillPartition // partition.start = cursor } := do
  match partitionBy.boundary cursor with
  | none => .error (.valueError "day is out of range for month")
  | some boundary => do
      let key := partitionBy.key cursor
      let ⟨hkey⟩ ← require (isPartitionKey key = true) (PyError.valueError
        "String should match pattern '^[0-9]\x7b4\x7d(?:-[0-9]\x7b2\x7d)?$'")
      let ⟨hordered⟩ ← require (cursor ≤ min boundary last)
        (PyError.valueError "partition end must be on or after start")
      .ok ⟨⟨key, cursor, min boundary last, hkey, hordered⟩, rfl⟩

/-- `d.fromordinal(d.toordinal() + 1)`. -/
def nextDate (d : PyDate) :
    Except PyError { next : PyDate // next.toordinal = d.toordinal + 1 } := do
  let ⟨next, hnext⟩ ← found (PyDate.ofOrdinal (d.toordinal + 1))
    (PyError.valueError "year 10000 is out of range")
  .ok ⟨next, PyDate.toordinal_of_ofOrdinal hnext⟩

/-- The loop of `_date_partitions` from a cursor. -/
def partitionsFrom (last : PyDate) (partitionBy : PartitionBy) (cursor : PyDate) :
    Except PyError (List BackfillPartition) :=
  if _hcursor : cursor ≤ last then do
    let ⟨partition, _hstart⟩ ← partitionAt last partitionBy cursor
    let ⟨next, _hnext⟩ ← nextDate partition.end
    let partitions ← partitionsFrom last partitionBy next
    .ok (partition :: partitions)
  else .ok []
termination_by last.toordinal + 1 - cursor.toordinal
decreasing_by
  have hordered := PyDate.toordinal_strictMono.le_iff_le.mpr partition.ordered
  have hle := PyDate.toordinal_strictMono.le_iff_le.mpr _hcursor
  rw [_hstart] at hordered
  omega

/-- `_date_partitions`. -/
def datePartitions (start last : PyDate) (partitionBy : PartitionBy) :
    Except PyError (List BackfillPartition) :=
  partitionsFrom last partitionBy start

/-- `BackfillPlan._coverage`, of partitions that the field has found to be at least one. -/
def coverage (applicationStart applicationEnd : PyDate) (partitions : List BackfillPartition)
    (hpartitions : partitions ≠ []) : Except PyError Unit := do
  refuseIf (sortedBy BackfillPartition.start partitions ≠ partitions)
    (PyError.valueError "partitions must be ordered by start date")
  refuseIf ((partitions.head hpartitions).start ≠ applicationStart)
    (PyError.valueError "first partition must start at application_start")
  refuseIf ((partitions.getLast hpartitions).end ≠ applicationEnd)
    (PyError.valueError "last partition must end at application_end")
  refuseIf (¬ partitions.IsChain fun previous current =>
      current.start.toordinal = previous.end.toordinal + 1)
    (PyError.valueError "partitions must be contiguous and non-overlapping")

/-- `BackfillPlan`, with the interval and the kind of partition of its request. -/
structure BackfillPlan where
  applicationStart : PyDate
  applicationEnd : PyDate
  partitionBy : PartitionBy
  partitions : List BackfillPartition
  nonempty : partitions ≠ []
  length_le : partitions.length ≤ 10000
  covered : coverage applicationStart applicationEnd partitions nonempty = .ok ()

/-- `BackfillPlan.create`. -/
def BackfillPlan.create (applicationStart applicationEnd : PyDate) (partitionBy : PartitionBy) :
    Except PyError BackfillPlan := do
  let partitions ← datePartitions applicationStart applicationEnd partitionBy
  let ⟨nonempty⟩ ← require (partitions ≠ [])
    (PyError.valueError "Tuple should have at least 1 item after validation, not 0")
  let ⟨length_le⟩ ← require (partitions.length ≤ 10000)
    (PyError.valueError
      s!"Tuple should have at most 10000 items after validation, not {partitions.length}")
  let ⟨covered⟩ ← attest (coverage applicationStart applicationEnd partitions nonempty)
  .ok ⟨applicationStart, applicationEnd, partitionBy, partitions, nonempty, length_le, covered⟩

/-! ## Periods -/

namespace PartitionBy

/-- The number of the year or the month of a date. -/
def period : PartitionBy → PyDate → ℕ
  | year, d => d.year
  | month, d => 12 * d.year + d.month

variable (partitionBy : PartitionBy)

theorem period_mono : Monotone partitionBy.period := by
  intro d d' h
  rcases h.lt_or_eq with hlt | rfl
  · have hmonth := d.month_mem
    have hmonth' := d'.month_mem
    cases partitionBy <;>
      rcases PyDate.lt_iff.mp hlt with hyear | ⟨hyear, hmonth | ⟨hmonth, -⟩⟩ <;>
        simp only [period] <;> omega
  · exact le_rfl

/-- Keys name periods. -/
theorem key_eq_iff {d d' : PyDate} :
    partitionBy.key d = partitionBy.key d' ↔ partitionBy.period d = partitionBy.period d' := by
  have hmonth := d.month_mem
  have hmonth' := d'.month_mem
  have hyear (e : PyDate) : (PyDate.padded 4 e.year).length = 4 :=
    PyDate.length_padded (by decide) (by have := e.year_mem; omega)
  cases partitionBy with
  | year =>
      simp only [key, period, String.ofList_inj]
      exact ⟨PyDate.padded_injective, fun h => by rw [h]⟩
  | month =>
      simp only [key, period, String.ofList_inj]
      constructor
      · intro h
        obtain ⟨hyears, hmonths⟩ := List.append_inj h ((hyear d).trans (hyear d').symm)
        have hy := PyDate.padded_injective hyears
        have hm := PyDate.padded_injective (List.cons.inj hmonths).2
        omega
      · intro h
        rw [show d.year = d'.year by omega, show d.month = d'.month by omega]

theorem isPartitionKey_key (d : PyDate) : isPartitionKey (partitionBy.key d) = true := by
  have hyear : (PyDate.padded 4 d.year).length = 4 :=
    PyDate.length_padded (by decide) (by have := d.year_mem; omega)
  have hmonth : (PyDate.padded 2 d.month).length = 2 :=
    PyDate.length_padded (by decide) (by have := d.month_mem; omega)
  have hdigits (width n : ℕ) : (PyDate.padded width n).all PyText.isDigitAscii = true :=
    List.all_eq_true.mpr fun c hc => PyDate.isDigitAscii_of_mem_padded hc
  have hyears := hdigits 4 d.year
  have hmonths := hdigits 2 d.month
  obtain ⟨y₁, y₂, y₃, y₄, hy⟩ := List.length_eq_four.mp hyear
  obtain ⟨m₁, m₂, hm⟩ := List.length_eq_two.mp hmonth
  rw [hy] at hyears
  rw [hm] at hmonths
  cases partitionBy with
  | year => simp only [isPartitionKey, key, hy, String.toList_ofList, hyears]
  | month =>
      simp only [isPartitionKey, key, hy, hm, String.toList_ofList, List.cons_append,
        List.nil_append]
      simp only [List.all_cons, List.all_nil, Bool.and_true, Bool.and_eq_true] at hyears hmonths ⊢
      exact ⟨hyears.1, hyears.2.1, hyears.2.2.1, hyears.2.2.2, hmonths⟩

/-- The boundary is the last date of its period. -/
theorem boundary_spec (d : PyDate) : ∃ b, partitionBy.boundary d = some b ∧
    partitionBy.period b = partitionBy.period d ∧
      ∀ d', partitionBy.period d' = partitionBy.period d → d' ≤ b := by
  have hdays (e : PyDate) : e.day ≤ daysInMonth e.year e.month := e.day_mem.2
  have hmonths (e : PyDate) := e.month_mem
  cases partitionBy with
  | year =>
      let b : PyDate := ⟨d.year, 12, 31, d.year_mem, by decide, by simp [daysInMonth]⟩
      refine ⟨b, PyDate.ofFields_self b, rfl, fun d' hperiod => ?_⟩
      have hday : d'.day ≤ 31 := (hdays d').trans (daysInMonth_le _ _)
      have hmonth := hmonths d'
      rw [← not_lt, PyDate.lt_iff]
      simp only [period] at hperiod
      show ¬ (d.year < d'.year ∨ d.year = d'.year ∧
        (12 < d'.month ∨ 12 = d'.month ∧ 31 < d'.day))
      omega
  | month =>
      have hpos : 1 ≤ daysInMonth d.year d.month := d.day_mem.1.trans d.day_mem.2
      let b : PyDate := ⟨d.year, d.month, daysInMonth d.year d.month, d.year_mem, d.month_mem,
        hpos, le_rfl⟩
      refine ⟨b, PyDate.ofFields_self b, rfl, fun d' hperiod => ?_⟩
      have hmonth := hmonths d
      have hmonth' := hmonths d'
      simp only [period] at hperiod
      have hyear_eq : d'.year = d.year := by omega
      have hmonth_eq : d'.month = d.month := by omega
      have hday := hdays d'
      rw [hyear_eq, hmonth_eq] at hday
      rw [← not_lt, PyDate.lt_iff]
      show ¬ (d.year < d'.year ∨ d.year = d'.year ∧
        (d.month < d'.month ∨ d.month = d'.month ∧ daysInMonth d.year d.month < d'.day))
      omega

end PartitionBy

/-! ## The walk -/

variable {start last cursor : PyDate} {partitionBy : PartitionBy}

variable (partitionBy) in
/-- The partition at a date lies in the period of the date and reaches as far as it can. -/
theorem partitionAt_eq_ok (h : cursor ≤ last) :
    ∃ partition, (∃ hstart, partitionAt last partitionBy cursor = .ok ⟨partition, hstart⟩) ∧
      partition.start = cursor ∧ partition.key = partitionBy.key cursor ∧
      partition.end ≤ last ∧ partitionBy.period partition.end = partitionBy.period cursor ∧
      (partition.end < last → ∀ d, partition.end < d →
        partitionBy.period cursor < partitionBy.period d) := by
  obtain ⟨boundary, hboundary, hperiod, hlast⟩ := partitionBy.boundary_spec cursor
  have hle : cursor ≤ boundary := hlast cursor rfl
  have hordered : cursor ≤ min boundary last := le_min hle h
  refine ⟨⟨partitionBy.key cursor, cursor, min boundary last,
    partitionBy.isPartitionKey_key cursor, hordered⟩, ⟨rfl, ?_⟩, rfl, rfl, min_le_right _ _, ?_, ?_⟩
  · rw [partitionAt, hboundary]
    show (require _ _ >>= _) = _
    rw [require_of (partitionBy.isPartitionKey_key cursor), ok_bind, require_of hordered]
    rfl
  · refine le_antisymm ?_ (partitionBy.period_mono hordered)
    rw [← hperiod]
    exact partitionBy.period_mono (min_le_left _ _)
  · intro hend d hd
    change min boundary last < last at hend
    change min boundary last < d at hd
    have hboundary_lt : boundary < last := by
      by_contra hge
      rw [min_eq_right (not_lt.mp hge)] at hend
      exact lt_irrefl _ hend
    rw [min_eq_left hboundary_lt.le] at hd
    refine lt_of_le_of_ne (partitionBy.period_mono (hle.trans hd.le)) fun heq => ?_
    exact absurd (hlast d heq.symm) (not_le_of_gt hd)

theorem nextDate_eq_ok {d : PyDate} (h : d ≠ PyDate.max) :
    ∃ next, (∃ hnext, nextDate d = .ok ⟨next, hnext⟩) ∧ next.toordinal = d.toordinal + 1 := by
  obtain ⟨next, hnext, hsucc⟩ := PyDate.exists_next h
  exact ⟨next, ⟨hsucc, by rw [nextDate, found_some hnext]; rfl⟩, hsucc⟩

theorem nextDate_max : nextDate PyDate.max = .error (.valueError "year 10000 is out of range") := by
  rw [nextDate, found_none PyDate.ofOrdinal_max_succ]
  rfl

variable (partitionBy) in
/-- A turn of the walk. -/
theorem partitionsFrom_of_le (h : cursor ≤ last) :
    partitionsFrom last partitionBy cursor =
      (partitionAt last partitionBy cursor >>= fun made => nextDate made.val.end >>= fun next =>
        partitionsFrom last partitionBy next >>= fun partitions =>
          .ok (made.val :: partitions)) := by
  rw [partitionsFrom, dif_pos h]

theorem partitionsFrom_of_lt (h : last < cursor) :
    partitionsFrom last partitionBy cursor = .ok [] := by
  rw [partitionsFrom, dif_neg (not_le_of_gt h)]

/-- What the walk has made from a cursor on. -/
structure WalksFrom (partitionBy : PartitionBy) (cursor last : PyDate)
    (partitions : List BackfillPartition) : Prop where
  tiles : Tiles BackfillPartition.start BackfillPartition.end cursor last partitions
  named : ∀ partition ∈ partitions, partition.key = partitionBy.key partition.start ∧
    partitionBy.period partition.end = partitionBy.period partition.start
  increasing : (partitions.map fun partition => partitionBy.period partition.start).Pairwise (· < ·)

variable (partitionBy) in
/-- The walk from a cursor succeeds unless it has to look past the largest date. -/
theorem partitionsFrom_eq_ok (hlast : last ≠ PyDate.max) (h : cursor ≤ last) :
    ∃ partitions, partitionsFrom last partitionBy cursor = .ok partitions ∧
      WalksFrom partitionBy cursor last partitions := by
  induction hdays : last.toordinal - cursor.toordinal using Nat.strong_induction_on
    generalizing cursor with
  | _ days ih =>
    obtain ⟨partition, ⟨hstart, hpartition⟩, hcursor, hkey, hend, hperiod, hapart⟩ :=
      partitionAt_eq_ok partitionBy h
    have hmax : partition.end ≠ PyDate.max := fun heq =>
      hlast (le_antisymm last.le_max (heq ▸ hend))
    obtain ⟨next, ⟨hnext, hnextDate⟩, hsucc⟩ := nextDate_eq_ok hmax
    have hturn := partitionsFrom_of_le partitionBy h
    rw [hpartition] at hturn
    change _ = (nextDate partition.end >>= _) at hturn
    rw [hnextDate] at hturn
    change _ = (partitionsFrom last partitionBy next >>= _) at hturn
    have hadjacent := PyDate.covBy_of_toordinal hsucc
    have hnamed : partition.key = partitionBy.key partition.start ∧
        partitionBy.period partition.end = partitionBy.period partition.start := by
      rw [hcursor]
      exact ⟨hkey, hperiod⟩
    rcases hend.lt_or_eq with hlt | heq
    · have hnext_le : next ≤ last := by
        rw [← PyDate.toordinal_strictMono.le_iff_le, hsucc]
        exact PyDate.toordinal_strictMono hlt
      have hless : last.toordinal - next.toordinal < days := by
        have hordered := PyDate.toordinal_strictMono.le_iff_le.mpr partition.ordered
        have hbelow := PyDate.toordinal_strictMono.le_iff_le.mpr hnext_le
        rw [hcursor] at hordered
        omega
      obtain ⟨partitions, hrest, hwalks⟩ := ih _ hless hnext_le rfl
      rw [hrest] at hturn
      refine ⟨partition :: partitions, hturn, ?_, ?_, ?_⟩
      · rw [← hcursor]
        exact .cons partition.ordered hadjacent hwalks.tiles
      · exact List.forall_mem_cons.mpr ⟨hnamed, hwalks.named⟩
      · rw [List.map_cons, List.pairwise_cons]
        refine ⟨fun period hmem => ?_, hwalks.increasing⟩
        obtain ⟨other, hother, rfl⟩ := List.mem_map.mp hmem
        rw [hcursor]
        exact hapart hlt other.start
          (hadjacent.lt.trans_le (hwalks.tiles.start_le_of_mem hother))
    · have hdone : partitionsFrom last partitionBy next = .ok [] :=
        partitionsFrom_of_lt (heq ▸ hadjacent.lt)
      rw [hdone] at hturn
      refine ⟨[partition], hturn, ?_, ?_, List.pairwise_singleton _ _⟩
      · rw [← hcursor, ← heq]
        exact .single partition.ordered
      · exact List.forall_mem_singleton.mpr hnamed

/-- The walk to the largest date raises. -/
theorem partitionsFrom_max (cursor : PyDate) :
    partitionsFrom PyDate.max partitionBy cursor =
      .error (.valueError "year 10000 is out of range") := by
  induction hdays : PyDate.max.toordinal - cursor.toordinal using Nat.strong_induction_on
    generalizing cursor with
  | _ days ih =>
    obtain ⟨partition, ⟨hstart, hpartition⟩, hcursor, -, hend, -, -⟩ :=
      partitionAt_eq_ok partitionBy cursor.le_max
    have hturn := partitionsFrom_of_le partitionBy cursor.le_max
    rw [hpartition] at hturn
    change _ = (nextDate partition.end >>= _) at hturn
    by_cases hmax : partition.end = PyDate.max
    · rw [hmax, nextDate_max] at hturn
      exact hturn
    · obtain ⟨next, ⟨hnext, hnextDate⟩, hsucc⟩ := nextDate_eq_ok hmax
      rw [hnextDate] at hturn
      change _ = (partitionsFrom PyDate.max partitionBy next >>= _) at hturn
      have hless : PyDate.max.toordinal - next.toordinal < days := by
        have hordered := PyDate.toordinal_strictMono.le_iff_le.mpr partition.ordered
        have hbelow := PyDate.toordinal_strictMono.le_iff_le.mpr next.le_max
        rw [hcursor] at hordered
        rw [hsucc] at hbelow
        rw [← hdays, hsucc]
        omega
      rw [ih _ hless next rfl] at hturn
      exact hturn

/-! ## Tilings of the interval -/

/-- The partitions tile the interval by years or months. -/
structure PartitionsInterval (partitionBy : PartitionBy) (start last : PyDate)
    (partitions : List BackfillPartition) : Prop where
  keys_nodup : (partitions.map BackfillPartition.key).Nodup
  /-- Each partition lies in the year or the month that its key names. -/
  named : ∀ partition ∈ partitions, ∀ d, partition.start ≤ d → d ≤ partition.end →
    partitionBy.key d = partition.key
  first_start : partitions.head?.map BackfillPartition.start = some start
  last_end : partitions.getLast?.map BackfillPartition.end = some last
  contiguous : partitions.IsChain fun previous current =>
    current.start.toordinal = previous.end.toordinal + 1
  /-- Every date of the interval lies in exactly one partition. -/
  covers : ∀ d, start ≤ d → d ≤ last →
    ∃! partition, partition ∈ partitions ∧ partition.start ≤ d ∧ d ≤ partition.end

theorem WalksFrom.partitionsInterval {partitions : List BackfillPartition}
    (h : WalksFrom partitionBy start last partitions) :
    PartitionsInterval partitionBy start last partitions where
  keys_nodup := by
    have hdistinct := h.increasing.imp fun hlt => ne_of_lt hlt
    rw [List.Nodup, List.pairwise_map]
    rw [List.pairwise_map] at hdistinct
    refine hdistinct.imp_of_mem fun {a b} ha hb hne heq => hne ?_
    rw [(h.named a ha).1, (h.named b hb).1] at heq
    exact partitionBy.key_eq_iff.mp heq
  named partition hpartition d hstart hend := by
    obtain ⟨hkey, hperiod⟩ := h.named partition hpartition
    rw [hkey, partitionBy.key_eq_iff]
    exact le_antisymm ((partitionBy.period_mono hend).trans hperiod.le)
      (partitionBy.period_mono hstart)
  first_start := h.tiles.head?_eq
  last_end := h.tiles.getLast?_eq
  contiguous := h.tiles.isChain.imp fun _ _ hadjacent => PyDate.toordinal_of_covBy hadjacent
  covers _ hstart hlast := h.tiles.existsUnique_mem hstart hlast

/-- What a plan covers, its partitions tile. -/
theorem coverage_eq_ok_iff {partitions : List BackfillPartition} (hpartitions : partitions ≠ []) :
    coverage start last partitions hpartitions = .ok () ↔
      Tiles BackfillPartition.start BackfillPartition.end start last partitions := by
  have hordered : ∀ partition ∈ partitions, partition.start ≤ partition.end :=
    fun partition _ => partition.ordered
  have hnext (d d' : PyDate) : d'.toordinal = d.toordinal + 1 ↔ d ⋖ d' :=
    ⟨PyDate.covBy_of_toordinal, PyDate.toordinal_of_covBy⟩
  simp only [coverage, bind_eq_ok_iff, refuseIf_eq_ok_iff, not_not, exists_const, hnext]
  rw [tiles_iff, List.head?_eq_some_head hpartitions, List.getLast?_eq_some_getLast hpartitions]
  simp only [Option.map_some, Option.some.injEq]
  constructor
  · rintro ⟨-, hstart, hlast, hchain⟩
    exact ⟨hordered, hstart, hlast, hchain⟩
  · rintro ⟨-, hstart, hlast, hchain⟩
    refine ⟨?_, hstart, hlast, hchain⟩
    have htiles : Tiles BackfillPartition.start BackfillPartition.end start last partitions := by
      rw [tiles_iff, List.head?_eq_some_head hpartitions,
        List.getLast?_eq_some_getLast hpartitions]
      exact ⟨hordered, congrArg some hstart, congrArg some hlast, hchain⟩
    exact List.Pairwise.insertionSort_eq (htiles.pairwise_first.imp fun hlt => hlt.le)

/-- The rows of the interval are the rows of the partitions, none lost and none twice. -/
theorem BackfillPlan.perm_rows {Row : Type u} (plan : BackfillPlan) (date : Row → PyDate)
    (rows : List Row) :
    (plan.partitions.flatMap fun partition =>
        rows.filter fun row => partition.start ≤ date row ∧ date row ≤ partition.end).Perm
      (rows.filter fun row =>
        plan.applicationStart ≤ date row ∧ date row ≤ plan.applicationEnd) :=
  ((coverage_eq_ok_iff plan.nonempty).mp plan.covered).perm_filter date rows

/-- A plan is made of every interval of at most ten thousand partitions that ends before the
largest date. -/
theorem BackfillPlan.create_eq_ok (hlast : last ≠ PyDate.max) (h : start ≤ last)
    {partitions : List BackfillPartition}
    (hpartitions : datePartitions start last partitionBy = .ok partitions)
    (hlength : partitions.length ≤ 10000) :
    ∃ plan, BackfillPlan.create start last partitionBy = .ok plan ∧
      plan.partitions = partitions := by
  obtain ⟨made, hmade, hwalks⟩ := partitionsFrom_eq_ok partitionBy hlast h
  obtain rfl : made = partitions := Except.ok.inj (hmade.symm.trans hpartitions)
  have hnonempty : made ≠ [] := by
    rintro rfl
    nomatch hwalks.tiles
  have hcovered := (coverage_eq_ok_iff hnonempty).mpr hwalks.tiles
  refine ⟨⟨start, last, partitionBy, made, hnonempty, hlength, hcovered⟩, ?_, rfl⟩
  rw [BackfillPlan.create, hpartitions, ok_bind, require_of hnonempty, ok_bind]
  show (require _ _ >>= _) = _
  rw [require_of hlength, ok_bind]
  show (attest _ >>= _) = _
  rw [attest_of hcovered]
  rfl

/-- The partitions of an interval exist and tile it unless it ends with the largest date. -/
theorem datePartitions_interval_iff (h : start ≤ last) :
    (∃ partitions, datePartitions start last partitionBy = .ok partitions ∧
      PartitionsInterval partitionBy start last partitions) ↔ last ≠ PyDate.max := by
  constructor
  · rintro ⟨partitions, hpartitions, -⟩ rfl
    exact nomatch hpartitions.symm.trans (partitionsFrom_max start)
  · intro hlast
    obtain ⟨partitions, hpartitions, hwalks⟩ := partitionsFrom_eq_ok partitionBy hlast h
    exact ⟨partitions, hpartitions, hwalks.partitionsInterval⟩

/-- From the middle of January to the middle of March. -/
theorem datePartitions_interval_winter :
    ∃ partitions, datePartitions ⟨2024, 1, 15, by decide, by decide, by decide⟩
        ⟨2024, 3, 10, by decide, by decide, by decide⟩ .month = .ok partitions ∧
      PartitionsInterval .month ⟨2024, 1, 15, by decide, by decide, by decide⟩
        ⟨2024, 3, 10, by decide, by decide, by decide⟩ partitions :=
  (datePartitions_interval_iff (by decide)).mpr (by decide)

/-- The largest date alone is an interval without partitions. -/
theorem not_datePartitions_interval_max : ¬ (PyDate.max ≤ PyDate.max →
    ∃ partitions, datePartitions PyDate.max PyDate.max .year = .ok partitions ∧
      PartitionsInterval .year PyDate.max PyDate.max partitions) := by
  intro h
  obtain ⟨partitions, hpartitions, -⟩ := h le_rfl
  exact nomatch hpartitions.symm.trans (partitionsFrom_max PyDate.max)

end Features
