import Mathlib.Algebra.BigOperators.Ring.Finset
import Mathlib.Algebra.BigOperators.Ring.List
import Mathlib.Algebra.Order.BigOperators.Group.Finset
import Mathlib.Algebra.Order.BigOperators.Group.List
import Mathlib.Algebra.Order.Field.Basic
import Mathlib.Algebra.Order.Ring.Abs
import Mathlib.Tactic.Linarith
import Mathlib.Tactic.Ring
import SignalFoundry.AlphaForge.Portfolio.Construction

/-!
# Capped books

The caps leave any weights within the limits. A blend of two books within the limits is
within them too, and turns over its fraction, unless it drops what a leaver still had.
-/

namespace SignalFoundry.Construction

/-! ## Caps -/

theorem sum_abs_map_le {α : Type} (l : List α) {f g : α → ℚ} (h : ∀ x ∈ l, |f x| ≤ |g x|) :
    (l.map fun x => |f x|).sum ≤ (l.map fun x => |g x|).sum :=
  List.sum_le_sum h

namespace Limits

variable (limits : Limits)

/-- Weights within the limits. -/
structure Bounds (weights : List ℚ) : Prop where
  weight : ∀ w ∈ weights, |w| ≤ limits.maxWeight
  gross : (weights.map fun w => |w|).sum ≤ limits.maxGross
  net : |weights.sum| ≤ limits.maxNet

/-- Limits that are not negative. -/
structure Nonneg : Prop where
  maxWeight : 0 ≤ limits.maxWeight
  maxGross : 0 ≤ limits.maxGross
  maxNet : 0 ≤ limits.maxNet

variable {limits} (hlimits : limits.Nonneg)

theorem abs_clip_le (hmax : 0 ≤ limits.maxWeight) (weights : List ℚ) :
    ∀ w ∈ limits.clip weights, |w| ≤ limits.maxWeight := by
  intro w hw
  obtain ⟨weight, -, rfl⟩ := List.mem_map.mp hw
  exact abs_le.mpr ⟨le_min (le_max_right _ _) (by linarith), min_le_right _ _⟩

/-- A scaling by a factor between zero and one. -/
theorem abs_mul_le {w factor : ℚ} (h0 : 0 ≤ factor) (h1 : factor ≤ 1) : |w * factor| ≤ |w| := by
  rw [abs_mul, abs_of_nonneg h0]
  exact mul_le_of_le_one_right (abs_nonneg w) h1

/-- A reduction of the positive part. -/
theorem abs_sub_max_mul_le {w factor : ℚ} (h0 : 0 ≤ factor) (h1 : factor ≤ 1) :
    |w - max w 0 * factor| ≤ |w| := by
  rcases le_total 0 w with hw | hw
  · rw [max_eq_left hw, show w - w * factor = w * (1 - factor) by ring]
    exact abs_mul_le (by linarith) (by linarith)
  · rw [max_eq_right hw, zero_mul, sub_zero]

/-- A reduction of the negative part. -/
theorem abs_sub_min_mul_le {w factor : ℚ} (h0 : 0 ≤ factor) (h1 : factor ≤ 1) :
    |w - min w 0 * factor| ≤ |w| := by
  rcases le_total 0 w with hw | hw
  · rw [min_eq_right hw, zero_mul, sub_zero]
  · rw [min_eq_left hw, show w - w * factor = w * (1 - factor) by ring]
    exact abs_mul_le (by linarith) (by linarith)

/-- No weight is larger. -/
theorem Bounds.of_map {weights : List ℚ} {f : ℚ → ℚ} (hf : ∀ w, |f w| ≤ |w|)
    (hweight : ∀ w ∈ weights, |w| ≤ limits.maxWeight)
    (hgross : (weights.map fun w => |w|).sum ≤ limits.maxGross)
    (hnet : |(weights.map f).sum| ≤ limits.maxNet) : limits.Bounds (weights.map f) where
  weight := by
    intro w hw
    obtain ⟨weight, hmem, rfl⟩ := List.mem_map.mp hw
    exact (hf weight).trans (hweight weight hmem)
  gross := by
    rw [List.map_map]
    exact (sum_abs_map_le weights fun w _ => hf w).trans hgross
  net := hnet

include hlimits

theorem scaleGross_weight {weights : List ℚ} (h : ∀ w ∈ weights, |w| ≤ limits.maxWeight) :
    ∀ w ∈ limits.scaleGross weights, |w| ≤ limits.maxWeight := by
  rw [scaleGross]
  split
  · rename_i hgross
    intro w hw
    obtain ⟨weight, hmem, rfl⟩ := List.mem_map.mp hw
    exact (abs_mul_le (div_nonneg hlimits.maxGross hgross.2.le)
      ((div_le_one hgross.2).mpr hgross.1.le)).trans (h weight hmem)
  · exact h

theorem scaleGross_gross (weights : List ℚ) :
    ((limits.scaleGross weights).map fun w => |w|).sum ≤ limits.maxGross := by
  rw [scaleGross]
  split
  · rename_i hgross
    have hfactor : 0 ≤ limits.maxGross / (weights.map fun w => |w|).sum :=
      div_nonneg hlimits.maxGross hgross.2.le
    simp only [List.map_map, Function.comp_def, abs_mul, abs_of_nonneg hfactor]
    rw [List.sum_map_mul_right, mul_div_cancel₀ _ hgross.2.ne']
  · rename_i hgross
    by_contra hlt
    rw [not_le] at hlt
    exact hgross ⟨hlt, hlimits.maxGross.trans_lt hlt⟩

omit hlimits in
theorem sum_sub_mul (weights : List ℚ) (f : ℚ → ℚ) (factor : ℚ) :
    (weights.map fun w => w - f w * factor).sum = weights.sum - (weights.map f).sum * factor := by
  induction weights with
  | nil => simp
  | cons w weights ih =>
      simp only [List.map_cons, List.sum_cons, ih]
      ring

/-- A net exposure above its limit is taken from the positive weights. -/
theorem trimNet_above {weights : List ℚ} (hnet : limits.maxNet < weights.sum) :
    ∃ factor, 0 ≤ factor ∧ factor ≤ 1 ∧
      limits.trimNet weights = (weights.map fun w => w - max w 0 * factor) ∧
      (weights.map fun w => w - max w 0 * factor).sum = limits.maxNet := by
  have hle : weights.sum ≤ (weights.map fun w => max w 0).sum := by
    simpa using List.sum_le_sum (l := weights) (f := id) fun w _ => le_max_left w 0
  have hpos : 0 < (weights.map fun w => max w 0).sum :=
    (hlimits.maxNet.trans_lt hnet).trans_le hle
  refine ⟨(weights.sum - limits.maxNet) / (weights.map fun w => max w 0).sum,
    div_nonneg (sub_nonneg.mpr hnet.le) hpos.le, ?_, ?_, ?_⟩
  · rw [div_le_one hpos]
    linarith [hlimits.maxNet]
  · simp only [trimNet]
    rw [if_pos hnet, if_pos hpos]
  · rw [sum_sub_mul _ fun w => max w 0, mul_div_cancel₀ _ hpos.ne', sub_sub_cancel]

/-- A net exposure below its limit is taken from the negative weights. -/
theorem trimNet_below {weights : List ℚ} (hnet : weights.sum < -limits.maxNet) :
    ∃ factor, 0 ≤ factor ∧ factor ≤ 1 ∧
      limits.trimNet weights = (weights.map fun w => w - min w 0 * factor) ∧
      (weights.map fun w => w - min w 0 * factor).sum = -limits.maxNet := by
  have hmax := hlimits.maxNet
  have hle : (weights.map fun w => min w 0).sum ≤ weights.sum := by
    simpa using List.sum_le_sum (l := weights) (g := id) fun w _ => min_le_left w 0
  have hneg : (weights.map fun w => min w 0).sum < 0 := by linarith
  have habs : 0 < (weights.map fun w => |min w 0|).sum := by
    have hsum : (weights.map fun w => |min w 0|).sum = (weights.map fun w => min w 0 * -1).sum :=
      congrArg List.sum (List.map_congr_left fun w _ => by
        rw [abs_of_nonpos (min_le_right w 0), mul_neg_one])
    rw [hsum, List.sum_map_mul_right]
    linarith
  refine ⟨(weights.sum + limits.maxNet) / (weights.map fun w => min w 0).sum,
    div_nonneg_of_nonpos (by linarith) hneg.le, ?_, ?_, ?_⟩
  · rw [div_le_one_of_neg hneg]
    linarith
  · simp only [trimNet]
    rw [if_neg (by linarith), if_pos hnet, if_pos habs]
  · rw [sum_sub_mul _ fun w => min w 0, mul_div_cancel₀ _ hneg.ne]
    ring

theorem trimNet_bounds {weights : List ℚ} (hweight : ∀ w ∈ weights, |w| ≤ limits.maxWeight)
    (hgross : (weights.map fun w => |w|).sum ≤ limits.maxGross) :
    limits.Bounds (limits.trimNet weights) := by
  have hmax := hlimits.maxNet
  by_cases habove : limits.maxNet < weights.sum
  · obtain ⟨factor, h0, h1, heq, hsum⟩ := trimNet_above hlimits habove
    rw [heq]
    refine .of_map (fun w => abs_sub_max_mul_le h0 h1) hweight hgross ?_
    rw [hsum, abs_of_nonneg hmax]
  · by_cases hbelow : weights.sum < -limits.maxNet
    · obtain ⟨factor, h0, h1, heq, hsum⟩ := trimNet_below hlimits hbelow
      rw [heq]
      refine .of_map (fun w => abs_sub_min_mul_le h0 h1) hweight hgross ?_
      rw [hsum, abs_neg, abs_of_nonneg hmax]
    · have hkeep : limits.trimNet weights = weights := by
        simp only [trimNet]
        rw [if_neg habove, if_neg hbelow]
      rw [hkeep]
      exact ⟨hweight, hgross, abs_le.mpr ⟨not_lt.mp hbelow, not_lt.mp habove⟩⟩

/-- The caps leave any weights within the limits. -/
theorem applyCaps_bounds (weights : List ℚ) : limits.Bounds (limits.applyCaps weights) :=
  trimNet_bounds hlimits (scaleGross_weight hlimits (abs_clip_le hlimits.maxWeight weights))
    (scaleGross_gross hlimits _)

end Limits

theorem Limits.length_trimNet (limits : Limits) (weights : List ℚ) :
    (limits.trimNet weights).length = weights.length := by
  rw [trimNet]
  split
  · dsimp only
    split
    · exact List.length_map _
    · rfl
  · split
    · dsimp only
      split
      · exact List.length_map _
      · rfl
    · rfl

theorem Limits.length_applyCaps (limits : Limits) (weights : List ℚ) :
    (limits.applyCaps weights).length = weights.length := by
  rw [applyCaps, length_trimNet, scaleGross]
  split
  · rw [List.length_map, clip, List.length_map]
  · exact List.length_map _

theorem length_normalizeScores (scores : List PyNumber) (maxGross : ℚ) :
    (normalizeScores scores maxGross).length = scores.length := by
  rw [normalizeScores]
  split
  · exact List.length_map _
  · split
    · rw [List.length_map, List.length_map]
    · rw [List.length_map, List.length_map]

/-! ## Books by symbol -/

namespace Book

variable {Symbol : Type} [DecidableEq Symbol] {book prev next : Book Symbol}

theorem weightOf_of_mem (hnodup : book.symbols.Nodup) {w : Symbol × ℚ} (hw : w ∈ book) :
    book.weightOf w.1 = w.2 := by
  induction book with
  | nil => cases hw
  | cons first book ih =>
      rw [symbols, List.map_cons, List.nodup_cons] at hnodup
      rcases List.mem_cons.mp hw with rfl | hmem
      · rw [weightOf, List.lookup_cons, beq_self_eq_true]
        rfl
      · have hne : w.1 ≠ first.1 := fun h => hnodup.1 (h ▸ List.mem_map_of_mem hmem)
        have hlookup : (w.1 == first.1) = false := by simpa using hne
        rw [weightOf, List.lookup_cons, hlookup]
        exact ih hnodup.2 hmem

theorem weightOf_of_notMem {symbol : Symbol} (h : symbol ∉ book.symbols) :
    book.weightOf symbol = 0 := by
  rw [weightOf, List.lookup_eq_none_iff.mpr]
  · rfl
  · intro w hw
    have hne : symbol ≠ w.1 := fun heq => h (heq ▸ List.mem_map_of_mem hw)
    simpa using hne

/-- A sum of the weights of a book is one over any symbols that contain its own. -/
theorem sum_eq (hnodup : book.symbols.Nodup) {all : Finset Symbol}
    (hsubset : ∀ symbol ∈ book.symbols, symbol ∈ all) {f : ℚ → ℚ} (hf : f 0 = 0) :
    (book.map fun w => f w.2).sum = ∑ symbol ∈ all, f (book.weightOf symbol) := by
  have hbook : (book.map fun w => f w.2) =
      book.symbols.map fun symbol => f (book.weightOf symbol) := by
    rw [symbols, List.map_map]
    exact List.map_congr_left fun w hw => by rw [Function.comp_apply, weightOf_of_mem hnodup hw]
  rw [hbook, ← List.sum_toFinset _ hnodup]
  refine Finset.sum_subset (fun symbol hmem => hsubset symbol (List.mem_toFinset.mp hmem))
    fun symbol _ hmem => ?_
  rw [weightOf_of_notMem fun h => hmem (List.mem_toFinset.mpr h), hf]

theorem net_eq (hnodup : book.symbols.Nodup) {all : Finset Symbol}
    (hsubset : ∀ symbol ∈ book.symbols, symbol ∈ all) :
    book.net = ∑ symbol ∈ all, book.weightOf symbol :=
  sum_eq hnodup hsubset (f := id) rfl

theorem turnover_eq (hnext : next.symbols.Nodup) {all : Finset Symbol}
    (hprev : ∀ symbol ∈ prev.symbols, symbol ∈ all)
    (hsubset : ∀ symbol ∈ next.symbols, symbol ∈ all) :
    prev.turnover next =
      ∑ symbol ∈ all, |next.weightOf symbol - prev.weightOf symbol| := by
  rw [turnover, ← List.sum_toFinset _ (hnext.union _)]
  refine Finset.sum_subset (fun symbol hmem => ?_) fun symbol _ hmem => ?_
  · rcases List.mem_union_iff.mp (List.mem_toFinset.mp hmem) with h | h
    · exact hprev symbol h
    · exact hsubset symbol h
  · rw [List.mem_toFinset, List.mem_union_iff, not_or] at hmem
    rw [weightOf_of_notMem hmem.1, weightOf_of_notMem hmem.2, sub_zero, abs_zero]

/-- The symbols of two days. -/
def allSymbols (prev next : Book Symbol) : Finset Symbol := (prev.symbols ++ next.symbols).toFinset

theorem mem_allSymbols_left (prev next : Book Symbol) :
    ∀ symbol ∈ prev.symbols, symbol ∈ prev.allSymbols next :=
  fun _ h => List.mem_toFinset.mpr (List.mem_append_left _ h)

theorem mem_allSymbols_right (prev next : Book Symbol) :
    ∀ symbol ∈ next.symbols, symbol ∈ prev.allSymbols next :=
  fun _ h => List.mem_toFinset.mpr (List.mem_append_right _ h)

end Book

theorem Limits.Within.of_bounds {Symbol : Type} {limits : Limits} {symbols : List Symbol}
    {weights : List ℚ} (h : limits.Bounds weights) (hlength : symbols.length = weights.length) :
    limits.Within (symbols.zip weights) := by
  have hsnd : (symbols.zip weights).map Prod.snd = weights := List.map_snd_zip hlength.ge
  have habs : (symbols.zip weights).map (fun w => |w.2|) = weights.map fun w => |w| := by
    conv_rhs => rw [← hsnd, List.map_map]
    rfl
  refine ⟨fun w hw => h.weight w.2 (List.of_mem_zip hw).2, ?_, ?_⟩
  · rw [Book.gross, habs]
    exact h.gross
  · rw [Book.net, hsnd]
    exact h.net

/-! ## The turnover cap -/

section Blend

variable {Symbol : Type} [DecidableEq Symbol] {prev weights : Book Symbol}

/-- The capped weights moved a fraction of the way from the book before. -/
def blend (prev weights : Book Symbol) (factor : ℚ) : Book Symbol :=
  weights.symbols.map fun symbol => (symbol, prev.weightOf symbol +
    (weights.weightOf symbol - prev.weightOf symbol) * factor)

theorem symbols_blend (prev weights : Book Symbol) (factor : ℚ) :
    (blend prev weights factor).symbols = weights.symbols := by
  rw [blend, Book.symbols, List.map_map]
  exact List.map_id _

theorem weightOf_blend (hnodup : weights.symbols.Nodup) (factor : ℚ) {symbol : Symbol}
    (h : symbol ∈ weights.symbols) : (blend prev weights factor).weightOf symbol =
      prev.weightOf symbol + (weights.weightOf symbol - prev.weightOf symbol) * factor := by
  rw [← symbols_blend prev weights factor] at hnodup
  exact Book.weightOf_of_mem hnodup (List.mem_map_of_mem (f := fun symbol => (symbol,
    prev.weightOf symbol + (weights.weightOf symbol - prev.weightOf symbol) * factor)) h)

theorem weightOf_blend_of_notMem (factor : ℚ) {symbol : Symbol} (h : symbol ∉ weights.symbols) :
    (blend prev weights factor).weightOf symbol = 0 :=
  Book.weightOf_of_notMem (by rwa [symbols_blend])

/-- The weight held the day before in names that have left. -/
def leaving (prev weights : Book Symbol) : ℚ :=
  ∑ symbol ∈ prev.allSymbols weights,
    if symbol ∈ weights.symbols then 0 else |prev.weightOf symbol|

theorem leaving_nonneg (prev weights : Book Symbol) : 0 ≤ leaving prev weights :=
  Finset.sum_nonneg fun symbol _ => by
    split
    · exact le_rfl
    · exact abs_nonneg _

theorem leaving_pos_iff : 0 < leaving prev weights ↔
    ∃ symbol ∉ weights.symbols, prev.weightOf symbol ≠ 0 := by
  constructor
  · intro hpos
    obtain ⟨symbol, -, hsymbol⟩ := Finset.exists_ne_zero_of_sum_ne_zero hpos.ne'
    by_cases hmem : symbol ∈ weights.symbols
    · exact absurd (if_pos hmem) hsymbol
    · rw [if_neg hmem] at hsymbol
      exact ⟨symbol, hmem, abs_ne_zero.mp hsymbol⟩
  · rintro ⟨symbol, hmem, hne⟩
    have hprev : symbol ∈ prev.symbols := by
      by_contra hprev
      exact hne (Book.weightOf_of_notMem hprev)
    have hall := Book.mem_allSymbols_left prev weights symbol hprev
    refine lt_of_lt_of_le ?_ (Finset.single_le_sum (fun other _ => ?_) hall)
    · rw [if_neg hmem]
      exact abs_pos.mpr hne
    · split
      · exact le_rfl
      · exact abs_nonneg _

/-- A blend turns over its fraction of the whole turnover, and what the leavers still had. -/
theorem turnover_blend (hweights : weights.symbols.Nodup) {factor : ℚ} (h0 : 0 ≤ factor) :
    prev.turnover (blend prev weights factor) =
      prev.turnover weights * factor + leaving prev weights * (1 - factor) := by
  have hsymbols := symbols_blend prev weights factor
  rw [Book.turnover_eq (by rwa [hsymbols]) (Book.mem_allSymbols_left prev weights)
      (by rw [hsymbols]; exact Book.mem_allSymbols_right prev weights),
    Book.turnover_eq hweights (Book.mem_allSymbols_left prev weights)
      (Book.mem_allSymbols_right prev weights), leaving, Finset.sum_mul, Finset.sum_mul,
    ← Finset.sum_add_distrib]
  refine Finset.sum_congr rfl fun symbol _ => ?_
  by_cases hmem : symbol ∈ weights.symbols
  · rw [weightOf_blend hweights factor hmem, if_pos hmem, zero_mul, add_zero,
      add_sub_cancel_left, abs_mul, abs_of_nonneg h0]
  · rw [weightOf_blend_of_notMem factor hmem, if_neg hmem, Book.weightOf_of_notMem hmem, zero_sub,
      abs_neg]
    ring

/-- A blend of two books within the limits, when nothing is held in a name that has left. -/
theorem Limits.Within.blend {limits : Limits} (hprev : prev.symbols.Nodup)
    (hweights : weights.symbols.Nodup) (hbefore : limits.Within prev)
    (hafter : limits.Within weights) (hmax : 0 ≤ limits.maxWeight)
    (hleave : ∀ symbol ∉ weights.symbols, prev.weightOf symbol = 0) {factor : ℚ} (h0 : 0 ≤ factor)
    (h1 : factor ≤ 1) : limits.Within (blend prev weights factor) := by
  have hsymbols := symbols_blend prev weights factor
  have hweightOf : ∀ symbol, (Construction.blend prev weights factor).weightOf symbol =
      prev.weightOf symbol * (1 - factor) + weights.weightOf symbol * factor := by
    intro symbol
    by_cases hmem : symbol ∈ weights.symbols
    · rw [weightOf_blend hweights factor hmem]
      ring
    · rw [weightOf_blend_of_notMem factor hmem, hleave symbol hmem, Book.weightOf_of_notMem hmem]
      ring
  have hconvex : ∀ x y : ℚ,
      |x * (1 - factor) + y * factor| ≤ |x| * (1 - factor) + |y| * factor := by
    intro x y
    refine (abs_add_le _ _).trans (le_of_eq ?_)
    rw [abs_mul, abs_mul, abs_of_nonneg (sub_nonneg.mpr h1), abs_of_nonneg h0]
  have hbound : ∀ {x y limit : ℚ}, x ≤ limit → y ≤ limit →
      x * (1 - factor) + y * factor ≤ limit := by
    intro x y limit hx hy
    nlinarith
  have hweightOf_le : ∀ {book : Book Symbol}, book.symbols.Nodup → limits.Within book →
      ∀ symbol, |book.weightOf symbol| ≤ limits.maxWeight := by
    intro book hnodup hwithin symbol
    by_cases hmem : symbol ∈ book.symbols
    · obtain ⟨w, hw, rfl⟩ := List.mem_map.mp hmem
      rw [Book.weightOf_of_mem hnodup hw]
      exact hwithin.weight w hw
    · rw [Book.weightOf_of_notMem hmem, abs_zero]
      exact hmax
  have hnodup : (Construction.blend prev weights factor).symbols.Nodup := by rwa [hsymbols]
  have hall : ∀ symbol ∈ (Construction.blend prev weights factor).symbols,
      symbol ∈ prev.allSymbols weights := by
    rw [hsymbols]
    exact Book.mem_allSymbols_right prev weights
  have hgross := hbefore.gross
  have hgross' := hafter.gross
  have hnet := hbefore.net
  have hnet' := hafter.net
  rw [Book.gross, Book.sum_eq hprev (Book.mem_allSymbols_left prev weights)
    abs_zero] at hgross
  rw [Book.gross, Book.sum_eq hweights (Book.mem_allSymbols_right prev weights)
    abs_zero] at hgross'
  rw [Book.net_eq hprev (Book.mem_allSymbols_left prev weights)] at hnet
  rw [Book.net_eq hweights (Book.mem_allSymbols_right prev weights)] at hnet'
  refine ⟨fun w hw => ?_, ?_, ?_⟩
  · rw [← Book.weightOf_of_mem hnodup hw, hweightOf]
    exact (hconvex _ _).trans
      (hbound (hweightOf_le hprev hbefore _) (hweightOf_le hweights hafter _))
  · rw [Book.gross, Book.sum_eq hnodup hall abs_zero]
    rw [Finset.sum_congr rfl fun symbol _ => congrArg abs (hweightOf symbol)]
    refine (Finset.sum_le_sum fun symbol _ => hconvex _ _).trans ?_
    rw [Finset.sum_add_distrib, ← Finset.sum_mul, ← Finset.sum_mul]
    exact hbound hgross hgross'
  · rw [Book.net_eq hnodup hall, Finset.sum_congr rfl fun symbol _ => hweightOf symbol,
      Finset.sum_add_distrib, ← Finset.sum_mul, ← Finset.sum_mul]
    exact (hconvex _ _).trans (hbound hnet hnet')

end Blend

end SignalFoundry.Construction
