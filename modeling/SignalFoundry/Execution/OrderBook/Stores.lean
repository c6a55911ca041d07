import SignalFoundry.Execution.OrderBook.Python

/-!
# What the five structures of the Python book store

The state of `PyOrderBook` stores a table from sides and prices to queues:
`Stores` reads each of the redundant structures as a function of that table.
Three edits cover every mutation of the code: a level gets another queue
(`putQueue`), an empty level is created (`openLevel`) and an empty level is
dropped (`dropLevel`). An index finds each order at the one place where it rests
(`Indexes`), so popping an order from it takes no other away.
-/

namespace LimitBook

open PriceTime

/-! ## Sorted price lists -/

theorem mem_insort {prices : List ℤ} {price other : ℤ} :
    other ∈ insort prices price ↔ other = price ∨ other ∈ prices := by
  have hsplit : other ∈ prices ↔ other ∈ prices.takeWhile (· ≤ price) ∨
      other ∈ prices.dropWhile (· ≤ price) := by
    rw [← List.mem_append, List.takeWhile_append_dropWhile]
  rw [hsplit, insort, List.mem_append, List.mem_cons]
  tauto

theorem insort_cons_of_le {p price : ℤ} (h : p ≤ price) (prices : List ℤ) :
    insort (p :: prices) price = p :: insort prices price := by
  simp [insort, h]

theorem insort_cons_of_lt {p price : ℤ} (h : price < p) (prices : List ℤ) :
    insort (p :: prices) price = price :: p :: prices := by
  simp [insort, h.not_ge]

theorem pairwise_insort {prices : List ℤ} {price : ℤ} (hsorted : prices.Pairwise (· < ·))
    (hnew : price ∉ prices) : (insort prices price).Pairwise (· < ·) := by
  induction prices with
  | nil => exact List.pairwise_singleton _ _
  | cons p prices ih =>
      obtain ⟨hfirst, hrest⟩ := List.pairwise_cons.mp hsorted
      simp only [List.mem_cons, not_or] at hnew
      rcases lt_or_gt_of_ne hnew.1 with hlt | hgt
      · rw [insort_cons_of_lt hlt]
        refine List.pairwise_cons.mpr ⟨fun other hother => ?_, hsorted⟩
        rcases List.mem_cons.mp hother with rfl | hmem
        · exact hlt
        · exact hlt.trans (hfirst other hmem)
      · rw [insort_cons_of_le hgt.le]
        refine List.pairwise_cons.mpr ⟨fun other hother => ?_, ih hrest hnew.2⟩
        rcases mem_insort.mp hother with rfl | hmem
        · exact hgt
        · exact hfirst other hmem

/-- Deleting the price that `bisect_left` finds. -/
theorem eraseIdx_bisectLeft {prices : List ℤ} (hsorted : prices.Pairwise (· < ·)) (price : ℤ) :
    (if prices[bisectLeft prices price]? = some price then
      prices.eraseIdx (bisectLeft prices price) else prices) = prices.filter (· ≠ price) := by
  induction prices with
  | nil => rfl
  | cons p prices ih =>
      obtain ⟨hfirst, hrest⟩ := List.pairwise_cons.mp hsorted
      rcases lt_trichotomy p price with hlt | rfl | hgt
      · have hindex : bisectLeft (p :: prices) price = bisectLeft prices price + 1 := by
          simp [bisectLeft, hlt]
        rw [hindex, List.getElem?_cons_succ, List.eraseIdx_cons_succ,
          List.filter_cons_of_pos (by simpa using hlt.ne), ← ih hrest]
        split <;> rfl
      · have hindex : bisectLeft (p :: prices) p = 0 := by simp [bisectLeft]
        have hlater : prices.filter (· ≠ p) = prices :=
          List.filter_eq_self.mpr fun q hq => by simpa using (hfirst q hq).ne'
        rw [hindex, List.filter_cons_of_neg (by simp), hlater]
        simp
      · have hindex : bisectLeft (p :: prices) price = 0 := by simp [bisectLeft, hgt.le]
        have hall : (p :: prices).filter (· ≠ price) = p :: prices := by
          refine List.filter_eq_self.mpr fun q hq => ?_
          have hlt : price < q := by
            rcases List.mem_cons.mp hq with rfl | hmem
            · exact hgt
            · exact hgt.trans (hfirst q hmem)
          simpa using hlt.ne'
        rw [hindex, hall]
        simp [hgt.ne']

/-! ## Indexes -/

/-- An index finds an order exactly at the place of the table where it rests. -/
def Indexes (find : ℤ → Option (Side × ℤ)) (table : Side × ℤ → Option (Queue ℤ)) : Prop :=
  ∀ id key, find id = some key ↔ ∃ queue, table key = some queue ∧ id ∈ queue.map Prod.fst

namespace Indexes

variable {find find' : ℤ → Option (Side × ℤ)} {table : Side × ℤ → Option (Queue ℤ)}
  {place : Side × ℤ} {queue queue' : Queue ℤ}

/-- An order rests at one place only. -/
theorem unique (h : Indexes find table) {id : ℤ} {key key' : Side × ℤ}
    (hkey : table key = some queue) (hmem : id ∈ queue.map Prod.fst)
    (hkey' : table key' = some queue') (hmem' : id ∈ queue'.map Prod.fst) : key = key' := by
  have hindex := (h id key).mpr ⟨queue, hkey, hmem⟩
  have hindex' := (h id key').mpr ⟨queue', hkey', hmem'⟩
  exact Option.some.inj (hindex.symm.trans hindex')

/-- A queue keeps its orders. -/
theorem same (h : Indexes find table) (hold : table place = some queue)
    (hids : queue'.map Prod.fst = queue.map Prod.fst) :
    Indexes find (Function.update table place (some queue')) := by
  intro id key
  rw [h]
  by_cases heq : key = place
  · subst heq
    simp only [hold, Function.update_self, Option.some.injEq, exists_eq_left', hids]
  · rw [Function.update_of_ne heq]

/-- A queue loses one order. -/
theorem gone (h : Indexes find table) {lost : ℤ} (hold : table place = some queue)
    (hlost : lost ∈ queue.map Prod.fst)
    (hids : ∀ id, id ∈ queue'.map Prod.fst ↔ id ∈ queue.map Prod.fst ∧ id ≠ lost)
    (hfind : ∀ id, find' id = if id = lost then none else find id) :
    Indexes find' (Function.update table place (some queue')) := by
  intro id key
  have hleft : find' id = some key ↔
      id ≠ lost ∧ ∃ q, table key = some q ∧ id ∈ q.map Prod.fst := by
    rw [hfind, ← h]
    by_cases heq : id = lost <;> simp [heq]
  rw [hleft]
  by_cases heq : key = place
  · subst heq
    simp only [hold, Function.update_self, Option.some.injEq, exists_eq_left', hids]
    exact and_comm
  · rw [Function.update_of_ne heq, and_iff_right_iff_imp]
    rintro ⟨q, hq, hmem⟩ rfl
    exact heq (h.unique hq hmem hold hlost)

/-- A queue gets a new order. -/
theorem joined (h : Indexes find table) {new : ℤ} (hold : table place = some queue)
    (hnew : find new = none) (qty : ℤ)
    (hfind : ∀ id, find' id = if id = new then some place else find id) :
    Indexes find' (Function.update table place (some (queue ++ [(new, qty)]))) := by
  intro id key
  have hnowhere : ∀ {key q}, table key = some q → new ∉ q.map Prod.fst := by
    intro key q hq hmem
    rw [(h new key).mpr ⟨q, hq, hmem⟩] at hnew
    cases hnew
  rw [hfind]
  by_cases heq : key = place
  · subst heq
    by_cases hid : id = new
    · simp [hid]
    · rw [if_neg hid, h]
      simp [hold, hid]
  · rw [Function.update_of_ne heq]
    by_cases hid : id = new
    · subst hid
      rw [if_pos rfl]
      constructor
      · intro hkey
        exact absurd (Option.some.inj hkey).symm heq
      · rintro ⟨q, hq, hmem⟩
        exact absurd hmem (hnowhere hq)
    · rw [if_neg hid, h]

/-- An empty level holds no order. -/
theorem vacant (h : Indexes find table) {entry : Option (Queue ℤ)}
    (hold : ∀ q, table place = some q → q = []) (hentry : ∀ q, entry = some q → q = []) :
    Indexes find (Function.update table place entry) := by
  intro id key
  rw [h]
  by_cases heq : key = place
  · subst heq
    rw [Function.update_self]
    constructor
    · rintro ⟨q, hq, hmem⟩
      rw [hold q hq] at hmem
      cases hmem
    · rintro ⟨q, hq, hmem⟩
      rw [hentry q hq] at hmem
      cases hmem
  · rw [Function.update_of_ne heq]

end Indexes

namespace PyOrderBook

/-! ## Fields of an updated book -/

variable (s : PyOrderBook) (side : Side)

@[simp] theorem book_setBook (d : OrderedDict ℤ (List (ℤ × ℤ))) :
    (s.setBook side d).book side = d := by
  cases side <;> rfl

theorem book_setBook_of_ne {side other : Side} (h : other ≠ side)
    (d : OrderedDict ℤ (List (ℤ × ℤ))) : (s.setBook side d).book other = s.book other := by
  cases side <;> cases other <;> first | rfl | exact absurd rfl h

@[simp] theorem prices_setBook (d : OrderedDict ℤ (List (ℤ × ℤ))) :
    (s.setBook side d).prices = s.prices := by
  cases side <;> rfl

@[simp] theorem levelTotal_setBook (d : OrderedDict ℤ (List (ℤ × ℤ))) :
    (s.setBook side d).levelTotal = s.levelTotal := by
  cases side <;> rfl

@[simp] theorem index_setBook (d : OrderedDict ℤ (List (ℤ × ℤ))) :
    (s.setBook side d).index = s.index := by
  cases side <;> rfl

@[simp] theorem fills_setBook (d : OrderedDict ℤ (List (ℤ × ℤ))) :
    (s.setBook side d).fills = s.fills := by
  cases side <;> rfl

@[simp] theorem nextId_setBook (d : OrderedDict ℤ (List (ℤ × ℤ))) :
    (s.setBook side d).nextId = s.nextId := by
  cases side <;> rfl

@[simp] theorem prices_setPrices (l : List ℤ) : (s.setPrices side l).prices side = l := by
  cases side <;> rfl

theorem prices_setPrices_of_ne {side other : Side} (h : other ≠ side) (l : List ℤ) :
    (s.setPrices side l).prices other = s.prices other := by
  cases side <;> cases other <;> first | rfl | exact absurd rfl h

@[simp] theorem book_setPrices (l : List ℤ) : (s.setPrices side l).book = s.book := by
  cases side <;> rfl

@[simp] theorem levelTotal_setPrices (l : List ℤ) :
    (s.setPrices side l).levelTotal = s.levelTotal := by
  cases side <;> rfl

@[simp] theorem index_setPrices (l : List ℤ) : (s.setPrices side l).index = s.index := by
  cases side <;> rfl

@[simp] theorem fills_setPrices (l : List ℤ) : (s.setPrices side l).fills = s.fills := by
  cases side <;> rfl

@[simp] theorem nextId_setPrices (l : List ℤ) : (s.setPrices side l).nextId = s.nextId := by
  cases side <;> rfl

theorem setPrices_prices : s.setPrices side (s.prices side) = s := by
  cases side <;> rfl

variable {s side} in
theorem dropLevel_eq (hsorted : (s.prices side).Pairwise (· < ·)) (price : ℤ) :
    s.dropLevel side price =
      ({ s.setBook side ((s.book side).erase price) with
        levelTotal := s.levelTotal.erase (side, price) } : PyOrderBook).setPrices side
          ((s.prices side).filter (· ≠ price)) := by
  have hprices : ∀ totals, ({ s.setBook side ((s.book side).erase price) with
      levelTotal := totals } : PyOrderBook).prices side = s.prices side := fun _ =>
    congrFun (prices_setBook s side _) side
  rw [← eraseIdx_bisectLeft hsorted price]
  simp only [dropLevel, levelTotal_setBook, hprices]
  split
  · rfl
  · rw [← hprices (s.levelTotal.erase (side, price)), setPrices_prices]

variable {s side} in
theorem fills_dropLevel (hsorted : (s.prices side).Pairwise (· < ·)) (price : ℤ) :
    (s.dropLevel side price).fills = s.fills := by
  rw [dropLevel_eq hsorted, fills_setPrices]
  exact fills_setBook s side _

variable {s side} in
theorem nextId_dropLevel (hsorted : (s.prices side).Pairwise (· < ·)) (price : ℤ) :
    (s.dropLevel side price).nextId = s.nextId := by
  rw [dropLevel_eq hsorted, nextId_setPrices]
  exact nextId_setBook s side _

/-! ## The stored table -/

variable {s side}

/-- The structures of the book agree on one table from sides and prices to queues. -/
structure Stores (s : PyOrderBook) (table : Side × ℤ → Option (Queue ℤ)) : Prop where
  book : ∀ side price, (s.book side).get? price = table (side, price)
  total : ∀ key, s.levelTotal.get? key = (table key).map total
  sorted : ∀ side, (s.prices side).Pairwise (· < ·)
  prices : ∀ side price, price ∈ s.prices side ↔ (table (side, price)).isSome
  index : Indexes s.index.get? table

namespace Stores

variable {table : Side × ℤ → Option (Queue ℤ)} {price : ℤ}

/-- A level gets another queue; its total and the index follow. -/
theorem putQueue (h : s.Stores table) {queue queue' : Queue ℤ}
    (hold : table (side, price) = some queue) {s' : PyOrderBook}
    (hbook : s'.book = (s.setBook side ((s.book side).set price queue')).book)
    (hprices : s'.prices = s.prices)
    (htotal : s'.levelTotal = s.levelTotal.set (side, price) (PriceTime.total queue'))
    (hindex : Indexes s'.index.get? (Function.update table (side, price) (some queue'))) :
    s'.Stores (Function.update table (side, price) (some queue')) := by
  refine ⟨fun other p => ?_, fun key => ?_, fun other => ?_, fun other p => ?_, hindex⟩
  · rw [hbook]
    by_cases hside : other = side
    · subst hside
      rw [book_setBook, OrderedDict.get?_set, Function.update_apply, h.book]
      simp [Prod.ext_iff]
    · rw [book_setBook_of_ne _ hside, Function.update_of_ne (by simp [hside]), h.book]
  · rw [htotal, OrderedDict.get?_set, Function.update_apply, h.total]
    split <;> rfl
  · rw [hprices]
    exact h.sorted other
  · rw [hprices, h.prices, Function.update_apply]
    split
    · next heq => rw [heq, hold, Option.isSome_some, Option.isSome_some]
    · rfl

/-- A level is created with an empty queue. -/
theorem openLevel (h : s.Stores table) (hold : table (side, price) = none) :
    (({ s.setBook side ((s.book side).set price []) with
      levelTotal := s.levelTotal.set (side, price) 0 } : PyOrderBook).insertPrice side price).Stores
        (Function.update table (side, price) (some [])) := by
  have hnew : price ∉ s.prices side := by simp [h.prices, hold]
  refine ⟨fun other p => ?_, fun key => ?_, fun other => ?_, fun other p => ?_, ?_⟩
  · rw [insertPrice, book_setPrices]
    change ((s.setBook side ((s.book side).set price [])).book other).get? p = _
    by_cases hside : other = side
    · subst hside
      rw [book_setBook, OrderedDict.get?_set, Function.update_apply, h.book]
      simp [Prod.ext_iff]
    · rw [book_setBook_of_ne _ hside, Function.update_of_ne (by simp [hside]), h.book]
  · rw [insertPrice, levelTotal_setPrices]
    change (s.levelTotal.set (side, price) 0).get? key = _
    rw [OrderedDict.get?_set, Function.update_apply, h.total]
    split <;> rfl
  · by_cases hside : other = side
    · subst hside
      rw [insertPrice, prices_setPrices]
      change (insort ((s.setBook other _).prices other) price).Pairwise _
      rw [prices_setBook]
      exact pairwise_insort (h.sorted other) hnew
    · rw [insertPrice, prices_setPrices_of_ne _ hside]
      change ((s.setBook side _).prices other).Pairwise _
      rw [prices_setBook]
      exact h.sorted other
  · by_cases hside : other = side
    · subst hside
      rw [insertPrice, prices_setPrices]
      change p ∈ insort ((s.setBook other _).prices other) price ↔ _
      rw [prices_setBook, mem_insort, h.prices, Function.update_apply]
      by_cases hp : p = price <;> simp [hp]
    · rw [insertPrice, prices_setPrices_of_ne _ hside]
      change p ∈ (s.setBook side _).prices other ↔ _
      rw [prices_setBook, h.prices, Function.update_of_ne (by simp [hside])]
  · rw [insertPrice, index_setPrices]
    change Indexes (s.setBook side _).index.get? _
    rw [index_setBook]
    exact h.index.vacant (by simp [hold]) (by simp)

/-- An empty level is dropped. -/
theorem dropLevel (h : s.Stores table) (hold : table (side, price) = some []) :
    (s.dropLevel side price).Stores (Function.update table (side, price) none) := by
  rw [dropLevel_eq (h.sorted side)]
  refine ⟨fun other p => ?_, fun key => ?_, fun other => ?_, fun other p => ?_, ?_⟩
  · rw [book_setPrices]
    change ((s.setBook side ((s.book side).erase price)).book other).get? p = _
    by_cases hside : other = side
    · subst hside
      rw [book_setBook, OrderedDict.get?_erase, Function.update_apply, h.book]
      simp [Prod.ext_iff]
    · rw [book_setBook_of_ne _ hside, Function.update_of_ne (by simp [hside]), h.book]
  · rw [levelTotal_setPrices]
    change (s.levelTotal.erase (side, price)).get? key = _
    rw [OrderedDict.get?_erase, Function.update_apply, h.total]
    split <;> rfl
  · by_cases hside : other = side
    · subst hside
      rw [prices_setPrices]
      exact (h.sorted other).filter _
    · rw [prices_setPrices_of_ne _ hside]
      change ((s.setBook side _).prices other).Pairwise _
      rw [prices_setBook]
      exact h.sorted other
  · by_cases hside : other = side
    · subst hside
      rw [prices_setPrices, List.mem_filter, h.prices, Function.update_apply]
      by_cases hp : p = price <;> simp [hp]
    · rw [prices_setPrices_of_ne _ hside]
      change p ∈ (s.setBook side _).prices other ↔ _
      rw [prices_setBook, h.prices, Function.update_of_ne (by simp [hside])]
  · rw [index_setPrices]
    change Indexes (s.setBook side _).index.get? _
    rw [index_setBook]
    exact h.index.vacant (by simp [hold]) (by simp)

end Stores

end PyOrderBook

end LimitBook
