import SignalFoundry.Library.Json.RoundTrip
import SignalFoundry.Library.Table

/-!
# Values of the language as JSON

What `json.dumps(..., sort_keys=True, allow_nan=False)` makes of a nest of
dictionaries and lists. The members of a dictionary are sorted by their keys as
the language compares them and the keys are written as texts afterwards, so a
dictionary with integer keys is not written in the order of its texts and reads
back as a dictionary that is written otherwise.
-/

/-- A key of a dictionary. Keys that are floats are left out. -/
inductive PyKey where
  | str (value : String)
  | int (value : ℤ)
  deriving DecidableEq

namespace PyKey

/-- The key of the JSON object. -/
def text : PyKey → String
  | str s => s
  | int n => String.ofList (Json.writeInt n)

def isStr : PyKey → Bool
  | str _ => true
  | int _ => false

def number : PyKey → ℤ
  | str _ => 0
  | int n => n

end PyKey

/-- A value that `json` takes, with its dictionaries in insertion order. -/
inductive PyValue (F : Type) where
  | none
  | bool (value : Bool)
  | int (value : ℤ)
  | float (value : F)
  | str (value : String)
  | list (items : List (PyValue F))
  | dict (members : List (PyKey × PyValue F))

namespace PyValue

variable {F : Type}

/-! ## Writing -/

/-- The members of a dictionary as `sorted(d.items())` orders them; `none` is
the `TypeError` of keys that do not compare. -/
def byKey (members : List (PyKey × Json F)) : Option (List (String × Json F)) :=
  if members.all (·.1.isStr) then
    some ((members.map fun m => (m.1.text, m.2)).insertionSort (·.1 ≤ ·.1))
  else if members.all (! ·.1.isStr) then
    some ((members.insertionSort (·.1.number ≤ ·.1.number)).map fun m => (m.1.text, m.2))
  else Option.none

variable [PyFloat F]

mutual

/-- The document that is written for a value; `none` is its `TypeError` or
`ValueError`. -/
def layOut : PyValue F → Option (Json F)
  | none => some .null
  | bool b => some (.bool b)
  | int n =>
      if (Nat.toDigits 10 n.natAbs).length ≤ Json.maxIntegerDigits then some (.int n)
      else Option.none
  | float x => if PyFloat.isFinite x then some (.float x) else Option.none
  | str s => some (.str s)
  | list items => (layOutItems items).map .arr
  | dict members => ((layOutMembers members).bind byKey).map .obj

def layOutItems : List (PyValue F) → Option (List (Json F))
  | [] => some []
  | v :: rest => do return (← v.layOut) :: (← layOutItems rest)

def layOutMembers : List (PyKey × PyValue F) → Option (List (PyKey × Json F))
  | [] => some []
  | (k, v) :: rest => do return (k, ← v.layOut) :: (← layOutMembers rest)

end

/-- `json.dumps(value, sort_keys=True, separators=(",", ":"), allow_nan=False)`. -/
def dumps [FloatText F] (v : PyValue F) : Option String :=
  v.layOut.map fun document => String.ofList document.write

/-! ## Reading -/

omit [PyFloat F] in
mutual

/-- The value of a document. -/
def ofJson : Json F → PyValue F
  | .null => none
  | .bool b => bool b
  | .int n => int n
  | .float x => float x
  | .str s => str s
  | .arr items => list (ofItems items)
  | .obj members => dict (ofMembers members)

def ofItems : List (Json F) → List (PyValue F)
  | [] => []
  | v :: rest => ofJson v :: ofItems rest

def ofMembers : List (String × Json F) → List (PyKey × PyValue F)
  | [] => []
  | (k, v) :: rest => (.str k, ofJson v) :: ofMembers rest

end

/-- `json.loads` without hooks. -/
def plainHooks [FloatText F] : Json.Hooks F Unit where
  objectPairs members :=
    .ok (.obj (members.foldl (fun d m => Table.upsert Prod.fst m d) []))
  parseConstant text := .ok (.float (FloatText.parse text))
  decodeError := ()

/-- `json.loads`; `none` is its `ValueError`. -/
def loads [FloatText F] (text : String) : Option (PyValue F) :=
  (Json.loads plainHooks text).toOption.map ofJson

/-- `value[name]` of a dictionary; `none` is its `KeyError` or `TypeError`. -/
def member? (name : String) : PyValue F → Option (PyValue F)
  | dict members => members.lookup (.str name)
  | _ => Option.none

/-! ## Values that read back -/

omit [PyFloat F]

mutual

/-- No dictionary repeats a key. -/
def Unique : PyValue F → Prop
  | list items => UniqueItems items
  | dict members => (members.map Prod.fst).Nodup ∧ UniqueMembers members
  | _ => True

def UniqueItems : List (PyValue F) → Prop
  | [] => True
  | v :: rest => v.Unique ∧ UniqueItems rest

def UniqueMembers : List (PyKey × PyValue F) → Prop
  | [] => True
  | (_, v) :: rest => v.Unique ∧ UniqueMembers rest

end

mutual

/-- The keys of every dictionary are strings. -/
def TextKeyed : PyValue F → Prop
  | list items => TextKeyedItems items
  | dict members => TextKeyedMembers members
  | _ => True

def TextKeyedItems : List (PyValue F) → Prop
  | [] => True
  | v :: rest => v.TextKeyed ∧ TextKeyedItems rest

def TextKeyedMembers : List (PyKey × PyValue F) → Prop
  | [] => True
  | (k, v) :: rest => k.isStr = true ∧ v.TextKeyed ∧ TextKeyedMembers rest

end

/-- Members under texts are written in the order of the texts. -/
theorem byKey_eq_some {members : List (PyKey × Json F)} (h : ∀ m ∈ members, m.1.isStr = true) :
    byKey members =
      some ((members.map fun m => (m.1.text, m.2)).insertionSort (·.1 ≤ ·.1)) := by
  rw [byKey, if_pos (List.all_eq_true.mpr h)]

theorem map_text_map_str (members : List (String × Json F)) :
    (members.map fun m => (PyKey.str m.1, m.2)).map (fun m => (m.1.text, m.2)) = members := by
  rw [List.map_map]
  exact List.map_id _

/-- Members that are in order already are written as they are. -/
theorem byKey_map_str {members : List (String × Json F)}
    (h : members.Pairwise (·.1 ≤ ·.1)) :
    byKey (members.map fun m => (PyKey.str m.1, m.2)) = some members := by
  rw [byKey_eq_some, map_text_map_str, h.insertionSort_eq]
  intro m hm
  obtain ⟨_, -, rfl⟩ := List.mem_map.mp hm
  rfl

variable [PyFloat F]

theorem layOutMembers_ofMembers {members : List (String × Json F)}
    (h : ∀ m ∈ members, (ofJson m.2).layOut = some m.2) :
    layOutMembers (ofMembers members) = some (members.map fun m => (.str m.1, m.2)) := by
  induction members with
  | nil => rfl
  | cons m members ih =>
      obtain ⟨hm, hrest⟩ := List.forall_mem_cons.mp h
      simp [ofMembers, layOutMembers, hm, ih hrest]

mutual

/-- The document of a value with texts as keys is the document of what is read
back from it. -/
theorem layOut_ofJson : ∀ {v : PyValue F} {j : Json F}, v.TextKeyed → v.layOut = some j →
    (ofJson j).layOut = some j
  | none, _, _, h => by
      obtain rfl := Option.some.inj h
      rfl
  | bool _, _, _, h => by
      obtain rfl := Option.some.inj h
      rfl
  | str _, _, _, h => by
      obtain rfl := Option.some.inj h
      rfl
  | int n, _, _, h => by
      obtain ⟨hn, hj⟩ := Option.ite_none_right_eq_some.mp h
      obtain rfl := Option.some.inj hj
      exact if_pos hn
  | float x, _, _, h => by
      obtain ⟨hx, hj⟩ := Option.ite_none_right_eq_some.mp h
      obtain rfl := Option.some.inj hj
      exact if_pos hx
  | list items, _, hkeys, h => by
      obtain ⟨documents, hitems, rfl⟩ := Option.map_eq_some_iff.mp h
      rw [ofJson, layOut, layOutItems_ofItems hkeys hitems]
      rfl
  | dict members, _, hkeys, h => by
      obtain ⟨ordered, hordered, rfl⟩ := Option.map_eq_some_iff.mp h
      obtain ⟨documents, hmembers, hbyKey⟩ := Option.bind_eq_some_iff.mp hordered
      have hread := layOut_ofMembers hkeys hmembers
      rw [byKey_eq_some fun m hm => (hread m hm).1] at hbyKey
      obtain rfl := Option.some.inj hbyKey
      have hvalues : ∀ m ∈ (documents.map fun m => (m.1.text, m.2)).insertionSort (·.1 ≤ ·.1),
          (ofJson m.2).layOut = some m.2 := by
        intro m hm
        rw [List.mem_insertionSort] at hm
        obtain ⟨document, hdocument, rfl⟩ := List.mem_map.mp hm
        exact (hread document hdocument).2
      rw [ofJson, layOut, layOutMembers_ofMembers hvalues, Option.bind_some,
        byKey_map_str (List.pairwise_insertionSort _ _)]
      rfl

theorem layOutItems_ofItems : ∀ {items : List (PyValue F)} {documents : List (Json F)},
    TextKeyedItems items → layOutItems items = some documents →
      layOutItems (ofItems documents) = some documents
  | [], _, _, h => by
      obtain rfl := Option.some.inj h
      rfl
  | v :: rest, _, hkeys, h => by
      simp only [layOutItems, Option.bind_eq_bind, Option.pure_def, Option.bind_eq_some_iff,
        Option.some.injEq] at h
      obtain ⟨document, hv, documents, hrest, rfl⟩ := h
      simp [ofItems, layOutItems, layOut_ofJson hkeys.1 hv, layOutItems_ofItems hkeys.2 hrest]

theorem layOut_ofMembers : ∀ {members : List (PyKey × PyValue F)}
    {documents : List (PyKey × Json F)}, TextKeyedMembers members →
      layOutMembers members = some documents →
        ∀ m ∈ documents, m.1.isStr = true ∧ (ofJson m.2).layOut = some m.2
  | [], _, _, h => by
      obtain rfl := Option.some.inj h
      exact fun m hm => absurd hm List.not_mem_nil
  | (k, v) :: rest, _, hkeys, h => by
      simp only [layOutMembers, Option.bind_eq_bind, Option.pure_def, Option.bind_eq_some_iff,
        Option.some.injEq] at h
      obtain ⟨document, hv, documents, hrest, rfl⟩ := h
      exact List.forall_mem_cons.mpr
        ⟨⟨hkeys.1, layOut_ofJson hkeys.2.1 hv⟩, layOut_ofMembers hkeys.2.2 hrest⟩

end

theorem keys_layOutMembers {members : List (PyKey × PyValue F)}
    {documents : List (PyKey × Json F)} (h : layOutMembers members = some documents) :
    documents.map Prod.fst = members.map Prod.fst := by
  induction members generalizing documents with
  | nil =>
      obtain rfl := Option.some.inj h
      rfl
  | cons m members ih =>
      simp only [layOutMembers, Option.bind_eq_bind, Option.pure_def, Option.bind_eq_some_iff,
        Option.some.injEq] at h
      obtain ⟨document, -, rest, hrest, rfl⟩ := h
      simp [ih hrest]

omit [PyFloat F] in
/-- Keys of one kind have texts of their own. -/
theorem text_inj_of_isStr_eq {a b : PyKey} (hkind : a.isStr = b.isStr) (h : a.text = b.text) :
    a = b := by
  cases a <;> cases b
  case str.str => exact congrArg PyKey.str h
  case str.int => cases hkind
  case int.str => cases hkind
  case int.int m n =>
    have hwritten : Json.writeInt m = Json.writeInt n := String.ofList_injective h
    obtain ⟨hmnegative, hmdigits⟩ := Json.unsigned_writeInt m
    obtain ⟨hnnegative, hndigits⟩ := Json.unsigned_writeInt n
    rw [hwritten] at hmnegative hmdigits
    have hnegative : (m < 0) ↔ (n < 0) := by
      simpa using hmnegative.symm.trans hnnegative
    have hdigits : m.natAbs = n.natAbs := by
      rw [← Nat.ofDigitChars_ten_toDigits (n := m.natAbs), ← hmdigits, hndigits,
        Nat.ofDigitChars_ten_toDigits]
    congr 1
    omega

omit [PyFloat F] in
theorem nodup_map_text {keys : List PyKey} (kind : Bool) (h : ∀ k ∈ keys, k.isStr = kind)
    (hkeys : keys.Nodup) : (keys.map PyKey.text).Nodup :=
  (List.nodup_map_iff_inj_on hkeys).mpr fun _ ha _ hb heq =>
    text_inj_of_isStr_eq ((h _ ha).trans (h _ hb).symm) heq

/-- The members of a document are those that were laid out, under distinct
texts. -/
theorem perm_byKey {members : List (PyKey × PyValue F)} {documents : List (PyKey × Json F)}
    {ordered : List (String × Json F)} (hunique : (dict members).Unique)
    (hmembers : layOutMembers members = some documents) (hbyKey : byKey documents = some ordered) :
    (ordered.map Prod.fst).Nodup ∧ ordered.Perm (documents.map fun m => (m.1.text, m.2)) := by
  have hdistinct : (documents.map Prod.fst).Nodup := keys_layOutMembers hmembers ▸ hunique.1
  have hnodup : ∀ kind : Bool, (∀ m ∈ documents, m.1.isStr = kind) →
      ((documents.map fun m => (m.1.text, m.2)).map Prod.fst).Nodup := by
    intro kind hkind
    have htexts := nodup_map_text kind (by simpa using fun k v hm => hkind (k, v) hm)
      hdistinct
    rw [List.map_map] at htexts ⊢
    exact htexts
  rw [byKey] at hbyKey
  split at hbyKey
  · next hall =>
      obtain rfl := Option.some.inj hbyKey
      have hperm := List.perm_insertionSort (fun a b : String × Json F => a.1 ≤ b.1)
        (documents.map fun m => (m.1.text, m.2))
      exact ⟨(hperm.map Prod.fst).nodup_iff.mpr (hnodup true (List.all_eq_true.mp hall)), hperm⟩
  · split at hbyKey
    · next hall =>
        obtain rfl := Option.some.inj hbyKey
        have hperm := (List.perm_insertionSort
          (fun a b : PyKey × Json F => a.1.number ≤ b.1.number) documents).map
            fun m => (m.1.text, m.2)
        refine ⟨(hperm.map Prod.fst).nodup_iff.mpr (hnodup false fun m hm => ?_), hperm⟩
        simpa using List.all_eq_true.mp hall m hm
    · cases hbyKey

theorem mem_layOutMembers {members : List (PyKey × PyValue F)}
    {documents : List (PyKey × Json F)} (h : layOutMembers members = some documents) {k : PyKey}
    {v : PyValue F} (hv : (k, v) ∈ members) : ∃ w, v.layOut = some w ∧ (k, w) ∈ documents := by
  induction members generalizing documents with
  | nil => exact absurd hv List.not_mem_nil
  | cons m members ih =>
      simp only [layOutMembers, Option.bind_eq_bind, Option.pure_def, Option.bind_eq_some_iff,
        Option.some.injEq] at h
      obtain ⟨document, hm, rest, hrest, rfl⟩ := h
      rcases List.mem_cons.mp hv with rfl | hv
      · exact ⟨document, hm, List.mem_cons_self⟩
      · obtain ⟨w, hw, hmem⟩ := ih hrest hv
        exact ⟨w, hw, List.mem_cons_of_mem _ hmem⟩

omit [PyFloat F] in
theorem ofMembers_eq_map (members : List (String × Json F)) :
    ofMembers members = members.map fun m => (.str m.1, ofJson m.2) := by
  induction members with
  | nil => rfl
  | cons m members ih => rw [ofMembers, ih, List.map_cons]

/-- The members of a dictionary with texts as keys are those of what is read
back from its document. -/
theorem member?_ofJson {members : List (PyKey × PyValue F)} {document : Json F}
    (hunique : (dict members).Unique) (h : (dict members).layOut = some document) {name : String} {v : PyValue F}
    (hv : (.str name, v) ∈ members) :
    ∃ w, v.layOut = some w ∧ (ofJson document).member? name = some (ofJson w) := by
  obtain ⟨ordered, hordered, rfl⟩ := Option.map_eq_some_iff.mp h
  obtain ⟨documents, hmembers, hbyKey⟩ := Option.bind_eq_some_iff.mp hordered
  obtain ⟨w, hw, hmem⟩ := mem_layOutMembers hmembers hv
  obtain ⟨hnodup, hperm⟩ := perm_byKey hunique hmembers hbyKey
  have hread : (ofMembers ordered).map Prod.fst = (ordered.map Prod.fst).map PyKey.str := by
    rw [ofMembers_eq_map, List.map_map, List.map_map]
    rfl
  have hnodup' : ((ofMembers ordered).map Prod.fst).Nodup := by
    rw [hread]
    exact hnodup.map fun _ _ heq => PyKey.str.inj heq
  have hpair : (PyKey.str name, ofJson w) ∈ ofMembers ordered := by
    rw [ofMembers_eq_map]
    exact List.mem_map_of_mem (f := fun m : String × Json F => (PyKey.str m.1, ofJson m.2))
      (hperm.mem_iff.mpr
        (List.mem_map_of_mem (f := fun m : PyKey × Json F => (m.1.text, m.2)) hmem))
  have hget := OrderedDict.get?_eq_some_iff (d := ⟨ofMembers ordered, hnodup'⟩).mpr hpair
  exact ⟨w, hw, hget⟩

section Reading

variable [FloatText F]

omit [PyFloat F] in
theorem keepsPairs_plainHooks : Json.KeepsPairs (plainHooks : Json.Hooks F Unit) := by
  intro members hnodup
  have hfold : ∀ before rest : List (String × Json F), ((before ++ rest).map Prod.fst).Nodup →
      rest.foldl (fun d m => Table.upsert Prod.fst m d) before = before ++ rest := by
    intro before rest
    induction rest generalizing before with
    | nil => simp
    | cons m rest ih =>
        intro h
        have hm : ∀ row ∈ before, row.1 ≠ m.1 := by
          intro row hrow heq
          rw [List.map_append, List.nodup_append] at h
          exact h.2.2 _ (List.mem_map_of_mem hrow) _ (List.mem_map_of_mem List.mem_cons_self) heq
        rw [List.foldl_cons, Table.upsert_of_not_mem hm, ih _ (by simpa using h),
          List.append_assoc, List.singleton_append]
  simp only [plainHooks, hfold [] members (by simpa using hnodup), List.nil_append]

mutual

theorem writable_layOut [Json.LawfulFloatText F] : ∀ {v : PyValue F} {j : Json F},
    v.Unique → v.layOut = some j → j.Writable
  | none, _, _, h => by
      obtain rfl := Option.some.inj h
      trivial
  | bool _, _, _, h => by
      obtain rfl := Option.some.inj h
      trivial
  | str _, _, _, h => by
      obtain rfl := Option.some.inj h
      trivial
  | int n, _, _, h => by
      obtain ⟨hn, hj⟩ := Option.ite_none_right_eq_some.mp h
      obtain rfl := Option.some.inj hj
      exact hn
  | float x, _, _, h => by
      obtain ⟨hx, hj⟩ := Option.ite_none_right_eq_some.mp h
      obtain rfl := Option.some.inj hj
      exact Json.writable_float hx
  | list items, _, hunique, h => by
      obtain ⟨documents, hitems, rfl⟩ := Option.map_eq_some_iff.mp h
      exact writable_layOutItems hunique hitems
  | dict members, _, hunique, h => by
      obtain ⟨ordered, hordered, rfl⟩ := Option.map_eq_some_iff.mp h
      obtain ⟨documents, hmembers, hbyKey⟩ := Option.bind_eq_some_iff.mp hordered
      have hwritable := writable_layOutMembers hunique.2 hmembers
      obtain ⟨hnodup, hperm⟩ := perm_byKey hunique hmembers hbyKey
      refine ⟨hnodup, Json.writableMembers_iff.mpr fun m hm => ?_⟩
      obtain ⟨document, hdocument, rfl⟩ := List.mem_map.mp (hperm.mem_iff.mp hm)
      exact hwritable document hdocument

theorem writable_layOutItems [Json.LawfulFloatText F] : ∀ {items : List (PyValue F)}
    {documents : List (Json F)}, UniqueItems items →
      layOutItems items = some documents → Json.WritableItems documents
  | [], _, _, h => by
      obtain rfl := Option.some.inj h
      trivial
  | v :: rest, _, hunique, h => by
      simp only [layOutItems, Option.bind_eq_bind, Option.pure_def, Option.bind_eq_some_iff,
        Option.some.injEq] at h
      obtain ⟨document, hv, documents, hrest, rfl⟩ := h
      exact ⟨writable_layOut hunique.1 hv, writable_layOutItems hunique.2 hrest⟩

theorem writable_layOutMembers [Json.LawfulFloatText F] : ∀ {members : List (PyKey × PyValue F)}
    {documents : List (PyKey × Json F)}, UniqueMembers members →
      layOutMembers members = some documents → ∀ m ∈ documents, m.2.Writable
  | [], _, _, h => by
      obtain rfl := Option.some.inj h
      exact fun m hm => absurd hm List.not_mem_nil
  | (k, v) :: rest, _, hunique, h => by
      simp only [layOutMembers, Option.bind_eq_bind, Option.pure_def, Option.bind_eq_some_iff,
        Option.some.injEq] at h
      obtain ⟨document, hv, documents, hrest, rfl⟩ := h
      exact List.forall_mem_cons.mpr ⟨writable_layOut hunique.1 hv,
        writable_layOutMembers hunique.2 hrest⟩

end

/-- A value is read back from the text of its document. -/
theorem loads_write [Json.LawfulFloatText F] {v : PyValue F} {j : Json F}
    (hunique : v.Unique) (h : v.layOut = some j) :
    loads (String.ofList j.write) = some (ofJson j) := by
  rw [loads, Json.loads_write plainHooks keepsPairs_plainHooks (writable_layOut hunique h)]
  rfl

end Reading

end PyValue
