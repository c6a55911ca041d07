import SignalFoundry.Library.Json.Weight
import SignalFoundry.Library.PyValue

/-!
# What a parser returns

A property of values that the hooks establish and that arrays keep holds of every value
a parser returns. The plain hooks leave no repeated key, so that a dictionary is
determined by the text that is written for it.
-/

namespace Json

variable {F : Type} [FloatText F] {ε : Type} (hooks : Hooks F ε) (P : Json F → Prop)

/-- A property of the values that a parser with the hooks puts together. -/
structure Established : Prop where
  scalar : ∀ v : Json F, (∀ items, v ≠ arr items) → (∀ members, v ≠ obj members) → P v
  constant : ∀ text v, hooks.parseConstant text = .ok v → P v
  array : ∀ items, (∀ v ∈ items, P v) → P (arr items)
  object : ∀ members v, (∀ m ∈ members, P m.2) → hooks.objectPairs members = .ok v → P v

variable {hooks P}

open Fallible

theorem Established.number (h : Established hooks P) {cs rest : List Char} {v : Json F}
    (hparse : parseNumber hooks cs = .ok (v, rest)) : P v := by
  unfold parseNumber at hparse
  split at hparse
  · cases hparse
  · next token tail =>
      split at hparse
      · cases hparse
      · next value hvalue =>
          cases hparse
          unfold NumberToken.value? at hvalue
          split at hvalue
          · obtain ⟨-, hint⟩ := Option.ite_none_right_eq_some.mp hvalue
            obtain rfl := Option.some.inj hint
            exact h.scalar _ (fun _ heq => by cases heq) fun _ heq => by cases heq
          · obtain rfl := Option.some.inj hvalue
            exact h.scalar _ (fun _ heq => by cases heq) fun _ heq => by cases heq

/-- Every value that is parsed with so much fuel has the property. -/
structure Parses (hooks : Hooks F ε) (P : Json F → Prop) (n : ℕ) : Prop where
  value : ∀ {cs v rest}, parseValue hooks n cs = .ok (v, rest) → P v
  array : ∀ {cs v rest}, parseArray hooks n cs = .ok (v, rest) → P v
  items : ∀ {cs vs rest}, parseItems hooks n cs = .ok (vs, rest) → ∀ v ∈ vs, P v
  object : ∀ {cs v rest}, parseObject hooks n cs = .ok (v, rest) → P v
  members : ∀ {cs ms rest}, parseMembers hooks n cs = .ok (ms, rest) → ∀ m ∈ ms, P m.2

theorem Established.parses_zero : Parses hooks P 0 := by
  constructor <;> intro cs v rest h <;> cases h

theorem Established.value_succ (h : Established hooks P) {n : ℕ} (ih : Parses hooks P n)
    {cs rest : List Char} {v : Json F} (hparse : parseValue hooks (n + 1) cs = .ok (v, rest)) :
    P v := by
  unfold parseValue at hparse
  split at hparse
  · split at hparse
    · cases hparse
    · cases hparse
      exact h.scalar _ (fun _ heq => by cases heq) fun _ heq => by cases heq
  · exact ih.object hparse
  · exact ih.array hparse
  iterate 3
    · cases hparse
      exact h.scalar _ (fun _ heq => by cases heq) fun _ heq => by cases heq
  iterate 3
    · obtain ⟨w, hconstant, hw⟩ := bind_eq_ok_iff.mp hparse
      cases hw
      exact h.constant _ _ hconstant
  · exact h.number hparse

theorem Established.array_succ (h : Established hooks P) {n : ℕ} (ih : Parses hooks P n)
    {cs rest : List Char} {v : Json F} (hparse : parseArray hooks (n + 1) cs = .ok (v, rest)) :
    P v := by
  unfold parseArray at hparse
  split at hparse
  · cases hparse
    exact h.array [] (by simp)
  · obtain ⟨⟨items, tail⟩, hitems, hv⟩ := bind_eq_ok_iff.mp hparse
    cases hv
    exact h.array items (ih.items hitems)

theorem Parses.items_succ {n : ℕ} (ih : Parses hooks P n) {cs rest : List Char}
    {vs : List (Json F)} (hparse : parseItems hooks (n + 1) cs = .ok (vs, rest)) :
    ∀ v ∈ vs, P v := by
  unfold parseItems at hparse
  obtain ⟨⟨v, tail⟩, hvalue, hparse⟩ := bind_eq_ok_iff.mp hparse
  have hv := ih.value hvalue
  dsimp only at hparse
  split at hparse
  · cases hparse
    exact List.forall_mem_singleton.mpr hv
  · obtain ⟨⟨items, tail⟩, hitems, hvs⟩ := bind_eq_ok_iff.mp hparse
    cases hvs
    exact List.forall_mem_cons.mpr ⟨hv, ih.items hitems⟩
  · cases hparse

theorem Established.object_succ (h : Established hooks P) {n : ℕ} (ih : Parses hooks P n)
    {cs rest : List Char} {v : Json F} (hparse : parseObject hooks (n + 1) cs = .ok (v, rest)) :
    P v := by
  unfold parseObject at hparse
  split at hparse
  · obtain ⟨w, hpairs, hw⟩ := bind_eq_ok_iff.mp hparse
    cases hw
    exact h.object [] _ (by simp) hpairs
  · obtain ⟨⟨members, tail⟩, hmembers, hparse⟩ := bind_eq_ok_iff.mp hparse
    obtain ⟨w, hpairs, hw⟩ := bind_eq_ok_iff.mp hparse
    cases hw
    exact h.object members _ (ih.members hmembers) hpairs

theorem Parses.members_succ {n : ℕ} (ih : Parses hooks P n) {cs rest : List Char}
    {ms : List (String × Json F)} (hparse : parseMembers hooks (n + 1) cs = .ok (ms, rest)) :
    ∀ m ∈ ms, P m.2 := by
  unfold parseMembers at hparse
  split at hparse
  · split at hparse
    · cases hparse
    · split at hparse
      · obtain ⟨⟨v, tail⟩, hvalue, hparse⟩ := bind_eq_ok_iff.mp hparse
        have hv := ih.value hvalue
        dsimp only at hparse
        split at hparse
        · cases hparse
          exact List.forall_mem_singleton.mpr hv
        · obtain ⟨⟨members, tail⟩, hmembers, hms⟩ := bind_eq_ok_iff.mp hparse
          cases hms
          exact List.forall_mem_cons.mpr ⟨hv, ih.members hmembers⟩
        · cases hparse
      · cases hparse
  · cases hparse

theorem Established.parses (h : Established hooks P) (n : ℕ) : Parses hooks P n := by
  induction n with
  | zero => exact parses_zero
  | succ n ih =>
      exact ⟨h.value_succ ih, h.array_succ ih, ih.items_succ, h.object_succ ih, ih.members_succ⟩

/-- What the hooks establish holds of a document that is read. -/
theorem Established.loads (h : Established hooks P) {text : String} {v : Json F}
    (hloads : loads hooks text = .ok v) : P v := by
  unfold Json.loads at hloads
  split at hloads
  · cases hloads
  · obtain ⟨⟨w, rest⟩, hparse, hw⟩ := bind_eq_ok_iff.mp hloads
    dsimp only at hw
    split at hw
    · cases hw
      exact (h.parses _).value hparse
    · cases hw

end Json

namespace PyValue

variable {F : Type}

mutual

theorem textKeyed_ofJson : ∀ v : Json F, (ofJson v).TextKeyed
  | .arr items => textKeyed_ofItems items
  | .obj members => textKeyed_ofMembers members
  | .null | .bool _ | .int _ | .float _ | .str _ => trivial

theorem textKeyed_ofItems : ∀ items : List (Json F), TextKeyedItems (ofItems items)
  | [] => trivial
  | v :: rest => ⟨textKeyed_ofJson v, textKeyed_ofItems rest⟩

theorem textKeyed_ofMembers : ∀ members : List (String × Json F),
    TextKeyedMembers (ofMembers members)
  | [] => trivial
  | (_, v) :: rest => ⟨rfl, textKeyed_ofJson v, textKeyed_ofMembers rest⟩

end

theorem uniqueItems_ofItems {items : List (Json F)} (h : ∀ v ∈ items, (ofJson v).Unique) :
    UniqueItems (ofItems items) := by
  induction items with
  | nil => trivial
  | cons v items ih =>
      obtain ⟨hv, hitems⟩ := List.forall_mem_cons.mp h
      exact ⟨hv, ih hitems⟩

theorem uniqueMembers_ofMembers {members : List (String × Json F)}
    (h : ∀ m ∈ members, (ofJson m.2).Unique) : UniqueMembers (ofMembers members) := by
  induction members with
  | nil => trivial
  | cons m members ih =>
      obtain ⟨hm, hmembers⟩ := List.forall_mem_cons.mp h
      exact ⟨hm, ih hmembers⟩

/-- The pairs of an object, where the last of a key stays. -/
theorem foldl_upsert {members before : List (String × Json F)} {P : Json F → Prop}
    (hmembers : ∀ m ∈ members, P m.2) (hbefore : ∀ m ∈ before, P m.2)
    (hnodup : (before.map Prod.fst).Nodup) :
    let pairs := members.foldl (fun d m => Table.upsert Prod.fst m d) before
    (pairs.map Prod.fst).Nodup ∧ ∀ m ∈ pairs, P m.2 := by
  induction members generalizing before with
  | nil => exact ⟨hnodup, hbefore⟩
  | cons m members ih =>
      obtain ⟨hm, hrest⟩ := List.forall_mem_cons.mp hmembers
      refine ih hrest ?_ (Table.nodup_upsert hnodup)
      intro other hother
      rcases Table.mem_of_mem_upsert hother with rfl | hold
      · exact hm
      · exact hbefore other hold

variable [FloatText F]

/-- What is read repeats no key. -/
theorem unique_loads {text : String} {v : PyValue F} (h : loads text = some v) :
    v.Unique ∧ v.TextKeyed := by
  obtain ⟨document, hdocument, rfl⟩ := Option.map_eq_some_iff.mp h
  refine ⟨?_, textKeyed_ofJson document⟩
  have hestablished : Json.Established (plainHooks : Json.Hooks F Unit)
      fun w => (ofJson w).Unique := by
    refine ⟨fun w harr hobj => ?_, fun text w hw => ?_, fun items hitems => ?_, ?_⟩
    · cases w with
      | arr items => exact absurd rfl (harr items)
      | obj members => exact absurd rfl (hobj members)
      | _ => trivial
    · cases hw
      trivial
    · exact uniqueItems_ofItems hitems
    · intro members w hmembers hw
      cases hw
      obtain ⟨hnodup, hunique⟩ := foldl_upsert (P := fun w => (ofJson w).Unique) hmembers
        (List.forall_mem_nil _) List.nodup_nil
      refine ⟨?_, uniqueMembers_ofMembers hunique⟩
      rw [ofMembers_eq_map, List.map_map]
      have hkeys := hnodup.map (f := PyKey.str) fun _ _ heq => PyKey.str.inj heq
      rwa [List.map_map] at hkeys
  cases hloads : Json.loads (plainHooks : Json.Hooks F Unit) text with
  | error e =>
      rw [hloads] at hdocument
      cases hdocument
  | ok w =>
      rw [hloads] at hdocument
      cases hdocument
      exact hestablished.loads hloads

/-- Two values that are read have one document when one text is written for them. -/
theorem layOut_eq_of_dumps_eq [PyFloat F] [Json.LawfulFloatText F] {text text' written : String}
    {v w : PyValue F} (hv : loads text = some v) (hw : loads text' = some w)
    (hdumps : v.dumps = some written) (hdumps' : w.dumps = some written) :
    v.layOut = w.layOut := by
  obtain ⟨j, hj, hwritten⟩ := Option.map_eq_some_iff.mp hdumps
  obtain ⟨k, hk, hwritten'⟩ := Option.map_eq_some_iff.mp hdumps'
  obtain ⟨hunique, hkeys⟩ := unique_loads hv
  obtain ⟨hunique', hkeys'⟩ := unique_loads hw
  have hread := Json.loads_write plainHooks keepsPairs_plainHooks
    (writable_layOut hunique hj)
  have hread' := Json.loads_write plainHooks keepsPairs_plainHooks
    (writable_layOut hunique' hk)
  rw [hwritten, ← hwritten', hread'] at hread
  rw [hj, hk, Except.ok.inj hread]

end PyValue

/-! ## Members of objects

Documents in which no object repeats a key. The sorted form of an object is
determined by what its keys are mapped to, so two objects that map their keys alike
are written alike. -/

namespace Json

variable {F : Type}

mutual

/-- No object repeats a key. -/
def Distinct : Json F → Prop
  | arr items => ItemsDistinct items
  | obj members => (members.map Prod.fst).Nodup ∧ MembersDistinct members
  | _ => True

def ItemsDistinct : List (Json F) → Prop
  | [] => True
  | v :: rest => v.Distinct ∧ ItemsDistinct rest

def MembersDistinct : List (String × Json F) → Prop
  | [] => True
  | (_, v) :: rest => v.Distinct ∧ MembersDistinct rest

end

theorem itemsDistinct_iff {items : List (Json F)} :
    ItemsDistinct items ↔ ∀ v ∈ items, v.Distinct := by
  induction items with
  | nil => simp [ItemsDistinct]
  | cons v items ih => simp [ItemsDistinct, ih]

theorem membersDistinct_iff {members : List (String × Json F)} :
    MembersDistinct members ↔ ∀ m ∈ members, m.2.Distinct := by
  induction members with
  | nil => simp [MembersDistinct]
  | cons m members ih => simp [MembersDistinct, ih]

/-- Hooks that refuse a repeated key leave none. -/
theorem distinct_loads [FloatText F] {ε : Type} {hooks : Hooks F ε}
    (hconstant : ∀ text v, hooks.parseConstant text ≠ .ok v)
    (hobject : ∀ members v, hooks.objectPairs members = .ok v →
      (members.map Prod.fst).Nodup ∧ v = obj members) {text : String} {v : Json F}
    (h : loads hooks text = .ok v) : v.Distinct := by
  have hestablished : Established hooks Distinct := by
    refine ⟨fun w harr hobj => ?_, fun text w hw => absurd hw (hconstant text w),
      fun items hitems => itemsDistinct_iff.mpr hitems, fun members w hmembers hw => ?_⟩
    · cases w with
      | arr items => exact absurd rfl (harr items)
      | obj members => exact absurd rfl (hobj members)
      | _ => trivial
    · obtain ⟨hnodup, rfl⟩ := hobject members w hw
      exact ⟨hnodup, membersDistinct_iff.mpr hmembers⟩
  exact hestablished.loads h

/-- The order of members is no part of the sorted form. -/
theorem sortedDict_eq_of_perm {members members' : List (String × Json F)}
    (h : members.Perm members') (hnodup : (members.map Prod.fst).Nodup) :
    sortedDict members = sortedDict members' := by
  have hperm : (sortedDict members).Perm (sortedDict members') := by
    refine (perm_sortedDict members).trans (List.Perm.trans ?_ (perm_sortedDict members').symm)
    rw [sortedMembers_eq_map, sortedMembers_eq_map]
    exact h.map _
  have hkeys : ((sortedDict members).map Prod.fst).Nodup :=
    (perm_keys_sortedDict members).nodup_iff.mpr hnodup
  refine hperm.eq_of_pairwise (fun a b ha hb hab hba => ?_)
    (List.pairwise_insertionSort _ _) (List.pairwise_insertionSort _ _)
  exact List.inj_on_of_nodup_map hkeys ha (hperm.mem_iff.mpr hb) (le_antisymm hab hba)

theorem perm_of_lookup {members members' : List (String × Json F)}
    (hnodup : (members.map Prod.fst).Nodup) (hnodup' : (members'.map Prod.fst).Nodup)
    (h : ∀ k, members.lookup k = members'.lookup k) : members.Perm members' := by
  classical
  refine (List.perm_ext_iff_of_nodup hnodup.of_map hnodup'.of_map).mpr fun m => ?_
  obtain ⟨k, v⟩ := m
  have hget := OrderedDict.get?_eq_some_iff (d := ⟨members, hnodup⟩) (k := k) (v := v)
  have hget' := OrderedDict.get?_eq_some_iff (d := ⟨members', hnodup'⟩) (k := k) (v := v)
  simp only [OrderedDict.get?] at hget hget'
  rw [← hget, ← hget', h]

/-- Objects that map their keys alike have one sorted form. -/
theorem sorted_obj_eq_of_lookup {members members' : List (String × Json F)}
    (hnodup : (members.map Prod.fst).Nodup) (hnodup' : (members'.map Prod.fst).Nodup)
    (h : ∀ k, members.lookup k = members'.lookup k) :
    (obj members).sorted = (obj members').sorted := by
  rw [sorted_obj, sorted_obj, sortedDict_eq_of_perm (perm_of_lookup hnodup hnodup' h) hnodup]

/-! ## Exact keys -/

/-- `set(value) == {...}` of a dictionary. -/
def hasKeys (names : List String) (members : List (String × Json F)) : Bool :=
  members.all (fun m => m.1 ∈ names) && names.all fun name => name ∈ members.map Prod.fst

theorem hasKeys_iff {names : List String} {members : List (String × Json F)} :
    hasKeys names members = true ↔ ∀ k, k ∈ members.map Prod.fst ↔ k ∈ names := by
  simp only [hasKeys, Bool.and_eq_true, List.all_eq_true, decide_eq_true_eq]
  constructor
  · rintro ⟨hall, hnames⟩ k
    refine ⟨fun hk => ?_, hnames k⟩
    obtain ⟨m, hm, rfl⟩ := List.mem_map.mp hk
    exact hall m hm
  · exact fun h => ⟨fun m hm => (h m.1).mp (List.mem_map_of_mem hm), fun k hk => (h k).mpr hk⟩

theorem lookup_eq_none {members : List (String × Json F)} {k : String}
    (h : k ∉ members.map Prod.fst) : members.lookup k = none := by
  rw [List.lookup_eq_none_iff]
  intro m hm
  rw [bne_iff_ne]
  rintro rfl
  exact h (List.mem_map_of_mem hm)

end Json
