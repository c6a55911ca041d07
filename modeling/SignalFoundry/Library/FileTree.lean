import SignalFoundry.Library.Fallible
import SignalFoundry.Library.PyRuntime
import Mathlib.Logic.Function.Basic

/-!
# A tree of files

A POSIX file system without symbolic links, under the paths that `pathlib` makes of
texts. An entry is addressed by the names that lead to it from the root. The system
keeps a record of the entries it created, read and deleted.

`resolve_cases`: in a directory without subdirectories, a text whose first part is the
name of an entry names that entry of the directory, or leads nowhere.
-/

inductive FileError where
  | noEntry
  | notADirectory
  | isADirectory
  | fileExists
  | nameTooLong
  /-- `ValueError` of a path with a null character. -/
  | embeddedNull
  deriving DecidableEq, Repr

inductive FileNode where
  | directory
  | file (bytes : List UInt8)
  deriving DecidableEq, Repr

inductive FileAccess where
  | created (path : List String)
  | read (path : List String)
  | deleted (path : List String)
  deriving DecidableEq, Repr

namespace FileAccess

def path : FileAccess → List String
  | created path => path
  | read path => path
  | deleted path => path

end FileAccess

structure FileTree where
  node : List String → Option FileNode
  accesses : List FileAccess

namespace FileTree

/-- `NAME_MAX`. -/
def maxNameBytes : ℕ := 255

/-- The parts of a `PurePosixPath`. -/
def parts (text : String) : List String :=
  ((text.toList.splitOn '/').map String.ofList).filter fun part => part ≠ "" ∧ part ≠ "."

def isAbsolute (text : String) : Bool := text.toList.head? = some '/'

/-- Follows names from an entry. -/
def walk (t : FileTree) : List String → List String → Except FileError (List String)
  | entry, [] => .ok entry
  | entry, name :: names =>
      match t.node entry with
      | none => .error .noEntry
      | some (.file _) => .error .notADirectory
      | some .directory =>
          if maxNameBytes < (PyText.encodeUtf8 name).length then .error .nameTooLong
          else if name = ".." then t.walk entry.dropLast names
          else t.walk (entry ++ [name]) names

/-- The entry that `base / text` leads to. -/
def resolve (t : FileTree) (base : List String) (text : String) :
    Except FileError (List String) :=
  if '\x00' ∈ text.toList then .error .embeddedNull
  else t.walk (if isAbsolute text then [] else base) (parts text)

/-- `os.stat`. -/
def stat (t : FileTree) (base : List String) (text : String) : Except FileError FileNode := do
  let entry ← t.resolve base text
  match t.node entry with
  | none => .error .noEntry
  | some node => .ok node

/-- `Path.exists`. -/
def pathExists (t : FileTree) (base : List String) (text : String) : Except FileError Bool :=
  match t.stat base text with
  | .ok _ => .ok true
  | .error .noEntry => .ok false
  | .error .notADirectory => .ok false
  | .error .embeddedNull => .ok false
  | .error e => .error e

def set (t : FileTree) (entry : List String) (node : Option FileNode) (access : FileAccess) :
    FileTree where
  node := Function.update t.node entry node
  accesses := t.accesses ++ [access]

/-- `Path.read_bytes`. -/
def readBytes (t : FileTree) (base : List String) (text : String) :
    Except FileError (List UInt8 × FileTree) := do
  let entry ← t.resolve base text
  match t.node entry with
  | none => .error .noEntry
  | some .directory => .error .isADirectory
  | some (.file bytes) => .ok (bytes, { t with accesses := t.accesses ++ [.read entry] })

/-- Creates a file that must not exist. -/
def create (t : FileTree) (entry : List String) (bytes : List UInt8) : Except FileError FileTree :=
  match t.node entry with
  | none => .ok (t.set entry (some (.file bytes)) (.created entry))
  | some _ => .error .fileExists

/-- `unlink` of an entry. -/
def remove (t : FileTree) (entry : List String) : FileTree := t.set entry none (.deleted entry)

/-- `Path.unlink`. -/
def unlink (t : FileTree) (base : List String) (text : String) : Except FileError FileTree := do
  let entry ← t.resolve base text
  match t.node entry with
  | none => .error .noEntry
  | some .directory => .error .isADirectory
  | some (.file _) => .ok (t.remove entry)

/-- `os.replace` of a file. -/
def replace (t : FileTree) (source base : List String) (text : String) :
    Except FileError FileTree := do
  let entry ← t.resolve base text
  match t.node source, t.node entry with
  | none, _ => .error .noEntry
  | some .directory, _ => .error .isADirectory
  | some (.file _), some .directory => .error .isADirectory
  | some (.file bytes), _ => .ok ((t.remove source).set entry (some (.file bytes)) (.created entry))

@[simp] theorem node_set (t : FileTree) (entry : List String) (node : Option FileNode)
    (access : FileAccess) (path : List String) :
    (t.set entry node access).node path = if path = entry then node else t.node path :=
  Function.update_apply ..

@[simp] theorem accesses_set (t : FileTree) (entry : List String) (node : Option FileNode)
    (access : FileAccess) : (t.set entry node access).accesses = t.accesses ++ [access] := rfl

@[simp] theorem node_remove (t : FileTree) (entry path : List String) :
    (t.remove entry).node path = if path = entry then none else t.node path :=
  node_set ..

@[simp] theorem accesses_remove (t : FileTree) (entry : List String) :
    (t.remove entry).accesses = t.accesses ++ [.deleted entry] := rfl

/-! ## Names in a flat directory -/

/-- The first part of a text between separators, empty for an absolute path. -/
def firstPart (text : String) : String := String.ofList ((text.toList.splitOn '/').headD [])

/-- The name of an entry of a directory. -/
structure IsEntryName (name : String) : Prop where
  ne_empty : name ≠ ""
  ne_dot : name ≠ "."
  ne_parent : name ≠ ".."
  short : (PyText.encodeUtf8 name).length ≤ maxNameBytes

/-- A text that is one part of a path. -/
def IsSegment (text : String) : Prop := '/' ∉ text.toList ∧ '\x00' ∉ text.toList

theorem firstPart_of_notMem {text : String} (h : '/' ∉ text.toList) : firstPart text = text := by
  rw [firstPart, List.splitOn_eq_singleton h, List.headD_cons, String.ofList_toList]

theorem parts_of_notMem {text : String} (h : '/' ∉ text.toList) (hname : IsEntryName text) :
    parts text = [text] := by
  simp [parts, List.splitOn_eq_singleton h, hname.ne_empty, hname.ne_dot]

theorem isAbsolute_of_firstPart {text : String} (h : firstPart text ≠ "") :
    isAbsolute text = false := by
  unfold isAbsolute
  rw [decide_eq_false_iff_not]
  intro hhead
  obtain ⟨cs, hcs⟩ := List.head?_eq_some_iff.mp hhead
  rw [firstPart, hcs, List.splitOn_cons_eq_if_modifyHead, if_pos (by decide)] at h
  exact h rfl

theorem exists_mem_splitOn {c : Char} (hc : c ≠ '/') : ∀ {cs : List Char}, c ∈ cs →
    ∃ part ∈ cs.splitOn '/', c ∈ part
  | d :: cs, h => by
      rw [List.splitOn_cons_eq_if_modifyHead]
      obtain ⟨first, rest, hsplit⟩ := List.exists_cons_of_ne_nil (List.splitOn_ne_nil '/' cs)
      rcases List.mem_cons.mp h with rfl | hmem
      · simp [hsplit, hc]
      · obtain ⟨part, hpart, hcpart⟩ := exists_mem_splitOn hc hmem
        split
        · exact ⟨part, List.mem_cons_of_mem _ hpart, hcpart⟩
        · rw [hsplit] at hpart ⊢
          rcases List.mem_cons.mp hpart with rfl | hrest
          · exact ⟨d :: part, List.mem_cons_self, List.mem_cons_of_mem d hcpart⟩
          · exact ⟨part, List.mem_cons_of_mem _ hrest, hcpart⟩

/-- A text with a separator has at least two parts when a character of a name follows
the separator. -/
theorem parts_of_mem {before after : List Char} {c : Char} (hbefore : '/' ∉ before)
    (hname : IsEntryName (String.ofList before)) (hc : c ∈ after) (hslash : c ≠ '/')
    (hdot : c ≠ '.') :
    ∃ second rest, parts (String.ofList (before ++ '/' :: after)) =
      String.ofList before :: second :: rest := by
  have hsplit := List.splitOn_append_cons_self_of_not_mem hbefore after
  obtain ⟨part, hpart, hcpart⟩ := exists_mem_splitOn hslash hc
  have hmem : String.ofList part ∈ ((after.splitOn '/').map String.ofList).filter fun part =>
      part ≠ "" ∧ part ≠ "." := by
    refine List.mem_filter.mpr ⟨List.mem_map_of_mem hpart, decide_eq_true ⟨?_, ?_⟩⟩
    · intro hempty
      have hchars := congrArg String.toList hempty
      rw [String.toList_ofList] at hchars
      subst hchars
      exact List.not_mem_nil hcpart
    · intro hone
      have hchars := congrArg String.toList hone
      rw [String.toList_ofList] at hchars
      subst hchars
      exact hdot (List.mem_singleton.mp hcpart)
  obtain ⟨second, rest, hrest⟩ := List.exists_cons_of_ne_nil (List.ne_nil_of_mem hmem)
  refine ⟨second, rest, ?_⟩
  rw [parts, String.toList_ofList, hsplit, List.map_cons, List.filter_cons_of_pos, hrest]
  exact decide_eq_true ⟨hname.ne_empty, hname.ne_dot⟩

variable {t : FileTree} {base : List String}

theorem walk_cons {entry : List String} {name : String} {names : List String}
    (hentry : t.node entry = some .directory) (hname : IsEntryName name) :
    t.walk entry (name :: names) = t.walk (entry ++ [name]) names := by
  rw [walk, hentry]
  simp only [if_neg (not_lt.mpr hname.short), if_neg hname.ne_parent]

theorem resolve_segment {text : String} (hbase : t.node base = some .directory)
    (hname : IsEntryName text) (hsegment : IsSegment text) :
    t.resolve base text = .ok (base ++ [text]) := by
  have habsolute : isAbsolute text = false :=
    isAbsolute_of_firstPart ((firstPart_of_notMem hsegment.1).symm ▸ hname.ne_empty)
  rw [resolve, if_neg hsegment.2, habsolute, parts_of_notMem hsegment.1 hname]
  exact (walk_cons hbase hname).trans (by rw [walk])

/-- The errors under which a path does not exist. -/
def isAbsence : FileError → Bool
  | .noEntry => true
  | .notADirectory => true
  | .embeddedNull => true
  | _ => false

/-- In a directory without subdirectories, a text that starts with the name of an entry
names this entry, or leads nowhere. -/
theorem resolve_cases {stem ending : String} {c : Char} (hbase : t.node base = some .directory)
    (hflat : ∀ name, t.node (base ++ [name]) ≠ some .directory)
    (hname : IsEntryName (firstPart (stem ++ ending))) (hending : '/' ∉ ending.toList)
    (hc : c ∈ ending.toList) (hdot : c ≠ '.') :
    (IsSegment (stem ++ ending) ∧
        t.resolve base (stem ++ ending) = .ok (base ++ [stem ++ ending])) ∨
      ¬ IsSegment (stem ++ ending) ∧
        ∃ e, isAbsence e = true ∧ t.resolve base (stem ++ ending) = .error e := by
  by_cases hnull : '\x00' ∈ (stem ++ ending).toList
  · exact .inr ⟨fun h => h.2 hnull, .embeddedNull, rfl, if_pos hnull⟩
  by_cases hslash : '/' ∈ (stem ++ ending).toList
  · refine .inr ⟨fun h => h.1 hslash, ?_⟩
    have hstem : '/' ∈ stem.toList := by
      rw [String.toList_append, List.mem_append] at hslash
      exact hslash.resolve_right hending
    obtain ⟨before, after, hsplit, hbefore⟩ := List.eq_append_cons_of_mem hstem
    have htext : (stem ++ ending).toList = before ++ '/' :: (after ++ ending.toList) := by
      rw [String.toList_append, hsplit, List.append_assoc, List.cons_append]
    have hfirst : firstPart (stem ++ ending) = String.ofList before := by
      rw [firstPart, htext, List.splitOn_append_cons_self_of_not_mem hbefore, List.headD_cons]
    rw [hfirst] at hname
    obtain ⟨second, rest, hparts⟩ := parts_of_mem hbefore hname
      (List.mem_append_right after hc) (fun h => hending (h ▸ hc)) hdot
    rw [← htext, String.ofList_toList] at hparts
    have habsolute : isAbsolute (stem ++ ending) = false :=
      isAbsolute_of_firstPart (hfirst ▸ hname.ne_empty)
    have hwalk : t.resolve base (stem ++ ending) =
        t.walk (base ++ [String.ofList before]) (second :: rest) := by
      rw [resolve, if_neg hnull, habsolute, hparts]
      exact walk_cons hbase hname
    rw [hwalk, walk]
    cases hnode : t.node (base ++ [String.ofList before]) with
    | none => exact ⟨.noEntry, rfl, rfl⟩
    | some node =>
        cases node with
        | directory => exact absurd hnode (hflat _)
        | file bytes => exact ⟨.notADirectory, rfl, rfl⟩
  · rw [firstPart_of_notMem hslash] at hname
    exact .inl ⟨⟨hslash, hnull⟩, resolve_segment hbase hname ⟨hslash, hnull⟩⟩

/-! ## Operations on a resolved path -/

variable {text : String} {entry : List String}

theorem pathExists_of_absence {e : FileError} (he : isAbsence e = true)
    (h : t.resolve base text = .error e) : t.pathExists base text = .ok false := by
  cases e <;> first | (simp only [pathExists, stat, h]; rfl) | cases he

theorem pathExists_of_resolve (h : t.resolve base text = .ok entry) :
    t.pathExists base text = .ok (t.node entry).isSome := by
  cases hnode : t.node entry with
  | none => simp only [pathExists, stat, h, hnode, bind, Except.bind]; rfl
  | some node => simp only [pathExists, stat, h, hnode, bind, Except.bind]; rfl

theorem readBytes_of_resolve (h : t.resolve base text = .ok entry) {bytes : List UInt8}
    (hnode : t.node entry = some (.file bytes)) :
    t.readBytes base text = .ok (bytes, { t with accesses := t.accesses ++ [.read entry] }) := by
  simp only [readBytes, h, hnode, bind, Except.bind]

theorem node_readBytes {bytes : List UInt8} {t' : FileTree}
    (h : t.readBytes base text = .ok (bytes, t')) : t'.node = t.node := by
  simp only [readBytes, Fallible.bind_eq_ok_iff] at h
  obtain ⟨entry, -, h⟩ := h
  split at h
  · cases h
  · cases h
  · cases h
    rfl

theorem unlink_of_resolve (h : t.resolve base text = .ok entry) {bytes : List UInt8}
    (hnode : t.node entry = some (.file bytes)) : t.unlink base text = .ok (t.remove entry) := by
  simp only [unlink, h, hnode, bind, Except.bind]

theorem replace_of_resolve {source : List String} {bytes : List UInt8}
    (h : t.resolve base text = .ok entry) (hsource : t.node source = some (.file bytes))
    (hentry : t.node entry ≠ some .directory) :
    t.replace source base text =
      .ok ((t.remove source).set entry (some (.file bytes)) (.created entry)) := by
  simp only [replace, h, hsource, bind, Except.bind]

theorem replace_of_error {source : List String} {e : FileError}
    (h : t.resolve base text = .error e) : t.replace source base text = .error e := by
  simp only [replace, h, bind, Except.bind]

theorem create_eq {bytes : List UInt8} {t' : FileTree} (h : t.create entry bytes = .ok t') :
    t.node entry = none ∧ t' = t.set entry (some (.file bytes)) (.created entry) := by
  unfold create at h
  split at h
  · next hnode => exact ⟨hnode, (Except.ok.inj h).symm⟩
  · cases h

end FileTree
