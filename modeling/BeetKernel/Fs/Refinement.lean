/-
# The RAM file system is a finite map

The specification of the RAM file system is a finite map from paths to nodes (`Tree`), where a node
is a directory or the bytes of a file.  `ramfs_refines` says that the table of `Fs.Ramfs` answers
every sequence of operations as the map does, for paths that are free of NULs and of empty
components and whose normal form fits into a name.

The relation between the two is `Represents`: the used entries have different names and are,
with their contents, the entries of the map.  All changes of the table are an assignment to one
entry, and `Represents.put` and `Represents.clear` say what such an assignment means for the map.
-/
import BeetKernel.Fs.Ramfs
import Mathlib.Data.Finmap

namespace BeetKernel.Fs

/-! ## 1. The specification -/

/-- The normal form of a path: with a slash in front and without one at the end. -/
def normalForm (path : List Char) : List UInt8 :=
  let bytes := asBytes (trim path)
  dropTrailing (if bytes.head? = some slash then bytes else slash :: bytes)

/-- A directory, or a file with its bytes. -/
inductive Node where
  | dir
  | file (content : List UInt8)

/-- Is it a directory? -/
def Node.isDir : Node → Bool
  | .dir => true
  | .file _ => false

/-- The size that is reported for a node. -/
def Node.size : Node → Nat
  | .dir => 0
  | .file content => content.length

/-- The file system as its users see it. -/
abbrev Tree := Finmap fun _ : List UInt8 => Node

namespace Tree

/-- The file system at first: the root directory. -/
def init : Tree := Finmap.singleton root .dir

/-- A new entry. -/
def create (m : Tree) (path : List UInt8) (node : Node) : Except FsError Tree :=
  if m.keys.card = maxFiles then .error .noSpace else .ok (m.insert path node)

/-- Creating a directory. -/
def mkdir (m : Tree) (path : List UInt8) : Except FsError Tree :=
  if path ∈ m then .error .alreadyExists else m.create path .dir

/-- Creating a file, or replacing its contents. -/
def write (m : Tree) (path content : List UInt8) : Except FsError Tree :=
  if content.length > maxFileSize then .error .fileTooLarge
  else
    match m.lookup path with
    | some .dir => .error .isDirectory
    | some (.file _) => .ok (m.insert path (.file content))
    | none => m.create path (.file content)

/-- Some entry is below the directory. -/
def HasBelow (m : Tree) (path : List UInt8) : Prop := ∃ rest, rest ≠ [] ∧ path ++ slash :: rest ∈ m

open Classical in
/-- Removing a file or an empty directory other than the root. -/
noncomputable def remove (m : Tree) (path : List UInt8) : Except FsError Tree :=
  if path = root then .error .notEmpty
  else
    match m.lookup path with
    | none => .error .notFound
    | some node => if node.isDir ∧ m.HasBelow path then .error .notEmpty else .ok (m.erase path)

/-- The path of an entry of a directory. -/
def join (dir component : List UInt8) : List UInt8 :=
  if dir = root then slash :: component else dir ++ slash :: component

/-- What the listing of a directory has to report: a component, and the kind and the size of the
entry that it names in this directory. -/
def Child (m : Tree) (dir : List UInt8) (x : List UInt8 × Bool × Nat) : Prop :=
  x.1 ≠ [] ∧ slash ∉ x.1 ∧ ∃ node, m.lookup (join dir x.1) = some node ∧ x.2 = (node.isDir, node.size)

/-- An operation that leaves `m'` or fails. -/
def Yields (m : Tree) (r : Except FsError Tree) (out : Ramfs.Output) (m' : Tree) : Prop :=
  match r with
  | .ok m1 => out = .done ∧ m' = m1
  | .error e => out = .error e ∧ m' = m

/-- One operation of the specification, with what it returns.  A listing has every child once, in
any order. -/
def Step (m : Tree) (op : Ramfs.Op) (out : Ramfs.Output) (m' : Tree) : Prop :=
  match op with
  | .mkdir path => m.Yields (m.mkdir (normalForm path)) out m'
  | .write path content => m.Yields (m.write (normalForm path) content) out m'
  | .remove path => m.Yields (m.remove (normalForm path)) out m'
  | .read path => m' = m ∧
    match m.lookup (normalForm path) with
    | none => out = .error .notFound
    | some .dir => out = .error .isDirectory
    | some (.file content) => out = .bytes content
  | .list path => m' = m ∧
    match m.lookup (normalForm path) with
    | none => out = .error .notFound
    | some (.file _) => out = .error .notDirectory
    | some .dir => ∃ l, out = .listing l ∧ l.Nodup ∧ ∀ x, x ∈ l ↔ m.Child (normalForm path) x

/-- The bounds of the specification. -/
structure Bounded (m : Tree) : Prop where
  card : m.keys.card ≤ maxFiles
  content : ∀ path content, m.lookup path = some (.file content) → content.length ≤ maxFileSize

end Tree

/-- The paths of the specification. -/
structure Plain (path : List Char) : Prop where
  no_nul : 0 ∉ asBytes (trim path)
  no_empty : ¬ [slash, slash] <:+: asBytes (trim path)
  short : (normalForm path).length ≤ maxNameLen

/-! ## 2. Normal paths -/

/-- What is stored as a name. -/
structure Normal (path : List UInt8) : Prop where
  rooted : path.head? = some slash
  trailing : path.getLast? = some slash → path = root
  no_nul : 0 ∉ path
  short : path.length ≤ maxNameLen

theorem root_normal : Normal root := ⟨rfl, fun _ => rfl, by decide, by decide⟩

theorem Normal.ne_nil {path : List UInt8} (h : Normal path) : path ≠ [] := by
  rintro rfl
  cases h.rooted

theorem dropTrailing_cases (path : List UInt8) :
    (∃ init, init ≠ [] ∧ path = init ++ [slash] ∧ dropTrailing path = init) ∨
      dropTrailing path = path ∧ (path.getLast? = some slash → path.length ≤ 1) := by
  unfold dropTrailing
  split_ifs with h
  · obtain ⟨hlen, hlast⟩ := h
    obtain ⟨init, rfl⟩ := List.getLast?_eq_some_iff.mp hlast
    refine .inl ⟨init, ?_, rfl, List.dropLast_concat⟩
    rintro rfl
    simp at hlen
  · exact .inr ⟨rfl, fun hlast => not_lt.mp fun hlen => h ⟨hlen, hlast⟩⟩

theorem not_slash_of_no_empty {init : List UInt8} (h : ¬ [slash, slash] <:+: init ++ [slash]) :
    init.getLast? ≠ some slash := by
  intro hlast
  obtain ⟨init', rfl⟩ := List.getLast?_eq_some_iff.mp hlast
  exact h ⟨init', [], by simp⟩

theorem dropTrailing_normal {path : List UInt8} (hroot : path.head? = some slash) (hnul : 0 ∉ path)
    (hempty : ¬ [slash, slash] <:+: path) (hshort : (dropTrailing path).length ≤ maxNameLen) :
    Normal (dropTrailing path) := by
  obtain ⟨init, hne, rfl, heq⟩ | ⟨heq, hlen⟩ := dropTrailing_cases path
  · rw [heq] at hshort ⊢
    refine ⟨?_, fun hlast => absurd hlast (not_slash_of_no_empty hempty), fun h => hnul (by simp [h]), hshort⟩
    rwa [List.head?_append_of_ne_nil _ hne] at hroot
  · rw [heq] at hshort ⊢
    refine ⟨hroot, fun hlast => ?_, hnul, hshort⟩
    match path, hroot, hlen hlast with
    | [_], rfl, _ => rfl

/-- Cutting a path off at the length of a name does not matter if its normal form fits. -/
theorem dropTrailing_take {path : List UInt8} (hempty : ¬ [slash, slash] <:+: path)
    (hshort : (dropTrailing path).length ≤ maxNameLen) :
    dropTrailing (path.take maxNameLen) = dropTrailing path := by
  obtain ⟨init, -, rfl, heq⟩ | ⟨heq, -⟩ := dropTrailing_cases path
  · rw [heq] at hshort ⊢
    rcases hshort.eq_or_lt with hfull | hlt
    · rw [← hfull, List.take_left, dropTrailing, if_neg fun h => not_slash_of_no_empty hempty h.2]
    · rw [List.take_of_length_le (by rw [List.length_append]; exact hlt), heq]
  · rw [heq] at hshort
    rw [List.take_of_length_le hshort]

section Plain

variable {path : List Char}

/-- A path with its leading slash. -/
def rooted (path : List Char) : List UInt8 :=
  if (asBytes (trim path)).head? = some slash then asBytes (trim path) else slash :: asBytes (trim path)

theorem rooted_head (path : List Char) : (rooted path).head? = some slash := by
  unfold rooted
  split_ifs with h
  · exact h
  · rfl

theorem Plain.rooted_no_empty (h : Plain path) : ¬ [slash, slash] <:+: rooted path := by
  unfold rooted
  split_ifs with hhead
  · exact h.no_empty
  · rw [List.infix_cons_iff]
    rintro (hlead | hinfix)
    · refine hhead ?_
      obtain ⟨rest, hrest⟩ := hlead
      have htail : [slash] ++ rest = asBytes (trim path) := congrArg List.tail hrest
      rw [← htail]
      rfl
    · exact h.no_empty hinfix

theorem Plain.rooted_no_nul (h : Plain path) : 0 ∉ rooted path := by
  have := h.no_nul
  unfold rooted
  split_ifs
  · exact this
  · simpa [slash] using this

theorem Plain.normalizePath (h : Plain path) : Fs.normalizePath path = normalForm path := by
  have htake : Fs.normalizePath path = dropTrailing ((rooted path).take maxNameLen) := by
    unfold Fs.normalizePath rooted
    dsimp only
    split_ifs <;> rfl
  rw [htake, dropTrailing_take h.rooted_no_empty h.short]
  rfl

theorem Plain.normal (h : Plain path) : Normal (normalForm path) :=
  dropTrailing_normal (rooted_head path) h.rooted_no_nul h.rooted_no_empty h.short

end Plain

/-! ## 3. Directories and their entries -/

section Entries

variable {dir name component path : List UInt8}

theorem isBelow_iff : Ramfs.isBelow path name = true ↔ ∃ rest, rest ≠ [] ∧ name = path ++ slash :: rest := by
  simp only [Ramfs.isBelow, Bool.and_eq_true, decide_eq_true_eq, beq_iff_eq]
  constructor
  · rintro ⟨⟨hlen, htake⟩, hslash⟩
    have hdrop : name.drop path.length = slash :: name.drop (path.length + 1) := by
      rw [List.drop_eq_getElem_cons (by omega)]
      rw [List.getElem?_eq_getElem (by omega), Option.some.injEq] at hslash
      rw [hslash]
    refine ⟨name.drop (path.length + 1), ?_, ?_⟩
    · rw [ne_eq, List.drop_eq_nil_iff]
      omega
    · rw [← hdrop]
      exact (List.take_append_drop path.length name).symm.trans (by rw [htake])
  · rintro ⟨rest, hne, rfl⟩
    have := List.length_pos_iff.mpr hne
    exact ⟨⟨by simp; omega, by simp⟩, by simp⟩

theorem isChild_iff (hdir : Normal dir) (hname : Normal name) (hne : name ≠ dir) : Ramfs.isChild dir name = true ↔
      ∃ component, component ≠ [] ∧ slash ∉ component ∧ name = Tree.join dir component := by
  unfold Ramfs.isChild Tree.join
  by_cases hroot : dir = root
  · simp only [if_pos hroot]
    obtain ⟨rest, rfl⟩ : ∃ rest, name = slash :: rest := by
      match name, hname.rooted with
      | _ :: rest, rfl => exact ⟨rest, rfl⟩
    have hrest : rest ≠ [] := by
      rintro rfl
      exact hne hroot.symm
    simp [hrest]
  · have hdrop : ∀ component, (dir ++ slash :: component).drop (dir.length + 1) = component := by
      intro component
      rw [List.drop_append, List.drop_eq_nil_of_le (Nat.le_succ _)]
      simp
    simp only [if_neg hroot, Bool.and_eq_true, List.isPrefixOf_iff_prefix, beq_iff_eq]
    constructor
    · rintro ⟨⟨⟨rest, rfl⟩, hslash⟩, hcontains⟩
      obtain ⟨component, rfl⟩ : ∃ component, rest = slash :: component := by
        rw [List.getElem?_append_right le_rfl, Nat.sub_self] at hslash
        match rest, hslash with
        | _ :: component, rfl => exact ⟨component, rfl⟩
      refine ⟨component, ?_, ?_, rfl⟩
      · rintro rfl
        have hlast := hname.trailing (by simp)
        exact hdir.ne_nil (List.append_eq_singleton_iff.mp hlast |>.resolve_right (by simp) |>.1)
      · simpa [hdrop] using hcontains
    · rintro ⟨component, -, hslash, rfl⟩
      exact ⟨⟨⟨_, rfl⟩, by simp⟩, by simpa [hdrop] using hslash⟩

theorem join_ne (h : component ≠ []) : Tree.join dir component ≠ dir := by
  unfold Tree.join
  split_ifs with hroot
  · rw [hroot, root]
    simpa using h
  · simp

theorem basename_join (h : slash ∉ component) : Ramfs.basename (Tree.join dir component) = component := by
  obtain ⟨front, hjoin⟩ : ∃ front, Tree.join dir component = front ++ slash :: component := by
    unfold Tree.join
    split_ifs
    · exact ⟨[], rfl⟩
    · exact ⟨dir, rfl⟩
  rw [hjoin, Ramfs.basename, List.reverse_append, List.reverse_cons, List.append_assoc,
    List.takeWhile_append_of_pos (by simpa using fun a ha (he : a = slash) => h (he ▸ ha))]
  simp

end Entries

/-! ## 4. The relation -/

namespace FileEntry

variable {e : FileEntry}

/-- What an entry stands for. -/
def node (e : FileEntry) : Node := if e.isDir then .dir else .file (e.data.take e.len)

/-- What holds of every used entry. -/
structure Valid (e : FileEntry) : Prop where
  normal : Normal e.nameStr
  dir : e.isDir = true → e.len = 0
  len : e.len ≤ maxFileSize
  data : e.data.length = maxFileSize

@[simp] theorem node_isDir (e : FileEntry) : e.node.isDir = e.isDir := by
  unfold node
  cases e.isDir <;> rfl

theorem Valid.node_size (h : e.Valid) : e.node.size = e.len := by
  unfold node
  cases hdir : e.isDir with
  | true => exact (h.dir hdir).symm
  | false => simp [Node.size, h.data, h.len]

variable {path content : List UInt8}

theorem nameStr_setName (h : Normal path) (e : FileEntry) : (e.setName path).nameStr = path := by
  have htake : path.take (min path.length maxNameLen) = path := List.take_of_length_le (by simp [h.short])
  rw [setName, nameStr]
  simp only [htake]
  rw [List.takeWhile_append_of_pos (by simpa using fun a ha (he : a = 0) => h.no_nul (he ▸ ha))]
  simp

theorem newDir_valid (h : Normal path) :
    Valid { empty.setName path with used := true, isDir := true } := by
  refine ⟨?_, fun _ => rfl, Nat.zero_le _, List.length_replicate⟩
  exact (nameStr_setName h empty).symm ▸ h

theorem setData_valid (hnormal : Normal e.nameStr) (hdata : e.data.length = maxFileSize)
    (hdir : e.isDir = false) (hlen : content.length ≤ maxFileSize) : (e.setData content).Valid := by
  refine ⟨hnormal, fun h => ?_, hlen, ?_⟩
  · exact absurd (hdir.symm.trans h) (by decide)
  · simp [setData, hdata, hlen]

theorem newFile_valid (h : Normal path) (hlen : content.length ≤ maxFileSize) :
    Valid { (empty.setName path).setData content with used := true, isDir := false } := by
  have hvalid : ((empty.setName path).setData content).Valid :=
    setData_valid ((nameStr_setName h empty).symm ▸ h) List.length_replicate rfl hlen
  exact ⟨hvalid.normal, fun hdir => (Bool.false_ne_true hdir).elim, hvalid.len, hvalid.data⟩

theorem setData_node (hdir : e.isDir = false) : (e.setData content).node = .file content := by
  simp [node, setData, hdir]

theorem newFile_node (path content : List UInt8) :
    node { (empty.setName path).setData content with used := true, isDir := false } = .file content := by
  simp [node, setData]

end FileEntry

/-- The table stands for the map. -/
structure Represents (fs : Ramfs) (m : Tree) : Prop where
  lookup : ∀ path node, m.lookup path = some node ↔
    ∃ (i : Nat) (e : FileEntry), fs.table[i]? = some e ∧ e.used = true ∧ e.nameStr = path ∧ e.node = node
  unique : ∀ (i j : Nat) (e e' : FileEntry), fs.table[i]? = some e → fs.table[j]? = some e' → e.used = true → e'.used = true →
    e.nameStr = e'.nameStr → i = j
  valid : ∀ e ∈ fs.table, e.used = true → e.Valid
  card : m.keys.card = fs.table.countP (·.used)

namespace Represents

variable {fs : Ramfs} {m : Tree} {i : Nat} {old e : FileEntry} {path : List UInt8}

theorem bounded (h : Represents fs m) : m.Bounded := by
  refine ⟨?_, fun path content hlookup => ?_⟩
  · rw [h.card, ← fs.size]
    exact List.countP_le_length
  · obtain ⟨i, e, hi, hused, -, hnode⟩ := (h.lookup path _).mp hlookup
    have hvalid := h.valid e (List.mem_of_getElem? hi) hused
    rw [show content.length = (Node.file content).size from rfl, ← hnode, hvalid.node_size]
    exact hvalid.len

theorem get_eq (hi : fs.table[i]? = some e) : fs.get i = e := by
  rw [Ramfs.get, List.getD_eq_getElem?_getD, hi, Option.getD_some]

theorem findEntry_some (h : Represents fs m) (hfind : fs.findEntry path = some i) :
    fs.table[i]? = some (fs.get i) ∧ (fs.get i).used = true ∧ (fs.get i).nameStr = path ∧
      m.lookup path = some (fs.get i).node := by
  obtain ⟨hlt, hp, -⟩ := List.findIdx?_eq_some_iff_getElem.mp hfind
  have hi : fs.table[i]? = some fs.table[i] := List.getElem?_eq_getElem hlt
  rw [Bool.and_eq_true, beq_iff_eq] at hp
  rw [get_eq hi]
  exact ⟨hi, hp.1, hp.2, (h.lookup _ _).mpr ⟨i, _, hi, hp.1, hp.2, rfl⟩⟩

theorem findEntry_none (h : Represents fs m) (hfind : fs.findEntry path = none) : m.lookup path = none := by
  rw [Option.eq_none_iff_forall_ne_some]
  intro node hlookup
  obtain ⟨i, e, hi, hused, hname, -⟩ := (h.lookup _ _).mp hlookup
  have := List.findIdx?_eq_none_iff.mp hfind e (List.mem_of_getElem? hi)
  simp [hused, hname] at this

theorem findFree_some (h : Represents fs m) (hfind : fs.findFree = some i) :
    fs.table[i]? = some (fs.get i) ∧ (fs.get i).used = false ∧ m.keys.card ≠ maxFiles := by
  obtain ⟨hlt, hp, -⟩ := List.findIdx?_eq_some_iff_getElem.mp hfind
  have hi : fs.table[i]? = some fs.table[i] := List.getElem?_eq_getElem hlt
  rw [Bool.not_eq_true'] at hp
  rw [get_eq hi, h.card, ← fs.size]
  refine ⟨hi, hp, fun hall => ?_⟩
  have := List.countP_eq_length.mp hall _ (List.getElem_mem hlt)
  exact absurd (hp.symm.trans this) (by decide)

theorem findFree_none (h : Represents fs m) (hfind : fs.findFree = none) : m.keys.card = maxFiles := by
  rw [h.card, ← fs.size, List.countP_eq_length]
  intro e he
  simpa using List.findIdx?_eq_none_iff.mp hfind e he

theorem getElem?_set (hi : fs.table[i]? = some old) (e : FileEntry) (j : Nat) :
    (fs.set i e).table[j]? = if i = j then some e else fs.table[j]? := by
  have hlt : i < fs.table.length := (getElem?_eq_some_iff.mp hi).1
  rw [Ramfs.set, List.getElem?_set, if_pos hlt]

theorem countP_set (hi : fs.table[i]? = some old) (e : FileEntry) :
    (fs.set i e).table.countP (·.used) + (if old.used then 1 else 0) =
      fs.table.countP (·.used) + (if e.used then 1 else 0) := by
  obtain ⟨hlt, rfl⟩ := getElem?_eq_some_iff.mp hi
  have hpos : fs.table[i].used = true → 0 < fs.table.countP (·.used) := fun hu =>
    List.countP_pos_iff.mpr ⟨_, List.getElem_mem hlt, hu⟩
  rw [Ramfs.set, List.countP_set hlt]
  cases hu : fs.table[i].used with
  | true =>
    have := hpos hu
    simp only [if_true]
    omega
  | false => simp

/-- **Assigning an entry** that is free or has the same name. -/
theorem put (h : Represents fs m) (hi : fs.table[i]? = some old) (hused : e.used = true) (hvalid : e.Valid)
    (hother : ∀ j e', fs.table[j]? = some e' → e'.used = true → e'.nameStr = e.nameStr → i = j)
    (hold : old.used = true → old.nameStr = e.nameStr) :
    Represents (fs.set i e) (m.insert e.nameStr e.node) := by
  refine ⟨fun path node => ?_, fun j k e1 e2 h1 h2 hu1 hu2 hname => ?_, fun e' he' hu' => ?_, ?_⟩
  · by_cases hpath : path = e.nameStr
    · subst hpath
      rw [Finmap.lookup_insert]
      constructor
      · intro hnode
        exact ⟨i, e, by rw [getElem?_set hi, if_pos rfl], hused, rfl, Option.some.inj hnode⟩
      · rintro ⟨j, e', hj, hu', hname, rfl⟩
        rw [getElem?_set hi] at hj
        split_ifs at hj with hij
        · rw [Option.some.inj hj]
        · exact absurd (hother j e' hj hu' hname) hij
    · rw [Finmap.lookup_insert_of_ne _ hpath, h.lookup]
      refine exists_congr fun j => exists_congr fun e' => ?_
      rw [getElem?_set hi]
      split_ifs with hij
      · subst hij
        rw [hi]
        constructor
        · rintro ⟨hsome, hu', hname, -⟩
          cases hsome
          exact absurd (hname.symm.trans (hold hu')) hpath
        · rintro ⟨hsome, -, hname, -⟩
          cases hsome
          exact absurd hname.symm hpath
      · rfl
  · rw [getElem?_set hi] at h1 h2
    split_ifs at h1 h2 with hij hik hik
    · exact hij.symm.trans hik
    · cases h1
      exact hij ▸ hother k e2 h2 hu2 hname.symm
    · cases h2
      exact hik ▸ (hother j e1 h1 hu1 hname).symm
    · exact h.unique j k e1 e2 h1 h2 hu1 hu2 hname
  · rcases List.mem_or_eq_of_mem_set he' with hmem | rfl
    · exact h.valid e' hmem hu'
    · exact hvalid
  · have hcount := countP_set hi e
    have hkeys : (m.insert e.nameStr e.node).keys = insert e.nameStr m.keys := by
      ext
      simp [Finmap.mem_keys]
    rw [hkeys]
    cases hu : old.used with
    | true =>
      have hmem : e.nameStr ∈ m.keys := by
        rw [Finmap.mem_keys, Finmap.mem_iff]
        exact ⟨_, (h.lookup _ _).mpr ⟨i, old, hi, hu, hold hu, rfl⟩⟩
      rw [Finset.insert_eq_of_mem hmem, h.card]
      simpa [hu, hused] using hcount.symm
    | false =>
      have hmem : e.nameStr ∉ m.keys := by
        rw [Finmap.mem_keys, Finmap.mem_iff]
        rintro ⟨node, hnode⟩
        obtain ⟨j, e', hj, hu', hname, -⟩ := (h.lookup _ _).mp hnode
        obtain rfl := hother j e' hj hu' hname
        cases hi.symm.trans hj
        exact absurd (hu.symm.trans hu') (by decide)
      rw [Finset.card_insert_of_notMem hmem, h.card]
      simpa [hu, hused] using hcount.symm

/-- **Freeing an entry.** -/
theorem clear (h : Represents fs m) (hi : fs.table[i]? = some old) (hused : old.used = true) :
    Represents (fs.set i { old with used := false }) (m.erase old.nameStr) := by
  refine ⟨fun path node => ?_, fun j k e1 e2 h1 h2 hu1 hu2 hname => ?_, fun e' he' hu' => ?_, ?_⟩
  · by_cases hpath : path = old.nameStr
    · subst hpath
      rw [Finmap.lookup_erase]
      refine ⟨fun hnone => absurd hnone (by simp), ?_⟩
      rintro ⟨j, e', hj, hu', hname, -⟩
      rw [getElem?_set hi] at hj
      split_ifs at hj with hij
      · cases hj
        cases hu'
      · exact absurd (h.unique i j old e' hi hj hused hu' hname.symm) hij
    · rw [Finmap.lookup_erase_ne hpath, h.lookup]
      refine exists_congr fun j => exists_congr fun e' => ?_
      rw [getElem?_set hi]
      split_ifs with hij
      · subst hij
        rw [hi]
        constructor
        · rintro ⟨hsome, -, hname, -⟩
          cases hsome
          exact absurd hname.symm hpath
        · rintro ⟨hsome, hu', -⟩
          cases hsome
          cases hu'
      · rfl
  · rw [getElem?_set hi] at h1 h2
    split_ifs at h1 h2 with hij hik hik
    · exact hij.symm.trans hik
    · cases h1
      cases hu1
    · cases h2
      cases hu2
    · exact h.unique j k e1 e2 h1 h2 hu1 hu2 hname
  · rcases List.mem_or_eq_of_mem_set he' with hmem | rfl
    · exact h.valid e' hmem hu'
    · cases hu'
  · have hcount := countP_set hi { old with used := false }
    have hmem : old.nameStr ∈ m.keys := by
      rw [Finmap.mem_keys, Finmap.mem_iff]
      exact ⟨_, (h.lookup _ _).mpr ⟨i, old, hi, hused, rfl, rfl⟩⟩
    rw [Finmap.keys_erase, Finset.card_erase_of_mem hmem, h.card]
    simp only [hused, if_true, Bool.false_eq_true, if_false] at hcount
    omega

/-! ## 5. The operations -/

/-- The operation does what the specification does, and changes nothing if it fails. -/
def Refines (fs : Ramfs) (m : Tree) (spec : Except FsError Tree) (r : Except FsError Unit × Ramfs) : Prop :=
  ∃ m', m.Yields spec (.ofUnit r.1) m' ∧ Represents r.2 m' ∧ ∀ e, Ramfs.Output.ofUnit r.1 = .error e → r.2 = fs

theorem refused (h : Represents fs m) (e : FsError) : Refines fs m (.error e) (.error e, fs) :=
  ⟨m, ⟨rfl, rfl⟩, h, fun _ _ => rfl⟩

theorem done {fs' : Ramfs} {m' : Tree} (h : Represents fs' m') : Refines fs m (.ok m') (.ok (), fs') :=
  ⟨m', ⟨rfl, rfl⟩, h, fun _ herror => by cases herror⟩

section Operations

variable {path : List Char} (h : Represents fs m)

include h

theorem create {p : List UInt8} (hnew : m.lookup p = none) (hfind : fs.findFree = some i)
    (hused : e.used = true) (hname : e.nameStr = p) (hvalid : e.Valid) :
    m.create p e.node = .ok (m.insert p e.node) ∧ Represents (fs.set i e) (m.insert p e.node) := by
  obtain ⟨hi, hunused, hcard⟩ := h.findFree_some hfind
  subst hname
  refine ⟨if_neg hcard, h.put hi hused hvalid (fun j e' hj hu' hsame => ?_) fun hu => ?_⟩
  · have := (h.lookup _ _).mpr ⟨j, e', hj, hu', hsame, rfl⟩
    rw [hnew] at this
    cases this
  · exact absurd (hunused.symm.trans hu) (by decide)

theorem mkdir (hpath : Plain path) : Refines fs m (m.mkdir (normalForm path)) (fs.mkdir path) := by
  unfold Ramfs.mkdir
  simp only [hpath.normalizePath, if_neg (not_lt.mpr hpath.short)]
  cases hfind : fs.findEntry (normalForm path) with
  | some i =>
    obtain ⟨-, -, -, hlookup⟩ := h.findEntry_some hfind
    have hspec : m.mkdir (normalForm path) = .error .alreadyExists := if_pos (Finmap.mem_iff.mpr ⟨_, hlookup⟩)
    rw [hspec]
    exact h.refused _
  | none =>
    have hnew := h.findEntry_none hfind
    have hspec : m.mkdir (normalForm path) = m.create (normalForm path) .dir := if_neg (Finmap.lookup_eq_none.mp hnew)
    rw [hspec]
    cases hfree : fs.findFree with
    | none =>
      rw [Tree.create, if_pos (h.findFree_none hfree)]
      exact h.refused _
    | some i =>
      obtain ⟨hcreate, hrep⟩ := h.create hnew hfree (e := { FileEntry.empty.setName (normalForm path) with
        used := true, isDir := true }) rfl (FileEntry.nameStr_setName hpath.normal _)
        (FileEntry.newDir_valid hpath.normal)
      rw [show Node.dir = ({ FileEntry.empty.setName (normalForm path) with
        used := true, isDir := true } : FileEntry).node from rfl, hcreate]
      exact hrep.done

theorem write (hpath : Plain path) (content : List UInt8) :
    Refines fs m (m.write (normalForm path) content) (fs.write path content) := by
  unfold Ramfs.write Tree.write
  simp only [hpath.normalizePath, if_neg (not_lt.mpr hpath.short)]
  by_cases hlarge : content.length > maxFileSize
  · rw [if_pos hlarge, if_pos hlarge]
    exact h.refused _
  rw [if_neg hlarge, if_neg hlarge]
  have hlen : content.length ≤ maxFileSize := not_lt.mp hlarge
  cases hfind : fs.findEntry (normalForm path) with
  | some i =>
    obtain ⟨hi, hused, hname, hlookup⟩ := h.findEntry_some hfind
    have hvalid := h.valid _ (List.mem_of_getElem? hi) hused
    cases hdir : (fs.get i).isDir with
    | true =>
      rw [show (fs.get i).node = .dir from if_pos hdir] at hlookup
      simp only [hlookup, hdir, if_true]
      exact h.refused _
    | false =>
      rw [show (fs.get i).node = .file _ from if_neg (by simp [hdir])] at hlookup
      have hput := h.put (e := (fs.get i).setData content) hi hused
        (FileEntry.setData_valid hvalid.normal hvalid.data hdir hlen)
        (fun j e' hj hu' hsame => h.unique i j _ e' hi hj hused hu' hsame.symm) (fun _ => rfl)
      rw [FileEntry.setData_node hdir, show ((fs.get i).setData content).nameStr = normalForm path from hname] at hput
      simp only [hlookup, hdir, Bool.false_eq_true, if_false]
      exact hput.done
  | none =>
    have hnew := h.findEntry_none hfind
    simp only [hnew]
    cases hfree : fs.findFree with
    | none =>
      rw [Tree.create, if_pos (h.findFree_none hfree)]
      exact h.refused _
    | some i =>
      obtain ⟨hcreate, hrep⟩ := h.create hnew hfree (e := { (FileEntry.empty.setName (normalForm path)).setData
        content with used := true, isDir := false }) rfl (FileEntry.nameStr_setName hpath.normal .empty)
        (FileEntry.newFile_valid hpath.normal hlen)
      rw [FileEntry.newFile_node] at hcreate hrep
      rw [hcreate]
      exact hrep.done

/-- The search of `remove` for entries below a directory. -/
theorem any_isBelow_iff {p : List UInt8} (hname : (fs.get i).nameStr = p) :
    (List.range maxFiles).any (fun j => (fs.get j).used && j != i && Ramfs.isBelow p (fs.get j).nameStr) = true ↔
      m.HasBelow p := by
  rw [List.any_eq_true]
  constructor
  · rintro ⟨j, hj, hall⟩
    simp only [Bool.and_eq_true, bne_iff_ne] at hall
    obtain ⟨⟨hused, -⟩, hbelow⟩ := hall
    obtain ⟨rest, hne, hrest⟩ := isBelow_iff.mp hbelow
    have hj' : fs.table[j]? = some (fs.get j) := by
      have hlt : j < fs.table.length := by rw [fs.size]; exact List.mem_range.mp hj
      have hget := List.getElem?_eq_getElem hlt
      rw [get_eq hget, hget]
    exact ⟨rest, hne, Finmap.mem_iff.mpr ⟨_, (h.lookup _ _).mpr ⟨j, _, hj', hused, hrest, rfl⟩⟩⟩
  · rintro ⟨rest, hne, hmem⟩
    obtain ⟨node, hnode⟩ := Finmap.mem_iff.mp hmem
    obtain ⟨j, e, hj, hused, hrest, -⟩ := (h.lookup _ _).mp hnode
    refine ⟨j, ?_, ?_⟩
    · rw [List.mem_range, ← fs.size]
      exact (getElem?_eq_some_iff.mp hj).1
    · simp only [Bool.and_eq_true, bne_iff_ne, get_eq hj]
      refine ⟨⟨hused, ?_⟩, isBelow_iff.mpr ⟨rest, hne, hrest⟩⟩
      rintro rfl
      rw [get_eq hj, hrest] at hname
      simp at hname

theorem remove (hpath : Plain path) : Refines fs m (m.remove (normalForm path)) (fs.remove path) := by
  unfold Ramfs.remove Tree.remove
  simp only [hpath.normalizePath]
  by_cases hroot : normalForm path = root
  · rw [if_pos hroot, if_pos hroot]
    exact h.refused _
  rw [if_neg hroot, if_neg hroot]
  cases hfind : fs.findEntry (normalForm path) with
  | none =>
    simp only [h.findEntry_none hfind]
    exact h.refused _
  | some i =>
    obtain ⟨hi, hused, hname, hlookup⟩ := h.findEntry_some hfind
    have hcond : ((fs.get i).isDir && (List.range maxFiles).any fun j =>
        (fs.get j).used && j != i && Ramfs.isBelow (normalForm path) (fs.get j).nameStr) = true ↔
          (fs.get i).node.isDir = true ∧ m.HasBelow (normalForm path) := by
      rw [Bool.and_eq_true, h.any_isBelow_iff hname, FileEntry.node_isDir]
    simp only [hlookup]
    by_cases hbelow : (fs.get i).node.isDir = true ∧ m.HasBelow (normalForm path)
    · rw [if_pos hbelow, if_pos (hcond.mpr hbelow)]
      exact h.refused _
    · rw [if_neg hbelow, if_neg (mt hcond.mp hbelow)]
      have hclear := h.clear hi hused
      rw [hname] at hclear
      exact hclear.done

theorem read (hpath : Plain path) :
    match m.lookup (normalForm path) with
    | none => fs.read path = .error .notFound
    | some .dir => fs.read path = .error .isDirectory
    | some (.file content) => fs.read path = .ok content := by
  unfold Ramfs.read
  rw [hpath.normalizePath]
  cases hfind : fs.findEntry (normalForm path) with
  | none => rw [h.findEntry_none hfind]
  | some i =>
    obtain ⟨-, -, -, hlookup⟩ := h.findEntry_some hfind
    rw [hlookup, FileEntry.node]
    cases hdir : (fs.get i).isDir <;> simp [hdir]

theorem mem_listing {dir : List UInt8} (hdir : Normal dir) (x : List UInt8 × Bool × Nat) :
    (x ∈ fs.table.filterMap fun e =>
        if e.used && e.nameStr != dir && Ramfs.isChild dir e.nameStr then
          some (Ramfs.basename e.nameStr, e.isDir, e.len) else none) ↔ m.Child dir x := by
  rw [List.mem_filterMap]
  constructor
  · rintro ⟨e, he, hsome⟩
    split_ifs at hsome with hcond
    simp only [Bool.and_eq_true, bne_iff_ne] at hcond
    obtain ⟨⟨hused, hne⟩, hchild⟩ := hcond
    have hvalid := h.valid e he hused
    obtain ⟨component, hcomp, hslash, hjoin⟩ := (isChild_iff hdir hvalid.normal hne).mp hchild
    obtain ⟨i, hi⟩ := List.mem_iff_getElem?.mp he
    cases hsome
    rw [Tree.Child, hjoin, basename_join hslash]
    exact ⟨hcomp, hslash, e.node, (h.lookup _ _).mpr ⟨i, e, hi, hused, hjoin, rfl⟩,
      by rw [FileEntry.node_isDir, hvalid.node_size]⟩
  · obtain ⟨component, kind, size⟩ := x
    rintro ⟨hcomp, hslash, node, hlookup, hx⟩
    obtain ⟨i, e, hi, hused, hname, rfl⟩ := (h.lookup _ _).mp hlookup
    have hvalid := h.valid e (List.mem_of_getElem? hi) hused
    have hne : e.nameStr ≠ dir := hname ▸ join_ne hcomp
    have hchild := (isChild_iff hdir hvalid.normal hne).mpr ⟨component, hcomp, hslash, hname⟩
    refine ⟨e, List.mem_of_getElem? hi, ?_⟩
    rw [if_pos (by simp [hused, hne, hchild]), hname, basename_join hslash]
    cases hx
    rw [FileEntry.node_isDir, hvalid.node_size]

theorem listing_nodup {dir : List UInt8} (hdir : Normal dir) : (fs.table.filterMap fun e =>
        if e.used && e.nameStr != dir && Ramfs.isChild dir e.nameStr then
          some (Ramfs.basename e.nameStr, e.isDir, e.len) else none).Nodup := by
  have hpairs : fs.table.Pairwise fun e e' => (e.used = true → e.Valid) ∧ (e'.used = true → e'.Valid) ∧
      (e.used = true → e'.used = true → e.nameStr ≠ e'.nameStr) := by
    rw [List.pairwise_iff_getElem]
    intro i j hi hj hlt
    refine ⟨h.valid _ (List.getElem_mem hi), h.valid _ (List.getElem_mem hj), fun hu hu' hname => ?_⟩
    exact hlt.ne (h.unique i j _ _ (List.getElem?_eq_getElem hi) (List.getElem?_eq_getElem hj) hu hu' hname)
  refine List.Pairwise.filterMap _ ?_ hpairs
  rintro e e' ⟨hvalid, hvalid', hnames⟩ x hx x' hx' rfl
  split_ifs at hx hx' with hcond hcond'
  simp only [Bool.and_eq_true, bne_iff_ne] at hcond hcond'
  obtain ⟨⟨hused, hne⟩, hchild⟩ := hcond
  obtain ⟨⟨hused', hne'⟩, hchild'⟩ := hcond'
  obtain ⟨c, -, hslash, hjoin⟩ := (isChild_iff hdir (hvalid hused).normal hne).mp hchild
  obtain ⟨c', -, hslash', hjoin'⟩ := (isChild_iff hdir (hvalid' hused').normal hne').mp hchild'
  have hbase : Ramfs.basename e.nameStr = Ramfs.basename e'.nameStr :=
    congrArg Prod.fst (Option.some.inj (hx.trans hx'.symm))
  rw [hjoin, hjoin', basename_join hslash, basename_join hslash'] at hbase
  exact hnames hused hused' (by rw [hjoin, hjoin', hbase])

theorem list (hpath : Plain path) :
    match m.lookup (normalForm path) with
    | none => fs.list path = .error .notFound
    | some (.file _) => fs.list path = .error .notDirectory
    | some .dir => ∃ l, fs.list path = .ok l ∧ l.Nodup ∧ ∀ x, x ∈ l ↔ m.Child (normalForm path) x := by
  unfold Ramfs.list
  simp only [hpath.normalizePath]
  cases hfind : fs.findEntry (normalForm path) with
  | none => rw [h.findEntry_none hfind]
  | some i =>
    obtain ⟨-, -, -, hlookup⟩ := h.findEntry_some hfind
    rw [hlookup, FileEntry.node]
    cases hdir : (fs.get i).isDir with
    | false => simp [hdir]
    | true => exact ⟨_, if_neg (by simp [hdir]), h.listing_nodup hpath.normal, h.mem_listing hpath.normal⟩

/-- **One operation** of the code is one of the specification, and one that fails changes nothing. -/
theorem step {op : Ramfs.Op} (hop : Plain op.path) : ∃ m', m.Step op (fs.step op).1 m' ∧ Represents (fs.step op).2 m' ∧
      (∀ e, (fs.step op).1 = .error e → (fs.step op).2 = fs) := by
  have hsame : (∀ path, (fs.step (.read path)).2 = fs) ∧ ∀ path, (fs.step (.list path)).2 = fs := by
    constructor <;> intro path <;> unfold Ramfs.step <;> dsimp only <;> split <;> rfl
  cases op with
  | mkdir path => exact h.mkdir hop
  | write path content => exact h.write hop content
  | remove path => exact h.remove hop
  | read path =>
    refine ⟨m, ⟨rfl, ?_⟩, (hsame.1 path).symm ▸ h, fun _ _ => hsame.1 path⟩
    have hpath : Plain path := hop
    have hread := h.read hpath
    unfold Ramfs.step
    dsimp only
    split at hread <;> simp [hread]
  | list path =>
    refine ⟨m, ⟨rfl, ?_⟩, (hsame.2 path).symm ▸ h, fun _ _ => hsame.2 path⟩
    have hpath : Plain path := hop
    have hlist := h.list hpath
    unfold Ramfs.step
    dsimp only
    split at hlist
    · simp [hlist]
    · simp [hlist]
    · obtain ⟨l, hl, hnodup, hmem⟩ := hlist
      exact ⟨l, by rw [hl], hnodup, hmem⟩

end Operations

theorem empty : Represents ⟨List.replicate maxFiles .empty, List.length_replicate⟩ ∅ := by
  have hunused : ∀ e ∈ List.replicate maxFiles FileEntry.empty, e.used ≠ true := by
    intro e he
    rw [(List.mem_replicate.mp he).2]
    decide
  refine ⟨fun path node => ?_, fun i j e e' hi _ hu => ?_, fun e he hu => absurd hu (hunused e he), ?_⟩
  · simp only [Finmap.lookup_empty, reduceCtorEq, false_iff]
    rintro ⟨i, e, hi, hu, -⟩
    exact hunused e (List.mem_of_getElem? hi) hu
  · exact absurd hu (hunused e (List.mem_of_getElem? hi))
  · rw [List.countP_eq_zero.mpr hunused]
    rfl

theorem init : Represents .init .init := by
  have hfirst : (List.replicate maxFiles FileEntry.empty)[0]? = some .empty := rfl
  have hput := empty.put (e := { FileEntry.empty.setName root with
    used := true, isDir := true }) hfirst rfl (FileEntry.newDir_valid root_normal)
    (fun j e' hj hu' => ?_) (fun hu => by cases hu)
  · exact hput
  · rw [(List.mem_replicate.mp (List.mem_of_getElem? hj)).2] at hu'
    cases hu'

end Represents

/-! ## 6. Runs -/

/-- The table answers every operation of a sequence as the specification does, a failing operation
changes nothing, and the bounds of the specification hold throughout. -/
def Behaves : Ramfs → Tree → List Ramfs.Op → Prop
  | _, m, [] => m.Bounded
  | fs, m, op :: ops => m.Bounded ∧ (∀ e, (fs.step op).1 = .error e → (fs.step op).2 = fs) ∧
      ∃ m', m.Step op (fs.step op).1 m' ∧ Behaves (fs.step op).2 m' ops

theorem Represents.behaves {fs : Ramfs} {m : Tree} (h : Represents fs m) {ops : List Ramfs.Op}
    (hops : ∀ op ∈ ops, Plain op.path) : Behaves fs m ops := by
  induction ops generalizing fs m with
  | nil => exact h.bounded
  | cons op ops ih =>
    obtain ⟨m', hspec, hrep, herror⟩ := h.step (hops op (by simp))
    exact ⟨h.bounded, herror, m', hspec, ih hrep fun op' hop' => hops op' (by simp [hop'])⟩

/-- **The RAM file system is a finite map.**  From its initialisation on, every sequence of
operations on plain paths does what it does to a map from normal paths to directories and files. -/
theorem ramfs_refines (ops : List Ramfs.Op) (hops : ∀ op ∈ ops, Plain op.path) : Behaves .init .init ops :=
  Represents.init.behaves hops

theorem ramfs_refines_tmp : (∀ op ∈ [Ramfs.Op.mkdir ['/', 't', 'm', 'p'], .list ['t', 'm', 'p', '/']], Plain op.path) ∧
      Behaves .init .init [.mkdir ['/', 't', 'm', 'p'], .list ['t', 'm', 'p', '/']] := by
  have hplain : ∀ op ∈ [Ramfs.Op.mkdir ['/', 't', 'm', 'p'], .list ['t', 'm', 'p', '/']], Plain op.path := by
    simp only [List.mem_cons, List.not_mem_nil, or_false, forall_eq_or_imp, forall_eq]
    exact ⟨⟨by decide, by decide, by decide⟩, ⟨by decide, by decide, by decide⟩⟩
  exact ⟨hplain, ramfs_refines _ hplain⟩

end BeetKernel.Fs
