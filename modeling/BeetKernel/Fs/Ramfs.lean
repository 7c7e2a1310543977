/-
# The RAM file system

`os/fs/src/ramfs.rs`: a table of 64 entries, each with the path of a file or a directory in a
NUL-terminated array of 64 bytes.  There is no tree: an entry is below a directory if its path
begins with the path of the directory.

A path comes in as a `&str`, here a list of characters; `normalize_path` makes it the bytes that
are stored and compared.
-/
import Mathlib.Data.UInt

namespace BeetKernel.Fs

/-! ## 1. Paths -/

def maxFiles : Nat := 64
def maxNameLen : Nat := 63
def maxFileSize : Nat := 4096

/-- `b'/'` -/
def slash : UInt8 := 47

/-- The path `/`. -/
def root : List UInt8 := [slash]

/-- `char::is_whitespace`: the property `White_Space`. -/
def isWhitespace (c : Char) : Bool :=
  (9 ≤ c.toNat && c.toNat ≤ 13) || c.toNat == 0x20 || c.toNat == 0x85 || c.toNat == 0xA0 || c.toNat == 0x1680 ||
    (0x2000 ≤ c.toNat && c.toNat ≤ 0x200A) || c.toNat == 0x2028 || c.toNat == 0x2029 || c.toNat == 0x202F ||
    c.toNat == 0x205F || c.toNat == 0x3000

def trim (path : List Char) : List Char := ((path.dropWhile isWhitespace).reverse.dropWhile isWhitespace).reverse

def asBytes (path : List Char) : List UInt8 := path.flatMap String.utf8EncodeChar

/-- "Remove trailing slash (unless root)" -/
def dropTrailing (path : List UInt8) : List UInt8 :=
  if 1 < path.length ∧ path.getLast? = some slash then path.dropLast else path

/-- `normalize_path`, as the bytes it returns. -/
def normalizePath (path : List Char) : List UInt8 :=
  let bytes := asBytes (trim path)
  let lead := if bytes.head? = some slash then [] else [slash]
  dropTrailing (lead ++ bytes.take (maxNameLen - lead.length))

/-! ## 2. The table -/

inductive FsError where
  | notFound
  | alreadyExists
  | noSpace
  | nameTooLong
  | fileTooLarge
  | isDirectory
  | notDirectory
  | notEmpty
  deriving DecidableEq, Repr

structure FileEntry where
  name : List UInt8
  data : List UInt8
  len : Nat
  used : Bool
  isDir : Bool

namespace FileEntry

def empty : FileEntry := ⟨List.replicate (maxNameLen + 1) 0, List.replicate maxFileSize 0, 0, false, false⟩

def nameStr (e : FileEntry) : List UInt8 := e.name.takeWhile (· != 0)

def setName (e : FileEntry) (name : List UInt8) : FileEntry :=
  let len := min name.length maxNameLen
  { e with name := name.take len ++ 0 :: e.name.drop (len + 1) }

/-- The assignments to `data` and `len` in `write`. -/
def setData (e : FileEntry) (content : List UInt8) : FileEntry :=
  { e with data := content ++ e.data.drop content.length, len := content.length }

end FileEntry

/-- `FS`: the table of `MAX_FILES` entries. -/
structure Ramfs where
  table : List FileEntry
  size : table.length = maxFiles

namespace Ramfs

/-- `FS[idx]` -/
def get (fs : Ramfs) (idx : Nat) : FileEntry := fs.table.getD idx .empty

/-- An assignment to `FS[idx]`. -/
def set (fs : Ramfs) (idx : Nat) (e : FileEntry) : Ramfs := ⟨fs.table.set idx e, by rw [List.length_set, fs.size]⟩

def findEntry (fs : Ramfs) (path : List UInt8) : Option Nat := fs.table.findIdx? fun e => e.used && e.nameStr == path

def findFree (fs : Ramfs) : Option Nat := fs.table.findIdx? fun e => !e.used

/-- `init`, on the table as it is when the service starts. -/
def init : Ramfs := Ramfs.set ⟨List.replicate maxFiles .empty, List.length_replicate⟩ 0
    { FileEntry.empty.setName root with used := true, isDir := true }

/-! ## 3. Operations -/

def mkdir (fs : Ramfs) (path : List Char) : Except FsError Unit × Ramfs :=
  let path := normalizePath path
  if path.length > maxNameLen then (.error .nameTooLong, fs)
  else if (fs.findEntry path).isSome then (.error .alreadyExists, fs)
  else
    match fs.findFree with
    | none => (.error .noSpace, fs)
    | some idx => (.ok (), fs.set idx { FileEntry.empty.setName path with used := true, isDir := true })

def write (fs : Ramfs) (path : List Char) (content : List UInt8) : Except FsError Unit × Ramfs :=
  let path := normalizePath path
  if path.length > maxNameLen then (.error .nameTooLong, fs)
  else if content.length > maxFileSize then (.error .fileTooLarge, fs)
  else
    match fs.findEntry path with
    | some idx =>
      if (fs.get idx).isDir then (.error .isDirectory, fs)
      else (.ok (), fs.set idx ((fs.get idx).setData content))
    | none =>
      match fs.findFree with
      | none => (.error .noSpace, fs)
      | some idx =>
        (.ok (), fs.set idx { (FileEntry.empty.setName path).setData content with used := true, isDir := false })

def read (fs : Ramfs) (path : List Char) : Except FsError (List UInt8) :=
  match fs.findEntry (normalizePath path) with
  | none => .error .notFound
  | some idx =>
    if (fs.get idx).isDir then .error .isDirectory else .ok ((fs.get idx).data.take (fs.get idx).len)

/-- The check of `remove` for entries below a directory. -/
def isBelow (path name : List UInt8) : Bool :=
  name.length > path.length + 1 && name.take path.length == path && name[path.length]? == some slash

def remove (fs : Ramfs) (path : List Char) : Except FsError Unit × Ramfs :=
  let path := normalizePath path
  if path = root then (.error .notEmpty, fs)
  else
    match fs.findEntry path with
    | none => (.error .notFound, fs)
    | some idx =>
      if (fs.get idx).isDir &&
          (List.range maxFiles).any fun i => (fs.get i).used && i != idx && isBelow path (fs.get i).nameStr then
        (.error .notEmpty, fs)
      else (.ok (), fs.set idx { fs.get idx with used := false })

/-- The check of `list` for direct children. -/
def isChild (dirPath name : List UInt8) : Bool :=
  if dirPath = root then name.head? == some slash && !(name.drop 1).contains slash
  else
    dirPath.isPrefixOf name && name[dirPath.length]? == some slash && !(name.drop (dirPath.length + 1)).contains slash

/-- What follows the last slash, or all if there is none. -/
def basename (name : List UInt8) : List UInt8 := (name.reverse.takeWhile (· != slash)).reverse

/-- `list`, with the arguments of its callbacks in their order. -/
def list (fs : Ramfs) (dirPath : List Char) : Except FsError (List (List UInt8 × Bool × Nat)) :=
  let dirPath := normalizePath dirPath
  match fs.findEntry dirPath with
  | none => .error .notFound
  | some idx =>
    if !(fs.get idx).isDir then .error .notDirectory
    else
      .ok <| fs.table.filterMap fun e =>
        if e.used && e.nameStr != dirPath && isChild dirPath e.nameStr then
          some (basename e.nameStr, e.isDir, e.len)
        else none

/-- The operations, with the paths they are given. -/
inductive Op where
  | mkdir (path : List Char)
  | write (path : List Char) (content : List UInt8)
  | read (path : List Char)
  | remove (path : List Char)
  | list (path : List Char)

/-- The path of an operation. -/
def Op.path : Op → List Char
  | .mkdir path | .write path _ | .read path | .remove path | .list path => path

/-- What an operation returns. -/
inductive Output where
  | done
  | bytes (content : List UInt8)
  | listing (entries : List (List UInt8 × Bool × Nat))
  | error (e : FsError)

/-- An operation without a result of its own. -/
def Output.ofUnit : Except FsError Unit → Output
  | .ok () => .done
  | .error e => .error e

/-- One operation. -/
def step (fs : Ramfs) : Op → Output × Ramfs
  | .mkdir path => (.ofUnit (fs.mkdir path).1, (fs.mkdir path).2)
  | .write path content => (.ofUnit (fs.write path content).1, (fs.write path content).2)
  | .read path =>
    match fs.read path with
    | .ok content => (.bytes content, fs)
    | .error e => (.error e, fs)
  | .remove path => (.ofUnit (fs.remove path).1, (fs.remove path).2)
  | .list path =>
    match fs.list path with
    | .ok entries => (.listing entries, fs)
    | .error e => (.error e, fs)

end Ramfs

end BeetKernel.Fs
