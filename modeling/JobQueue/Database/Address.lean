/-
Addresses of databases.

An address is a path with parameters after a question mark, with percent signs for bytes that
could not stand in it. The path may be written as the address of a file. A database that is not in
memory opens if its file is there, or if the address lets it be made and its folder is there.
-/

import JobQueue.Error
import JobQueue.Text.Percent
import JobQueue.Settings.Basic
import JobQueue.Database.Affinity

namespace JobQueue

namespace Database

/-- Where a database is kept, and how it may be opened. -/
structure Address where
  path : String
  isMemory : Bool
  /-- Whether a file that is not there is made. -/
  mayCreate : Bool
deriving DecidableEq, Repr

/-- What there is on a disk. -/
structure Disk where
  hasFile : String → Bool
  hasFolder : String → Bool

namespace Address

/-- The path that stands for a database in memory. -/
def memoryPath : String := ":memory:"

/-- A text without a word it begins with, however often. -/
def dropEach (word : List Char) (cs : List Char) : List Char :=
  if _h : word ≠ [] ∧ word.isPrefixOf cs then dropEach word (cs.drop word.length) else cs
termination_by cs.length
decreasing_by
  obtain ⟨nonempty, found⟩ := _h
  have shorter := (List.isPrefixOf_iff_prefix.mp found).length_le
  have positive := List.length_pos_iff.mpr nonempty
  rw [List.length_drop]
  omega

/-- The key and the value of a parameter. -/
def keyAndValue (cs : List Char) : Option (String × String) := do
  let key := cs.takeWhile fun c => c != '='
  some (← Text.Percent.decodeForm? key, ← Text.Percent.decodeForm? (cs.drop (key.length + 1)))

/-- The ways that a disk may be written to. -/
def diskWays : List String := ["unix", "unix-none", "unix-dotfile", "unix-excl", "memdb"]

/-- An address with one parameter more; `none` for one that it does not have. -/
def withParameter (a : Address) : String × String → Option Address
  | ("mode", "rwc") => some { a with mayCreate := true }
  | ("mode", "memory") => some { a with isMemory := true }
  | ("mode", "ro") | ("mode", "rw") => some a
  | ("cache", "private") | ("cache", "shared") => some a
  | ("immutable", "true") | ("immutable", "false") => some a
  | ("vfs", name) => if diskWays.contains name then some a else none
  | _ => none

/-- The path in a name that begins with `file:`; after two slashes a host may stand, which can
only be this one. Any other name is a path as it is. -/
def pathIn? (name : String) : Option String :=
  match name.toList with
  | 'f' :: 'i' :: 'l' :: 'e' :: ':' :: '/' :: '/' :: cs =>
      let host := String.ofList (cs.takeWhile fun c => c != '/')
      if host.isEmpty || host = "localhost" then
        localPath? (cs.dropWhile fun c => c != '/')
      else none
  | 'f' :: 'i' :: 'l' :: 'e' :: ':' :: cs => localPath? cs
  | _ => some name
where
  /-- The path up to a mark. -/
  localPath? (cs : List Char) : Option String :=
    Text.Percent.decode? (cs.takeWhile fun c => c != '?' && c != '#')

/-- The address that a text gives. -/
def ofUrl? (url : String) : Option Address := do
  let cs := dropEach "sqlite:".toList (dropEach "sqlite://".toList url.toList)
  let name := cs.takeWhile fun c => c != '?'
  let path ← pathIn? (← Text.Percent.decode? name)
  let parameters ← ((Text.splitAtChar '&' (cs.drop (name.length + 1))).filter
    fun cs => !cs.isEmpty).mapM keyAndValue
  if path.contains '\x00' then none
  else parameters.foldlM withParameter ⟨path, path = memoryPath, false⟩

/-- The folder of a path, empty for the present one. -/
def folder (a : Address) : String :=
  String.ofList (a.path.toList.reverse.dropWhile fun c => c != '/').reverse

/-- Whether a database opens at the address. An empty path opens one that is thrown away. -/
def opens (disk : Disk) (a : Address) : Bool :=
  a.isMemory || a.path.isEmpty || disk.hasFile a.path || (a.mayCreate && disk.hasFolder a.folder)

end Address

end Database

namespace DatabaseSettings

/-- Whether connections are to be had at all: time to wait for one, and one at least. A database
in memory always has one. -/
def allowsConnection (d : DatabaseSettings) : Bool :=
  d.connectSeconds > 0 &&
    (d.maxConnections > 0 || (Database.Affinity.mentions ":memory:".toList d.url.toList))

/-- Opens a database as the settings say. The error stands without the cause that the database gives
for it. -/
def connect (disk : Database.Disk) (d : DatabaseSettings) :
    Except ServiceError Database.Address :=
  match (Database.Address.ofUrl? d.url).filter fun a => a.opens disk && d.allowsConnection with
  | some a => .ok a
  | none => .error (.database "Failed to connect")

/-- The file that the database is kept in, if there is one. -/
def file? (d : DatabaseSettings) : Option String :=
  if d.isMemory then none
  else ((Database.Address.ofUrl? d.url).filter fun a => !a.isMemory).map Database.Address.path

end DatabaseSettings

end JobQueue
