import CoreSplice.Bytes.Delivery
import CoreSplice.Disk.Path
import CoreSplice.Disk.SystemError

/-!
# The files that a run works on

A disk holds regular files in a tree of directories, a working directory from which names start,
and two devices: one that accepts everything and holds nothing, and one that holds zeros without
end and accepts nothing.  A run changes the content of files and nothing else, so the tree itself
stays as it is.

* `Disk.resolve` — what a name leads to, or the error of the first step that cannot be made.
* `Node.seekError?` — why a file cannot be put to a position.
* `Disk.readAt` — what a read delivers.
* `Disk.put` — the disk with a file given other content.
* `Disk.write` — the disk after a write.
-/

namespace CoreSplice

/-- The files that behave otherwise than regular ones. -/
inductive Device where
  /-- Holds nothing, and accepts everything. -/
  | empty
  /-- Holds zeros without end, and has no room. -/
  | full
  deriving DecidableEq, Repr

/-- A place in the tree: the names of the directories from the root on, and of the file. -/
abbrev Place := List String

/-- What a name leads to. -/
inductive Node where
  | directory (place : Place)
  | file (place : Place)
  | device (device : Device)
  deriving DecidableEq, Repr

/-- Why a file cannot be put to a position, if that is so.  A regular file has no positions before
its start.  A device has none at all, and can be put anywhere. -/
def Node.seekError? (node : Node) (position : Int) : Option SystemError :=
  match node with
  | .device _ => none
  | _ => if position < 0 then some .invalidArgument else none

/-- Every file can be put to every position that is not before its start. -/
theorem Node.seekError?_natCast (node : Node) (position : Nat) :
    node.seekError? position = none := by
  cases node <;> simp [Node.seekError?, Int.not_lt.2 (Int.natCast_nonneg position)]

/-- The files that a run works on. -/
structure Disk where
  home : Place
  directories : List Place
  files : List (Place × Bytes)
  /-- Files that cannot be opened, and why. -/
  blocked : List (Place × SystemError) := []
  deriving DecidableEq, Repr

namespace Disk

/-! ## Names -/

/-- The device at a place, if there is one. -/
def device? : Place → Option Device
  | ["dev", "null"] => some .empty
  | ["dev", "full"] => some .full
  | _ => none

/-- Whether a directory stands at the place.  The directories that lead to a file or to another
directory need not be listed. -/
def isDirectory (disk : Disk) (place : Place) : Bool :=
  (disk.home :: ["dev"] :: disk.directories ++ disk.files.map fun file => file.1.dropLast).any
    place.isPrefixOf

/-- The largest number of bytes of a step. -/
def maxStep : Nat := 255

/-- The number of bytes from which on a name is too long. -/
def nameLimit : Nat := 4096

/-- One step from a directory.  The length of its name is looked at first, and a device goes before
what else may stand there. -/
def enter (disk : Disk) (place : Place) (step : String) : Except SystemError Node :=
  if step = "." then .ok (.directory place)
  else if step = ".." then .ok (.directory place.dropLast)
  else if maxStep < step.utf8ByteSize then .error .nameTooLong
  else
    let place := place ++ [step]
    match device? place with
    | some device => .ok (.device device)
    | none =>
      if disk.files.any fun file => file.1 == place then .ok (.file place)
      else if disk.isDirectory place then .ok (.directory place)
      else .error .notFound

/-- The steps of a name.  Only a directory can be left by a step. -/
def walk (disk : Disk) (node : Node) : List String → Except SystemError Node
  | [] => .ok node
  | step :: steps =>
    match node with
    | .directory place => do
      let next ← disk.enter place step
      walk disk next steps
    | _ => .error .notDirectory

/-- What a name leads to, or the error of the first step that cannot be made. -/
def resolve (disk : Disk) (name : String) : Except SystemError Node :=
  if name = "" then .error .notFound
  else if nameLimit ≤ name.utf8ByteSize then .error .nameTooLong
  else
    let start := if Path.isAbsolute name then [] else disk.home
    disk.walk (.directory start) (Path.steps name)

/-- What a name leads to, if that can be read and written. -/
def resolveFile (disk : Disk) (name : String) : Except SystemError Node :=
  match disk.resolve name with
  | .error e => .error e
  | .ok (.directory _) => .error .isDirectory
  | .ok (.device device) => .ok (.device device)
  | .ok (.file place) =>
    match disk.blocked.lookup place with
    | some e => .error e
    | none => .ok (.file place)

/-- Whether a name holds the character that ends names for the operating system, so that it can
name no file. -/
def isUnspeakable (name : String) : Bool :=
  name.toList.contains '\x00'

/-- Whether a name leads anywhere. -/
def reaches (disk : Disk) (name : String) : Bool :=
  !isUnspeakable name && (disk.resolve name).isOk

/-! ## Content -/

/-- The content of what a name led to.  Only regular files have one of their own. -/
def content (disk : Disk) : Node → Bytes
  | .file place => (disk.files.lookup place).getD []
  | _ => []

/-- What a read of `count` bytes at a position delivers. -/
def readAt (disk : Disk) (node : Node) (position count : Nat) : Delivery :=
  match node with
  | .device .full => .zeros count
  | node => .bytes ((disk.content node).slice position count)

/-- The disk with other content in a regular file. -/
def put (disk : Disk) (node : Node) (content : Bytes) : Disk :=
  match node with
  | .file place =>
    { disk with files := disk.files.map fun file =>
        if file.1 = place then (place, content) else file }
  | _ => disk

/-- The disk after data was written at a position.  Only a regular file keeps it. -/
def write (disk : Disk) (node : Node) (position : Nat) (data : Delivery) : Disk :=
  match node with
  | .file _ => disk.put node ((disk.content node).overlay position data.toBytes)
  | _ => disk

/-- A write is a change of content: the data is laid over it. -/
theorem write_eq_put (disk : Disk) (node : Node) (position : Nat) (data : Delivery) :
    disk.write node position data =
      disk.put node ((disk.content node).overlay position data.toBytes) := by
  cases node <;> rfl

/-- Other files are found as before when one of them is given new content. -/
theorem lookup_map_of_ne {files : List (Place × Bytes)} {p place : Place} (h : p ≠ place)
    (content : Bytes) :
    (files.map fun file => if file.1 = place then (place, content) else file).lookup p =
      files.lookup p := by
  induction files with
  | nil => rfl
  | cons file files ih =>
    obtain ⟨q, c⟩ := file
    have hp : (p == place) = false := by simpa using h
    by_cases hq : q = place
    · simp [List.lookup_cons, hq, hp, ih]
    · simp only [List.map_cons, hq, if_false, List.lookup_cons, ih]

/-- The file itself is found with its new content. -/
theorem lookup_map_self {files : List (Place × Bytes)} {place : Place}
    (h : (files.lookup place).isSome) (content : Bytes) :
    (files.map fun file => if file.1 = place then (place, content) else file).lookup place =
      some content := by
  induction files with
  | nil => simp at h
  | cons file files ih =>
    obtain ⟨q, c⟩ := file
    by_cases hq : q = place
    · simp [hq]
    · have hp : (place == q) = false := by simpa using Ne.symm hq
      simp only [List.lookup_cons, hp] at h
      simp only [List.map_cons, hq, if_false, List.lookup_cons, hp]
      exact ih h

/-- Other files keep their content. -/
theorem content_put_of_ne (disk : Disk) {node other : Node} (h : other ≠ node)
    (content : Bytes) : (disk.put node content).content other = disk.content other := by
  cases node with
  | directory | device => rfl
  | file place =>
    cases other with
    | directory | device => rfl
    | file p =>
      have hp : p ≠ place := fun heq => h (by rw [heq])
      simp only [Disk.content, put, lookup_map_of_ne hp]

/-- The file that was written holds what was written, if there was such a file. -/
theorem content_put_self (disk : Disk) {place : Place} (h : (disk.files.lookup place).isSome)
    (content : Bytes) : (disk.put (.file place) content).content (.file place) = content := by
  simp only [Disk.content, put, lookup_map_self h, Option.getD_some]

end Disk

end CoreSplice
