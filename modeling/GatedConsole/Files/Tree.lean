import GatedConsole.Files.Name
import GatedConsole.Files.Path
import GatedConsole.Keyed

/-!
A tree of files and directories below a working directory, all readable and writable.

An entry is known by the names that lead to it. The directories above the working directory are
there as well, and nothing is known of what else they hold. A path is followed name by name:
whatever it passes through has to be a directory. A write that fails has left the tree as it was,
with one exception: a text that cannot be encoded is refused only when its file has been opened,
which empties it.
-/

set_option autoImplicit false
set_option relaxedAutoImplicit false

namespace GatedConsole.Files

/-- The names that lead from the working directory to an entry; those that go up come first. -/
abbrev Place := List Name

/-- Whether a place is the working directory or one above it. -/
def isAbove (place : Place) : Bool := place.all fun name => name = Name.up

/-- The place that a name leads to from a directory. -/
def enter (place : Place) (name : Name) : Place :=
  if name = Name.up && !isAbove place then place.dropLast else place ++ [name]

inductive Entry where
  | file (content : Bytes)
  | directory
deriving DecidableEq

structure Tree where
  entries : Keyed Place Entry
deriving DecidableEq

/-- Why a file could not be used. -/
inductive Fault where
  | alreadyExists
  | notFound
  | notDirectory
  | isDirectory
  | nameTooLong
  | refused
  | nulInPath
  | unencodable (fault : Utf8.EncodeFault)
deriving DecidableEq

/-- Whether it is the system that refuses, rather than the text that cannot be used. -/
def Fault.isSystem : Fault → Bool
  | .nulInPath => false
  | .unencodable _ => false
  | _ => true

def Fault.message : Fault → Text
  | .alreadyExists => "File exists"
  | .notFound => "No such file or directory"
  | .notDirectory => "Not a directory"
  | .isDirectory => "Is a directory"
  | .nameTooLong => "File name too long"
  | .refused => "Input/output error"
  | .nulInPath => "embedded null byte"
  | .unencodable fault => fault.message

/-- The longest path that the system takes, in bytes. -/
def pathBound : Nat := 4095

/-- The fault of a path that is refused as a whole, whatever is there. -/
def pathFault? (p : Path) : Option Fault :=
  match Utf8.faultFrom Name.isMark 0 p.text with
  | some fault => some (.unencodable fault)
  | none =>
    if p.text.any (·.val = 0) then some .nulInPath
    else if (Name.ofText p.text).length > pathBound then some .nameTooLong
    else none

namespace Tree

def empty : Tree := ⟨[]⟩

instance : Inhabited Tree := ⟨empty⟩

/-- What is at a place; the working directory and those above it are always there. -/
def at? (tree : Tree) (place : Place) : Option Entry :=
  if isAbove place then some .directory else Keyed.get? tree.entries place

def put (tree : Tree) (place : Place) (entry : Entry) : Tree :=
  ⟨Keyed.put place entry tree.entries⟩

def remove (tree : Tree) (place : Place) : Tree := ⟨Keyed.erase place tree.entries⟩

/-- One step from a directory to a name, which need not be there. -/
def step (tree : Tree) (place : Place) (name : Name) : Except Fault Place :=
  match tree.at? place with
  | none => .error .notFound
  | some (.file _) => .error .notDirectory
  | some .directory =>
    if name.length > Name.bound then .error .nameTooLong else .ok (enter place name)

/-- The place that a path leads to; all but its last name have to be there. -/
def follow (tree : Tree) (p : Path) : Except Fault Place :=
  match pathFault? p with
  | some fault => .error fault
  | none =>
    if p.start ≠ [] then .error .notFound else (p.parts.map Name.ofText).foldlM tree.step []

def entry (tree : Tree) (p : Path) : Except Fault Entry :=
  match tree.follow p with
  | .error fault => .error fault
  | .ok place =>
    match tree.at? place with
    | some entry => .ok entry
    | none => .error .notFound

/-- Whether there is something at the path. A name or path that is too long is a fault even here. -/
def exists? (tree : Tree) (p : Path) : Except Fault Bool :=
  match tree.entry p with
  | .ok _ => .ok true
  | .error .nameTooLong => .error .nameTooLong
  | .error _ => .ok false

def readBytes (tree : Tree) (p : Path) : Except Fault Bytes :=
  match tree.entry p with
  | .error fault => .error fault
  | .ok .directory => .error .isDirectory
  | .ok (.file content) => .ok content

/-- The place of the file that a write at the path would make or replace. -/
def placeToWrite (tree : Tree) (p : Path) : Except Fault Place :=
  match tree.follow p with
  | .error fault => .error fault
  | .ok place =>
    match tree.at? place with
    | some .directory => .error .isDirectory
    | _ => .ok place

def writeBytes (tree : Tree) (p : Path) (content : Bytes) : Except Fault Tree :=
  (tree.placeToWrite p).map fun place => tree.put place (.file content)

/-- The tree after the write, whether or not it went well. -/
def writeText (tree : Tree) (p : Path) (text : Text) : Tree × Except Fault Unit :=
  match tree.placeToWrite p with
  | .error fault => (tree, .error fault)
  | .ok place =>
    match Utf8.encode text with
    | .error fault => (tree.put place (.file []), .error (.unencodable fault))
    | .ok content => (tree.put place (.file content), .ok ())

def delete (tree : Tree) (p : Path) : Except Fault Tree :=
  match tree.follow p with
  | .error fault => .error fault
  | .ok place =>
    match tree.at? place with
    | none => .error .notFound
    | some .directory => .error .isDirectory
    | some (.file _) => .ok (tree.remove place)

/-- Makes one directory, whose parent has to be there. -/
def makeDirectory (tree : Tree) (p : Path) : Except Fault Tree :=
  match tree.follow p with
  | .error fault => .error fault
  | .ok place =>
    match tree.at? place with
    | some _ => .error .alreadyExists
    | none => .ok (tree.put place .directory)

def isDirectory (tree : Tree) (p : Path) : Bool :=
  match tree.entry p with
  | .ok .directory => true
  | _ => false

/-- A system fault is forgiven when the directory is there all the same. -/
def settleDirectory (tree : Tree) (p : Path) (fault : Fault) : Tree × Except Fault Unit :=
  if fault.isSystem && tree.isDirectory p then (tree, .ok ()) else (tree, .error fault)

/-- Makes a directory and those above it that are missing; one that is there already is fine. -/
def makeDirectories (tree : Tree) (p : Path) : Tree × Except Fault Unit :=
  match tree.makeDirectory p with
  | .ok made => (made, .ok ())
  | .error .notFound =>
    if _top : p.parts = [] then (tree, .error .notFound)
    else
      match makeDirectories tree p.parent with
      | (above, .error fault) => (above, .error fault)
      | (above, .ok ()) =>
        match above.makeDirectory p with
        | .ok made => (made, .ok ())
        | .error fault => above.settleDirectory p fault
  | .error fault => tree.settleDirectory p fault
termination_by p.parts.length
decreasing_by
  have := List.length_pos_iff.2 _top
  simp only [Path.parent, List.length_dropLast]
  omega

/-- Whether an entry is a file, or a directory that holds nothing. -/
def isLeaf (tree : Tree) (place : Place) (entry : Entry) : Bool :=
  match entry with
  | .file _ => true
  | .directory => !tree.entries.any fun (other, _) => place ≠ other && place.isPrefixOf other

/-- Every file, and every directory that holds nothing, below the working directory. -/
def listing (tree : Tree) : List (Place × Entry) :=
  tree.entries.filter fun (place, entry) => place.head? ≠ some Name.up && tree.isLeaf place entry

end Tree

end GatedConsole.Files
