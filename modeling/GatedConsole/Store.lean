import GatedConsole.Files.Tree
import GatedConsole.Text.Newline

/-!
Texts stored under keys, in memory or as files of a directory.

A file of the store is named after its key. Writing one keeps the bytes that it replaces in a backup
beside it. A file that is missing, is a directory or is not UTF-8 counts as absent.
-/

set_option autoImplicit false
set_option relaxedAutoImplicit false

namespace GatedConsole

inductive Medium where
  | memory (texts : Keyed Text Text)
  | files (directory : Path) (tree : Files.Tree)

/-- A store; while `writesFail` holds, the system refuses every write. -/
structure Store where
  medium : Medium
  writesFail : Bool := false

namespace Store

open Files

instance : Inhabited Store := ⟨⟨.memory [], false⟩⟩

def empty : Store := ⟨.memory [], false⟩

/-- A store of files; its directory is made if it is missing. -/
def openFiles (tree : Tree) (directory : Path) : Tree × Except Fault Store :=
  match tree.makeDirectories directory with
  | (made, .ok ()) => (made, .ok ⟨.files directory made, false⟩)
  | (made, .error fault) => (made, .error fault)

def fileOf (directory : Path) (key : Text) : Path := directory.join (.ofText (key ++ ".json"))

def backupOf (directory : Path) (key : Text) : Path :=
  (fileOf directory key).withSuffix ".json.bak"

/-- The text of a file, if it has one. -/
def textOf? (tree : Tree) (p : Path) : Option Text :=
  match tree.readBytes p with
  | .error _ => none
  | .ok content =>
    match Utf8.decode content with
    | .error _ => none
    | .ok text => some text.unifyNewlines

def get (store : Store) (key : Text) : Except Fault (Option Text) :=
  match store.medium with
  | .memory texts => .ok (Keyed.get? texts key)
  | .files directory tree =>
    match tree.exists? (fileOf directory key) with
    | .error fault => .error fault
    | .ok false => .ok none
    | .ok true => .ok (textOf? tree (fileOf directory key))

/-- Copies the file of a key to its backup, if there is a file. -/
def keepBackup (tree : Tree) (directory : Path) (key : Text) : Except Fault Tree :=
  match tree.exists? (fileOf directory key) with
  | .error fault => .error fault
  | .ok false => .ok tree
  | .ok true =>
    match tree.readBytes (fileOf directory key) with
    | .error fault => .error fault
    | .ok content => tree.writeBytes (backupOf directory key) content

def setFile (tree : Tree) (directory : Path) (key text : Text) : Tree × Except Fault Unit :=
  match keepBackup tree directory key with
  | .error fault => (tree, .error fault)
  | .ok kept => kept.writeText (fileOf directory key) text

/-- The store after the write, whether or not it went well. -/
def set (store : Store) (key text : Text) : Store × Except Fault Unit :=
  if store.writesFail then (store, .error .refused)
  else
    match store.medium with
    | .memory texts => ({ store with medium := .memory (Keyed.put key text texts) }, .ok ())
    | .files directory tree =>
      let (tree, outcome) := setFile tree directory key text
      ({ store with medium := .files directory tree }, outcome)

/-- Removes a key; the answer says whether it was there. -/
def delete (store : Store) (key : Text) : Store × Except Fault Bool :=
  match store.medium with
  | .memory texts =>
    ({ store with medium := .memory (Keyed.erase key texts) },
      .ok (Keyed.get? texts key).isSome)
  | .files directory tree =>
    match tree.exists? (fileOf directory key) with
    | .error fault => (store, .error fault)
    | .ok false => (store, .ok false)
    | .ok true =>
      match tree.delete (fileOf directory key) with
      | .error fault => (store, .error fault)
      | .ok tree => ({ store with medium := .files directory tree }, .ok true)

/-- Forgets every key of a store in memory; files are left alone. -/
def clear (store : Store) : Store :=
  match store.medium with
  | .memory _ => { store with medium := .memory [] }
  | .files _ _ => store

/-- The files that the store works on, if it works on files. -/
def tree? (store : Store) : Option Tree :=
  match store.medium with
  | .memory _ => none
  | .files _ tree => some tree

def texts (store : Store) : Keyed Text Text :=
  match store.medium with
  | .memory texts => texts
  | .files _ _ => []

end Store

end GatedConsole
