import GatedConsole.Macro.Format
import GatedConsole.Store

/-!
A macro book that is kept in a store. The whole book is written after every definition; when the
write fails the definition holds all the same until the book is loaded again.
-/

set_option autoImplicit false
set_option relaxedAutoImplicit false

namespace GatedConsole

structure Macros where
  book : MacroBook
  store : Store
  key : Text

namespace Macros

instance : Inhabited Macros := ⟨⟨.empty, .empty, []⟩⟩

def defaultKey : Text := "bastion_macros"

/-- The book that a stored text holds; a text that cannot be read holds an empty one. -/
def bookOf (stored : Option Text) : MacroBook :=
  match stored with
  | none => .empty
  | some t => (MacroBook.read? t).getD .empty

def ofStore (store : Store) (key : Text) : Except Files.Fault Macros :=
  (store.get key).map fun stored => ⟨bookOf stored, store, key⟩

/-- Replaces the book by the stored one. -/
def load (macros : Macros) : Except Files.Fault Macros := ofStore macros.store macros.key

/-- Writes the book; the answer says whether the system took it. -/
def save (macros : Macros) : Macros × Except Files.Fault Bool :=
  match macros.store.set macros.key macros.book.write with
  | (store, .ok ()) => ({ macros with store := store }, .ok true)
  | (store, .error fault) =>
    ({ macros with store := store }, if fault.isSystem then .ok false else .error fault)

/-- Defines a macro and writes the book. -/
def inscribe (macros : Macros) (name : Text) (commands : List Text) (h : commands ≠ []) :
    Macros × Except Files.Fault Bool :=
  { macros with book := macros.book.define name commands h }.save

inductive Fault where
  | noCommands
  | store (fault : Files.Fault)
deriving DecidableEq

def Fault.message : Fault → Text
  | .noCommands => "a macro needs at least one command"
  | .store fault => fault.message

/-- Defines a macro, if it has commands, and writes the book. -/
def define (macros : Macros) (name : Text) (commands : List Text) : Macros × Except Fault Bool :=
  if h : commands = [] then (macros, .error .noCommands)
  else
    let (macros, saved) := macros.inscribe name commands h
    (macros, saved.mapError .store)

end Macros

end GatedConsole
