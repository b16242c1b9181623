import GatedConsole.Command.Registry

/-!
Commands collected one after the other, to be built into a registry. Main statement: what is built
are the commands in the order in which they were entered.
-/

set_option autoImplicit false
set_option relaxedAutoImplicit false

namespace GatedConsole

structure Catalog where
  commands : List Descriptor := []

namespace Catalog

/-- How a command is entered: by what is said of it, or as it is. -/
inductive Entry where
  | command (d : Descriptor)
  | descriptor (d : Descriptor)

def add (catalog : Catalog) (d : Descriptor) : Catalog := ⟨catalog.commands ++ [d]⟩

/-- A command that is entered by what is said of it has a usage line. -/
def enter (catalog : Catalog) : Entry → Catalog
  | .command d => catalog.add d.withUsage
  | .descriptor d => catalog.add d

def ofEntries (entries : List Entry) : Catalog := entries.foldl enter {}

def build (catalog : Catalog) : Except Collision Registry := Registry.build catalog.commands

/-- What an entry puts into the catalog. -/
def Entry.entered : Entry → Descriptor
  | .command d => d.withUsage
  | .descriptor d => d

theorem commands_enter (catalog : Catalog) (entry : Entry) :
    (catalog.enter entry).commands = catalog.commands ++ [entry.entered] := by
  cases entry with
  | command d => rfl
  | descriptor d => rfl

theorem commands_ofEntries (entries : List Entry) :
    (ofEntries entries).commands = entries.map Entry.entered := by
  have from_any (catalog : Catalog) :
      (entries.foldl enter catalog).commands = catalog.commands ++ entries.map Entry.entered := by
    induction entries generalizing catalog with
    | nil => simp
    | cons entry entries ih => simp [ih, commands_enter]
  exact from_any {}

end Catalog

end GatedConsole
