import GatedConsole.Access

/-!
The commands that lines are resolved against, in order. No name or alias is taken twice; the builder
reports the first one that is.
-/

set_option autoImplicit false
set_option relaxedAutoImplicit false

namespace GatedConsole

/-- What is known of a command besides what it does. -/
structure Descriptor where
  name : Text
  access : Access := .guest
  description : Text := []
  usage : Text := []
  aliases : List Text := []
deriving DecidableEq

namespace Descriptor

instance : Inhabited Descriptor := ⟨{ name := [] }⟩

def identifiers (d : Descriptor) : List Text := d.name :: d.aliases

def isNamed (d : Descriptor) (token : Text) : Bool := d.identifiers.contains token

def isVisibleTo (d : Descriptor) (level : Access) : Bool := level.permits d.access

/-- A command without a usage line shows its name there. -/
def withUsage (d : Descriptor) : Descriptor :=
  if d.usage = [] then { d with usage := d.name } else d

theorem isNamed_iff (d : Descriptor) (token : Text) : d.isNamed token ↔ token ∈ d.identifiers := by
  simp [isNamed]

end Descriptor

def identifiersOf (commands : List Descriptor) : List Text := commands.flatMap (·.identifiers)

structure Registry where
  commands : List Descriptor
  nodup_identifiers : (identifiersOf commands).Nodup

/-- An identifier that comes again, and the command that has it already. -/
structure Collision where
  identifier : Text
  holder : Text
deriving DecidableEq

def Collision.message (c : Collision) : Text :=
  "Command name collision: '" ++ c.identifier ++ "' is already registered to '" ++ c.holder ++ "'"

namespace Registry

/-- Every identifier with the name of its command, in order. -/
def holdings (commands : List Descriptor) : List (Text × Text) :=
  commands.flatMap fun d => d.identifiers.map (·, d.name)

/-- The first identifier that is among the `taken` ones or comes again, with its earlier holder. -/
def collision? (taken : List (Text × Text)) : List (Text × Text) → Option Collision
  | [] => none
  | (identifier, name) :: rest =>
    match taken.find? (·.1 = identifier) with
    | some (_, holder) => some ⟨identifier, holder⟩
    | none => collision? (taken ++ [(identifier, name)]) rest

theorem identifiers_holdings (commands : List Descriptor) :
    (holdings commands).map (·.1) = identifiersOf commands := by
  simp [holdings, identifiersOf, List.map_flatMap, Function.comp_def]

theorem collision?_eq_none_iff (taken rest : List (Text × Text)) :
    collision? taken rest = none ↔
      (rest.map (·.1)).Nodup ∧ ∀ holding ∈ rest, holding.1 ∉ taken.map (·.1) := by
  induction rest generalizing taken with
  | nil => simp [collision?]
  | cons holding rest ih =>
    obtain ⟨identifier, name⟩ := holding
    unfold collision?
    split
    · rename_i earlier holder found
      have mem := List.mem_of_find?_eq_some found
      have same := List.find?_some found
      simp only [decide_eq_true_eq] at same
      subst same
      simp only [reduceCtorEq, false_iff]
      intro h
      exact h.2 _ List.mem_cons_self (List.mem_map.2 ⟨_, mem, rfl⟩)
    · rename_i absent
      have fresh : identifier ∉ taken.map (·.1) := by
        intro h
        obtain ⟨earlier, mem, same⟩ := List.mem_map.1 h
        exact (List.find?_eq_none.1 absent) earlier mem (by simp [same])
      rw [ih]
      simp only [List.map_cons, List.nodup_cons, List.map_append, List.map_nil, List.mem_append,
        List.mem_cons, not_or]
      constructor
      · rintro ⟨nodup, apart⟩
        refine ⟨⟨?_, nodup⟩, ?_⟩
        · intro h
          obtain ⟨other, mem, same⟩ := List.mem_map.1 h
          exact (apart other mem).2.1 same
        · rintro other (rfl | mem)
          · exact fresh
          · exact (apart other mem).1
      · rintro ⟨⟨first, nodup⟩, apart⟩
        refine ⟨nodup, ?_⟩
        intro other mem
        refine ⟨apart other (.inr mem), ?_, by simp⟩
        intro same
        exact first (List.mem_map.2 ⟨other, mem, same⟩)

def build (commands : List Descriptor) : Except Collision Registry :=
  match h : collision? [] (holdings commands) with
  | some collision => .error collision
  | none =>
    .ok ⟨commands, by
      have := (collision?_eq_none_iff [] (holdings commands)).1 h
      rw [← identifiers_holdings]
      exact this.1⟩

/-- The command of a name or alias, matched letter by letter. -/
def resolve? (registry : Registry) (token : Text) : Option Descriptor :=
  registry.commands.find? (·.isNamed token)

def contains (registry : Registry) (token : Text) : Bool := (registry.resolve? token).isSome

/-- The commands that a level may run, in order. -/
def visible (registry : Registry) (level : Access) : List Descriptor :=
  registry.commands.filter (·.isVisibleTo level)

/-- The names and aliases that a level may run, in order. -/
def visibleIdentifiers (registry : Registry) (level : Access) : List Text :=
  identifiersOf (registry.visible level)

end Registry

end GatedConsole
