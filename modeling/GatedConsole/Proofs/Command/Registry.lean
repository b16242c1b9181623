import GatedConsole.Command.Registry

/-!
Looking up commands. Main statement: a word is resolved to the one command that has it as a name or
alias, whichever commands a level may see.
-/

set_option autoImplicit false
set_option relaxedAutoImplicit false

namespace GatedConsole.Registry

theorem eq_of_isNamed {commands : List Descriptor} (distinct : (identifiersOf commands).Nodup)
    {d d' : Descriptor} (mem : d ∈ commands) (mem' : d' ∈ commands) {word : Text}
    (named : d.isNamed word) (named' : d'.isNamed word) : d = d' := by
  induction commands with
  | nil => cases mem
  | cons first rest ih =>
    rw [identifiersOf, List.flatMap_cons, List.nodup_append] at distinct
    obtain ⟨-, others, apart⟩ := distinct
    have elsewhere {e : Descriptor} (mem : e ∈ rest) (named : e.isNamed word) :
        word ∈ rest.flatMap (·.identifiers) :=
      List.mem_flatMap.2 ⟨e, mem, (e.isNamed_iff word).1 named⟩
    rcases List.mem_cons.1 mem with rfl | later
    · rcases List.mem_cons.1 mem' with rfl | later'
      · rfl
      · exact absurd rfl (apart _ ((d.isNamed_iff word).1 named) _ (elsewhere later' named'))
    · rcases List.mem_cons.1 mem' with rfl | later'
      · exact absurd rfl (apart _ ((d'.isNamed_iff word).1 named') _ (elsewhere later named))
      · exact ih others later later'

/-- A word is resolved to the one command that has it as a name. -/
theorem resolve?_eq_some_iff (registry : Registry) (word : Text) (d : Descriptor) :
    registry.resolve? word = some d ↔ d ∈ registry.commands ∧ d.isNamed word := by
  have sound {d : Descriptor} (h : registry.resolve? word = some d) :
      d ∈ registry.commands ∧ d.isNamed word := by
    have found : registry.commands.find? (·.isNamed word) = some d := h
    have named := List.find?_some found
    exact ⟨List.mem_of_find?_eq_some found, named⟩
  constructor
  · exact sound
  · rintro ⟨mem, named⟩
    cases found : registry.resolve? word with
    | none => exact absurd named (List.find?_eq_none.1 found d mem)
    | some d' =>
      obtain ⟨mem', named'⟩ := sound found
      rw [eq_of_isNamed registry.nodup_identifiers mem mem' named named']

theorem mem_visible_iff (registry : Registry) (level : Access) (d : Descriptor) :
    d ∈ registry.visible level ↔ d ∈ registry.commands ∧ d.isVisibleTo level :=
  List.mem_filter

/-- The names that a level may type are those of the commands that it may run. -/
theorem mem_visibleIdentifiers_iff (registry : Registry) (level : Access) (word : Text) :
    word ∈ registry.visibleIdentifiers level ↔
      ∃ d ∈ registry.commands, d.isNamed word ∧ d.isVisibleTo level := by
  rw [visibleIdentifiers, identifiersOf, List.mem_flatMap]
  constructor
  · rintro ⟨d, mem, named⟩
    obtain ⟨known, visible⟩ := (mem_visible_iff registry level d).1 mem
    exact ⟨d, known, (d.isNamed_iff word).2 named, visible⟩
  · rintro ⟨d, known, named, visible⟩
    exact ⟨d, (mem_visible_iff registry level d).2 ⟨known, visible⟩, (d.isNamed_iff word).1 named⟩

end GatedConsole.Registry
