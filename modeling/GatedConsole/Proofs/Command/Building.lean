import GatedConsole.Command.Catalog
import GatedConsole.Proofs.Command.Registry
import GatedConsole.Proofs.Keyed

/-!
Building a registry. Main statement: it is built exactly if no identifier comes twice, else the
first one that does is told with its earlier holder; and what is built resolves each word to the one
command that has it as a name, as an index does that is filled with one identifier after the other,
and lists what is visible in the order of all identifiers.
-/

set_option autoImplicit false
set_option relaxedAutoImplicit false

namespace GatedConsole

namespace Registry

variable {commands : List Descriptor} {registry : Registry} {collision : Collision}

theorem build_eq_error_iff :
    build commands = .error collision ↔ collision? [] (holdings commands) = some collision := by
  unfold build
  split
  · rename_i found first
    rw [first, Except.error.injEq, Option.some.injEq]
  · rename_i none
    constructor
    · intro h
      cases h
    · intro first
      rw [none] at first
      cases first

theorem build_eq_ok_iff : build commands = .ok registry ↔ registry.commands = commands := by
  unfold build
  split
  · rename_i found first
    constructor
    · intro h
      cases h
    · rintro rfl
      have distinct := registry.nodup_identifiers
      rw [← identifiers_holdings] at distinct
      have none := (collision?_eq_none_iff [] (holdings registry.commands)).2 ⟨distinct, by simp⟩
      rw [none] at first
      cases first
  · constructor
    · intro h
      cases h
      rfl
    · rintro rfl
      rfl

theorem exists_build_eq_ok_iff :
    (∃ registry, build commands = .ok registry) ↔ (identifiersOf commands).Nodup := by
  constructor
  · rintro ⟨registry, built⟩
    rw [← build_eq_ok_iff.1 built]
    exact registry.nodup_identifiers
  · intro distinct
    exact ⟨⟨commands, distinct⟩, build_eq_ok_iff.2 rfl⟩

/-! ## The first repetition -/

/-- The identifier is the first of all that repeats an earlier one, which is one of the holder. -/
structure FirstRepeated (commands : List Descriptor) (identifier : Text) (holder : Descriptor) :
    Prop where
  repeats : ∃ front back, identifiersOf commands = front ++ identifier :: back ∧ front.Nodup ∧
    identifier ∈ front
  held : ∃ before after, commands = before ++ holder :: after ∧ identifier ∈ holder.identifiers ∧
    identifier ∉ identifiersOf before

/-- Of what is gone through, the part in front of the collision neither repeats itself nor what was
taken before, and the holder has the identifier in that part or before it. -/
theorem exists_front_of_collision? {taken rest : List (Text × Text)}
    (h : collision? taken rest = some collision) :
    ∃ front name back, rest = front ++ (collision.identifier, name) :: back ∧
      (front.map (·.1)).Nodup ∧ (∀ holding ∈ front, holding.1 ∉ taken.map (·.1)) ∧
      (taken ++ front).find? (·.1 = collision.identifier) =
        some (collision.identifier, collision.holder) := by
  induction rest generalizing taken with
  | nil => cases h
  | cons holding rest ih =>
    obtain ⟨identifier, name⟩ := holding
    unfold collision? at h
    split at h
    · rename_i earlier holder found
      obtain rfl := Option.some.inj h
      have same : earlier = identifier := by simpa using List.find?_some found
      subst same
      refine ⟨[], name, rest, rfl, List.nodup_nil, by simp, ?_⟩
      rw [List.append_nil]
      exact found
    · rename_i absent
      obtain ⟨front, later, back, parts, distinct, apart, held⟩ := ih h
      have fresh : identifier ∉ taken.map (·.1) := by
        intro mem
        obtain ⟨other, among, same⟩ := List.mem_map.1 mem
        exact List.find?_eq_none.1 absent other among (by simp [same])
      have not_again : identifier ∉ front.map (·.1) := by
        intro mem
        obtain ⟨other, among, same⟩ := List.mem_map.1 mem
        apply apart other among
        rw [same]
        simp
      refine ⟨(identifier, name) :: front, later, back, by rw [parts]; rfl, ?_, ?_, ?_⟩
      · exact List.nodup_cons.2 ⟨not_again, distinct⟩
      · intro other among
        rcases List.mem_cons.1 among with rfl | among
        · exact fresh
        · intro mem
          apply apart other among
          rw [List.map_append]
          exact List.mem_append_left _ mem
      · rw [← held, List.append_assoc]
        rfl

/-- Identifiers with something of their commands are found as the commands are. -/
theorem find?_flatMap_identifiers {α : Type} (f : Descriptor → α) (commands : List Descriptor)
    (identifier : Text) :
    (commands.flatMap fun d => d.identifiers.map (·, f d)).find? (·.1 = identifier) =
      (commands.find? (·.isNamed identifier)).map fun d => (identifier, f d) := by
  induction commands with
  | nil => rfl
  | cons d commands ih =>
    rw [List.flatMap_cons, List.find?_append, ih, List.find?_map, List.find?_cons]
    by_cases named : d.isNamed identifier = true
    · have mem := (d.isNamed_iff identifier).1 named
      have first : d.identifiers.find? ((fun entry => decide (entry.1 = identifier)) ∘ (·, f d)) =
          some identifier := by
        rw [List.find?_eq_some_iff_append]
        obtain ⟨front, back, parts, absent⟩ := List.eq_append_cons_of_mem mem
        refine ⟨by simp, front, back, parts, ?_⟩
        intro other among
        have apart : other ≠ identifier := ne_of_mem_of_not_mem among absent
        simp [apart]
      rw [first, named]
      rfl
    · have absent : identifier ∉ d.identifiers := fun mem =>
        named ((d.isNamed_iff identifier).2 mem)
      have none : d.identifiers.find? ((fun entry => decide (entry.1 = identifier)) ∘ (·, f d)) =
          none := by
        rw [List.find?_eq_none]
        intro other among
        have apart : other ≠ identifier := ne_of_mem_of_not_mem among absent
        simp [apart]
      rw [none, Bool.eq_false_iff.2 named]
      rfl

theorem firstRepeated_of_collision? (h : collision? [] (holdings commands) = some collision) :
    ∃ holder, FirstRepeated commands collision.identifier holder ∧
      collision.holder = holder.name := by
  obtain ⟨front, name, back, parts, distinct, -, found⟩ := exists_front_of_collision? h
  rw [List.nil_append] at found
  have everywhere : (holdings commands).find? (·.1 = collision.identifier) =
      some (collision.identifier, collision.holder) := by
    rw [parts, List.find?_append, found]
    rfl
  rw [holdings, find?_flatMap_identifiers] at everywhere
  obtain ⟨holder, first, same⟩ := Option.map_eq_some_iff.1 everywhere
  obtain ⟨named, before, after, its_place, earlier⟩ := List.find?_eq_some_iff_append.1 first
  refine ⟨holder, ⟨⟨front.map (·.1), back.map (·.1), ?_, distinct, ?_⟩, before, after, its_place,
    (holder.isNamed_iff _).1 named, ?_⟩, (congrArg Prod.snd same).symm⟩
  · rw [← identifiers_holdings, parts, List.map_append, List.map_cons]
  · exact List.mem_map_of_mem (List.mem_of_find?_eq_some found)
  · intro mem
    obtain ⟨other, among, its⟩ := List.mem_flatMap.1 mem
    have unnamed := earlier other among
    rw [(other.isNamed_iff _).2 its] at unnamed
    cases unnamed

/-! ## The index -/

/-- Every identifier with its command, in order. -/
def indexed (commands : List Descriptor) : List (Text × Descriptor) :=
  commands.flatMap fun d => d.identifiers.map (·, d)

/-- Fills an index with one identifier after the other; one that is there already ends it. -/
def fillIndex (index : Keyed Text Descriptor) :
    List (Text × Descriptor) → Except Collision (Keyed Text Descriptor)
  | [] => .ok index
  | (identifier, d) :: rest =>
    match Keyed.get? index identifier with
    | some holder => .error ⟨identifier, holder.name⟩
    | none => fillIndex (Keyed.put identifier d index) rest

/-- The names of what an index holds. -/
def namesIn (index : List (Text × Descriptor)) : List (Text × Text) :=
  index.map fun entry => (entry.1, entry.2.name)

/-- Up to a collision the index is all that has been gone through. -/
theorem fillIndex_eq (index : Keyed Text Descriptor) (rest : List (Text × Descriptor)) :
    fillIndex index rest =
      match collision? (namesIn index) (namesIn rest) with
      | some collision => .error collision
      | none => .ok (index ++ rest) := by
  induction rest generalizing index with
  | nil => simp [fillIndex, namesIn, collision?]
  | cons entry rest ih =>
    obtain ⟨identifier, d⟩ := entry
    have held : (namesIn index).find? (·.1 = identifier) =
        (index.find? (·.1 = identifier)).map fun entry => (entry.1, entry.2.name) := by
      rw [namesIn, List.find?_map]
      rfl
    have next : namesIn ((identifier, d) :: rest) = (identifier, d.name) :: namesIn rest := rfl
    rw [fillIndex, Keyed.get?, next, collision?, held]
    cases found : index.find? (·.1 = identifier) with
    | some entry => rfl
    | none =>
      have fresh : identifier ∉ Keyed.keys index := by
        intro mem
        obtain ⟨other, among, same⟩ := List.mem_map.1 mem
        exact List.find?_eq_none.1 found other among (by simp [same])
      have more : namesIn (index ++ [(identifier, d)]) =
          namesIn index ++ [(identifier, d.name)] := by simp [namesIn]
      simp only [Option.map_none]
      rw [Keyed.put_of_not_mem fresh, ih, more, List.append_assoc]
      rfl

theorem namesIn_indexed (commands : List Descriptor) :
    namesIn (indexed commands) = holdings commands := by
  simp [namesIn, indexed, holdings, List.map_flatMap, Function.comp_def]

/-- The registry looks words up as the index does, and fails to be built where the index fails to be
filled. -/
theorem map_fillIndex_eq (commands : List Descriptor) :
    (fillIndex [] (indexed commands)).map Keyed.get? = (build commands).map resolve? := by
  rw [fillIndex_eq, namesIn_indexed]
  cases outcome : build commands with
  | error collision =>
    have first : collision? (namesIn []) (holdings commands) = some collision :=
      build_eq_error_iff.1 outcome
    rw [first]
    rfl
  | ok registry =>
    have built := build_eq_ok_iff.1 outcome
    subst built
    have none : collision? (namesIn []) (holdings registry.commands) = none := by
      apply (collision?_eq_none_iff _ _).2
      rw [identifiers_holdings]
      exact ⟨registry.nodup_identifiers, by simp [namesIn]⟩
    rw [none]
    have same : Keyed.get? (indexed registry.commands) = registry.resolve? := by
      funext token
      rw [Keyed.get?, indexed, find?_flatMap_identifiers, Option.map_map]
      exact Option.map_id'
    exact congrArg Except.ok same

/-! ## Visible identifiers -/

/-- What a level may type is what resolves to a command that it may run. -/
theorem visibleIdentifiers_eq_filter (registry : Registry) (level : Access) :
    registry.visibleIdentifiers level =
      (identifiersOf registry.commands).filter fun identifier =>
        (registry.resolve? identifier).any (·.isVisibleTo level) := by
  have among (commands : List Descriptor) (known : ∀ d ∈ commands, d ∈ registry.commands) :
      identifiersOf (commands.filter (·.isVisibleTo level)) =
        (identifiersOf commands).filter fun identifier =>
          (registry.resolve? identifier).any (·.isVisibleTo level) := by
    induction commands with
    | nil => rfl
    | cons d commands ih =>
      have rest := ih fun e mem => known e (List.mem_cons_of_mem d mem)
      have own : d.identifiers.filter (fun identifier =>
          (registry.resolve? identifier).any (·.isVisibleTo level)) =
          if d.isVisibleTo level then d.identifiers else [] := by
        have resolved : ∀ identifier ∈ d.identifiers,
            (registry.resolve? identifier).any (·.isVisibleTo level) = d.isVisibleTo level := by
          intro identifier mem
          have its := (resolve?_eq_some_iff registry identifier d).2
            ⟨known d List.mem_cons_self, (d.isNamed_iff identifier).2 mem⟩
          rw [its]
          rfl
        rw [List.filter_congr resolved]
        split
        · rename_i visible
          simp [visible]
        · rename_i hidden
          simp [hidden]
      rw [identifiersOf, identifiersOf, List.flatMap_cons, List.filter_append, own,
        List.filter_cons]
      rw [identifiersOf, identifiersOf] at rest
      split
      · rw [List.flatMap_cons, rest]
      · rw [List.nil_append, rest]
  exact among registry.commands fun _ mem => mem

/-! ## Outcomes -/

/-- The registry of commands: each word is resolved to the one command that it names, and is
contained if there is one; and a level sees, in the order of all, the identifiers of what it may
run. -/
structure Serves (commands : List Descriptor) (registry : Registry) : Prop where
  commands_eq : registry.commands = commands
  resolves : ∀ token d,
    registry.resolve? token = some d ↔ d ∈ commands ∧ d.isNamed token = true
  misses : ∀ token,
    registry.resolve? token = none ↔ ∀ d ∈ commands, d.isNamed token = false
  contains : ∀ token, registry.contains token = true ↔ ∃ d ∈ commands, d.isNamed token = true
  lists : ∀ level, registry.visibleIdentifiers level =
    (identifiersOf commands).filter fun identifier =>
      (registry.resolve? identifier).any (·.isVisibleTo level)

theorem serves_commands (registry : Registry) : Serves registry.commands registry where
  commands_eq := rfl
  resolves := resolve?_eq_some_iff registry
  misses token := by
    rw [resolve?, List.find?_eq_none]
    simp only [Bool.not_eq_true]
  contains token := by
    rw [Registry.contains, Option.isSome_iff_exists]
    simp only [resolve?_eq_some_iff]
  lists := visibleIdentifiers_eq_filter registry

/-- What comes of building a registry: it is built exactly if no identifier comes twice; else the
fault names the first one that does, and the command that has it already; and all this is as with an
index. -/
structure Builds (commands : List Descriptor) (outcome : Except Collision Registry) : Prop where
  succeeds : (∃ registry, outcome = .ok registry) ↔ (identifiersOf commands).Nodup
  collides : ∀ collision, outcome = .error collision →
    ∃ identifier holder, FirstRepeated commands identifier holder ∧
      collision = ⟨identifier, holder.name⟩ ∧
      collision.message = "Command name collision: '" ++ identifier ++
        "' is already registered to '" ++ holder.name ++ "'"
  serves : ∀ registry, outcome = .ok registry → Serves commands registry
  indexes : (fillIndex [] (indexed commands)).map Keyed.get? = outcome.map resolve?

/-- Commands are built into a registry that serves them, or the first repeated identifier is told,
however they were entered. -/
theorem builds_build :
    (∀ commands : List Descriptor, Builds commands (build commands)) ∧
      ∀ entries : List Catalog.Entry,
        Builds (entries.map Catalog.Entry.entered) (Catalog.ofEntries entries).build := by
  have directly (commands : List Descriptor) : Builds commands (build commands) := by
    refine ⟨exists_build_eq_ok_iff, ?_, ?_, map_fillIndex_eq commands⟩
    · intro collision failed
      obtain ⟨holder, first, same⟩ := firstRepeated_of_collision? (build_eq_error_iff.1 failed)
      refine ⟨collision.identifier, holder, first, ?_, ?_⟩
      · rw [← same]
      · rw [← same]
        rfl
    · intro registry built
      have its := serves_commands registry
      rwa [build_eq_ok_iff.1 built] at its
  refine ⟨directly, fun entries => ?_⟩
  rw [Catalog.build, Catalog.commands_ofEntries]
  exact directly _

end Registry

end GatedConsole
