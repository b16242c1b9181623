import GatedConsole.Proofs.Command.Registry
import GatedConsole.Proofs.Interpreter.Answering
import GatedConsole.Proofs.Interpreter.Suggestions
import GatedConsole.Proofs.Task.Runs
import GatedConsole.Proofs.Text.Words

/-!
What is offered and what is accepted. Main statement: a word is among the candidates of a user
exactly when a line of that word gets past the dispatch, so that all that is suggested can be typed,
nothing that is suggested belongs to a command beyond the user's level, and no refusal suggests the
word that it refuses.
-/

set_option autoImplicit false
set_option relaxedAutoImplicit false

namespace GatedConsole

/-- No name or alias begins with the mark of macros. -/
def Registry.Unmarked (registry : Registry) : Prop :=
  ∀ identifier ∈ identifiersOf registry.commands, identifier.behind? Interpreter.macroMark = none

namespace Interpreter

variable {η : Type} {commands : CommandSet η} {m : Memory η} {t : Text}

/-! ## Candidates -/

/-- A candidate is a name of a command that the user may run, a built-in word, or the mark with the
name of a macro behind it. -/
theorem mem_candidates_iff (registry : Registry) (user : User) (book : MacroBook) (t : Text) :
    t ∈ candidates registry user book ↔
      (∃ d ∈ registry.commands, d.isNamed t ∧ user.access.permits d.access) ∨
        t ∈ builtinWords ∨
          ∃ name steps, t = macroMark ++ name ∧ book.get? name = some steps := by
  rw [candidates, List.mem_append, List.mem_append, Registry.mem_visibleIdentifiers_iff, or_assoc]
  refine or_congr Iff.rfl (or_congr Iff.rfl ?_)
  rw [List.mem_map]
  constructor
  · rintro ⟨name, mem, rfl⟩
    obtain ⟨steps, found⟩ := (book.mem_names_iff name).1 mem
    exact ⟨name, steps, rfl, found⟩
  · rintro ⟨name, steps, rfl, found⟩
    exact ⟨name, (book.mem_names_iff name).2 ⟨steps, found⟩, rfl⟩

/-- Whatever is suggested is a candidate. -/
theorem mem_candidates_of_mem_suggestions {registry : Registry} {user : User} {book : MacroBook}
    {fragment : Text} (h : t ∈ suggestions registry user book fragment) :
    t ∈ candidates registry user book := by
  rw [suggestions_eq_take] at h
  exact List.mem_of_mem_filter (List.mem_eraseDups.1 (List.mem_of_mem_take h))

/-- The words that are offered for the interpreter itself are known to it. -/
theorem isBuiltin_of_mem_builtinWords (h : t ∈ builtinWords) :
    isBuiltin t ∧ t.behind? macroMark = none := by
  simp only [builtinWords, List.mem_cons, List.not_mem_nil, or_false] at h
  rcases h with rfl | rfl | rfl <;> decide

/-- A word that the interpreter does not know itself is a candidate only as the name of a command
that the user may run. -/
theorem mem_candidates_iff_of_registered {registry : Registry} {user : User} {book : MacroBook}
    (other : isBuiltin t = false) :
    t ∈ candidates registry user book ↔
      ∃ d, registry.resolve? t = some d ∧ user.access.permits d.access := by
  have unmarked : t.behind? macroMark = none := by
    cases marked : t.behind? macroMark with
    | none => rfl
    | some name => simp [isBuiltin, marked] at other
  rw [mem_candidates_iff]
  constructor
  · rintro (⟨d, known, named, permitted⟩ | builtin | ⟨name, steps, marked, -⟩)
    · exact ⟨d, (registry.resolve?_eq_some_iff t d).2 ⟨known, named⟩, permitted⟩
    · rw [(isBuiltin_of_mem_builtinWords builtin).1] at other
      cases other
    · rw [Text.behind?_eq_some_iff.2 marked] at unmarked
      cases unmarked
  · rintro ⟨d, resolved, permitted⟩
    obtain ⟨known, named⟩ := (registry.resolve?_eq_some_iff t d).1 resolved
    exact .inl ⟨d, known, named, permitted⟩

/-- Behind the mark of macros, only the names of macros are candidates. -/
theorem mem_candidates_iff_of_marked {registry : Registry} (unmarked : registry.Unmarked)
    {user : User} {book : MacroBook} {name : Text} (marked : t.behind? macroMark = some name) :
    t ∈ candidates registry user book ↔ ∃ steps, book.get? name = some steps := by
  rw [mem_candidates_iff]
  constructor
  · rintro (⟨d, known, named, -⟩ | builtin | ⟨name', steps, its_name, found⟩)
    · have its_word : t ∈ identifiersOf registry.commands :=
        List.mem_flatMap.2 ⟨d, known, (d.isNamed_iff t).1 named⟩
      rw [unmarked t its_word] at marked
      cases marked
    · rw [(isBuiltin_of_mem_builtinWords builtin).2] at marked
      cases marked
    · rw [Text.behind?_eq_some_iff.2 its_name, Option.some.injEq] at marked
      exact ⟨steps, marked ▸ found⟩
  · rintro ⟨steps, found⟩
    exact .inr (.inr ⟨name, steps, Text.behind?_eq_some_iff.1 marked, found⟩)

/-! ## Dispatch -/

/-- Executed and recorded, the line goes on as the program. -/
def GoesOn (commands : CommandSet η) (line : Text) (m : Memory η) (p : Work η Result) : Prop :=
  (run commands depthBound line).Reaches m p (record line.strip m)

/-- A line of one word gets past the dispatch: to a command that the user may run, to a macro, or to
a command of the interpreter itself. -/
inductive Passes (commands : CommandSet η) (m : Memory η) (t : Text) : Prop
  | called (d : Descriptor) (known : d ∈ commands.registry.commands) (named : d.isNamed t)
      (permitted : m.user.access.permits d.access)
      (h : GoesOn commands t m (call commands d ⟨t, [], []⟩ m.user))
  | replayed (name : Text) (steps : List Text) (marked : t = macroMark ++ name)
      (stored : m.macros.book.get? name = some steps)
      (h : GoesOn commands t m ((Program.forEach (run commands (depthBound - 1)) steps).bind
        fun results => .done (report name (steps.zip results))))
  | history (same : t = historyWord)
      (h : GoesOn commands t m (.done (showHistory (m.history.append t) [])))
  | clear (same : t = clearWord) (h : GoesOn commands t m (.done (.ok [clearSequence])))
  | macros (same : t = macrosWord) (h : GoesOn commands t m (.done (listMacros m.macros.book)))
  | define (same : t = defineWord) (h : GoesOn commands t m (defineMacro t))

/-- A line of one word is refused: no command is known under the word, the user may not run it, or
there is no macro of the name. -/
inductive Refused (commands : CommandSet η) (m : Memory η) (t : Text) : Prop
  | unknown (other : isBuiltin t = false) (absent : commands.registry.resolve? t = none)
      (h : GoesOn commands t m
        (.done (unknown t (suggestions commands.registry m.user m.macros.book t))))
  | denied (other : isBuiltin t = false) (d : Descriptor)
      (resolved : commands.registry.resolve? t = some d)
      (forbidden : m.user.access.permits d.access = false)
      (h : GoesOn commands t m (.done (denied d.access)))
  | macroNotFound (name : Text) (marked : t = macroMark ++ name)
      (absent : m.macros.book.get? name = none)
      (h : GoesOn commands t m (.done (macroNotFound name)))

theorem Passes.mem_candidates (h : Passes commands m t) (other : t ≠ defineWord) :
    t ∈ candidates commands.registry m.user m.macros.book := by
  rw [mem_candidates_iff]
  cases h with
  | called d known named permitted => exact .inl ⟨d, known, named, permitted⟩
  | replayed name steps marked stored => exact .inr (.inr ⟨name, steps, marked, stored⟩)
  | history same => exact .inr (.inl (by simp [builtinWords, same]))
  | clear same => exact .inr (.inl (by simp [builtinWords, same]))
  | macros same => exact .inr (.inl (by simp [builtinWords, same]))
  | define same => exact absurd same other

theorem Refused.not_mem_candidates (h : Refused commands m t)
    (unmarked : commands.registry.Unmarked) :
    t ∉ candidates commands.registry m.user m.macros.book := by
  cases h with
  | unknown other absent =>
    rw [mem_candidates_iff_of_registered other]
    rintro ⟨d, resolved, -⟩
    rw [absent] at resolved
    cases resolved
  | denied other d resolved forbidden =>
    rw [mem_candidates_iff_of_registered other]
    rintro ⟨d', resolved', permitted⟩
    rw [resolved, Option.some.injEq] at resolved'
    rw [resolved', permitted] at forbidden
    cases forbidden
  | macroNotFound name marked absent =>
    rw [mem_candidates_iff_of_marked unmarked (Text.behind?_eq_some_iff.2 marked)]
    rintro ⟨steps, stored⟩
    rw [absent] at stored
    cases stored

/-- A line whose first word nothing is known under is refused, with suggestions for the word. -/
theorem goesOn_unknown {line : Text} {invocation : Invocation}
    (parsed : Invocation.ofLine? line.strip = some invocation)
    (other : isBuiltin invocation.command = false)
    (absent : commands.registry.resolve? invocation.command = none) :
    GoesOn commands line m (.done (unknown invocation.command
      (suggestions commands.registry m.user m.macros.book invocation.command))) := by
  have way := reaches_answer commands parsed depthBound m
  rw [answer_eq_dispatch other] at way
  exact way.trans (reaches_dispatch_of_absent absent)

/-- Every line of one word gets past the dispatch or is refused. -/
theorem passes_or_refused (commands : CommandSet η) (m : Memory η) (word : t.IsWord) :
    Passes commands m t ∨ Refused commands m t := by
  have parsed := Invocation.ofLine?_of_isWord word
  have way := reaches_answer commands parsed depthBound m
  have answered := answeredBy commands (stepsAt commands depthBound) t.strip ⟨t, [], []⟩
  generalize answer commands (stepsAt commands depthBound) t.strip ⟨t, [], []⟩ = p at way answered
  have stripped := Text.strip_eq_self word.2
  cases answered with
  | replay name marked =>
    have marked := Text.behind?_eq_some_iff.1 marked
    cases stored : m.macros.book.get? name with
    | none =>
      exact .inr (.macroNotFound name marked stored (way.trans (reaches_replay_of_absent stored)))
    | some steps =>
      exact .inl (.replayed name steps marked stored
        (way.trans (reaches_replay_of_stored stored)))
  | define first =>
    refine .inl (.define first ?_)
    rw [stripped] at way
    rwa [GoesOn, stripped]
  | history first =>
    have shown := way.trans (.look (.here _ _))
    refine .inl (.history first ?_)
    rw [stripped] at shown
    rwa [GoesOn, stripped]
  | clear first => exact .inl (.clear first way)
  | macros first => exact .inl (.macros first (way.trans (.look (.here _ _))))
  | registered other =>
    cases resolved : commands.registry.resolve? t with
    | none => exact .inr (.unknown other resolved (goesOn_unknown parsed other resolved))
    | some d =>
      obtain ⟨known, named⟩ := (commands.registry.resolve?_eq_some_iff t d).1 resolved
      cases permitted : m.user.access.permits d.access with
      | true =>
        exact .inl (.called d known named permitted
          (way.trans (reaches_dispatch_of_permitted resolved permitted)))
      | false =>
        exact .inr (.denied other d resolved permitted
          (way.trans (reaches_dispatch_of_forbidden resolved permitted)))

/-- A candidate that is one word gets past the dispatch. -/
theorem passes_of_mem_candidates (unmarked : commands.registry.Unmarked) (word : t.IsWord)
    (mem : t ∈ candidates commands.registry m.user m.macros.book) : Passes commands m t := by
  rcases passes_or_refused commands m word with passes | refused
  · exact passes
  · exact absurd mem (refused.not_mem_candidates unmarked)

/-- No candidate belongs to a command that the user may not run, unless the interpreter answers for
the word itself. -/
theorem permitted_of_mem_candidates {registry : Registry} (unmarked : registry.Unmarked)
    {user : User} {book : MacroBook} (mem : t ∈ candidates registry user book) {d : Descriptor}
    (known : d ∈ registry.commands) (named : d.isNamed t) :
    t ∈ builtinWords ∨ user.access.permits d.access := by
  rcases (mem_candidates_iff registry user book t).1 mem with
    ⟨d', known', named', permitted⟩ | builtin | ⟨name, steps, marked, -⟩
  · rw [Registry.eq_of_isNamed registry.nodup_identifiers known known' named named']
    exact .inr permitted
  · exact .inl builtin
  · have plain := unmarked t (List.mem_flatMap.2 ⟨d, known, (d.isNamed_iff t).1 named⟩)
    rw [Text.behind?_eq_some_iff.2 marked] at plain
    cases plain

/-- A line of one word other than the one for definitions gets past the dispatch exactly when the
word is among the candidates, and is refused exactly when it is not. So every suggestion that is one
word can be typed, and none belongs to a command beyond the user's level, unless the interpreter
answers for it itself. The refusal of a line whose first word is unknown does not suggest that word.
All this is what executing the line does when its turn has come. -/
theorem passes_iff_mem_candidates (commands : CommandSet η)
    (unmarked : commands.registry.Unmarked) (m : Memory η) :
    (∀ t : Text, t.IsWord → t ≠ defineWord →
        (t ∈ candidates commands.registry m.user m.macros.book ↔ Passes commands m t) ∧
          (t ∉ candidates commands.registry m.user m.macros.book ↔ Refused commands m t)) ∧
      (∀ fragment, ∀ t ∈ suggestions commands.registry m.user m.macros.book fragment,
        (t.IsWord → Passes commands m t) ∧
          ∀ d ∈ commands.registry.commands, d.isNamed t →
            t ∈ builtinWords ∨ m.user.access.permits d.access) ∧
      (∀ line invocation, Invocation.ofLine? line.strip = some invocation →
        isBuiltin invocation.command = false →
          commands.registry.resolve? invocation.command = none →
            GoesOn commands line m (.done (unknown invocation.command
              (suggestions commands.registry m.user m.macros.book invocation.command))) ∧
            invocation.command ∉
              suggestions commands.registry m.user m.macros.book invocation.command) ∧
      ∀ line, execute commands line = (run commands depthBound line).underLock := by
  refine ⟨?_, ?_, ?_, fun _ => rfl⟩
  · intro t word other
    refine ⟨⟨passes_of_mem_candidates unmarked word, fun passes => passes.mem_candidates other⟩,
      fun absent => ?_, fun refused => refused.not_mem_candidates unmarked⟩
    rcases passes_or_refused commands m word with passes | refused
    · exact absurd (passes.mem_candidates other) absent
    · exact refused
  · intro fragment t suggested
    have mem := mem_candidates_of_mem_suggestions suggested
    refine ⟨fun word => passes_of_mem_candidates unmarked word mem, ?_⟩
    intro d known named
    exact permitted_of_mem_candidates unmarked mem known named
  · intro line invocation parsed other absent
    refine ⟨goesOn_unknown parsed other absent, fun suggested => ?_⟩
    have mem := mem_candidates_of_mem_suggestions suggested
    obtain ⟨d, resolved, -⟩ := (mem_candidates_iff_of_registered other).1 mem
    rw [absent] at resolved
    cases resolved

/-- Two commands, one of which has the name of a built-in command and is for root. -/
def shadowCommands : CommandSet Unit where
  registry := ⟨[{ name := "history", access := .root }, { name := "look", aliases := ["l"] }],
    by decide⟩
  body _ _ _ := .done (.result (.ok []))

/-- A guest with one macro. -/
def shadowMemory : Memory Unit where
  user := { username := "eve" }
  macros := ⟨MacroBook.empty.define "m" ["look"] (by decide), .empty, Macros.defaultKey⟩
  history := .ofDefaultCapacity
  host := ()

/-- The guest may type the built-in word, the alias and the macro; a fragment is refused. -/
theorem passes_iff_mem_candidates_shadow :
    shadowCommands.registry.Unmarked ∧
      (∀ t ∈ [Text.ofString "history", "l", "macro.m"],
        t.IsWord ∧ t ≠ defineWord ∧ Passes shadowCommands shadowMemory t) ∧
      (Text.ofString "lo").IsWord ∧ Text.ofString "lo" ≠ defineWord ∧
        Refused shadowCommands shadowMemory "lo" := by
  have unmarked : shadowCommands.registry.Unmarked := by
    unfold Registry.Unmarked
    decide
  obtain ⟨agree, -⟩ := passes_iff_mem_candidates shadowCommands unmarked shadowMemory
  refine ⟨unmarked, fun t mem => ?_, by decide, by decide, ?_⟩
  · have fit : ∀ t ∈ [Text.ofString "history", "l", "macro.m"], t.IsWord ∧ t ≠ defineWord ∧
        t ∈ candidates shadowCommands.registry shadowMemory.user shadowMemory.macros.book := by
      decide
    obtain ⟨word, other, offered⟩ := fit t mem
    exact ⟨word, other, (agree t word other).1.1 offered⟩
  · exact (agree "lo" (by decide) (by decide)).2.1 (by decide)

end Interpreter

end GatedConsole
