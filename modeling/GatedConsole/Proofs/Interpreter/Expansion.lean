import GatedConsole.Proofs.Interpreter.Replays
import GatedConsole.Proofs.Task.Alike

/-!
Macros as abbreviations. Main statement: with a book in which no step defines a macro, a line that
calls a macro makes the calls that its expansion makes when that is typed line by line, where a
macro within eight others stands for a step that fails; if no chain of macros is longer than eight,
the expansion is the full one and the bound on the depth is never met.
-/

set_option autoImplicit false
set_option relaxedAutoImplicit false

namespace GatedConsole

variable {η : Type}

/-- Memories that are the same but for the recorded lines. -/
def SameButHistory (m n : Memory η) : Prop := ∃ history, n = { m with history := history }

/-- Both end with a value, both break off for the same cause, or both are stuck. -/
def SameEnding {ε α β : Type} (e : Ending ε α) (e' : Ending ε β) : Prop :=
  e'.map (fun _ => ()) = e.map fun _ => ()

/-- What the bodies of the commands do does not depend on the recorded lines. -/
def CommandSet.IgnoresHistory (commands : CommandSet η) : Prop :=
  ∀ d invocation user m n, SameButHistory m n →
    Program.Alike (fun _ : Unit => SameButHistory) () (commands.body d invocation user) m
      (commands.body d invocation user) n

/-- No step of a macro defines a macro. -/
def MacroBook.Undefining (book : MacroBook) : Prop :=
  ∀ entry ∈ book.entries, ∀ step ∈ entry.2, Interpreter.definedBy? step.strip = none

instance (book : MacroBook) : Decidable book.Undefining :=
  inferInstanceAs (Decidable
    (∀ entry ∈ book.entries, ∀ step ∈ entry.2, Interpreter.definedBy? step.strip = none))

theorem MacroBook.Undefining.of_get? {book : MacroBook} (h : book.Undefining) {name : Text}
    {steps : List Text} (stored : book.get? name = some steps) {step : Text} (mem : step ∈ steps) :
    Interpreter.definedBy? step.strip = none :=
  h _ (mem_entries_of_get? stored) step mem

namespace SameButHistory

theorem refl (m : Memory η) : SameButHistory m m := ⟨m.history, rfl⟩

theorem record_left {m n : Memory η} (h : SameButHistory m n) (line : Text) :
    SameButHistory (Interpreter.record line m) n := by
  obtain ⟨history, rfl⟩ := h
  exact ⟨history, rfl⟩

theorem record {m n : Memory η} (h : SameButHistory m n) (line : Text) :
    SameButHistory (Interpreter.record line m) (Interpreter.record line n) := by
  obtain ⟨history, rfl⟩ := h
  exact ⟨_, rfl⟩

theorem calls {m n : Memory η} (h : SameButHistory m n) : n.calls = m.calls := by
  obtain ⟨history, rfl⟩ := h
  rfl

end SameButHistory

namespace Interpreter

open Program

variable {commands : CommandSet η}

/-! ## Expansions -/

/-- The name behind the mark of macros, if the first word of a line has the mark. -/
def calledName? (line : Text) : Option Text := do
  let invocation ← Invocation.ofLine? line.strip
  invocation.command.behind? macroMark

/-- A line that calls no macro, or a macro that is nested too deep. -/
inductive Leaf where
  | line (text : Text)
  | tooDeep
deriving DecidableEq

/-- The leaves of a line in which macros may be nested `left` deep, in depth-first order. A macro
that is not known has none. -/
def expansion (book : MacroBook) (left : Nat) (line : Text) : List Leaf :=
  match calledName? line with
  | none => [.line line]
  | some name =>
    match book.get? name, left with
    | none, _ => []
    | some _, 0 => [.tooDeep]
    | some steps, left + 1 => steps.flatMap (expansion book left)

/-- The lines with every call of a macro replaced by its steps, however deep they are nested. -/
inductive Expands (book : MacroBook) : List Text → List Text → Prop
  | nil : Expands book [] []
  | plain {line : Text} {rest lines : List Text} (uncalled : calledName? line = none)
      (others : Expands book rest lines) : Expands book (line :: rest) (line :: lines)
  | unknown {line name : Text} {rest lines : List Text} (called : calledName? line = some name)
      (absent : book.get? name = none) (others : Expands book rest lines) :
      Expands book (line :: rest) lines
  | stored {line name : Text} {steps rest lines : List Text}
      (called : calledName? line = some name) (found : book.get? name = some steps)
      (others : Expands book (steps ++ rest) lines) : Expands book (line :: rest) lines

/-- The macros of the book that the steps of a macro call. -/
def inner (book : MacroBook) (name : Text) : List Text :=
  (((book.get? name).getD []).filterMap calledName?).filter book.contains

/-- A step of the one macro calls the other one, which is stored. -/
def Nests (book : MacroBook) (outer name : Text) : Prop := name ∈ inner book outer

/-- The bound on the depth is met in a line in which macros may be nested `left` deep: it calls a
stored macro with no level left, or one of its steps meets the bound when the steps before have
run. -/
inductive Overruns (commands : CommandSet η) : (left : Nat) → Text → Memory η → Prop
  | here {line : Text} {m : Memory η} {call : Text × List Text}
      (found : macroOf? line m = some call) : Overruns commands 0 line m
  | inside {left : Nat} {line name step : Text} {before after : List Text} {m t : Memory η}
      {results : List Result} {log : List (Recorded η)}
      (found : macroOf? line m = some (name, before ++ step :: after))
      (ran : (forEach (run commands left) before).Runs recordedBetween (record line.strip m)
        (.done results) t log)
      (its : Overruns commands left step t) : Overruns commands (left + 1) line m

/-- What is typed for a leaf. A macro that is nested too deep fails without a move. -/
def prompt (commands : CommandSet η) : Leaf → Work η Result
  | .line text => execute commands text
  | .tooDeep => .done tooDeep

/-- From the same memory both come to an end in the same way, with the same calls, and with
memories that are the same but for the recorded lines. -/
def SameCalls {α β : Type} (m : Memory η) (p : Work η α) (q : Work η β) : Prop :=
  ∃ e t e' t', Loop.run p m = (e, t) ∧ Loop.run q m = (e', t') ∧ e ≠ .stuck ∧
    SameEnding e e' ∧ t'.calls = t.calls ∧ SameButHistory t t'

section Expanding

variable {book : MacroBook} {line name : Text} {steps : List Text} {m : Memory η}

theorem exists_of_calledName? (called : calledName? line = some name) :
    ∃ invocation, Invocation.ofLine? line.strip = some invocation ∧
      invocation.command.behind? macroMark = some name := by
  simpa only [calledName?, Option.bind_eq_bind, Option.bind_eq_some_iff] using called

theorem macroOf?_of_stored (called : calledName? line = some name)
    (stored : m.macros.book.get? name = some steps) : macroOf? line m = some (name, steps) := by
  obtain ⟨invocation, parsed, marked⟩ := exists_of_calledName? called
  simp only [macroOf?, parsed, marked, stored, Option.bind_eq_bind, Option.bind_some,
    Option.pure_def]

theorem calledName?_of_macroOf? (found : macroOf? line m = some (name, steps)) :
    calledName? line = some name ∧ m.macros.book.get? name = some steps := by
  obtain ⟨invocation, parsed, marked, stored⟩ := macroOf?_eq_some found
  refine ⟨?_, stored⟩
  simp only [calledName?, parsed, marked, Option.bind_eq_bind, Option.bind_some]

theorem expansion_of_plain (uncalled : calledName? line = none) (left : Nat) :
    expansion book left line = [.line line] := by
  rw [expansion, uncalled]

theorem expansion_of_absent (called : calledName? line = some name)
    (absent : book.get? name = none) (left : Nat) : expansion book left line = [] := by
  rw [expansion, called]
  simp only [absent]

theorem expansion_zero (called : calledName? line = some name)
    (stored : book.get? name = some steps) : expansion book 0 line = [.tooDeep] := by
  rw [expansion, called]
  simp only [stored]

theorem expansion_succ (called : calledName? line = some name)
    (stored : book.get? name = some steps) (left : Nat) :
    expansion book (left + 1) line = steps.flatMap (expansion book left) := by
  rw [expansion, called]
  simp only [stored]

/-- Lines have at most one expansion. -/
theorem Expands.unique {lines steps steps' : List Text} (h : Expands book lines steps)
    (h' : Expands book lines steps') : steps' = steps := by
  induction h generalizing steps' with
  | nil =>
    cases h'
    rfl
  | plain uncalled _ ih =>
    cases h' with
    | plain _ others => exact congrArg _ (ih others)
    | unknown called => cases uncalled.symm.trans called
    | stored called => cases uncalled.symm.trans called
  | unknown called absent _ ih =>
    cases h' with
    | plain uncalled => cases uncalled.symm.trans called
    | unknown _ _ others => exact ih others
    | stored called' found =>
      cases called.symm.trans called'
      cases absent.symm.trans found
  | stored called found _ ih =>
    cases h' with
    | plain uncalled => cases uncalled.symm.trans called
    | unknown called' absent =>
      cases called.symm.trans called'
      cases absent.symm.trans found
    | stored called' found' others =>
      cases called.symm.trans called'
      cases found.symm.trans found'
      exact ih others

theorem Expands.append {first second lines lines' : List Text} (h : Expands book first lines)
    (h' : Expands book second lines') : Expands book (first ++ second) (lines ++ lines') := by
  induction h with
  | nil => exact h'
  | plain uncalled _ ih => exact .plain uncalled ih
  | unknown called absent _ ih => exact .unknown called absent ih
  | stored called found _ ih =>
    refine .stored called found ?_
    rw [List.append_assoc] at ih
    exact ih

end Expanding

/-! ## Chains of macros -/

/-- No chain of macros that the line begins is longer than `left`. -/
def Shallow (book : MacroBook) (left : Nat) (line : Text) : Prop :=
  ∀ name, calledName? line = some name → book.contains name →
    ∀ names, List.IsChain (Nests book) (name :: names) → (name :: names).length ≤ left

section Shallow

variable {book : MacroBook} {line name : Text} {steps : List Text} {left : Nat}

theorem Shallow.of_step {step : Text} (shallow : Shallow book (left + 1) line)
    (called : calledName? line = some name) (stored : book.get? name = some steps)
    (mem : step ∈ steps) : Shallow book left step := by
  intro next its known names chain
  have contained : book.contains name := by rw [MacroBook.contains, stored]; rfl
  have nests : Nests book name next := by
    rw [Nests, inner, stored, List.mem_filter, List.mem_filterMap]
    exact ⟨⟨step, mem, its⟩, known⟩
  have longer := shallow name called contained (next :: names)
    (List.isChain_cons_cons.2 ⟨nests, chain⟩)
  exact Nat.le_of_succ_le_succ longer

/-- A line that calls a stored macro begins a chain. -/
theorem Shallow.pos (shallow : Shallow book left line) (called : calledName? line = some name)
    (stored : book.get? name = some steps) : 0 < left := by
  have contained : book.contains name := by rw [MacroBook.contains, stored]; rfl
  exact shallow name called contained [] (List.isChain_singleton name)

theorem exists_flatMap_expansion {left : Nat} (steps : List Text)
    (each : ∀ step ∈ steps, ∃ lines, expansion book left step = lines.map .line ∧
      Expands book [step] lines) :
    ∃ lines, steps.flatMap (expansion book left) = lines.map .line ∧
      Expands book steps lines := by
  induction steps with
  | nil => exact ⟨[], rfl, .nil⟩
  | cons step steps ih =>
    obtain ⟨first, its, expands⟩ := each step List.mem_cons_self
    obtain ⟨lines, all, others⟩ := ih fun step mem => each step (List.mem_cons_of_mem _ mem)
    refine ⟨first ++ lines, ?_, expands.append others⟩
    rw [List.flatMap_cons, its, all, List.map_append]

/-- Where no chain is too long, the expansion is the full one. -/
theorem exists_expands (shallow : Shallow book left line) :
    ∃ lines, expansion book left line = lines.map .line ∧ Expands book [line] lines := by
  -- A step of the macro has one level less, and only chains that are shorter by one.
  induction left generalizing line with
  | zero =>
    cases called : calledName? line with
    | none => exact ⟨[line], expansion_of_plain called 0, .plain called .nil⟩
    | some name =>
      cases stored : book.get? name with
      | none => exact ⟨[], expansion_of_absent called stored 0, .unknown called stored .nil⟩
      | some steps => exact absurd (shallow.pos called stored) (Nat.lt_irrefl 0)
  | succ left ih =>
    cases called : calledName? line with
    | none => exact ⟨[line], expansion_of_plain called _, .plain called .nil⟩
    | some name =>
      cases stored : book.get? name with
      | none => exact ⟨[], expansion_of_absent called stored _, .unknown called stored .nil⟩
      | some steps =>
        obtain ⟨lines, all, expands⟩ := exists_flatMap_expansion steps fun step mem =>
          ih (shallow.of_step called stored mem)
        refine ⟨lines, (expansion_succ called stored left).trans all, .stored called stored ?_⟩
        rwa [List.append_nil]

end Shallow

/-! ## The book stays as it is -/

theorem Responds.book_eq (bodies : commands.Only LeavesLines) {line : Text}
    {invocation : Invocation} {m t : Memory η} {e : Ending Escape Result}
    (parsed : Invocation.ofLine? line = some invocation)
    (undefined : definedBy? line = none) (h : Responds commands line invocation m e t) :
    t.macros.book = m.macros.book := by
  have undefining {parts} (first : invocation.command = defineWord)
      (its : definition? line = some parts) : False := by
    rw [definedBy?, head?_words_of_ofLine? parsed, first, if_pos rfl, its] at undefined
    cases undefined
  have untouched {d : Descriptor} {e : Ending Escape Outcome}
      (body : (commands.body d invocation m.user).Runs recordedBetween (calledIn m d invocation)
        e t []) : t.macros.book = m.macros.book :=
    (body.only LeavesLines.refl LeavesLines.trans (bodies d invocation m.user _)).book
  cases h with
  | notFound | usage | history | clear | macros | unresolved | denied => rfl
  | defined first parts | unsaved first parts | unnamed first parts =>
    exact (undefining first parts).elim
  | answered _ _ _ body => exact untouched body
  | aborted _ _ _ body => exact untouched body

mutual

/-- Without a step that defines a macro, a line leaves the book as it is. -/
theorem book_eq_of_answers (bodies : commands.Only LeavesLines) {left : Nat} {line : Text}
    {m t : Memory η} {e : Ending Escape Result} {log : List (Recorded η)} :
    Answers commands left line m e t log → m.macros.book.Undefining →
      definedBy? line.strip = none → t.macros.book = m.macros.book
  | .blank _, _, _ => rfl
  | .response parsed its, _, undefined => by
    have kept := its.book_eq bodies parsed undefined
    exact kept
  | .tooDeep .., _, _ => rfl
  | .replayed _ _ stored all, undefining, _ => by
    have kept := book_eq_of_answersAll bodies all undefining
      fun _ mem => undefining.of_get? stored mem
    exact kept
  | .broken _ _ stored all, undefining, _ => by
    have kept := book_eq_of_answersAll bodies all undefining
      fun _ mem => undefining.of_get? stored mem
    exact kept

theorem book_eq_of_answersAll (bodies : commands.Only LeavesLines) {left : Nat}
    {steps : List Text} {m t : Memory η} {e : Ending Escape (List Result)}
    {log : List (Recorded η)} :
    AnswersAll commands left steps m e t log → m.macros.book.Undefining →
      (∀ step ∈ steps, definedBy? step.strip = none) → t.macros.book = m.macros.book
  | .nil, _, _ => rfl
  | .cons one others, undefining, undefined => by
    have first := book_eq_of_answers bodies one undefining (undefined _ List.mem_cons_self)
    have second := book_eq_of_answersAll bodies others (first.symm ▸ undefining)
      fun step mem => undefined step (List.mem_cons_of_mem _ mem)
    exact second.trans first
  | .broken one, undefining, undefined =>
    book_eq_of_answers bodies one undefining (undefined _ List.mem_cons_self)

end

/-! ## Lines that call no macro -/

section Plain

variable {m n : Memory η} {invocation : Invocation}

/-- The way a program goes, without what it ends with. -/
def course {α : Type} (p : Work η α) : Work η Unit := (fun _ => ()) <$> p

theorem alike_defineMacro (line : Text) (same : SameButHistory m n) :
    Alike (fun _ : Unit => SameButHistory) () (defineMacro line) m (defineMacro line) n := by
  unfold defineMacro
  split
  · exact .done _ same
  · obtain ⟨history, rfl⟩ := same
    refine .look (.keep ?_)
    dsimp only [Program.bind]
    split
    · exact .done _ ⟨history, rfl⟩
    · exact .done _ ⟨history, rfl⟩
    · exact .escape _ ⟨history, rfl⟩

theorem alike_dispatch (blind : commands.IgnoresHistory) (invocation : Invocation)
    (same : SameButHistory m n) :
    Alike (fun _ : Unit => SameButHistory) () (dispatch commands invocation) m
      (dispatch commands invocation) n := by
  obtain ⟨history, rfl⟩ := same
  refine .look ?_
  dsimp only [Program.bind]
  split
  · exact .done _ ⟨history, rfl⟩
  · split
    · refine .look (.keep ?_)
      exact (blind _ invocation _ _ _ ⟨history, rfl⟩).bind fun outcome _ s t now => .done _ now
    · exact .done _ ⟨history, rfl⟩

/-- What answers for a word without the mark of macros does the same whatever lines are recorded,
and however many levels are left. -/
theorem alike_answer (blind : commands.IgnoresHistory) (line : Text)
    (unmarked : invocation.command.behind? macroMark = none)
    (runStep runStep' : Option (Text → Work η Result)) (same : SameButHistory m n) :
    Alike (fun _ : Unit => SameButHistory) () (course (answer commands runStep line invocation)) m
      (course (answer commands runStep' line invocation)) n := by
  unfold answer
  rw [unmarked]
  dsimp only
  split
  · exact (alike_defineMacro line same).map _
  · split
    · exact .look (.done () same)
    · split
      · exact .done () same
      · split
        · exact .look (.done () same)
        · exact (alike_dispatch blind invocation same).map _

theorem alike_run (blind : commands.IgnoresHistory) {line : Text}
    (uncalled : calledName? line = none) (left left' : Nat) (same : SameButHistory m n) :
    Alike (fun _ : Unit => SameButHistory) () (course (run commands left line)) m
      (course (run commands left' line)) n := by
  rw [run_eq, run_eq, runLine, runLine]
  cases parsed : Invocation.ofLine? line.strip with
  | none => exact .done () same
  | some invocation =>
    have unmarked : invocation.command.behind? macroMark = none := by
      rwa [calledName?, parsed] at uncalled
    exact .look (.keep (alike_answer blind line.strip unmarked _ _ (same.record line.strip)))

end Plain

/-! ## Runs and their leaves -/

section Leaves

/-- What is typed for a leaf, without the lock. -/
def typed (commands : CommandSet η) : Leaf → Work η Result
  | .line text => run commands depthBound text
  | .tooDeep => .done tooDeep

/-- From the memory `n` the leaves run to an end that is like `e`, and to a memory that is like
`t`. -/
def Retraced {α : Type} (commands : CommandSet η) (leaves : List Leaf) (n : Memory η)
    (e : Ending Escape α) (t : Memory η) : Prop :=
  ∃ e' t' log, (forEach (typed commands) leaves).Runs recordedBetween n e' t' log ∧
    SameEnding e e' ∧ SameButHistory t t'

variable {left : Nat} {line : Text} {m n t : Memory η} {log : List (Recorded η)}

theorem retraced_nil {α : Type} (a : α) (same : SameButHistory m n) :
    Retraced commands [] n (.done a) m :=
  ⟨.done [], n, [], .done [] n, rfl, same⟩

/-- Leaves one after the other are retraced in one go. -/
theorem Retraced.append {α β γ : Type} {first second : List Leaf} {a : α} {e : Ending Escape β}
    {e' : Ending Escape γ} (h : Retraced commands first n (.done a) m)
    (h' : ∀ n, SameButHistory m n → Retraced commands second n e t) (ends : SameEnding e e') :
    Retraced commands (first ++ second) n e' t := by
  obtain ⟨_ | _ | _, between, log, one, same, now⟩ := h
  · obtain ⟨e₂, u, rest, others, same', after⟩ := h' between now
    have runs := one.bind (f := fun as => (forEach (typed commands) second).bind fun as' =>
      .done (as ++ as')) (others.map _)
    rw [← forEach_append] at runs
    refine ⟨_, u, _, runs, ?_, after⟩
    cases e₂ with
    | done | escaped | stuck => exact same'.trans ends.symm
  · cases same
  · cases same

theorem Retraced.append_of_escaped {α β : Type} {first : List Leaf} {cause : Escape}
    (h : Retraced commands first n (.escaped cause : Ending Escape α) t) (second : List Leaf) :
    Retraced commands (first ++ second) n (.escaped cause : Ending Escape β) t := by
  obtain ⟨_ | _ | _, u, log, one, same, after⟩ := h
  · cases same
  · refine ⟨_, u, log, ?_, same, after⟩
    rw [forEach_append]
    exact one.bind_escaped _
  · cases same

/-- The steps of a macro are retraced by all of their leaves, if each of them is by its own. -/
theorem retraced_forEach (bodies : commands.Only LeavesLines) {book : MacroBook}
    (undefining : book.Undefining)
    (each : ∀ {line m n e t log}, (run commands left line).Runs recordedBetween m e t log →
      m.macros.book = book → definedBy? line.strip = none → SameButHistory m n →
        Retraced commands (expansion book left line) n e t)
    {steps : List Text} {e : Ending Escape (List Result)}
    (h : (forEach (run commands left) steps).Runs recordedBetween m e t log)
    (its : m.macros.book = book) (undefined : ∀ step ∈ steps, definedBy? step.strip = none)
    (same : SameButHistory m n) :
    Retraced commands (steps.flatMap (expansion book left)) n e t := by
  induction steps generalizing m n e log with
  | nil =>
    obtain ⟨rfl, rfl, -⟩ := h.of_done
    exact retraced_nil _ same
  | cons step steps ih =>
    have first := undefined step List.mem_cons_self
    have others := fun step' mem => undefined step' (List.mem_cons_of_mem step mem)
    have both : ((run commands left step).bind fun result =>
        (fun results => result :: results) <$> forEach (run commands left) steps).Runs
          recordedBetween m e t log := h
    rw [List.flatMap_cons]
    obtain ⟨result, between, _, _, one, rest, -⟩ | ⟨cause, rfl, one⟩ := both.of_bind
    · have answers := answers_of_runs (CommandSet.Only.leavesLogs bodies) one
      have kept : between.macros.book = book :=
        (book_eq_of_answers bodies answers (its ▸ undefining) first).trans its
      obtain ⟨e', rfl, goes_on⟩ := rest.of_map
      refine (each one its first same).append (fun n now => ih goes_on kept others now) ?_
      cases e' with
      | done | escaped | stuck => rfl
    · exact (each one its first same).append_of_escaped _

/-- The run of a line is retraced by its leaves. -/
theorem retraced_of_runs (bodies : commands.Only LeavesLines) (blind : commands.IgnoresHistory)
    {book : MacroBook} (undefining : book.Undefining) {e : Ending Escape Result}
    (h : (run commands left line).Runs recordedBetween m e t log) (its : m.macros.book = book)
    (undefined : definedBy? line.strip = none) (same : SameButHistory m n) :
    Retraced commands (expansion book left line) n e t := by
  -- The leaves of a step are those with one level less, and all steps find the same book.
  induction left using Nat.strongRecOn generalizing line m n e t log with
  | ind left ih =>
    cases called : calledName? line with
    | none =>
      obtain ⟨t', rest, runs, after⟩ : ∃ t' rest,
          (course (run commands depthBound line)).Runs recordedBetween n (e.map fun _ => ()) t'
            rest ∧ SameButHistory t t' :=
        (alike_run blind called left depthBound same).exists_runs (h.map fun _ => ())
      obtain ⟨e', ends, runs⟩ := runs.of_map
      rw [expansion_of_plain called]
      refine ⟨_, t', rest, runs.map fun result => [result], ?_, after⟩
      cases e' with
      | done | escaped | stuck => exact ends.symm
    | some name =>
      obtain ⟨invocation, parsed, marked⟩ := exists_of_calledName? called
      have recorded := reaches_answer commands parsed left m
      rw [answer, marked] at recorded
      subst its
      cases stored : m.macros.book.get? name with
      | none =>
        obtain ⟨_, ends⟩ := (recorded.trans (reaches_replay_of_absent stored)).runs h
        obtain ⟨rfl, rfl, -⟩ := ends.of_done
        rw [expansion_of_absent called stored]
        exact retraced_nil _ (same.record_left _)
      | some steps =>
        cases left with
        | zero =>
          obtain ⟨_, ends⟩ := (recorded.trans (reaches_replay_of_tooDeep stored)).runs h
          obtain ⟨rfl, rfl, -⟩ := ends.of_done
          rw [expansion_zero called stored]
          exact ⟨.done [tooDeep], n, [], .done _ n, rfl, same.record_left _⟩
        | succ left =>
          rw [expansion_succ called stored]
          have each := @ih left (Nat.lt_succ_self left)
          have undefined' : ∀ step ∈ steps, definedBy? step.strip = none :=
            fun step mem => undefining.of_get? stored mem
          obtain ⟨results, _, rfl, all⟩ | ⟨cause, _, rfl, all⟩ :=
            replayed_of_runs (macroOf?_of_stored called stored) h
          · exact retraced_forEach bodies undefining each all rfl undefined' (same.record_left _)
          · exact retraced_forEach bodies undefining each all rfl undefined' (same.record_left _)

/-- Under the lock, leaf by leaf, the leaves do what their run says. -/
theorem alone_prompt {leaf : Leaf} {e : Ending Escape Result}
    (h : (typed commands leaf).Runs recordedBetween m e t log) :
    (prompt commands leaf).alone false m = (e, false, t) := by
  cases leaf with
  | line text => exact alone_underLock (h.alone_eq true) h.ne_stuck
  | tooDeep => exact h.alone_eq false

theorem alone_forEach_prompt {leaves : List Leaf} {e : Ending Escape (List Result)}
    (h : (forEach (typed commands) leaves).Runs recordedBetween m e t log) :
    (forEach (prompt commands) leaves).alone false m = (e, false, t) := by
  induction leaves generalizing m e log with
  | nil => exact h.alone_eq false
  | cons leaf leaves ih =>
    have both : ((typed commands leaf).bind fun result =>
        (fun results => result :: results) <$> forEach (typed commands) leaves).Runs
          recordedBetween m e t log := h
    change ((prompt commands leaf).bind fun result =>
      (fun results => result :: results) <$> forEach (prompt commands) leaves).alone false m = _
    rw [alone_bind]
    obtain ⟨result, between, _, _, one, rest, -⟩ | ⟨cause, rfl, one⟩ := both.of_bind
    · obtain ⟨e', rfl, others⟩ := rest.of_map
      rw [alone_prompt one]
      dsimp only
      rw [alone_map, ih others]
    · rw [alone_prompt one]

end Leaves

/-! ## The bound on the depth -/

/-- Where no chain of macros is too long, the bound on the depth is not met. -/
theorem not_overruns (bodies : commands.Only LeavesLines) {left : Nat} {line : Text}
    {m : Memory η} (undefining : m.macros.book.Undefining)
    (shallow : Shallow m.macros.book left line) : ¬Overruns commands left line m := by
  intro overruns
  induction overruns with
  | here found =>
    obtain ⟨called, stored⟩ := calledName?_of_macroOf? found
    exact Nat.lt_irrefl 0 (shallow.pos called stored)
  | @inside left line name step before after m t results log found ran _ ih =>
    obtain ⟨called, stored⟩ := calledName?_of_macroOf? found
    have all := answersAll_of_runs (answers_of_runs (CommandSet.Only.leavesLogs bodies)) ran
    have kept : t.macros.book = (record line.strip m).macros.book :=
      book_eq_of_answersAll bodies all undefining fun step mem =>
        undefining.of_get? stored (List.mem_append_left _ mem)
    refine ih (kept ▸ undefining) ?_
    rw [kept]
    exact shallow.of_step called stored (List.mem_append_right _ List.mem_cons_self)

/-- With a book in which no step defines a macro, a line that calls a macro makes the calls that the
leaves of its expansion make when they are typed one after the other, where a macro within eight
others stands for a step that fails. If no chain of macros from the one that is called is longer
than eight, the bound on the depth is not met, and the calls are those of the lines that the full
expansion consists of. -/
theorem calls_replay (commands : CommandSet η) (bodies : commands.Only LeavesLines)
    (solitary : commands.Solitary) (blind : commands.IgnoresHistory) {line name : Text}
    {m : Memory η} (undefining : m.macros.book.Undefining)
    (called : calledName? line = some name) :
    SameCalls m (execute commands line)
        (forEach (prompt commands) (expansion m.macros.book depthBound line)) ∧
      ((∀ names, List.IsChain (Nests m.macros.book) (name :: names) →
          (name :: names).length ≤ depthBound) →
        ¬Overruns commands depthBound line m ∧
        ∃ lines, Expands m.macros.book [line] lines ∧
          (∀ others, Expands m.macros.book [line] others → others = lines) ∧
          SameCalls m (execute commands line) (forEach (execute commands) lines)) := by
  have undefined : definedBy? line.strip = none := by
    obtain ⟨invocation, parsed, marked⟩ := exists_of_calledName? called
    refine definedBy?_eq_none parsed fun same => ?_
    rw [same, show defineWord.behind? macroMark = none by decide] at marked
    cases marked
  obtain ⟨e, t, log, runs⟩ :=
    (solitary_run solitary depthBound line).exists_runs recordedBetween m
  obtain ⟨e', t', log', retraced, ends, after⟩ :=
    retraced_of_runs bodies blind undefining runs rfl undefined (.refl m)
  have alone := alone_forEach_prompt retraced
  have executed : SameCalls m (execute commands line)
      (forEach (prompt commands) (expansion m.macros.book depthBound line)) := by
    refine ⟨e, t, e', t', run_execute runs, ?_, runs.ne_stuck, ends, after.calls, after⟩
    rw [Loop.run_eq_of_alone _ _ (by rw [alone]; exact retraced.ne_stuck), alone]
  refine ⟨executed, fun short => ?_⟩
  have shallow : Shallow m.macros.book depthBound line := by
    intro other its _ names chain
    obtain rfl := Option.some.inj (called.symm.trans its)
    exact short names chain
  obtain ⟨lines, leaves, expands⟩ := exists_expands shallow
  refine ⟨not_overruns bodies undefining shallow, lines, expands,
    fun others => expands.unique, ?_⟩
  rw [leaves, forEach_map] at executed
  exact executed

/-- A macro that calls another one, and a macro that calls itself. -/
def twoMacros : MacroBook :=
  ((MacroBook.empty.define "m" ["look", "macro.n", "seal"] (by decide)).define "n" ["look --far"]
    (by decide)).define "again" ["look", "macro.again"] (by decide)

def twoMacrosSession : Session :=
  .ofUser { username := "eve" } ⟨twoMacros, .empty, Macros.defaultKey⟩ .ofDefaultCapacity

theorem length_le_of_isChain_twoMacros {names : List Text}
    (chain : List.IsChain (Nests twoMacros) (Text.ofString "m" :: names)) :
    (Text.ofString "m" :: names).length ≤ 2 := by
  have second : inner twoMacros "m" = [Text.ofString "n"] := rfl
  have third : inner twoMacros "n" = [] := rfl
  match names, chain with
  | [], _ => exact Nat.le_succ 1
  | [_], _ => exact Nat.le_refl 2
  | name :: next :: _, chain =>
    obtain ⟨nests, chain⟩ := List.isChain_cons_cons.1 chain
    obtain ⟨nests', -⟩ := List.isChain_cons_cons.1 chain
    rw [Nests, second, List.mem_singleton] at nests
    rw [Nests, nests, third] at nests'
    cases nests'

/-- The one macro comes to three lines. The other one comes to eight lines and then too deep. -/
theorem calls_replay_twoMacros :
    Session.watchCommands.Only LeavesLines ∧ Session.watchCommands.Solitary ∧
      Session.watchCommands.IgnoresHistory ∧ twoMacros.Undefining ∧
      calledName? "macro.m" = some (Text.ofString "m") ∧
      calledName? "macro.again" = some (Text.ofString "again") ∧
      ¬Overruns Session.watchCommands depthBound "macro.m" twoMacrosSession ∧
      SameCalls twoMacrosSession (execute Session.watchCommands "macro.m")
        (forEach (execute Session.watchCommands) ["look", "look --far", "seal"]) ∧
      SameCalls twoMacrosSession (execute Session.watchCommands "macro.again")
        (forEach (prompt Session.watchCommands)
          (List.replicate 8 (.line "look") ++ [.tooDeep])) := by
  have bodies : Session.watchCommands.Only LeavesLines := fun _ _ _ _ _ _ => trivial
  have solitary : Session.watchCommands.Solitary := fun _ _ _ => trivial
  have blind : Session.watchCommands.IgnoresHistory := fun _ _ _ _ _ same =>
    .pause same fun _ _ _ same => .pause same fun _ _ _ same => .done _ same
  have undefining : twoMacros.Undefining := by decide
  have called : calledName? "macro.m" = some (Text.ofString "m") := rfl
  have called' : calledName? "macro.again" = some (Text.ofString "again") := rfl
  have short : ∀ names, List.IsChain (Nests twoMacros) (Text.ofString "m" :: names) →
      (Text.ofString "m" :: names).length ≤ depthBound := fun _ chain =>
    (length_le_of_isChain_twoMacros chain).trans (by decide)
  obtain ⟨-, full⟩ := calls_replay Session.watchCommands bodies solitary blind
    (m := twoMacrosSession) undefining called
  obtain ⟨whole, lines, -, unique, same⟩ := full short
  obtain ⟨same', -⟩ := calls_replay Session.watchCommands bodies solitary blind
    (m := twoMacrosSession) undefining called'
  have within : calledName? "macro.n" = some (Text.ofString "n") := rfl
  have expands : Expands twoMacros ["macro.m"] ["look", "look --far", "seal"] :=
    .stored called rfl (.plain rfl (.stored within rfl (.plain rfl (.plain rfl .nil))))
  refine ⟨bodies, solitary, blind, undefining, called, called', whole, ?_, same'⟩
  rw [unique _ expands]
  exact same

end Interpreter

end GatedConsole
