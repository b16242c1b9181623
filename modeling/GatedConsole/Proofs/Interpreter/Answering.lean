import GatedConsole.Proofs.Interpreter.Lines
import GatedConsole.Proofs.Task.Locked

/-!
What answers for a recorded line. Main statement: the first word of a line leads to a macro, to one
of the four built-in commands or to the registered commands, and to only one of them, right behind
the record of the line.
-/

set_option autoImplicit false
set_option relaxedAutoImplicit false

namespace GatedConsole.Interpreter

variable {η : Type} {commands : CommandSet η}

/-- Where a recorded line goes, by its first word. -/
inductive AnsweredBy (commands : CommandSet η) (runStep : Option (Text → Work η Result))
    (line : Text) (invocation : Invocation) : Work η Result → Prop
  | replay (name : Text) (marked : invocation.command.behind? macroMark = some name) :
      AnsweredBy commands runStep line invocation (replay runStep name)
  | define (first : invocation.command = defineWord) :
      AnsweredBy commands runStep line invocation (defineMacro line)
  | history (first : invocation.command = historyWord) :
      AnsweredBy commands runStep line invocation
        (.look fun m => .done (showHistory m.history invocation.flags))
  | clear (first : invocation.command = clearWord) :
      AnsweredBy commands runStep line invocation (.done (.ok [clearSequence]))
  | macros (first : invocation.command = macrosWord) :
      AnsweredBy commands runStep line invocation (.look fun m => .done (listMacros m.macros.book))
  | registered (other : isBuiltin invocation.command = false) :
      AnsweredBy commands runStep line invocation (dispatch commands invocation)

theorem answeredBy (commands : CommandSet η) (runStep : Option (Text → Work η Result))
    (line : Text) (invocation : Invocation) :
    AnsweredBy commands runStep line invocation (answer commands runStep line invocation) := by
  unfold answer
  split
  · rename_i name marked
    exact .replay name marked
  · rename_i unmarked
    split
    · rename_i first
      exact .define first
    · rename_i not_define
      split
      · rename_i first
        exact .history first
      · rename_i not_history
        split
        · rename_i first
          exact .clear first
        · rename_i not_clear
          split
          · rename_i first
            exact .macros first
          · rename_i not_macros
            refine .registered ?_
            simp [isBuiltin, unmarked, not_define, not_history, not_clear, not_macros]

/-- A word that the interpreter does not know itself goes to the registered commands. -/
theorem answer_eq_dispatch {runStep : Option (Text → Work η Result)} {line : Text}
    {invocation : Invocation} (other : isBuiltin invocation.command = false) :
    answer commands runStep line invocation = dispatch commands invocation := by
  have answered := answeredBy commands runStep line invocation
  generalize answer commands runStep line invocation = p at answered ⊢
  have builtin {word : Text} (known : isBuiltin word) (first : invocation.command = word) :
      p = dispatch commands invocation := by
    rw [first, known] at other
    cases other
  cases answered with
  | replay name marked => simp [isBuiltin, marked] at other
  | define first => exact builtin (by decide) first
  | history first => exact builtin (by decide) first
  | clear first => exact builtin (by decide) first
  | macros first => exact builtin (by decide) first
  | registered => rfl

/-! ## Where an answer leads -/

section Reaching

variable {m : Memory η}

theorem reaches_replay_of_absent {runStep : Option (Text → Work η Result)} {name : Text}
    (absent : m.macros.book.get? name = none) :
    (replay runStep name).Reaches m (.done (macroNotFound name)) m := by
  refine .look ?_
  dsimp only [Program.bind]
  rw [absent]
  exact .here _ _

theorem reaches_replay_of_tooDeep {name : Text} {steps : List Text}
    (stored : m.macros.book.get? name = some steps) :
    (replay none name).Reaches m (.done tooDeep) m := by
  refine .look ?_
  dsimp only [Program.bind]
  rw [stored]
  exact .here _ _

theorem reaches_replay_of_stored {run : Text → Work η Result} {name : Text} {steps : List Text}
    (stored : m.macros.book.get? name = some steps) :
    (replay (some run) name).Reaches m
      ((Program.forEach run steps).bind fun results => .done (report name (steps.zip results)))
      m := by
  refine .look ?_
  dsimp only [Program.bind]
  rw [stored]
  exact .here _ _

theorem reaches_dispatch_of_absent {invocation : Invocation}
    (absent : commands.registry.resolve? invocation.command = none) :
    (dispatch commands invocation).Reaches m
      (.done (unknown invocation.command
        (suggestions commands.registry m.user m.macros.book invocation.command))) m := by
  refine .look ?_
  dsimp only [Program.bind]
  rw [absent]
  exact .here _ _

theorem reaches_dispatch_of_permitted {invocation : Invocation} {d : Descriptor}
    (resolved : commands.registry.resolve? invocation.command = some d)
    (permitted : m.user.access.permits d.access) :
    (dispatch commands invocation).Reaches m (call commands d invocation m.user) m := by
  refine .look ?_
  dsimp only [Program.bind]
  rw [resolved]
  dsimp only
  rw [if_pos permitted]
  exact .here _ _

theorem reaches_dispatch_of_forbidden {invocation : Invocation} {d : Descriptor}
    (resolved : commands.registry.resolve? invocation.command = some d)
    (forbidden : m.user.access.permits d.access = false) :
    (dispatch commands invocation).Reaches m (.done (denied d.access)) m := by
  refine .look ?_
  dsimp only [Program.bind]
  rw [resolved]
  dsimp only
  rw [forbidden]
  exact .here _ _

end Reaching

/-- How many levels of macros a line has left for its steps. -/
def stepsAt (commands : CommandSet η) : Nat → Option (Text → Work η Result)
  | 0 => none
  | left + 1 => some (run commands left)

theorem run_eq (commands : CommandSet η) (left : Nat) (line : Text) :
    run commands left line = runLine commands (stepsAt commands left) line := by
  cases left with
  | zero => rfl
  | succ left => rfl

/-- A line that is an invocation is recorded, and goes on with its answer. -/
theorem reaches_answer (commands : CommandSet η) {line : Text} {invocation : Invocation}
    (parsed : Invocation.ofLine? line.strip = some invocation) (left : Nat) (m : Memory η) :
    (run commands left line).Reaches m
      (answer commands (stepsAt commands left) line.strip invocation) (record line.strip m) := by
  rw [run_eq, runLine, parsed]
  exact .look (.keep (.here _ _))

end GatedConsole.Interpreter
