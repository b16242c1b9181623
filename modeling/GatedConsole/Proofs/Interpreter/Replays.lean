import GatedConsole.Proofs.Interpreter.Answers
import GatedConsole.Proofs.Interpreter.Report

/-!
What the report of a macro tells of the runs of its steps. Main statement: every replay runs the
steps that were stored when it began, one after the other whatever they come to, and its report
reads back as the steps with how each of them went and what it has shown, at every level of nesting;
nothing but a step that breaks off keeps a replay from its report.
-/

set_option autoImplicit false
set_option relaxedAutoImplicit false

namespace GatedConsole

/-- A failure has a text to show. -/
def Result.Speaks (result : Result) : Prop :=
  result.success = false → ∃ error, result.error = some error

theorem Result.speaks_ok (lines : List Text) : (Result.ok lines).Speaks := nofun

theorem Result.speaks_fail (error : Text) : (Result.fail error).Speaks := fun _ => ⟨error, rfl⟩

/-- The lines that a result is shown as in a report. -/
structure Result.ShownAs (result : Result) (lines : List Text) : Prop where
  success : result.success = true →
    lines = result.output.filter (· ≠ Interpreter.clearSequence)
  failure : result.success = false → ∃ error, result.error = some error ∧ lines = [error]

/-- Every failure that a body comes back with has a text. -/
def CommandSet.Speaks {η : Type} (commands : CommandSet η) : Prop :=
  ∀ d invocation user, (commands.body d invocation user).Yields (·.toResult.Speaks)

namespace Interpreter

open Program

variable {η : Type} {commands : CommandSet η}

theorem shownAs_shownLines {result : Result} (speaks : result.Speaks) :
    result.ShownAs (shownLines result) where
  success good := by rw [shownLines, if_pos good]
  failure bad := by
    obtain ⟨error, its⟩ := speaks bad
    refine ⟨error, its, ?_⟩
    rw [shownLines, bad, if_neg Bool.false_ne_true, its]
    rfl

/-! ## What all results of lines have in common -/

/-- What every success has, and every failure that says something. -/
structure Common (Q : Result → Prop) : Prop where
  ok : ∀ lines, Q (.ok lines)
  fail : ∀ error : Text, error ≠ [] → Q (.fail error)

section Common

variable {Q : Result → Prop}

/-- A failure whose text begins with something says something. -/
theorem Common.fail_append (common : Common Q) {first : Text} (some_text : first ≠ [])
    (rest : Text) : Q (.fail (first ++ rest)) :=
  common.fail _ (List.append_ne_nil_of_left_ne_nil some_text rest)

theorem yields_defineMacro (common : Common Q) (line : Text) :
    (defineMacro line : Work η Result).Yields Q := by
  unfold defineMacro
  split
  · exact common.fail _ (by decide)
  · refine yields_bind _ fun saved => ?_
    split
    · exact common.ok _
    · exact common.fail_append (List.append_ne_nil_of_left_ne_nil (by decide) _) _
    · trivial

theorem common_unknown (common : Common Q) (token : Text) (suggestions : List Text) :
    Q (unknown token suggestions) := by
  have begins (rest : Text) :
      Text.ofString "RUNE FAULT: Unknown invocation '" ++ token ++ rest ≠ [] :=
    List.append_ne_nil_of_left_ne_nil (List.append_ne_nil_of_left_ne_nil (by decide) _) _
  unfold unknown
  split
  · exact common.fail _ (begins _)
  · exact common.fail_append (List.append_ne_nil_of_left_ne_nil (begins _) _) _

theorem yields_dispatch (common : Common Q)
    (bodies : ∀ d invocation user,
      (commands.body d invocation user).Yields fun outcome => Q outcome.toResult)
    (invocation : Invocation) : (dispatch commands invocation).Yields Q := by
  refine yields_bind _ fun m => ?_
  split
  · exact common_unknown common _ _
  · rename_i d _
    split
    · refine yields_bind _ fun _ => ?_
      exact (bodies d invocation m.user).bind fun _ its => its
    · exact common.fail_append (by decide) _

theorem yields_replay (common : Common Q) (runStep : Option (Text → Work η Result))
    (name : Text) : (replay runStep name).Yields Q := by
  refine yields_bind _ fun m => ?_
  split
  · exact common.fail_append (List.append_ne_nil_of_left_ne_nil (by decide) _) _
  · split
    · exact common.fail _ (by decide)
    · exact yields_bind _ fun results => common.ok _

theorem common_showHistory (common : Common Q) (history : History) (flags : Keyed Text Flag) :
    Q (showHistory history flags) := by
  unfold showHistory
  split
  · exact common.fail _ (by decide)
  · exact common.ok _

theorem common_listMacros (common : Common Q) (book : MacroBook) : Q (listMacros book) := by
  unfold listMacros
  split
  · exact common.ok _
  · exact common.ok _

/-- What all successes and all failures that say something have in common, every result of a line
has, if all that bodies come back with have it. -/
theorem yields_run_of (common : Common Q)
    (bodies : ∀ d invocation user,
      (commands.body d invocation user).Yields fun outcome => Q outcome.toResult)
    (left : Nat) (line : Text) : (run commands left line).Yields Q := by
  rw [run_eq, runLine]
  split
  · exact common.fail _ (by decide)
  · rename_i invocation _
    refine yields_bind _ fun _ => ?_
    have answered := answeredBy commands (stepsAt commands left) line.strip invocation
    generalize answer commands (stepsAt commands left) line.strip invocation = p at answered ⊢
    cases answered with
    | replay name => exact yields_replay common _ name
    | define => exact yields_defineMacro common _
    | history => exact fun m => common_showHistory common m.history invocation.flags
    | clear => exact common.ok _
    | macros => exact fun m => common_listMacros common m.macros.book
    | registered => exact yields_dispatch common bodies invocation

end Common

/-- Every failure of a line has a text, if every failure of a body has one. -/
theorem yields_run (speaks : commands.Speaks) (left : Nat) (line : Text) :
    (run commands left line).Yields Result.Speaks :=
  yields_run_of ⟨Result.speaks_ok, fun error _ => Result.speaks_fail error⟩ speaks left line

/-! ## Lines come to an end -/

/-- From a memory whose store can name the key of the book, the program ends with a value, and
leaves such a memory. -/
def Arrives {α : Type} (p : Work η α) : Prop :=
  ∀ m e t log, m.macros.Named → p.Runs recordedBetween m e t log →
    (∃ a, e = .done a) ∧ t.macros.Named

theorem fabric_arrives (unbroken : commands.Unbroken) (keeps : commands.Only KeepsName) :
    Fabric commands Arrives where
  done a m e t log named h := by
    obtain ⟨rfl, rfl, -⟩ := h.of_done
    exact ⟨⟨a, rfl⟩, named⟩
  look arrives m e t log named h := arrives m m e t log named h.of_look
  bind first others m e t log named h := by
    obtain ⟨a, between, log, rest, begins, goes_on, -⟩ | ⟨cause, -, broken⟩ := h.of_bind
    · exact others a between e t rest (first m _ between log named begins).2 goes_on
    · obtain ⟨⟨_, impossible⟩, -⟩ := first m _ t log named broken
      cases impossible
  record line m e t log named h := by
    obtain ⟨rest, ends, -⟩ := h.of_look.of_keep
    obtain ⟨rfl, rfl, -⟩ := ends.of_done
    exact ⟨⟨(), rfl⟩, named⟩
  define line m e t log named h := by
    have first : (⟨defineWord, [], []⟩ : Invocation).command = defineWord := rfl
    obtain ⟨-, responds⟩ := responds_of_runs_defineMacro commands first h
    exact responds.exists_done unbroken keeps named
  call d invocation user m e t log named h := by
    obtain ⟨rest, called, -⟩ := h.of_look.of_keep
    have called : ((commands.body d invocation user).bind fun outcome =>
        .done outcome.toResult).Runs recordedBetween _ e t rest := called
    obtain ⟨outcome, between, log, rest, body, ends, -⟩ | ⟨cause, -, body⟩ := called.of_bind
    · obtain ⟨rfl, rfl, -⟩ := ends.of_done
      exact ⟨⟨_, rfl⟩, body.only KeepsName.refl KeepsName.trans (keeps d invocation user _) named⟩
    · obtain ⟨_, impossible⟩ := body.exists_done (unbroken d invocation user)
      cases impossible

/-! ## Replays -/

/-- The macro that a line calls, and its steps as they are stored. -/
def macroOf? (line : Text) (m : Memory η) : Option (Text × List Text) := do
  let invocation ← Invocation.ofLine? line.strip
  let name ← invocation.command.behind? macroMark
  let steps ← m.macros.book.get? name
  pure (name, steps)

theorem macroOf?_eq_some {line name : Text} {m : Memory η} {steps : List Text}
    (found : macroOf? line m = some (name, steps)) :
    ∃ invocation, Invocation.ofLine? line.strip = some invocation ∧
      invocation.command.behind? macroMark = some name ∧
        m.macros.book.get? name = some steps := by
  simp only [macroOf?, Option.bind_eq_bind, Option.bind_eq_some_iff, Option.pure_def,
    Option.some.injEq, Prod.mk.injEq] at found
  obtain ⟨invocation, parsed, _, marked, _, stored, rfl, rfl⟩ := found
  exact ⟨invocation, parsed, marked, stored⟩

/-- A line that calls a macro is recorded, and then the steps run as they are stored. -/
theorem reaches_steps (commands : CommandSet η) {line name : Text} {m : Memory η}
    {steps : List Text} (found : macroOf? line m = some (name, steps)) (left : Nat) :
    (run commands (left + 1) line).Reaches m
      ((forEach (run commands left) steps).bind fun results =>
        .done (report name (steps.zip results))) (record line.strip m) := by
  obtain ⟨invocation, parsed, marked, stored⟩ := macroOf?_eq_some found
  have recorded := reaches_answer commands parsed (left + 1) m
  rw [answer, marked] at recorded
  exact recorded.trans (reaches_replay_of_stored stored)

mutual

/-- A line that ran to a result has shown these lines. If it has replayed a macro, they are its
report, and what can be read in them is what its steps have shown. -/
inductive Tells (commands : CommandSet η) :
    (left : Nat) → Text → Memory η → Result → Memory η → List Text → Prop
  | single {left : Nat} {line : Text} {m t : Memory η} {result : Result} {lines : List Text}
      {log : List (Recorded η)}
      (runs : (run commands left line).Runs recordedBetween m (.done result) t log)
      (alone : left = 0 ∨ macroOf? line m = none) (shown : result.ShownAs lines) :
      Tells commands left line m result t lines
  | replay {left : Nat} {line name : Text} {m t : Memory η} {result : Result}
      {log : List (Recorded η)} {steps : List Text} {notes : List StepNote}
      (runs : (run commands (left + 1) line).Runs recordedBetween m (.done result) t log)
      (found : macroOf? line m = some (name, steps)) (success : result.success = true)
      (shown : result.ShownAs result.output)
      (outer : outerLines result.output = outline name notes)
      (reads : readReport? result.output = some notes)
      (all : TellsAll commands left steps (record line.strip m) notes t) :
      Tells commands (left + 1) line m result t result.output

/-- Each of the steps, run from where the one before has ended, went as its note says and has shown
the lines of its note. -/
inductive TellsAll (commands : CommandSet η) :
    (left : Nat) → List Text → Memory η → List StepNote → Memory η → Prop
  | nil {left : Nat} {m : Memory η} : TellsAll commands left [] m [] m
  | cons {left : Nat} {step : Text} {steps : List Text} {m t u : Memory η} {result : Result}
      {lines : List Text} {notes : List StepNote}
      (one : Tells commands left step m result t lines)
      (others : TellsAll commands left steps t notes u) :
      TellsAll commands left (step :: steps) m (⟨step, result.success, lines⟩ :: notes) u

end

theorem TellsAll.steps_eq {left : Nat} {steps : List Text} {m t : Memory η}
    {notes : List StepNote} (h : TellsAll commands left steps m notes t) :
    notes.map (·.step) = steps := by
  induction steps generalizing m notes with
  | nil =>
    cases h
    rfl
  | cons step steps ih =>
    cases h with
    | cons one others => exact congrArg _ (ih others)

section Runs

variable {left : Nat} {m t : Memory η} {log : List (Recorded η)}

theorem tellsAll_of_runs
    (runs : ∀ {line m result t log}, (run commands left line).Runs recordedBetween m
      (.done result) t log → Tells commands left line m result t (shownLines result))
    {steps : List Text} {results : List Result}
    (h : (forEach (run commands left) steps).Runs recordedBetween m (.done results) t log) :
    TellsAll commands left steps m ((steps.zip results).map noteOf) t := by
  induction steps generalizing m log results with
  | nil =>
    obtain ⟨ends, rfl, -⟩ := h.of_done
    cases ends
    exact .nil
  | cons step steps ih =>
    have both : ((run commands left step).bind fun result =>
        (forEach (run commands left) steps).bind fun results =>
          .done (result :: results)).Runs recordedBetween m (.done results) t log := h
    obtain ⟨result, _, _, _, one, others, -⟩ | ⟨_, impossible, -⟩ := both.of_bind
    · obtain ⟨results, _, _, _, all, ends, -⟩ | ⟨_, impossible, -⟩ := others.of_bind
      · obtain ⟨same, rfl, -⟩ := ends.of_done
        cases same
        exact .cons (runs one) (ih all)
      · cases impossible
    · cases impossible

/-- Before the step that breaks off, the steps went as in a replay that is whole. -/
theorem exists_broken_of_runs
    (runs : ∀ {line m result t log}, (run commands left line).Runs recordedBetween m
      (.done result) t log → Tells commands left line m result t (shownLines result))
    {steps : List Text} {cause : Escape}
    (h : (forEach (run commands left) steps).Runs recordedBetween m (.escaped cause) t log) :
    ∃ before step after notes between rest, steps = before ++ step :: after ∧
      TellsAll commands left before m notes between ∧
        (run commands left step).Runs recordedBetween between (.escaped cause) t rest := by
  induction steps generalizing m log with
  | nil => cases h
  | cons step steps ih =>
    have both : ((run commands left step).bind fun result =>
        (forEach (run commands left) steps).bind fun results =>
          .done (result :: results)).Runs recordedBetween m (.escaped cause) t log := h
    obtain ⟨result, _, _, _, one, others, -⟩ | ⟨_, same, one⟩ := both.of_bind
    · obtain ⟨results, _, _, _, all, ends, -⟩ | ⟨_, same, all⟩ := others.of_bind
      · cases ends
      · cases same
        obtain ⟨before, step', after, notes, between, rest, rfl, told, broken⟩ := ih all
        exact ⟨step :: before, step', after, _, between, rest, rfl, .cons (runs one) told, broken⟩
    · cases same
      exact ⟨[], step, steps, [], m, log, rfl, .nil, one⟩

/-- What a replay comes to: its report, or the break of one of its steps. -/
theorem replayed_of_runs {line name : Text} {steps : List Text} {e : Ending Escape Result}
    (found : macroOf? line m = some (name, steps))
    (h : (run commands (left + 1) line).Runs recordedBetween m e t log) :
    (∃ results rest, e = .done (report name (steps.zip results)) ∧
        (forEach (run commands left) steps).Runs recordedBetween (record line.strip m)
          (.done results) t rest) ∨
      ∃ cause rest, e = .escaped cause ∧
        (forEach (run commands left) steps).Runs recordedBetween (record line.strip m)
          (.escaped cause) t rest := by
  obtain ⟨rest, replays⟩ := (reaches_steps commands found left).runs h
  obtain ⟨results, _, _, _, all, ends, -⟩ | ⟨cause, ends, all⟩ := replays.of_bind
  · obtain ⟨rfl, rfl, -⟩ := ends.of_done
    exact .inl ⟨results, _, rfl, all⟩
  · exact .inr ⟨cause, rest, ends, all⟩

/-- Every line that runs to a result tells how it went. -/
theorem tells_of_runs (speaks : commands.Speaks) {line : Text} {result : Result}
    (h : (run commands left line).Runs recordedBetween m (.done result) t log) :
    Tells commands left line m result t (shownLines result) := by
  -- The steps of a macro run with one level less, from whatever the steps before have left.
  induction left generalizing line m result t log with
  | zero => exact .single h (.inl rfl) (shownAs_shownLines (h.yields (yields_run speaks 0 line)))
  | succ left ih =>
    have shown := shownAs_shownLines (h.yields (yields_run speaks (left + 1) line))
    cases found : macroOf? line m with
    | none => exact .single h (.inr found) shown
    | some call =>
      obtain ⟨name, steps⟩ := call
      obtain ⟨results, _, same, all⟩ | ⟨_, _, impossible, -⟩ := replayed_of_runs found h
      · cases same
        rw [shownLines_report] at shown ⊢
        exact .replay h found rfl shown (outerLines_report ..) (readReport?_report ..)
          (tellsAll_of_runs ih all)
      · cases impossible

end Runs

theorem run_execute {line : Text} {m t : Memory η} {e : Ending Escape Result}
    {log : List (Recorded η)}
    (h : (run commands depthBound line).Runs recordedBetween m e t log) :
    Loop.run (execute commands line) m = (e, t) := by
  have same : e.map id = e := by cases e <;> rfl
  have locked := Loop.run_underLock h id
  rw [id_map, same] at locked
  exact locked

/-- A line that calls a macro runs its steps as they are stored when it begins, whatever they come
to, and succeeds with a report. The report reads back as the steps: its outer lines are the outline
of the notes, and each note has the result of its step and what that has shown, at every level. Only
a step that breaks off keeps a line from its report, and none does if no body breaks off and the
store can name the key of the book. -/
theorem exists_replay (commands : CommandSet η) (solitary : commands.Solitary)
    (speaks : commands.Speaks) {line name : Text} {m : Memory η} {steps : List Text}
    (found : macroOf? line m = some (name, steps)) (left : Nat) :
    ∃ e t log, (run commands (left + 1) line).Runs recordedBetween m e t log ∧
      (left + 1 = depthBound → Loop.run (execute commands line) m = (e, t)) ∧
      (∀ result, e = .done result → result.success = true ∧
        ∃ notes, notes.map (·.step) = steps ∧
          outerLines result.output = outline name notes ∧
          readReport? result.output = some notes ∧
          TellsAll commands left steps (record line.strip m) notes t) ∧
      (∀ cause, e = .escaped cause →
        ∃ before step after notes between rest, steps = before ++ step :: after ∧
          TellsAll commands left before (record line.strip m) notes between ∧
          (run commands left step).Runs recordedBetween between (.escaped cause) t rest) ∧
      (commands.Unbroken → commands.Only KeepsName → m.macros.Named →
        ∃ result, e = .done result) := by
  obtain ⟨e, t, log, runs⟩ :=
    (solitary_run solitary (left + 1) line).exists_runs recordedBetween m
  refine ⟨e, t, log, runs, ?_, ?_, ?_, ?_⟩
  · intro whole
    rw [whole] at runs
    exact run_execute runs
  · rintro result rfl
    obtain ⟨results, _, same, all⟩ | ⟨_, _, impossible, -⟩ := replayed_of_runs found runs
    · cases same
      have told := tellsAll_of_runs (tells_of_runs speaks) all
      exact ⟨rfl, _, told.steps_eq, outerLines_report .., readReport?_report .., told⟩
    · cases impossible
  · rintro cause rfl
    obtain ⟨_, _, impossible, -⟩ | ⟨_, _, same, all⟩ := replayed_of_runs found runs
    · cases impossible
    · cases same
      exact exists_broken_of_runs (tells_of_runs speaks) all
  · intro unbroken keeps named
    exact ((fabric_arrives unbroken keeps).run (left + 1) line m e t log named runs).1

/-- The steps of a macro with a macro in it. -/
def nestedSteps : List Text := ["look", "macro.n", "seal"]

/-- The macro inside empties the terminal and defines the one around it anew. -/
def nestedSession : Session :=
  .ofUser { username := "eve" }
    ⟨(MacroBook.empty.define "m" nestedSteps (by decide)).define "n"
        ["clear", "define.macro m nothing"] (by decide), .empty, Macros.defaultKey⟩
    .ofDefaultCapacity

/-- The report tells of the steps that were stored first, and so does the report in it. -/
theorem exists_replay_nested :
    Session.watchCommands.Solitary ∧ Session.watchCommands.Speaks ∧
      macroOf? "macro.m" nestedSession = some (Text.ofString "m", nestedSteps) ∧
      ∃ result t notes,
        Loop.run (execute Session.watchCommands "macro.m") nestedSession = (.done result, t) ∧
        result.success = true ∧ outerLines result.output = outline "m" notes ∧
        notes.map (·.step) = nestedSteps ∧ notes.map (·.succeeded) = [true, true, false] ∧
        notes.map (fun note => (readReport? note.lines).map (·.map (·.succeeded))) =
          [none, some [true, true], none] := by
  have solitary : Session.watchCommands.Solitary := fun _ _ _ => trivial
  have speaks : Session.watchCommands.Speaks := fun _ _ _ => Result.speaks_ok _
  have unbroken : Session.watchCommands.Unbroken := fun _ _ _ => trivial
  have keeps : Session.watchCommands.Only KeepsName := fun _ _ _ _ _ _ => trivial
  have found : macroOf? "macro.m" nestedSession = some (Text.ofString "m", nestedSteps) := rfl
  refine ⟨solitary, speaks, found, ?_⟩
  obtain ⟨e, t, log, -, executed, reported, -, whole⟩ :=
    exists_replay Session.watchCommands solitary speaks found 7
  obtain ⟨result, rfl⟩ := whole unbroken keeps trivial
  obtain ⟨success, notes, steps, outer, reads, -⟩ := reported result rfl
  have ends := executed rfl
  refine ⟨result, t, notes, ends, success, outer, steps, ?_⟩
  have still : (Loop.turns 40
      (Loop.start (execute Session.watchCommands "macro.m") false nestedSession)).turn = none := rfl
  have same : (Loop.run (execute Session.watchCommands "macro.m") nestedSession).1 =
      .done result := by rw [ends]
  rw [Loop.run, Loop.rest_eq_turns still] at same
  obtain rfl := Ending.done.inj same
  obtain rfl := Option.some.inj reads
  exact ⟨rfl, rfl⟩

end Interpreter

end GatedConsole
