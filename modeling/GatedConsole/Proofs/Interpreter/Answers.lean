import GatedConsole.Proofs.Interpreter.Answering
import GatedConsole.Proofs.Session.Course

/-!
What a line comes to, told of whole lines: its own response, or the results of the steps of the
macro that it calls, one after the other. Main statements: every run of a line is told in this way;
what breaks one off is the response to the last line that it recorded; and nothing breaks it off if
no body does and the store can name the key of the book.
-/

set_option autoImplicit false
set_option relaxedAutoImplicit false

namespace GatedConsole

/-- Whether the store can name the key of the book does not get lost. -/
def KeepsName {η : Type} (before after : Memory η) : Prop :=
  before.macros.Named → after.macros.Named

namespace Interpreter

open Program

variable {η : Type} {commands : CommandSet η}

/-! ## The relation -/

/-- The macros with a new definition, not yet written. -/
def withMacro (m : Memory η) (name : Text) (steps : List Text) (some_step : steps ≠ []) : Macros :=
  { m.macros with book := m.macros.book.define name steps some_step }

/-- The memory behind a definition, whether or not it could be written. -/
def inscribedIn (m : Memory η) (name : Text) (steps : List Text) (some_step : steps ≠ []) :
    Memory η :=
  { m with macros := (m.macros.inscribe name steps some_step).1 }

/-- The memory in which the body of a command starts: its call is logged. -/
def calledIn (m : Memory η) (d : Descriptor) (invocation : Invocation) : Memory η :=
  { m with calls := m.calls ++ [⟨d.name, invocation.args, invocation.flags, m.user⟩] }

def usageFault : Result :=
  .fail ("MACRO FAULT: Usage: " ++ defineWord ++ " <name> <cmd1> [cmd2...]")

/-- What a recorded line comes to when it calls no macro that is known: how it ends, and the memory
that it leaves. -/
inductive Responds (commands : CommandSet η) (line : Text) (invocation : Invocation)
    (m : Memory η) : Ending Escape Result → Memory η → Prop
  | notFound {name : Text} (marked : invocation.command.behind? macroMark = some name)
      (absent : m.macros.book.get? name = none) :
      Responds commands line invocation m (.done (macroNotFound name)) m
  | usage (first : invocation.command = defineWord) (short : definition? line = none) :
      Responds commands line invocation m (.done usageFault) m
  | defined {name : Text} {steps : List Text} {some_step : steps ≠ []}
      (first : invocation.command = defineWord)
      (parts : definition? line = some (name, ⟨steps, some_step⟩))
      (written : (withMacro m name steps some_step).written = .ok ()) :
      Responds commands line invocation m (.done (inscribed name steps))
        (inscribedIn m name steps some_step)
  | unsaved {name : Text} {steps : List Text} {some_step : steps ≠ []} {fault : Files.Fault}
      (first : invocation.command = defineWord)
      (parts : definition? line = some (name, ⟨steps, some_step⟩))
      (refused : (withMacro m name steps some_step).written = .error fault)
      (system : fault.isSystem = true) :
      Responds commands line invocation m (.done (unsaved name))
        (inscribedIn m name steps some_step)
  | unnamed {name : Text} {steps : List Text} {some_step : steps ≠ []} {fault : Files.Fault}
      (first : invocation.command = defineWord)
      (parts : definition? line = some (name, ⟨steps, some_step⟩))
      (refused : (withMacro m name steps some_step).written = .error fault)
      (other : fault.isSystem = false) :
      Responds commands line invocation m (.escaped (.store fault))
        (inscribedIn m name steps some_step)
  | history (first : invocation.command = historyWord) :
      Responds commands line invocation m (.done (showHistory m.history invocation.flags)) m
  | clear (first : invocation.command = clearWord) :
      Responds commands line invocation m (.done (.ok [clearSequence])) m
  | macros (first : invocation.command = macrosWord) :
      Responds commands line invocation m (.done (listMacros m.macros.book)) m
  | unresolved (other : isBuiltin invocation.command = false)
      (absent : commands.registry.resolve? invocation.command = none) :
      Responds commands line invocation m
        (.done (unknown invocation.command
          (suggestions commands.registry m.user m.macros.book invocation.command))) m
  | denied {d : Descriptor} (other : isBuiltin invocation.command = false)
      (resolved : commands.registry.resolve? invocation.command = some d)
      (forbidden : m.user.access.permits d.access = false) :
      Responds commands line invocation m (.done (denied d.access)) m
  | answered {d : Descriptor} {outcome : Outcome} {t : Memory η}
      (other : isBuiltin invocation.command = false)
      (resolved : commands.registry.resolve? invocation.command = some d)
      (permitted : m.user.access.permits d.access = true)
      (body : (commands.body d invocation m.user).Runs recordedBetween (calledIn m d invocation)
        (.done outcome) t []) :
      Responds commands line invocation m (.done outcome.toResult) t
  | aborted {d : Descriptor} {cause : Escape} {t : Memory η}
      (other : isBuiltin invocation.command = false)
      (resolved : commands.registry.resolve? invocation.command = some d)
      (permitted : m.user.access.permits d.access = true)
      (body : (commands.body d invocation m.user).Runs recordedBetween (calledIn m d invocation)
        (.escaped cause) t []) :
      Responds commands line invocation m (.escaped cause) t

mutual

/-- What a line comes to when macros may still be nested `left` deep: how it ends, the memory that
it leaves, and the lines that it records. -/
inductive Answers (commands : CommandSet η) :
    (left : Nat) → Text → Memory η → Ending Escape Result → Memory η → List (Recorded η) → Prop
  | blank {left : Nat} {line : Text} {m : Memory η} (h : line.strip = []) :
      Answers commands left line m (.done voidCommand) m []
  | response {left : Nat} {line : Text} {m t : Memory η} {invocation : Invocation}
      {e : Ending Escape Result} (parsed : Invocation.ofLine? line.strip = some invocation)
      (its : Responds commands line.strip invocation (record line.strip m) e t) :
      Answers commands left line m e t [⟨line.strip, record line.strip m⟩]
  | tooDeep {line : Text} {m : Memory η} {invocation : Invocation} {name : Text}
      {steps : List Text} (parsed : Invocation.ofLine? line.strip = some invocation)
      (marked : invocation.command.behind? macroMark = some name)
      (stored : m.macros.book.get? name = some steps) :
      Answers commands 0 line m (.done tooDeep) (record line.strip m)
        [⟨line.strip, record line.strip m⟩]
  | replayed {left : Nat} {line : Text} {m t : Memory η} {invocation : Invocation} {name : Text}
      {steps : List Text} {results : List Result} {log : List (Recorded η)}
      (parsed : Invocation.ofLine? line.strip = some invocation)
      (marked : invocation.command.behind? macroMark = some name)
      (stored : m.macros.book.get? name = some steps)
      (all : AnswersAll commands left steps (record line.strip m) (.done results) t log) :
      Answers commands (left + 1) line m (.done (report name (steps.zip results))) t
        (⟨line.strip, record line.strip m⟩ :: log)
  | broken {left : Nat} {line : Text} {m t : Memory η} {invocation : Invocation} {name : Text}
      {steps : List Text} {cause : Escape} {log : List (Recorded η)}
      (parsed : Invocation.ofLine? line.strip = some invocation)
      (marked : invocation.command.behind? macroMark = some name)
      (stored : m.macros.book.get? name = some steps)
      (all : AnswersAll commands left steps (record line.strip m) (.escaped cause) t log) :
      Answers commands (left + 1) line m (.escaped cause) t
        (⟨line.strip, record line.strip m⟩ :: log)

/-- What the steps of a macro come to one after the other. A step that has a result, good or bad,
lets the next one begin where it ends. -/
inductive AnswersAll (commands : CommandSet η) :
    (left : Nat) → List Text → Memory η → Ending Escape (List Result) → Memory η →
      List (Recorded η) → Prop
  | nil {left : Nat} {m : Memory η} : AnswersAll commands left [] m (.done []) m []
  | cons {left : Nat} {step : Text} {steps : List Text} {m t u : Memory η} {result : Result}
      {e : Ending Escape (List Result)} {first rest : List (Recorded η)}
      (one : Answers commands left step m (.done result) t first)
      (others : AnswersAll commands left steps t e u rest) :
      AnswersAll commands left (step :: steps) m (e.map (result :: ·)) u (first ++ rest)
  | broken {left : Nat} {step : Text} {steps : List Text} {m t : Memory η} {cause : Escape}
      {first : List (Recorded η)} (one : Answers commands left step m (.escaped cause) t first) :
      AnswersAll commands left (step :: steps) m (.escaped cause) t first

end

/-! ## Runs -/

section Runs

variable {m t : Memory η} {log : List (Recorded η)} {e : Ending Escape Result} {line : Text}
  {invocation : Invocation}

theorem responds_of_runs_defineMacro (commands : CommandSet η)
    (first : invocation.command = defineWord)
    (h : (defineMacro line).Runs recordedBetween m e t log) :
    log = [] ∧ Responds commands line invocation m e t := by
  unfold defineMacro at h
  split at h
  · rename_i short
    obtain ⟨rfl, rfl, rfl⟩ := h.of_done
    exact ⟨rfl, .usage first short⟩
  · rename_i name steps some_step parts
    obtain ⟨rest, answers, rfl⟩ := Runs.of_keep (Runs.of_look h)
    have silent : recordedBetween m (inscribedIn m name steps some_step) = [] :=
      recordedBetween_eq_nil rfl
    dsimp only [Program.bind] at answers
    cases taken : (withMacro m name steps some_step).written with
    | ok =>
      rw [show (m.macros.inscribe name steps some_step).2 = .ok true from
        (Macros.save_of_written taken).1] at answers
      obtain ⟨rfl, rfl, rfl⟩ := answers.of_done
      exact ⟨(List.append_nil _).trans silent, .defined first parts taken⟩
    | error fault =>
      rw [show (m.macros.inscribe name steps some_step).2 = _ from
        congrArg Prod.snd (Macros.save_of_not_written taken)] at answers
      cases system : fault.isSystem with
      | true =>
        rw [system, if_pos rfl] at answers
        obtain ⟨rfl, rfl, rfl⟩ := answers.of_done
        exact ⟨(List.append_nil _).trans silent, .unsaved first parts taken system⟩
      | false =>
        rw [system, if_neg Bool.false_ne_true] at answers
        cases answers
        exact ⟨(List.append_nil _).trans silent, .unnamed first parts taken system⟩

theorem responds_of_runs_dispatch (bodies : commands.Only LeavesLogs) (line : Text)
    (other : isBuiltin invocation.command = false)
    (h : (dispatch commands invocation).Runs recordedBetween m e t log) :
    log = [] ∧ Responds commands line invocation m e t := by
  have h := Runs.of_look h
  dsimp only [Program.bind] at h
  split at h
  · rename_i absent
    obtain ⟨rfl, rfl, rfl⟩ := h.of_done
    exact ⟨rfl, .unresolved other absent⟩
  · rename_i d resolved
    split at h
    · rename_i permitted
      obtain ⟨rest, called, rfl⟩ := Runs.of_keep (Runs.of_look h)
      have silent : recordedBetween m (calledIn m d invocation) = [] := recordedBetween_eq_nil rfl
      have called : ((commands.body d invocation m.user).bind fun outcome =>
          .done outcome.toResult).Runs recordedBetween (calledIn m d invocation) e t rest := called
      have quiet {e : Ending Escape Outcome} {t : Memory η} {log : List (Recorded η)}
          (body : (commands.body d invocation m.user).Runs recordedBetween
            (calledIn m d invocation) e t log) : log = [] :=
        body.log_eq_nil (fun _ _ h => recordedBetween_eq_nil h.1)
          (bodies d invocation m.user _)
      obtain ⟨outcome, t', first, last, body, ends, rfl⟩ | ⟨cause, rfl, body⟩ := called.of_bind
      · obtain ⟨rfl, rfl, rfl⟩ := ends.of_done
        obtain rfl := quiet body
        exact ⟨(List.append_nil _).trans silent, .answered other resolved permitted body⟩
      · obtain rfl := quiet body
        exact ⟨(List.append_nil _).trans silent, .aborted other resolved permitted body⟩
    · rename_i forbidden
      obtain ⟨rfl, rfl, rfl⟩ := h.of_done
      exact ⟨rfl, .denied other resolved (Bool.eq_false_iff.2 forbidden)⟩

theorem answersAll_of_runs {left : Nat}
    (runs : ∀ {line m e t log}, (run commands left line).Runs recordedBetween m e t log →
      Answers commands left line m e t log) {steps : List Text} {e : Ending Escape (List Result)}
    (h : (forEach (run commands left) steps).Runs recordedBetween m e t log) :
    AnswersAll commands left steps m e t log := by
  induction steps generalizing m t e log with
  | nil =>
    obtain ⟨rfl, rfl, rfl⟩ := h.of_done
    exact .nil
  | cons step steps ih =>
    have both : ((run commands left step).bind fun result =>
        (forEach (run commands left) steps).bind fun results =>
          .done (result :: results)).Runs recordedBetween m e t log := h
    obtain ⟨result, t', first, rest, one, others, rfl⟩ | ⟨cause, rfl, one⟩ := both.of_bind
    · obtain ⟨results, t'', between, last, all, ends, rfl⟩ | ⟨cause, rfl, all⟩ := others.of_bind
      · obtain ⟨rfl, rfl, rfl⟩ := ends.of_done
        rw [List.append_nil]
        exact .cons (runs one) (ih all)
      · exact .cons (runs one) (ih all)
    · exact .broken (runs one)

/-- Behind a recorded line comes its response, or what its macro comes to. -/
theorem answers_of_runs_answer (bodies : commands.Only LeavesLogs) {left : Nat}
    (runs : ∀ n, left = n + 1 → ∀ {line m e t log},
      (run commands n line).Runs recordedBetween m e t log → Answers commands n line m e t log)
    (parsed : Invocation.ofLine? line.strip = some invocation)
    (h : (answer commands (stepsAt commands left) line.strip invocation).Runs recordedBetween
      (record line.strip m) e t log) :
    Answers commands left line m e t (⟨line.strip, record line.strip m⟩ :: log) := by
  have answered := answeredBy commands (stepsAt commands left) line.strip invocation
  generalize answer commands (stepsAt commands left) line.strip invocation = p at answered h
  cases answered with
  | replay name marked =>
    have h := Runs.of_look h
    dsimp only [Program.bind] at h
    split at h
    · rename_i absent
      obtain ⟨rfl, rfl, rfl⟩ := h.of_done
      exact .response parsed (.notFound marked absent)
    · rename_i steps stored
      cases left with
      | zero =>
        obtain ⟨rfl, rfl, rfl⟩ := h.of_done
        exact .tooDeep parsed marked stored
      | succ left =>
        have replays : ((forEach (run commands left) steps).bind fun results =>
            .done (report name (steps.zip results))).Runs recordedBetween _ e t log := h
        obtain ⟨results, t', first, last, all, ends, rfl⟩ | ⟨cause, rfl, all⟩ := replays.of_bind
        · obtain ⟨rfl, rfl, rfl⟩ := ends.of_done
          rw [List.append_nil]
          exact .replayed parsed marked stored (answersAll_of_runs (runs left rfl) all)
        · exact .broken parsed marked stored (answersAll_of_runs (runs left rfl) all)
  | define first =>
    obtain ⟨rfl, its⟩ := responds_of_runs_defineMacro commands first h
    exact .response parsed its
  | history first =>
    obtain ⟨rfl, rfl, rfl⟩ := (Runs.of_look h).of_done
    exact .response parsed (.history first)
  | clear first =>
    obtain ⟨rfl, rfl, rfl⟩ := h.of_done
    exact .response parsed (.clear first)
  | macros first =>
    obtain ⟨rfl, rfl, rfl⟩ := (Runs.of_look h).of_done
    exact .response parsed (.macros first)
  | registered other =>
    obtain ⟨rfl, its⟩ := responds_of_runs_dispatch bodies line.strip other h
    exact .response parsed its

/-- Every run of a line is told by what its lines come to. -/
theorem answers_of_runs (bodies : commands.Only LeavesLogs) {left : Nat}
    (h : (run commands left line).Runs recordedBetween m e t log) :
    Answers commands left line m e t log := by
  -- The steps of a macro run with one level less, from whatever the steps before have left.
  induction left using Nat.strongRecOn generalizing line m e t log with
  | ind left ih =>
    rw [run_eq] at h
    unfold runLine at h
    split at h
    · rename_i unparsed
      obtain ⟨rfl, rfl, rfl⟩ := h.of_done
      refine .blank ?_
      rw [← Text.strip_strip]
      exact (Invocation.ofLine?_eq_none_iff _).1 unparsed
    · rename_i invocation parsed
      obtain ⟨rest, answers, rfl⟩ := Runs.of_keep (Runs.of_look h)
      rw [recordedBetween_record, List.singleton_append]
      refine answers_of_runs_answer bodies ?_ parsed answers
      rintro n rfl line m e t log steps
      exact ih n (Nat.lt_succ_self n) steps

end Runs

/-! ## What breaks a line off -/

/-- The response to a recorded line is no result. -/
def Breaks (commands : CommandSet η) (r : Recorded η) (cause : Escape) (t : Memory η) : Prop :=
  ∃ invocation, Invocation.ofLine? r.line = some invocation ∧
    Responds commands r.line invocation r.memory (.escaped cause) t

mutual

/-- What breaks off a line is the response to the last line that has been recorded. -/
theorem exists_breaks_of_answers {left : Nat} {line : Text} {m t : Memory η}
    {e : Ending Escape Result} {log : List (Recorded η)} {cause : Escape} :
    Answers commands left line m e t log → e = .escaped cause →
      ∃ before last, log = before ++ [last] ∧ Breaks commands last cause t
  | .blank _, ends => by cases ends
  | .tooDeep .., ends => by cases ends
  | .replayed .., ends => by cases ends
  | .response parsed its, ends => ⟨[], _, rfl, _, parsed, ends ▸ its⟩
  | .broken _ _ _ all, ends => by
    obtain ⟨before, last, parts, breaks⟩ := exists_breaks_of_answersAll all (by cases ends; rfl)
    exact ⟨_ :: before, last, congrArg _ parts, breaks⟩

theorem exists_breaks_of_answersAll {left : Nat} {steps : List Text} {m t : Memory η}
    {e : Ending Escape (List Result)} {log : List (Recorded η)} {cause : Escape} :
    AnswersAll commands left steps m e t log → e = .escaped cause →
      ∃ before last, log = before ++ [last] ∧ Breaks commands last cause t
  | .nil, ends => by cases ends
  | .cons _ others, ends => by
    obtain ⟨before, last, parts, breaks⟩ :=
      exists_breaks_of_answersAll others (Ending.eq_escaped_of_map ends)
    exact ⟨_ ++ before, last, by rw [parts, List.append_assoc], breaks⟩
  | .broken one, ends => exists_breaks_of_answers one (by cases ends; rfl)

end

/-! ## What breaks nothing off -/

theorem KeepsName.refl (m : Memory η) : KeepsName m m := id

theorem KeepsName.trans (m t u : Memory η) (h : KeepsName m t) (h' : KeepsName t u) :
    KeepsName m u :=
  h' ∘ h

/-- Every response is a result if no body breaks off and the store can name the key of the book. -/
theorem Responds.exists_done (unbroken : commands.Unbroken) (keeps : commands.Only KeepsName)
    {line : Text} {invocation : Invocation} {m t : Memory η} {e : Ending Escape Result}
    (h : Responds commands line invocation m e t) (named : m.macros.Named) :
    (∃ result, e = .done result) ∧ t.macros.Named := by
  cases h with
  | notFound | usage | history | clear | macros | unresolved | denied => exact ⟨⟨_, rfl⟩, named⟩
  | defined | unsaved => exact ⟨⟨_, rfl⟩, named.inscribe _ _ _⟩
  | @unnamed name steps some_step fault _ _ taken other =>
    have here : (withMacro m name steps some_step).Named := named
    rw [here.isSystem taken] at other
    cases other
  | answered _ _ _ body =>
    exact ⟨⟨_, rfl⟩, body.only KeepsName.refl KeepsName.trans (keeps _ _ _ _) named⟩
  | @aborted d _ _ _ _ _ body =>
    obtain ⟨_, impossible⟩ := body.exists_done (unbroken d invocation m.user)
    cases impossible

mutual

/-- Every line has a result if no body breaks off and the store can name the key of the book. -/
theorem exists_done_of_answers (unbroken : commands.Unbroken) (keeps : commands.Only KeepsName)
    {left : Nat} {line : Text} {m t : Memory η} {e : Ending Escape Result}
    {log : List (Recorded η)} :
    Answers commands left line m e t log → m.macros.Named →
      (∃ result, e = .done result) ∧ t.macros.Named
  | .blank _, named => ⟨⟨_, rfl⟩, named⟩
  | .tooDeep .., named => ⟨⟨_, rfl⟩, named⟩
  | .response _ its, named => its.exists_done unbroken keeps named
  | .replayed _ _ _ all, named =>
    ⟨⟨_, rfl⟩, (exists_done_of_answersAll unbroken keeps all named).2⟩
  | .broken _ _ _ all, named => by
    obtain ⟨⟨_, impossible⟩, -⟩ := exists_done_of_answersAll unbroken keeps all named
    cases impossible

theorem exists_done_of_answersAll (unbroken : commands.Unbroken) (keeps : commands.Only KeepsName)
    {left : Nat} {steps : List Text} {m t : Memory η} {e : Ending Escape (List Result)}
    {log : List (Recorded η)} :
    AnswersAll commands left steps m e t log → m.macros.Named →
      (∃ results, e = .done results) ∧ t.macros.Named
  | .nil, named => ⟨⟨_, rfl⟩, named⟩
  | .cons one others, named => by
    have between := (exists_done_of_answers unbroken keeps one named).2
    obtain ⟨⟨results, rfl⟩, after⟩ := exists_done_of_answersAll unbroken keeps others between
    exact ⟨⟨_, rfl⟩, after⟩
  | .broken one, named => by
    obtain ⟨⟨_, impossible⟩, -⟩ := exists_done_of_answers unbroken keeps one named
    cases impossible

end

end Interpreter

end GatedConsole
