import GatedConsole.Proofs.Interpreter.Moves
import GatedConsole.Proofs.Session.Journal
import GatedConsole.Proofs.Task.Runs
import GatedConsole.Proofs.Text.Words

/-!
The course of a line: itself, and behind it the courses of the steps of the macro that it calls.
Main statement: the lines that a run records are the course of its line, taken from the macro book
as it is whenever a line is recorded, and the run goes to its end unless a write of the book breaks
it off.
-/

set_option autoImplicit false
set_option relaxedAutoImplicit false

namespace GatedConsole

variable {η : Type}

/-- The steps of the macro that a recorded line calls, as they were stored then. -/
def Recorded.called? (r : Recorded η) : Option (List Text) :=
  ((r.line.words.head?).bind (·.behind? Interpreter.macroMark)).bind r.memory.macros.book.get?

/-- What breaks off the run at a recorded line: the store cannot take the book that the line makes,
and it is not the system that refuses it. -/
def Recorded.breach? (r : Recorded η) : Option Files.Fault :=
  match Interpreter.write? r.line r.memory with
  | some (.error fault) => if fault.isSystem then none else some fault
  | _ => none

mutual

/-- What a line records when macros may still be nested `left` deep, and what has broken it off. -/
inductive Course : (left : Nat) → Text → Option Files.Fault → List (Recorded η) → Prop
  | blank {left : Nat} {line : Text} (h : line.strip = []) : Course left line none []
  | single {left : Nat} {line : Text} (h : line.strip ≠ []) (r : Recorded η)
      (its_line : r.line = line.strip) (alone : left = 0 ∨ r.called? = none) :
      Course left line r.breach? [r]
  | replay {left : Nat} {line : Text} (h : line.strip ≠ []) (r : Recorded η)
      (its_line : r.line = line.strip) {steps : List Text} (called : r.called? = some steps)
      {breach : Option Files.Fault} {log : List (Recorded η)}
      (rest : Courses left steps breach log) : Course (left + 1) line breach (r :: log)

/-- What the steps of a macro record one after the other. -/
inductive Courses : (left : Nat) → List Text → Option Files.Fault → List (Recorded η) → Prop
  | nil {left : Nat} : Courses left [] none []
  | cons {left : Nat} {step : Text} {steps : List Text} {breach : Option Files.Fault}
      {first rest : List (Recorded η)} (whole : Course left step none first)
      (others : Courses left steps breach rest) :
      Courses left (step :: steps) breach (first ++ rest)
  | broken {left : Nat} {step : Text} {steps : List Text} {fault : Files.Fault}
      {first : List (Recorded η)} (part : Course left step (some fault) first) :
      Courses left (step :: steps) (some fault) first

end

mutual

/-- Whatever breaks off a course does so at one of its lines. -/
theorem exists_breach_of_course {left : Nat} {line : Text} {breach : Option Files.Fault}
    {log : List (Recorded η)} :
    Course left line breach log → breach ≠ none → ∃ r ∈ log, r.breach? = breach
  | .blank _, broken => absurd rfl broken
  | .single _ r _ _, _ => ⟨r, List.mem_singleton.2 rfl, rfl⟩
  | .replay _ r _ _ rest, broken => by
    obtain ⟨r', mem, its_breach⟩ := exists_breach_of_courses rest broken
    exact ⟨r', List.mem_cons_of_mem r mem, its_breach⟩

theorem exists_breach_of_courses {left : Nat} {steps : List Text} {breach : Option Files.Fault}
    {log : List (Recorded η)} :
    Courses left steps breach log → breach ≠ none → ∃ r ∈ log, r.breach? = breach
  | .nil, broken => absurd rfl broken
  | .cons _ others, broken => by
    obtain ⟨r, mem, its_breach⟩ := exists_breach_of_courses others broken
    exact ⟨r, List.mem_append_right _ mem, its_breach⟩
  | .broken part, broken => exists_breach_of_course part broken

end

/-- How a run ends: with a value, or with the fault that has broken it off. -/
def EndsBy {α : Type} (breach : Option Files.Fault) (e : Ending Escape α) : Prop :=
  match breach with
  | none => ∃ a, e = .done a
  | some fault => e = .escaped (.store fault)

theorem EndsBy.of_done {α : Type} {breach : Option Files.Fault} {a : α}
    (h : EndsBy breach (.done a)) : breach = none := by
  cases breach with
  | none => rfl
  | some fault => cases h

theorem EndsBy.of_escaped {α : Type} {breach : Option Files.Fault} {cause : Escape}
    (h : EndsBy breach (.escaped cause : Ending Escape α)) :
    ∃ fault, breach = some fault ∧ cause = .store fault := by
  cases breach with
  | none =>
    obtain ⟨_, impossible⟩ := h
    cases impossible
  | some fault =>
    cases h
    exact ⟨fault, rfl, rfl⟩

/-- The bodies never break off. -/
def CommandSet.Unbroken (commands : CommandSet η) : Prop :=
  ∀ d invocation user, (commands.body d invocation user).Unbroken

namespace Interpreter

open Program

variable {commands : CommandSet η} {m t : Memory η} {log : List (Recorded η)}
  {e : Ending Escape Result}

theorem breach?_eq_none {r : Recorded η} (h : definedBy? r.line = none) : r.breach? = none := by
  have unasked : write? r.line r.memory = none := Option.map_eq_none_iff.2 h
  rw [Recorded.breach?, unasked]

theorem called?_eq {line : Text} {invocation : Invocation}
    (parsed : Invocation.ofLine? line = some invocation) (m : Memory η) :
    (⟨line, m⟩ : Recorded η).called? =
      (invocation.command.behind? macroMark).bind m.macros.book.get? := by
  rw [Recorded.called?, head?_words_of_ofLine? parsed, Option.bind_some]

/-- A definition records nothing but its own line, and breaks off where its write does. -/
theorem runs_defineMacro {line : Text} (r : Recorded η) (its_line : r.line = line)
    (first : line.words.head? = some defineWord) (its_macros : r.memory.macros = m.macros)
    (h : (defineMacro line).Runs recordedBetween m e t log) :
    log = [] ∧ EndsBy r.breach? e := by
  have asked : definedBy? r.line = definition? line := by rw [definedBy?, its_line, if_pos first]
  unfold defineMacro at h
  split at h
  · rename_i nothing
    obtain ⟨rfl, -, rfl⟩ := h.of_done
    rw [breach?_eq_none (asked.trans nothing)]
    exact ⟨rfl, _, rfl⟩
  · rename_i name steps some_step parts
    obtain ⟨rest, answers, rfl⟩ := Runs.of_keep (Runs.of_look h)
    have silent : recordedBetween m { m with
        macros := (m.macros.inscribe name steps some_step).1 } = [] := recordedBetween_eq_nil rfl
    have written : write? r.line r.memory = some ({ m.macros with
        book := m.macros.book.define name steps some_step } : Macros).written := by
      rw [write?, asked, parts, its_macros]
      rfl
    dsimp only [Program.bind] at answers
    cases taken : ({ m.macros with
        book := m.macros.book.define name steps some_step } : Macros).written with
    | ok =>
      rw [show (m.macros.inscribe name steps some_step).2 = .ok true from
        (Macros.save_of_written taken).1] at answers
      obtain ⟨rfl, -, rfl⟩ := answers.of_done
      rw [Recorded.breach?, written, taken]
      exact ⟨by simpa using silent, _, rfl⟩
    | error fault =>
      rw [show (m.macros.inscribe name steps some_step).2 = _ from
        congrArg Prod.snd (Macros.save_of_not_written taken)] at answers
      rw [Recorded.breach?, written, taken]
      dsimp only
      by_cases system : fault.isSystem
      · rw [if_pos system] at answers ⊢
        obtain ⟨rfl, -, rfl⟩ := answers.of_done
        exact ⟨by simpa using silent, _, rfl⟩
      · rw [if_neg system] at answers ⊢
        cases answers
        exact ⟨by simpa using silent, rfl⟩

/-- A registered command records nothing but its own line, whether it is found, allowed, and goes
well or not. -/
theorem runs_dispatch (bodies : commands.Only LeavesLogs) (unbroken : commands.Unbroken)
    {invocation : Invocation} (h : (dispatch commands invocation).Runs recordedBetween m e t log) :
    log = [] ∧ EndsBy none e := by
  have h := Runs.of_look h
  dsimp only [Program.bind] at h
  split at h
  · obtain ⟨rfl, -, rfl⟩ := h.of_done
    exact ⟨rfl, _, rfl⟩
  · rename_i d _
    split at h
    · obtain ⟨rest, called, rfl⟩ := Runs.of_keep (Runs.of_look h)
      have called : ((commands.body d invocation m.user).bind fun outcome =>
          .done outcome.toResult).Runs recordedBetween _ e t rest := called
      obtain ⟨outcome, t', first, last, body, ends, rfl⟩ | ⟨cause, -, body⟩ := called.of_bind
      · obtain ⟨rfl, -, rfl⟩ := ends.of_done
        have quiet := body.log_eq_nil (fun _ _ h => recordedBetween_eq_nil h.1)
          (bodies d invocation m.user _)
        rw [quiet, List.append_nil, List.append_nil]
        exact ⟨recordedBetween_eq_nil rfl, _, rfl⟩
      · obtain ⟨_, impossible⟩ := body.exists_done (unbroken d invocation m.user)
        cases impossible
    · obtain ⟨rfl, -, rfl⟩ := h.of_done
      exact ⟨rfl, _, rfl⟩

/-- The steps of a macro record their courses one after the other. -/
theorem courses_of_runs {left : Nat} {run : Text → Work η Result}
    (runs : ∀ line m e t log, (run line).Runs recordedBetween m e t log →
      ∃ breach, Course left line breach log ∧ EndsBy breach e)
    {steps : List Text} {e : Ending Escape (List Result)}
    (h : (forEach run steps).Runs recordedBetween m e t log) :
    ∃ breach, Courses left steps breach log ∧ EndsBy breach e := by
  induction steps generalizing m t e log with
  | nil =>
    obtain ⟨rfl, -, rfl⟩ := h.of_done
    exact ⟨none, .nil, _, rfl⟩
  | cons step steps ih =>
    have both : ((run step).bind fun result =>
        (forEach run steps).bind fun results => .done (result :: results)).Runs
          recordedBetween m e t log := h
    obtain ⟨result, t', first, rest, one, others, rfl⟩ | ⟨cause, rfl, one⟩ := both.of_bind
    · obtain ⟨breach, whole, ends⟩ := runs _ _ _ _ _ one
      obtain rfl := ends.of_done
      obtain ⟨results, t'', between, last, all, ends, rfl⟩ | ⟨cause, rfl, all⟩ := others.of_bind
      · obtain ⟨rfl, -, rfl⟩ := ends.of_done
        obtain ⟨breach, courses, ends⟩ := ih all
        obtain rfl := ends.of_done
        rw [List.append_nil]
        exact ⟨none, .cons whole courses, _, rfl⟩
      · obtain ⟨breach, courses, ends⟩ := ih all
        obtain ⟨fault, rfl, rfl⟩ := ends.of_escaped
        exact ⟨some fault, .cons whole courses, rfl⟩
    · obtain ⟨breach, part, ends⟩ := runs _ _ _ _ _ one
      obtain ⟨fault, rfl, rfl⟩ := ends.of_escaped
      exact ⟨some fault, .broken part, rfl⟩

/-- Behind a recorded line come the courses of the steps that it calls, if macros may still be
nested, and nothing otherwise. -/
theorem course_of_runs_answer (bodies : commands.Only LeavesLogs) (unbroken : commands.Unbroken)
    {left : Nat} {runStep : Option (Text → Work η Result)} (deep : runStep = none ↔ left = 0)
    (runs : ∀ run, runStep = some run → ∀ line m e t log,
      (run line).Runs recordedBetween m e t log →
        ∃ breach, Course (left - 1) line breach log ∧ EndsBy breach e)
    {line : Text} (some_line : line.strip ≠ []) {invocation : Invocation}
    (parsed : Invocation.ofLine? line.strip = some invocation)
    (h : (answer commands runStep line.strip invocation).Runs recordedBetween m e t log) :
    ∃ breach, Course left line breach (⟨line.strip, m⟩ :: log) ∧ EndsBy breach e := by
  have called := called?_eq parsed m
  unfold answer at h
  split at h
  · rename_i name marked
    rw [marked, Option.bind_some] at called
    have undefined : definedBy? line.strip = none := by
      apply definedBy?_eq_none parsed
      intro same
      have plain : defineWord.behind? macroMark = none := by decide
      rw [same, plain] at marked
      cases marked
    have whole : (⟨line.strip, m⟩ : Recorded η).breach? = none := breach?_eq_none undefined
    have h := Runs.of_look h
    dsimp only [Program.bind] at h
    split at h
    · rename_i unknown
      obtain ⟨rfl, -, rfl⟩ := h.of_done
      exact ⟨_, .single some_line _ rfl (.inr (called.trans unknown)), whole ▸ ⟨_, rfl⟩⟩
    · rename_i steps known
      cases runStep with
      | none =>
        obtain ⟨rfl, -, rfl⟩ := h.of_done
        exact ⟨_, .single some_line _ rfl (.inl (deep.1 rfl)), whole ▸ ⟨_, rfl⟩⟩
      | some run =>
        obtain ⟨left, rfl⟩ : ∃ n, left = n + 1 :=
          Nat.exists_eq_succ_of_ne_zero fun none => nomatch deep.2 none
        have replays : ((forEach run steps).bind fun results =>
            .done (report name (steps.zip results))).Runs recordedBetween m e t log := h
        obtain ⟨results, t', first, last, all, ends, rfl⟩ | ⟨cause, rfl, all⟩ := replays.of_bind
        · obtain ⟨rfl, -, rfl⟩ := ends.of_done
          obtain ⟨breach, courses, ends⟩ := courses_of_runs (runs run rfl) all
          obtain rfl := ends.of_done
          rw [List.append_nil]
          exact ⟨none, .replay some_line _ rfl (called.trans known) courses, _, rfl⟩
        · obtain ⟨breach, courses, ends⟩ := courses_of_runs (runs run rfl) all
          obtain ⟨fault, rfl, rfl⟩ := ends.of_escaped
          exact ⟨some fault, .replay some_line _ rfl (called.trans known) courses, rfl⟩
  · rename_i unmarked
    rw [unmarked, Option.bind_none] at called
    split at h
    · rename_i first
      have word : line.strip.words.head? = some defineWord := by
        rw [head?_words_of_ofLine? parsed, first]
      obtain ⟨rfl, ends⟩ := runs_defineMacro ⟨line.strip, m⟩ rfl word rfl h
      exact ⟨_, .single some_line _ rfl (.inr called), ends⟩
    · rename_i other
      have whole : (⟨line.strip, m⟩ : Recorded η).breach? = none :=
        breach?_eq_none (definedBy?_eq_none parsed other)
      suffices log = [] ∧ EndsBy none e by
        obtain ⟨rfl, ends⟩ := this
        exact ⟨_, .single some_line _ rfl (.inr called), whole ▸ ends⟩
      split at h
      · obtain ⟨rfl, -, rfl⟩ := (Runs.of_look h).of_done
        exact ⟨rfl, _, rfl⟩
      · split at h
        · obtain ⟨rfl, -, rfl⟩ := h.of_done
          exact ⟨rfl, _, rfl⟩
        · split at h
          · obtain ⟨rfl, -, rfl⟩ := (Runs.of_look h).of_done
            exact ⟨rfl, _, rfl⟩
          · exact runs_dispatch bodies unbroken h

theorem course_of_runs_runLine (bodies : commands.Only LeavesLogs) (unbroken : commands.Unbroken)
    {left : Nat} {runStep : Option (Text → Work η Result)} (deep : runStep = none ↔ left = 0)
    (runs : ∀ run, runStep = some run → ∀ line m e t log,
      (run line).Runs recordedBetween m e t log →
        ∃ breach, Course (left - 1) line breach log ∧ EndsBy breach e)
    {line : Text} (h : (runLine commands runStep line).Runs recordedBetween m e t log) :
    ∃ breach, Course left line breach log ∧ EndsBy breach e := by
  unfold runLine at h
  split at h
  · rename_i unparsed
    obtain ⟨rfl, -, rfl⟩ := h.of_done
    have blank : line.strip = [] := by
      rw [← Text.strip_strip]
      exact (Invocation.ofLine?_eq_none_iff _).1 unparsed
    exact ⟨none, .blank blank, _, rfl⟩
  · rename_i invocation parsed
    have some_line : line.strip ≠ [] := by
      intro nothing
      rw [nothing] at parsed
      cases parsed
    obtain ⟨rest, answers, rfl⟩ := Runs.of_keep (Runs.of_look h)
    rw [recordedBetween_record, List.singleton_append]
    exact course_of_runs_answer bodies unbroken deep runs some_line parsed answers

/-- The lines that a run records are the course of its line. -/
theorem course_of_runs (bodies : commands.Only LeavesLogs) (unbroken : commands.Unbroken)
    {left : Nat} {line : Text} (h : (run commands left line).Runs recordedBetween m e t log) :
    ∃ breach, Course left line breach log ∧ EndsBy breach e := by
  -- The steps of a macro run with one level less, from whatever the steps before have left.
  induction left generalizing line m e t log with
  | zero => exact course_of_runs_runLine bodies unbroken (by simp) (fun _ none => by cases none) h
  | succ left ih =>
    refine course_of_runs_runLine bodies unbroken (by simp) ?_ h
    intro run same line m e t log steps
    rw [← Option.some.inj same] at steps
    exact ih steps

/-! ## Listings -/

theorem one_le_of_historyLimit? {flags : Keyed Text Flag} {limit : Int}
    (h : historyLimit? flags = some limit) : 1 ≤ limit := by
  unfold historyLimit? at h
  split at h
  · split at h
    · split at h
      · cases h
      · rename_i positive
        rw [← Option.some.inj h]
        omega
    · cases h
  · rw [← Option.some.inj h]
    decide

theorem getLast?_showHistory (h : History) (line : Text) {flags : Keyed Text Flag} {limit : Int}
    (some_limit : historyLimit? flags = some limit) :
    (showHistory (h.append line) flags).success = true ∧
      (showHistory (h.append line) flags).output.getLast? =
        some (historyLine (h.total + 1, line)) := by
  have last := h.getLast?_recent_append line (one_le_of_historyLimit? some_limit)
  rw [showHistory, some_limit]
  refine ⟨rfl, ?_⟩
  change (_ :: ((h.append line).recent limit).map historyLine).getLast? = _
  rw [List.getLast?_cons, List.getLast?_map, last]
  rfl

/-- A line that asks for the history lists itself last. -/
theorem reaches_run_history (commands : CommandSet η) (left : Nat) {line : Text} (m : Memory η)
    {invocation : Invocation} (parsed : Invocation.ofLine? line.strip = some invocation)
    (command : invocation.command = historyWord) {limit : Int}
    (some_limit : historyLimit? invocation.flags = some limit) :
    ∃ result, (run commands left line).Reaches m (.done result) (record line.strip m) ∧
      result.success = true ∧
        result.output.getLast? = some (historyLine (m.history.total + 1, line.strip)) := by
  have shown := getLast?_showHistory m.history line.strip some_limit
  suffices ∀ runStep, (runLine commands runStep line).Reaches m
      (.done (showHistory (m.history.append line.strip) invocation.flags))
        (record line.strip m) by
    cases left with
    | zero => exact ⟨_, this none, shown⟩
    | succ left => exact ⟨_, this (some (run commands left)), shown⟩
  intro runStep
  have unmarked : historyWord.behind? macroMark = none := by decide
  have other : historyWord ≠ defineWord := by decide
  have answers : answer commands runStep line.strip invocation =
      .look fun m => .done (showHistory m.history invocation.flags) := by
    rw [answer, command, unmarked]
    dsimp only
    rw [if_neg other, if_pos rfl]
    rfl
  unfold runLine
  rw [parsed]
  dsimp only
  rw [answers]
  exact .look (.keep (.look (.here _ _)))

end Interpreter

/-! ## Sessions -/

namespace Session

open Interpreter Program

/-- Lines executed one after the other: what each of them answers and records. -/
inductive Executed : List Text → List Reply → List (Recorded Desk) → Prop
  | nil : Executed [] [] []
  | cons {line : Text} {lines : List Text} {replies : List Reply} {breach : Option Files.Fault}
      {e : Ending Escape Result} {first rest : List (Recorded Desk)}
      (course : Course depthBound line breach first) (ends : EndsBy breach e)
      (others : Executed lines replies rest) :
      Executed (line :: lines) (.ofEnding (e.map .result) :: replies) (first ++ rest)

/-- Without a breach the lines that are recorded are those of all courses, as of the steps of a
macro that nothing encloses. -/
theorem Executed.courses {lines : List Text} {replies : List Reply} {log : List (Recorded Desk)}
    (h : Executed lines replies log) (whole : ∀ r ∈ log, r.breach? = none) :
    Courses depthBound lines none log := by
  induction h with
  | nil => exact .nil
  | @cons _ _ _ breach _ _ _ course _ _ ih =>
    cases breach with
    | none => exact .cons course (ih fun r mem => whole r (List.mem_append_right _ mem))
    | some fault =>
      obtain ⟨r, mem, its_breach⟩ := exists_breach_of_course course (by nofun)
      rw [whole r (List.mem_append_left _ mem)] at its_breach
      cases its_breach

/-- Executing a line does what the run of the line does. -/
theorem take_execute {commands : CommandSet Desk} {line : Text} {s t : Session}
    {e : Ending Escape Result} {log : List (Recorded Desk)}
    (h : (run commands depthBound line).Runs recordedBetween s e t log) :
    take commands s (.execute line) = (.ofEnding (e.map .result), t) ∧
      Loop.log recordedBetween (program commands (.execute line)) s = log := by
  have locked : program commands (.execute line) =
      Reply.result <$> (run commands depthBound line).underLock := by
    rw [program, work]
    rfl
  refine ⟨?_, ?_⟩
  · rw [take, locked, Loop.run_underLock h]
  · rw [locked, Loop.log_underLock h]

theorem executed_takeAll {commands : CommandSet Desk} (bodies : commands.Only LeavesLogs)
    (solitary : commands.Solitary) (unbroken : commands.Unbroken) (s : Session)
    (lines : List Text) :
    Executed lines (takeAll commands s (lines.map .execute)).1
      (trace commands s (lines.map .execute)) := by
  induction lines generalizing s with
  | nil => exact .nil
  | cons line lines ih =>
    obtain ⟨e, t, log, runs⟩ :=
      (solitary_run solitary depthBound line).exists_runs recordedBetween s
    obtain ⟨breach, course, ends⟩ := course_of_runs bodies unbroken runs
    obtain ⟨taken, logged⟩ := take_execute runs
    rw [List.map_cons, takeAll, trace, taken, logged]
    exact .cons course ends (ih t)

/-- What was recorded agrees with the history, and did so whenever a line was recorded. -/
structure Chronology (s : Session) (now : Session × List (Recorded Desk)) : Prop where
  history : now.1.history = now.2.foldl (fun h r => h.append r.line) s.history
  instants : ∀ before r after, now.2 = before ++ r :: after →
    r.line ≠ [] ∧ r.line.strip = r.line ∧
      r.memory.history = (before ++ [r]).foldl (fun h r => h.append r.line) s.history

theorem keptByLines_chronology (registry : Registry) (s : Session) :
    KeptByLines registry (Chronology s) := by
  intro m log line some_line now
  have grown : (record line.strip m).history =
      (log ++ [(⟨line.strip, record line.strip m⟩ : Recorded Desk)]).foldl
        (fun h r => h.append r.line) s.history := by
    rw [List.foldl_append, ← now.history]
    rfl
  refine ⟨?_, ?_⟩
  · rw [history_respond]
    exact grown
  · intro before r after parts
    rcases cut_of_append_singleton parts with ⟨rfl, rfl, -⟩ | ⟨rest, -, earlier⟩
    · exact ⟨some_line, Text.strip_strip line, grown⟩
    · exact now.instants before r rest earlier

theorem stable_chronology (s : Session) : Stable LeavesLogs (Chronology s) where
  asides _ _ h := h.leavesLogs
  silent _ _ h := h.1
  keeps _ _ _ h now := ⟨h.1.trans now.history, now.instants⟩

theorem takeAll_chronology {commands : CommandSet Desk} (bodies : commands.Only LeavesLogs)
    (s : Session) (steps : List Step) :
    Chronology s ((takeAll commands s steps).2, trace commands s steps) := by
  apply takeAll_kept (stable_chronology s) (keptByLines_chronology commands.registry s) bodies
    (allWithin_leavesLogs steps)
  refine ⟨rfl, ?_⟩
  intro before r after parts
  simp at parts

/-- After lines have been executed the total has grown by what they recorded, and the retained lines
are the last of the old and the new ones. Every recorded line is stripped, not blank, and already
the last of the history when it is about to be answered, so that a listing shows itself last. What
each line recorded is its course, which goes to its end unless the store could not take a book. -/
theorem history_takeAll_execute (commands : CommandSet Desk) (bodies : commands.Only LeavesLogs)
    (solitary : commands.Solitary) (unbroken : commands.Unbroken) (s : Session)
    (lines : List Text) :
    (takeAll commands s (lines.map .execute)).2.history.total =
        s.history.total + (trace commands s (lines.map .execute)).length ∧
      (takeAll commands s (lines.map .execute)).2.history.entries =
        (s.history.entries ++ (trace commands s (lines.map .execute)).map (·.line)).rtake
          s.history.capacity ∧
      (∀ before r after, trace commands s (lines.map .execute) = before ++ r :: after →
        r.line ≠ [] ∧ r.line.strip = r.line ∧
          r.memory.history.total = s.history.total + before.length + 1 ∧
          r.memory.history.entries =
            (s.history.entries ++ before.map (·.line) ++ [r.line]).rtake s.history.capacity) ∧
      Executed lines (takeAll commands s (lines.map .execute)).1
        (trace commands s (lines.map .execute)) ∧
      ((∀ r ∈ trace commands s (lines.map .execute), r.breach? = none) →
        Courses depthBound lines none (trace commands s (lines.map .execute))) ∧
      ∀ (left : Nat) (line : Text) (m : Session) (invocation : Invocation) (limit : Int),
        Invocation.ofLine? line.strip = some invocation → invocation.command = historyWord →
          historyLimit? invocation.flags = some limit →
            ∃ result, (run commands left line).Reaches m (.done result) (record line.strip m) ∧
              result.success = true ∧
                result.output.getLast? =
                  some (historyLine (m.history.total + 1, line.strip)) := by
  have chronology := takeAll_chronology bodies s (lines.map .execute)
  have executed := executed_takeAll bodies solitary unbroken s lines
  have grown (log : List (Recorded Desk)) :
      log.foldl (fun h r => h.append r.line) s.history =
        (log.map (·.line)).foldl History.append s.history := List.foldl_map.symm
  refine ⟨?_, ?_, ?_, executed, executed.courses, ?_⟩
  · rw [chronology.history, grown, History.total_foldl, List.length_map]
  · rw [chronology.history, grown, History.entries_foldl]
  · intro before r after parts
    obtain ⟨some_line, stripped, history⟩ := chronology.instants before r after parts
    rw [history, grown]
    refine ⟨some_line, stripped, ?_, ?_⟩
    · rw [History.total_foldl, List.length_map, List.length_append, List.length_singleton]
      rfl
    · rw [History.entries_foldl, List.map_append, List.append_assoc]
      rfl
  · intro left line m invocation limit parsed command some_limit
    exact reaches_run_history commands left m parsed command some_limit

/-- A session whose store cannot write: the key of its book is no name of a file. -/
def nulSession : Session :=
  .ofUser { username := "tester" }
    ⟨MacroBook.empty.define "m" ["define.macro x y", "look"] (by decide),
      ⟨.files (.ofText "data") (Files.Tree.empty.put [.ofText "data"] .directory), false⟩, "a\x00b"⟩
    .ofDefaultCapacity

/-- The definition in the macro breaks it off, and what stands behind it is not recorded. -/
theorem history_takeAll_execute_nul :
    watchCommands.Only LeavesLogs ∧ watchCommands.Solitary ∧ watchCommands.Unbroken ∧
      (trace watchCommands nulSession [.execute "macro.m"]).map (·.line) =
        [Text.ofString "macro.m", Text.ofString "define.macro x y"] := by
  have bodies : watchCommands.Only LeavesLogs := fun _ _ _ _ _ _ => trivial
  have solitary : watchCommands.Solitary := fun _ _ _ => trivial
  have unbroken : watchCommands.Unbroken := fun _ _ _ => trivial
  refine ⟨bodies, solitary, unbroken, ?_⟩
  have still : (Loop.turns 40 (Loop.start (program watchCommands (.execute "macro.m")) false
      nulSession)).turn = none := rfl
  have after : (takeAll watchCommands nulSession [.execute "macro.m"]).2.history =
      (nulSession.history.append "macro.m").append "define.macro x y" := by
    change (Loop.start (program watchCommands (.execute "macro.m")) false
      nulSession).rest.floor.state.history = _
    rw [Loop.rest_eq_turns still]
    rfl
  obtain ⟨total, entries, -⟩ :=
    history_takeAll_execute watchCommands bodies solitary unbroken nulSession ["macro.m"]
  have two : 2 = 0 + (trace watchCommands nulSession [.execute "macro.m"]).length := by
    rw [List.map_singleton, after] at total
    exact total
  have within : ((trace watchCommands nulSession [.execute "macro.m"]).map (·.line)).length ≤
      History.defaultCapacity := by
    rw [List.length_map, ← Nat.zero_add (trace _ _ _).length, ← two]
    decide
  rw [List.map_singleton, after] at entries
  exact (entries.trans (History.rtake_of_length_le within)).symm

end Session

end GatedConsole
