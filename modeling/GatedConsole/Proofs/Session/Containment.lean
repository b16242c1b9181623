import GatedConsole.Proofs.Interpreter.Answers

/-!
Lines executed one after the other on one floor, whatever becomes of them. Main statement: every
line comes to an end and leaves the lock free, a line that breaks off as well as one with a result,
and the next line is answered as from the session that it finds. A line has a result if no body
breaks off and the store can name the key of the macro book.
-/

set_option autoImplicit false
set_option relaxedAutoImplicit false

namespace GatedConsole

/-- The next program, on the floor that another one has left. -/
def Loop.next {ε σ α : Type} (p : Program ε σ α) (floor : Floor σ) : Loop ε σ α :=
  ⟨.running p, floor.queue [.resume []]⟩

namespace Session

open Interpreter Program

variable {commands : CommandSet Desk}

/-- Executes lines one after the other: how each of them ends, and the floor behind the last. -/
def executeAll (commands : CommandSet Desk) (floor : Floor Session) :
    List Text → List (Ending Escape Reply) × Floor Session
  | [] => ([], floor)
  | line :: lines =>
    let loop := (Loop.next (program commands (.execute line)) floor).rest
    (loop.root.ending :: (executeAll commands loop.floor lines).1,
      (executeAll commands loop.floor lines).2)

/-- Lines that are answered one after the other, each from the session that the one before leaves,
and what all of them record. -/
inductive Served (commands : CommandSet Desk) :
    List Text → Session → List (Ending Escape Result) → Session → List (Recorded Desk) → Prop
  | nil {s : Session} : Served commands [] s [] s []
  | cons {line : Text} {lines : List Text} {s t u : Session} {e : Ending Escape Result}
      {endings : List (Ending Escape Result)} {first rest : List (Recorded Desk)}
      (one : Answers commands depthBound line s e t first)
      (others : Served commands lines t endings u rest) :
      Served commands (line :: lines) s (e :: endings) u (first ++ rest)

/-- On a free floor a line is run from its session, and leaves a free floor. -/
theorem rest_next_execute {line : Text} {s t : Session} {e : Ending Escape Result}
    {log : List (Recorded Desk)}
    (h : (run commands depthBound line).Runs recordedBetween s e t log) :
    (Loop.next (program commands (.execute line)) { state := s }).rest =
      ⟨.ended (e.map Reply.result), { state := t }⟩ := by
  have locked : program commands (.execute line) =
      Reply.result <$> (run commands depthBound line).underLock := by
    rw [program, work]
    rfl
  rw [locked]
  exact Loop.rest_underLock h Reply.result

/-- What lines come to when they are executed one after the other. -/
structure Serves (commands : CommandSet Desk) (s : Session) (lines : List Text)
    (endings : List (Ending Escape Result)) (t : Session) (log : List (Recorded Desk)) : Prop where
  served : Served commands lines s endings t log
  floor : executeAll commands { state := s } lines =
    (endings.map (·.map Reply.result), { state := t })
  taken : takeAll commands s (lines.map .execute) =
    (endings.map fun e => .ofEnding (e.map Reply.result), t)
  recorded : trace commands s (lines.map .execute) = log

theorem exists_serves (bodies : commands.Only LeavesLogs) (solitary : commands.Solitary)
    (s : Session) (lines : List Text) :
    ∃ endings t log, Serves commands s lines endings t log := by
  induction lines generalizing s with
  | nil => exact ⟨[], s, [], .nil, rfl, rfl, rfl⟩
  | cons line lines ih =>
    obtain ⟨e, t, first, runs⟩ :=
      (solitary_run solitary depthBound line).exists_runs recordedBetween s
    obtain ⟨endings, u, rest, others⟩ := ih t
    obtain ⟨taken, logged⟩ := take_execute runs
    refine ⟨e :: endings, u, first ++ rest, ?_, ?_, ?_, ?_⟩
    · exact .cons (answers_of_runs bodies runs) others.served
    · rw [executeAll, rest_next_execute runs]
      dsimp only
      rw [others.floor]
      rfl
    · rw [List.map_cons, takeAll, taken]
      dsimp only
      rw [others.taken]
      rfl
    · rw [List.map_cons, trace, taken, logged, others.recorded]

theorem Served.exists_done (unbroken : commands.Unbroken) (keeps : commands.Only KeepsName)
    {lines : List Text} {s t : Session} {endings : List (Ending Escape Result)}
    {log : List (Recorded Desk)} (served : Served commands lines s endings t log)
    (named : s.macros.Named) : ∀ e ∈ endings, ∃ result, e = .done result := by
  induction served with
  | nil => exact nofun
  | cons one _ ih =>
    obtain ⟨done, after⟩ := exists_done_of_answers unbroken keeps one named
    exact List.forall_mem_cons.2 ⟨done, ih after⟩

/-- A line that is not blank is an invocation. -/
theorem exists_invocation {line : Text} (some_line : line.strip ≠ []) :
    ∃ invocation, Invocation.ofLine? line.strip = some invocation := by
  refine Option.ne_none_iff_exists'.1 fun unparsed => some_line ?_
  rw [← Text.strip_strip]
  exact (Invocation.ofLine?_eq_none_iff _).1 unparsed

/-- A definition has commands. -/
theorem define_ne_noCommands (macros : Macros) (name : Text)
    (steps : { steps : List Text // steps ≠ [] }) :
    (macros.define name steps.val).2 ≠ .error .noCommands := by
  rw [Macros.define, dif_neg steps.property]
  dsimp only
  cases (macros.inscribe name steps.val steps.property).2 with
  | ok => nofun
  | error fault => nofun

theorem success_toResult_eq_false {outcome : Outcome} (h : ∀ r, outcome ≠ .result r) :
    outcome.toResult.success = false := by
  cases outcome with
  | result r => exact absurd rfl (h r)
  | noResult => rfl
  | fault message => rfl

/-- However many lines are executed one after the other: each comes to an end and leaves the lock
free, with nobody waiting for it, and the next one is answered as from the session that is left.
History and macro book are what all recorded lines make of them. What breaks off a line is the
response to the last line that it recorded, the abort of a body or the fault of a store that cannot
name the key; where there is neither, every line has a result. No line that is not blank fails to be
an invocation, no definition lacks commands, and a body without a result fails by itself. -/
theorem served_executeAll (commands : CommandSet Desk) (bodies : commands.Only LeavesLogs)
    (solitary : commands.Solitary) (s : Session) (lines : List Text) :
    (∃ endings t log, Serves commands s lines endings t log ∧
      t.history = log.foldl (fun h r => h.append r.line) s.history ∧
      (commands.Only LeavesLines →
        t.macros.book.entries = entriesBehind s.macros.book.entries log) ∧
      (commands.Unbroken → commands.Only KeepsName → s.macros.Named →
        ∀ e ∈ endings, ∃ result, e = .done result)) ∧
    (∀ left line (m t : Session) cause log,
      Answers commands left line m (.escaped cause) t log →
        ∃ before last, log = before ++ [last] ∧ Breaks commands last cause t) ∧
    (∀ line : Text, line.strip ≠ [] →
      ∃ invocation, Invocation.ofLine? line.strip = some invocation) ∧
    (∀ line name steps, definition? line = some (name, steps) →
      ∀ macros : Macros, (macros.define name steps.val).2 ≠ .error .noCommands) ∧
    ∀ outcome : Outcome, (∀ r, outcome ≠ .result r) → outcome.toResult.success = false := by
  obtain ⟨endings, t, log, serves⟩ := exists_serves bodies solitary s lines
  have plain : Step.allOnlyLines (lines.map .execute) = true := by
    clear serves
    induction lines with
    | nil => rfl
    | cons line lines ih => exact ih
  refine ⟨⟨endings, t, log, serves, ?_, ?_, ?_⟩, ?_, fun _ => exists_invocation, ?_,
    fun _ => success_toResult_eq_false⟩
  · have chronology := takeAll_chronology bodies s (lines.map .execute)
    rw [serves.taken, serves.recorded] at chronology
    exact chronology.history
  · intro bodies
    have journal := takeAll_journal bodies s plain
    rw [serves.taken, serves.recorded] at journal
    exact journal.book
  · intro unbroken keeps named
    exact serves.served.exists_done unbroken keeps named
  · intro left line m t cause log answers
    exact exists_breaks_of_answers answers rfl
  · intro line name steps _ macros
    exact define_ne_noCommands macros name steps

/-- One command aborts, and the other has no result. -/
def abortCommands : CommandSet Desk where
  registry := watchCommands.registry
  body d _ _ := if d.name = "look" then .escape (.abort "halt") else .done .noResult

/-- A session whose store works on files, and is refused every write. -/
def refusedSession : Session :=
  .ofUser { username := "tester" }
    ⟨.empty, ⟨.files (.ofText "data") (Files.Tree.empty.put [.ofText "data"] .directory), true⟩,
      Macros.defaultKey⟩
    .ofDefaultCapacity

/-- An abort in a macro leaves the lock to the next line, and where writes are refused every line
has a result all the same. The fault of a store that cannot name the key gets out. -/
theorem served_executeAll_abort :
    abortCommands.Only LeavesLogs ∧ abortCommands.Solitary ∧
      (∃ t, executeAll abortCommands { state := watchSession } ["macro.m", "clear"] =
          ([.escaped (.abort "halt"), .done (.result (.ok [clearSequence]))], { state := t }) ∧
        t.history.total = 4) ∧
      watchCommands.Only LeavesLogs ∧ watchCommands.Solitary ∧ watchCommands.Unbroken ∧
      watchCommands.Only KeepsName ∧ refusedSession.macros.Named ∧
      (∀ lines, ∀ e ∈ (executeAll watchCommands { state := refusedSession } lines).1,
        ∃ reply, e = .done reply) ∧
      (executeAll watchCommands { state := nulSession } ["define.macro x look"]).1 =
        [.escaped (.store .nulInPath)] := by
  have aborts : abortCommands.Only LeavesLogs := by
    intro d invocation user m
    change Program.Only LeavesLogs (if d.name = "look" then _ else _) m
    split <;> trivial
  have alone : abortCommands.Solitary := by
    intro d invocation user
    change Program.Solitary (if d.name = "look" then _ else _)
    split <;> trivial
  have bodies : watchCommands.Only LeavesLogs := fun _ _ _ _ _ _ => trivial
  have solitary : watchCommands.Solitary := fun _ _ _ => trivial
  have unbroken : watchCommands.Unbroken := fun _ _ _ => trivial
  have keeps : watchCommands.Only KeepsName := fun _ _ _ _ _ _ => trivial
  have named : refusedSession.macros.Named := ⟨⟨by decide, by decide⟩, by decide⟩
  refine ⟨aborts, alone, ?_, bodies, solitary, unbroken, keeps, named, ?_, ?_⟩
  · have first : (Loop.turns 40 (Loop.next (program abortCommands (.execute "macro.m"))
        { state := watchSession })).turn = none := rfl
    have second : (Loop.turns 40 (Loop.next (program abortCommands (.execute "clear"))
        (Loop.turns 40 (Loop.next (program abortCommands (.execute "macro.m"))
          { state := watchSession })).floor)).turn = none := rfl
    have run : (executeAll abortCommands { state := watchSession } ["macro.m", "clear"]).1 =
          [.escaped (.abort "halt"), .done (.result (.ok [clearSequence]))] ∧
        (executeAll abortCommands { state := watchSession }
          ["macro.m", "clear"]).2.state.history.total = 4 := by
      rw [executeAll, Loop.rest_eq_turns first, executeAll, Loop.rest_eq_turns second]
      exact ⟨rfl, rfl⟩
    obtain ⟨⟨endings, t, log, serves, -⟩, -⟩ :=
      served_executeAll abortCommands aborts alone watchSession ["macro.m", "clear"]
    rw [serves.floor] at run
    refine ⟨t, ?_, run.2⟩
    rw [serves.floor, ← run.1]
  · intro lines e mem
    obtain ⟨⟨endings, t, log, serves, -, -, results⟩, -⟩ :=
      served_executeAll watchCommands bodies solitary refusedSession lines
    rw [serves.floor] at mem
    obtain ⟨ending, among, rfl⟩ := List.mem_map.1 mem
    obtain ⟨result, rfl⟩ := results unbroken keeps named ending among
    exact ⟨_, rfl⟩
  · have still : (Loop.turns 40 (Loop.next (program watchCommands
        (.execute "define.macro x look")) { state := nulSession })).turn = none := rfl
    rw [executeAll, Loop.rest_eq_turns still]
    rfl

end Session

end GatedConsole
