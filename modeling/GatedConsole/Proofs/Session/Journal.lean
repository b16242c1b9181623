import GatedConsole.Proofs.Macro.Keeping
import GatedConsole.Proofs.Session.Authority
import GatedConsole.Proofs.Task.Locked

/-!
What becomes of the macro book and of its stored text. Main statement: the book is the first one
with the definitions of the trace put in, and the store holds the book as it was after the last
definition whose write went well.
-/

set_option autoImplicit false
set_option relaxedAutoImplicit false

namespace GatedConsole

variable {η : Type}

/-! ## Definitions in a trace -/

/-- The name and the commands of a macro that a line defines: at least three words, the first of
which is the word for that. -/
def inscribed? (line : Text) : Option (Text × List Text) :=
  match line.words with
  | first :: name :: command :: commands =>
    if first = Interpreter.defineWord then some (name, command :: commands) else none
  | _ => none

/-- A known name keeps its place and gets the new commands, and a new one comes last. -/
def setEntry (name : Text) (commands : List Text) (entries : List (Text × List Text)) :
    List (Text × List Text) :=
  if name ∈ entries.map (·.1) then
    entries.map fun entry => if entry.1 = name then (name, commands) else entry
  else entries ++ [(name, commands)]

/-- The entries of a book behind the lines of a trace. -/
def entriesBehind (entries : List (Text × List Text)) (trace : List (Recorded η)) :
    List (Text × List Text) :=
  trace.foldl (fun entries r =>
    match inscribed? r.line with
    | some (name, commands) => setEntry name commands entries
    | none => entries) entries

theorem entriesBehind_concat (entries : List (Text × List Text)) (trace : List (Recorded η))
    (r : Recorded η) :
    entriesBehind entries (trace ++ [r]) =
      match inscribed? r.line with
      | some (name, commands) => setEntry name commands (entriesBehind entries trace)
      | none => entriesBehind entries trace := by
  simp only [entriesBehind, List.foldl_append, List.foldl_cons, List.foldl_nil]

theorem put_eq_setEntry {entries : Keyed Text (List Text)} (distinct : (Keyed.keys entries).Nodup)
    (name : Text) (commands : List Text) :
    Keyed.put name commands entries = setEntry name commands entries := by
  induction entries with
  | nil => rfl
  | cons entry entries ih =>
    obtain ⟨fresh, distinct⟩ := List.nodup_cons.1 distinct
    by_cases same : entry.1 = name
    · have others : entries.map (fun entry => if entry.1 = name then (name, commands) else entry) =
          entries := by
        conv => rhs; rw [← List.map_id entries]
        refine List.map_congr_left fun other mem => if_neg ?_
        rintro rfl
        apply fresh
        dsimp only
        rw [same]
        exact List.mem_map_of_mem mem
      simp [Keyed.put, setEntry, same, others]
    · have apart : name ≠ entry.1 := Ne.symm same
      rw [Keyed.put, if_neg same, ih distinct]
      by_cases known : name ∈ entries.map (·.1)
      · simp only [setEntry, known, if_true, List.map_cons, List.mem_cons, or_true, if_neg same]
      · simp only [setEntry, known, if_false, List.map_cons, List.mem_cons, apart, or_self,
          List.cons_append]

theorem entries_define (book : MacroBook) (name : Text) (commands : List Text)
    (h : commands ≠ []) :
    (book.define name commands h).entries = setEntry name commands book.entries :=
  put_eq_setEntry book.nodup_names name commands

namespace Interpreter

theorem inscribed?_eq (line : Text) :
    inscribed? line = (definedBy? line).map fun d => (d.1, d.2.val) := by
  unfold inscribed? definedBy? definition?
  rcases line.words with _ | ⟨first, _ | ⟨name, _ | ⟨command, commands⟩⟩⟩
  · rfl
  · simp
  · simp
  · simp only [List.head?_cons, Option.some.injEq]
    split <;> rfl

/-- How the store takes the book that the line makes, if it defines a macro. -/
def write? (line : Text) (m : Memory η) : Option (Except Files.Fault Unit) :=
  (definedBy? line).map fun d =>
    { m.macros with book := m.macros.book.define d.1 d.2.val d.2.property : Macros }.written

theorem macros_respond_of_none (registry : Registry) {line : Text} (h : definedBy? line = none)
    (m : Memory η) : (respond registry line m).macros = m.macros := by
  rw [respond, h]
  dsimp only
  split <;> rfl

theorem macros_respond_of_define (registry : Registry) {line name : Text} {commands : List Text}
    {some_command : commands ≠ []}
    (h : definedBy? line = some (name, ⟨commands, some_command⟩)) (m : Memory η) :
    (respond registry line m).macros = (m.macros.inscribe name commands some_command).1 := by
  rw [respond, h]

/-- What a definition makes of the macros: a new book, and a stored one if the write goes well. -/
theorem respond_of_write? (registry : Registry) {line : Text} {m : Memory η}
    {outcome : Except Files.Fault Unit} (h : write? line m = some outcome) :
    ∃ name commands, inscribed? line = some (name, commands) ∧
      (respond registry line m).macros.book.entries =
        setEntry name commands m.macros.book.entries ∧
      (respond registry line m).macros.key = m.macros.key ∧
      (outcome = .ok () → (respond registry line m).macros.store.get m.macros.key =
        .ok (some (respond registry line m).macros.book.write)) ∧
      (outcome ≠ .ok () → (respond registry line m).macros.store = m.macros.store) := by
  obtain ⟨⟨name, commands, some_command⟩, defined, rfl⟩ := Option.map_eq_some_iff.1 h
  have book : (respond registry line m).macros = ({ m.macros with
      book := m.macros.book.define name commands some_command } : Macros).save.1 :=
    macros_respond_of_define registry defined m
  refine ⟨name, commands, ?_, ?_, ?_, ?_, ?_⟩
  · rw [inscribed?_eq, defined]
    rfl
  · rw [book, Macros.book_save]
    exact entries_define m.macros.book name commands some_command
  · rw [book, Macros.key_save]
  · intro good
    rw [book, Macros.book_save]
    exact (Macros.save_of_written good).2
  · intro bad
    cases taken : ({ m.macros with
        book := m.macros.book.define name commands some_command } : Macros).written with
    | ok => exact absurd taken bad
    | error fault => rw [book, Macros.save_of_not_written taken]

open Program in
private theorem reaches_defineMacro {line : Text} {name : Text} {steps : List Text}
    {some_step : steps ≠ []} (parts : definition? line = some (name, ⟨steps, some_step⟩))
    (m : Memory η) :
    (defineMacro line).Reaches m
      (match (m.macros.inscribe name steps some_step).2 with
        | .ok true => .done (inscribed name steps)
        | .ok false => .done (unsaved name)
        | .error fault => .escape (.store fault))
      { m with macros := (m.macros.inscribe name steps some_step).1 } := by
  unfold defineMacro
  rw [parts]
  exact .look (.keep (.here _ _))

private theorem answer_of_define (commands : CommandSet η) (runStep : Option (Text → Work η Result))
    (line : Text) {invocation : Invocation} (command : invocation.command = defineWord) :
    answer commands runStep line invocation = defineMacro line := by
  have unmarked : defineWord.behind? macroMark = none := by decide
  rw [answer, command, unmarked]
  dsimp only
  rw [if_pos rfl]

open Program in
/-- A line that defines a macro answers at once: with a success if the book was written, and with a
failure if the system refused. -/
theorem reaches_run_of_write? (commands : CommandSet η) {line : Text} {m : Memory η}
    {outcome : Except Files.Fault Unit} (asked : write? line.strip m = some outcome)
    (system : ∀ fault, outcome = .error fault → fault.isSystem = true) (depth : Nat) :
    ∃ result after, (run commands depth line).Reaches m (.done result) after ∧
      (result.success = true ↔ outcome = .ok ()) := by
  obtain ⟨⟨name, steps, some_step⟩, defined, taken⟩ := Option.map_eq_some_iff.1 asked
  suffices ∀ runStep, ∃ result after, (runLine commands runStep line).Reaches m (.done result)
      after ∧ (result.success = true ↔ outcome = .ok ()) by
    cases depth with
    | zero => exact this none
    | succ depth => exact this (some (run commands depth))
  intro runStep
  obtain ⟨parts, invocation, parsed, command⟩ := ofLine?_of_definedBy? defined
  have way := reaches_defineMacro parts (record line.strip m)
  unfold runLine
  rw [parsed]
  dsimp only
  rw [answer_of_define commands runStep line.strip command]
  cases outcome with
  | ok =>
    rw [show ((record line.strip m).macros.inscribe name steps some_step).2 = .ok true from
      (Macros.save_of_written taken).1] at way
    exact ⟨_, _, .look (.keep way), by simp [inscribed, Result.ok]⟩
  | error fault =>
    rw [show (record line.strip m).macros.inscribe name steps some_step = _ from
      Macros.save_of_not_written taken, if_pos (system fault rfl)] at way
    exact ⟨_, _, .look (.keep way), by simp [unsaved, Result.fail]⟩

end Interpreter

/-- The line defines a macro, and the book with it is written. -/
def Recorded.Saves (r : Recorded η) : Prop := Interpreter.write? r.line r.memory = some (.ok ())

/-! ## The journal -/

namespace Step

mutual

/-- Whether the step touches macros and stored texts through lines only. Writes may be made to fail
and to work again. -/
def onlyLines : Step → Bool
  | .define .. | .store .. | .reload | .reopen => false
  | .gather steps => allOnlyLines steps
  | .execute _ | .suggest _ | .candidates | .entries | .macros | .stored _ | .failWrites _
  | .user _ | .setBuffer .. | .submit _ | .enter .. | .complete _ | .up _ | .down _ | .openTab _
  | .closeTab _ | .switchTab _ | .transcript _ | .rendered _ => true

def allOnlyLines : List Step → Bool
  | [] => true
  | step :: steps => onlyLines step && allOnlyLines steps

end

mutual

theorem within_of_onlyLines (G : Session → Session → Prop) :
    ∀ step : Step, step.onlyLines = true → step.Within G
  | .gather steps, plain => allWithin_of_allOnlyLines G steps plain
  | .execute _, _ | .suggest _, _ | .candidates, _ | .entries, _ | .macros, _ | .stored _, _
  | .failWrites _, _ | .user _, _ | .setBuffer .., _ | .submit _, _ | .enter .., _
  | .complete _, _ | .up _, _ | .down _, _ | .openTab _, _ | .closeTab _, _ | .switchTab _, _
  | .transcript _, _ | .rendered _, _ => trivial

theorem allWithin_of_allOnlyLines (G : Session → Session → Prop) :
    ∀ steps : List Step, allOnlyLines steps = true → AllWithin G steps
  | [], _ => trivial
  | step :: steps, plain => by
    rw [allOnlyLines, Bool.and_eq_true] at plain
    exact ⟨within_of_onlyLines G step plain.1, allWithin_of_allOnlyLines G steps plain.2⟩

end

end Step

namespace Session

open Interpreter Program

/-- The macros of a session agree with the lines recorded since `s`, and did so whenever a line was
recorded. -/
structure Journal (s : Session) (now : Session × List (Recorded Desk)) : Prop where
  key : now.1.macros.key = s.macros.key
  book : now.1.macros.book.entries = entriesBehind s.macros.book.entries now.2
  instants : ∀ before r after, now.2 = before ++ r :: after →
    r.memory.macros.book.entries = entriesBehind s.macros.book.entries before
  untouched : (∀ r ∈ now.2, ¬r.Saves) →
    now.1.macros.store.get s.macros.key = s.macros.store.get s.macros.key
  saved : ∀ before r after, now.2 = before ++ r :: after → r.Saves →
    (∀ later ∈ after, ¬later.Saves) →
      ∃ book : MacroBook,
        book.entries = entriesBehind s.macros.book.entries (before ++ [r]) ∧
          now.1.macros.store.get s.macros.key = .ok (some book.write)

/-- A line whose write does not go well leaves the stored text, and what is known of it. -/
private theorem Journal.saved_concat {s m : Session} {log : List (Recorded Desk)}
    {r : Recorded Desk} (now : Journal s (m, log)) (idle : ¬r.Saves) (m' : Session)
    (same : m'.macros.store.get s.macros.key = m.macros.store.get s.macros.key) :
    ((∀ r' ∈ log ++ [r], ¬r'.Saves) →
        m'.macros.store.get s.macros.key = s.macros.store.get s.macros.key) ∧
      ∀ before r' after, log ++ [r] = before ++ r' :: after → r'.Saves →
        (∀ later ∈ after, ¬later.Saves) →
          ∃ book : MacroBook,
            book.entries = entriesBehind s.macros.book.entries (before ++ [r']) ∧
              m'.macros.store.get s.macros.key = .ok (some book.write) := by
  rw [same]
  constructor
  · intro none
    exact now.untouched fun r' mem => none r' (List.mem_append_left _ mem)
  · intro before r' after parts saves last
    rcases cut_of_append_singleton parts with ⟨-, rfl, -⟩ | ⟨rest, rfl, earlier⟩
    · exact absurd saves idle
    · exact now.saved before r' rest earlier saves fun later mem =>
        last later (List.mem_append_left _ mem)

theorem keptByLines_journal (registry : Registry) (s : Session) :
    KeptByLines registry (Journal s) := by
  intro m log line _ now
  have recorded : (record line.strip m).macros = m.macros := rfl
  have instants : ∀ before r after,
      log ++ [⟨line.strip, record line.strip m⟩] = before ++ r :: after →
        r.memory.macros.book.entries = entriesBehind s.macros.book.entries before := by
    intro before r after parts
    rcases cut_of_append_singleton parts with ⟨rfl, rfl, -⟩ | ⟨rest, -, earlier⟩
    · exact now.book
    · exact now.instants before r rest earlier
  cases asked : write? line.strip (record line.strip m) with
  | none =>
    have undefined : definedBy? line.strip = none := Option.map_eq_none_iff.1 asked
    have same := macros_respond_of_none registry undefined (record line.strip m)
    have idle : ¬(⟨line.strip, record line.strip m⟩ : Recorded Desk).Saves := by
      rw [Recorded.Saves, asked]
      nofun
    obtain ⟨untouched, saved⟩ := now.saved_concat idle
      (respond registry line.strip (record line.strip m)) (by rw [same, recorded])
    refine ⟨?_, ?_, instants, untouched, saved⟩
    · rw [same]
      exact now.key
    · rw [entriesBehind_concat, inscribed?_eq, undefined, same]
      exact now.book
  | some outcome =>
    obtain ⟨name, commands, inscribed, book, key, good, bad⟩ := respond_of_write? registry asked
    have next : (respond registry line.strip (record line.strip m)).macros.book.entries =
        entriesBehind s.macros.book.entries (log ++ [⟨line.strip, record line.strip m⟩]) := by
      rw [entriesBehind_concat, inscribed, book]
      exact congrArg (setEntry name commands) now.book
    have its_key : (record line.strip m).macros.key = s.macros.key := now.key
    by_cases well : outcome = .ok ()
    · have saves : (⟨line.strip, record line.strip m⟩ : Recorded Desk).Saves := by
        rw [Recorded.Saves, asked, well]
      refine ⟨key.trans now.key, next, instants, ?_, ?_⟩
      · intro none
        exact absurd saves (none _ (List.mem_append_right _ (List.mem_singleton.2 rfl)))
      · intro before r after parts _ last
        rcases cut_of_append_singleton parts with ⟨rfl, rfl, -⟩ | ⟨rest, rfl, -⟩
        · exact ⟨_, next, its_key ▸ good well⟩
        · exact absurd saves (last _ (List.mem_append_right _ (List.mem_singleton.2 rfl)))
    · have idle : ¬(⟨line.strip, record line.strip m⟩ : Recorded Desk).Saves := by
        rw [Recorded.Saves, asked]
        intro saves
        exact well (Option.some.inj saves)
      obtain ⟨untouched, saved⟩ := now.saved_concat idle
        (respond registry line.strip (record line.strip m)) (by rw [bad well, recorded])
      exact ⟨key.trans now.key, next, instants, untouched, saved⟩

theorem stable_journal (s : Session) : Stable LeavesLines (Journal s) where
  asides _ _ h := h
  silent _ _ h := h.history
  keeps _ _ _ h now := by
    refine ⟨h.key.trans now.key, (congrArg MacroBook.entries h.book).trans now.book, now.instants,
      ?_, ?_⟩
    · rw [Store.get_of_medium_eq h.medium]
      exact now.untouched
    · rw [Store.get_of_medium_eq h.medium]
      exact now.saved

theorem takeAll_journal {commands : CommandSet Desk} (bodies : commands.Only LeavesLines)
    (s : Session) {steps : List Step} (plain : Step.allOnlyLines steps = true) :
    Journal s ((takeAll commands s steps).2, trace commands s steps) := by
  apply takeAll_kept (stable_journal s) (keptByLines_journal commands.registry s) bodies
    (Step.allWithin_of_allOnlyLines LeavesLines steps plain)
  refine ⟨rfl, rfl, ?_, fun _ => rfl, ?_⟩
  · intro before r after parts
    simp at parts
  · intro before r after parts
    simp at parts

/-- After any run the history has grown by the trace, and the book is the first one with the
definitions of the trace put in, as it was whenever a line was recorded. The stored text is the book
behind the last definition whose write went well, and the first text if there was none. A definition
answers with a success exactly when its write goes well. -/
theorem macros_takeAll (commands : CommandSet Desk) (bodies : commands.Only LeavesLines)
    (s : Session) (steps : List Step) (plain : Step.allOnlyLines steps = true) :
    (takeAll commands s steps).2.history =
        (trace commands s steps).foldl (fun h r => h.append r.line) s.history ∧
      (takeAll commands s steps).2.macros.book.entries =
        entriesBehind s.macros.book.entries (trace commands s steps) ∧
      (∀ before r after, trace commands s steps = before ++ r :: after →
        r.memory.macros.book.entries = entriesBehind s.macros.book.entries before) ∧
      ((∀ r ∈ trace commands s steps, ¬r.Saves) →
        (takeAll commands s steps).2.macros.store.get s.macros.key =
          s.macros.store.get s.macros.key) ∧
      (∀ before r after, trace commands s steps = before ++ r :: after → r.Saves →
        (∀ later ∈ after, ¬later.Saves) →
          ∃ book : MacroBook,
            book.entries = entriesBehind s.macros.book.entries (before ++ [r]) ∧
              (takeAll commands s steps).2.macros.store.get s.macros.key =
                .ok (some book.write)) ∧
      ∀ (depth : Nat) (line : Text) (m : Session) (outcome : Except Files.Fault Unit),
        write? line.strip m = some outcome →
          (∀ fault, outcome = .error fault → fault.isSystem = true) →
            ∃ result after, (run commands depth line).Reaches m (.done result) after ∧
              (result.success = true ↔ outcome = .ok ()) := by
  have journal := takeAll_journal bodies s plain
  have logs : commands.Only LeavesLogs := by
    intro d invocation user m
    exact only_mono (fun _ _ h => h.leavesLogs) (bodies d invocation user m)
  refine ⟨(takeAll_accounts logs s steps).history, journal.book, journal.instants,
    journal.untouched, journal.saved, ?_⟩
  intro depth line m outcome asked system
  exact reaches_run_of_write? commands asked system depth

/-- A session with a macro that defines itself again. -/
def relapseSession : Session :=
  .ofUser { username := "eve" }
    ⟨MacroBook.empty.define "r" ["define.macro r look"] (by decide), .empty, Macros.defaultKey⟩
    .ofDefaultCapacity

/-- Writes fail while the macro defines itself again, and work again for the last definition. -/
def relapseStep : Step :=
  .gather [.execute "define.macro a look", .failWrites true, .execute "macro.r",
    .failWrites false, .execute "define.macro b look seal"]

/-- The book behind it. -/
def relapsedEntries : List (Text × List Text) :=
  [("r", ["look"]), ("a", ["look"]), ("b", ["look", "seal"])]

theorem macros_takeAll_relapse :
    watchCommands.Only LeavesLines ∧ Step.allOnlyLines [relapseStep] = true ∧
      entriesBehind relapseSession.macros.book.entries
          (trace watchCommands relapseSession [relapseStep]) = relapsedEntries := by
  have bodies : watchCommands.Only LeavesLines := fun _ _ _ _ _ _ => trivial
  refine ⟨bodies, rfl, ?_⟩
  have still : (Loop.turns 40
      (Loop.start (program watchCommands relapseStep) false relapseSession)).turn = none := rfl
  have after : (takeAll watchCommands relapseSession [relapseStep]).2.macros.book.entries =
      relapsedEntries := by
    change (Loop.start (program watchCommands relapseStep) false
      relapseSession).rest.floor.state.macros.book.entries = _
    rw [Loop.rest_eq_turns still]
    rfl
  exact (macros_takeAll watchCommands bodies relapseSession [relapseStep] rfl).2.1.symm.trans after

end Session

end GatedConsole
