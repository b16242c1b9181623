import GatedConsole.Proofs.Interpreter.Replays
import GatedConsole.Proofs.Text.Words
import Mathlib.Algebra.Ring.GeomSum

/-!
How much work a line may cause. Main statement: if no macro has more than `w` steps and no line more
than `w + 2` words, a line comes to an end, records at most `1 + w + ... + w ^ 8` lines, makes at
most as many calls, and leaves such a book again, whatever is defined on the way.
-/

set_option autoImplicit false
set_option relaxedAutoImplicit false

namespace GatedConsole

variable {η : Type}

/-- No macro has more than `width` steps, and no step has more words than a line that defines a
macro of that many. -/
def MacroBook.Within (width : Nat) (book : MacroBook) : Prop :=
  ∀ entry ∈ book.entries,
    entry.2.length ≤ width ∧ ∀ step ∈ entry.2, step.words.length ≤ width + 2

namespace MacroBook

variable {width : Nat} {book : MacroBook} {name : Text} {steps : List Text}

instance (width : Nat) (book : MacroBook) : Decidable (book.Within width) :=
  inferInstanceAs (Decidable (∀ entry ∈ book.entries,
    entry.2.length ≤ width ∧ ∀ step ∈ entry.2, step.words.length ≤ width + 2))

theorem Within.of_get? (h : book.Within width) (stored : book.get? name = some steps) :
    steps.length ≤ width ∧ ∀ step ∈ steps, step.words.length ≤ width + 2 :=
  h _ (mem_entries_of_get? stored)

theorem Within.define (h : book.Within width) (name : Text) (some_step : steps ≠ [])
    (few : steps.length ≤ width) (short : ∀ step ∈ steps, step.words.length ≤ width + 2) :
    (book.define name steps some_step).Within width := by
  intro entry mem
  obtain rfl | old := Keyed.mem_put mem
  · exact ⟨few, short⟩
  · exact h entry old

end MacroBook

namespace Interpreter

open Finset Program

variable {commands : CommandSet η}

/-! ## Definitions -/

/-- A definition has two words less for steps than its line has words, and each step is one word. -/
theorem length_of_definition? {line name : Text} {steps : List Text} {some_step : steps ≠ []}
    (parts : definition? line = some (name, ⟨steps, some_step⟩)) :
    line.words.length = steps.length + 2 ∧ ∀ step ∈ steps, step.words.length = 1 := by
  unfold definition? at parts
  split at parts
  · rename_i first name' command commands words
    cases parts
    refine ⟨by rw [words]; rfl, fun step mem => ?_⟩
    have among : step ∈ line.words := by
      rw [words]
      exact List.mem_cons_of_mem _ (List.mem_cons_of_mem _ mem)
    rw [(Text.isWord_of_mem_words among).words_eq]
    rfl
  · cases parts

/-! ## The work of a line -/

/-- How many lines are recorded at most for a line in which macros of that width may be nested
`left` deep. -/
def workload (width left : Nat) : Nat := ∑ i ∈ range (left + 1), width ^ i

theorem workload_zero (width : Nat) : workload width 0 = 1 := by
  rw [workload, sum_range_one, pow_zero]

theorem workload_succ (width left : Nat) :
    workload width (left + 1) = width * workload width left + 1 :=
  geom_sum_succ

theorem workload_pos (width left : Nat) : 1 ≤ workload width left := by
  cases left with
  | zero => exact (workload_zero width).ge
  | succ left => exact (workload_succ width left).symm ▸ Nat.le_add_left 1 _

/-- The way from one memory to another with at most `bound` recorded lines and as many calls, to a
book of the same width. -/
structure Spends (width bound : Nat) (m t : Memory η) (log : List (Recorded η)) : Prop where
  lines : log.length ≤ bound
  history : t.history.total = m.history.total + log.length
  calls : t.calls.length ≤ m.calls.length + log.length
  book : t.macros.book.Within width

namespace Spends

variable {width bound bound' : Nat} {m t u : Memory η} {log log' : List (Recorded η)}

theorem refl (within : m.macros.book.Within width) (bound : Nat) : Spends width bound m m [] :=
  ⟨Nat.zero_le bound, rfl, Nat.le_refl _, within⟩

theorem mono (h : Spends width bound m t log) (le : bound ≤ bound') :
    Spends width bound' m t log :=
  { h with lines := h.lines.trans le }

theorem append (h : Spends width bound m t log) (h' : Spends width bound' t u log') :
    Spends width (bound + bound') m u (log ++ log') where
  lines := by
    rw [List.length_append]
    exact Nat.add_le_add h.lines h'.lines
  history := by rw [h'.history, h.history, List.length_append, Nat.add_assoc]
  calls := by
    have first := h.calls
    have second := h'.calls
    rw [List.length_append]
    omega
  book := h'.book

/-- One more line, recorded first. -/
theorem record {line : Text} (h : Spends width bound (record line m) t log) :
    Spends width (bound + 1) m t (⟨line, record line m⟩ :: log) where
  lines := Nat.succ_le_succ h.lines
  history := by
    have total : (Interpreter.record line m).history.total = m.history.total + 1 :=
      History.total_append _ _
    rw [h.history, total, List.length_cons]
    omega
  calls := h.calls.trans (Nat.add_le_add_left (Nat.le_succ _) _)
  book := h.book

end Spends

/-- The response to a line records no line, makes one call at most, and keeps the book within its
width. -/
theorem Responds.spends (bodies : commands.Only LeavesLines) {width : Nat} {line : Text}
    {invocation : Invocation} {m t : Memory η} {e : Ending Escape Result}
    (h : Responds commands line invocation m e t) (within : m.macros.book.Within width)
    (short : line.words.length ≤ width + 2) :
    t.history = m.history ∧ t.calls.length ≤ m.calls.length + 1 ∧ t.macros.book.Within width := by
  have idle : m.calls.length ≤ m.calls.length + 1 := Nat.le_succ _
  have inscribed {name : Text} {steps : List Text} {some_step : steps ≠ []}
      (parts : definition? line = some (name, ⟨steps, some_step⟩)) :
      (inscribedIn m name steps some_step).macros.book.Within width := by
    obtain ⟨words, single⟩ := length_of_definition? parts
    have book : (inscribedIn m name steps some_step).macros.book =
        m.macros.book.define name steps some_step := Macros.book_save _
    rw [book]
    refine within.define name some_step (by omega) fun step mem => ?_
    rw [single step mem]
    omega
  have answered {d : Descriptor} {e : Ending Escape Outcome}
      (body : (commands.body d invocation m.user).Runs recordedBetween (calledIn m d invocation)
        e t []) :
      t.history = m.history ∧ t.calls.length ≤ m.calls.length + 1 ∧
        t.macros.book.Within width := by
    have leaves := body.only LeavesLines.refl LeavesLines.trans (bodies d invocation m.user _)
    refine ⟨leaves.history, ?_, leaves.book ▸ within⟩
    rw [leaves.calls, calledIn, List.length_append]
    rfl
  cases h with
  | notFound | usage | history | clear | macros | unresolved | denied => exact ⟨rfl, idle, within⟩
  | defined first parts | unsaved first parts | unnamed first parts =>
    exact ⟨rfl, idle, inscribed parts⟩
  | answered _ _ _ body => exact answered body
  | aborted _ _ _ body => exact answered body

mutual

/-- The work of a line in which macros may be nested `left` deep. -/
theorem spends_of_answers (bodies : commands.Only LeavesLines) {width left : Nat} {line : Text}
    {m t : Memory η} {e : Ending Escape Result} {log : List (Recorded η)} :
    Answers commands left line m e t log → m.macros.book.Within width →
      line.words.length ≤ width + 2 → Spends width (workload width left) m t log
  | .blank _, within, _ => .refl within _
  | .response parsed its, within, short => by
    obtain ⟨history, calls, book⟩ := its.spends bodies within (by rwa [Text.words_strip])
    have total := History.total_append m.history line.strip
    exact ⟨workload_pos width left, (congrArg History.total history).trans total, calls, book⟩
  | .tooDeep .., within, _ => by
    have nothing := Spends.refl (m := record line.strip m) within 0
    exact nothing.record.mono (workload_pos width 0)
  | .replayed _ _ stored all, within, _ => by
    obtain ⟨few, short⟩ := within.of_get? stored
    have steps := spends_of_answersAll bodies all within short
    rw [workload_succ]
    exact steps.record.mono (Nat.succ_le_succ (Nat.mul_le_mul_right _ few))
  | .broken _ _ stored all, within, _ => by
    obtain ⟨few, short⟩ := within.of_get? stored
    have steps := spends_of_answersAll bodies all within short
    rw [workload_succ]
    exact steps.record.mono (Nat.succ_le_succ (Nat.mul_le_mul_right _ few))

theorem spends_of_answersAll (bodies : commands.Only LeavesLines) {width left : Nat}
    {steps : List Text} {m t : Memory η} {e : Ending Escape (List Result)}
    {log : List (Recorded η)} :
    AnswersAll commands left steps m e t log → m.macros.book.Within width →
      (∀ step ∈ steps, step.words.length ≤ width + 2) →
        Spends width (steps.length * workload width left) m t log
  | .nil, within, _ => .refl within _
  | .cons one others, within, short => by
    -- The book that the first step leaves has the same width, whatever has been defined.
    have first := spends_of_answers bodies one within (short _ List.mem_cons_self)
    have rest := spends_of_answersAll bodies others first.book
      fun step mem => short step (List.mem_cons_of_mem _ mem)
    rw [List.length_cons, Nat.succ_mul, Nat.add_comm]
    exact first.append rest
  | .broken one, within, short => by
    have first := spends_of_answers bodies one within (short _ List.mem_cons_self)
    rw [List.length_cons, Nat.succ_mul]
    exact first.mono (Nat.le_add_left _ _)

end

/-- A line of at most `width + 2` words, executed with a book of that width, comes to an end. It
records at most `1 + width + ... + width ^ 8` lines and makes at most as many calls, whatever cycles
there are and whatever is defined on the way, and leaves a book of that width. -/
theorem execute_within_workload (commands : CommandSet η) (bodies : commands.Only LeavesLines)
    (solitary : commands.Solitary) {width : Nat} {s : Memory η} {line : Text}
    (within : s.macros.book.Within width) (short : line.words.length ≤ width + 2) :
    ∃ e t log, (run commands depthBound line).Runs recordedBetween s e t log ∧
      Loop.run (execute commands line) s = (e, t) ∧ e ≠ .stuck ∧
      log.length ≤ ∑ i ∈ range (depthBound + 1), width ^ i ∧
      t.history.total = s.history.total + log.length ∧
      t.calls.length ≤ s.calls.length + ∑ i ∈ range (depthBound + 1), width ^ i ∧
      t.macros.book.Within width := by
  obtain ⟨e, t, log, runs⟩ :=
    (solitary_run solitary depthBound line).exists_runs recordedBetween s
  have answers := answers_of_runs (CommandSet.Only.leavesLogs bodies) runs
  have spends := spends_of_answers bodies answers within short
  exact ⟨e, t, log, runs, run_execute runs, runs.ne_stuck, spends.lines, spends.history,
    spends.calls.trans (Nat.add_le_add_left spends.lines _), spends.book⟩

/-- A macro that calls itself. -/
def spinningSession : Session :=
  .ofUser { username := "eve" }
    ⟨MacroBook.empty.define "spin" ["macro.spin"] (by decide), .empty, Macros.defaultKey⟩
    .ofDefaultCapacity

/-- The macro that calls itself records as many lines as the bound allows. -/
theorem execute_within_workload_spinning :
    Session.watchCommands.Only LeavesLines ∧ Session.watchCommands.Solitary ∧
      spinningSession.macros.book.Within 1 ∧ (Text.words "macro.spin").length ≤ 1 + 2 ∧
      ∃ e t, Loop.run (execute Session.watchCommands "macro.spin") spinningSession = (e, t) ∧
        e ≠ .stuck ∧ t.history.total = spinningSession.history.total +
          ∑ i ∈ range (depthBound + 1), 1 ^ i ∧ t.macros.book.Within 1 := by
  have bodies : Session.watchCommands.Only LeavesLines := fun _ _ _ _ _ _ => trivial
  have solitary : Session.watchCommands.Solitary := fun _ _ _ => trivial
  have within : spinningSession.macros.book.Within 1 := by decide
  have short : (Text.words "macro.spin").length ≤ 1 + 2 := by decide
  refine ⟨bodies, solitary, within, short, ?_⟩
  obtain ⟨e, t, log, -, executed, ends, -, -, -, after⟩ :=
    execute_within_workload Session.watchCommands bodies solitary within short
  refine ⟨e, t, executed, ends, ?_, after⟩
  have still : (Loop.turns 40 (Loop.start (execute Session.watchCommands "macro.spin") false
      spinningSession)).turn = none := rfl
  have same : (Loop.run (execute Session.watchCommands "macro.spin") spinningSession).2 = t := by
    rw [executed]
  rw [Loop.run, Loop.rest_eq_turns still] at same
  rw [← same]
  rfl

end Interpreter

end GatedConsole
