import GatedConsole.Interpreter.Execution
import GatedConsole.Proofs.Text.Words

/-!
Reading the report of a macro. What a step has shown stands under its status line, four blanks to
the right, and nothing else does, so that a report can be taken apart whatever its steps have shown.
Main statements: a report reads back as what its steps have shown, its other lines are its outline,
and a report that is shown in another one stands there as it is.
-/

set_option autoImplicit false
set_option relaxedAutoImplicit false

namespace GatedConsole.Interpreter

/-! ## Reading -/

/-- The line that stands here four blanks to the right. -/
def insetOf? (line : Text) : Option Text := line.behind? "    "

/-- The lines that do not stand to the right. -/
def outerLines (lines : List Text) : List Text := lines.filter fun line => (insetOf? line).isNone

/-- What stands to the right before the first outer line, and every outer line with what stands to
the right under it. -/
def sections : List Text → List Text × List (Text × List Text)
  | [] => ([], [])
  | line :: rest =>
    match insetOf? line with
    | some own => (own :: (sections rest).1, (sections rest).2)
    | none => ([], (line, (sections rest).1) :: (sections rest).2)

/-- What a report says of a step. -/
structure StepNote where
  step : Text
  succeeded : Bool
  lines : List Text
deriving DecidableEq

/-- Reads the section of a step: its status line has the number of the step, the number of all
steps, and a tick or a cross in front of the step. -/
def readNote? (total : Nat) (numbered : (Text × List Text) × Nat) : Option StepNote :=
  match numbered.1.1.behind? (stepLine numbered.2 total [] true) with
  | some step => some ⟨step, true, numbered.1.2⟩
  | none =>
    (numbered.1.1.behind? (stepLine numbered.2 total [] false)).map fun step =>
      ⟨step, false, numbered.1.2⟩

/-- Reads a report: behind its heading comes a section for every step, and then the last line. -/
def readReport? (lines : List Text) : Option (List StepNote) :=
  match sections lines with
  | ([], (_, []) :: others) =>
    if others.getLast?.map Prod.snd = some [] then
      (others.dropLast.zipIdx 1).mapM (readNote? (others.length - 1))
    else none
  | _ => none

/-- The outer lines of a report that says this of its steps. -/
def outline (name : Text) (notes : List StepNote) : List Text :=
  reportHead name notes.length ::
      (notes.zipIdx 1).map (fun note =>
        stepLine note.2 notes.length note.1.step note.1.succeeded) ++
    [reportFoot (notes.countP (·.succeeded)) notes.length]

/-- A result as a report shows it: the lines of a success, but none that empties the terminal, and
the error of a failure. -/
def shownLines (result : Result) : List Text :=
  if result.success then result.output.filter (· ≠ clearSequence) else [result.error.getD "None"]

def noteOf (step : Text × Result) : StepNote := ⟨step.1, step.2.success, shownLines step.2⟩

/-! ## Lines to the right, and other lines -/

@[simp] theorem insetOf?_inset (line : Text) : insetOf? (inset line) = some line :=
  Text.behind?_eq_some_iff.2 rfl

@[simp] theorem insetOf?_stepLine (number total : Nat) (step : Text) (success : Bool) :
    insetOf? (stepLine number total step success) = none := by
  unfold stepLine
  exact Text.behind?_of_ne (by decide) _ _

@[simp] theorem insetOf?_reportHead (name : Text) (total : Nat) :
    insetOf? (reportHead name total) = none :=
  Text.behind?_of_ne (by decide) _ _

@[simp] theorem insetOf?_reportFoot (succeeded total : Nat) :
    insetOf? (reportFoot succeeded total) = none :=
  Text.behind?_of_ne (by decide) _ _

theorem stepBody_eq (result : Result) : stepBody result = (shownLines result).map inset := by
  unfold stepBody shownLines
  split
  · rfl
  · rfl

/-- The outer lines are the headings of the sections. -/
theorem outerLines_eq (lines : List Text) :
    outerLines lines = (sections lines).2.map Prod.fst := by
  induction lines with
  | nil => rfl
  | cons line rest ih =>
    rw [outerLines] at ih
    cases own : insetOf? line with
    | some text => simp [outerLines, sections, own, ih]
    | none => simp [outerLines, sections, own, ih]

theorem sections_insets (lines rest : List Text) :
    sections (lines.map inset ++ rest) = (lines ++ (sections rest).1, (sections rest).2) := by
  induction lines with
  | nil => rfl
  | cons line lines ih => simp [sections, ih]

theorem sections_cons_outer {line : Text} (outer : insetOf? line = none) (rest : List Text) :
    sections (line :: rest) = ([], (line, (sections rest).1) :: (sections rest).2) := by
  simp [sections, outer]

/-! ## Reports -/

/-- The section of a step in a report. -/
def sectionOf (total : Nat) (numbered : (Text × Result) × Nat) : Text × List Text :=
  (stepLine numbered.2 total numbered.1.1 numbered.1.2.success, shownLines numbered.1.2)

theorem sections_stepLines (total : Nat) {rest : List Text} (outer : (sections rest).1 = [])
    (steps : List ((Text × Result) × Nat)) :
    sections (steps.flatMap (stepLines total) ++ rest) =
      ([], steps.map (sectionOf total) ++ (sections rest).2) := by
  induction steps with
  | nil => exact Prod.ext outer rfl
  | cons step steps ih =>
    have parts : (step :: steps).flatMap (stepLines total) ++ rest =
        stepLine step.2 total step.1.1 step.1.2.success ::
          ((shownLines step.1.2).map inset ++ (steps.flatMap (stepLines total) ++ rest)) := by
      simp [stepLines, stepBody_eq]
    rw [parts, sections_cons_outer (insetOf?_stepLine ..), sections_insets, ih]
    simp [sectionOf]

/-- Under the heading and under the last line of a report there is nothing. -/
theorem sections_report (name : Text) (steps : List (Text × Result)) :
    sections (report name steps).output =
      ([], (reportHead name steps.length, []) ::
        ((steps.zipIdx 1).map (sectionOf steps.length) ++
          [(reportFoot (steps.countP (·.2.success)) steps.length, [])])) := by
  have last : sections [reportFoot (steps.countP (·.2.success)) steps.length] =
      ([], [(reportFoot (steps.countP (·.2.success)) steps.length, [])]) :=
    sections_cons_outer (insetOf?_reportFoot ..) []
  have body := sections_stepLines steps.length (congrArg Prod.fst last) (steps.zipIdx 1)
  rw [report, Result.ok, List.cons_append, sections_cons_outer (insetOf?_reportHead ..), body, last]

theorem stepLine_eq (number total : Nat) (step : Text) (success : Bool) :
    stepLine number total step success = stepLine number total [] success ++ step := by
  simp [stepLine]

theorem behind?_stepLine_true (number total : Nat) (step : Text) :
    (stepLine number total step true).behind? (stepLine number total [] true) = some step :=
  Text.behind?_eq_some_iff.2 (stepLine_eq ..)

theorem behind?_stepLine_false (number total : Nat) (step : Text) :
    (stepLine number total step false).behind? (stepLine number total [] false) = some step :=
  Text.behind?_eq_some_iff.2 (stepLine_eq ..)

/-- A cross is no tick. -/
theorem behind?_stepLine_cross (number total : Nat) (step : Text) :
    (stepLine number total step false).behind? (stepLine number total [] true) = none := by
  rw [Option.eq_none_iff_forall_ne_some]
  intro rest read
  have same := Text.behind?_eq_some_iff.1 read
  simp only [stepLine, List.append_assoc, List.append_cancel_left_eq, Bool.false_eq_true,
    if_false, if_true] at same
  have sign := (List.cons.inj same).1
  exact absurd sign (by decide)

theorem readNote?_sectionOf (total number : Nat) (step : Text × Result) :
    readNote? total (sectionOf total (step, number), number) = some (noteOf step) := by
  unfold readNote? sectionOf noteOf
  dsimp only
  cases step.2.success with
  | true => rw [behind?_stepLine_true]
  | false =>
    rw [behind?_stepLine_cross, behind?_stepLine_false]
    rfl

theorem mapM_readNote? (total first : Nat) (steps : List (Text × Result)) :
    (((steps.zipIdx first).map (sectionOf total)).zipIdx first).mapM (readNote? total) =
      some (steps.map noteOf) := by
  induction steps generalizing first with
  | nil => rfl
  | cons step steps ih =>
    simp [readNote?_sectionOf, ih]

/-- A report reads back as what its steps have shown. -/
theorem readReport?_report (name : Text) (steps : List (Text × Result)) :
    readReport? (report name steps).output = some (steps.map noteOf) := by
  have count : ((steps.zipIdx 1).map (sectionOf steps.length) ++
      [(reportFoot (steps.countP (·.2.success)) steps.length, ([] : List Text))]).length - 1 =
        steps.length := by simp
  rw [readReport?, sections_report]
  dsimp only
  rw [count, List.dropLast_concat, List.getLast?_concat, Option.map_some, if_pos rfl]
  exact mapM_readNote? steps.length 1 steps

/-- The lines of a report outside of what its steps have shown are its outline. -/
theorem outerLines_report (name : Text) (steps : List (Text × Result)) :
    outerLines (report name steps).output = outline name (steps.map noteOf) := by
  have succeeded : (steps.map noteOf).countP (·.succeeded) = steps.countP (·.2.success) := by
    rw [List.countP_map]
    rfl
  rw [outerLines_eq, sections_report, outline, succeeded, List.length_map, List.zipIdx_map]
  simp only [List.map_cons, List.map_append, List.map_map, List.map_nil, List.cons_append]
  rfl

/-! ## A report in a report -/

theorem inset_ne_clearSequence (line : Text) : inset line ≠ clearSequence := by
  intro same
  exact absurd (List.cons.inj same).1 (by decide)

theorem ne_clearSequence_of_mem_stepLines {total : Nat} {step : (Text × Result) × Nat}
    {line : Text} (mem : line ∈ stepLines total step) : line ≠ clearSequence := by
  rcases List.mem_cons.1 mem with rfl | below
  · unfold stepLine
    intro same
    exact absurd (List.cons.inj same).1 (by decide)
  · rw [stepBody_eq] at below
    obtain ⟨own, -, rfl⟩ := List.mem_map.1 below
    exact inset_ne_clearSequence own

/-- Nothing in a report empties the terminal. -/
theorem ne_clearSequence_of_mem_report {name : Text} {steps : List (Text × Result)} {line : Text}
    (mem : line ∈ (report name steps).output) : line ≠ clearSequence := by
  rw [report, Result.ok, List.cons_append, List.mem_cons, List.mem_append, List.mem_flatMap,
    List.mem_singleton] at mem
  rcases mem with rfl | ⟨step, -, its⟩ | rfl
  · intro same
    exact absurd (List.cons.inj same).1 (by decide)
  · exact ne_clearSequence_of_mem_stepLines its
  · intro same
    exact absurd (List.cons.inj same).1 (by decide)

/-- A report is shown in another one as it is. -/
theorem shownLines_report (name : Text) (steps : List (Text × Result)) :
    shownLines (report name steps) = (report name steps).output := by
  rw [shownLines, if_pos (show (report name steps).success = true from rfl), List.filter_eq_self]
  intro line mem
  exact decide_eq_true (ne_clearSequence_of_mem_report mem)

end GatedConsole.Interpreter
