import GatedConsole.Task.Thread

/-!
Running a program with all its parts, ticket after ticket, until no ticket is left. Main statements:
the loop comes to rest, and a program that can run alone comes to the same end in it.
-/

set_option autoImplicit false
set_option relaxedAutoImplicit false

namespace GatedConsole

/-- The thread of the first program, and the floor. -/
structure Loop (ε σ α : Type) where
  root : Thread ε σ α
  floor : Floor σ

namespace Loop

variable {ε σ α : Type}

def start (p : Program ε σ α) (held : Bool) (state : σ) : Loop ε σ α :=
  ⟨.running p, { state := state, held := held, ready := [.resume []] }⟩

/-- Obeys a ticket that has been drawn from the queue. -/
def draw (root : Thread ε σ α) (floor : Floor σ) (ticket : Ticket) : Loop ε σ α :=
  ⟨(root.obey ticket floor).1, (root.obey ticket floor).2⟩

/-- Obeys the first ticket of the queue. -/
def turn (loop : Loop ε σ α) : Option (Loop ε σ α) :=
  match loop.floor.ready with
  | [] => none
  | ticket :: ready => some (draw loop.root { loop.floor with ready := ready } ticket)

/-- What gets less with every turn: the thread, or else the queue. -/
abbrev Less : Loop ε σ α → Loop ε σ α → Prop :=
  InvImage (Prod.Lex Thread.Less (· < ·)) fun loop => (loop.root, loop.floor.ready.length)

theorem less_wellFounded : WellFounded (Less (ε := ε) (σ := σ) (α := α)) :=
  InvImage.wf _ (Prod.lex ⟨_, Thread.less_wellFounded⟩ Nat.lt_wfRel).wf

theorem draw_less (root : Thread ε σ α) (floor : Floor σ) (ticket : Ticket) :
    draw root floor ticket = ⟨root, floor⟩ ∨ Thread.Less (draw root floor ticket).root root :=
  (Thread.obey_less ticket root floor).imp_left fun same => by simp [draw, same]

theorem turn_less {loop next : Loop ε σ α} (h : loop.turn = some next) : Less next loop := by
  unfold turn at h
  split at h
  · cases h
  · rename_i ticket ready queue
    rw [← Option.some.inj h]
    rcases draw_less loop.root { loop.floor with ready := ready } ticket with same | less
    · rw [same]
      exact .right _ (by simp [queue])
    · exact .left _ _ less

/-- Turn after turn until no ticket is left. -/
def rest (loop : Loop ε σ α) : Loop ε σ α :=
  match _h : loop.turn with
  | none => loop
  | some next => next.rest
termination_by less_wellFounded.wrap loop
decreasing_by exact turn_less _h

/-- Runs a program with all its parts: how it ends, and the last state. -/
def run (p : Program ε σ α) (state : σ) : Ending ε α × σ :=
  let loop := (start p false state).rest
  (loop.root.ending, loop.floor.state)

theorem rest_of_turn_eq_none {loop : Loop ε σ α} (h : loop.turn = none) : loop.rest = loop := by
  rw [rest]
  split
  · rfl
  · simp_all

theorem rest_of_turn_eq_some {loop next : Loop ε σ α} (h : loop.turn = some next) :
    loop.rest = next.rest := by
  rw [rest]
  split
  · simp_all
  · simp_all

/-- At most so many turns. -/
def turns : Nat → Loop ε σ α → Loop ε σ α
  | 0, loop => loop
  | n + 1, loop =>
    match loop.turn with
    | none => loop
    | some next => turns n next

/-- Enough turns bring the loop to rest. -/
theorem rest_eq_turns {n : Nat} {loop : Loop ε σ α} (h : (turns n loop).turn = none) :
    loop.rest = turns n loop := by
  induction n generalizing loop with
  | zero => exact rest_of_turn_eq_none h
  | succ n ih =>
    unfold turns at h ⊢
    split
    · rename_i still
      exact rest_of_turn_eq_none still
    · rename_i next moves
      rw [moves] at h
      exact (rest_of_turn_eq_some moves).trans (ih h)

theorem run_eq_turns {n : Nat} {p : Program ε σ α} {state : σ}
    (h : (turns n (start p false state)).turn = none) :
    run p state =
      ((turns n (start p false state)).root.ending,
        (turns n (start p false state)).floor.state) := by
  rw [run, rest_eq_turns h]

/-- The loop when the only ticket has just been drawn for the first program. -/
private def afterTurn (p : Program ε σ α) (held : Bool) (state : σ) : Loop ε σ α :=
  let (root, floor) := p.advance [] { state := state, held := held }
  ⟨root, floor⟩

private theorem rest_start (p : Program ε σ α) (held : Bool) (state : σ) :
    (start p held state).rest = (afterTurn p held state).rest :=
  rest_of_turn_eq_some rfl

private theorem rest_afterTurn (p : Program ε σ α) (held : Bool) (state : σ)
    (h : (p.alone held state).1 ≠ .stuck) :
    (afterTurn p held state).rest =
      ⟨.ended (p.alone held state).1,
        { state := (p.alone held state).2.2, held := (p.alone held state).2.1 }⟩ := by
  induction p generalizing held state with
  | done a => exact rest_of_turn_eq_none rfl
  | escape e => exact rest_of_turn_eq_none rfl
  | look next ih => exact ih state held state h
  | keep s next ih => exact ih held s h
  | pause next ih => exact (rest_start next held state).trans (ih held state h)
  | acquire next ih =>
    cases held with
    | false => exact ih true state h
    | true => exact absurd rfl h
  | release next ih => exact ih false state h
  | fork count part next _ ih =>
    by_cases none : count = 0
    · subst none
      exact ih [] held state h
    · simp [Program.alone, none] at h

/-- A program that can run alone ends in the loop as it does alone, and leaves nothing on the floor
but the state and the lock. -/
theorem rest_eq_of_alone (p : Program ε σ α) (held : Bool) (state : σ)
    (h : (p.alone held state).1 ≠ .stuck) :
    (start p held state).rest =
      ⟨.ended (p.alone held state).1,
        { state := (p.alone held state).2.2, held := (p.alone held state).2.1 }⟩ := by
  rw [rest_start, rest_afterTurn p held state h]

theorem run_eq_of_alone (p : Program ε σ α) (state : σ) (h : (p.alone false state).1 ≠ .stuck) :
    run p state = ((p.alone false state).1, (p.alone false state).2.2) := by
  simp only [run, rest_eq_of_alone p false state h, Thread.ending]

end Loop

end GatedConsole
