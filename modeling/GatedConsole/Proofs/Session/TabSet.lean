import GatedConsole.Proofs.Session.Authority
import GatedConsole.Proofs.Session.TabOrder
import GatedConsole.Proofs.Session.Telling
import GatedConsole.Session.Script

/-!
The set of tabs under any interleaving of steps. Main statement: at every moment there is an active
tab, the numbers of the tabs increase along the list, and each number has been given out once;
opening, closing and switching are single moves, each of which does to the tabs what it answers and
nothing else.
-/

set_option autoImplicit false
set_option relaxedAutoImplicit false

namespace GatedConsole

/-- The tabs are opened, closed, switched or changed under their numbers, unless these are out of
order. -/
def ShiftsTabs (before after : Session) : Prop :=
  before.host.tabs.InOrder → before.host.tabs.Shift after.host.tabs

theorem MovesTabs.shiftsTabs {before after : Session} (h : MovesTabs before after) :
    ShiftsTabs before after :=
  fun inOrder => (h inOrder.tidy).shift

namespace Session

open Program

/-! ## Steps -/

section Steps

variable {execute : Text → Work Desk Result}

theorem only_update_shiftsTabs (id : Nat) (change : Tab → Tab)
    (same : ∀ tab, (change tab).id = tab.id) (s : Session) :
    (Program.update (updateTab id change) : Work Desk Unit).Only ShiftsTabs s :=
  ⟨fun _ => .changed id change fun tab _ _ => same tab, trivial⟩

/-- A submission changes its tab three times, and never its number. -/
theorem only_submission_shiftsTabs (executes : ∀ line s, (execute line).Only ShiftsTabs s)
    (id : Nat) (command : Text) (s : Session) :
    (submission execute id command).Only ShiftsTabs s := by
  have shows (result : Result) (s : Session) :
      ((Program.update (updateTab id (·.showResult Interpreter.clearSequence result)) :
        Work Desk Unit).bind fun _ => .done result).Only ShiftsTabs s :=
    only_bind (only_update_shiftsTabs id _ (fun tab => by rw [Tab.showResult_eq]) s) fun _ _ =>
      trivial
  have answers (s : Session) : (executeAndShow execute id command).Only ShiftsTabs s :=
    only_bind (executes command s) shows
  refine only_bind (only_update_shiftsTabs id (·.begin command) (fun _ => rfl) s) fun _ s => ?_
  exact only_andFinally (answers s) (only_update_shiftsTabs id Tab.finish fun _ => rfl)

theorem only_submit_shiftsTabs (executes : ∀ line s, (execute line).Only ShiftsTabs s)
    (id : Option Nat) (s : Session) : (submit execute id).Only ShiftsTabs s := by
  change ((Program.read : Work Desk Session).bind _).Only ShiftsTabs s
  dsimp only [Program.read, Program.bind, Only]
  split
  · trivial
  · split
    · trivial
    · exact only_bind (only_submission_shiftsTabs executes _ _ s) fun _ _ => trivial

/-- A step that has no submission in it does not ask how lines are executed, unless it executes
one. -/
theorem only_work_shiftsTabs_of_quiet (registry : Registry) {step : Step}
    (quiet : submits step = false) (other : ∀ line, step ≠ .execute line) (s : Session) :
    (work registry execute step).Only ShiftsTabs s := by
  have unasked : work registry execute step = work registry (fun _ => .done default) step := by
    cases step with
    | execute line => exact absurd rfl (other line)
    | submit | enter | gather => cases quiet
    | _ => rw [work, work]
  have still (_ : Text) (s : Session) :
      (Program.done default : Work Desk Result).Only MovesTabs s := trivial
  have moves : (work registry (fun _ => .done default) step).Only MovesTabs s :=
    only_work registry still quiet s
  rw [unasked]
  exact only_mono (fun _ _ => MovesTabs.shiftsTabs) moves

mutual

/-- All that steps do to the tabs is to shift them, if executing a line does nothing else. -/
theorem only_work_shiftsTabs (registry : Registry)
    (executes : ∀ line s, (execute line).Only ShiftsTabs s) :
    ∀ (step : Step) (s : Session), (work registry execute step).Only ShiftsTabs s
  | .execute line, s => by
    rw [work]
    exact only_bind (executes line s) fun _ _ => trivial
  | .submit id, s => by
    rw [work]
    exact only_bind (only_submit_shiftsTabs executes id s) fun _ _ => trivial
  | .enter text id, s => by
    rw [work]
    refine only_bind (only_mono (fun _ _ => MovesTabs.shiftsTabs) (only_setBuffer text id s)) ?_
    exact fun _ s => only_bind (only_submit_shiftsTabs executes id s) fun _ _ => trivial
  | .gather steps, s => by
    rw [work]
    refine only_bind (p := Program.forkAll _) ⟨fun i t => ?_, fun _ _ => trivial⟩
      fun _ _ => trivial
    exact only_workAll_shiftsTabs registry executes steps _ (List.get_mem _ i) t
  | .suggest _, s | .candidates, s | .entries, s | .macros, s | .define .., s | .stored _, s
  | .store .., s | .failWrites _, s | .reload, s | .reopen, s | .user _, s | .setBuffer .., s
  | .complete _, s | .up _, s | .down _, s | .openTab _, s | .closeTab _, s | .switchTab _, s
  | .transcript _, s | .rendered _, s =>
    only_work_shiftsTabs_of_quiet registry rfl (fun _ => by nofun) s

theorem only_workAll_shiftsTabs (registry : Registry)
    (executes : ∀ line s, (execute line).Only ShiftsTabs s) :
    ∀ (steps : List Step), ∀ p ∈ workAll registry execute steps, ∀ s, p.Only ShiftsTabs s
  | [] => fun _ mem => by
    rw [workAll] at mem
    cases mem
  | step :: steps => fun p mem => by
    rw [workAll, List.mem_cons] at mem
    rcases mem with rfl | mem
    · exact only_work_shiftsTabs registry executes step
    · exact only_workAll_shiftsTabs registry executes steps p mem

end

end Steps

theorem only_program_shiftsTabs {commands : CommandSet Desk} (bodies : commands.Only ShiftsTabs)
    (step : Step) (s : Session) : (program commands step).Only ShiftsTabs s := by
  have own (m m' : Session) (move : OwnMove m m') : ShiftsTabs m m' :=
    (movesTabs_of_eq (congrArg Desk.tabs move.host)).shiftsTabs
  exact only_work_shiftsTabs commands.registry (Interpreter.only_execute own bodies) step s

/-- Commands with scripts shift the tabs, whatever steps their scripts take. -/
theorem ofScripts_only_shiftsTabs (registry : Registry) (scripts : Descriptor → Script) :
    (CommandSet.ofScripts registry scripts).Only ShiftsTabs := by
  intro d invocation user s
  have pausing (n : Nat) (s : Session) : (Program.pauses n : Work Desk Unit).Only ShiftsTabs s := by
    induction n generalizing s with
    | zero => trivial
    | succ n ih => exact fun t => ih t
  have aside (step : Step) (s : Session) :
      (Script.takeAside registry step).Only ShiftsTabs s := by
    have still (line : Text) (s : Session) : (Script.executeWithin line).Only ShiftsTabs s :=
      fun _ => trivial
    exact only_bind (only_work_shiftsTabs registry still step s) fun reply s =>
      ⟨(movesTabs_of_eq rfl).shiftsTabs, trivial⟩
  have asides (steps : List Step) (s : Session) :
      (Script.takeAsides registry steps).Only ShiftsTabs s := by
    induction steps generalizing s with
    | nil => trivial
    | cons step steps ih => exact only_bind (aside step s) fun _ s => ih s
  refine only_bind (pausing _ s) fun _ s => only_bind (asides _ s) fun _ s => ?_
  cases (scripts d).conclusion <;> trivial

/-! ## Sessions -/

/-- The tabs after each change of the session, when the steps are taken one after the other. -/
def moments (commands : CommandSet Desk) (s : Session) : List Step → List Tabs
  | [] => []
  | step :: steps =>
    Loop.log (fun _ after => [after.host.tabs]) (program commands step) s ++
      moments commands (take commands s step).2 steps

theorem shifts_moments {commands : CommandSet Desk} (bodies : commands.Only ShiftsTabs)
    {s : Session} (inOrder : s.host.tabs.InOrder) (steps : List Step) :
    Tabs.Shifts s.host.tabs (moments commands s steps)
      (takeAll commands s steps).2.host.tabs := by
  induction steps generalizing s with
  | nil => exact .stop _
  | cons step steps ih =>
    -- While the step is under way, the moments up to now lead from its first tabs to the present.
    let Led (now : Session × List Tabs) : Prop := s.host.tabs.Shifts now.2 now.1.host.tabs
    have stable (t u : Session) (log : List Tabs) (h : ShiftsTabs t u) (now : Led (t, log)) :
        Led (u, log ++ [u.host.tabs]) :=
      Tabs.Shifts.append now (.shift (h (inOrder.shifts now)) (.stop _))
    have led : Led ((take commands s step).2, _) :=
      Loop.run_log (fun _ after => [after.host.tabs])
        (steady_watch_of_only _ stable (only_program_shiftsTabs bodies step)) (.stop _)
    exact led.append (ih (inOrder.shifts led))

/-- What closing a tab answers and does. -/
theorem closeTab_of_inOrder {s : Session} (inOrder : s.host.tabs.InOrder) (id : Nat) :
    (2 ≤ s.host.tabs.toList.length ∧ id ∈ s.host.tabs.ids →
        ∃ tabs, s.host.tabs.Closes id tabs ∧ closeTab id s = (.bool true, s.setTabs tabs)) ∧
      (¬ (2 ≤ s.host.tabs.toList.length ∧ id ∈ s.host.tabs.ids) →
        closeTab id s = (.bool false, s)) := by
  refine ⟨?_, ?_⟩
  · intro possible
    cases closed : s.host.tabs.close? id with
    | none => exact absurd possible (Tabs.close?_eq_none_iff.1 closed)
    | some tabs =>
      refine ⟨tabs, inOrder.closes closed, ?_⟩
      rw [closeTab, Session.tabs, closed]
  · intro impossible
    rw [closeTab, Session.tabs, Tabs.close?_eq_none_iff.2 impossible]

/-- What switching to a tab answers and does. -/
theorem switchTab_of_inOrder {s : Session} (inOrder : s.host.tabs.InOrder) (id : Nat) :
    (id ∈ s.host.tabs.ids →
        ∃ tabs, s.host.tabs.Switches id tabs ∧ switchTab id s = (.number id, s.setTabs tabs)) ∧
      (id ∉ s.host.tabs.ids → switchTab id s = (.nothing, s)) := by
  refine ⟨?_, ?_⟩
  · intro open_
    cases switched : s.host.tabs.switch? id with
    | none => exact absurd open_ (Tabs.switch?_eq_none_iff.1 switched)
    | some tabs =>
      refine ⟨tabs, inOrder.switches switched, ?_⟩
      rw [switchTab, Session.tabs, switched]
  · intro closed
    rw [switchTab, Session.tabs, Tabs.switch?_eq_none_iff.2 closed]

/-- Whatever steps are taken, one after the other or gathered, while whatever submissions are under
way: at every moment there is an active tab among the tabs, their numbers increase, and the numbers
given out so far are the first ones, each given out once. At any such moment, closing succeeds for
an open tab that is not the only one, and removes it; switching succeeds for an open tab, and makes
it active; a new tab gets the next number. Each of the three is one move. -/
theorem inOrder_takeAll (commands : CommandSet Desk) (bodies : commands.Only ShiftsTabs)
    (user : User) (macros : Macros) (history : History) (steps : List Step) :
    (∀ before tabs after,
        moments commands (.ofUser user macros history) steps = before ++ tabs :: after →
          tabs.InOrder ∧ tabs.toList[tabs.before.length]? = some tabs.active ∧
            (Tabs.ofUser user).ids ++ (Tabs.ofUser user).issuedOver (before ++ [tabs]) =
              List.range' 1 (tabs.nextId - 1)) ∧
      (takeAll commands (.ofUser user macros history) steps).2.host.tabs.InOrder ∧
      (takeAll commands (.ofUser user macros history) steps).2.host.tabs =
        (moments commands (.ofUser user macros history) steps).getLast?.getD (.ofUser user) ∧
      (∀ s : Session, s.host.tabs.InOrder →
        (∀ id,
          (2 ≤ s.host.tabs.toList.length ∧ id ∈ s.host.tabs.ids →
            ∃ tabs, s.host.tabs.Closes id tabs ∧ closeTab id s = (.bool true, s.setTabs tabs)) ∧
          (¬ (2 ≤ s.host.tabs.toList.length ∧ id ∈ s.host.tabs.ids) →
            closeTab id s = (.bool false, s)) ∧
          (id ∈ s.host.tabs.ids →
            ∃ tabs, s.host.tabs.Switches id tabs ∧ switchTab id s = (.number id, s.setTabs tabs)) ∧
          (id ∉ s.host.tabs.ids → switchTab id s = (.nothing, s))) ∧
        s.host.tabs.nextId ∉ s.host.tabs.ids ∧
        ∀ title, openTab title s = (.number s.host.tabs.nextId,
          s.setTabs ⟨s.host.tabs.toList,
            .new s.host.tabs.nextId (Tabs.titleOf title s.host.tabs.nextId) s.user, [],
            s.host.tabs.nextId + 1⟩)) ∧
      (∀ id, program commands (.closeTab id) = Program.act (closeTab id)) ∧
      (∀ id, program commands (.switchTab id) = Program.act (switchTab id)) ∧
      ∀ title, program commands (.openTab title) = Program.act (openTab title) := by
  have first : (Tabs.ofUser user).InOrder := Tabs.inOrder_ofUser user
  have shifts : (Tabs.ofUser user).Shifts
      (moments commands (.ofUser user macros history) steps)
      (takeAll commands (.ofUser user macros history) steps).2.host.tabs :=
    shifts_moments (s := .ofUser user macros history) bodies first steps
  refine ⟨?_, first.shifts shifts, shifts.last_eq, ?_, ?_, ?_, ?_⟩
  · intro before tabs after parts
    rw [parts] at shifts
    obtain ⟨more, issued⟩ := first.issuedOver_eq shifts.split
    refine ⟨first.shifts shifts.split, tabs.getElem?_length_before, ?_⟩
    have two : 2 ≤ tabs.nextId := more
    have all : tabs.nextId - 1 = 1 + (tabs.nextId - 2) := by omega
    rw [issued, all, ← List.range'_append_1]
    rfl
  · intro s inOrder
    refine ⟨fun id => ?_, ?_, fun _ => rfl⟩
    · obtain ⟨closes, stays⟩ := closeTab_of_inOrder inOrder id
      obtain ⟨switches, remains⟩ := switchTab_of_inOrder inOrder id
      exact ⟨closes, stays, switches, remains⟩
    · exact fun mem => Nat.lt_irrefl _ (inOrder.lt_nextId _ mem)
  · intro id
    rw [program, work]
  · intro id
    rw [program, work]
  · intro title
    rw [program, work]

/-- A command that closes the first tab, asks for the second one to be closed, and opens another. -/
def leaveCommands : CommandSet Desk :=
  .ofScripts ⟨[{ name := "leave" }], by decide⟩ fun _ =>
    { pauses := 1, steps := [.closeTab 1, .closeTab 2, .openTab none],
      conclusion := .result (.ok []) }

/-- The command is submitted in the first tab; while it is under way, the second tab is opened. -/
def leaveStep : Step := .gather [.enter "leave" (some 1), .openTab none]

/-- The tab of the submission is closed, the last tab is not, and no number comes back. -/
theorem inOrder_takeAll_leave :
    leaveCommands.Only ShiftsTabs ∧
      (takeAll leaveCommands watchSession [leaveStep]).2.host.tabs.ids = [2, 3] ∧
      (takeAll leaveCommands watchSession [leaveStep]).2.host.tabs.InOrder := by
  have bodies : leaveCommands.Only ShiftsTabs := ofScripts_only_shiftsTabs _ _
  have still : (Loop.turns 40
      (Loop.start (program leaveCommands leaveStep) false watchSession)).turn = none := rfl
  have after : (takeAll leaveCommands watchSession [leaveStep]).2.host.tabs.ids = [2, 3] := by
    change (Loop.start (program leaveCommands leaveStep) false
      watchSession).rest.floor.state.host.tabs.ids = _
    rw [Loop.rest_eq_turns still]
    rfl
  exact ⟨bodies, after, (inOrder_takeAll leaveCommands bodies { username := "eve" } _
    .ofDefaultCapacity [leaveStep]).2.1⟩

end Session

end GatedConsole
