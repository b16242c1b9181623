import GatedConsole.Proofs.Interpreter.Lines
import GatedConsole.Session.Run

/-!
Sequences of steps in a session, with the trace of the lines that they record. Main statement: an
invariant of session and trace that every recorded line keeps together with its response holds after
every sequence of steps, gathered ones included.
-/

set_option autoImplicit false
set_option relaxedAutoImplicit false

namespace GatedConsole

variable {η : Type}

/-- A change of the memory that records no line and logs no call. -/
def LeavesLogs (before after : Memory η) : Prop :=
  after.history = before.history ∧ after.calls = before.calls

/-- A change that leaves alone what lines do: history, calls, macro book and stored texts. It may
change the user, what stands around the interpreter, and whether writes fail. -/
structure LeavesLines (before after : Memory η) : Prop where
  history : after.history = before.history
  calls : after.calls = before.calls
  book : after.macros.book = before.macros.book
  key : after.macros.key = before.macros.key
  medium : after.macros.store.medium = before.macros.store.medium

theorem LeavesLines.refl (m : Memory η) : LeavesLines m m := ⟨rfl, rfl, rfl, rfl, rfl⟩

theorem LeavesLines.trans (m t u : Memory η) (h : LeavesLines m t) (h' : LeavesLines t u) :
    LeavesLines m u :=
  ⟨h'.history.trans h.history, h'.calls.trans h.calls, h'.book.trans h.book, h'.key.trans h.key,
    h'.medium.trans h.medium⟩

theorem LeavesLines.leavesLogs {before after : Memory η} (h : LeavesLines before after) :
    LeavesLogs before after :=
  ⟨h.history, h.calls⟩

/-- Every change that the bodies of the commands make is one of `G`. -/
def CommandSet.Only (G : Memory η → Memory η → Prop) (commands : CommandSet η) : Prop :=
  ∀ d invocation user m, (commands.body d invocation user).Only G m

theorem CommandSet.Only.leavesLogs {commands : CommandSet η} (h : commands.Only LeavesLines) :
    commands.Only LeavesLogs :=
  fun d invocation user m => Program.only_mono (fun _ _ => LeavesLines.leavesLogs)
    (h d invocation user m)

/-- Where a list with one more element is cut: at the new element, or before it. -/
theorem cut_of_append_singleton {α : Type} {l before after : List α} {new a : α}
    (h : l ++ [new] = before ++ a :: after) :
    (l = before ∧ new = a ∧ [] = after) ∨
      ∃ rest, after = rest ++ [new] ∧ l = before ++ a :: rest := by
  by_cases last : after = []
  · subst last
    obtain ⟨same, single⟩ := List.append_inj' h rfl
    exact .inl ⟨same, List.singleton_inj.1 single, rfl⟩
  · right
    have parts := List.dropLast_concat_getLast last
    rw [← parts, ← List.cons_append, ← List.append_assoc] at h
    obtain ⟨same, single⟩ := List.append_inj' h rfl
    exact ⟨after.dropLast, by rw [List.singleton_inj.1 single, parts], same⟩

namespace Step

variable (G : Session → Session → Prop)

mutual

/-- Whether what the step does to macros and stored texts other than through lines is one of `G`. -/
def Within : Step → Prop
  | .define name commands => ∀ s, G s (Session.define name commands s).2
  | .store key text => ∀ s, G s (Session.store key text s).2
  | .reload => ∀ s, G s (Session.reload s).2
  | .reopen => ∀ s, G s (Session.reopen s).2
  | .gather steps => AllWithin steps
  | .execute _ | .suggest _ | .candidates | .entries | .macros | .stored _ | .failWrites _
  | .user _ | .setBuffer .. | .submit _ | .enter .. | .complete _ | .up _ | .down _ | .openTab _
  | .closeTab _ | .switchTab _ | .transcript _ | .rendered _ => True

def AllWithin : List Step → Prop
  | [] => True
  | step :: steps => Within step ∧ AllWithin steps

end

end Step

namespace Session

/-- Takes steps one after the other: their answers, and the session behind the last of them. -/
def takeAll (commands : CommandSet Desk) (s : Session) : List Step → List Reply × Session
  | [] => ([], s)
  | step :: steps =>
    let (reply, s) := take commands s step
    let (replies, s) := takeAll commands s steps
    (reply :: replies, s)

/-- The lines that the steps record when they are taken one after the other, in order. -/
def trace (commands : CommandSet Desk) (s : Session) : List Step → List (Recorded Desk)
  | [] => []
  | step :: steps =>
    Loop.log Interpreter.recordedBetween (program commands step) s ++
      trace commands (take commands s step).2 steps

open Interpreter Program

/-! ## Moves that are no lines -/

theorem leavesLines_setTabs (s : Session) (tabs : Tabs) : LeavesLines s (s.setTabs tabs) :=
  ⟨rfl, rfl, rfl, rfl, rfl⟩

theorem leavesLines_updateTab (id : Nat) (change : Tab → Tab) (s : Session) :
    LeavesLines s (updateTab id change s) :=
  leavesLines_setTabs s _

theorem leavesLines_failWrites (fail : Bool) (s : Session) :
    LeavesLines s (failWrites fail s) :=
  ⟨rfl, rfl, rfl, rfl, rfl⟩

theorem leavesLines_changeUser (form : UserForm) (s : Session) :
    LeavesLines s (changeUser form s).2 := by
  unfold changeUser
  split
  · exact .refl s
  · exact ⟨rfl, rfl, rfl, rfl, rfl⟩

theorem leavesLines_closeTab (id : Nat) (s : Session) : LeavesLines s (closeTab id s).2 := by
  unfold closeTab
  split
  · exact .refl s
  · exact leavesLines_setTabs s _

theorem leavesLines_switchTab (id : Nat) (s : Session) : LeavesLines s (switchTab id s).2 := by
  unfold switchTab
  split
  · exact .refl s
  · exact leavesLines_setTabs s _

theorem leavesLines_complete (registry : Registry) (s : Session) (tab : Tab) :
    LeavesLines s (complete registry s tab).2 := by
  unfold complete
  split
  · exact .refl s
  · exact leavesLines_updateTab _ _ s

theorem leavesLogs_reload (s : Session) : LeavesLogs s (reload s).2 := by
  unfold reload
  split <;> exact ⟨rfl, rfl⟩

theorem leavesLogs_reopen (s : Session) : LeavesLogs s (reopen s).2 := by
  unfold reopen
  split <;> exact ⟨rfl, rfl⟩

mutual

/-- No step records a line or logs a call other than by having lines run. -/
theorem within_leavesLogs : ∀ step : Step, step.Within LeavesLogs
  | .define .. => fun _ => ⟨rfl, rfl⟩
  | .store .. => fun _ => ⟨rfl, rfl⟩
  | .reload => leavesLogs_reload
  | .reopen => leavesLogs_reopen
  | .gather steps => allWithin_leavesLogs steps
  | .execute _ | .suggest _ | .candidates | .entries | .macros | .stored _ | .failWrites _
  | .user _ | .setBuffer .. | .submit _ | .enter .. | .complete _ | .up _ | .down _ | .openTab _
  | .closeTab _ | .switchTab _ | .transcript _ | .rendered _ => trivial

theorem allWithin_leavesLogs : ∀ steps : List Step, Step.AllWithin LeavesLogs steps
  | [] => trivial
  | step :: steps => ⟨within_leavesLogs step, allWithin_leavesLogs steps⟩

end

/-! ## Steps -/

section Steps

variable {G : Session → Session → Prop} {I : Session × List (Recorded Desk) → Prop}
  {commands : CommandSet Desk} {execute : Text → Work Desk Result}

/-- The invariant survives every change in `G`, and no such change records a line. -/
structure Stable (G : Session → Session → Prop) (I : Session × List (Recorded Desk) → Prop) :
    Prop where
  asides : ∀ s t, LeavesLines s t → G s t
  silent : ∀ s t, G s t → t.history = s.history
  keeps : ∀ s t log, G s t → I (s, log) → I (t, log)

theorem Stable.keeps_log (stable : Stable G I) (s t : Session) (log : List (Recorded Desk))
    (h : G s t) (now : I (s, log)) : I (t, log ++ recordedBetween s t) := by
  rw [recordedBetween_eq_nil (stable.silent s t h), List.append_nil]
  exact stable.keeps s t log h now

theorem Stable.act (stable : Stable G I) {α : Type} {f : Session → α × Session}
    (h : ∀ s, G s (f s).2) : (listened (Program.act f)).Steady I :=
  steady_watch_of_only _ stable.keeps_log fun s => ⟨h s, trivial⟩

theorem Stable.aside (stable : Stable G I) {α : Type} {f : Session → α × Session}
    (h : ∀ s, LeavesLines s (f s).2) : (listened (Program.act f)).Steady I :=
  stable.act fun s => stable.asides s _ (h s)

theorem Stable.update (stable : Stable G I) {f : Session → Session}
    (h : ∀ s, LeavesLines s (f s)) : (listened (Program.update f)).Steady I :=
  stable.aside (f := fun s => ((), f s)) h

theorem Stable.onTab (stable : Stable G I) (id : Option Nat)
    {move : Session → Tab → Reply × Session} (h : ∀ s tab, LeavesLines s (move s tab).2) :
    (listened (Session.onTab id move)).Steady I := by
  apply stable.aside
  intro s
  split
  · exact .refl s
  · exact h s _

theorem Stable.submission (stable : Stable G I)
    (executes : ∀ line, (listened (execute line)).Steady I) (number : Nat) (text : Text) :
    (listened (Session.submission execute number text)).Steady I := by
  have changes (change : Tab → Tab) :
      (listened (Program.update (updateTab number change))).Steady I :=
    stable.update (leavesLines_updateTab _ _)
  have executed : (listened (executeAndShow execute number text)).Steady I := by
    change (listened ((execute text).bind fun result =>
      (Program.update (updateTab number (·.showResult clearSequence result))).bind fun _ =>
        .done result)).Steady I
    simp only [listened, watch_bind]
    exact steady_bind (executes text) fun result =>
      steady_bind (changes _) fun _ => steady_done result
  change (listened ((Program.update (updateTab number (·.begin text))).bind fun _ =>
    (executeAndShow execute number text).andFinally
      (Program.update (updateTab number Tab.finish)))).Steady I
  simp only [listened, watch_bind, watch_andFinally]
  exact steady_bind (changes _) fun _ => steady_andFinally executed (changes _)

theorem Stable.submit (stable : Stable G I)
    (executes : ∀ line, (listened (execute line)).Steady I) (id : Option Nat) :
    (listened (Session.submit execute id)).Steady I := by
  intro s now
  rw [Session.submit, Program.ensures_watch_read]
  split
  · exact now
  · rename_i tab _
    split
    · exact now
    · rw [watch_map]
      exact steady_map some (stable.submission executes tab.id tab.buffer.strip) s now

mutual

theorem Stable.work (stable : Stable G I) (registry : Registry)
    (executes : ∀ line, (listened (execute line)).Steady I) :
    ∀ step : Step, step.Within G → (listened (work registry execute step)).Steady I
  | .execute line, _ => by
    rw [Session.work, listened, watch_map]
    exact steady_map _ (executes line)
  | .suggest _, _ | .candidates, _ | .entries, _ | .macros, _ | .stored _, _ => by
    rw [Session.work]
    exact stable.aside .refl
  | .define _ _, within | .store _ _, within | .reload, within | .reopen, within => by
    rw [Session.work]
    exact stable.act within
  | .failWrites fail, _ => by
    rw [Session.work]
    exact stable.aside (leavesLines_failWrites fail)
  | .user form, _ => by
    rw [Session.work]
    exact stable.aside (leavesLines_changeUser form)
  | .setBuffer text id, _ => by
    rw [Session.work]
    exact stable.onTab id fun s _ => leavesLines_updateTab _ _ s
  | .submit id, _ => by
    rw [Session.work, listened, watch_map]
    exact steady_map _ (stable.submit executes id)
  | .enter text id, _ => by
    rw [Session.work]
    change (listened ((Session.setBuffer text id).bind fun _ =>
      Reply.ofResult? <$> Session.submit execute id)).Steady I
    simp only [listened, watch_bind, watch_map]
    exact steady_bind (stable.onTab id fun s _ => leavesLines_updateTab _ _ s) fun _ =>
      steady_map _ (stable.submit executes id)
  | .complete id, _ => by
    rw [Session.work]
    exact stable.onTab id fun s tab => leavesLines_complete registry s tab
  | .up id, _ | .down id, _ => by
    rw [Session.work]
    exact stable.onTab id fun s _ => leavesLines_updateTab _ _ s
  | .openTab _, _ => by
    rw [Session.work]
    exact stable.aside fun s => leavesLines_setTabs s _
  | .closeTab id, _ => by
    rw [Session.work]
    exact stable.aside (leavesLines_closeTab id)
  | .switchTab id, _ => by
    rw [Session.work]
    exact stable.aside (leavesLines_switchTab id)
  | .transcript id, _ | .rendered id, _ => by
    rw [Session.work]
    exact stable.onTab id fun s _ => .refl s
  | .gather steps, within => by
    rw [Session.work]
    intro s now
    refine ⟨now, ?_, fun _ _ later => later⟩
    intro i t later
    exact stable.workAll registry executes steps within _ (List.get_mem _ i) t later

theorem Stable.workAll (stable : Stable G I) (registry : Registry)
    (executes : ∀ line, (listened (execute line)).Steady I) :
    ∀ steps : List Step, Step.AllWithin G steps →
      ∀ p ∈ Session.workAll registry execute steps, (listened p).Steady I
  | [], _ => fun _ mem => by
    rw [Session.workAll] at mem
    cases mem
  | step :: steps, within => fun p mem => by
    rw [Session.workAll, List.mem_cons] at mem
    rcases mem with rfl | mem
    · exact stable.work registry executes step within.1
    · exact stable.workAll registry executes steps within.2 p mem

end

/-- A step keeps what recorded lines keep together with their responses. -/
theorem Stable.program (stable : Stable G I) (kept : KeptByLines commands.registry I)
    (bodies : commands.Only G) {step : Step} (within : step.Within G) :
    (listened (Session.program commands step)).Steady I := by
  apply stable.work commands.registry _ step within
  apply steady_execute kept
  intro d invocation user
  exact steady_watch_of_only _ stable.keeps_log (bodies d invocation user)

/-- The invariant of a session whose trace begins with lines from before. -/
private theorem Stable.behind (stable : Stable G I) (before : List (Recorded Desk)) :
    Stable G fun now => I (now.1, before ++ now.2) :=
  ⟨stable.asides, stable.silent, fun s t log => stable.keeps s t (before ++ log)⟩

private theorem keptByLines_behind {registry : Registry} (kept : KeptByLines registry I)
    (before : List (Recorded Desk)) :
    KeptByLines registry fun now => I (now.1, before ++ now.2) := by
  intro m log line some_line now
  have next := kept m (before ++ log) line some_line now
  rwa [List.append_assoc] at next

private theorem takeAll_kept_behind (stable : Stable G I)
    (kept : KeptByLines commands.registry I) (bodies : commands.Only G) {s : Session}
    {steps : List Step} (within : Step.AllWithin G steps) {before : List (Recorded Desk)}
    (now : I (s, before)) :
    I ((takeAll commands s steps).2, before ++ trace commands s steps) := by
  induction steps generalizing s before with
  | nil => rwa [trace, List.append_nil]
  | cons step steps ih =>
    have one := (stable.behind before).program (keptByLines_behind kept before) bodies within.1
    have after := Loop.run_log recordedBetween one (s := s) (by rwa [List.append_nil])
    rw [trace, ← List.append_assoc]
    exact ih within.2 after

/-- What recorded lines keep together with their responses holds after every sequence of steps. -/
theorem takeAll_kept (stable : Stable G I) (kept : KeptByLines commands.registry I)
    (bodies : commands.Only G) {s : Session} {steps : List Step}
    (within : Step.AllWithin G steps) (now : I (s, [])) :
    I ((takeAll commands s steps).2, trace commands s steps) := by
  have all := takeAll_kept_behind stable kept bodies within now
  rwa [List.nil_append] at all

end Steps

end Session

end GatedConsole
