import GatedConsole.Proofs.Interpreter.Moves
import GatedConsole.Proofs.Session.Chronicle
import GatedConsole.Proofs.Session.Trace
import GatedConsole.Proofs.Task.Tokens

/-!
Steps that tell what they do to the tabs. Main statement: whatever steps are taken, in turns or
gathered, the glimpses of the tabs that they leave make a chronicle, and the steps end as they do
without telling anything.
-/

set_option autoImplicit false
set_option relaxedAutoImplicit false

namespace GatedConsole

/-- The tabs change as they do outside of submissions, unless their numbers are in disorder. -/
def MovesTabs (before after : Session) : Prop :=
  before.host.tabs.Tidy → before.host.tabs.Move after.host.tabs

namespace Session

variable {α β : Type}

/-- A program that carries a log of glimpses. -/
abbrev Telling (α : Type) := Program Escape (Session × List Glimpse) α

/-- The program, with a glimpse of the tabs after each of its changes. -/
def telling (event : Option (Nat × TabEvent)) (p : Work Desk α) : Telling α :=
  p.watch fun _ after => [⟨event, after.host.tabs⟩]

/-! ## Submissions that tell what they do -/

/-- The line of a submission, from when it waits for its turn to when its result is shown. -/
def answerTelling (execute : Text → Work Desk Result) (id : Nat) (command : Text) :
    Telling Result := do
  let result ← telling none (execute command)
  telling (some (id, .answered result))
    (Program.update (updateTab id (·.showResult Interpreter.clearSequence result)))
  pure result

def submissionTelling (execute : Text → Work Desk Result) (id : Nat) (command : Text) :
    Telling Result := do
  telling (some (id, .begun command)) (Program.update (updateTab id (·.begin command)))
  (answerTelling execute id command).andFinally
    (telling (some (id, .ended)) (Program.update (updateTab id Tab.finish)))

def submitTelling (execute : Text → Work Desk Result) (id : Option Nat) :
    Telling (Option Result) := do
  let now ← Program.read
  match Session.tab? now.1 id with
  | none => pure none
  | some tab =>
    if tab.executing || tab.buffer.strip = [] then pure none
    else some <$> submissionTelling execute tab.id tab.buffer.strip

mutual

def workTelling (registry : Registry) (execute : Text → Work Desk Result) : Step → Telling Reply
  | .submit id => Reply.ofResult? <$> submitTelling execute id
  | .enter text id => do
    let _ ← telling none (setBuffer text id)
    Reply.ofResult? <$> submitTelling execute id
  | .gather steps => do
    let endings ← Program.forkAll (workAllTelling registry execute steps)
    pure (.many (endings.map Reply.ofEnding))
  | step => telling none (work registry execute step)

def workAllTelling (registry : Registry) (execute : Text → Work Desk Result) :
    List Step → List (Telling Reply)
  | [] => []
  | step :: steps => workTelling registry execute step :: workAllTelling registry execute steps

end

/-- A submission, or a step that has one in it or in its parts. -/
def submits : Step → Bool
  | .submit _ | .enter .. | .gather _ => true
  | _ => false

open Program

theorem workTelling_eq {registry : Registry} {execute : Text → Work Desk Result} {step : Step}
    (quiet : submits step = false) :
    workTelling registry execute step = telling none (work registry execute step) := by
  cases step with
  | submit | enter | gather => cases quiet
  | _ => rw [workTelling] <;> nofun

theorem logged_submissionTelling (execute : Text → Work Desk Result) (id : Nat) (command : Text) :
    (submissionTelling execute id command).Logged (submission execute id command) := by
  have answers : (answerTelling execute id command).Logged (executeAndShow execute id command) :=
    (watch_logged _ _).bind fun result => (watch_logged _ _).bind fun _ => .done result
  exact (watch_logged _ _).bind fun _ => answers.andFinally (watch_logged _ _)

theorem logged_submitTelling (execute : Text → Work Desk Result) (id : Option Nat) :
    (submitTelling execute id).Logged (submit execute id) := by
  refine .look fun now => ?_
  dsimp only [Program.bind]
  cases Session.tab? now.1 id with
  | none => exact .done none
  | some tab =>
    dsimp only
    split
    · exact .done none
    · exact (logged_submissionTelling execute tab.id _).map some

mutual

theorem logged_workTelling (registry : Registry) (execute : Text → Work Desk Result) :
    ∀ step : Step, (workTelling registry execute step).Logged (work registry execute step)
  | .submit id => by
    rw [workTelling, work]
    exact (logged_submitTelling execute id).map _
  | .enter text id => by
    rw [workTelling, work]
    exact (watch_logged _ _).bind fun _ => (logged_submitTelling execute id).map _
  | .gather steps => by
    rw [workTelling, work]
    exact (Logged.forkAll (logged_workAllTelling registry execute steps)).bind fun _ => .done _
  | .execute _ | .suggest _ | .candidates | .entries | .macros | .define .. | .stored _
  | .store .. | .failWrites _ | .reload | .reopen | .user _ | .setBuffer .. | .complete _ | .up _
  | .down _ | .openTab _ | .closeTab _ | .switchTab _ | .transcript _ | .rendered _ => by
    rw [workTelling_eq rfl]
    exact watch_logged _ _

theorem logged_workAllTelling (registry : Registry) (execute : Text → Work Desk Result) :
    ∀ steps : List Step, List.Forall₂ Logged (workAllTelling registry execute steps)
      (workAll registry execute steps)
  | [] => by
    rw [workAllTelling, workAll]
    exact .nil
  | step :: steps => by
    rw [workAllTelling, workAll]
    exact .cons (logged_workTelling registry execute step)
      (logged_workAllTelling registry execute steps)

end

/-! ## Tokens -/

/-- A program holds the token of a stage while its submission is there. -/
abbrev Tokens := Nat → Stage → Nat

def token (id : Nat) (stage : Stage) : Tokens := fun i s => if i = id ∧ s = stage then 1 else 0

/-- The tokens of all submissions under way. -/
def tokensOf (log : List Glimpse) : Tokens :=
  fun id stage => if stageOf (eventsOf id log) = stage ∧ stage ≠ .idle then 1 else 0

/-- The glimpses make a chronicle of the tabs, and the tokens are those of its submissions. -/
def Tells (user : User) (tokens : Tokens) (now : Session × List Glimpse) : Prop :=
  Chronicle user now.2 now.1.host.tabs ∧ tokens = tokensOf now.2

/-- The stages of the tabs that submissions are under way in. -/
def stagesOf (log : List Glimpse) : Nat → Option Stage := fun id =>
  if stageOf (eventsOf id log) = .idle then none else some (stageOf (eventsOf id log))

theorem tokensOf_eq (log : List Glimpse) : tokensOf log = tokensAt (stagesOf log) := by
  funext id stage
  rw [tokensOf, tokensAt, stagesOf]
  cases stageOf (eventsOf id log) <;> cases stage <;> rfl

theorem tokensOf_concat_none (log : List Glimpse) (tabs : Tabs) :
    tokensOf (log ++ [⟨none, tabs⟩]) = tokensOf log := by
  funext id stage
  rw [tokensOf, eventsOf_concat_none, tokensOf]

/-- An event changes the stage of its own tab only. -/
theorem stagesOf_concat (log : List Glimpse) (id : Nat) (e : TabEvent) (tabs : Tabs) :
    stagesOf (log ++ [⟨some (id, e), tabs⟩]) = Function.update (stagesOf log) id
      (if e.stage = .idle then none else some e.stage) := by
  funext i
  by_cases same : i = id
  · subst same
    rw [Function.update_self, stagesOf, eventsOf_concat_self, stageOf_concat]
  · rw [Function.update_of_ne same, stagesOf, eventsOf_concat_of_ne (Ne.symm same), stagesOf]

theorem tokensOf_begun {log : List Glimpse} {id : Nat} (idle : stageOf (eventsOf id log) = .idle)
    (command : Text) (tabs : Tabs) :
    tokensOf (log ++ [⟨some (id, .begun command), tabs⟩]) = token id .pending + tokensOf log := by
  rw [tokensOf_eq, tokensOf_eq, stagesOf_concat]
  exact tokensAt_update_of_none (if_pos idle) Stage.pending

/-- Whoever holds the token of a stage knows that the submission is there. -/
theorem of_token_add {log : List Glimpse} {id : Nat} {stage : Stage} {others : Tokens}
    (h : token id stage + others = tokensOf log) :
    stage ≠ .idle ∧ stageOf (eventsOf id log) = stage := by
  rw [tokensOf_eq] at h
  have there := (of_tokenAt_add h).1
  unfold stagesOf at there
  split at there
  · cases there
  · rename_i busy
    obtain rfl := Option.some.inj there
    exact ⟨busy, rfl⟩

theorem tokensOf_exchange {log : List Glimpse} {id : Nat} {stage : Stage} {others : Tokens}
    (h : token id stage + others = tokensOf log) (e : TabEvent) (tabs : Tabs) :
    tokensOf (log ++ [⟨some (id, e), tabs⟩]) =
      (if e.stage = .idle then 0 else token id e.stage) + others := by
  rw [tokensOf_eq] at h ⊢
  rw [stagesOf_concat, tokensAt_update h]
  cases e <;> rfl

/-! ## Steps in general -/

section General

variable {μ : Type} [AddCommMonoid μ] {J : μ → Session × List Glimpse → Prop}
  {execute : Text → Work Desk Result}

theorem mem_of_tab? {s : Session} {id : Option Nat} {tab : Tab} (h : Session.tab? s id = some tab) :
    tab ∈ s.host.tabs.toList := by
  cases id with
  | none =>
    rw [← Option.some.inj h]
    exact s.host.tabs.mem_toList_active
  | some id => exact List.mem_of_find?_eq_some h

/-- What submissions keep that have begun, submitting keeps. -/
theorem lawful_submitTelling_of
    (submits : ∀ now others, J others now → ∀ tab ∈ now.1.host.tabs.toList,
      tab.executing = false → tab.buffer.strip ≠ [] →
        (submissionTelling execute tab.id tab.buffer.strip).Holds J (AnyEnd J) 0 now others)
    (id : Option Nat) : (submitTelling execute id).Lawful J := by
  intro now others h
  rw [submitTelling, holds_read]
  cases found : Session.tab? now.1 id with
  | none => exact h
  | some tab =>
    dsimp only
    split
    · exact h
    · rename_i free
      simp only [Bool.or_eq_true, decide_eq_true_eq, not_or, Bool.not_eq_true] at free
      rw [zero_add] at h
      exact holds_map some (submits now others h tab (mem_of_tab? found) free.1 free.2)

mutual

/-- What submitting and all other steps keep, every step keeps together with its parts. -/
theorem lawful_workTelling_of {P : Step → Prop} (registry : Registry)
    (quiet : ∀ step, submits step = false → P step →
      (telling none (work registry execute step)).Lawful J)
    (submitting : ∀ id, (submitTelling execute id).Lawful J)
    (typing : ∀ text id, P (.enter text id) → P (.setBuffer text id))
    (parts : ∀ steps, P (.gather steps) → ∀ step ∈ steps, P step) :
    ∀ step : Step, P step → (workTelling registry execute step).Lawful J
  | .submit id, _ => by
    rw [workTelling]
    exact lawful_map _ (submitting id)
  | .enter text id, h => by
    have typed := quiet (.setBuffer text id) rfl (typing text id h)
    rw [work] at typed
    rw [workTelling]
    exact lawful_bind typed fun _ => lawful_map _ (submitting id)
  | .gather steps, h => by
    rw [workTelling]
    intro now others its
    refine ⟨its, fun i now others its => ?_, fun _ _ _ its => its⟩
    exact lawful_workAllTelling_of registry quiet submitting typing parts steps (parts steps h) _
      (List.get_mem _ i) now others its
  | .execute _, h | .suggest _, h | .candidates, h | .entries, h | .macros, h | .define .., h
  | .stored _, h | .store .., h | .failWrites _, h | .reload, h | .reopen, h | .user _, h
  | .setBuffer .., h | .complete _, h | .up _, h | .down _, h | .openTab _, h | .closeTab _, h
  | .switchTab _, h | .transcript _, h | .rendered _, h => by
    rw [workTelling_eq rfl]
    exact quiet _ rfl h

theorem lawful_workAllTelling_of {P : Step → Prop} (registry : Registry)
    (quiet : ∀ step, submits step = false → P step →
      (telling none (work registry execute step)).Lawful J)
    (submitting : ∀ id, (submitTelling execute id).Lawful J)
    (typing : ∀ text id, P (.enter text id) → P (.setBuffer text id))
    (parts : ∀ steps, P (.gather steps) → ∀ step ∈ steps, P step) :
    ∀ steps : List Step, (∀ step ∈ steps, P step) →
      ∀ p ∈ workAllTelling registry execute steps, p.Lawful J
  | [], _ => fun _ mem => by
    rw [workAllTelling] at mem
    cases mem
  | step :: steps, h => fun p mem => by
    rw [workAllTelling, List.mem_cons] at mem
    rcases mem with rfl | mem
    · exact lawful_workTelling_of registry quiet submitting typing parts step
        (h step List.mem_cons_self)
    · exact lawful_workAllTelling_of registry quiet submitting typing parts steps
        (fun step mem => h step (List.mem_cons_of_mem _ mem)) p mem

end

end General

section Steps

variable {user : User} {execute : Text → Work Desk Result}

theorem tells_move (tokens : Tokens) (s t : Session) (log : List Glimpse) (moves : MovesTabs s t)
    (now : Tells user tokens (s, log)) :
    Tells user tokens (t, log ++ [⟨none, t.host.tabs⟩]) := by
  obtain ⟨chronicle, same⟩ := now
  refine ⟨.change chronicle (.move (moves chronicle.tidy)), ?_⟩
  rw [tokensOf_concat_none]
  exact same

theorem lawful_telling {p : Work Desk α} (moves : ∀ s, p.Only MovesTabs s) :
    (telling none p).Lawful (Tells user) := by
  intro s others now
  exact holds_mono (holds_watch_of_only tells_move (moves s.1) now) fun _ _ _ _ kept => kept.2

/-- A submission's change of its tab, with its event and the tokens that there are then. -/
theorem tells_event {log : List Glimpse} {s : Session} {id : Nat} {e : TabEvent}
    {change : Tab → Tab} {tokens : Tokens} (h : Chronicle user log s.host.tabs)
    (changes : Change log s.host.tabs (some (id, e)) (s.host.tabs.update id change))
    (same : tokensOf (log ++ [⟨some (id, e), (updateTab id change s).host.tabs⟩]) = tokens) :
    Tells user tokens (updateTab id change s,
      log ++ [⟨some (id, e), (updateTab id change s).host.tabs⟩]) :=
  ⟨.change h changes, same.symm⟩

/-- Behind its beginning a submission holds the token of the stage that it is in. -/
theorem holds_answerTelling (executes : ∀ line s, (execute line).Only MovesTabs s) (id : Nat)
    (command : Text) {others : Tokens} {now : Session × List Glimpse}
    (h : Tells user (token id .pending + others) now) :
    (answerTelling execute id command).Holds (Tells user)
      (fun _ own now others => Tells user (own + others) now ∧ ∃ stage, own = token id stage)
      (token id .pending) now others := by
  refine holds_bind (holds_watch_of_only tells_move (executes command now.1) h) ?_ ?_
  · rintro result _ now others ⟨rfl, chronicle, tokens⟩
    have after := tells_event chronicle (.answer id (of_token_add tokens).2 result)
      (tokensOf_exchange tokens (.answered result) _)
    exact ⟨token id .answered, after, .answered, rfl⟩
  · rintro cause _ now others ⟨rfl, now⟩
    exact ⟨now, .pending, rfl⟩

theorem holds_submissionTelling (executes : ∀ line s, (execute line).Only MovesTabs s) {tab : Tab}
    {others : Tokens} {now : Session × List Glimpse} (h : Tells user others now)
    (mem : tab ∈ now.1.host.tabs.toList) (idle : tab.executing = false)
    (some_line : tab.buffer.strip ≠ []) :
    (submissionTelling execute tab.id tab.buffer.strip).Holds (Tells user)
      (AnyEnd (Tells user)) 0 now others := by
  obtain ⟨chronicle, rfl⟩ := h
  have begun := tells_event chronicle (.begin tab mem idle some_line)
    (tokensOf_begun (chronicle.stageOf_eq_idle mem idle) tab.buffer.strip _)
  refine ⟨token tab.id .pending, ?_⟩
  refine holds_andFinally (holds_answerTelling executes tab.id _ begun) ?_
  rintro _ _ now others ⟨⟨chronicle, tokens⟩, stage, rfl⟩
  obtain ⟨busy, there⟩ := of_token_add tokens
  exact ⟨0, tells_event chronicle (.finish tab.id (there ▸ busy))
    (tokensOf_exchange tokens .ended _)⟩

theorem lawful_submitTelling (executes : ∀ line s, (execute line).Only MovesTabs s)
    (id : Option Nat) : (submitTelling execute id).Lawful (Tells user) := by
  refine lawful_submitTelling_of (fun now others h tab mem idle some_line => ?_) id
  exact holds_submissionTelling executes h mem idle some_line

/-! ## Moves -/

theorem movesTabs_of_eq {s t : Session} (h : t.host.tabs = s.host.tabs) : MovesTabs s t := by
  intro _
  rw [h]
  exact .stay

theorem only_act {f : Session → α × Session} (h : ∀ s, MovesTabs s (f s).2) (s : Session) :
    (Program.act f : Work Desk α).Only MovesTabs s :=
  ⟨h s, trivial⟩

theorem only_onTab (id : Option Nat) {move : Session → Tab → Reply × Session}
    (h : ∀ s tab, tab ∈ s.host.tabs.toList → MovesTabs s (move s tab).2) (s : Session) :
    (onTab id move).Only MovesTabs s := by
  refine only_act (fun s => ?_) s
  cases found : Session.tab? s id with
  | none => exact movesTabs_of_eq rfl
  | some tab => exact h s tab (mem_of_tab? found)

theorem movesTabs_updateTab {change : Tab → Tab} (aside : ∀ tab : Tab, tab.Aside (change tab))
    (id : Nat) (s : Session) : MovesTabs s (updateTab id change s) :=
  fun _ => .aside id change fun tab _ _ => aside tab

theorem only_setBuffer (text : Text) (id : Option Nat) :
    ∀ s, (setBuffer text id).Only MovesTabs s :=
  only_onTab id fun s tab _ => movesTabs_updateTab (fun _ => .typed text) tab.id s

theorem movesTabs_complete (registry : Registry) (s : Session) (tab : Tab)
    (mem : tab ∈ s.host.tabs.toList) : MovesTabs s (complete registry s tab).2 := by
  unfold complete
  split
  · exact movesTabs_of_eq rfl
  · rename_i idle
    intro tidy
    refine .aside tab.id _ fun tab' mem' same => ?_
    obtain rfl := tidy.eq_of_id mem' mem same
    exact .suggested (Bool.eq_false_iff.2 idle) _

theorem movesTabs_closeTab (id : Nat) (s : Session) : MovesTabs s (closeTab id s).2 := by
  unfold closeTab
  split
  · exact movesTabs_of_eq rfl
  · rename_i tabs closed
    exact fun _ => .closed id closed

theorem movesTabs_switchTab (id : Nat) (s : Session) : MovesTabs s (switchTab id s).2 := by
  unfold switchTab
  split
  · exact movesTabs_of_eq rfl
  · rename_i tabs switched
    exact fun _ => .switched id switched

theorem movesTabs_reload (s : Session) : MovesTabs s (reload s).2 := by
  unfold reload
  split <;> exact movesTabs_of_eq rfl

theorem movesTabs_reopen (s : Session) : MovesTabs s (reopen s).2 := by
  unfold reopen
  split <;> exact movesTabs_of_eq rfl

theorem movesTabs_changeUser (form : UserForm) (s : Session) :
    MovesTabs s (changeUser form s).2 := by
  unfold changeUser
  split <;> exact movesTabs_of_eq rfl

/-- All that steps without submissions do to the tabs are moves. -/
theorem only_work (registry : Registry) (executes : ∀ line s, (execute line).Only MovesTabs s)
    {step : Step} (quiet : submits step = false) :
    ∀ s, (work registry execute step).Only MovesTabs s := by
  cases step with
  | submit | enter | gather => cases quiet
  | execute line =>
    rw [work]
    exact fun s => only_bind (executes line s) fun _ _ => trivial
  | suggest | candidates | entries | macros | define | stored | store | failWrites =>
    rw [work]
    exact only_act fun _ => movesTabs_of_eq rfl
  | reload =>
    rw [work]
    exact only_act movesTabs_reload
  | reopen =>
    rw [work]
    exact only_act movesTabs_reopen
  | user form =>
    rw [work]
    exact only_act (movesTabs_changeUser form)
  | setBuffer text id =>
    rw [work]
    exact only_setBuffer text id
  | complete id =>
    rw [work]
    exact only_onTab id fun s tab mem => movesTabs_complete registry s tab mem
  | up id =>
    rw [work]
    exact only_onTab id fun s tab _ => movesTabs_updateTab (fun _ => .back) tab.id s
  | down id =>
    rw [work]
    exact only_onTab id fun s tab _ => movesTabs_updateTab (fun _ => .forth) tab.id s
  | openTab title =>
    rw [work]
    exact only_act fun s _ => .opened title s.user
  | closeTab id =>
    rw [work]
    exact only_act (movesTabs_closeTab id)
  | switchTab id =>
    rw [work]
    exact only_act (movesTabs_switchTab id)
  | transcript id | rendered id =>
    rw [work]
    exact only_onTab id fun _ _ _ => movesTabs_of_eq rfl

theorem lawful_workTelling (registry : Registry)
    (executes : ∀ line s, (execute line).Only MovesTabs s) (step : Step) :
    (workTelling registry execute step).Lawful (Tells user) :=
  lawful_workTelling_of (P := fun _ => True) registry
    (fun _ quiet _ => lawful_telling (only_work registry executes quiet))
    (lawful_submitTelling executes) (fun _ _ _ => trivial) (fun _ _ _ _ => trivial) step trivial

end Steps

/-! ## Sessions -/

def programTelling (commands : CommandSet Desk) (step : Step) : Telling Reply :=
  workTelling commands.registry (Interpreter.execute commands) step

/-- The session behind the steps, and the glimpses that they have left behind earlier ones. -/
def tellAll (commands : CommandSet Desk) (now : Session × List Glimpse) :
    List Step → Session × List Glimpse
  | [] => now
  | step :: steps => tellAll commands (Loop.run (programTelling commands step) now).2 steps

/-- The glimpses of the tabs that the steps leave when they are taken one after the other. -/
def glimpses (commands : CommandSet Desk) (s : Session) (steps : List Step) : List Glimpse :=
  (tellAll commands (s, []) steps).2

theorem tellAll_fst (commands : CommandSet Desk) (now : Session × List Glimpse)
    (steps : List Step) : (tellAll commands now steps).1 = (takeAll commands now.1 steps).2 := by
  induction steps generalizing now with
  | nil => rfl
  | cons step steps ih =>
    obtain ⟨-, state⟩ :=
      Loop.run_logged (logged_workTelling commands.registry (Interpreter.execute commands) step)
        now.1 now.2
    rw [tellAll, ih, takeAll]
    exact congrArg (fun s => (takeAll commands s steps).2) state

theorem tellAll_append (commands : CommandSet Desk) (now : Session × List Glimpse)
    (steps steps' : List Step) :
    tellAll commands now (steps ++ steps') =
      tellAll commands (tellAll commands now steps) steps' := by
  induction steps generalizing now with
  | nil => rfl
  | cons step steps ih => exact ih _

theorem only_execute {commands : CommandSet Desk} (bodies : commands.Only MovesTabs) (line : Text)
    (s : Session) : (Interpreter.execute commands line).Only MovesTabs s :=
  Interpreter.only_execute (fun _ _ own => movesTabs_of_eq (congrArg Desk.tabs own.host)) bodies
    line s

/-- Whatever steps are taken, the glimpses that they leave make a chronicle. -/
theorem chronicle_glimpses {commands : CommandSet Desk} (bodies : commands.Only MovesTabs)
    (user : User) (macros : Macros) (history : History) (steps : List Step) :
    Chronicle user (glimpses commands (.ofUser user macros history) steps)
      (takeAll commands (.ofUser user macros history) steps).2.host.tabs := by
  suffices ∀ (now : Session × List Glimpse) (tokens : Tokens), Tells user tokens now →
      ∃ tokens, Tells user tokens (tellAll commands now steps) by
    have empty : tokensOf [] = 0 := by
      funext id stage
      cases stage <;> rfl
    obtain ⟨tokens, chronicle, -⟩ := this (.ofUser user macros history, []) 0 ⟨.start, empty.symm⟩
    rw [tellAll_fst] at chronicle
    exact chronicle
  induction steps with
  | nil => exact fun now tokens h => ⟨tokens, h⟩
  | cons step steps ih =>
    intro now tokens h
    obtain ⟨tokens, after⟩ := Loop.run_lawful
      (lawful_workTelling commands.registry (only_execute bodies) step) tokens h
    exact ih _ tokens after

end Session

end GatedConsole
