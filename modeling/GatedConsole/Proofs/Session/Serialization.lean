import GatedConsole.Proofs.Interpreter.Hosted
import GatedConsole.Proofs.Session.Trace
import GatedConsole.Proofs.Task.Serial

/-!
Invocations that are gathered. A submission shows its line and locks its tab before it waits for its
turn, and everything else happens under the lock. Main statement: gathered invocations answer as
they do one after the other, and leave the same session.
-/

set_option autoImplicit false
set_option relaxedAutoImplicit false

namespace GatedConsole

/-! ## Tabs -/

namespace Tabs

def named? (tabs : Tabs) : Option Nat → Option Tab
  | none => some tabs.active
  | some id => tabs.get? id

/-- What a submission in a tab would submit: the number of the tab, and its line. -/
def typed? (tabs : Tabs) (id : Option Nat) : Option (Nat × Text) :=
  (tabs.named? id).bind fun tab =>
    if tab.executing || tab.buffer.strip = [] then none else some (tab.id, tab.buffer.strip)

/-- The tabs when a submission has begun, if there is one. -/
def begun (tabs : Tabs) : Option (Nat × Text) → Tabs
  | none => tabs
  | some (number, line) => tabs.update number (·.begin line)

theorem id_update (tabs : Tabs) (number : Nat) {change : Tab → Tab}
    (named : ∀ tab, (change tab).id = tab.id) :
    (tabs.update number change).active.id = tabs.active.id := by
  simp only [update]
  split
  · exact named _
  · rfl

/-- Changes of different tabs do not meet. -/
theorem update_comm (tabs : Tabs) {first second : Nat} (other : first ≠ second)
    {change change' : Tab → Tab} (named : ∀ tab, (change tab).id = tab.id)
    (named' : ∀ tab, (change' tab).id = tab.id) :
    (tabs.update first change).update second change' =
      (tabs.update second change').update first change := by
  have both (tab : Tab) :
      (if (if tab.id = first then change tab else tab).id = second then
          change' (if tab.id = first then change tab else tab)
        else if tab.id = first then change tab else tab) =
      if (if tab.id = second then change' tab else tab).id = first then
          change (if tab.id = second then change' tab else tab)
        else if tab.id = second then change' tab else tab := by
    by_cases one : tab.id = first
    · simp [one, named, other]
    · by_cases two : tab.id = second
      · simp [two, named', Ne.symm other]
      · simp [one, two]
  simp only [update, List.map_map]
  congr 1
  · exact List.map_congr_left fun tab _ => both tab
  · exact both tabs.active
  · exact List.map_congr_left fun tab _ => both tab

/-- A change of a tab does not reach one with another number. -/
theorem named?_update (tabs : Tabs) {number : Nat} {id : Option Nat}
    (other : id.getD tabs.active.id ≠ number) {change : Tab → Tab}
    (named : ∀ tab, (change tab).id = tab.id) :
    (tabs.update number change).named? id = tabs.named? id := by
  cases id with
  | none => exact congrArg some (if_neg other)
  | some id =>
    have apart : id ≠ number := other
    rw [named?, named?, get?_update tabs number id named]
    simp only [if_neg apart, Option.map_id']

theorem typed?_update (tabs : Tabs) {number : Nat} {id : Option Nat}
    (other : id.getD tabs.active.id ≠ number) {change : Tab → Tab}
    (named : ∀ tab, (change tab).id = tab.id) :
    (tabs.update number change).typed? id = tabs.typed? id := by
  rw [typed?, named?_update tabs other named, typed?]

/-- What is submitted in a tab is submitted under the number that the tab is named by. -/
theorem number_of_typed? {tabs : Tabs} {id : Option Nat} {number : Nat} {line : Text}
    (h : tabs.typed? id = some (number, line)) : number = id.getD tabs.active.id := by
  obtain ⟨tab, found, h⟩ := Option.bind_eq_some_iff.1 h
  split at h
  · cases h
  · cases h
    cases id with
    | none =>
      cases found
      rfl
    | some id => simpa using List.find?_some found

end Tabs

/-! ## Demands -/

/-- What can be gathered: a line to execute, or a tab whose line is submitted. -/
inductive Demand where
  | line (line : Text)
  | tab (id : Option Nat)

namespace Demand

def step : Demand → Step
  | .line text => .execute text
  | .tab id => .submit id

/-- The number of the tab, if there is one; the active tab has the given number. -/
def number? (active : Nat) : Demand → Option Nat
  | .line _ => none
  | .tab id => some (id.getD active)

/-- The submission that the demand would begin. -/
def typed? (demand : Demand) (tabs : Tabs) : Option (Nat × Text) :=
  match demand with
  | .line _ => none
  | .tab id => tabs.typed? id

open Program Session Interpreter

/-- What is done under the lock, and then in the tab. -/
def behind (commands : CommandSet Desk) (demand : Demand) (typed : Option (Nat × Text)) :
    Work Desk Reply :=
  match demand with
  | .line text => Reply.result <$> execute commands text
  | .tab _ =>
    match typed with
    | none => .done .nothing
    | some (number, text) =>
      Reply.ofResult? <$> some <$> (executeAndShow (execute commands) number text).andFinally
        (Program.update (updateTab number Tab.finish))

theorem number?_of_typed? {demand : Demand} {tabs : Tabs} {number : Nat} {text : Text}
    (h : demand.typed? tabs = some (number, text)) :
    demand.number? tabs.active.id = some number := by
  cases demand with
  | line text => cases h
  | tab id => exact congrArg some (Tabs.number_of_typed? h).symm

theorem typed?_update {demand : Demand} {tabs : Tabs} {number : Nat}
    (other : demand.number? tabs.active.id ≠ some number) {change : Tab → Tab}
    (named : ∀ tab, (change tab).id = tab.id) :
    demand.typed? (tabs.update number change) = demand.typed? tabs := by
  cases demand with
  | line text => rfl
  | tab id => exact Tabs.typed?_update tabs (fun same => other (congrArg some same)) named

theorem submit_eq (execute : Text → Work Desk Result) (id : Option Nat) :
    submit execute id = .look fun s =>
      match s.host.tabs.typed? id with
      | none => .done none
      | some (number, text) => some <$> submission execute number text := by
  unfold submit
  change Program.look _ = Program.look _
  congr 1
  funext s
  have same : Session.tab? s id = s.host.tabs.named? id := by
    cases id <;> rfl
  simp only [Program.bind, same, Tabs.typed?]
  cases s.host.tabs.named? id with
  | none => rfl
  | some tab =>
    simp only [Option.bind_some]
    split <;> rfl

/-- A demand begins its submission, and what is behind that is left. -/
theorem opens (commands : CommandSet Desk) (demand : Demand) (s : Session) :
    (program commands demand.step).Reaches s (demand.behind commands (demand.typed? s.host.tabs))
      (Session.setTabs s (s.host.tabs.begun (demand.typed? s.host.tabs))) := by
  cases demand with
  | line text =>
    simp only [step, program, work]
    exact .here _ s
  | tab id =>
    simp only [step, program, work, submit_eq]
    refine .look ?_
    simp only [typed?]
    cases s.host.tabs.typed? id with
    | none => exact .here _ s
    | some typed => exact .look (.keep (.here _ _))

theorem standby_behind {commands : CommandSet Desk} (passive : commands.Passive)
    (demand : Demand) (typed : Option (Nat × Text)) :
    (demand.behind commands typed).Standby := by
  cases demand with
  | line text => exact .acquire ((holding_locked passive text).bind fun _ => True.intro)
  | tab id =>
    cases typed with
    | none => exact .done _
    | some typed =>
      refine .acquire ?_
      refine Holding.bind ?_ fun _ => trivial
      refine Holding.bind ?_ fun _ => trivial
      refine Holding.andFinally ?_ fun _ => trivial
      exact (holding_locked passive typed.2).bind fun _ _ => trivial

/-- The submission has not begun, and it will be this one. -/
def Awaits (demand : Demand) (active : Nat) (typed : Option (Nat × Text)) (desk : Desk) : Prop :=
  desk.tabs.active.id = active ∧ demand.typed? desk.tabs = typed

end Demand

def Desk.begun (typed : Option (Nat × Text)) (desk : Desk) : Desk :=
  { desk with tabs := desk.tabs.begun typed }

def Desk.updateTab (number : Nat) (change : Tab → Tab) (desk : Desk) : Desk :=
  { desk with tabs := desk.tabs.update number change }

namespace Session

open Program Interpreter

/-- The tab in which something is changed is not that of the submission around which the desks are
related. -/
theorem shifted_updateTab {demand : Demand} {active number : Nat} {typed : Option (Nat × Text)}
    (other : demand.number? active ≠ some number) {change : Tab → Tab}
    (named : ∀ tab, (change tab).id = tab.id) {k : Bool} {d e : Desk}
    (h : Shifted (demand.Awaits active typed) (Desk.begun typed) k d e) :
    Shifted (demand.Awaits active typed) (Desk.begun typed) k (d.updateTab number change)
      (e.updateTab number change) := by
  obtain ⟨⟨same_active, same_typed⟩, rfl⟩ := h
  refine ⟨⟨(d.tabs.id_update number named).trans same_active, ?_⟩, ?_⟩
  · exact (Demand.typed?_update (same_active ▸ other) named).trans same_typed
  · cases k with
    | false => rfl
    | true =>
      cases typed with
      | none => rfl
      | some typed =>
        have its_number := Demand.number?_of_typed? same_typed
        have apart : typed.1 ≠ number := by
          rintro rfl
          exact other (same_active ▸ its_number)
        have begun_named : ∀ tab : Tab, (tab.begin typed.2).id = tab.id := fun _ => rfl
        simp only [if_true, Desk.begun, Desk.updateTab, Tabs.begun]
        rw [Tabs.update_comm d.tabs apart begun_named named]

section Hosting

variable {other : Demand} {active number : Nat} {typed : Option (Nat × Text)}

/-- A tab that is not that of the submission has the same line typed in both desks. -/
private theorem typed?_of_shifted {id : Option Nat} (apart : other.number? active ≠ id.getD active)
    {k : Bool} {d e : Desk} (h : Shifted (other.Awaits active typed) (Desk.begun typed) k d e) :
    e.tabs.typed? id = d.tabs.typed? id := by
  obtain ⟨⟨same_active, same_typed⟩, rfl⟩ := h
  cases k with
  | false => rfl
  | true =>
    cases typed with
    | none => rfl
    | some typed =>
      have its_number := Demand.number?_of_typed? same_typed
      rw [same_active] at its_number
      refine Tabs.typed?_update d.tabs ?_ fun _ => rfl
      rw [same_active]
      intro its_tab
      exact apart (its_number.trans (congrArg some its_tab.symm))

private theorem hosted_updateTab (apart : other.number? active ≠ some number)
    (typed : Option (Nat × Text)) (change : Tab → Tab)
    (named : ∀ tab, (change tab).id = tab.id) :
    Hosted (Shifted (other.Awaits active typed) (Desk.begun typed))
      (update (updateTab number change) : Work Desk Unit) := by
  rintro k m _ ⟨host, related⟩
  exact .update (.host _ (shifted_updateTab apart named related))

private theorem id_showResult (result : Result) (tab : Tab) :
    (tab.showResult clearSequence result).id = tab.id := by
  unfold Tab.showResult
  split
  · rfl
  · split <;> rfl

private theorem hosted_submission {commands : CommandSet Desk} (passive : commands.Passive)
    (apart : other.number? active ≠ some number) (text : Text) :
    Hosted (Shifted (other.Awaits active typed) (Desk.begun typed))
      (submission (execute commands) number text) := by
  intro k m n now
  have begins := hosted_updateTab apart typed (·.begin text) fun _ => rfl
  refine (begins k m n now).bind fun _ k m n now => ?_
  refine Alike.andFinally ?_ (hosted_updateTab apart typed Tab.finish fun _ => rfl)
  refine (hosted_execute passive text k m n now).bind fun result k m n now => ?_
  have shows := hosted_updateTab apart typed _ (id_showResult result)
  exact (shows k m n now).bind fun _ _ _ _ now => .done result now

/-- A demand does the same whether a submission in another tab has begun or not. -/
theorem hosted_program {commands : CommandSet Desk} (passive : commands.Passive) {demand : Demand}
    (distinct : ∀ number, demand.number? active = some number →
      other.number? active ≠ some number) :
    Hosted (Shifted (other.Awaits active typed) (Desk.begun typed))
      (program commands demand.step) := by
  cases demand with
  | line text =>
    simp only [Demand.step, program, work]
    exact fun k m n now => (hosted_execute passive text k m n now).map Reply.result
  | tab id =>
    simp only [Demand.step, program, work, Demand.submit_eq]
    rintro k m _ ⟨host, related⟩
    refine .look ?_
    dsimp only
    rw [typed?_of_shifted (distinct _ rfl) related]
    cases found : m.host.tabs.typed? id with
    | none => exact .done _ (.host host related)
    | some its =>
      have its_number : (Demand.tab id).number? m.host.tabs.active.id = some its.1 :=
        Demand.number?_of_typed? found
      rw [related.1.1] at its_number
      exact Alike.map _ (Alike.map _
        (hosted_submission passive (distinct _ its_number) its.2 k m _ (.host host related)))

end Hosting

private theorem shifted_host (guard : Desk → Prop) (opening : Desk → Desk) :
    (Shifted (fun s : Session => guard s.host) fun s => { s with host := opening s.host }) =
      fun k => SameBut (Shifted guard opening k) := by
  funext k s t
  apply propext
  constructor
  · rintro ⟨guarded, rfl⟩
    cases k with
    | false => exact .host s.host ⟨guarded, rfl⟩
    | true => exact .host (opening s.host) ⟨guarded, rfl⟩
  · rintro ⟨_, guarded, rfl⟩
    refine ⟨guarded, ?_⟩
    cases k <;> rfl

/-- Demands that name different tabs contend for the lock. -/
def contenders {commands : CommandSet Desk} (passive : commands.Passive) (s : Session)
    (demands : List Demand)
    (distinct : (demands.filterMap (·.number? s.tabs.active.id)).Nodup) :
    Contenders Escape Session Reply demands.length where
  part i := program commands (demands.get i).step
  guard i t :=
    (demands.get i).Awaits s.tabs.active.id ((demands.get i).typed? s.tabs) t.host
  opening i t := { t with host := t.host.begun ((demands.get i).typed? s.tabs) }
  behind i := (demands.get i).behind commands ((demands.get i).typed? s.tabs)
  opens i t guarded := by
    have way := (demands.get i).opens commands t
    rwa [guarded.2] at way
  standby i := Demand.standby_behind passive _ _
  apart i j before := by
    rw [shifted_host]
    apply hosted_program passive
    intro number named also
    have apart := List.pairwise_iff_getElem.1 (List.pairwise_filterMap.1 distinct) i.val j.val
      i.isLt j.isLt before
    exact apart number named number also rfl

theorem take_demand {commands : CommandSet Desk} (passive : commands.Passive) (s : Session)
    (demand : Demand) :
    take commands s demand.step =
      (.ofEnding ((program commands demand.step).alone false s).1,
        ((program commands demand.step).alone false s).2.2) := by
  have ends : ((program commands demand.step).alone false s).1 ≠ .stuck := by
    rw [(demand.opens commands s).alone_eq false]
    exact (Demand.standby_behind passive demand _).alone_ne_stuck _
  rw [take, Loop.run_eq_of_alone _ s ends]

theorem takeAll_demands {commands : CommandSet Desk} (passive : commands.Passive) (s : Session)
    (demands : List Demand) :
    takeAll commands s (demands.map Demand.step) =
      ((Contenders.inTurn (demands.map fun demand => program commands demand.step) s).1.map
          Reply.ofEnding,
        (Contenders.inTurn (demands.map fun demand => program commands demand.step) s).2) := by
  induction demands generalizing s with
  | nil => rfl
  | cons demand demands ih =>
    simp only [List.map_cons, takeAll, Contenders.inTurn, take_demand passive, ih]

theorem workAll_eq_map (registry : Registry) (execute : Text → Work Desk Result)
    (steps : List Step) : workAll registry execute steps = steps.map (work registry execute) := by
  induction steps with
  | nil => simp only [workAll, List.map_nil]
  | cons step steps ih => simp only [workAll, List.map_cons, ih]

private theorem fork_congr {ε σ α β : Type} {m n : Nat} (count : m = n)
    {part : Fin m → Program ε σ β} {part' : Fin n → Program ε σ β}
    (same : ∀ i, part i = part' (i.cast count)) (next : List (Ending ε β) → Program ε σ α) :
    Program.fork m part next = .fork n part' next := by
  subst count
  rw [funext same]
  rfl

/-- A gathering is one program that starts the demands and waits for them. -/
theorem program_gather (commands : CommandSet Desk) (demands : List Demand) :
    program commands (.gather (demands.map Demand.step)) =
      .fork demands.length (fun i => program commands (demands.get i).step) fun endings =>
        .done (.many (endings.map Reply.ofEnding)) := by
  have parts : workAll commands.registry (execute commands) (demands.map Demand.step) =
      demands.map fun demand => program commands demand.step := by
    rw [workAll_eq_map, List.map_map]
    rfl
  simp only [program, work, parts]
  refine fork_congr (List.length_map _) (fun i => ?_) _
  simp only [List.get_eq_getElem, List.getElem_map, Fin.val_cast]

/-- Gathered demands that name different tabs answer as they do one after the other, and leave the
same session. -/
theorem take_gather {commands : CommandSet Desk} (passive : commands.Passive) (s : Session)
    (demands : List Demand)
    (distinct : (demands.filterMap (·.number? s.tabs.active.id)).Nodup) :
    take commands s (.gather (demands.map Demand.step)) =
      (.many (takeAll commands s (demands.map Demand.step)).1,
        (takeAll commands s (demands.map Demand.step)).2) := by
  have parts : (List.finRange demands.length).map (contenders passive s demands distinct).part =
      demands.map fun demand => program commands demand.step := by
    have all := congrArg (List.map fun demand => program commands demand.step)
      (List.map_get_finRange demands)
    rwa [List.map_map] at all
  have run := Contenders.run_fork (contenders passive s demands distinct) (s := s)
    (fun i => ⟨rfl, rfl⟩) fun endings => Reply.many (endings.map Reply.ofEnding)
  rw [List.ofFn_eq_map, parts] at run
  rw [take, program_gather, takeAll_demands passive]
  exact congrArg (fun out => (Reply.ofEnding out.1, out.2)) run

/-- One command that is suspended twice, and one whose body breaks down after a suspension. -/
def stallCommands : CommandSet Desk where
  registry := ⟨[{ name := "wait" }, { name := "crash" }], by decide⟩
  body d _ _ :=
    if d.name = "wait" then (Program.pauses 2).bind fun _ => .done (.result (.ok ["done"]))
    else .pause (.done (.fault "no"))

/-- A session with a macro and with typed lines in two tabs. -/
def stallSession : Session :=
  let s : Session := .ofUser { username := "eve" }
    ⟨MacroBook.empty.define "m" ["wait", "crash"] (by decide), .empty, Macros.defaultKey⟩
    .ofDefaultCapacity
  let s := (s.openTab none).2
  updateTab 1 (·.setBuffer "crash") (updateTab 2 (·.setBuffer " wait 2 ") s)

/-- A macro, two submissions and a definition: while the macro is suspended the tabs have begun. -/
theorem take_gather_stall :
    stallCommands.Passive ∧
      (take stallCommands stallSession (.gather [.execute "macro.m", .submit none,
        .execute "define.macro m wait", .submit (some 1)])).2.history.entries =
        ["macro.m", "wait", "crash", "wait 2", "define.macro m wait", "crash"] := by
  have passive : stallCommands.Passive := by
    intro d invocation user
    simp only [stallCommands]
    split <;> trivial
  refine ⟨passive, ?_⟩
  have serial := take_gather passive stallSession
    [.line "macro.m", .tab none, .line "define.macro m wait", .tab (some 1)] (by decide)
  rw [takeAll_demands passive] at serial
  exact (congrArg (fun out => out.2.history.entries) serial).trans rfl

end Session

end GatedConsole
