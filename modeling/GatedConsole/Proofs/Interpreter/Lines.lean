import GatedConsole.Interpreter.Execution
import GatedConsole.Proofs.History
import GatedConsole.Proofs.Task.Watch

/-!
The recorded lines of a run, and what each of them does at once: a definition is made, and a call
that the user may make is logged. Main statement: what a recorded line keeps together with its
response is kept by every line that is run, through macros of every depth and whatever comes between
the moves of commands.
-/

set_option autoImplicit false
set_option relaxedAutoImplicit false

namespace GatedConsole

/-- A recorded line, and what the interpreter remembered when it had been recorded. -/
structure Recorded (η : Type) where
  line : Text
  memory : Memory η

namespace Interpreter

variable {η : Type}

/-- The line that a change of the memory records, if the history has become longer. -/
def recordedBetween (before after : Memory η) : List (Recorded η) :=
  if after.history.total = before.history.total then []
  else (after.history.entries.getLast?.map fun line => ⟨line, after⟩).toList

theorem recordedBetween_record (line : Text) (m : Memory η) :
    recordedBetween m (record line m) = [⟨line, record line m⟩] := by
  have longer : (record line m).history.total ≠ m.history.total := by
    simp only [record, History.total_append]
    omega
  have last : (record line m).history.entries.getLast? = some line :=
    History.getLast?_entries_append m.history line
  rw [recordedBetween, if_neg longer, last]
  rfl

theorem recordedBetween_eq_nil {before after : Memory η} (h : after.history = before.history) :
    recordedBetween before after = [] := by
  rw [recordedBetween, if_pos (congrArg History.total h)]

/-- The program with the lines that it records. -/
abbrev listened {α : Type} (p : Work η α) : Program Escape (Memory η × List (Recorded η)) α :=
  p.watch recordedBetween

/-! ## What a recorded line does at once -/

/-- Whether the interpreter itself answers for a word. -/
def isBuiltin (word : Text) : Bool :=
  (word.behind? macroMark).isSome || [defineWord, historyWord, clearWord, macrosWord].contains word

/-- The name and the commands that a line defines, if its first word is the word for that. -/
def definedBy? (line : Text) : Option (Text × { commands : List Text // commands ≠ [] }) :=
  if line.words.head? = some defineWord then definition? line else none

/-- The call that a line makes for a user: no built-in word stands first, a command is known under
the first word, and the user may run it. -/
def callOf? (registry : Registry) (line : Text) (user : User) : Option Call := do
  let invocation ← Invocation.ofLine? line
  if isBuiltin invocation.command then none
  else
    let d ← registry.resolve? invocation.command
    if user.access.permits d.access then
      some ⟨d.name, invocation.args, invocation.flags, user⟩
    else none

/-- What the interpreter remembers when a line that has just been recorded has had its effect. -/
def respond (registry : Registry) (line : Text) (m : Memory η) : Memory η :=
  match definedBy? line with
  | some (name, ⟨commands, some_command⟩) =>
    { m with macros := (m.macros.inscribe name commands some_command).1 }
  | none =>
    match callOf? registry line m.user with
    | some call => { m with calls := m.calls ++ [call] }
    | none => m

theorem head?_words_of_ofLine? {line : Text} {invocation : Invocation}
    (h : Invocation.ofLine? line = some invocation) :
    line.words.head? = some invocation.command := by
  unfold Invocation.ofLine? at h
  split at h
  · cases h
  · rename_i command words parts
    rw [parts, ← Option.some.inj h]
    rfl

theorem definedBy?_eq_none {line : Text} {invocation : Invocation}
    (h : Invocation.ofLine? line = some invocation) (other : invocation.command ≠ defineWord) :
    definedBy? line = none := by
  rw [definedBy?, head?_words_of_ofLine? h, if_neg]
  intro same
  exact other (Option.some.inj same)

/-- A line that defines a macro has the word for it first. -/
theorem ofLine?_of_definedBy? {line : Text}
    {d : Text × { commands : List Text // commands ≠ [] }} (h : definedBy? line = some d) :
    definition? line = some d ∧
      ∃ invocation, Invocation.ofLine? line = some invocation ∧
        invocation.command = defineWord := by
  unfold definedBy? at h
  split at h
  · rename_i first
    refine ⟨h, ?_⟩
    cases parsed : Invocation.ofLine? line with
    | none =>
      unfold Invocation.ofLine? at parsed
      split at parsed
      · rename_i nothing
        rw [nothing] at first
        cases first
      · cases parsed
    | some invocation =>
      exact ⟨invocation, rfl,
        Option.some.inj ((head?_words_of_ofLine? parsed).symm.trans first)⟩
  · cases h

theorem callOf?_of_isBuiltin (registry : Registry) {line : Text} {invocation : Invocation}
    (h : Invocation.ofLine? line = some invocation) (builtin : isBuiltin invocation.command)
    (user : User) : callOf? registry line user = none := by
  simp [callOf?, h, builtin]

theorem respond_of_isBuiltin (registry : Registry) {line : Text} {invocation : Invocation}
    (h : Invocation.ofLine? line = some invocation) (builtin : isBuiltin invocation.command)
    (other : invocation.command ≠ defineWord) (m : Memory η) : respond registry line m = m := by
  rw [respond, definedBy?_eq_none h other, callOf?_of_isBuiltin registry h builtin]

/-! ## Runs -/

section Runs

variable {commands : CommandSet η} {I : Memory η × List (Recorded η) → Prop}

/-- A line that is recorded and has had its effect keeps the invariant. -/
def KeptByLines (registry : Registry) (I : Memory η × List (Recorded η) → Prop) : Prop :=
  ∀ (m : Memory η) (log : List (Recorded η)) (line : Text), line.strip ≠ [] → I (m, log) →
    I (respond registry line.strip (record line.strip m),
      log ++ [⟨line.strip, record line.strip m⟩])

/-- The bodies of the commands keep the invariant, wherever they are suspended. -/
def KeptByBodies (commands : CommandSet η) (I : Memory η × List (Recorded η) → Prop) : Prop :=
  ∀ d invocation user, (listened (commands.body d invocation user)).Steady I

open Program

theorem ensures_act_bind {α β : Type} (f : Memory η → α × Memory η) (k : α → Work η β)
    {Q : β → Memory η × List (Recorded η) → Prop} {m : Memory η} {log : List (Recorded η)}
    (same : (f m).2.history = m.history)
    (h : (listened (k (f m).1)).Ensures I Q ((f m).2, log)) :
    (listened ((act f).bind k)).Ensures I Q (m, log) := by
  change (listened (k (f m).1)).Ensures I Q ((f m).2, log ++ recordedBetween m (f m).2)
  rw [recordedBetween_eq_nil same, List.append_nil]
  exact h

theorem ensures_defineMacro (registry : Registry) {line : Text} {invocation : Invocation}
    (parsed : Invocation.ofLine? line = some invocation)
    (first : invocation.command = defineWord) {m : Memory η} {log : List (Recorded η)}
    (h : I (respond registry line m, log)) :
    (listened (defineMacro line)).Ensures I (fun _ => I) (m, log) := by
  have builtin : isBuiltin invocation.command := by
    rw [first]
    decide
  have same : definedBy? line = definition? line := by
    rw [definedBy?, head?_words_of_ofLine? parsed, first, if_pos rfl]
  rw [respond, same, callOf?_of_isBuiltin registry parsed builtin] at h
  unfold defineMacro
  split
  · rename_i nothing
    rw [nothing] at h
    exact h
  · rename_i name commands some_command parts
    rw [parts] at h
    refine ensures_act_bind _ _ rfl ?_
    split
    · exact h
    · exact h
    · exact h

theorem ensures_dispatch (bodies : KeptByBodies commands I) {line : Text} {invocation : Invocation}
    (parsed : Invocation.ofLine? line = some invocation)
    (other : isBuiltin invocation.command = false) {m : Memory η} {log : List (Recorded η)}
    (h : I (respond commands.registry line m, log)) :
    (listened (dispatch commands invocation)).Ensures I (fun _ => I) (m, log) := by
  have undefined : definedBy? line = none := by
    apply definedBy?_eq_none parsed
    intro same
    rw [same] at other
    exact absurd other (by decide)
  have calls : callOf? commands.registry line m.user =
      (commands.registry.resolve? invocation.command).bind fun d =>
        if m.user.access.permits d.access then
          some ⟨d.name, invocation.args, invocation.flags, m.user⟩
        else none := by
    simp [callOf?, parsed, other]
  rw [respond, undefined, calls] at h
  rw [dispatch, ensures_watch_read]
  split
  · rename_i unresolved
    rw [unresolved] at h
    exact h
  · rename_i d resolved
    rw [resolved, Option.bind_some] at h
    split
    · rename_i permitted
      rw [if_pos permitted] at h
      refine ensures_act_bind (fun m => ((), { m with calls := m.calls ++ [_] })) _ rfl ?_
      change (listened ((commands.body d invocation m.user).bind fun outcome =>
        .done outcome.toResult)).Ensures I (fun _ => I) _
      rw [listened, watch_bind]
      exact steady_bind (bodies d invocation m.user) (fun _ => steady_done _) _ h
    · rename_i refused
      rw [if_neg refused] at h
      exact h

theorem steady_replay {runStep : Option (Text → Work η Result)}
    (steps : ∀ run, runStep = some run → ∀ line, (listened (run line)).Steady I) (name : Text) :
    (listened (replay runStep name)).Steady I := by
  intro s h
  rw [replay, ensures_watch_read]
  split
  · exact h
  · split
    · exact h
    · rename_i lines _ _ run
      change (listened ((forEach run lines).bind fun results =>
        .done (report name (lines.zip results)))).Ensures I (fun _ => I) s
      rw [listened, watch_bind, watch_forEach]
      exact steady_bind (steady_forEach (steps run rfl) lines) (fun _ => steady_done _) s h

theorem ensures_answer (bodies : KeptByBodies commands I)
    {runStep : Option (Text → Work η Result)}
    (steps : ∀ run, runStep = some run → ∀ line, (listened (run line)).Steady I)
    {line : Text} {invocation : Invocation} (parsed : Invocation.ofLine? line = some invocation)
    {m : Memory η} {log : List (Recorded η)} (h : I (respond commands.registry line m, log)) :
    (listened (answer commands runStep line invocation)).Ensures I (fun _ => I) (m, log) := by
  have idle (builtin : isBuiltin invocation.command) (other : invocation.command ≠ defineWord) :
      I (m, log) := by
    rwa [respond_of_isBuiltin _ parsed builtin other] at h
  unfold answer
  split
  · rename_i name marked
    apply steady_replay steps
    apply idle
    · simp [isBuiltin, marked]
    · intro same
      have plain : defineWord.behind? macroMark = none := by decide
      rw [same, plain] at marked
      cases marked
  · rename_i unmarked
    split
    · rename_i first
      exact ensures_defineMacro commands.registry parsed first h
    · rename_i notDefine
      have idleFor (word : Text) (known : word ∈ [historyWord, clearWord, macrosWord])
          (same : invocation.command = word) : I (m, log) := by
        apply idle _ notDefine
        rw [same, isBuiltin, Bool.or_eq_true, List.contains_iff_mem]
        exact .inr (List.mem_cons_of_mem _ known)
      split
      · rename_i same
        exact idleFor historyWord (by simp) same
      · split
        · rename_i same
          exact idleFor clearWord (by simp) same
        · split
          · rename_i same
            exact idleFor macrosWord (by simp) same
          · apply ensures_dispatch bodies parsed _ h
            simp_all [isBuiltin]

theorem steady_runLine (kept : KeptByLines commands.registry I) (bodies : KeptByBodies commands I)
    {runStep : Option (Text → Work η Result)}
    (steps : ∀ run, runStep = some run → ∀ line, (listened (run line)).Steady I) (line : Text) :
    (listened (runLine commands runStep line)).Steady I := by
  intro s h
  obtain ⟨m, log⟩ := s
  unfold runLine
  split
  · exact h
  · rename_i invocation parsed
    have some_line : line.strip ≠ [] := by
      intro nothing
      rw [nothing] at parsed
      cases parsed
    change (listened (answer commands runStep line.strip invocation)).Ensures I (fun _ => I)
      (record line.strip m, log ++ recordedBetween m (record line.strip m))
    rw [recordedBetween_record]
    exact ensures_answer bodies steps parsed (kept m log line some_line h)

/-- What recorded lines keep together with their responses, a run of a line keeps. -/
theorem steady_run (kept : KeptByLines commands.registry I) (bodies : KeptByBodies commands I)
    (depth : Nat) (line : Text) : (listened (run commands depth line)).Steady I := by
  induction depth generalizing line with
  | zero => exact steady_runLine kept bodies (fun _ none => by cases none) line
  | succ depth ih =>
    apply steady_runLine kept bodies _ line
    intro run same line
    rw [← Option.some.inj same]
    exact ih line

theorem steady_execute (kept : KeptByLines commands.registry I) (bodies : KeptByBodies commands I)
    (line : Text) : (listened (execute commands line)).Steady I := by
  have taken : listened (execute commands line) =
      take.bind fun _ => (listened (run commands depthBound line)).andFinally giveBack := by
    change listened (take.bind fun _ => (run commands depthBound line).andFinally giveBack) = _
    simp only [listened, watch_bind, watch_andFinally]
    rfl
  rw [taken]
  exact steady_bind steady_take fun _ =>
    steady_andFinally (steady_run kept bodies depthBound line) steady_giveBack

end Runs

end Interpreter

end GatedConsole
