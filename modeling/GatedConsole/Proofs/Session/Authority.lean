import GatedConsole.Proofs.Session.Trace

/-!
Who may call what. Main statement: after every sequence of steps the call log has grown by exactly
the calls of the recorded lines whose users had the authority for them, each call coming between its
own line and the next one.
-/

set_option autoImplicit false
set_option relaxedAutoImplicit false

namespace GatedConsole

/-- The call that a recorded line makes for the user whom the interpreter had then. -/
def Recorded.call? {η : Type} (registry : Registry) (r : Recorded η) : Option Call :=
  Interpreter.callOf? registry r.line r.memory.user

namespace Session

open Interpreter

/-- The call log and the history of a session agree with the lines recorded since `s`, and did so
whenever a line was recorded. -/
structure Accounts (registry : Registry) (s : Session)
    (now : Session × List (Recorded Desk)) : Prop where
  calls : now.1.calls = s.calls ++ now.2.filterMap (·.call? registry)
  history : now.1.history = now.2.foldl (fun h r => h.append r.line) s.history
  instants : ∀ before r after, now.2 = before ++ r :: after →
    r.memory.calls = s.calls ++ before.filterMap (·.call? registry)

theorem history_respond (registry : Registry) (line : Text) (m : Session) :
    (respond registry line m).history = m.history := by
  unfold respond
  split
  · rfl
  · split <;> rfl

theorem calls_respond (registry : Registry) (line : Text) (m : Session) :
    (respond registry line m).calls = m.calls ++ (callOf? registry line m.user).toList := by
  unfold respond
  split
  · rename_i defined
    obtain ⟨-, invocation, parsed, same⟩ := ofLine?_of_definedBy? defined
    have builtin : isBuiltin invocation.command := by
      rw [same]
      decide
    simp [callOf?_of_isBuiltin registry parsed builtin]
  · split
    · rename_i call made
      simp [made]
    · rename_i nothing
      simp [nothing]

theorem keptByLines_accounts (registry : Registry) (s : Session) :
    KeptByLines registry (Accounts registry s) := by
  intro m log line _ now
  have calls : m.calls = s.calls ++ log.filterMap (·.call? registry) := now.calls
  have history : m.history = log.foldl (fun h r => h.append r.line) s.history := now.history
  refine ⟨?_, ?_, ?_⟩
  · have made : (record line.strip m).calls = m.calls := rfl
    simp only [calls_respond, made, calls, List.filterMap_append, List.append_assoc]
    cases made : callOf? registry line.strip (record line.strip m).user <;>
      simp [Recorded.call?, made]
  · simp only [history_respond, record, history, List.foldl_append, List.foldl_cons,
      List.foldl_nil]
  · intro before r after parts
    rcases cut_of_append_singleton parts with ⟨rfl, rfl, rfl⟩ | ⟨rest, rfl, earlier⟩
    · exact calls
    · exact now.instants before r rest earlier

theorem stable_accounts (registry : Registry) (s : Session) :
    Stable LeavesLogs (Accounts registry s) where
  asides _ _ h := h.leavesLogs
  silent _ _ h := h.1
  keeps _ _ _ h now := ⟨h.2.trans now.calls, h.1.trans now.history, now.instants⟩

theorem takeAll_accounts {commands : CommandSet Desk} (bodies : commands.Only LeavesLogs)
    (s : Session) (steps : List Step) :
    Accounts commands.registry s ((takeAll commands s steps).2, trace commands s steps) := by
  apply takeAll_kept (stable_accounts commands.registry s)
    (keptByLines_accounts commands.registry s) bodies (allWithin_leavesLogs steps)
  refine ⟨by simp, rfl, ?_⟩
  intro before r after parts
  simp at parts

/-- A call is made under a name of a command that the user may run, with the rest of the line. -/
theorem authorised_of_call? {η : Type} {registry : Registry} {r : Recorded η} {call : Call}
    (h : r.call? registry = some call) :
    ∃ invocation d, Invocation.ofLine? r.line = some invocation ∧
      isBuiltin invocation.command = false ∧ registry.resolve? invocation.command = some d ∧
      r.memory.user.access.permits d.access ∧
      call = ⟨d.name, invocation.args, invocation.flags, r.memory.user⟩ := by
  simp only [Recorded.call?, callOf?, Option.bind_eq_bind, Option.bind_eq_some_iff] at h
  obtain ⟨invocation, parsed, h⟩ := h
  split at h
  · cases h
  · rename_i other
    obtain ⟨d, resolved, h⟩ := Option.bind_eq_some_iff.1 h
    split at h
    · rename_i permitted
      exact ⟨invocation, d, parsed, Bool.eq_false_iff.2 other, resolved, permitted,
        (Option.some.inj h).symm⟩
    · cases h

/-- The call log is the trace of the recorded lines, filtered by authority. The trace is what the
history has recorded since; each call has been made when the next line is recorded; and every call
is made by a user whose level the called command demands. -/
theorem calls_takeAll (commands : CommandSet Desk) (bodies : commands.Only LeavesLogs)
    (s : Session) (steps : List Step) :
    (takeAll commands s steps).2.calls =
        s.calls ++ (trace commands s steps).filterMap (·.call? commands.registry) ∧
      (takeAll commands s steps).2.history =
        (trace commands s steps).foldl (fun h r => h.append r.line) s.history ∧
      (∀ before r after, trace commands s steps = before ++ r :: after →
        r.memory.calls = s.calls ++ before.filterMap (·.call? commands.registry)) ∧
      ∀ call ∈ (trace commands s steps).filterMap (·.call? commands.registry),
        ∃ d ∈ commands.registry.commands,
          call.command = d.name ∧ call.user.access.permits d.access := by
  have accounts := takeAll_accounts bodies s steps
  refine ⟨accounts.calls, accounts.history, accounts.instants, ?_⟩
  intro call mem
  obtain ⟨r, _, made⟩ := List.mem_filterMap.1 mem
  obtain ⟨invocation, d, _, _, resolved, permitted, rfl⟩ := authorised_of_call? made
  exact ⟨d, List.mem_of_find?_eq_some resolved, rfl, permitted⟩

/-- Two commands that take their time: one for everybody, and one for root. -/
def watchCommands : CommandSet Desk where
  registry := ⟨[{ name := "look" }, { name := "seal", access := .root, aliases := ["s"] }],
    by decide⟩
  body _ _ _ := (Program.pauses 2).bind fun _ => .done (.result (.ok ["done"]))

/-- A guest with a macro that seals and looks. -/
def watchSession : Session :=
  .ofUser { username := "eve" }
    ⟨MacroBook.empty.define "m" ["seal", "look"] (by decide), .empty, Macros.defaultKey⟩
    .ofDefaultCapacity

/-- While the macro of the guest is suspended, its user becomes root, and then root seals. -/
def watchStep : Step :=
  .gather [.execute "macro.m", .user ⟨"eve", "root", true⟩, .execute "s --now"]

/-- The seal in the macro is refused and the later one is not. -/
theorem calls_takeAll_watch :
    watchCommands.Only LeavesLogs ∧
      (trace watchCommands watchSession [watchStep]).filterMap
          (·.call? watchCommands.registry) =
        [⟨"look", [], [], ⟨"eve", .guest, true⟩⟩,
          ⟨"seal", [], [("now", .switch)], ⟨"eve", .root, true⟩⟩] := by
  have bodies : watchCommands.Only LeavesLogs := fun _ _ _ _ _ _ => trivial
  refine ⟨bodies, ?_⟩
  have still : (Loop.turns 40
      (Loop.start (program watchCommands watchStep) false watchSession)).turn = none := rfl
  have after : (takeAll watchCommands watchSession [watchStep]).2.calls =
      [⟨"look", [], [], ⟨"eve", .guest, true⟩⟩,
        ⟨"seal", [], [("now", .switch)], ⟨"eve", .root, true⟩⟩] := by
    change (Loop.start (program watchCommands watchStep) false
      watchSession).rest.floor.state.calls = _
    rw [Loop.rest_eq_turns still]
    rfl
  exact (calls_takeAll watchCommands bodies watchSession [watchStep]).1.symm.trans after

end Session

end GatedConsole
