import GatedConsole.Proofs.Interpreter.Moves
import GatedConsole.Proofs.Session.TabLife
import GatedConsole.Proofs.Session.Trace
import GatedConsole.Proofs.Task.Runs
import GatedConsole.Proofs.Task.Tokens

/-!
What a submission comes to. Main statements: where nothing comes between, a submission to the active
tab begins there, does what the run of its line does, shows the result and ends, and it leaves the
lock free; where anything may, what is said of the tab and what nobody else makes untrue goes from
the beginning to the end by way of the result.
-/

set_option autoImplicit false
set_option relaxedAutoImplicit false

namespace GatedConsole

namespace Session

open Interpreter Program

variable {commands : CommandSet Desk}

/-! ## Submissions among others -/

section Among

variable {κ : Type} {P : κ → Session → Prop} {G : Session → Session → Prop} {id : Nat}
  {command : Text} {begun : κ}

/-- What is said of the tab when the execution of a submitted line has ended. -/
def saidOf (begun : κ) (shown : Result → κ) : Ending Escape Result → κ
  | .done result => shown result
  | _ => begun

theorem holds_executeAndShow (own : ∀ s t, OwnMove s t → G s t) (bodies : commands.Only G)
    (keeps : ∀ k s t, G s t → P k s → P k t) {shown : Result → κ}
    (shows : ∀ result s, P begun s →
      P (shown result) (updateTab id (·.showResult clearSequence result) s))
    {s : Session} (now : P begun s) :
    (executeAndShow (execute commands) id command).Holds (Single P)
      (EndsIn (Single P) fun e held => held = {saidOf begun shown e}) {begun} s 0 := by
  have stable : ∀ m s t, G s t → Single P m s → Single P m t := fun _ _ _ => Single.stable keeps
  have start : Single P ({begun} + 0) s := single_of now
  have execution := holds_of_only stable (Interpreter.only_execute own bodies command s) start
  refine holds_bind execution ?_ ?_
  · rintro result _ s others ⟨rfl, now⟩
    obtain ⟨still, rfl⟩ := now.of_own
    exact ⟨{shown result}, rfl, single_of (shows result s still)⟩
  · rintro cause _ s others ⟨rfl, now⟩
    exact ⟨rfl, now⟩

/-- What is said of a tab when a submission begins there, and what the result and the end make of
that: behind the submission it is true, if no body makes untrue what is said of the tab. -/
theorem holds_submission (own : ∀ s t, OwnMove s t → G s t) (bodies : commands.Only G)
    (keeps : ∀ k s t, G s t → P k s → P k t) (begun : κ) (shown : Result → κ)
    (shows : ∀ result s, P begun s →
      P (shown result) (updateTab id (·.showResult clearSequence result) s))
    (ended : κ → κ) (ends : ∀ k s, P k s → P (ended k) (updateTab id Tab.finish s))
    {s : Session} (begins : P begun (updateTab id (·.begin command) s)) {first : Multiset κ} :
    (submission (execute commands) id command).Holds (Single P)
      (EndsIn (Single P) fun e held => held = {ended (saidOf begun shown e)}) first s 0 := by
  refine ⟨{begun}, holds_andFinally (holds_executeAndShow own bodies keeps shows begins) ?_⟩
  rintro e _ s others ⟨rfl, now⟩
  obtain ⟨still, rfl⟩ := now.of_own
  exact ⟨{ended (saidOf begun shown e)}, rfl, single_of (ends _ s still)⟩

end Among

/-! ## Submissions alone -/

/-- The session when the execution of a submitted line has ended: a result is shown. -/
def showing (id : Nat) (e : Ending Escape Result) (t : Session) : Session :=
  match e with
  | .done result => updateTab id (·.showResult clearSequence result) t
  | _ => t

theorem alone_executeAndShow {id : Nat} {command : Text} {s t : Session}
    {e : Ending Escape Result} {log : List (Recorded Desk)}
    (h : (run commands depthBound command).Runs recordedBetween s e t log) :
    (executeAndShow (execute commands) id command).alone false s = (e, false, showing id e t) := by
  have executed : (execute commands command).alone false s = (e, false, t) :=
    alone_underLock (h.alone_eq true) h.ne_stuck
  unfold executeAndShow
  change ((execute commands command).bind _).alone false s = _
  rw [alone_bind, executed]
  cases e with
  | done result => rfl
  | escaped cause => rfl
  | stuck => exact absurd rfl h.ne_stuck

/-- However the execution ended, the tab is unlocked. -/
theorem alone_submission {id : Nat} {command : Text} {s t : Session} {e : Ending Escape Result}
    {log : List (Recorded Desk)}
    (h : (run commands depthBound command).Runs recordedBetween (updateTab id (·.begin command) s)
      e t log) :
    (submission (execute commands) id command).alone false s =
      (e, false, updateTab id Tab.finish (showing id e t)) := by
  have shown := @alone_executeAndShow commands id command _ _ _ _ h
  change ((executeAndShow (execute commands) id command).andFinally
    (Program.update (updateTab id Tab.finish))).alone false (updateTab id (·.begin command) s) = _
  rw [alone_andFinally, shown]
  cases e with
  | done result => rfl
  | escaped cause => rfl
  | stuck => exact absurd rfl h.ne_stuck

/-- What the submission of a tab's typed line comes to, and the session that it leaves: nothing, if
the tab is executing or its line is blank, or what the run of the line comes to. -/
inductive Submits (commands : CommandSet Desk) (s : Session) :
    Ending Escape (Option Result) → Session → Prop
  | nothing (idle : s.tabs.active.executing = true ∨ s.tabs.active.buffer.strip = []) :
      Submits commands s (.done none) s
  | line {e : Ending Escape Result} {t : Session} {log : List (Recorded Desk)}
      (free : s.tabs.active.executing = false) (some_line : s.tabs.active.buffer.strip ≠ [])
      (runs : (run commands depthBound s.tabs.active.buffer.strip).Runs recordedBetween
        (updateTab s.tabs.active.id (·.begin s.tabs.active.buffer.strip) s) e t log) :
      Submits commands s (e.map some)
        (updateTab s.tabs.active.id Tab.finish (showing s.tabs.active.id e t))

/-- A submission to the active tab is not kept waiting, and leaves the lock free. -/
theorem alone_submit (solitary : commands.Solitary) (s : Session) :
    ∃ e t, (submit (execute commands) none).alone false s = (e, false, t) ∧
      Submits commands s e t ∧ e ≠ .stuck := by
  by_cases idle : s.tabs.active.executing = true ∨ s.tabs.active.buffer.strip = []
  · refine ⟨.done none, s, ?_, .nothing idle, nofun⟩
    have skip : (s.tabs.active.executing || decide (s.tabs.active.buffer.strip = [])) = true := by
      simpa using idle
    change (if s.tabs.active.executing || decide (s.tabs.active.buffer.strip = []) then
      (.done none : Work Desk (Option Result)) else _).alone false s = _
    rw [if_pos skip]
    rfl
  · rw [not_or, Bool.not_eq_true] at idle
    obtain ⟨free, some_line⟩ := idle
    obtain ⟨e, t, log, runs⟩ :=
      (solitary_run solitary depthBound s.tabs.active.buffer.strip).exists_runs recordedBetween
        (updateTab s.tabs.active.id (·.begin s.tabs.active.buffer.strip) s)
    refine ⟨e.map some, _, ?_, .line free some_line runs, ?_⟩
    · have go : ¬(s.tabs.active.executing ||
          decide (s.tabs.active.buffer.strip = [])) = true := by simp [free, some_line]
      change (if s.tabs.active.executing || decide (s.tabs.active.buffer.strip = []) then
        _ else some <$> submission (execute commands) s.tabs.active.id
          s.tabs.active.buffer.strip).alone false s = _
      rw [if_neg go, alone_map, alone_submission runs]
    · cases e with
      | done | escaped => nofun
      | stuck => exact absurd rfl runs.ne_stuck

/-- Whatever tab it is for, a submission is not kept waiting. -/
theorem alone_submit_ne_stuck (solitary : commands.Solitary) (s : Session) (id : Option Nat) :
    ((submit (execute commands) id).alone false s).1 ≠ .stuck := by
  have looked : (submit (execute commands) id).alone false s = _ := alone_bind Program.read _ _ _
  rw [looked]
  dsimp only [Program.read, alone]
  split
  · simp [pure]
  · rename_i tab _
    split
    · simp [pure]
    · obtain ⟨e, t, log, runs⟩ :=
        (solitary_run solitary depthBound tab.buffer.strip).exists_runs recordedBetween
          (updateTab tab.id (·.begin tab.buffer.strip) s)
      rw [alone_map, alone_submission runs]
      cases e with
      | done | escaped => simp [Ending.map]
      | stuck => exact absurd rfl runs.ne_stuck

/-- In the loop, with nothing else going on, a submission does the same. -/
theorem run_submit (solitary : commands.Solitary) (s : Session) :
    ∃ e t, Loop.run (submit (execute commands) none) s = (e, t) ∧ Submits commands s e t ∧
      e ≠ .stuck := by
  obtain ⟨e, t, alone, submits, ends⟩ := alone_submit solitary s
  refine ⟨e, t, ?_, submits, ends⟩
  rw [Loop.run_eq_of_alone _ _ (by rwa [alone]), alone]

end Session

end GatedConsole
