import GatedConsole.Console.Turn
import GatedConsole.Proofs.Session.Submitting

/-!
The turns of the line console. Main statement: with commands that neither execute nor submit, a run
ends because the user leaves or because a submission breaks off, and in the first case it has been
the lines typed until then, entered in the active tab one after the other.
-/

set_option autoImplicit false
set_option relaxedAutoImplicit false

namespace GatedConsole

namespace Console

open Session

variable {commands : CommandSet Desk} {s t : Session} {result : Option Result}

theorem verdictOf_ne_leave (e : Ending Escape Unit) : verdictOf e ≠ .leave := by
  cases e <;> nofun

/-- A turn whose submission is done goes on. -/
theorem turn_line_of_ran {text : Text} (stays : text.strip ∉ exitWords)
    (ran : Loop.run (Session.submit (Interpreter.execute commands) none)
      (s.updateTab s.tabs.active.id (·.setBuffer text)) = (.done result, t)) :
    (turn commands s (.line text)).2 = (.goOn, t) := by
  have no_exit : ¬exitWords.contains text.strip = true := by simpa using stays
  rw [turn, if_neg no_exit, submitLine]
  dsimp only
  rw [ran]
  rfl

theorem exists_ran_of_turn {text : Text} (stays : text.strip ∉ exitWords)
    (goes_on : (turn commands s (.line text)).2.1 = .goOn) :
    ∃ result t, Loop.run (Session.submit (Interpreter.execute commands) none)
      (s.updateTab s.tabs.active.id (·.setBuffer text)) = (.done result, t) := by
  have no_exit : ¬exitWords.contains text.strip = true := by simpa using stays
  rw [turn, if_neg no_exit, submitLine] at goes_on
  dsimp only at goes_on
  generalize Loop.run (Session.submit (Interpreter.execute commands) none)
    (s.updateTab s.tabs.active.id (·.setBuffer text)) = outcome at goes_on ⊢
  obtain ⟨result | cause | -, t⟩ := outcome
  · exact ⟨result, t, rfl⟩
  · cases goes_on
  · cases goes_on

theorem turns_cons {typed : Typed} (goes_on : (turn commands s typed).2.1 = .goOn)
    (rest : List Typed) :
    turns commands s (typed :: rest) =
      { turns commands (turn commands s typed).2.2 rest with
        events := question s :: (turn commands s typed).1 ++
          (turns commands (turn commands s typed).2.2 rest).events } := by
  rw [turns]
  generalize turn commands s typed = outcome at goes_on ⊢
  obtain ⟨events, verdict, next⟩ := outcome
  obtain rfl : verdict = .goOn := goes_on
  rfl

/-- The lines that are entered, until the user leaves. -/
def entered : List Typed → List Text
  | [] | .endOfInput :: _ => []
  | .interrupt :: rest => entered rest
  | .line text :: rest => if exitWords.contains text.strip then [] else text :: entered rest

open Program in
/-- To enter a line is to type it and to submit it. -/
theorem take_enter (solitary : commands.Solitary) (s : Session) (text : Text) :
    (take commands s (.enter text none)).2 =
      (Loop.run (Session.submit (Interpreter.execute commands) none)
        (s.updateTab s.tabs.active.id (·.setBuffer text))).2 := by
  obtain ⟨e, t, alone, -, ends⟩ :=
    alone_submit solitary (s.updateTab s.tabs.active.id (·.setBuffer text))
  have its : (program commands (.enter text none)).alone false s =
      (e.map Reply.ofResult?, false, t) := by
    rw [program, work]
    change ((setBuffer text none).bind fun _ =>
      Reply.ofResult? <$> Session.submit (Interpreter.execute commands) none).alone false s = _
    rw [alone_bind]
    change (Reply.ofResult? <$> Session.submit (Interpreter.execute commands) none).alone false
      (s.updateTab s.tabs.active.id (·.setBuffer text)) = _
    rw [alone_map, alone]
  have ends' : e.map Reply.ofResult? ≠ .stuck := by
    cases e with
    | done | escaped => nofun
    | stuck => exact absurd rfl ends
  rw [Session.take, Loop.run_eq_of_alone _ _ (by rwa [its]),
    Loop.run_eq_of_alone _ _ (by rwa [alone]), its, alone]

theorem turns_cases (solitary : commands.Solitary) (s : Session) (typed : List Typed) :
    ((turns commands s typed).verdict = .leave ∧
        (turns commands s typed).session =
          (takeAll commands s ((entered typed).map (Step.enter · none))).2) ∨
      ∃ cause, (turns commands s typed).verdict = .broken cause := by
  induction typed generalizing s with
  | nil => exact .inl ⟨rfl, rfl⟩
  | cons word rest ih =>
    cases word with
    | endOfInput => exact .inl ⟨rfl, rfl⟩
    | interrupt => exact ih s
    | line text =>
      by_cases leaves : exitWords.contains text.strip = true
      · left
        rw [turns, turn, entered, if_pos leaves, if_pos leaves]
        exact ⟨rfl, rfl⟩
      · have stays : text.strip ∉ exitWords := by simpa using leaves
        have next := take_enter solitary s text
        obtain ⟨e, t, ran, -, ends⟩ :=
          run_submit solitary (s.updateTab s.tabs.active.id (·.setBuffer text))
        rw [ran] at next
        cases e with
        | done result =>
          have turned := turn_line_of_ran stays ran
          have later (steps : List Step) : (takeAll commands s (.enter text none :: steps)).2 =
              (takeAll commands t steps).2 :=
            congrArg (fun s => (takeAll commands s steps).2) next
          rw [turns_cons (congrArg Prod.fst turned), turned, entered, if_neg leaves, List.map_cons,
            later]
          exact ih t
        | escaped cause =>
          right
          refine ⟨cause, ?_⟩
          rw [turns, turn, if_neg leaves, submitLine]
          dsimp only
          rw [ran]
          rfl
        | stuck => exact absurd rfl ends

end Console

end GatedConsole
