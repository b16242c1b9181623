import GatedConsole.Task.Loop
import Mathlib.Data.List.Forall2

/-!
A program and the same program with a log, which it writes but never reads. Main statement: in the
loop both end alike and leave the same state.
-/

set_option autoImplicit false
set_option relaxedAutoImplicit false

namespace GatedConsole

variable {ε σ ω α β : Type}

namespace Program

/-- `Logged q p` says that `q` is `p` with a log that it writes whenever it changes the state. -/
inductive Logged : {α : Type} → Program ε (σ × List ω) α → Program ε σ α → Prop
  | done {α : Type} (a : α) : Logged (.done a) (.done a)
  | escape {α : Type} (cause : ε) :
      Logged (.escape cause : Program ε (σ × List ω) α) (.escape cause)
  | look {α : Type} {next' : σ × List ω → Program ε (σ × List ω) α} {next : σ → Program ε σ α}
      (h : ∀ now, Logged (next' now) (next now.1)) : Logged (.look next') (.look next)
  | keep {α : Type} {next' : Program ε (σ × List ω) α} {next : Program ε σ α} (s : σ)
      (longer : σ × List ω → List ω) (h : Logged next' next) :
      Logged (.look fun now => .keep (s, longer now) next') (.keep s next)
  | pause {α : Type} {next' : Program ε (σ × List ω) α} {next : Program ε σ α}
      (h : Logged next' next) : Logged (.pause next') (.pause next)
  | acquire {α : Type} {next' : Program ε (σ × List ω) α} {next : Program ε σ α}
      (h : Logged next' next) : Logged (.acquire next') (.acquire next)
  | release {α : Type} {next' : Program ε (σ × List ω) α} {next : Program ε σ α}
      (h : Logged next' next) : Logged (.release next') (.release next)
  | fork {α β : Type} {count : Nat} {part' : Fin count → Program ε (σ × List ω) β}
      {part : Fin count → Program ε σ β} {next' : List (Ending ε β) → Program ε (σ × List ω) α}
      {next : List (Ending ε β) → Program ε σ α} (parts : ∀ i, Logged (part' i) (part i))
      (h : ∀ endings, Logged (next' endings) (next endings)) :
      Logged (.fork count part' next') (.fork count part next)

namespace Logged

theorem bind {q : Program ε (σ × List ω) α} {p : Program ε σ α} (h : Logged q p)
    {g : α → Program ε (σ × List ω) β} {f : α → Program ε σ β} (rest : ∀ a, Logged (g a) (f a)) :
    Logged (q.bind g) (p.bind f) := by
  induction h with
  | done a => exact rest a
  | escape cause => exact .escape cause
  | look _ ih => exact .look fun now => ih now rest
  | keep s longer _ ih => exact .keep s longer (ih rest)
  | pause _ ih => exact .pause (ih rest)
  | acquire _ ih => exact .acquire (ih rest)
  | release _ ih => exact .release (ih rest)
  | fork parts _ _ ih => exact .fork parts fun endings => ih endings rest

theorem map {q : Program ε (σ × List ω) α} {p : Program ε σ α} (f : α → β) (h : Logged q p) :
    Logged (f <$> q) (f <$> p) :=
  h.bind fun a => .done (f a)

theorem andFinally {q : Program ε (σ × List ω) α} {p : Program ε σ α} (h : Logged q p)
    {cleanup' : Program ε (σ × List ω) Unit} {cleanup : Program ε σ Unit}
    (cleans : Logged cleanup' cleanup) :
    Logged (q.andFinally cleanup') (p.andFinally cleanup) := by
  induction h with
  | done a => exact cleans.bind fun _ => .done a
  | escape cause => exact cleans.bind fun _ => .escape cause
  | look _ ih => exact .look ih
  | keep s longer _ ih => exact .keep s longer ih
  | pause _ ih => exact .pause ih
  | acquire _ ih => exact .acquire ih
  | release _ ih => exact .release ih
  | fork parts _ _ ih => exact .fork parts ih

private theorem fork_of_eq {count' count : Nat} (same : count' = count)
    {part' : Fin count' → Program ε (σ × List ω) β} {part : Fin count → Program ε σ β}
    (parts : ∀ i, Logged (part' (Fin.cast same.symm i)) (part i)) :
    Logged (.fork count' part' .done) (.fork count part .done) := by
  subst same
  exact .fork parts fun endings => .done endings

theorem forkAll {parts' : List (Program ε (σ × List ω) β)} {parts : List (Program ε σ β)}
    (h : List.Forall₂ Logged parts' parts) :
    Logged (Program.forkAll parts') (Program.forkAll parts) := by
  refine fork_of_eq h.length_eq fun i => ?_
  have within : i.val < parts'.length := by
    rw [h.length_eq]
    exact i.isLt
  exact h.get within i.isLt

end Logged

end Program

/-! ## The loop -/

/-- The floor without the log. -/
def Floor.plain (floor : Floor (σ × List ω)) : Floor σ :=
  ⟨floor.state.1, floor.held, floor.ready, floor.waiting⟩

theorem Floor.plain_leave (floor : Floor (σ × List ω)) (address : Address) :
    (floor.leave address).plain = floor.plain.leave address := by
  unfold leave
  split <;> rfl

namespace Thread

open Program

inductive Logged : {α : Type} → Thread ε (σ × List ω) α → Thread ε σ α → Prop
  | running {α : Type} {q : Program ε (σ × List ω) α} {p : Program ε σ α} (h : q.Logged p) :
      Logged (.running q) (.running p)
  | joining {α β : Type} {count untold : Nat} {parts' : Fin count → Thread ε (σ × List ω) β}
      {parts : Fin count → Thread ε σ β} {next' : List (Ending ε β) → Program ε (σ × List ω) α}
      {next : List (Ending ε β) → Program ε σ α} (each : ∀ i, Logged (parts' i) (parts i))
      (h : ∀ endings, (next' endings).Logged (next endings)) :
      Logged (.joining count untold parts' next') (.joining count untold parts next)
  | ended {α : Type} (ending : Ending ε α) : Logged (.ended ending) (.ended ending)

theorem Logged.ending_eq {t' : Thread ε (σ × List ω) α} {t : Thread ε σ α} (h : Logged t' t) :
    t'.ending = t.ending := by
  cases h <;> rfl

theorem logged_advance {q : Program ε (σ × List ω) α} {p : Program ε σ α} (h : q.Logged p)
    (address : Address) (floor : Floor (σ × List ω)) :
    (q.advance address floor).1.Logged (p.advance address floor.plain).1 ∧
      (q.advance address floor).2.plain = (p.advance address floor.plain).2 := by
  induction h generalizing floor with
  | done a => exact ⟨.ended _, Floor.plain_leave floor address⟩
  | escape cause => exact ⟨.ended _, Floor.plain_leave floor address⟩
  | look _ ih => exact ih floor.state floor
  | keep s longer _ ih => exact ih { floor with state := (s, longer floor.state) }
  | pause h => exact ⟨.running h, rfl⟩
  | acquire h ih =>
    simp only [Program.advance]
    cases held : floor.held with
    | true =>
      rw [show floor.plain.held = true from held]
      exact ⟨.running h, rfl⟩
    | false =>
      rw [show floor.plain.held = false from held]
      exact ih { floor with held := true }
  | release _ ih =>
    simp only [Program.advance]
    cases waiting : floor.waiting with
    | nil =>
      rw [show floor.plain.waiting = [] from waiting]
      exact ih ⟨floor.state, false, floor.ready, []⟩
    | cons first rest =>
      rw [show floor.plain.waiting = first :: rest from waiting]
      exact ih ({ floor with waiting := rest }.queue [.resume first])
  | fork parts h _ ih =>
    simp only [Program.advance]
    split
    · exact ih [] floor
    · exact ⟨.joining (fun i => .running (parts i)) h, rfl⟩

theorem logged_goOn {t' : Thread ε (σ × List ω) α} {t : Thread ε σ α} (h : Logged t' t)
    (address : Address) (floor : Floor (σ × List ω)) :
    (t'.goOn address floor).1.Logged (t.goOn address floor.plain).1 ∧
      (t'.goOn address floor).2.plain = (t.goOn address floor.plain).2 := by
  cases h with
  | running h => exact logged_advance h address floor
  | ended ending => exact ⟨.ended ending, rfl⟩
  | @joining _ _ _ untold _ _ _ _ each h =>
    cases untold with
    | succ untold => exact ⟨.joining each h, rfl⟩
    | zero =>
      simp only [goOn, (each _).ending_eq]
      exact logged_advance (h _) address floor

theorem logged_hear {t' : Thread ε (σ × List ω) α} {t : Thread ε σ α} (h : Logged t' t)
    (address : Address) (floor : Floor (σ × List ω)) :
    (t'.hear address floor).1.Logged (t.hear address floor.plain).1 ∧
      (t'.hear address floor).2.plain = (t.hear address floor.plain).2 := by
  cases h with
  | running h => exact ⟨.running h, rfl⟩
  | ended ending => exact ⟨.ended ending, rfl⟩
  | @joining _ _ _ untold _ _ _ _ each h =>
    cases untold with
    | zero => exact ⟨.joining each h, rfl⟩
    | succ untold =>
      refine ⟨.joining each h, ?_⟩
      simp only [hear]
      split <;> rfl

theorem logged_replace {count : Nat} {parts' : Fin count → Thread ε (σ × List ω) β}
    {parts : Fin count → Thread ε σ β} (each : ∀ i, Logged (parts' i) (parts i)) (i : Fin count)
    {t' : Thread ε (σ × List ω) β} {t : Thread ε σ β} (h : Logged t' t) (j : Fin count) :
    (replace parts' i t' j).Logged (replace parts i t j) := by
  simp only [replace]
  split
  · exact h
  · exact each j

theorem logged_visit
    {act' : {α : Type} → Thread ε (σ × List ω) α → Floor (σ × List ω) →
      Thread ε (σ × List ω) α × Floor (σ × List ω)}
    {act : {α : Type} → Thread ε σ α → Floor σ → Thread ε σ α × Floor σ}
    (acts : ∀ {α : Type} {t' : Thread ε (σ × List ω) α} {t : Thread ε σ α}, Logged t' t →
      ∀ floor, (act' t' floor).1.Logged (act t floor.plain).1 ∧
        (act' t' floor).2.plain = (act t floor.plain).2)
    (address : Address) {α : Type} {t' : Thread ε (σ × List ω) α} {t : Thread ε σ α}
    (h : Logged t' t) (floor : Floor (σ × List ω)) :
    (visit act' address t' floor).1.Logged (visit act address t floor.plain).1 ∧
      (visit act' address t' floor).2.plain = (visit act address t floor.plain).2 := by
  induction address generalizing α with
  | nil => exact acts h floor
  | cons i rest ih =>
    cases h with
    | running h => exact ⟨.running h, rfl⟩
    | ended ending => exact ⟨.ended ending, rfl⟩
    | joining each h =>
      simp only [visit]
      split
      · rename_i inside
        obtain ⟨thread, floors⟩ := ih (each ⟨i, inside⟩)
        exact ⟨.joining (logged_replace each _ thread) h, floors⟩
      · exact ⟨.joining each h, rfl⟩

theorem logged_obey (ticket : Ticket) {t' : Thread ε (σ × List ω) α} {t : Thread ε σ α}
    (h : Logged t' t) (floor : Floor (σ × List ω)) :
    (t'.obey ticket floor).1.Logged (t.obey ticket floor.plain).1 ∧
      (t'.obey ticket floor).2.plain = (t.obey ticket floor.plain).2 := by
  cases ticket with
  | resume address => exact logged_visit (fun h => logged_goOn h address) address h floor
  | tell address => exact logged_visit (fun h => logged_hear h address) address h floor

end Thread

namespace Loop

/-- One loop is the other one with a log. -/
def Logged (logged : Loop ε (σ × List ω) α) (loop : Loop ε σ α) : Prop :=
  logged.root.Logged loop.root ∧ logged.floor.plain = loop.floor

theorem Logged.turn {logged : Loop ε (σ × List ω) α} {loop : Loop ε σ α}
    (h : Logged logged loop) :
    (logged.turn = none ∧ loop.turn = none) ∨
      ∃ next' next, logged.turn = some next' ∧ loop.turn = some next ∧ Logged next' next := by
  obtain ⟨root, floor⟩ := h
  have ready : logged.floor.ready = loop.floor.ready := congrArg Floor.ready floor
  cases queue : loop.floor.ready with
  | nil =>
    left
    simp only [Loop.turn, ready, queue, and_self]
  | cons ticket tickets =>
    right
    refine ⟨draw logged.root { logged.floor with ready := tickets } ticket,
      draw loop.root { loop.floor with ready := tickets } ticket, ?_, ?_, ?_⟩
    · simp only [Loop.turn, ready, queue]
    · simp only [Loop.turn, queue]
    · rw [← floor]
      exact Thread.logged_obey ticket root { logged.floor with ready := tickets }

theorem Logged.rest {logged : Loop ε (σ × List ω) α} {loop : Loop ε σ α}
    (h : Logged logged loop) : Logged logged.rest loop.rest := by
  induction loop using less_wellFounded.induction generalizing logged with
  | _ loop ih =>
    rcases h.turn with ⟨still', still⟩ | ⟨next', next, turn', turn, goes_on⟩
    · rw [rest_of_turn_eq_none still', rest_of_turn_eq_none still]
      exact h
    · rw [rest_of_turn_eq_some turn', rest_of_turn_eq_some turn]
      exact ih next (turn_less turn) goes_on

/-- A program with a log ends as it does without one, and in the same state. -/
theorem run_logged {q : Program ε (σ × List ω) α} {p : Program ε σ α} (h : q.Logged p) (s : σ)
    (log : List ω) : (run q (s, log)).1 = (run p s).1 ∧ (run q (s, log)).2.1 = (run p s).2 := by
  have same : Logged (start q false (s, log)) (start p false s) := ⟨.running h, rfl⟩
  obtain ⟨root, floor⟩ := same.rest
  exact ⟨root.ending_eq, congrArg Floor.state floor⟩

end Loop

end GatedConsole
