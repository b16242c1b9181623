import GatedConsole.Proofs.Task.Logged
import GatedConsole.Proofs.Task.Tokens

/-!
Watching a program: beside the state it carries a log of what its changes of the state show. Main
statements: a watched program does in the loop what it does unwatched, and what all changes of a
program keep of state and log is kept when it is watched.
-/

set_option autoImplicit false
set_option relaxedAutoImplicit false

namespace GatedConsole

variable {ε σ ω α β : Type} (note : σ → σ → List ω)

namespace Program

/-- The program with a log, to which `note before after` is added whenever it changes the state. -/
def watch {α : Type} : Program ε σ α → Program ε (σ × List ω) α
  | .done a => .done a
  | .escape e => .escape e
  | .look next => .look fun now => (next now.1).watch
  | .keep s next => .look fun now => .keep (s, now.2 ++ note now.1 s) next.watch
  | .pause next => .pause next.watch
  | .acquire next => .acquire next.watch
  | .release next => .release next.watch
  | .fork count part next =>
    .fork count (fun i => (part i).watch) fun endings => (next endings).watch

theorem watch_bind (p : Program ε σ α) (f : α → Program ε σ β) :
    (p.bind f).watch note = (p.watch note).bind fun a => (f a).watch note := by
  induction p <;> simp_all [bind, watch]

theorem ensures_watch_read {I : σ × List ω → Prop} {Q : α → σ × List ω → Prop}
    {f : σ → Program ε σ α} {s : σ × List ω} :
    ((Program.read >>= f).watch note).Ensures I Q s ↔ ((f s.1).watch note).Ensures I Q s :=
  Iff.rfl

/-- What a program ensures of the state it ensures when it is watched. -/
theorem ensures_watch {I : σ → Prop} {Q : α → σ → Prop} {p : Program ε σ α} {s : σ}
    (h : p.Ensures I Q s) (log : List ω) :
    (p.watch note).Ensures (fun now => I now.1) (fun a now => Q a now.1) (s, log) := by
  induction p generalizing s log with
  | done a => exact h
  | escape e => exact h
  | look next ih => exact ih s h log
  | keep t next ih => exact ih h _
  | pause next ih => exact ⟨h.1, fun t now => ih (h.2 t.1 now) t.2⟩
  | acquire next ih => exact ⟨h.1, fun t now => ih (h.2 t.1 now) t.2⟩
  | release next ih => exact ih h log
  | fork count part next ihp ih =>
    obtain ⟨now, parts, rest⟩ := h
    exact ⟨now, fun i t now => ihp i (parts i t.1 now) t.2,
      fun endings t now => ih endings (rest endings t.1 now) t.2⟩

theorem watch_map (f : α → β) (p : Program ε σ α) :
    (f <$> p).watch note = f <$> p.watch note :=
  watch_bind note p _

theorem watch_andFinally (p : Program ε σ α) (cleanup : Program ε σ Unit) :
    (p.andFinally cleanup).watch note = (p.watch note).andFinally (cleanup.watch note) := by
  induction p <;> simp_all [andFinally, watch, watch_bind]

theorem watch_forEach (f : β → Program ε σ α) (bs : List β) :
    (forEach f bs).watch note = forEach (fun b => (f b).watch note) bs := by
  induction bs with
  | nil => rfl
  | cons b bs ih =>
    change ((f b).bind fun a => (forEach f bs).bind fun as => .done (a :: as)).watch note = _
    simp only [watch_bind, ih]
    rfl

/-- A watched program is the program with a log. -/
theorem watch_logged (p : Program ε σ α) : (p.watch note).Logged p := by
  induction p with
  | done a => exact .done a
  | escape e => exact .escape e
  | look next ih => exact .look fun now => ih now.1
  | keep s next ih => exact .keep s (fun now => now.2 ++ note now.1 s) ih
  | pause next ih => exact .pause ih
  | acquire next ih => exact .acquire ih
  | release next ih => exact .release ih
  | fork count part next ihp ih => exact .fork ihp ih

/-- A change of a watched program is a change of the program, and it is noted. -/
theorem only_watch {G : σ → σ → Prop} {p : Program ε σ α} {s : σ} (h : p.Only G s)
    (log : List ω) :
    (p.watch note).Only (fun now later => G now.1 later.1 ∧ later.2 = now.2 ++ note now.1 later.1)
      (s, log) := by
  induction p generalizing s log with
  | done a => trivial
  | escape e => trivial
  | look next ih => exact ih s h log
  | keep t next ih => exact ⟨⟨h.1, rfl⟩, ih h.2 _⟩
  | pause next ih => exact fun later => ih (h later.1) later.2
  | acquire next ih => exact fun later => ih (h later.1) later.2
  | release next ih => exact ih h log
  | fork count part next ihp ih =>
    exact ⟨fun i later => ihp i (h.1 i later.1) later.2,
      fun endings later => ih endings (h.2 endings later.1) later.2⟩

end Program

section Watched

open Program

variable {G : σ → σ → Prop} {p : Program ε σ α}

/-- A program all of whose changes keep the invariant keeps it when it is watched. -/
theorem steady_watch_of_only {I : σ × List ω → Prop}
    (stable : ∀ s t log, G s t → I (s, log) → I (t, log ++ note s t)) (h : ∀ s, p.Only G s) :
    (p.watch note).Steady I := by
  rintro ⟨s, log⟩ now
  refine ensures_of_only ?_ (only_watch note (h s) log) now
  rintro ⟨s, log⟩ ⟨t, later⟩ ⟨change, noted⟩ now
  obtain rfl : later = log ++ note s t := noted
  exact stable s t log change now

/-- A program all of whose changes keep `J`, whoever holds which tokens, keeps its own ones when it
is watched. -/
theorem holds_watch_of_only {μ : Type} [AddCommMonoid μ] {note : σ → σ → List ω}
    {J : μ → σ × List ω → Prop}
    (stable : ∀ m s t log, G s t → J m (s, log) → J m (t, log ++ note s t))
    {own others : μ} {s : σ} {log : List ω} (h : p.Only G s) (now : J (own + others) (s, log)) :
    (p.watch note).Holds J (Kept J own) own (s, log) others := by
  refine holds_of_only ?_ (only_watch note h log) now
  rintro m ⟨s, log⟩ ⟨t, later⟩ ⟨change, noted⟩ now
  obtain rfl : later = log ++ note s t := noted
  exact stable m s t log change now

end Watched

namespace Loop

/-- What a run of the program logs, when it starts from a state with an empty log. -/
def log (p : Program ε σ α) (s : σ) : List ω := (run (p.watch note) (s, [])).2.2

/-- A watched program ends as it does unwatched, and in the same state. -/
theorem run_watch (p : Program ε σ α) (s : σ) :
    run (p.watch note) (s, []) = ((run p s).1, (run p s).2, log note p s) := by
  obtain ⟨ending, state⟩ := run_logged (Program.watch_logged note p) s []
  exact Prod.ext ending (Prod.ext state rfl)

/-- An invariant of state and log that the watched program keeps holds after its run. -/
theorem run_log {I : σ × List ω → Prop} {p : Program ε σ α} (h : (p.watch note).Steady I) {s : σ}
    (now : I (s, [])) : I ((run p s).2, log note p s) := by
  have after := run_steady h now
  rw [run_watch] at after
  exact after

end Loop

end GatedConsole
