import GatedConsole.Proofs.Task.Locked
import GatedConsole.Proofs.Task.Watch

/-!
Programs that run alone, from one state to another. Main statements: a program that leaves the lock
alone and has no parts runs from every state to an end, a run of a composition is put together from
runs of its parts, and under the lock the loop does what the run says.
-/

set_option autoImplicit false
set_option relaxedAutoImplicit false

namespace GatedConsole

variable {ε σ ω α β : Type} {note : σ → σ → List ω}

/-- The ending with its value changed. -/
def Ending.map (f : α → β) : Ending ε α → Ending ε β
  | .done a => .done (f a)
  | .escaped cause => .escaped cause
  | .stuck => .stuck

theorem Ending.eq_escaped_of_map {f : α → β} {e : Ending ε α} {cause : ε}
    (h : e.map f = .escaped cause) : e = .escaped cause := by
  cases e with
  | done => cases h
  | escaped => exact congrArg Ending.escaped (Ending.escaped.inj h)
  | stuck => cases h

namespace Program

/-- Alone from the state `s` the program ends as `e` in the state `t`, and what is noted of its
changes on the way is `log`. -/
inductive Runs (note : σ → σ → List ω) :
    {α : Type} → Program ε σ α → σ → Ending ε α → σ → List ω → Prop
  | done {α : Type} (a : α) (s : σ) : Runs note (.done a) s (.done a) s []
  | escape {α : Type} (cause : ε) (s : σ) :
      Runs note (.escape cause : Program ε σ α) s (.escaped cause) s []
  | look {α : Type} {next : σ → Program ε σ α} {s t : σ} {e : Ending ε α} {log : List ω}
      (h : Runs note (next s) s e t log) : Runs note (.look next) s e t log
  | keep {α : Type} {next : Program ε σ α} {s s' t : σ} {e : Ending ε α} {log : List ω}
      (h : Runs note next s' e t log) : Runs note (.keep s' next) s e t (note s s' ++ log)
  | pause {α : Type} {next : Program ε σ α} {s t : σ} {e : Ending ε α} {log : List ω}
      (h : Runs note next s e t log) : Runs note (.pause next) s e t log

/-- Ends with a value if it ends; it never breaks off. -/
def Unbroken {α : Type} : Program ε σ α → Prop
  | .done _ => True
  | .escape _ => False
  | .look next => ∀ s, (next s).Unbroken
  | .keep _ next => next.Unbroken
  | .pause next => next.Unbroken
  | .acquire next => next.Unbroken
  | .release next => next.Unbroken
  | .fork _ _ next => ∀ endings, (next endings).Unbroken

/-- Every value that it can end with has the property. -/
def Yields {α : Type} (Q : α → Prop) : Program ε σ α → Prop
  | .done a => Q a
  | .escape _ => True
  | .look next => ∀ s, (next s).Yields Q
  | .keep _ next => next.Yields Q
  | .pause next => next.Yields Q
  | .acquire next => next.Yields Q
  | .release next => next.Yields Q
  | .fork _ _ next => ∀ endings, (next endings).Yields Q

theorem yields_true (p : Program ε σ α) : p.Yields fun _ => True := by
  induction p with
  | done | escape => trivial
  | look next ih => exact fun s => ih s
  | keep _ next ih | pause next ih | acquire next ih | release next ih => exact ih
  | fork count part next _ ih => exact fun endings => ih endings

theorem Yields.bind {P : α → Prop} {Q : β → Prop} {p : Program ε σ α} {f : α → Program ε σ β}
    (h : p.Yields P) (rest : ∀ a, P a → (f a).Yields Q) : (p.bind f).Yields Q := by
  induction p with
  | done a => exact rest a h
  | escape cause => trivial
  | look next ih => exact fun s => ih s (h s) rest
  | keep _ next ih | pause next ih | acquire next ih | release next ih => exact ih h rest
  | fork count part next _ ih => exact fun endings => ih endings (h endings) rest

/-- What stands behind a program has the property whatever the program ends with. -/
theorem yields_bind {Q : β → Prop} (p : Program ε σ α) {f : α → Program ε σ β}
    (rest : ∀ a, (f a).Yields Q) : (p.bind f).Yields Q :=
  p.yields_true.bind fun a _ => rest a

theorem Unbroken.watch (note : σ → σ → List ω) {p : Program ε σ α} (h : p.Unbroken) :
    (p.watch note).Unbroken := by
  induction p with
  | done => trivial
  | escape => exact h
  | look next ih => exact fun now => ih now.1 (h now.1)
  | keep _ next ih => exact fun _ => ih h
  | pause next ih | acquire next ih | release next ih => exact ih h
  | fork count part next _ ih => exact fun endings => ih endings (h endings)

/-- What holds tokens and does not break off ends with a value. -/
theorem holds_of_unbroken {μ : Type} [AddCommMonoid μ] {J : μ → σ → Prop}
    {R : Ending ε α → μ → σ → μ → Prop} {p : Program ε σ α} {own others : μ} {s : σ}
    (h : p.Holds J R own s others) (whole : p.Unbroken) :
    p.Holds J (fun e own s others => R e own s others ∧ ∃ a, e = .done a) own s others := by
  induction p generalizing own others s with
  | done a => exact ⟨h, a, rfl⟩
  | escape => exact whole.elim
  | look next ih => exact ih s h (whole s)
  | keep t next ih =>
    obtain ⟨own', h⟩ := h
    exact ⟨own', ih h whole⟩
  | pause next ih => exact ⟨h.1, fun t others now => ih (h.2 t others now) whole⟩
  | acquire next ih => exact ⟨h.1, fun t others now => ih (h.2 t others now) whole⟩
  | release next ih => exact ih h whole
  | fork count part next _ ih =>
    obtain ⟨now, parts, rest⟩ := h
    exact ⟨now, parts, fun endings t others now =>
      ih endings (rest endings t others now) (whole endings)⟩

theorem forEach_map {γ : Type} (f : β → Program ε σ α) (g : γ → β) (cs : List γ) :
    forEach f (cs.map g) = forEach (fun c => f (g c)) cs := by
  induction cs with
  | nil => rfl
  | cons c cs ih => exact congrArg ((f (g c)).bind ·) (by rw [ih])

theorem forEach_append (f : β → Program ε σ α) (bs cs : List β) :
    forEach f (bs ++ cs) =
      (forEach f bs).bind fun as => (forEach f cs).bind fun as' => .done (as ++ as') := by
  induction bs with
  | nil => exact (bind_done _).symm
  | cons b bs ih =>
    change ((f b).bind fun a => (forEach f (bs ++ cs)).bind fun as => .done (a :: as)) =
      ((f b).bind fun a => (forEach f bs).bind fun as => .done (a :: as)).bind _
    simp only [ih, bind_assoc]
    rfl

namespace Runs

variable {p : Program ε σ α} {f : α → Program ε σ β} {s t u : σ} {log log' : List ω}

theorem ne_stuck {e : Ending ε α} (h : p.Runs note s e t log) : e ≠ .stuck := by
  induction h with
  | done => nofun
  | escape => nofun
  | look _ ih => exact ih
  | keep _ ih => exact ih
  | pause _ ih => exact ih

theorem alone_eq {e : Ending ε α} (h : p.Runs note s e t log) (held : Bool) :
    p.alone held s = (e, held, t) := by
  induction h with
  | done => rfl
  | escape => rfl
  | look _ ih => exact ih
  | keep _ ih => exact ih
  | pause _ ih => exact ih

theorem alone_watch_eq {e : Ending ε α} (h : p.Runs note s e t log) (held : Bool)
    (before : List ω) :
    (p.watch note).alone held (s, before) = (e, held, t, before ++ log) := by
  induction h generalizing before with
  | done => simp [watch]
  | escape => simp [watch, alone]
  | look _ ih => exact ih before
  | keep _ ih =>
    rw [← List.append_assoc]
    exact ih _
  | pause _ ih => exact ih before

theorem bind {a : α} {e : Ending ε β} (h : p.Runs note s (.done a) t log)
    (h' : (f a).Runs note t e u log') : (p.bind f).Runs note s e u (log ++ log') := by
  -- The induction is on the run, for which its ending has to be a variable.
  generalize ends : Ending.done a = ending at h
  induction h with
  | done =>
    cases ends
    exact h'
  | escape => cases ends
  | look _ ih => exact .look (ih h' ends)
  | keep _ ih =>
    rw [List.append_assoc]
    exact .keep (ih h' ends)
  | pause _ ih => exact .pause (ih h' ends)

theorem bind_escaped {cause : ε} (f : α → Program ε σ β)
    (h : p.Runs note s (.escaped cause) t log) :
    (p.bind f).Runs note s (.escaped cause) t log := by
  generalize ends : (Ending.escaped cause : Ending ε α) = ending at h
  induction h with
  | done => cases ends
  | escape cause s =>
    cases ends
    exact .escape cause s
  | look _ ih => exact .look (ih ends)
  | keep _ ih => exact .keep (ih ends)
  | pause _ ih => exact .pause (ih ends)

theorem act (note : σ → σ → List ω) (f : σ → α × σ) (s : σ) :
    (Program.act f : Program ε σ α).Runs note s (.done (f s).1) (f s).2 (note s (f s).2) := by
  have run : (Program.act f : Program ε σ α).Runs note s (.done (f s).1) (f s).2
      (note s (f s).2 ++ []) := .look (.keep (.done _ _))
  rwa [List.append_nil] at run

theorem of_done {a : α} {e : Ending ε α}
    (h : (.done a : Program ε σ α).Runs note s e t log) : e = .done a ∧ t = s ∧ log = [] := by
  cases h
  exact ⟨rfl, rfl, rfl⟩

theorem of_look {next : σ → Program ε σ α} {e : Ending ε α}
    (h : (.look next : Program ε σ α).Runs note s e t log) : (next s).Runs note s e t log := by
  cases h with
  | look h => exact h

theorem of_keep {next : Program ε σ α} {s' : σ} {e : Ending ε α}
    (h : (.keep s' next : Program ε σ α).Runs note s e t log) :
    ∃ rest, next.Runs note s' e t rest ∧ log = note s s' ++ rest := by
  cases h with
  | keep h => exact ⟨_, h, rfl⟩

/-- A run of a composition breaks off in its first part, or goes on from where that is done. -/
theorem of_bind {e : Ending ε β} (h : (p.bind f).Runs note s e u log) :
    (∃ a t first rest, p.Runs note s (.done a) t first ∧ (f a).Runs note t e u rest ∧
        log = first ++ rest) ∨
      ∃ cause, e = .escaped cause ∧ p.Runs note s (.escaped cause) u log := by
  induction p generalizing s log with
  | done a => exact .inl ⟨a, s, [], log, .done a s, h, rfl⟩
  | escape cause =>
    cases h
    exact .inr ⟨cause, rfl, .escape cause _⟩
  | look next ih =>
    cases h with
    | look h =>
      obtain ⟨a, t, first, rest, begins, goes_on, parts⟩ | ⟨cause, ends, broken⟩ := ih s h
      · exact .inl ⟨a, t, first, rest, .look begins, goes_on, parts⟩
      · exact .inr ⟨cause, ends, .look broken⟩
  | keep s' next ih =>
    cases h with
    | keep h =>
      obtain ⟨a, t, first, rest, begins, goes_on, rfl⟩ | ⟨cause, ends, broken⟩ := ih h
      · exact .inl ⟨a, t, note s s' ++ first, rest, .keep begins, goes_on,
          (List.append_assoc _ _ _).symm⟩
      · exact .inr ⟨cause, ends, .keep broken⟩
  | pause next ih =>
    cases h with
    | pause h =>
      obtain ⟨a, t, first, rest, begins, goes_on, parts⟩ | ⟨cause, ends, broken⟩ := ih h
      · exact .inl ⟨a, t, first, rest, .pause begins, goes_on, parts⟩
      · exact .inr ⟨cause, ends, .pause broken⟩
  | acquire | release | fork => cases h

theorem map {e : Ending ε α} (f : α → β) (h : p.Runs note s e t log) :
    (f <$> p).Runs note s (e.map f) t log := by
  cases e with
  | done a =>
    rw [← List.append_nil log]
    exact h.bind (.done (f a) t)
  | escaped cause => exact h.bind_escaped _
  | stuck => exact absurd rfl h.ne_stuck

theorem of_map {f : α → β} {e : Ending ε β} (h : (f <$> p).Runs note s e t log) :
    ∃ e', e = e'.map f ∧ p.Runs note s e' t log := by
  obtain ⟨a, t', first, rest, one, ends, rfl⟩ | ⟨cause, rfl, broken⟩ := of_bind h
  · obtain ⟨rfl, rfl, rfl⟩ := ends.of_done
    rw [List.append_nil]
    exact ⟨.done a, rfl, one⟩
  · exact ⟨.escaped cause, rfl, broken⟩

/-- What all changes of a program have in common holds between the ends of its run. -/
theorem only {G : σ → σ → Prop} {e : Ending ε α} (h : p.Runs note s e t log)
    (refl : ∀ s, G s s) (trans : ∀ s t u, G s t → G t u → G s u) (changes : p.Only G s) :
    G s t := by
  induction h with
  | done a s => exact refl s
  | escape cause s => exact refl s
  | look _ ih => exact ih changes
  | keep _ ih => exact trans _ _ _ changes.1 (ih changes.2)
  | pause _ ih => exact ih (changes _)

/-- Changes of which nothing is noted leave the log empty. -/
theorem log_eq_nil {G : σ → σ → Prop} {e : Ending ε α} (h : p.Runs note s e t log)
    (silent : ∀ s t, G s t → note s t = []) (changes : p.Only G s) : log = [] := by
  induction h with
  | done => rfl
  | escape => rfl
  | look _ ih => exact ih changes
  | keep _ ih => rw [silent _ _ changes.1, ih changes.2, List.append_nil]
  | pause _ ih => exact ih (changes _)

/-- A program that cannot break off runs to a value. -/
theorem exists_done {e : Ending ε α} (h : p.Runs note s e t log) (whole : p.Unbroken) :
    ∃ a, e = .done a := by
  induction h with
  | done a => exact ⟨a, rfl⟩
  | escape => exact whole.elim
  | look _ ih => exact ih (whole _)
  | keep _ ih => exact ih whole
  | pause _ ih => exact ih whole

/-- The value at the end of a run is one that the program can end with. -/
theorem yields {Q : α → Prop} {a : α} (h : p.Runs note s (.done a) t log) (all : p.Yields Q) :
    Q a := by
  generalize ends : Ending.done a = ending at h
  induction h with
  | done a =>
    cases ends
    exact all
  | escape => cases ends
  | look _ ih => exact ih (all _) ends
  | keep _ ih => exact ih all ends
  | pause _ ih => exact ih all ends

end Runs

/-- A run goes on from wherever looks and changes lead. -/
theorem Reaches.runs {p q : Program ε σ α} {s t u : σ} {e : Ending ε α} {log : List ω}
    (way : p.Reaches s q t) (h : p.Runs note s e u log) : ∃ rest, q.Runs note t e u rest := by
  induction way generalizing log with
  | here => exact ⟨log, h⟩
  | look _ ih => exact ih (Runs.of_look h)
  | keep _ ih =>
    obtain ⟨rest, goes_on, -⟩ := Runs.of_keep h
    exact ih goes_on

/-- Of programs that do the same each runs if the other one does. -/
theorem Alike.exists_runs {ι τ : Type} {R : ι → σ → τ → Prop} {note' : τ → τ → List ω} {k : ι}
    {p : Program ε σ α} {q : Program ε τ α} {s s' : σ} {t : τ} {e : Ending ε α} {log : List ω}
    (alike : Alike R k p s q t) (h : p.Runs note s e s' log) :
    ∃ t' log', q.Runs note' t e t' log' ∧ R k s' t' := by
  induction alike generalizing log with
  | done a now =>
    obtain ⟨rfl, rfl, -⟩ := h.of_done
    exact ⟨_, _, .done a _, now⟩
  | escape cause now =>
    cases h
    exact ⟨_, _, .escape cause _, now⟩
  | look _ ih =>
    obtain ⟨t', log', run, after⟩ := ih h.of_look
    exact ⟨t', log', .look run, after⟩
  | keep _ ih =>
    obtain ⟨rest, goes_on, -⟩ := h.of_keep
    obtain ⟨t', log', run, after⟩ := ih goes_on
    exact ⟨t', _, .keep run, after⟩
  | pause now _ ih =>
    cases h with
    | pause h =>
      obtain ⟨t', log', run, after⟩ := ih _ _ _ now h
      exact ⟨t', log', .pause run, after⟩
  | acquire => cases h
  | release => cases h

theorem Solitary.exists_runs {p : Program ε σ α} (h : p.Solitary) (note : σ → σ → List ω) (s : σ) :
    ∃ e t log, p.Runs note s e t log := by
  induction p generalizing s with
  | done a => exact ⟨_, _, _, .done a s⟩
  | escape cause => exact ⟨_, _, _, .escape cause s⟩
  | look next ih =>
    obtain ⟨e, t, log, run⟩ := ih s (h s) s
    exact ⟨e, t, log, .look run⟩
  | keep s' next ih =>
    obtain ⟨e, t, log, run⟩ := ih h s'
    exact ⟨e, t, _, .keep run⟩
  | pause next ih =>
    obtain ⟨e, t, log, run⟩ := ih h s
    exact ⟨e, t, log, .pause run⟩
  | acquire | release | fork => exact h.elim

theorem alone_map (f : α → β) (p : Program ε σ α) (held : Bool) (s : σ) :
    (f <$> p).alone held s =
      ((p.alone held s).1.map f, (p.alone held s).2.1, (p.alone held s).2.2) := by
  change (p.bind fun a => .done (f a)).alone held s = _
  rw [alone_bind]
  rcases p.alone held s with ⟨_ | _ | _, held, t⟩ <;> rfl

/-- Waits for the lock, and gives it back when the program has ended in whatever way. -/
def underLock (p : Program ε σ α) : Program ε σ α := take.bind fun _ => p.andFinally giveBack

theorem alone_underLock {p : Program ε σ α} {s t : σ} {e : Ending ε α} {held : Bool}
    (h : p.alone true s = (e, held, t)) (ends : e ≠ .stuck) :
    p.underLock.alone false s = (e, false, t) := by
  change (p.andFinally giveBack).alone true s = _
  rw [alone_andFinally, h]
  cases e with
  | done a => rfl
  | escaped cause => rfl
  | stuck => exact absurd rfl ends

theorem watch_underLock (note : σ → σ → List ω) (p : Program ε σ α) :
    (underLock p).watch note = underLock (p.watch note) := by
  rw [underLock, watch_bind]
  simp only [watch_andFinally]
  rfl

end Program

namespace Loop

open Program

variable {p : Program ε σ α} {s t : σ} {e : Ending ε α} {log : List ω}

private theorem map_ne_stuck (f : α → β) (h : e ≠ .stuck) : e.map f ≠ .stuck := by
  cases e with
  | done a => nofun
  | escaped cause => nofun
  | stuck => exact absurd rfl h

theorem run_eq_of_runs (h : p.Runs note s e t log) : run p s = (e, t) := by
  have alone := h.alone_eq false
  rw [run_eq_of_alone p s (by rw [alone]; exact h.ne_stuck), alone]

theorem log_eq_of_runs (h : p.Runs note s e t log) : Loop.log note p s = log := by
  have alone := h.alone_watch_eq false []
  rw [Loop.log, run_eq_of_alone _ _ (by rw [alone]; exact h.ne_stuck), alone]
  rfl

/-- Under the lock, in the loop, the program does what its run says, and leaves the lock free. -/
theorem rest_underLock (h : p.Runs note s e t log) (f : α → β) :
    (start (f <$> p.underLock) false s).rest = ⟨.ended (e.map f), { state := t }⟩ := by
  have ends := map_ne_stuck f h.ne_stuck
  have alone : (f <$> p.underLock).alone false s = (e.map f, false, t) := by
    rw [alone_map, alone_underLock (h.alone_eq true) h.ne_stuck]
  rw [rest_eq_of_alone _ _ _ (by rwa [alone]), alone]

theorem run_underLock (h : p.Runs note s e t log) (f : α → β) :
    run (f <$> p.underLock) s = (e.map f, t) := by
  rw [run, rest_underLock h f]
  rfl

theorem log_underLock (h : p.Runs note s e t log) (f : α → β) :
    Loop.log note (f <$> p.underLock) s = log := by
  have ends := map_ne_stuck f h.ne_stuck
  have alone : ((f <$> p.underLock).watch note).alone false (s, []) =
      (e.map f, false, t, log) := by
    rw [watch_map, alone_map, watch_underLock,
      alone_underLock (h.alone_watch_eq true []) h.ne_stuck]
    rfl
  rw [Loop.log, run_eq_of_alone _ _ (by rwa [alone]), alone]

end Loop

end GatedConsole
