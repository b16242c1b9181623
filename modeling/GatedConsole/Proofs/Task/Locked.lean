import GatedConsole.Proofs.Task.Alike
import GatedConsole.Task.Thread

/-!
Programs that take the lock once, if at all: what each does until it may be suspended, and what it
leaves behind then.
-/

set_option autoImplicit false
set_option relaxedAutoImplicit false

namespace GatedConsole.Program

variable {ε σ α β ι : Type}

/-- Looks and changes lead from the program at `s` to the one at `t`. Nothing comes between them. -/
inductive Reaches {α : Type} : Program ε σ α → σ → Program ε σ α → σ → Prop
  | here (p : Program ε σ α) (s : σ) : Reaches p s p s
  | look {next : σ → Program ε σ α} {q : Program ε σ α} {s t : σ} (h : Reaches (next s) s q t) :
      Reaches (.look next) s q t
  | keep {next q : Program ε σ α} {s s' t : σ} (h : Reaches next s' q t) :
      Reaches (.keep s' next) s q t

namespace Reaches

variable {p q : Program ε σ α} {s t : σ}

theorem trans {r : Program ε σ α} {u : σ} (h : p.Reaches s q t) (h' : q.Reaches t r u) :
    p.Reaches s r u := by
  induction h with
  | here => exact h'
  | look _ ih => exact .look (ih h')
  | keep _ ih => exact .keep (ih h')

theorem alone_eq (h : p.Reaches s q t) (held : Bool) : p.alone held s = q.alone held t := by
  induction h with
  | here => rfl
  | look _ ih => exact ih
  | keep _ ih => exact ih

theorem advance_eq (h : p.Reaches s q t) (address : Address) (floor : Floor σ) :
    p.advance address { floor with state := s } = q.advance address { floor with state := t } := by
  induction h with
  | here => rfl
  | look _ ih => exact ih
  | keep _ ih => exact ih

/-- What is alike with itself stays so on its way. -/
theorem alike {R : ι → σ → σ → Prop} {k : ι} (h : p.Reaches s q t) (same : Alike R k p s p s) :
    Alike R k q t q t := by
  induction h with
  | here => exact same
  | look _ ih =>
    cases same with
    | look same => exact ih same
  | keep _ ih =>
    cases same with
    | keep same => exact ih same

end Reaches

/-- Ends without waiting for anything, and leaves the lock alone. -/
def Prompt {α : Type} : Program ε σ α → Prop
  | .done _ => True
  | .escape _ => True
  | .look next => ∀ s, (next s).Prompt
  | .keep _ next => next.Prompt
  | .pause _ => False
  | .acquire _ => False
  | .release _ => False
  | .fork .. => False

/-- Leaves the lock alone and has no parts. -/
def Solitary {α : Type} : Program ε σ α → Prop
  | .done _ => True
  | .escape _ => True
  | .look next => ∀ s, (next s).Solitary
  | .keep _ next => next.Solitary
  | .pause next => next.Solitary
  | .acquire _ => False
  | .release _ => False
  | .fork .. => False

/-- Has the lock, gives it back, and then ends promptly. -/
def Holding {α : Type} : Program ε σ α → Prop
  | .done _ => False
  | .escape _ => False
  | .look next => ∀ s, (next s).Holding
  | .keep _ next => next.Holding
  | .pause next => next.Holding
  | .acquire _ => False
  | .release next => next.Prompt
  | .fork .. => False

/-- Stands in front of the lock, or has ended. -/
inductive Standby {α : Type} : Program ε σ α → Prop
  | done (a : α) : Standby (.done a)
  | escape (e : ε) : Standby (.escape e)
  | acquire {next : Program ε σ α} (h : next.Holding) : Standby (.acquire next)

/-! ## Programs put together -/

theorem Prompt.bind {p : Program ε σ α} {f : α → Program ε σ β} (h : p.Prompt)
    (rest : ∀ a, (f a).Prompt) : (p.bind f).Prompt := by
  induction p with
  | done a => exact rest a
  | escape e => trivial
  | look next ih => exact fun s => ih s (h s) rest
  | keep s next ih => exact ih h rest
  | pause | acquire | release | fork => exact h.elim

theorem Solitary.bind {p : Program ε σ α} {f : α → Program ε σ β} (h : p.Solitary)
    (rest : ∀ a, (f a).Solitary) : (p.bind f).Solitary := by
  induction p with
  | done a => exact rest a
  | escape e => trivial
  | look next ih => exact fun s => ih s (h s) rest
  | keep s next ih => exact ih h rest
  | pause next ih => exact ih h rest
  | acquire | release | fork => exact h.elim

theorem solitary_forEach {f : β → Program ε σ α} (h : ∀ b, (f b).Solitary) (bs : List β) :
    (forEach f bs).Solitary := by
  induction bs with
  | nil => trivial
  | cons b bs ih => exact (h b).bind fun _ => ih.bind fun _ => trivial

theorem Holding.bind {p : Program ε σ α} {f : α → Program ε σ β} (h : p.Holding)
    (rest : ∀ a, (f a).Prompt) : (p.bind f).Holding := by
  induction p with
  | look next ih => exact fun s => ih s (h s) rest
  | keep s next ih => exact ih h rest
  | pause next ih => exact ih h rest
  | release next => exact Prompt.bind h rest
  | done | escape | acquire | fork => exact h.elim

theorem Prompt.andFinally {p : Program ε σ α} {cleanup : Program ε σ Unit} (h : p.Prompt)
    (cleans : cleanup.Prompt) : (p.andFinally cleanup).Prompt := by
  induction p with
  | done a => exact cleans.bind fun _ => trivial
  | escape e => exact cleans.bind fun _ => trivial
  | look next ih => exact fun s => ih s (h s)
  | keep s next ih => exact ih h
  | pause | acquire | release | fork => exact h.elim

theorem Holding.andFinally {p : Program ε σ α} {cleanup : Program ε σ Unit} (h : p.Holding)
    (cleans : cleanup.Prompt) : (p.andFinally cleanup).Holding := by
  induction p with
  | look next ih => exact fun s => ih s (h s)
  | keep s next ih => exact ih h
  | pause next ih => exact ih h
  | release next => exact Prompt.andFinally h cleans
  | done | escape | acquire | fork => exact h.elim

/-- A program that leaves the lock alone gives it back at its end, however it ends. -/
theorem Solitary.holding {p : Program ε σ α} (h : p.Solitary) :
    (p.andFinally giveBack).Holding := by
  induction p with
  | done a => trivial
  | escape e => trivial
  | look next ih => exact fun s => ih s (h s)
  | keep s next ih => exact ih h
  | pause next ih => exact ih h
  | acquire | release | fork => exact h.elim

/-! ## Turns -/

/-- A program that has the lock comes to a pause, or gives the lock back. -/
theorem Holding.reaches {p : Program ε σ α} (h : p.Holding) (s : σ) :
    (∃ next t, p.Reaches s (.pause next) t ∧ next.Holding) ∨
      ∃ next t, p.Reaches s (.release next) t ∧ next.Prompt := by
  induction p generalizing s with
  | look next ih =>
    obtain ⟨q, t, way, q_holding⟩ | ⟨q, t, way, q_prompt⟩ := ih s (h s) s
    · exact .inl ⟨q, t, .look way, q_holding⟩
    · exact .inr ⟨q, t, .look way, q_prompt⟩
  | keep s' next ih =>
    obtain ⟨q, t, way, q_holding⟩ | ⟨q, t, way, q_prompt⟩ := ih h s'
    · exact .inl ⟨q, t, .keep way, q_holding⟩
    · exact .inr ⟨q, t, .keep way, q_prompt⟩
  | pause next => exact .inl ⟨next, s, .here _ s, h⟩
  | release next => exact .inr ⟨next, s, .here _ s, h⟩
  | done | escape | acquire | fork => exact h.elim

/-- A prompt program ends in its turn as it does alone. -/
theorem Prompt.advance_eq {p : Program ε σ α} (h : p.Prompt) (held : Bool) (address : Address)
    (floor : Floor σ) :
    p.advance address floor =
      (.ended (p.alone held floor.state).1,
        ({ floor with state := (p.alone held floor.state).2.2 } : Floor σ).leave address) := by
  induction p generalizing floor with
  | done a => rfl
  | escape e => rfl
  | look next ih => exact ih floor.state (h floor.state) floor
  | keep s next ih => exact ih h { floor with state := s }
  | pause | acquire | release | fork => exact h.elim

theorem Prompt.alone_ne_stuck {p : Program ε σ α} (h : p.Prompt) (held : Bool) (s : σ) :
    (p.alone held s).1 ≠ .stuck := by
  induction p generalizing s with
  | done a => nofun
  | escape e => nofun
  | look next ih => exact ih s (h s) s
  | keep t next ih => exact ih h t
  | pause | acquire | release | fork => exact h.elim

theorem Holding.alone_ne_stuck {p : Program ε σ α} (h : p.Holding) (s : σ) :
    (p.alone true s).1 ≠ .stuck := by
  induction p generalizing s with
  | look next ih => exact ih s (h s) s
  | keep t next ih => exact ih h t
  | pause next ih => exact ih h s
  | release next => exact Prompt.alone_ne_stuck h false s
  | done | escape | acquire | fork => exact h.elim

theorem Standby.alone_ne_stuck {p : Program ε σ α} (h : p.Standby) (s : σ) :
    (p.alone false s).1 ≠ .stuck := by
  cases h with
  | done a => nofun
  | escape e => nofun
  | acquire h => exact h.alone_ne_stuck s

end GatedConsole.Program
