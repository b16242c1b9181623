import GatedConsole.Task.Program

/-!
Two programs that do the same, each from a state of its own. What they look at may differ; their
moves, their endings and how their states are related may not. The way in which the states are
related may change while the programs are suspended, and at no other time. Main statement: programs
that do the same end alike when each of them runs alone.
-/

set_option autoImplicit false
set_option relaxedAutoImplicit false

namespace GatedConsole.Program

variable {ε σ τ α β ι : Type}

/-- From states that are related in the way `k` the programs make the same moves and end alike. The
relation holds wherever they may be suspended and where they end; when they go on, their states may
be related in any of the ways. -/
inductive Alike (R : ι → σ → τ → Prop) :
    {α : Type} → ι → Program ε σ α → σ → Program ε τ α → τ → Prop
  | done {α : Type} {k : ι} (a : α) {s : σ} {t : τ} (now : R k s t) :
      Alike R k (.done a) s (.done a) t
  | escape {α : Type} {k : ι} (e : ε) {s : σ} {t : τ} (now : R k s t) :
      Alike R k (.escape e : Program ε σ α) s (.escape e) t
  | look {α : Type} {k : ι} {next : σ → Program ε σ α} {next' : τ → Program ε τ α} {s : σ} {t : τ}
      (h : Alike R k (next s) s (next' t) t) : Alike R k (.look next) s (.look next') t
  | keep {α : Type} {k : ι} {next : Program ε σ α} {next' : Program ε τ α} {s s' : σ} {t t' : τ}
      (h : Alike R k next s' next' t') : Alike R k (.keep s' next) s (.keep t' next') t
  | pause {α : Type} {k : ι} {next : Program ε σ α} {next' : Program ε τ α} {s : σ} {t : τ}
      (now : R k s t) (later : ∀ k s t, R k s t → Alike R k next s next' t) :
      Alike R k (.pause next) s (.pause next') t
  | acquire {α : Type} {k : ι} {next : Program ε σ α} {next' : Program ε τ α} {s : σ} {t : τ}
      (now : R k s t) (later : ∀ k s t, R k s t → Alike R k next s next' t) :
      Alike R k (.acquire next) s (.acquire next') t
  | release {α : Type} {k : ι} {next : Program ε σ α} {next' : Program ε τ α} {s : σ} {t : τ}
      (h : Alike R k next s next' t) : Alike R k (.release next) s (.release next') t

namespace Alike

variable {R : ι → σ → τ → Prop} {k : ι}

theorem bind {p : Program ε σ α} {q : Program ε τ α} {s : σ} {t : τ} (h : Alike R k p s q t)
    {f : α → Program ε σ β} {g : α → Program ε τ β}
    (rest : ∀ a k s t, R k s t → Alike R k (f a) s (g a) t) :
    Alike R k (p.bind f) s (q.bind g) t := by
  induction h with
  | done a now => exact rest a _ _ _ now
  | escape e now => exact .escape e now
  | look _ ih => exact .look ih
  | keep _ ih => exact .keep ih
  | pause now _ ih => exact .pause now ih
  | acquire now _ ih => exact .acquire now ih
  | release _ ih => exact .release ih

theorem map {p : Program ε σ α} {q : Program ε τ α} {s : σ} {t : τ} (f : α → β)
    (h : Alike R k p s q t) : Alike R k (f <$> p) s (f <$> q) t :=
  h.bind fun a _ _ _ now => .done (f a) now

theorem andFinally {p : Program ε σ α} {q : Program ε τ α} {s : σ} {t : τ}
    (h : Alike R k p s q t) {cleanup : Program ε σ Unit} {cleanup' : Program ε τ Unit}
    (cleans : ∀ k s t, R k s t → Alike R k cleanup s cleanup' t) :
    Alike R k (p.andFinally cleanup) s (q.andFinally cleanup') t := by
  induction h with
  | done a now => exact (cleans _ _ _ now).bind fun _ _ _ _ now => .done a now
  | escape e now => exact (cleans _ _ _ now).bind fun _ _ _ _ now => .escape e now
  | look _ ih => exact .look ih
  | keep _ ih => exact .keep ih
  | pause now _ ih => exact .pause now ih
  | acquire now _ ih => exact .acquire now ih
  | release _ ih => exact .release ih

theorem forEach {f : β → Program ε σ α} {g : β → Program ε τ α}
    (h : ∀ b k s t, R k s t → Alike R k (f b) s (g b) t) (bs : List β) {s : σ} {t : τ}
    (now : R k s t) : Alike R k (Program.forEach f bs) s (Program.forEach g bs) t := by
  induction bs generalizing k s t with
  | nil => exact .done [] now
  | cons b bs ih =>
    refine (h b k s t now).bind fun a _ _ _ now => ?_
    exact (ih now).bind fun as _ _ _ now => .done (a :: as) now

/-- Moves that answer the same and lead to related states. -/
theorem act {f : σ → α × σ} {g : τ → α × τ} {s : σ} {t : τ} (same : (f s).1 = (g t).1)
    (now : R k (f s).2 (g t).2) :
    Alike R k (Program.act f : Program ε σ α) s (Program.act g) t := by
  refine .look (.keep ?_)
  rw [same]
  exact .done _ now

theorem update {f : σ → σ} {g : τ → τ} {s : σ} {t : τ} (now : R k (f s) (g t)) :
    Alike R k (Program.update f : Program ε σ Unit) s (Program.update g) t :=
  .look (.keep (.done () now))

theorem giveBack {s : σ} {t : τ} (now : R k s t) :
    Alike R k (Program.giveBack : Program ε σ Unit) s Program.giveBack t :=
  .release (.done () now)

/-- Programs that do the same end alike, each of them alone. -/
theorem alone {p : Program ε σ α} {q : Program ε τ α} {s : σ} {t : τ} (h : Alike R k p s q t)
    (held : Bool) :
    (p.alone held s).1 = (q.alone held t).1 ∧ R k (p.alone held s).2.2 (q.alone held t).2.2 := by
  induction h generalizing held with
  | done a now => exact ⟨rfl, now⟩
  | escape e now => exact ⟨rfl, now⟩
  | look _ ih => exact ih held
  | keep _ ih => exact ih held
  | pause now _ ih => exact ih _ _ _ now held
  | acquire now _ ih =>
    cases held with
    | true => exact ⟨rfl, now⟩
    | false => exact ih _ _ _ now true
  | release _ ih => exact ih false

end Alike

end GatedConsole.Program
