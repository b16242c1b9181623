import GatedConsole.Task.Program

/-!
What a program brings about, whatever comes between its moves. An invariant has to hold wherever a
program may be suspended or breaks off, and may be relied on when it goes on. Main statements: what
all changes of a program have in common, and the invariants that it keeps, go on from its parts to
compositions.
-/

set_option autoImplicit false
set_option relaxedAutoImplicit false

namespace GatedConsole

variable {ε σ α β : Type} {I : σ → Prop}

namespace Program

/-- From the given state the program ends with `Q`, and `I` holds at every suspension, if all that
happens while it is suspended keeps `I`. -/
def Ensures (I : σ → Prop) {α : Type} : Program ε σ α → (α → σ → Prop) → σ → Prop
  | .done a, Q, s => Q a s
  | .escape _, _, s => I s
  | .look next, Q, s => (next s).Ensures I Q s
  | .keep s next, Q, _ => next.Ensures I Q s
  | .pause next, Q, s => I s ∧ ∀ t, I t → next.Ensures I Q t
  | .acquire next, Q, s => I s ∧ ∀ t, I t → next.Ensures I Q t
  | .release next, Q, s => next.Ensures I Q s
  | .fork _ part next, Q, s =>
    I s ∧ (∀ i t, I t → (part i).Ensures I (fun _ => I) t) ∧
      ∀ endings t, I t → (next endings).Ensures I Q t

/-- Every change that the program makes, beginning from the given state, is one of `G`. -/
def Only (G : σ → σ → Prop) {α : Type} : Program ε σ α → σ → Prop
  | .done _, _ => True
  | .escape _, _ => True
  | .look next, s => (next s).Only G s
  | .keep t next, s => G s t ∧ next.Only G t
  | .pause next, _ => ∀ t, next.Only G t
  | .acquire next, _ => ∀ t, next.Only G t
  | .release next, s => next.Only G s
  | .fork _ part next, _ => (∀ i t, (part i).Only G t) ∧ ∀ endings t, (next endings).Only G t

/-- Run from any state with `I`, the program keeps `I`. -/
def Steady (I : σ → Prop) (p : Program ε σ α) : Prop := ∀ s, I s → p.Ensures I (fun _ => I) s

theorem ensures_mono {Q R : α → σ → Prop} (weaker : ∀ a s, Q a s → R a s)
    {p : Program ε σ α} {s : σ} (h : p.Ensures I Q s) : p.Ensures I R s := by
  induction p generalizing s with
  | done a => exact weaker a s h
  | escape e => exact h
  | look next ih => exact ih s weaker h
  | keep t next ih => exact ih weaker h
  | pause next ih => exact ⟨h.1, fun t ht => ih weaker (h.2 t ht)⟩
  | acquire next ih => exact ⟨h.1, fun t ht => ih weaker (h.2 t ht)⟩
  | release next ih => exact ih weaker h
  | fork count part next _ ih =>
    obtain ⟨now, parts, rest⟩ := h
    exact ⟨now, parts, fun endings t ht => ih endings weaker (rest endings t ht)⟩

theorem only_mono {G H : σ → σ → Prop} (weaker : ∀ s t, G s t → H s t) {p : Program ε σ α} {s : σ}
    (h : p.Only G s) : p.Only H s := by
  induction p generalizing s with
  | done a => trivial
  | escape e => trivial
  | look next ih => exact ih s h
  | keep t next ih => exact ⟨weaker s t h.1, ih h.2⟩
  | pause next ih => exact fun t => ih (h t)
  | acquire next ih => exact fun t => ih (h t)
  | release next ih => exact ih h
  | fork count part next ihp ih =>
    exact ⟨fun i t => ihp i (h.1 i t), fun endings t => ih endings (h.2 endings t)⟩

theorem only_and {G H : σ → σ → Prop} {p : Program ε σ α} {s : σ} (h : p.Only G s)
    (h' : p.Only H s) : p.Only (fun s t => G s t ∧ H s t) s := by
  induction p generalizing s with
  | done a => trivial
  | escape e => trivial
  | look next ih => exact ih s h h'
  | keep t next ih => exact ⟨⟨h.1, h'.1⟩, ih h.2 h'.2⟩
  | pause next ih => exact fun t => ih (h t) (h' t)
  | acquire next ih => exact fun t => ih (h t) (h' t)
  | release next ih => exact ih h h'
  | fork count part next ihp ih =>
    exact ⟨fun i t => ihp i (h.1 i t) (h'.1 i t),
      fun endings t => ih endings (h.2 endings t) (h'.2 endings t)⟩

theorem only_bind {G : σ → σ → Prop} {p : Program ε σ α} {f : α → Program ε σ β} {s : σ}
    (h : p.Only G s) (rest : ∀ a t, (f a).Only G t) : (p.bind f).Only G s := by
  induction p generalizing s with
  | done a => exact rest a s
  | escape e => trivial
  | look next ih => exact ih s h rest
  | keep t next ih => exact ⟨h.1, ih h.2 rest⟩
  | pause next ih => exact fun t => ih (h t) rest
  | acquire next ih => exact fun t => ih (h t) rest
  | release next ih => exact ih h rest
  | fork count part next _ ih =>
    exact ⟨h.1, fun endings t => ih endings (h.2 endings t) rest⟩

theorem only_andFinally {G : σ → σ → Prop} {p : Program ε σ α} {cleanup : Program ε σ Unit} {s : σ}
    (h : p.Only G s) (cleans : ∀ t, cleanup.Only G t) : (p.andFinally cleanup).Only G s := by
  induction p generalizing s with
  | done a => exact only_bind (cleans s) fun _ _ => trivial
  | escape e => exact only_bind (cleans s) fun _ _ => trivial
  | look next ih => exact ih s h
  | keep t next ih => exact ⟨h.1, ih h.2⟩
  | pause next ih => exact fun t => ih (h t)
  | acquire next ih => exact fun t => ih (h t)
  | release next ih => exact ih h
  | fork count part next _ ih => exact ⟨h.1, fun endings t => ih endings (h.2 endings t)⟩

theorem ensures_bind (p : Program ε σ α) (f : α → Program ε σ β) (Q : β → σ → Prop) (s : σ) :
    (p.bind f).Ensures I Q s ↔ p.Ensures I (fun a t => (f a).Ensures I Q t) s := by
  induction p generalizing s with
  | done a => rfl
  | escape e => rfl
  | look next ih => exact ih s f s
  | keep t next ih => exact ih f t
  | pause next ih => simp only [bind, Ensures, ih]
  | acquire next ih => simp only [bind, Ensures, ih]
  | release next ih => exact ih f s
  | fork count part next _ ih => simp only [bind, Ensures, ih]

/-- A program all of whose changes keep the invariant keeps it. -/
theorem ensures_of_only {G : σ → σ → Prop} (stable : ∀ s t, G s t → I s → I t)
    {p : Program ε σ α} {s : σ} (h : p.Only G s) (now : I s) : p.Ensures I (fun _ => I) s := by
  induction p generalizing s with
  | done a => exact now
  | escape e => exact now
  | look next ih => exact ih s h now
  | keep t next ih => exact ih h.2 (stable s t h.1 now)
  | pause next ih => exact ⟨now, fun t now => ih (h t) now⟩
  | acquire next ih => exact ⟨now, fun t now => ih (h t) now⟩
  | release next ih => exact ih h now
  | fork count part next ihp ih =>
    exact ⟨now, fun i t now => ihp i (h.1 i t) now,
      fun endings t now => ih endings (h.2 endings t) now⟩

theorem ensures_andFinally (p : Program ε σ α) (cleanup : Program ε σ Unit) {s : σ}
    (cleans : cleanup.Steady I) (h : p.Ensures I (fun _ => I) s) :
    (p.andFinally cleanup).Ensures I (fun _ => I) s := by
  induction p generalizing s with
  | done a => exact (ensures_bind cleanup _ _ s).2 (cleans s h)
  | escape e => exact (ensures_bind cleanup _ _ s).2 (cleans s h)
  | look next ih => exact ih s h
  | keep t next ih => exact ih h
  | pause next ih => exact ⟨h.1, fun t ht => ih (h.2 t ht)⟩
  | acquire next ih => exact ⟨h.1, fun t ht => ih (h.2 t ht)⟩
  | release next ih => exact ih h
  | fork count part next _ ih =>
    obtain ⟨now, parts, rest⟩ := h
    exact ⟨now, parts, fun endings t ht => ih endings (rest endings t ht)⟩

/-- Giving the lock back changes neither the end nor what holds there. -/
theorem ensures_andFinally_giveBack (p : Program ε σ α) (Q : α → σ → Prop) (s : σ) :
    (p.andFinally giveBack).Ensures I Q s ↔ p.Ensures I Q s := by
  induction p generalizing s with
  | done a => rfl
  | escape e => rfl
  | look next ih => exact ih s Q s
  | keep t next ih => exact ih Q t
  | pause next ih => simp only [andFinally, Ensures, ih]
  | acquire next ih => simp only [andFinally, Ensures, ih]
  | release next ih => exact ih Q s
  | fork count part next _ ih => simp only [andFinally, Ensures, ih]

/-- What each program ends with fits what it has been begun for. -/
theorem ensures_forEach {f : β → Program ε σ α} {P : β → α → Prop} {bs : List β}
    (h : ∀ b ∈ bs, ∀ s, I s → (f b).Ensures I (fun a t => I t ∧ P b a) s) {s : σ} (now : I s) :
    (forEach f bs).Ensures I (fun as t => I t ∧ ∀ pair ∈ bs.zip as, P pair.1 pair.2) s := by
  induction bs generalizing s with
  | nil => exact ⟨now, nofun⟩
  | cons b bs ih =>
    have others := fun b' mem => h b' (List.mem_cons_of_mem b mem)
    refine (ensures_bind (f b) _ _ s).2 (ensures_mono ?_ (h b List.mem_cons_self s now))
    rintro a t ⟨now, first⟩
    refine (ensures_bind (forEach f bs) _ _ t).2 (ensures_mono ?_ (ih others now))
    rintro as u ⟨now, rest⟩
    refine ⟨now, fun pair mem => ?_⟩
    obtain rfl | mem := List.mem_cons.1 mem
    · exact first
    · exact rest pair mem

theorem steady_done (a : α) : (Program.done (ε := ε) a).Steady I := fun _ h => h

theorem steady_bind {p : Program ε σ α} {f : α → Program ε σ β} (first : p.Steady I)
    (second : ∀ a, (f a).Steady I) : (p.bind f).Steady I := by
  intro s h
  rw [ensures_bind]
  exact ensures_mono (fun a t => second a t) (first s h)

theorem steady_map {p : Program ε σ α} (f : α → β) (h : p.Steady I) : (f <$> p).Steady I :=
  steady_bind h fun a => steady_done (f a)

theorem steady_andFinally {p : Program ε σ α} {cleanup : Program ε σ Unit} (h : p.Steady I)
    (cleans : cleanup.Steady I) : (p.andFinally cleanup).Steady I :=
  fun s now => ensures_andFinally p cleanup cleans (h s now)

theorem steady_forEach {f : β → Program ε σ α} (h : ∀ b, (f b).Steady I) (bs : List β) :
    (forEach f bs).Steady I := by
  induction bs with
  | nil => exact steady_done []
  | cons b bs ih => exact steady_bind (h b) fun a => steady_bind ih fun as => steady_done (a :: as)

theorem steady_take : (take : Program ε σ Unit).Steady I := fun _ h => ⟨h, fun _ h => h⟩

theorem steady_giveBack : (giveBack : Program ε σ Unit).Steady I := fun _ h => h

end Program

end GatedConsole
