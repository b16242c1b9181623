import GatedConsole.Proofs.Task.Ensures
import GatedConsole.Task.Loop
import Mathlib.Algebra.BigOperators.Fin
import Mathlib.Algebra.BigOperators.Group.Finset.Piecewise
import Mathlib.Algebra.Group.PUnit
import Mathlib.Algebra.Order.Group.Multiset

/-!
Programs that hold tokens. What a program knows of the state while it is suspended, it knows from
the tokens that it holds: the others keep an invariant of the state and of all tokens, and they
cannot give away what they do not hold. Main statements: an invariant of tokens and state, kept by
every part with the tokens that it holds itself, holds when the loop has come to rest, and what the
program holds at its end it still holds then; so does an invariant of the state alone, for which no
tokens are needed.
-/

set_option autoImplicit false
set_option relaxedAutoImplicit false

namespace GatedConsole

variable {ε σ α β μ : Type} [AddCommMonoid μ] {J : μ → σ → Prop}

/-- The end of a program with a cleanup behind it. -/
def Ending.behind (e : Ending ε α) : Ending ε Unit → Ending ε α
  | .done _ => e
  | .escaped cause => .escaped cause
  | .stuck => .stuck

/-- How a program has ended fits what it ensures. -/
def Ending.Fits (I : σ → Prop) (Q : α → σ → Prop) : Ending ε α → σ → Prop
  | .done a, s => Q a s
  | .escaped _, s => I s
  | .stuck, s => I s

theorem Ending.Fits.of_steady {I : σ → Prop} {e : Ending ε α} {s : σ}
    (h : e.Fits I (fun _ => I) s) : I s := by
  cases e <;> exact h

theorem Ending.Fits.and_of_done {I : σ → Prop} {P : α → Prop} {e : Ending ε α} {s : σ}
    (h : e.Fits I (fun a s => I s ∧ P a) s) : I s ∧ ∀ a, e = .done a → P a := by
  cases e with
  | done a => exact ⟨h.1, fun _ same => Ending.done.inj same ▸ h.2⟩
  | escaped | stuck => exact ⟨h, nofun⟩

/-! ## Programs -/

namespace Program

/-- With its own tokens, from the given state, while all others hold `others`, the program changes
state and tokens and ends with `Q`. At every suspension `J` holds of all tokens and the state, if
all that happens then keeps `J`. Parts begin without tokens. -/
def Holds (J : μ → σ → Prop) {α : Type} :
    Program ε σ α → (Ending ε α → μ → σ → μ → Prop) → μ → σ → μ → Prop
  | .done a, Q, own, s, others => Q (.done a) own s others
  | .escape e, Q, own, s, others => Q (.escaped e) own s others
  | .look next, Q, own, s, others => (next s).Holds J Q own s others
  | .keep t next, Q, _, _, others => ∃ own, next.Holds J Q own t others
  | .pause next, Q, own, s, others =>
    J (own + others) s ∧ ∀ t others, J (own + others) t → next.Holds J Q own t others
  | .acquire next, Q, own, s, others =>
    J (own + others) s ∧ ∀ t others, J (own + others) t → next.Holds J Q own t others
  | .release next, Q, own, s, others => next.Holds J Q own s others
  | .fork _ part next, Q, own, s, others =>
    J (own + others) s ∧
      (∀ i t others, J (0 + others) t →
        (part i).Holds J (fun _ own t others => J (own + others) t) 0 t others) ∧
      ∀ endings t others, J (own + others) t → (next endings).Holds J Q own t others

/-- However it ends, whatever it holds then, `J` holds. -/
abbrev AnyEnd (J : μ → σ → Prop) {α : Type} : Ending ε α → μ → σ → μ → Prop :=
  fun _ own s others => J (own + others) s

/-- At the end `J` holds, and how it ended fits the tokens that it holds then. -/
def EndsIn (J : μ → σ → Prop) (R : Ending ε α → μ → Prop) : Ending ε α → μ → σ → μ → Prop :=
  fun e own s others => R e own ∧ J (own + others) s

/-- At the end `J` holds, and it still holds what it held. -/
abbrev Kept (J : μ → σ → Prop) (kept : μ) : Ending ε α → μ → σ → μ → Prop :=
  EndsIn J fun _ own => own = kept

/-- Begun without tokens in any state with `J`, the program keeps `J`. -/
def Lawful (J : μ → σ → Prop) (p : Program ε σ α) : Prop :=
  ∀ s others, J (0 + others) s → p.Holds J (AnyEnd J) 0 s others

theorem holds_bind {f : α → Program ε σ β} {Q : Ending ε β → μ → σ → μ → Prop}
    {R : Ending ε α → μ → σ → μ → Prop} {p : Program ε σ α} {own others : μ} {s : σ}
    (h : p.Holds J R own s others)
    (goes_on : ∀ a own s others, R (.done a) own s others → (f a).Holds J Q own s others)
    (breaks : ∀ e own s others, R (.escaped e) own s others → Q (.escaped e) own s others) :
    (p.bind f).Holds J Q own s others := by
  induction p generalizing own s others with
  | done a => exact goes_on a own s others h
  | escape e => exact breaks e own s others h
  | look next ih => exact ih s h goes_on breaks
  | keep t next ih =>
    obtain ⟨own', h⟩ := h
    exact ⟨own', ih h goes_on breaks⟩
  | pause next ih => exact ⟨h.1, fun t others now => ih (h.2 t others now) goes_on breaks⟩
  | acquire next ih => exact ⟨h.1, fun t others now => ih (h.2 t others now) goes_on breaks⟩
  | release next ih => exact ih h goes_on breaks
  | fork count part next _ ih =>
    obtain ⟨now, parts, rest⟩ := h
    exact ⟨now, parts, fun endings t others now =>
      ih endings (rest endings t others now) goes_on breaks⟩

theorem holds_read {f : σ → Program ε σ α} {Q : Ending ε α → μ → σ → μ → Prop} {own others : μ}
    {s : σ} : (Program.read >>= f).Holds J Q own s others ↔ (f s).Holds J Q own s others :=
  Iff.rfl

theorem holds_mono {Q R : Ending ε α → μ → σ → μ → Prop} {p : Program ε σ α} {own others : μ}
    {s : σ} (h : p.Holds J R own s others)
    (weaker : ∀ e own s others, R e own s others → Q e own s others) :
    p.Holds J Q own s others := by
  rw [← bind_done p]
  exact holds_bind h (fun _ _ _ _ ends => weaker _ _ _ _ ends) fun _ _ _ _ ends =>
    weaker _ _ _ _ ends

theorem holds_map {p : Program ε σ α} {own others : μ} {s : σ} (f : α → β)
    (h : p.Holds J (AnyEnd J) own s others) : (f <$> p).Holds J (AnyEnd J) own s others :=
  holds_bind h (fun _ _ _ _ now => now) fun _ _ _ _ now => now

theorem holds_andFinally {cleanup : Program ε σ Unit} {Q R : Ending ε α → μ → σ → μ → Prop}
    {p : Program ε σ α} {own others : μ} {s : σ} (h : p.Holds J R own s others)
    (cleans : ∀ e own s others, R e own s others →
      cleanup.Holds J (fun e' => Q (e.behind e')) own s others) :
    (p.andFinally cleanup).Holds J Q own s others := by
  induction p generalizing own s others with
  | done a =>
    exact holds_bind (cleans _ own s others h) (fun _ _ _ _ now => now) fun _ _ _ _ now => now
  | escape e =>
    exact holds_bind (cleans _ own s others h) (fun _ _ _ _ now => now) fun _ _ _ _ now => now
  | look next ih => exact ih s h cleans
  | keep t next ih =>
    obtain ⟨own', h⟩ := h
    exact ⟨own', ih h cleans⟩
  | pause next ih => exact ⟨h.1, fun t others now => ih (h.2 t others now) cleans⟩
  | acquire next ih => exact ⟨h.1, fun t others now => ih (h.2 t others now) cleans⟩
  | release next ih => exact ih h cleans
  | fork count part next _ ih =>
    obtain ⟨now, parts, rest⟩ := h
    exact ⟨now, parts, fun endings t others now => ih endings (rest endings t others now) cleans⟩

/-- A program all of whose changes keep `J`, whoever holds which tokens, keeps its own ones. -/
theorem holds_of_only {G : σ → σ → Prop} (stable : ∀ m s t, G s t → J m s → J m t)
    {p : Program ε σ α} {own others : μ} {s : σ} (h : p.Only G s) (now : J (own + others) s) :
    p.Holds J (Kept J own) own s others := by
  induction p generalizing own others s with
  | done a => exact ⟨rfl, now⟩
  | escape e => exact ⟨rfl, now⟩
  | look next ih => exact ih s h now
  | keep t next ih => exact ⟨own, ih h.2 (stable _ s t h.1 now)⟩
  | pause next ih => exact ⟨now, fun t others now => ih (h t) now⟩
  | acquire next ih => exact ⟨now, fun t others now => ih (h t) now⟩
  | release next ih => exact ih h now
  | fork count part next ihp ih =>
    refine ⟨now, ?_, fun endings t others now => ih endings (h.2 endings t) now⟩
    intro i t others now
    exact holds_mono (ihp i (h.1 i t) now) fun _ _ _ _ kept => kept.2

/-- For an invariant of the state it makes no difference who holds which tokens. -/
theorem holds_of_ensures {I : σ → Prop} {Q : α → σ → Prop} {p : Program ε σ α} {s : σ}
    (h : p.Ensures I Q s) (own others : μ) :
    p.Holds (fun _ => I) (fun e _ s _ => e.Fits I Q s) own s others := by
  induction p generalizing s own others with
  | done a => exact h
  | escape e => exact h
  | look next ih => exact ih s h own others
  | keep t next ih => exact ⟨own, ih h own others⟩
  | pause next ih => exact ⟨h.1, fun t others now => ih (h.2 t now) own others⟩
  | acquire next ih => exact ⟨h.1, fun t others now => ih (h.2 t now) own others⟩
  | release next ih => exact ih h own others
  | fork count part next ihp ih =>
    obtain ⟨now, parts, rest⟩ := h
    refine ⟨now, fun i t others now => ?_, fun endings t others now =>
      ih endings (rest endings t now) own others⟩
    exact holds_mono (ihp i (parts i t now) 0 others) fun _ _ _ _ fits => fits.of_steady

/-- What a program ensures of the state holds beside what it does with tokens. -/
theorem holds_and_ensures {I : σ → Prop} {Q : α → σ → Prop}
    {R : Ending ε α → μ → σ → μ → Prop} {p : Program ε σ α} {own others : μ} {s : σ}
    (h : p.Holds J R own s others) (h' : p.Ensures I Q s) :
    p.Holds (fun m s => J m s ∧ I s) (fun e own s others => R e own s others ∧ e.Fits I Q s)
      own s others := by
  induction p generalizing s own others with
  | done a => exact ⟨h, h'⟩
  | escape e => exact ⟨h, h'⟩
  | look next ih => exact ih s h h'
  | keep t next ih =>
    obtain ⟨own', h⟩ := h
    exact ⟨own', ih h h'⟩
  | pause next ih =>
    exact ⟨⟨h.1, h'.1⟩, fun t others now => ih (h.2 t others now.1) (h'.2 t now.2)⟩
  | acquire next ih =>
    exact ⟨⟨h.1, h'.1⟩, fun t others now => ih (h.2 t others now.1) (h'.2 t now.2)⟩
  | release next ih => exact ih h h'
  | fork count part next ihp ih =>
    obtain ⟨now, parts, rest⟩ := h
    obtain ⟨now', parts', rest'⟩ := h'
    refine ⟨⟨now, now'⟩, fun i t others now => ?_, fun endings t others now =>
      ih endings (rest endings t others now.1) (rest' endings t now.2)⟩
    exact holds_mono (ihp i (parts i t others now.1) (parts' i t now.2))
      fun _ _ _ _ both => ⟨both.1, both.2.of_steady⟩

/-- A program that holds further tokens leaves them alone. -/
theorem holds_frame {Q : Ending ε α → μ → σ → μ → Prop} {p : Program ε σ α}
    {own kept others : μ} {s : σ} (h : p.Holds J Q own s (kept + others)) :
    p.Holds J (fun e own s others => ∃ own', own = own' + kept ∧ Q e own' s (kept + others))
      (own + kept) s others := by
  induction p generalizing own others s with
  | done a => exact ⟨own, rfl, h⟩
  | escape e => exact ⟨own, rfl, h⟩
  | look next ih => exact ih s h
  | keep t next ih =>
    obtain ⟨own', h⟩ := h
    exact ⟨own' + kept, ih h⟩
  | pause next ih =>
    rw [Holds, add_assoc]
    exact ⟨h.1, fun t others now => ih (h.2 t _ (by rwa [add_assoc] at now))⟩
  | acquire next ih =>
    rw [Holds, add_assoc]
    exact ⟨h.1, fun t others now => ih (h.2 t _ (by rwa [add_assoc] at now))⟩
  | release next ih => exact ih h
  | fork count part next _ ih =>
    obtain ⟨now, parts, rest⟩ := h
    rw [Holds, add_assoc]
    exact ⟨now, parts, fun endings t others now =>
      ih endings (rest endings t _ (by rwa [add_assoc] at now))⟩

theorem lawful_bind {p : Program ε σ α} {f : α → Program ε σ β} (first : p.Lawful J)
    (second : ∀ a, (f a).Lawful J) : (p.bind f).Lawful J := by
  intro s others now
  refine holds_bind (first s others now) ?_ fun _ _ _ _ now => now
  intro a own s others now
  have alone : (f a).Holds J (AnyEnd J) 0 s (own + others) :=
    second a s (own + others) (by rwa [zero_add])
  have beside := holds_frame alone
  rw [zero_add] at beside
  refine holds_mono beside ?_
  rintro _ _ s others ⟨own', rfl, now⟩
  rwa [AnyEnd, add_assoc]

theorem lawful_map {p : Program ε σ α} (f : α → β) (h : p.Lawful J) : (f <$> p).Lawful J :=
  fun s others now => holds_map f (h s others now)

theorem lawful_of_steady {I : σ → Prop} {p : Program ε σ α} (h : p.Steady I) :
    p.Lawful fun _ : μ => I :=
  fun s others now => holds_mono (holds_of_ensures (h s now) 0 others) fun _ _ _ _ fits =>
    fits.of_steady

end Program

/-! ## One token -/

section Single

variable {κ : Type} {P : κ → σ → Prop} {k : κ} {others tokens : Multiset κ} {s t : σ}

/-- There is one token, and it is true of the state. Whoever holds it is the one to change that. -/
def Single (P : κ → σ → Prop) (tokens : Multiset κ) (s : σ) : Prop := ∃ k, tokens = {k} ∧ P k s

theorem Single.of_own (h : Single P ({k} + others) s) : P k s ∧ others = 0 := by
  obtain ⟨its, single, now⟩ := h
  have alone : others = 0 := by
    have count := congrArg Multiset.card single
    rw [Multiset.card_add, Multiset.card_singleton, Multiset.card_singleton] at count
    exact Multiset.card_eq_zero.1 (by omega)
  rw [alone, add_zero, Multiset.singleton_inj] at single
  exact ⟨single ▸ now, alone⟩

theorem single_of (h : P k s) : Single P ({k} + 0) s := ⟨k, add_zero _, h⟩

theorem Single.stable {G : σ → σ → Prop} (keeps : ∀ k s t, G s t → P k s → P k t) (change : G s t)
    (h : Single P tokens s) : Single P tokens t := by
  obtain ⟨k, single, now⟩ := h
  exact ⟨k, single, keeps k s t change now⟩

end Single

/-! ## One token for each number -/

section Numbered

variable {κ : Type} [DecidableEq κ] {state : Nat → Option κ} {id : Nat} {k : κ}

/-- The token of one number. -/
def tokenAt (id : Nat) (k : κ) : Nat → κ → Nat := fun i j => if i = id ∧ j = k then 1 else 0

/-- A token for each number that something is said of. -/
def tokensAt (state : Nat → Option κ) : Nat → κ → Nat := fun i j =>
  if state i = some j then 1 else 0

theorem tokensAt_update_of_none (free : state id = none) (k : κ) :
    tokensAt (Function.update state id (some k)) = tokenAt id k + tokensAt state := by
  funext i j
  rw [Pi.add_apply, Pi.add_apply, tokensAt, tokensAt, tokenAt]
  by_cases same : i = id
  · subst same
    simp [free, eq_comm]
  · simp [same]

/-- Whoever holds the token of a number knows what is said of it, and nobody else has a token of
that number. -/
theorem of_tokenAt_add {others : Nat → κ → Nat} (h : tokenAt id k + others = tokensAt state) :
    state id = some k ∧ ∀ j, others id j = 0 := by
  have at_each (j : κ) : tokenAt id k id j + others id j = tokensAt state id j :=
    congrFun (congrFun h id) j
  have here := at_each k
  have there : state id = some k := by
    by_contra elsewhere
    simp [tokenAt, tokensAt, elsewhere] at here
  refine ⟨there, fun j => ?_⟩
  have its := at_each j
  by_cases same : j = k
  · subst same
    simpa [tokenAt, tokensAt, there] using its
  · simpa [tokenAt, tokensAt, there, same, Ne.symm same] using its

/-- Whoever holds the token of a number can exchange it. -/
theorem tokensAt_update {others : Nat → κ → Nat} (h : tokenAt id k + others = tokensAt state)
    (next : Option κ) :
    tokensAt (Function.update state id next) = next.elim 0 (tokenAt id) + others := by
  obtain ⟨-, free⟩ := of_tokenAt_add h
  funext i j
  rw [Pi.add_apply, Pi.add_apply, tokensAt]
  by_cases same : i = id
  · subst same
    rw [Function.update_self, free j]
    cases next <;> simp [tokenAt, eq_comm]
  · have elsewhere : tokenAt id k i j + others i j = tokensAt state i j :=
      congrFun (congrFun h i) j
    rw [Function.update_of_ne same]
    rw [tokensAt] at elsewhere
    rw [← elsewhere]
    cases next <;> simp [tokenAt, same]

end Numbered

/-! ## Threads and the loop -/

namespace Thread

open Program

/-- The tokens cover what every program in the thread holds; there may be more of them, of programs
that nothing waits for any longer. How the thread ends fits what it holds then. -/
def Holds (J : μ → σ → Prop) {α : Type} (R : Ending ε α → μ → Prop) : Thread ε σ α → μ → Prop
  | .running p, m => ∃ own more, m = own + more ∧
      ∀ s others, J (own + others) s → p.Holds J (EndsIn J R) own s others
  | .joining count _ parts next, m =>
    ∃ (own more : μ) (given : Fin count → μ), m = own + more + ∑ i, given i ∧
      (∀ i, (parts i).Holds J (fun _ _ => True) (given i)) ∧
        ∀ endings s others, J (own + others) s → (next endings).Holds J (EndsIn J R) own s others
  | .ended e, m => ∃ own more, m = own + more ∧ R e own

variable {R : Ending ε α → μ → Prop}

theorem holds_ended {e : Ending ε α} {own : μ} (h : R e own) :
    (.ended e : Thread ε σ α).Holds J R own := ⟨own, 0, (add_zero own).symm, h⟩

theorem holds_add {t : Thread ε σ α} {m : μ} (h : t.Holds J R m) (more : μ) :
    t.Holds J R (m + more) := by
  cases t with
  | running p =>
    obtain ⟨own, rest, rfl, h⟩ := h
    exact ⟨own, rest + more, by ac_rfl, h⟩
  | joining count untold parts next =>
    obtain ⟨own, rest, given, rfl, each, h⟩ := h
    exact ⟨own, rest + more, given, by ac_rfl, each, h⟩
  | ended e =>
    obtain ⟨own, rest, rfl, h⟩ := h
    exact ⟨own, rest + more, by ac_rfl, h⟩

/-- A turn of a program: the thread that it leaves is covered by new tokens of its own. -/
theorem holds_advance {p : Program ε σ α} {own others : μ} {address : Address} (floor : Floor σ)
    (h : p.Holds J (EndsIn J R) own floor.state others) :
    ∃ m, (p.advance address floor).1.Holds J R m ∧
      J (m + others) (p.advance address floor).2.state := by
  induction p generalizing own floor with
  | done a =>
    refine ⟨own, holds_ended h.1, ?_⟩
    simp only [Program.advance, Floor.leave, Floor.queue]
    split <;> exact h.2
  | escape e =>
    refine ⟨own, holds_ended h.1, ?_⟩
    simp only [Program.advance, Floor.leave, Floor.queue]
    split <;> exact h.2
  | look next ih => exact ih floor.state floor h
  | keep t next ih =>
    obtain ⟨own', h⟩ := h
    exact ih { floor with state := t } h
  | pause next ih => exact ⟨own, ⟨own, 0, (add_zero own).symm, h.2⟩, h.1⟩
  | acquire next ih =>
    unfold Program.advance
    split
    · exact ⟨own, ⟨own, 0, (add_zero own).symm, h.2⟩, h.1⟩
    · exact ih { floor with held := true } (h.2 _ _ h.1)
  | release next ih =>
    unfold Program.advance
    split
    · exact ih { floor with held := false } h
    · exact ih (Floor.queue _ _) h
  | fork count part next _ ih =>
    obtain ⟨now, parts, rest⟩ := h
    unfold Program.advance
    split
    · exact ih [] floor (rest [] _ _ now)
    · have starts (i : Fin count) : Thread.Holds J (fun _ _ => True) (.running (part i)) 0 :=
        ⟨0, 0, (add_zero 0).symm, fun s others now =>
          holds_mono (parts i s others now) fun _ _ _ _ now => ⟨trivial, now⟩⟩
      exact ⟨own, ⟨own, 0, fun _ => 0, by simp, starts, rest⟩, now⟩

variable {t : Thread ε σ α} {m others : μ} {floor : Floor σ}

theorem holds_goOn (address : Address) (h : t.Holds J R m) (now : J (m + others) floor.state) :
    ∃ m, (t.goOn address floor).1.Holds J R m ∧ J (m + others) (t.goOn address floor).2.state := by
  unfold goOn
  split
  · obtain ⟨own, more, rfl, h⟩ := h
    rw [add_assoc] at now
    obtain ⟨m, thread, state⟩ := holds_advance floor (h _ _ now)
    rw [← add_assoc] at state
    exact ⟨m + more, holds_add thread more, state⟩
  · obtain ⟨own, more, given, rfl, -, h⟩ := h
    rw [add_assoc own, add_assoc own] at now
    obtain ⟨m, thread, state⟩ := holds_advance floor (h _ _ _ now)
    rw [← add_assoc] at state
    exact ⟨m + _, holds_add thread _, state⟩
  · exact ⟨m, h, now⟩

theorem holds_hear (address : Address) (h : t.Holds J R m) (now : J (m + others) floor.state) :
    ∃ m, (t.hear address floor).1.Holds J R m ∧ J (m + others) (t.hear address floor).2.state := by
  unfold hear
  split
  · refine ⟨m, h, ?_⟩
    dsimp only [Floor.queue]
    split <;> exact now
  · exact ⟨m, h, now⟩

/-- One part exchanges its tokens, and all others keep theirs. -/
theorem sum_exchange {count : Nat} (given : Fin count → μ) (i : Fin count) :
    ∃ kept, ∑ j, given j = given i + kept ∧
      ∀ m, ∑ j, Function.update given i m j = m + kept := by
  refine ⟨∑ j ∈ Finset.univ \ {i}, given j, ?_, ?_⟩
  · rw [← Finset.sum_update_of_mem (Finset.mem_univ i), Function.update_eq_self]
  · exact Finset.sum_update_of_mem (Finset.mem_univ i) given

theorem holds_visit {act : {α : Type} → Thread ε σ α → Floor σ → Thread ε σ α × Floor σ}
    (acts : ∀ {α : Type} {R : Ending ε α → μ → Prop} {t : Thread ε σ α} {m others : μ}
      {floor : Floor σ}, t.Holds J R m → J (m + others) floor.state →
        ∃ m, (act t floor).1.Holds J R m ∧ J (m + others) (act t floor).2.state)
    (address : Address) (h : t.Holds J R m) (now : J (m + others) floor.state) :
    ∃ m, (visit act address t floor).1.Holds J R m ∧
      J (m + others) (visit act address t floor).2.state := by
  induction address generalizing α m others with
  | nil => exact acts h now
  | cons i rest ih =>
    cases t with
    | running p => exact ⟨m, h, now⟩
    | ended e => exact ⟨m, h, now⟩
    | joining count untold parts next =>
      unfold visit
      split
      · rename_i inside
        obtain ⟨own, more, given, rfl, each, h⟩ := h
        obtain ⟨kept, before, after⟩ := sum_exchange given ⟨i, inside⟩
        -- For the part, the tokens of its siblings and of what waits for them are those of others.
        have apart : own + more + ∑ j, given j + others =
            given ⟨i, inside⟩ + (own + more + kept + others) := by
          rw [before]
          ac_rfl
        rw [apart] at now
        obtain ⟨m, thread, state⟩ := ih (each ⟨i, inside⟩) now
        have together : m + (own + more + kept + others) =
            own + more + ∑ j, Function.update given ⟨i, inside⟩ m j + others := by
          rw [after]
          ac_rfl
        rw [together] at state
        refine ⟨_, ⟨own, more, _, rfl, ?_, h⟩, state⟩
        intro j
        by_cases same : j = ⟨i, inside⟩
        · subst same
          simpa [replace] using thread
        · simpa [replace, same] using each j
      · exact ⟨m, h, now⟩

theorem holds_obey (ticket : Ticket) (floor : Floor σ) (h : t.Holds J R m)
    (now : J (m + others) floor.state) :
    ∃ m, (t.obey ticket floor).1.Holds J R m ∧ J (m + others) (t.obey ticket floor).2.state := by
  cases ticket with
  | resume address => exact holds_visit (holds_goOn address) address h now
  | tell address => exact holds_visit (holds_hear address) address h now

end Thread

namespace Loop

variable {R : Ending ε α → μ → Prop}

/-- An invariant of all tokens and the state, kept by all that is left of the programs with the
tokens that they hold. -/
def Lawful (J : μ → σ → Prop) (R : Ending ε α → μ → Prop) (loop : Loop ε σ α) : Prop :=
  ∃ m others, loop.root.Holds J R m ∧ J (m + others) loop.floor.state

theorem lawful_turn {loop next : Loop ε σ α} (h : loop.Lawful J R)
    (turn : loop.turn = some next) : next.Lawful J R := by
  obtain ⟨m, others, root, now⟩ := h
  unfold Loop.turn at turn
  split at turn
  · cases turn
  · rename_i ticket tickets _
    rw [← Option.some.inj turn]
    obtain ⟨m', root, now⟩ :=
      Thread.holds_obey ticket { loop.floor with ready := tickets } root now
    exact ⟨m', others, root, now⟩

theorem lawful_rest (loop : Loop ε σ α) (h : loop.Lawful J R) : loop.rest.Lawful J R := by
  induction loop using less_wellFounded.induction with
  | _ loop ih =>
    cases turn : loop.turn with
    | none =>
      rw [rest_of_turn_eq_none turn]
      exact h
    | some next =>
      rw [rest_of_turn_eq_some turn]
      exact ih next (turn_less turn) (lawful_turn h turn)

/-- After its run the program still holds what it held at its end, with an invariant of tokens and
state that all programs keep. -/
theorem run_endsIn {p : Program ε σ α} {own others : μ} {s : σ}
    (h : p.Holds J (Program.EndsIn J R) own s others) :
    ∃ own others, J (own + others) (run p s).2 ∧
      ((run p s).1 = .stuck ∨ R (run p s).1 own) := by
  let first : Loop ε σ α := draw (.running p) { state := s } (.resume [])
  have begins : first.Lawful J R := by
    obtain ⟨m, root, now⟩ := Thread.holds_advance { state := s } h
    exact ⟨m, others, root, now⟩
  have same : (start p false s).rest = first.rest := rest_of_turn_eq_some rfl
  obtain ⟨m, others, root, after⟩ := lawful_rest _ begins
  rw [← same] at root after
  rw [run]
  cases ended : (start p false s).rest.root with
  | ended e =>
    rw [ended] at root
    obtain ⟨own, more, rfl, fits⟩ := root
    rw [add_assoc] at after
    exact ⟨own, _, after, .inr fits⟩
  | running | joining => exact ⟨m, others, after, .inl rfl⟩

/-- An invariant of tokens and state that a program keeps, begun without tokens, holds after its
run, of whatever tokens there are then. -/
theorem run_lawful {p : Program ε σ α} (h : p.Lawful J) (tokens : μ) {s : σ}
    (now : J tokens s) : ∃ tokens, J tokens (run p s).2 := by
  rw [← zero_add tokens] at now
  obtain ⟨own, others, after, -⟩ := run_endsIn (R := fun _ _ => True) <|
    Program.holds_mono (h s tokens now) fun _ _ _ _ now => ⟨trivial, now⟩
  exact ⟨own + others, after⟩

/-- What a program ensures, whatever comes between its moves, holds after its run. -/
theorem run_ensures {I : σ → Prop} {P : α → Prop} {p : Program ε σ α} {s : σ}
    (h : p.Ensures I (fun a t => I t ∧ P a) s) :
    I (run p s).2 ∧ ∀ a, (run p s).1 = .done a → P a := by
  have holds : p.Holds (fun _ : Unit => I)
      (Program.EndsIn (fun _ => I) fun e _ => ∀ a, e = .done a → P a) () s () := by
    exact Program.holds_mono (Program.holds_of_ensures h () ()) fun _ _ _ _ fits =>
      fits.and_of_done.symm
  obtain ⟨-, -, after, ends⟩ := run_endsIn holds
  refine ⟨after, fun a same => ?_⟩
  rw [same] at ends
  exact ends.elim nofun fun fits => fits a rfl

/-- An invariant that a program keeps, whatever comes between its moves, holds after its run. -/
theorem run_steady {I : σ → Prop} {p : Program ε σ α} (h : p.Steady I) {s : σ} (now : I s) :
    I (run p s).2 := by
  obtain ⟨-, after⟩ := run_lawful (Program.lawful_of_steady h) () now
  exact after

end Loop

end GatedConsole
