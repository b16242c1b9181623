import GatedConsole.Proofs.Json.Grammar

/-!
What the reader finds fault with. Main statements: a text without a long run of digits and without
too many brackets has no fault but that it is no document, and a reader with more room finds what
one with less room has found, unless that has found something too deep.
-/

set_option autoImplicit false
set_option relaxedAutoImplicit false

namespace GatedConsole.Json

/-! ## What stands behind a part ends the text -/

theorem suffix_skip (t : Text) : skip t <:+ t := List.dropWhile_suffix isSpace

theorem suffix_of_skip {t r : Text} {c : CodePoint} (h : skip t = c :: r) : r <:+ t :=
  (List.suffix_cons c r).trans (h ▸ suffix_skip t)

theorem suffix_of_readScalar {t rest : Text} {value : Json}
    (h : readScalar t = .ok (value, rest)) : rest <:+ t := by
  unfold readScalar at h
  split at h
  · rename_i reading found
    cases h
    obtain ⟨entry, -, its⟩ := List.exists_of_findSome?_eq_some found
    obtain ⟨rest', behind, same⟩ := Option.map_eq_some_iff.1 its
    cases same
    rw [Text.behind?_eq_some_iff.1 behind]
    exact List.suffix_append _ _
  · split at h
    · split at h
      · exact ((suffix_of_readNumber h).trans (List.drop_suffix _ _)).trans (List.suffix_cons _ _)
      · exact (suffix_of_readNumber h).trans (List.drop_suffix _ _)
    · cases h

theorem suffix_of_readString {t name rest : Text} (h : readString t = .ok (name, rest)) :
    rest <:+ t := by
  obtain ⟨_, front, its, -⟩ := exists_front_of_readString h
  rw [its.parts]
  exact List.suffix_append _ _

theorem Reads.suffix {t rest : Text} {part : Part} (h : Reads t part rest) : rest <:+ t := by
  induction h with
  | text string => exact (suffix_of_readString string).trans (List.suffix_cons _ _)
  | emptyList close | emptyObject close =>
    exact (suffix_of_skip close).trans (List.suffix_cons _ _)
  | list first _ _ ih | object first _ _ ih =>
    exact (ih.trans (first ▸ suffix_skip _)).trans (List.suffix_cons _ _)
  | scalar _ _ _ its => exact suffix_of_readScalar its
  | lastItem _ close ih => exact (suffix_of_skip close).trans ih
  | item _ comma _ ih ih' =>
    exact ((ih'.trans (suffix_skip _)).trans (suffix_of_skip comma)).trans ih
  | lastMember string colon _ close ih =>
    have value := (ih.trans (suffix_skip _)).trans (suffix_of_skip colon)
    exact (((suffix_of_skip close).trans value).trans (suffix_of_readString string)).trans
      (List.suffix_cons _ _)
  | member string colon _ comma _ ih ih' =>
    have value := (ih.trans (suffix_skip _)).trans (suffix_of_skip colon)
    have others := (ih'.trans (suffix_skip _)).trans (suffix_of_skip comma)
    exact ((others.trans value).trans (suffix_of_readString string)).trans (List.suffix_cons _ _)

/-! ## What a fault tells of the text -/

/-- How many lists and objects the text opens, brackets in strings included. -/
def brackets (t : Text) : Nat :=
  t.countP fun c => c = CodePoint.ofChar '[' || c = CodePoint.ofChar '\x7b'

/-- The text bears out the fault: it has so many digits in a row, too many for a number, or it opens
more lists and objects than there is room for. -/
inductive Faulty (room : Nat) (t : Text) : ReadFault → Prop
  | malformed : Faulty room t .malformed
  | digits {digits : Text} (within : digits <:+: t) (all : ∀ c ∈ digits, c.isAsciiDigit = true)
      (long : Text.numeralLimit < digits.length) : Faulty room t (.tooManyDigits digits.length)
  | deep {bracket : Bracket} (many : room < brackets t) : Faulty room t (.tooDeep bracket)

section Faulty

variable {fuel room : Nat} {t r : Text} {c : CodePoint} {fault : ReadFault}

theorem Faulty.of_suffix (h : Faulty room r fault) (behind : r <:+ t) : Faulty room t fault := by
  cases h with
  | malformed => exact .malformed
  | digits within all long => exact .digits (within.trans behind.isInfix) all long
  | deep many => exact .deep (Nat.lt_of_lt_of_le many behind.sublist.countP_le)

/-- Behind a bracket there is room for one less. -/
theorem Faulty.opened (h : Faulty room r fault)
    (opens : c = CodePoint.ofChar '[' ∨ c = CodePoint.ofChar '\x7b') :
    Faulty (room + 1) (c :: r) fault := by
  cases h with
  | malformed => exact .malformed
  | digits within all long => exact .digits (within.trans (List.suffix_cons c r).isInfix) all long
  | deep many =>
    have one : brackets (c :: r) = brackets r + 1 := by
      rw [brackets, List.countP_cons_of_pos (by simpa using opens)]
      rfl
    exact .deep (by omega)

theorem faulty_of_readNumber {negative : Bool} (h : readNumber negative t = .error fault) :
    Faulty room t fault := by
  have digits := isPrefix_wholePart t
  unfold readNumber at h
  dsimp only at h
  split at h
  · cases h
    exact .malformed
  · split at h
    · cases h
    · split at h
      · cases h
      · split at h
        · rename_i long
          cases h
          refine .digits (digits.trans (List.takeWhile_prefix _)).isInfix ?_ long
          exact fun c mem => List.all_eq_true.1 List.all_takeWhile c (digits.subset mem)
        · cases h

theorem faulty_of_readScalar (h : readScalar t = .error fault) : Faulty room t fault := by
  unfold readScalar at h
  split at h
  · cases h
  · split at h
    · split at h
      · exact (faulty_of_readNumber h).of_suffix (List.suffix_cons _ _)
      · exact faulty_of_readNumber h
    · cases h
      exact .malformed

theorem Reading.error_of_prepend {unit : CodePoint} {reading : Reading Text}
    (h : reading.prepend unit = .error fault) : reading = .error fault := by
  cases reading with
  | error cause =>
    cases h
    rfl
  | ok read => cases h

theorem malformed_of_unitsOf (h : unitsOf t = .error fault) : fault = .malformed := by
  -- Every unit takes up at least one sign, so the fault is in a shorter text, or it is here.
  induction size : t.length using Nat.strongRecOn generalizing t with
  | ind n ih =>
    subst size
    have behind {s : Text} {unit : CodePoint} (shorter : s.length < t.length)
        (h : (unitsOf s).prepend unit = .error fault) : fault = .malformed :=
      ih s.length shorter (Reading.error_of_prepend h) rfl
    rw [unitsOf.eq_def] at h
    split at h
    · cases h
      rfl
    · split at h
      · cases h
      · split at h
        · cases h
          rfl
        · split at h
          · split at h
            · cases h
              rfl
            · split at h
              · split at h
                · split at h
                  · exact behind (by simp only [List.length_cons]; omega) h
                  · cases h
                    rfl
                · cases h
                  rfl
              · split at h
                · exact behind (by simp only [List.length_cons]; omega) h
                · cases h
                  rfl
          · exact behind (Nat.lt_succ_self _) h

theorem malformed_of_readString (h : readString t = .error fault) : fault = .malformed := by
  unfold readString at h
  cases read : unitsOf t with
  | error cause =>
    rw [read] at h
    cases h
    exact malformed_of_unitsOf read
  | ok reading =>
    rw [read] at h
    cases h

theorem Reading.error_of_map {α β : Type} {f : α → β} {reading : Except ReadFault α}
    (h : reading.map f = .error fault) : reading = .error fault := by
  cases reading with
  | error cause =>
    cases h
    rfl
  | ok read => cases h

/-- A composition finds a fault in its first part, or in what stands behind it. -/
theorem Reading.error_of_bind {α β : Type} {reading : Reading α}
    {next : α × Text → Except ReadFault β} (h : reading.bind next = .error fault) :
    reading = .error fault ∨ ∃ a rest, reading = .ok (a, rest) ∧ next (a, rest) = .error fault := by
  cases reading with
  | error cause =>
    cases h
    exact .inl rfl
  | ok read => exact .inr ⟨read.1, read.2, rfl, h⟩

theorem faulty_of_opened {α : Type} {close : CodePoint} {empty : Json} {make : α → Json}
    {inner : Text → Reading α} (less : ∀ {t}, inner t = .error fault → Faulty room t fault)
    (opens : c = CodePoint.ofChar '[' ∨ c = CodePoint.ofChar '\x7b')
    (h : opened close empty make inner r = .error fault) : Faulty (room + 1) (c :: r) fault := by
  unfold opened at h
  split at h
  · rename_i d s first
    split at h
    · cases h
    · have inside := (less (Reading.error_of_map h)).of_suffix (first ▸ suffix_skip r)
      exact inside.opened opens
  · cases h
    exact .malformed

/-- The text bears out what the readers with this much fuel find fault with. -/
structure Justified (fuel : Nat) : Prop where
  value : ∀ {room t fault}, readValue fuel room t = .error fault → Faulty room t fault
  items : ∀ {room t fault}, readItems fuel room t = .error fault → Faulty room t fault
  members : ∀ {room t fault}, readMembers fuel room t = .error fault → Faulty room t fault

theorem faulty_of_readValue (less : Justified fuel)
    (h : readValue (fuel + 1) room t = .error fault) : Faulty room t fault := by
  cases t with
  | nil =>
    rw [readValue.eq_def] at h
    cases h
    exact .malformed
  | cons c r =>
    by_cases quote : c = CodePoint.ofChar '"'
    · rw [readValue.eq_def] at h
      dsimp only at h
      rw [if_pos quote] at h
      rw [malformed_of_readString (Reading.error_of_map h)]
      exact .malformed
    · by_cases bracket : c = CodePoint.ofChar '['
      · subst bracket
        cases room with
        | zero =>
          cases h
          exact .deep (List.countP_pos_iff.2 ⟨_, List.mem_cons_self, by decide⟩)
        | succ room =>
          rw [readValue_bracket] at h
          exact faulty_of_opened less.items (.inl rfl) h
      · by_cases brace : c = CodePoint.ofChar '\x7b'
        · subst brace
          cases room with
          | zero =>
            cases h
            exact .deep (List.countP_pos_iff.2 ⟨_, List.mem_cons_self, by decide⟩)
          | succ room =>
            rw [readValue_brace] at h
            exact faulty_of_opened less.members (.inr rfl) h
        · rw [readValue_scalar quote bracket brace] at h
          exact faulty_of_readScalar h

theorem faulty_of_readItems (less : Justified fuel)
    (h : readItems (fuel + 1) room t = .error fault) : Faulty room t fault := by
  rw [readItems] at h
  obtain first | ⟨item, r, one, h⟩ := Reading.error_of_bind h
  · exact less.value first
  · have behind := (reads_of_isRead (.value item) one).suffix
    dsimp only at h
    split at h
    · rename_i d s next
      split at h
      · have others := less.items (Reading.error_of_map h)
        exact others.of_suffix (((suffix_skip s).trans (suffix_of_skip next)).trans behind)
      · split at h
        · cases h
        · cases h
          exact .malformed
    · cases h
      exact .malformed

theorem faulty_of_readMembers (less : Justified fuel)
    (h : readMembers (fuel + 1) room t = .error fault) : Faulty room t fault := by
  cases t with
  | nil =>
    rw [readMembers] at h
    cases h
    exact .malformed
  | cons quote t =>
    rw [readMembers] at h
    split at h
    · cases h
      exact .malformed
    · obtain string | ⟨name, r, string, h⟩ := Reading.error_of_bind h
      · rw [malformed_of_readString string]
        exact .malformed
      · have behind := (suffix_of_readString string).trans (List.suffix_cons quote t)
        dsimp only at h
        split at h
        · rename_i colon s mark
          split at h
          · cases h
            exact .malformed
          · have inside := ((suffix_skip s).trans (suffix_of_skip mark)).trans behind
            obtain one | ⟨value, r', one, h⟩ := Reading.error_of_bind h
            · exact (less.value one).of_suffix inside
            · have after := (reads_of_isRead (.value value) one).suffix.trans inside
              dsimp only at h
              split at h
              · rename_i d s' next
                split at h
                · have others := less.members (Reading.error_of_map h)
                  exact others.of_suffix
                    (((suffix_skip s').trans (suffix_of_skip next)).trans after)
                · split at h
                  · cases h
                  · cases h
                    exact .malformed
              · cases h
                exact .malformed
        · cases h
          exact .malformed

theorem justified (fuel : Nat) : Justified fuel := by
  induction fuel with
  | zero =>
    refine ⟨?_, ?_, ?_⟩
    · intro room t fault h
      cases h
      exact .malformed
    · intro room t fault h
      cases h
      exact .malformed
    · intro room t fault h
      cases h
      exact .malformed
  | succ fuel ih =>
    exact ⟨faulty_of_readValue ih, faulty_of_readItems ih, faulty_of_readMembers ih⟩

/-- The text bears out whatever fault it is read with. -/
theorem faulty_of_readWithin (h : readWithin room t = .error fault) : Faulty room t fault := by
  obtain first | ⟨value, rest, -, h⟩ := Reading.error_of_bind h
  · exact ((justified _).value first).of_suffix (suffix_skip t)
  · dsimp only at h
    split at h
    · cases h
    · cases h
      exact .malformed

end Faulty

/-! ## More room -/

/-- The second reading is the first one, unless that has found something too deep. -/
def Agrees {α : Type} (less more : Except ReadFault α) : Prop :=
  (∃ bracket, less = .error (.tooDeep bracket)) ∨ more = less

section Agrees

variable {α β : Type} {less more : Except ReadFault α}

theorem Agrees.refl (reading : Except ReadFault α) : Agrees reading reading := .inr rfl

theorem Agrees.trans {most : Except ReadFault α} (h : Agrees less more) (h' : Agrees more most) :
    Agrees less most := by
  obtain deep | rfl := h
  · exact .inl deep
  · exact h'

theorem Agrees.bind {next next' : α → Except ReadFault β} (h : Agrees less more)
    (rest : ∀ a, Agrees (next a) (next' a)) : Agrees (less.bind next) (more.bind next') := by
  obtain ⟨bracket, rfl⟩ | rfl := h
  · exact .inl ⟨bracket, rfl⟩
  · cases more with
    | error fault => exact .refl _
    | ok a => exact rest a

theorem Agrees.map (f : α → β) (h : Agrees less more) : Agrees (less.map f) (more.map f) := by
  obtain ⟨bracket, rfl⟩ | rfl := h
  · exact .inl ⟨bracket, rfl⟩
  · exact .refl _

theorem Agrees.opened {close : CodePoint} {empty : Json} {make : α → Json}
    {inner inner' : Text → Reading α} (h : ∀ t, Agrees (inner t) (inner' t)) (r : Text) :
    Agrees (opened close empty make inner r) (opened close empty make inner' r) := by
  unfold Json.opened
  split
  · split
    · exact .refl _
    · exact (h _).map _
  · exact .refl _

/-- One place more changes nothing for the readers with this much fuel. -/
structure Roomy (fuel : Nat) : Prop where
  value : ∀ room t, Agrees (readValue fuel room t) (readValue fuel (room + 1) t)
  items : ∀ room t, Agrees (readItems fuel room t) (readItems fuel (room + 1) t)
  members : ∀ room t, Agrees (readMembers fuel room t) (readMembers fuel (room + 1) t)

theorem agrees_readValue {fuel : Nat} (inner : Roomy fuel) (room : Nat) (t : Text) :
    Agrees (readValue (fuel + 1) room t) (readValue (fuel + 1) (room + 1) t) := by
  cases t with
  | nil => exact .refl _
  | cons c r =>
    by_cases quote : c = CodePoint.ofChar '"'
    · subst quote
      exact .refl _
    · by_cases bracket : c = CodePoint.ofChar '['
      · subst bracket
        cases room with
        | zero => exact .inl ⟨.list, rfl⟩
        | succ room =>
          rw [readValue_bracket, readValue_bracket]
          exact Agrees.opened (inner.items room) r
      · by_cases brace : c = CodePoint.ofChar '\x7b'
        · subst brace
          cases room with
          | zero => exact .inl ⟨.object, rfl⟩
          | succ room =>
            rw [readValue_brace, readValue_brace]
            exact Agrees.opened (inner.members room) r
        · rw [readValue_scalar quote bracket brace, readValue_scalar quote bracket brace]
          exact .refl _

theorem agrees_readItems {fuel : Nat} (inner : Roomy fuel) (room : Nat) (t : Text) :
    Agrees (readItems (fuel + 1) room t) (readItems (fuel + 1) (room + 1) t) := by
  rw [readItems, readItems]
  refine (inner.value room t).bind fun one => ?_
  obtain ⟨item, r⟩ := one
  dsimp only
  split
  · split
    · exact (inner.items room _).map _
    · exact .refl _
  · exact .refl _

theorem agrees_readMembers {fuel : Nat} (inner : Roomy fuel) (room : Nat) (t : Text) :
    Agrees (readMembers (fuel + 1) room t) (readMembers (fuel + 1) (room + 1) t) := by
  cases t with
  | nil => exact .refl _
  | cons quote t =>
    rw [readMembers, readMembers]
    split
    · exact .refl _
    · refine (Agrees.refl (readString t)).bind fun string => ?_
      obtain ⟨name, r⟩ := string
      dsimp only
      split
      · split
        · exact .refl _
        · refine (inner.value room _).bind fun one => ?_
          obtain ⟨value, r'⟩ := one
          dsimp only
          split
          · split
            · exact (inner.members room _).map _
            · exact .refl _
          · exact .refl _
      · exact .refl _

theorem roomy (fuel : Nat) : Roomy fuel := by
  induction fuel with
  | zero => exact ⟨fun _ _ => .refl _, fun _ _ => .refl _, fun _ _ => .refl _⟩
  | succ fuel ih => exact ⟨agrees_readValue ih, agrees_readItems ih, agrees_readMembers ih⟩

theorem agrees_readWithin_succ (room : Nat) (t : Text) :
    Agrees (readWithin room t) (readWithin (room + 1) t) :=
  ((roomy _).value room _).bind fun _ => .refl _

end Agrees

theorem agrees_readWithin {room more : Nat} (enough : room ≤ more) (t : Text) :
    Agrees (readWithin room t) (readWithin more t) := by
  obtain ⟨places, rfl⟩ := Nat.exists_eq_add_of_le enough
  induction places with
  | zero => exact .refl _
  | succ places ih =>
    exact (ih (Nat.le_add_right room places)).trans (agrees_readWithin_succ (room + places) t)

/-- A text has never more brackets than there is room for in a reading of the whole. -/
theorem read_ne_tooDeep (t : Text) (bracket : Bracket) : read t ≠ .error (.tooDeep bracket) := by
  intro h
  cases faulty_of_readWithin h with
  | deep many => exact absurd many (Nat.not_lt.2 List.countP_le_length)

/-- What is read with however much room, and is not too deep, is what is read with room enough. -/
theorem read_of_readWithin {room : Nat} {t : Text} {reading : Except ReadFault Json}
    (h : readWithin room t = reading)
    (shallow : ∀ bracket, reading ≠ .error (.tooDeep bracket)) : read t = reading := by
  subst h
  rcases Nat.le_total room t.length with enough | enough
  · obtain ⟨bracket, deep⟩ | same := agrees_readWithin enough t
    · exact absurd deep (shallow bracket)
    · exact same
  · obtain ⟨bracket, deep⟩ | same := agrees_readWithin enough t
    · exact absurd deep (read_ne_tooDeep t bracket)
    · exact same.symm

end GatedConsole.Json
