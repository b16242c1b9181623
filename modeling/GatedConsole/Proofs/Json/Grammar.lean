import GatedConsole.Proofs.Json.LineEnds
import GatedConsole.Proofs.Json.RoundTrip

/-!
The grammar that the reader accepts, free of fuel and room. Main statements: the reader accepts what
the grammar says and nothing else, and the grammar does not tell apart texts that differ in the kind
of their line ends.
-/

set_option autoImplicit false
set_option relaxedAutoImplicit false

namespace GatedConsole.Json

open Text

/-! ## The grammar -/

/-- What the three readers read: a value, the items of a list up to its bracket, the members of an
object up to its brace. -/
inductive Part where
  | value (value : Json)
  | items (items : List Json)
  | members (members : List (Text × Json))

/-- A text begins with a part, and another text stands behind it. -/
inductive Reads : Text → Part → Text → Prop where
  | text {r t rest : Text} (string : readString r = .ok (t, rest)) :
      Reads (CodePoint.ofChar '"' :: r) (.value (.text t)) rest
  | emptyList {r rest : Text} (close : skip r = CodePoint.ofChar ']' :: rest) :
      Reads (CodePoint.ofChar '[' :: r) (.value (.list [])) rest
  | list {r s rest : Text} {d : CodePoint} {items : List Json} (first : skip r = d :: s)
      (other : d ≠ CodePoint.ofChar ']') (inner : Reads (d :: s) (.items items) rest) :
      Reads (CodePoint.ofChar '[' :: r) (.value (.list items)) rest
  | emptyObject {r rest : Text} (close : skip r = CodePoint.ofChar '\x7d' :: rest) :
      Reads (CodePoint.ofChar '\x7b' :: r) (.value (.object [])) rest
  | object {r s rest : Text} {d : CodePoint} {members : List (Text × Json)}
      (first : skip r = d :: s) (other : d ≠ CodePoint.ofChar '\x7d')
      (inner : Reads (d :: s) (.members members) rest) :
      Reads (CodePoint.ofChar '\x7b' :: r) (.value (.object members)) rest
  | scalar {c : CodePoint} {r rest : Text} {value : Json} (quote : c ≠ CodePoint.ofChar '"')
      (bracket : c ≠ CodePoint.ofChar '[') (brace : c ≠ CodePoint.ofChar '\x7b')
      (its : readScalar (c :: r) = .ok (value, rest)) : Reads (c :: r) (.value value) rest
  | lastItem {t r rest : Text} {item : Json} (one : Reads t (.value item) r)
      (close : skip r = CodePoint.ofChar ']' :: rest) : Reads t (.items [item]) rest
  | item {t r s rest : Text} {item : Json} {items : List Json} (one : Reads t (.value item) r)
      (comma : skip r = CodePoint.ofChar ',' :: s) (others : Reads (skip s) (.items items) rest) :
      Reads t (.items (item :: items)) rest
  | lastMember {t r s r' rest name : Text} {value : Json} (string : readString t = .ok (name, r))
      (colon : skip r = CodePoint.ofChar ':' :: s) (one : Reads (skip s) (.value value) r')
      (close : skip r' = CodePoint.ofChar '\x7d' :: rest) :
      Reads (CodePoint.ofChar '"' :: t) (.members [(name, value)]) rest
  | member {t r s r' s' rest name : Text} {value : Json} {members : List (Text × Json)}
      (string : readString t = .ok (name, r)) (colon : skip r = CodePoint.ofChar ':' :: s)
      (one : Reads (skip s) (.value value) r') (comma : skip r' = CodePoint.ofChar ',' :: s')
      (others : Reads (skip s') (.members members) rest) :
      Reads (CodePoint.ofChar '"' :: t) (.members ((name, value) :: members)) rest

/-- The reader of such a part finds it. -/
def Part.IsRead (fuel room : Nat) (t rest : Text) : Part → Prop
  | .value document => readValue fuel room t = .ok (document, rest)
  | .items documents => readItems fuel room t = .ok (documents, rest)
  | .members entries => readMembers fuel room t = .ok (entries, rest)

/-! ## The reader accepts nothing else -/

theorem Reading.of_map {α β : Type} {f : α → β} {reading : Reading α} {b : β} {rest : Text}
    (h : (reading.map fun (a, rest) => (f a, rest)) = .ok (b, rest)) :
    ∃ a, reading = .ok (a, rest) ∧ f a = b := by
  cases reading with
  | error fault => cases h
  | ok read =>
    obtain ⟨a, rest'⟩ := read
    cases h
    exact ⟨a, rfl, rfl⟩

theorem Reading.of_bind {α β : Type} {reading : Reading α} {next : α × Text → Except ReadFault β}
    {b : β} (h : reading.bind next = .ok b) :
    ∃ a rest, reading = .ok (a, rest) ∧ next (a, rest) = .ok b := by
  cases reading with
  | error fault => cases h
  | ok read => exact ⟨read.1, read.2, rfl, h⟩

/-- What is read behind an opening sign: the empty value, if the closing sign comes next, or what
is inside. -/
def opened {α : Type} (close : CodePoint) (empty : Json) (make : α → Json)
    (inner : Text → Reading α) (r : Text) : Reading Json :=
  match skip r with
  | d :: s =>
    if d = close then .ok (empty, s)
    else (inner (d :: s)).map fun (a, rest) => (make a, rest)
  | [] => .error .malformed

section Opened

variable {α : Type} {close d : CodePoint} {empty value : Json} {make : α → Json}
  {inner : Text → Reading α} {r s rest : Text} {a : α}

theorem opened_closed (closed : skip r = close :: rest) :
    opened close empty make inner r = .ok (empty, rest) := by
  rw [opened, closed]
  exact if_pos rfl

theorem opened_inner (first : skip r = d :: s) (other : d ≠ close)
    (its : inner (d :: s) = .ok (a, rest)) :
    opened close empty make inner r = .ok (make a, rest) := by
  rw [opened, first]
  dsimp only
  rw [if_neg other, its]
  rfl

theorem of_opened (h : opened close empty make inner r = .ok (value, rest)) :
    (skip r = close :: rest ∧ value = empty) ∨
      ∃ d s a, skip r = d :: s ∧ d ≠ close ∧ inner (d :: s) = .ok (a, rest) ∧ make a = value := by
  unfold opened at h
  split at h
  · rename_i d s first
    by_cases closed : d = close
    · rw [if_pos closed] at h
      cases h
      exact .inl ⟨closed ▸ first, rfl⟩
    · rw [if_neg closed] at h
      obtain ⟨a, its, made⟩ := Reading.of_map h
      exact .inr ⟨d, s, a, first, closed, its, made⟩
  · cases h

theorem readValue_bracket (fuel room : Nat) (r : Text) :
    readValue (fuel + 1) (room + 1) (CodePoint.ofChar '[' :: r) =
      opened (CodePoint.ofChar ']') (.list []) .list (readItems fuel room) r := by
  rw [readValue.eq_def]
  dsimp only
  rw [if_neg (by decide), if_pos rfl]
  rfl

theorem readValue_brace (fuel room : Nat) (r : Text) :
    readValue (fuel + 1) (room + 1) (CodePoint.ofChar '\x7b' :: r) =
      opened (CodePoint.ofChar '\x7d') (.object []) .object (readMembers fuel room) r := by
  rw [readValue.eq_def]
  dsimp only
  rw [if_neg (by decide), if_neg (by decide), if_pos rfl]
  rfl

end Opened

/-- What a reader with less fuel finds accords with the grammar. -/
def Sound (fuel : Nat) : Prop :=
  ∀ (part : Part) {room : Nat} {t rest : Text}, part.IsRead fuel room t rest → Reads t part rest

theorem reads_of_readValue {fuel room : Nat} {t rest : Text} {value : Json} (less : Sound fuel)
    (h : readValue (fuel + 1) room t = .ok (value, rest)) : Reads t (.value value) rest := by
  cases t with
  | nil =>
    rw [readValue.eq_def] at h
    cases h
  | cons c r =>
    by_cases quote : c = CodePoint.ofChar '"'
    · rw [readValue.eq_def] at h
      dsimp only at h
      rw [if_pos quote] at h
      obtain ⟨s, string, rfl⟩ := Reading.of_map h
      rw [quote]
      exact .text string
    · by_cases bracket : c = CodePoint.ofChar '['
      · subst bracket
        cases room with
        | zero => cases h
        | succ room =>
          rw [readValue_bracket] at h
          obtain ⟨close, rfl⟩ | ⟨d, s, items, first, other, inner, rfl⟩ := of_opened h
          · exact .emptyList close
          · exact .list first other (less (.items items) inner)
      · by_cases brace : c = CodePoint.ofChar '\x7b'
        · subst brace
          cases room with
          | zero => cases h
          | succ room =>
            rw [readValue_brace] at h
            obtain ⟨close, rfl⟩ | ⟨d, s, members, first, other, inner, rfl⟩ := of_opened h
            · exact .emptyObject close
            · exact .object first other (less (.members members) inner)
        · rw [readValue_scalar quote bracket brace] at h
          exact .scalar quote bracket brace h

theorem reads_of_readItems {fuel room : Nat} {t rest : Text} {items : List Json}
    (less : Sound fuel) (h : readItems (fuel + 1) room t = .ok (items, rest)) :
    Reads t (.items items) rest := by
  rw [readItems] at h
  obtain ⟨item, r, one, h⟩ := Reading.of_bind h
  have one := less (.value item) one
  dsimp only at h
  cases next : skip r with
  | nil =>
    rw [next] at h
    cases h
  | cons c s =>
    rw [next] at h
    dsimp only at h
    by_cases comma : c = CodePoint.ofChar ','
    · rw [if_pos comma] at h
      obtain ⟨others, inner, rfl⟩ := Reading.of_map h
      exact .item one (comma ▸ next) (less (.items others) inner)
    · rw [if_neg comma] at h
      by_cases close : c = CodePoint.ofChar ']'
      · rw [if_pos close] at h
        cases h
        exact .lastItem one (close ▸ next)
      · rw [if_neg close] at h
        cases h

theorem reads_of_readMembers {fuel room : Nat} {t rest : Text} {members : List (Text × Json)}
    (less : Sound fuel) (h : readMembers (fuel + 1) room t = .ok (members, rest)) :
    Reads t (.members members) rest := by
  cases t with
  | nil =>
    rw [readMembers] at h
    cases h
  | cons quote t =>
    rw [readMembers] at h
    by_cases opens : quote = CodePoint.ofChar '"'
    · rw [if_neg (not_not_intro opens)] at h
      obtain ⟨name, r, string, h⟩ := Reading.of_bind h
      rw [opens]
      dsimp only at h
      cases mark : skip r with
      | nil =>
        rw [mark] at h
        cases h
      | cons colon s =>
        rw [mark] at h
        dsimp only at h
        by_cases is_colon : colon = CodePoint.ofChar ':'
        · rw [if_neg (not_not_intro is_colon)] at h
          obtain ⟨value, r', one, h⟩ := Reading.of_bind h
          have one := less (.value value) one
          have mark := is_colon ▸ mark
          dsimp only at h
          cases next : skip r' with
          | nil =>
            rw [next] at h
            cases h
          | cons c s' =>
            rw [next] at h
            dsimp only at h
            by_cases comma : c = CodePoint.ofChar ','
            · rw [if_pos comma] at h
              obtain ⟨others, inner, rfl⟩ := Reading.of_map h
              exact .member string mark one (comma ▸ next) (less (.members others) inner)
            · rw [if_neg comma] at h
              by_cases close : c = CodePoint.ofChar '\x7d'
              · rw [if_pos close] at h
                cases h
                exact .lastMember string mark one (close ▸ next)
              · rw [if_neg close] at h
                cases h
        · rw [if_pos is_colon] at h
          cases h
    · rw [if_pos opens] at h
      cases h

theorem reads_of_isRead (part : Part) {fuel room : Nat} {t rest : Text}
    (h : part.IsRead fuel room t rest) : Reads t part rest := by
  induction fuel generalizing part room t rest with
  | zero =>
    cases part with
    | value value => cases h
    | items items => cases h
    | members members => cases h
  | succ fuel ih =>
    cases part with
    | value value => exact reads_of_readValue ih h
    | items items => exact reads_of_readItems ih h
    | members members => exact reads_of_readMembers ih h

/-! ## The reader accepts all of it -/

theorem length_skip (t : Text) : (skip t).length ≤ t.length :=
  (List.dropWhile_sublist isSpace).length_le

theorem length_of_skip {t r : Text} {c : CodePoint} (h : skip t = c :: r) :
    r.length < t.length := by
  have skipped := length_skip t
  rw [h] at skipped
  exact skipped

theorem Reads.length {t rest : Text} {part : Part} (h : Reads t part rest) :
    rest.length < t.length := by
  -- Every constructor takes some sign away, and what is skipped shortens the text as well.
  induction h with
  | text string =>
    have := length_of_readString string
    rw [List.length_cons]
    omega
  | emptyList close | emptyObject close =>
    have := length_of_skip close
    rw [List.length_cons]
    omega
  | list first _ _ ih | object first _ _ ih =>
    have := length_of_skip first
    rw [List.length_cons] at ih ⊢
    omega
  | scalar _ _ _ its => exact length_of_readScalar its
  | lastItem _ close ih => exact Nat.lt_trans (length_of_skip close) ih
  | @item _ _ s _ _ _ _ comma _ one others =>
    have before := length_of_skip comma
    have behind := length_skip s
    omega
  | @lastMember _ _ s _ _ _ _ string colon _ close one =>
    have name := length_of_readString string
    have before := length_of_skip colon
    have inner := length_skip s
    have behind := length_of_skip close
    rw [List.length_cons]
    omega
  | @member _ _ s _ s' _ _ _ _ string colon _ comma _ one others =>
    have name := length_of_readString string
    have before := length_of_skip colon
    have inner := length_skip s
    have behind := length_of_skip comma
    have next := length_skip s'
    rw [List.length_cons]
    omega

theorem readMembers_string {fuel room : Nat} {t r s rest name : Text} {value : Json}
    (string : readString t = .ok (name, r))
    (colon : skip r = CodePoint.ofChar ':' :: s)
    (one : readValue fuel room (skip s) = .ok (value, rest)) :
    readMembers (fuel + 1) room (CodePoint.ofChar '"' :: t) =
      match skip rest with
      | c :: s =>
        if c = CodePoint.ofChar ',' then
          (readMembers fuel room (skip s)).map fun (members, rest) =>
            ((name, value) :: members, rest)
        else if c = CodePoint.ofChar '\x7d' then .ok ([(name, value)], s)
        else .error .malformed
      | [] => .error .malformed := by
  rw [readMembers, if_neg (not_not_intro rfl), string]
  dsimp only [bind, Except.bind]
  rw [colon]
  dsimp only
  rw [if_neg (not_not_intro rfl)]
  exact one ▸ rfl

/-- Two steps of fuel for each sign that is read, and one place for each bracket, are enough. -/
theorem Reads.isRead {t rest : Text} {part : Part} (h : Reads t part rest) :
    ∀ {fuel room : Nat}, 2 * t.length ≤ fuel + 2 * rest.length → t.length ≤ room + rest.length →
      part.IsRead fuel room t rest := by
  induction h with
  | text string =>
    intro fuel room enough _
    have shorter := (Reads.text string).length
    obtain ⟨fuel, rfl⟩ := Nat.exists_eq_succ_of_ne_zero (n := fuel) (by omega)
    rw [Part.IsRead, readValue.eq_def]
    dsimp only
    rw [if_pos rfl, string]
    rfl
  | emptyList close =>
    intro fuel room enough deep
    have shorter := (Reads.emptyList close).length
    obtain ⟨fuel, rfl⟩ := Nat.exists_eq_succ_of_ne_zero (n := fuel) (by omega)
    obtain ⟨room, rfl⟩ := Nat.exists_eq_succ_of_ne_zero (n := room) (by omega)
    exact (readValue_bracket _ _ _).trans (opened_closed close)
  | @list r s rest d items first other inner ih =>
    intro fuel room enough deep
    have shorter := (Reads.list first other inner).length
    have skipped := length_of_skip first
    rw [List.length_cons] at enough deep shorter ih
    obtain ⟨fuel, rfl⟩ := Nat.exists_eq_succ_of_ne_zero (n := fuel) (by omega)
    obtain ⟨room, rfl⟩ := Nat.exists_eq_succ_of_ne_zero (n := room) (by omega)
    have items : readItems fuel room (d :: s) = .ok (items, rest) := ih (by omega) (by omega)
    exact (readValue_bracket _ _ _).trans (opened_inner first other items)
  | emptyObject close =>
    intro fuel room enough deep
    have shorter := (Reads.emptyObject close).length
    obtain ⟨fuel, rfl⟩ := Nat.exists_eq_succ_of_ne_zero (n := fuel) (by omega)
    obtain ⟨room, rfl⟩ := Nat.exists_eq_succ_of_ne_zero (n := room) (by omega)
    exact (readValue_brace _ _ _).trans (opened_closed close)
  | @object r s rest d members first other inner ih =>
    intro fuel room enough deep
    have shorter := (Reads.object first other inner).length
    have skipped := length_of_skip first
    rw [List.length_cons] at enough deep shorter ih
    obtain ⟨fuel, rfl⟩ := Nat.exists_eq_succ_of_ne_zero (n := fuel) (by omega)
    obtain ⟨room, rfl⟩ := Nat.exists_eq_succ_of_ne_zero (n := room) (by omega)
    have members : readMembers fuel room (d :: s) = .ok (members, rest) :=
      ih (by omega) (by omega)
    exact (readValue_brace _ _ _).trans (opened_inner first other members)
  | scalar quote bracket brace its =>
    intro fuel room enough _
    have shorter := length_of_readScalar its
    obtain ⟨fuel, rfl⟩ := Nat.exists_eq_succ_of_ne_zero (n := fuel) (by omega)
    exact (readValue_scalar quote bracket brace).trans its
  | @lastItem t r rest item one close ih =>
    intro fuel room enough deep
    have shorter := one.length
    have skipped := length_of_skip close
    obtain ⟨fuel, rfl⟩ := Nat.exists_eq_succ_of_ne_zero (n := fuel) (by omega)
    exact readItems_last (ih (by omega) (by omega)) close
  | @item t r s rest item items one comma others ih ih' =>
    intro fuel room enough deep
    have shorter := one.length
    have shorter' := others.length
    have before := length_of_skip comma
    have behind := length_skip s
    obtain ⟨fuel, rfl⟩ := Nat.exists_eq_succ_of_ne_zero (n := fuel) (by omega)
    have items : readItems fuel room (skip s) = .ok (items, rest) := ih' (by omega) (by omega)
    rw [Part.IsRead, readItems_more (ih (by omega) (by omega)) comma, items]
    rfl
  | @lastMember t r s r' rest name value string colon one close ih =>
    intro fuel room enough deep
    have shorter := length_of_readString string
    have shorter' := one.length
    have before := length_of_skip colon
    have inner := length_skip s
    have behind := length_of_skip close
    rw [List.length_cons] at enough deep
    obtain ⟨fuel, rfl⟩ := Nat.exists_eq_succ_of_ne_zero (n := fuel) (by omega)
    rw [Part.IsRead, readMembers_string string colon (ih (by omega) (by omega)), close]
    rfl
  | @member t r s r' s' rest name value members string colon one comma others ih ih' =>
    intro fuel room enough deep
    have shorter := length_of_readString string
    have shorter' := one.length
    have shorter'' := others.length
    have before := length_of_skip colon
    have inner := length_skip s
    have behind := length_of_skip comma
    have next := length_skip s'
    rw [List.length_cons] at enough deep
    obtain ⟨fuel, rfl⟩ := Nat.exists_eq_succ_of_ne_zero (n := fuel) (by omega)
    have members : readMembers fuel room (skip s') = .ok (members, rest) :=
      ih' (by omega) (by omega)
    rw [Part.IsRead, readMembers_string string colon (ih (by omega) (by omega)), comma]
    dsimp only
    rw [if_pos rfl, members]
    rfl

/-! ## Whole documents -/

theorem read_eq_ok_iff {t : Text} {document : Json} :
    read t = .ok document ↔ ∃ rest, Reads (skip t) (.value document) rest ∧ skip rest = [] := by
  have starts := length_skip t
  constructor
  · intro h
    obtain ⟨value, rest, first, last⟩ := Reading.of_bind h
    dsimp only at last
    split at last
    · rename_i nothing
      cases last
      exact ⟨rest, reads_of_isRead (.value document) first, nothing⟩
    · cases last
  · rintro ⟨rest, its, nothing⟩
    have first : readValue (2 * t.length + 2) t.length (skip t) = .ok (document, rest) :=
      its.isRead (by omega) (by omega)
    rw [read, readWithin, first]
    exact if_pos nothing

/-! ## Line ends -/

theorem skip_cons_space {c : CodePoint} (space : isSpace c = true) (t : Text) :
    skip (c :: t) = skip t :=
  List.dropWhile_cons_of_pos space

theorem skip_unifyNewlines (t : Text) : skip (unifyNewlines t) = unifyNewlines (skip t) := by
  -- Both ends of a line are spaces, so it does not matter how many of them one is read as.
  induction t using unifyNewlines.induct with
  | case1 => rfl
  | case2 => rfl
  | case3 s ih =>
    rw [unifyNewlines.eq_def]
    dsimp only
    rw [if_pos rfl, if_pos rfl, skip_cons_space rfl, skip_cons_space rfl, skip_cons_space rfl, ih]
  | case4 d s other ih =>
    rw [unifyNewlines.eq_def]
    dsimp only
    rw [if_pos rfl, if_neg other, skip_cons_space rfl, skip_cons_space rfl, ih]
  | case5 c r other ih =>
    cases space : isSpace c with
    | true => rw [unifyNewlines_cons other, skip_cons_space space, skip_cons_space space, ih]
    | false =>
      rw [unifyNewlines_cons other, skip_cons space, skip_cons space, unifyNewlines_cons other]

theorem skip_of_sameLines {t u : Text} (same : SameLines t u) : SameLines (skip t) (skip u) := by
  rw [SameLines, ← skip_unifyNewlines, ← skip_unifyNewlines, same]

/-- A sign that is not skipped ends no line. -/
theorem isInline_of_skip {t r : Text} {c : CodePoint} (h : skip t = c :: r) : c.IsInline := by
  have visible := List.head?_dropWhile_not isSpace t
  rw [← skip, h] at visible
  dsimp only [List.head?_cons] at visible
  refine ⟨?_, ?_⟩
  · rintro rfl
    cases visible
  · rintro rfl
    cases visible

theorem skip_cons_of_sameLines {t u r : Text} {c : CodePoint} (h : skip t = c :: r)
    (same : SameLines t u) : ∃ s, skip u = c :: s ∧ SameLines r s :=
  SameLines.cons (isInline_of_skip h) (h ▸ skip_of_sameLines same)

/-- The sign that is not skipped stands in both texts, and may be read again. -/
theorem skip_eq_cons_of_sameLines {t u r : Text} {c : CodePoint} (h : skip t = c :: r)
    (same : SameLines t u) : ∃ s, skip u = c :: s ∧ SameLines (c :: r) (c :: s) := by
  obtain ⟨s, first, -⟩ := skip_cons_of_sameLines h same
  exact ⟨s, first, h ▸ first ▸ skip_of_sameLines same⟩

/-- Texts that differ in the kind of their line ends begin with the same inline signs. -/
theorem ne_cons_of_sameLines {t u r : Text} {c d : CodePoint} (inline : d.IsInline)
    (other : c ≠ d) (same : SameLines (c :: t) u) : u ≠ d :: r := by
  rintro rfl
  obtain ⟨s, its, -⟩ := same.symm.cons inline
  exact other (List.cons.inj its).1

/-- The grammar does not tell apart texts that differ in the kind of their line ends. -/
theorem Reads.of_sameLines {t rest : Text} {part : Part} (h : Reads t part rest) :
    ∀ {u : Text}, SameLines t u → ∃ rest', Reads u part rest' ∧ SameLines rest rest' := by
  induction h with
  | text string =>
    intro u same
    obtain ⟨u, rfl, within⟩ := same.cons (by decide)
    obtain ⟨rest', string', behind⟩ := readString_of_sameLines string within
    exact ⟨rest', .text string', behind⟩
  | emptyList close =>
    intro u same
    obtain ⟨u, rfl, within⟩ := same.cons (by decide)
    obtain ⟨rest', close', behind⟩ := skip_cons_of_sameLines close within
    exact ⟨rest', .emptyList close', behind⟩
  | list first other _ ih =>
    intro u same
    obtain ⟨u, rfl, within⟩ := same.cons (by decide)
    obtain ⟨s', first', inner⟩ := skip_eq_cons_of_sameLines first within
    obtain ⟨rest', its, behind⟩ := ih inner
    exact ⟨rest', .list first' other its, behind⟩
  | emptyObject close =>
    intro u same
    obtain ⟨u, rfl, within⟩ := same.cons (by decide)
    obtain ⟨rest', close', behind⟩ := skip_cons_of_sameLines close within
    exact ⟨rest', .emptyObject close', behind⟩
  | object first other _ ih =>
    intro u same
    obtain ⟨u, rfl, within⟩ := same.cons (by decide)
    obtain ⟨s', first', inner⟩ := skip_eq_cons_of_sameLines first within
    obtain ⟨rest', its, behind⟩ := ih inner
    exact ⟨rest', .object first' other its, behind⟩
  | @scalar c r rest value quote bracket brace its =>
    intro u same
    obtain ⟨rest', its', behind⟩ := readScalar_of_sameLines its same
    cases u with
    | nil => cases its'
    | cons d s =>
      have apart {e : CodePoint} (inline : e.IsInline) (other : c ≠ e) : d ≠ e := by
        rintro rfl
        exact ne_cons_of_sameLines inline other same rfl
      exact ⟨rest', .scalar (apart (by decide) quote) (apart (by decide) bracket)
        (apart (by decide) brace) its', behind⟩
  | lastItem _ close ih =>
    intro u same
    obtain ⟨r', one, same⟩ := ih same
    obtain ⟨rest', close', behind⟩ := skip_cons_of_sameLines close same
    exact ⟨rest', .lastItem one close', behind⟩
  | item _ comma _ ih ih' =>
    intro u same
    obtain ⟨r', one, same⟩ := ih same
    obtain ⟨s', comma', same⟩ := skip_cons_of_sameLines comma same
    obtain ⟨rest', others, behind⟩ := ih' (skip_of_sameLines same)
    exact ⟨rest', .item one comma' others, behind⟩
  | lastMember string colon _ close ih =>
    intro u same
    obtain ⟨u, rfl, within⟩ := same.cons (by decide)
    obtain ⟨r', string', same⟩ := readString_of_sameLines string within
    obtain ⟨s', colon', same⟩ := skip_cons_of_sameLines colon same
    obtain ⟨r'', one, same⟩ := ih (skip_of_sameLines same)
    obtain ⟨rest', close', behind⟩ := skip_cons_of_sameLines close same
    exact ⟨rest', .lastMember string' colon' one close', behind⟩
  | member string colon _ comma _ ih ih' =>
    intro u same
    obtain ⟨u, rfl, within⟩ := same.cons (by decide)
    obtain ⟨r', string', same⟩ := readString_of_sameLines string within
    obtain ⟨s', colon', same⟩ := skip_cons_of_sameLines colon same
    obtain ⟨r'', one, same⟩ := ih (skip_of_sameLines same)
    obtain ⟨s'', comma', same⟩ := skip_cons_of_sameLines comma same
    obtain ⟨rest', others, behind⟩ := ih' (skip_of_sameLines same)
    exact ⟨rest', .member string' colon' one comma' others, behind⟩

theorem read_of_sameLines {t u : Text} {document : Json} (same : SameLines t u)
    (h : read t = .ok document) : read u = .ok document := by
  obtain ⟨rest, its, nothing⟩ := read_eq_ok_iff.1 h
  obtain ⟨rest', its', behind⟩ := its.of_sameLines (skip_of_sameLines same)
  have nothing' := nothing ▸ skip_of_sameLines behind
  exact read_eq_ok_iff.2 ⟨rest', its', nothing'.eq_nil⟩

end GatedConsole.Json
