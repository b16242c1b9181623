import GatedConsole.Proofs.Json.Numbers
import GatedConsole.Proofs.Json.Strings

/-!
Documents there and back: the reader undoes the layout of the writer, level by level. Main
statement: a document without floats, split pairs of surrogates and overlong numerals is read as it
was written.
-/

set_option autoImplicit false
set_option relaxedAutoImplicit false

namespace GatedConsole.Json

mutual

/-- No floats, no split pairs of surrogates, and no numeral that is refused. -/
def Regular : Json → Prop
  | .null => True
  | .bool _ => True
  | .int i => (Text.ofNat i.natAbs).length ≤ Text.numeralLimit
  | .float _ => False
  | .text t => Unsplit t
  | .list items => RegularItems items
  | .object members => RegularMembers members

def RegularItems : List Json → Prop
  | [] => True
  | item :: items => Regular item ∧ RegularItems items

def RegularMembers : List (Text × Json) → Prop
  | [] => True
  | (name, value) :: members =>
    Unsplit name ∧ Regular value ∧ RegularMembers members

end

mutual

/-- The fuel that reading a document takes. -/
def cost : Json → Nat
  | .list items => 1 + costItems items
  | .object members => 1 + costMembers members
  | .null | .bool _ | .int _ | .float _ | .text _ => 1

def costItems : List Json → Nat
  | [] => 0
  | item :: items => 1 + cost item + costItems items

def costMembers : List (Text × Json) → Nat
  | [] => 0
  | (_, value) :: members => 1 + cost value + costMembers members

end

mutual

/-- How deep lists and objects are nested. -/
def nest : Json → Nat
  | .list items => 1 + nestItems items
  | .object members => 1 + nestMembers members
  | .null | .bool _ | .int _ | .float _ | .text _ => 0

def nestItems : List Json → Nat
  | [] => 0
  | item :: items => max (nest item) (nestItems items)

def nestMembers : List (Text × Json) → Nat
  | [] => 0
  | (_, value) :: members => max (nest value) (nestMembers members)

end

theorem regularItems_iff {items : List Json} :
    RegularItems items ↔ ∀ item ∈ items, Regular item := by
  induction items with
  | nil => simp [RegularItems]
  | cons item items ih => rw [RegularItems, ih, List.forall_mem_cons]

theorem regularMembers_iff {members : List (Text × Json)} :
    RegularMembers members ↔ ∀ member ∈ members, Unsplit member.1 ∧ Regular member.2 := by
  induction members with
  | nil => simp [RegularMembers]
  | cons member members ih => rw [RegularMembers, ih, List.forall_mem_cons, and_assoc]

theorem nestMembers_le_iff {members : List (Text × Json)} {depth : Nat} :
    nestMembers members ≤ depth ↔ ∀ member ∈ members, nest member.2 ≤ depth := by
  induction members with
  | nil => simp [nestMembers]
  | cons member members ih => rw [nestMembers, Nat.max_le, ih, List.forall_mem_cons]

/-! ## Layout -/

theorem skip_newline (level : Nat) (t : Text) : skip (newline level ++ t) = skip t := by
  apply List.dropWhile_append_of_pos
  intro c mem
  rcases List.mem_append.1 mem with mem | mem
  · rw [List.mem_singleton.1 mem]
    rfl
  · rw [(List.mem_replicate.1 mem).2]
    rfl

theorem skip_cons {c : CodePoint} (visible : isSpace c = false) (t : Text) :
    skip (c :: t) = c :: t :=
  List.dropWhile_cons_of_neg (by rw [visible]; exact Bool.false_ne_true)

theorem isSpace_of_digit {c : CodePoint} (digit : c.isAsciiDigit = true) : isSpace c = false := by
  rw [← Bool.not_eq_true]
  intro space
  simp only [isSpace, Bool.or_eq_true, decide_eq_true_eq] at space
  rcases space with ((rfl | rfl) | rfl) | rfl <;> cases digit

/-- The sign that a value begins with. -/
structure Opens (c : CodePoint) : Prop where
  visible : isSpace c = false
  no_bracket : c ≠ CodePoint.ofChar ']'

theorem opens_writeAt {document : Json} (regular : document.Regular) (level : Nat) :
    ∃ c r, writeAt level document = c :: r ∧ Opens c := by
  cases document with
  | null => exact ⟨'n', "ull", rfl, by decide, by decide⟩
  | bool b =>
    cases b with
    | false => exact ⟨'f', "alse", rfl, by decide, by decide⟩
    | true => exact ⟨'t', "rue", rfl, by decide, by decide⟩
  | int i =>
    obtain ⟨c, r, head, rfl | digit⟩ := ofInt_eq_cons i
    · exact ⟨_, r, head, by decide, by decide⟩
    · refine ⟨c, r, head, isSpace_of_digit digit, ?_⟩
      rintro rfl
      cases digit
  | float x => exact regular.elim
  | text t => exact ⟨'"', _, rfl, by decide, by decide⟩
  | list items =>
    cases items with
    | nil => exact ⟨'[', _, rfl, by decide, by decide⟩
    | cons item items =>
      simp only [writeAt, List.append_assoc]
      exact ⟨'[', _, rfl, by decide, by decide⟩
  | object members =>
    cases members with
    | nil => exact ⟨'\x7b', _, rfl, by decide, by decide⟩
    | cons member members =>
      simp only [writeAt, List.append_assoc]
      exact ⟨'\x7b', _, rfl, by decide, by decide⟩

/-! ## Readings -/

section Readings

variable {fuel room : Nat} {rest r : Text} {c d : CodePoint}

theorem readValue_scalar (quote : c ≠ CodePoint.ofChar '"') (bracket : c ≠ CodePoint.ofChar '[')
    (brace : c ≠ CodePoint.ofChar '\x7b') :
    readValue (fuel + 1) room (c :: r) = readScalar (c :: r) := by
  rw [readValue.eq_def]
  dsimp only
  rw [if_neg quote, if_neg bracket, if_neg brace]

theorem readValue_text {t : Text} (unsplit : Unsplit t) :
    readValue (fuel + 1) room (writeText t ++ rest) = .ok (.text t, rest) := by
  have parts : writeText t ++ rest =
      CodePoint.ofChar '"' :: (t.flatMap escaped ++ CodePoint.ofChar '"' :: rest) := by
    simp only [writeText, List.append_assoc]
    rfl
  rw [parts, readValue.eq_def]
  dsimp only
  rw [if_pos rfl, readString_flatMap, unsplit]
  rfl

theorem readValue_list (first : skip r = d :: rest) (other : d ≠ CodePoint.ofChar ']') :
    readValue (fuel + 1) (room + 1) (CodePoint.ofChar '[' :: r) =
      (readItems fuel room (d :: rest)).map fun (items, rest) => (.list items, rest) := by
  rw [readValue.eq_def]
  dsimp only
  rw [if_neg (by decide), if_pos rfl, first]
  dsimp only
  rw [if_neg other]

theorem readValue_object (first : skip r = d :: rest) (other : d ≠ CodePoint.ofChar '\x7d') :
    readValue (fuel + 1) (room + 1) (CodePoint.ofChar '\x7b' :: r) =
      (readMembers fuel room (d :: rest)).map fun (members, rest) => (.object members, rest) := by
  rw [readValue.eq_def]
  dsimp only
  rw [if_neg (by decide), if_neg (by decide), if_pos rfl, first]
  dsimp only
  rw [if_neg other]

theorem readItems_last {t : Text} {item : Json} (one : readValue fuel room t = .ok (item, r))
    (next : skip r = CodePoint.ofChar ']' :: rest) :
    readItems (fuel + 1) room t = .ok ([item], rest) := by
  rw [readItems, one]
  simp only [Except.bind, bind, next]
  rfl

theorem readItems_more {t : Text} {item : Json} (one : readValue fuel room t = .ok (item, r))
    (next : skip r = CodePoint.ofChar ',' :: rest) :
    readItems (fuel + 1) room t =
      (readItems fuel room (skip rest)).map fun (items, rest) => (item :: items, rest) := by
  rw [readItems, one]
  simp only [Except.bind, bind, next]
  rfl

/-- A member as far as its value. -/
private theorem readMembers_value {name : Text} (unsplit : Unsplit name)
    (visible : isSpace c = false) :
    readMembers (fuel + 1) room (writeText name ++ ": " ++ c :: r) =
      (readValue fuel room (c :: r)).bind fun reading =>
        match skip reading.2 with
        | d :: s =>
          if d = CodePoint.ofChar ',' then
            (readMembers fuel room (skip s)).map fun (members, rest) =>
              ((name, reading.1) :: members, rest)
          else if d = CodePoint.ofChar '\x7d' then .ok ([(name, reading.1)], s)
          else .error .malformed
        | [] => .error .malformed := by
  have parts : writeText name ++ ": " ++ c :: r = CodePoint.ofChar '"' ::
      (name.flatMap escaped ++ CodePoint.ofChar '"' ::
        CodePoint.ofChar ':' :: CodePoint.ofChar ' ' :: c :: r) := by
    simp only [writeText, List.append_assoc]
    rfl
  have blank : skip (CodePoint.ofChar ' ' :: c :: r) = c :: r := skip_cons visible r
  rw [parts, readMembers, if_neg (not_not_intro rfl), readString_flatMap, unsplit]
  conv => rhs; rw [← blank]
  rfl

theorem readMembers_last {name : Text} {value : Json} {s : Text}
    (unsplit : Unsplit name) (visible : isSpace c = false)
    (one : readValue fuel room (c :: r) = .ok (value, s))
    (next : skip s = CodePoint.ofChar '\x7d' :: rest) :
    readMembers (fuel + 1) room (writeText name ++ ": " ++ c :: r) =
      .ok ([(name, value)], rest) := by
  rw [readMembers_value unsplit visible, one]
  simp only [Except.bind, next]
  rfl

theorem readMembers_more {name : Text} {value : Json} {s : Text}
    (unsplit : Unsplit name) (visible : isSpace c = false)
    (one : readValue fuel room (c :: r) = .ok (value, s))
    (next : skip s = CodePoint.ofChar ',' :: rest) :
    readMembers (fuel + 1) room (writeText name ++ ": " ++ c :: r) =
      (readMembers fuel room (skip rest)).map fun (members, rest) =>
        ((name, value) :: members, rest) := by
  rw [readMembers_value unsplit visible, one]
  simp only [Except.bind, next]
  rfl

end Readings

/-! ## Lists and objects -/

/-- The items of a list, between their brackets. -/
def itemsText (level : Nat) : List Json → Text
  | [] => []
  | item :: items => writeAt level item ++ writeItems level items

/-- The members of an object, between their braces. -/
def membersText (level : Nat) : List (Text × Json) → Text
  | [] => []
  | (name, value) :: members =>
    writeText name ++ ": " ++ writeAt level value ++ writeMembers level members

theorem writeAt_list (level : Nat) {items : List Json} (some_item : items ≠ []) (rest : Text) :
    writeAt level (.list items) ++ rest = CodePoint.ofChar '[' :: (newline (level + 1) ++
      (itemsText (level + 1) items ++ (newline level ++ CodePoint.ofChar ']' :: rest))) := by
  cases items with
  | nil => exact absurd rfl some_item
  | cons item items =>
    simp only [writeAt, itemsText, List.append_assoc]
    rfl

theorem writeAt_object (level : Nat) {members : List (Text × Json)} (some_member : members ≠ [])
    (rest : Text) :
    writeAt level (.object members) ++ rest = CodePoint.ofChar '\x7b' :: (newline (level + 1) ++
      (membersText (level + 1) members ++
        (newline level ++ CodePoint.ofChar '\x7d' :: rest))) := by
  cases members with
  | nil => exact absurd rfl some_member
  | cons member members =>
    simp only [writeAt, membersText, List.append_assoc]
    rfl

theorem writeItems_cons (level : Nat) (item : Json) (items : List Json) :
    writeItems level (item :: items) =
      CodePoint.ofChar ',' :: (newline level ++ itemsText level (item :: items)) := by
  simp only [writeItems, itemsText, List.append_assoc]
  rfl

theorem writeMembers_cons (level : Nat) (member : Text × Json) (members : List (Text × Json)) :
    writeMembers level (member :: members) =
      CodePoint.ofChar ',' :: (newline level ++ membersText level (member :: members)) := by
  simp only [writeMembers, membersText, List.append_assoc]
  rfl

theorem stops_newline_append (level : Nat) (t : Text) : Stops (newline level ++ t) :=
  stops_newline _

theorem skip_itemsText (level : Nat) {items : List Json} (regular : RegularItems items)
    (some_item : items ≠ []) (rest : Text) :
    ∃ c r, itemsText level items ++ rest = c :: r ∧ skip (itemsText level items ++ rest) = c :: r ∧
      c ≠ CodePoint.ofChar ']' := by
  cases items with
  | nil => exact absurd rfl some_item
  | cons item items =>
    obtain ⟨c, r, head, opens⟩ := opens_writeAt regular.1 level
    refine ⟨c, r ++ writeItems level items ++ rest, ?_, ?_, opens.no_bracket⟩
    · simp [itemsText, head]
    · simp [itemsText, head, skip_cons opens.visible]

theorem skip_membersText (level : Nat) {members : List (Text × Json)} (some_member : members ≠ [])
    (rest : Text) :
    ∃ r, membersText level members ++ rest = CodePoint.ofChar '"' :: r ∧
      skip (membersText level members ++ rest) = CodePoint.ofChar '"' :: r := by
  cases members with
  | nil => exact absurd rfl some_member
  | cons member members =>
    have first : membersText level (member :: members) ++ rest =
        CodePoint.ofChar '"' :: (member.1.flatMap escaped ++ ("\"" ++ (": " ++
          (writeAt level member.2 ++ (writeMembers level members ++ rest))))) := by
      simp only [membersText, writeText, List.append_assoc]
      rfl
    exact ⟨_, first, first ▸ skip_cons (by decide) _⟩

theorem cost_pos (document : Json) : 0 < cost document := by
  cases document <;> simp only [cost] <;> omega

mutual

theorem readValue_writeAt (level : Nat) : ∀ (document : Json) (fuel room : Nat) (rest : Text),
    document.Regular → cost document ≤ fuel → nest document ≤ room → Stops rest →
      readValue fuel room (writeAt level document ++ rest) = .ok (document, rest)
  | document, 0, _, _, _, enough, _, _ => absurd (cost_pos document) (by omega)
  | .null, fuel + 1, room, rest, _, _, _, _ =>
    readValue_scalar (c := 'n') (r := "ull" ++ rest) (by decide) (by decide) (by decide)
  | .bool true, fuel + 1, room, rest, _, _, _, _ =>
    readValue_scalar (c := 't') (r := "rue" ++ rest) (by decide) (by decide) (by decide)
  | .bool false, fuel + 1, room, rest, _, _, _, _ =>
    readValue_scalar (c := 'f') (r := "alse" ++ rest) (by decide) (by decide) (by decide)
  | .int i, fuel + 1, room, rest, short, _, _, stops => by
    obtain ⟨c, r, head, sign⟩ := ofInt_eq_cons i
    have apart (d : CodePoint) (other : d ≠ CodePoint.ofChar '-')
        (no_digit : d.isAsciiDigit = false) : c ≠ d := by
      rintro rfl
      rcases sign with same | digit
      · exact other same
      · rw [digit] at no_digit
        cases no_digit
    rw [writeAt, head, List.cons_append, readValue_scalar (apart _ (by decide) (by decide))
      (apart _ (by decide) (by decide)) (apart _ (by decide) (by decide)), ← List.cons_append,
      ← head]
    exact readScalar_ofInt stops short
  | .float _, _, _, _, regular, _, _, _ => regular.elim
  | .text t, fuel + 1, room, rest, unsplit, _, _, _ => readValue_text unsplit
  | .list [], fuel + 1, 0, rest, _, _, deep, _ => by
    simp [nest] at deep
  | .list [], fuel + 1, room + 1, rest, _, _, _, _ => by
    rw [readValue.eq_def]
    rfl
  | .list (item :: items), fuel + 1, 0, rest, _, _, deep, _ => by
    simp [nest] at deep
  | .list (item :: items), fuel + 1, room + 1, rest, regular, enough, deep, _ => by
    simp only [cost, nest] at enough deep
    obtain ⟨c, r, whole, first, other⟩ := skip_itemsText (level + 1) regular
      (List.cons_ne_nil item items)
      (newline level ++ CodePoint.ofChar ']' :: rest)
    rw [writeAt_list level (List.cons_ne_nil item items),
      readValue_list ((skip_newline _ _).trans first) other, ← whole,
      readItems_itemsText (level + 1) level (item :: items) fuel room rest
        (List.cons_ne_nil item items) regular (by omega) (by omega)]
    rfl
  | .object [], fuel + 1, 0, rest, _, _, deep, _ => by
    simp [nest] at deep
  | .object [], fuel + 1, room + 1, rest, _, _, _, _ => by
    rw [readValue.eq_def]
    rfl
  | .object (member :: members), fuel + 1, 0, rest, _, _, deep, _ => by
    simp [nest] at deep
  | .object (member :: members), fuel + 1, room + 1, rest, regular, enough, deep, _ => by
    simp only [cost, nest] at enough deep
    obtain ⟨r, whole, first⟩ := skip_membersText (level + 1)
      (List.cons_ne_nil member members) (newline level ++ CodePoint.ofChar '\x7d' :: rest)
    rw [writeAt_object level (List.cons_ne_nil member members),
      readValue_object ((skip_newline _ _).trans first) (by decide), ← whole,
      readMembers_membersText (level + 1) level (member :: members) fuel room rest
        (List.cons_ne_nil member members) regular (by omega) (by omega)]
    rfl

theorem readItems_itemsText (level outer : Nat) :
    ∀ (items : List Json) (fuel room : Nat) (rest : Text), items ≠ [] → RegularItems items →
      costItems items ≤ fuel → nestItems items ≤ room →
        readItems fuel room
            (itemsText level items ++ (newline outer ++ CodePoint.ofChar ']' :: rest)) =
          .ok (items, rest)
  | [], _, _, _, some_item, _, _, _ => absurd rfl some_item
  | item :: items, 0, _, _, _, _, enough, _ => by
    simp only [costItems] at enough
    omega
  | [item], fuel + 1, room, rest, _, regular, enough, deep => by
    simp only [costItems, nestItems] at enough deep
    rw [itemsText, writeItems, List.append_nil]
    exact readItems_last (readValue_writeAt level item fuel room _ regular.1 (by omega) (by omega)
      (stops_newline_append outer _)) (skip_newline outer _)
  | item :: next :: items, fuel + 1, room, rest, _, regular, enough, deep => by
    simp only [costItems] at enough
    simp only [nestItems] at deep
    obtain ⟨c, r, whole, first, -⟩ := skip_itemsText level regular.2
      (List.cons_ne_nil next items) (newline outer ++ CodePoint.ofChar ']' :: rest)
    rw [itemsText, writeItems_cons, List.append_assoc, List.cons_append, List.append_assoc]
    rw [readItems_more (readValue_writeAt level item fuel room _ regular.1 (by omega) (by omega)
      (stops_comma _)) (skip_cons (by decide) _), skip_newline, first, ← whole,
      readItems_itemsText level outer (next :: items) fuel room rest
        (List.cons_ne_nil next items) regular.2 (by simp only [costItems]; omega)
        (by simp only [nestItems]; omega)]
    rfl

theorem readMembers_membersText (level outer : Nat) :
    ∀ (members : List (Text × Json)) (fuel room : Nat) (rest : Text), members ≠ [] →
      RegularMembers members → costMembers members ≤ fuel → nestMembers members ≤ room →
        readMembers fuel room
            (membersText level members ++ (newline outer ++ CodePoint.ofChar '\x7d' :: rest)) =
          .ok (members, rest)
  | [], _, _, _, some_member, _, _, _ => absurd rfl some_member
  | member :: members, 0, _, _, _, _, enough, _ => by
    simp only [costMembers] at enough
    omega
  | [(name, value)], fuel + 1, room, rest, _, regular, enough, deep => by
    simp only [costMembers, nestMembers] at enough deep
    obtain ⟨c, r, head, opens⟩ := opens_writeAt regular.2.1 level
    have one := readValue_writeAt level value fuel room (newline outer ++ CodePoint.ofChar '\x7d' ::
      rest) regular.2.1 (by omega) (by omega) (stops_newline_append outer _)
    rw [membersText, writeMembers, List.append_nil, List.append_assoc]
    rw [head, List.cons_append] at one ⊢
    exact readMembers_last regular.1 opens.visible one (skip_newline outer _)
  | (name, value) :: next :: members, fuel + 1, room, rest, _, regular, enough, deep => by
    simp only [costMembers] at enough
    simp only [nestMembers] at deep
    obtain ⟨c, r, head, opens⟩ := opens_writeAt regular.2.1 level
    obtain ⟨s, whole, first⟩ := skip_membersText level
      (List.cons_ne_nil next members) (newline outer ++ CodePoint.ofChar '\x7d' :: rest)
    have one := readValue_writeAt level value fuel room (CodePoint.ofChar ',' :: (newline level ++
      (membersText level (next :: members) ++ (newline outer ++ CodePoint.ofChar '\x7d' :: rest))))
      regular.2.1 (by omega) (by omega) (stops_comma _)
    rw [head, List.cons_append] at one
    have layout : membersText level ((name, value) :: next :: members) ++
        (newline outer ++ CodePoint.ofChar '\x7d' :: rest) =
        writeText name ++ ": " ++ c :: (r ++ CodePoint.ofChar ',' :: (newline level ++
          (membersText level (next :: members) ++
            (newline outer ++ CodePoint.ofChar '\x7d' :: rest)))) := by
      rw [membersText, writeMembers_cons, head]
      simp only [List.append_assoc, List.cons_append]
    rw [layout, readMembers_more regular.1 opens.visible one (skip_cons (by decide) _),
      skip_newline, first, ← whole,
      readMembers_membersText level outer (next :: members) fuel room rest
        (List.cons_ne_nil next members) regular.2.2 (by simp only [costMembers]; omega)
        (by simp only [nestMembers]; omega)]
    rfl

end

/-! ## Fuel and room -/

mutual

theorem nest_le_cost : ∀ document : Json, nest document ≤ cost document
  | .null | .bool _ | .int _ | .float _ | .text _ => by simp only [nest, cost]; omega
  | .list items => Nat.add_le_add_left (nestItems_le_costItems items) 1
  | .object members => Nat.add_le_add_left (nestMembers_le_costMembers members) 1

theorem nestItems_le_costItems : ∀ items : List Json, nestItems items ≤ costItems items
  | [] => Nat.le_refl 0
  | item :: items => by
    have first := nest_le_cost item
    have others := nestItems_le_costItems items
    simp only [nestItems, costItems]
    omega

theorem nestMembers_le_costMembers :
    ∀ members : List (Text × Json), nestMembers members ≤ costMembers members
  | [] => Nat.le_refl 0
  | (_, value) :: members => by
    have first := nest_le_cost value
    have others := nestMembers_le_costMembers members
    simp only [nestMembers, costMembers]
    omega

end

mutual

theorem cost_le_length (level : Nat) : ∀ document : Json, document.Regular →
    cost document ≤ (writeAt level document).length
  | .null, _ | .bool true, _ | .bool false, _ => by simp only [cost, writeAt]; decide
  | .int i, _ => by
    obtain ⟨c, r, head, -⟩ := ofInt_eq_cons i
    simp [cost, writeAt, head]
  | .float _, regular => regular.elim
  | .text t, _ => by simp [cost, writeAt, writeText, Text.ofString]
  | .list [], _ => by simp [cost, costItems, writeAt, Text.ofString]
  | .list (item :: items), regular => by
    have first := cost_le_length (level + 1) item regular.1
    have others := costItems_le_length (level + 1) items regular.2
    have layout := congrArg List.length (writeAt_list level (List.cons_ne_nil item items) [])
    simp only [itemsText, List.append_nil, List.length_append, List.length_cons] at layout
    simp only [cost, costItems]
    omega
  | .object [], _ => by simp [cost, costMembers, writeAt, Text.ofString]
  | .object (member :: members), regular => by
    have first := cost_le_length (level + 1) member.2 regular.2.1
    have others := costMembers_le_length (level + 1) members regular.2.2
    have layout := congrArg List.length (writeAt_object level (List.cons_ne_nil member members) [])
    simp only [membersText, List.append_nil, List.length_append, List.length_cons] at layout
    simp only [cost, costMembers]
    omega

theorem costItems_le_length (level : Nat) : ∀ items : List Json, RegularItems items →
    costItems items ≤ (writeItems level items).length
  | [], _ => Nat.le_refl 0
  | item :: items, regular => by
    have first := cost_le_length level item regular.1
    have others := costItems_le_length level items regular.2
    have layout := congrArg List.length (writeItems_cons level item items)
    simp only [itemsText, List.length_append, List.length_cons] at layout
    simp only [costItems]
    omega

theorem costMembers_le_length (level : Nat) : ∀ members : List (Text × Json),
    RegularMembers members → costMembers members ≤ (writeMembers level members).length
  | [], _ => Nat.le_refl 0
  | (name, value) :: members, regular => by
    have first := cost_le_length level value regular.2.1
    have others := costMembers_le_length level members regular.2.2
    have layout := congrArg List.length (writeMembers_cons level (name, value) members)
    simp only [membersText, List.length_append, List.length_cons] at layout
    simp only [costMembers]
    omega

end

/-- A document that is nested no deeper than there is room is read as it was written. -/
theorem readWithin_write {document : Json} (regular : document.Regular) {room : Nat}
    (deep : nest document ≤ room) : readWithin room document.write = .ok document := by
  have long := cost_le_length 0 document regular
  obtain ⟨c, r, head, opens⟩ := opens_writeAt regular 0
  have start : skip document.write = document.write := by
    rw [write, head, skip_cons opens.visible]
  have all := readValue_writeAt 0 document (2 * document.write.length + 2) room [] regular
    (by rw [write]; omega) deep stops_nil
  rw [List.append_nil, ← write] at all
  rw [readWithin, start, all]
  rfl

/-- A document without floats, split pairs of surrogates and overlong numerals is read as it was
written. -/
theorem read_write {document : Json} (regular : document.Regular) :
    read document.write = .ok document :=
  readWithin_write regular
    (Nat.le_trans (nest_le_cost document) (cost_le_length 0 document regular))

end GatedConsole.Json
