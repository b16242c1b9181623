import GatedConsole.Proofs.Macro.Media

/-!
Surrogates in kept macros. The written book has every surrogate as an escape, and the reader takes
two escapes that make a pair as one sign and refuses the whole book for any other. Main statement:
after a definition that was reported as saved, opening the store again finds the joined book, or an
empty one as soon as one surrogate of one name or command has no partner.
-/

set_option autoImplicit false
set_option relaxedAutoImplicit false

namespace GatedConsole

open Json

namespace MacroBook

/-- The entries with every split pair of surrogates joined. -/
def joined (entries : List (Text × List Text)) : List (Text × List Text) :=
  entries.map fun (name, commands) => (joinPairs name, commands.map joinPairs)

/-- Every surrogate in a name or a command has its partner. -/
def Paired (book : MacroBook) : Prop :=
  ∀ entry ∈ book.entries, isScalarText (joinPairs entry.1) = true ∧
    ∀ command ∈ entry.2, isScalarText (joinPairs command) = true

instance (book : MacroBook) : Decidable book.Paired :=
  inferInstanceAs (Decidable (∀ entry ∈ book.entries, _ ∧ _))

theorem joinPairs_of_isScalarText {t : Text} (scalar : isScalarText t = true) : joinPairs t = t :=
  unsplit_of_scalar (isScalarText_iff.1 scalar)

/-! ## Joining does not change what is written -/

private theorem writeItems_joinedTexts (level : Nat) (commands : List Text) :
    writeItems level ((commands.map joinPairs).map .text) =
      writeItems level (commands.map .text) := by
  induction commands with
  | nil => rfl
  | cons command commands ih =>
    simp only [List.map_cons, writeItems, writeAt, writeText_joinPairs, ih]

private theorem writeAt_joinedTexts (level : Nat) (commands : List Text) :
    writeAt level (.list ((commands.map joinPairs).map .text)) =
      writeAt level (.list (commands.map .text)) := by
  cases commands with
  | nil => rfl
  | cons command commands =>
    simp only [List.map_cons, writeAt, writeText_joinPairs, writeItems_joinedTexts]

private theorem writeMembers_joined (level : Nat) (entries : List (Text × List Text)) :
    writeMembers level ((joined entries).map fun (name, commands) =>
        (name, .list (commands.map .text))) =
      writeMembers level (entries.map fun (name, commands) =>
        (name, .list (commands.map .text))) := by
  induction entries with
  | nil => rfl
  | cons entry entries ih =>
    rw [joined] at ih
    simp only [joined, List.map_cons, writeMembers, writeText_joinPairs, writeAt_joinedTexts, ih]

theorem write_jsonOf_joined (entries : List (Text × List Text)) :
    Json.write (jsonOf (joined entries)) = Json.write (jsonOf entries) := by
  cases entries with
  | nil => rfl
  | cons entry entries =>
    have behind := writeMembers_joined 1 entries
    rw [joined] at behind
    simp only [joined, jsonOf, Json.write, List.map_cons, writeAt, writeText_joinPairs,
      writeAt_joinedTexts, behind]

/-! ## What is read -/

private theorem scalar_of_commands_read {commands read : List Text}
    (h : (commands.map Json.text).mapM command? = some read) :
    ∀ command ∈ commands, isScalarText command = true := by
  induction commands generalizing read with
  | nil => exact nofun
  | cons command commands ih =>
    simp only [List.map_cons, List.mapM_cons, Option.bind_eq_bind, Option.bind_eq_some_iff] at h
    obtain ⟨one, here, others, there, -⟩ := h
    refine List.forall_mem_cons.2 ⟨?_, ih there⟩
    by_contra spoilt
    rw [command?, if_neg spoilt] at here
    cases here

private theorem scalar_of_entries_read {entries read : List (Text × List Text)}
    (h : (entries.map fun (name, commands) => (name, Json.list (commands.map .text))).mapM entry? =
      some read) :
    ∀ entry ∈ entries, isScalarText entry.1 = true ∧
      ∀ command ∈ entry.2, isScalarText command = true := by
  induction entries generalizing read with
  | nil => exact nofun
  | cons entry entries ih =>
    simp only [List.map_cons, List.mapM_cons, Option.bind_eq_bind, Option.bind_eq_some_iff] at h
    obtain ⟨one, here, others, there, -⟩ := h
    refine List.forall_mem_cons.2 ⟨?_, ih there⟩
    have name : isScalarText entry.1 = true := by
      by_contra spoilt
      unfold entry? at here
      rw [if_neg spoilt] at here
      cases here
    unfold entry? at here
    rw [if_pos name] at here
    obtain ⟨commands, taken, -⟩ := Option.map_eq_some_iff.1 here
    exact ⟨name, scalar_of_commands_read taken⟩

theorem read?_write_eq_ofJson? (book : MacroBook) :
    read? book.write = ofJson? (jsonOf (joined book.entries)) := by
  have plain : isScalarText book.write = true :=
    isScalarText_iff.2 (Json.isPlain_write book.toJson).scalar
  have regular : (jsonOf (joined book.entries)).Regular := by
    apply regular_jsonOf
    intro entry mem
    obtain ⟨source, _, rfl⟩ := List.mem_map.1 mem
    refine ⟨unsplit_joinPairs _, ?_⟩
    intro command among
    obtain ⟨t, _, rfl⟩ := List.mem_map.1 among
    exact unsplit_joinPairs t
  have text : book.write = Json.write (jsonOf (joined book.entries)) :=
    (write_jsonOf_joined book.entries).symm
  rw [read?, if_pos plain, text, read_write regular]

theorem paired_iff_joined (book : MacroBook) :
    book.Paired ↔ ∀ entry ∈ joined book.entries, isScalarText entry.1 = true ∧
      ∀ command ∈ entry.2, isScalarText command = true := by
  simp only [Paired, joined, List.forall_mem_map]

/-- A book whose surrogates have their partners is read as the joined book. -/
theorem Paired.read?_write {book : MacroBook} (paired : book.Paired) :
    ∃ again, read? book.write = some again ∧
      again.entries = Keyed.ofEntries (joined book.entries) := by
  have filled : ∀ entry ∈ Keyed.ofEntries (joined book.entries), entry.2 ≠ [] := by
    intro entry mem
    obtain ⟨source, among, rfl⟩ := List.mem_map.1 (Keyed.mem_of_mem_ofEntries mem)
    exact fun empty => book.commands_ne_nil source among (List.map_eq_nil_iff.1 empty)
  refine ⟨⟨_, Keyed.nodup_keys_ofEntries _, filled⟩, ?_, rfl⟩
  rw [read?_write_eq_ofJson?, jsonOf, ofJson?, mapM_entry? ((paired_iff_joined book).1 paired),
    Option.bind_some, ofEntries?, dif_pos filled]

/-- A single surrogate without its partner, and the whole book is refused. -/
theorem read?_write_of_not_paired {book : MacroBook} (spoilt : ¬ book.Paired) :
    read? book.write = none := by
  rw [read?_write_eq_ofJson?, jsonOf, ofJson?]
  cases taken : (joined book.entries |>.map fun (name, commands) =>
      (name, Json.list (commands.map .text))).mapM entry? with
  | none => rfl
  | some read => exact absurd ((paired_iff_joined book).2 (scalar_of_entries_read taken)) spoilt

/-- The names of the book that is read are the joined names. -/
theorem mem_names_joined {book again : MacroBook}
    (read : again.entries = Keyed.ofEntries (joined book.entries)) (name : Text) :
    name ∈ again.names ↔ ∃ source ∈ book.names, joinPairs source = name := by
  have keys : (joined book.entries).map (·.1) = book.names.map joinPairs := by
    rw [joined, names, Keyed.keys, List.map_map, List.map_map]
    rfl
  rw [names, read, Keyed.keys_ofEntries, List.mem_eraseDups, keys, List.mem_map]

/-- A name without surrogates, and commands in which every surrogate has its partner. -/
def Sound (entry : Text × List Text) : Prop :=
  isScalarText entry.1 = true ∧ ∀ command ∈ entry.2, isScalarText (joinPairs command) = true

/-- All names are found again exactly if none of them holds a surrogate. -/
theorem Paired.contains_iff_sound {book again : MacroBook} (paired : book.Paired)
    (read : again.entries = Keyed.ofEntries (joined book.entries)) :
    (∀ name ∈ book.names, again.contains name = true) ↔ ∀ entry ∈ book.entries, Sound entry := by
  constructor
  · intro found entry mem
    have known : entry.1 ∈ book.names := List.mem_map_of_mem mem
    obtain ⟨source, there, same⟩ :=
      (mem_names_joined read _).1 ((again.contains_iff _).1 (found _ known))
    obtain ⟨other, among, rfl⟩ := List.mem_map.1 there
    refine ⟨?_, (paired entry mem).2⟩
    rw [← same]
    exact (paired other among).1
  · intro sound name known
    obtain ⟨entry, mem, rfl⟩ := List.mem_map.1 known
    exact (again.contains_iff _).2 ((mem_names_joined read _).2
      ⟨entry.1, known, joinPairs_of_isScalarText (sound entry mem).1⟩)

theorem paired_of_sound {book : MacroBook} (sound : ∀ entry ∈ book.entries, Sound entry) :
    book.Paired := by
  intro entry mem
  refine ⟨?_, (sound entry mem).2⟩
  rw [joinPairs_of_isScalarText (sound entry mem).1]
  exact (sound entry mem).1

theorem Scalar.sound {book : MacroBook} (scalar : book.Scalar) :
    ∀ entry ∈ book.entries, Sound entry := by
  intro entry mem
  refine ⟨(scalar entry mem).1, ?_⟩
  intro command among
  have clean := (scalar entry mem).2 command among
  rwa [joinPairs_of_isScalarText clean]

end MacroBook

namespace Macros

variable {macros after : Macros}

/-- One definition after the other, whatever the answers are. -/
def defineAll (macros : Macros) (definitions : List (Text × List Text)) : Macros :=
  definitions.foldl (fun macros (name, commands) => (macros.define name commands).1) macros

theorem defineAll_concat (macros : Macros) (definitions : List (Text × List Text))
    (last : Text × List Text) :
    macros.defineAll (definitions ++ [last]) =
      ((macros.defineAll definitions).define last.1 last.2).1 :=
  List.foldl_append

theorem sound_define (sound : ∀ entry ∈ macros.book.entries, MacroBook.Sound entry)
    {definition : Text × List Text} (its : MacroBook.Sound definition) :
    ∀ entry ∈ (macros.define definition.1 definition.2).1.book.entries, MacroBook.Sound entry := by
  unfold define
  split
  · exact sound
  · rename_i filled
    simp only [inscribe, book_save]
    intro entry mem
    rcases Keyed.mem_put mem with rfl | old
    · exact its
    · exact sound entry old

theorem sound_defineAll (sound : ∀ entry ∈ macros.book.entries, MacroBook.Sound entry)
    {definitions : List (Text × List Text)}
    (each : ∀ definition ∈ definitions, MacroBook.Sound definition) :
    ∀ entry ∈ (macros.defineAll definitions).book.entries, MacroBook.Sound entry := by
  induction definitions generalizing macros with
  | nil => exact sound
  | cons definition definitions ih =>
    exact ih (sound_define sound (each definition List.mem_cons_self))
      fun other mem => each other (List.mem_cons_of_mem definition mem)

/-- A definition that was taken is in the book, and the book with it stands in the store. -/
theorem get_of_define {name : Text} {commands : List Text}
    (taken : macros.define name commands = (after, .ok true)) :
    name ∈ after.book.names ∧ after.store.get after.key = .ok (some after.book.write) := by
  by_cases filled : commands = []
  · subst filled
    cases taken
  · have outcome := (define_eq_ok_iff filled).1 taken
    rw [inscribe] at outcome
    obtain ⟨book, key⟩ := save_frame outcome
    constructor
    · rw [book]
      exact (MacroBook.mem_names_iff _ name).2
        ⟨commands, MacroBook.get?_define_self macros.book name commands filled⟩
    · rw [book, key]
      exact get_of_save outcome

/-- After a definition that was reported as saved, the store opens with the joined book, or with an
empty one if a surrogate of any name or command stands alone. So all names are found again exactly
if no name holds a surrogate and all those of the commands come in pairs. -/
theorem reopen_defineAll {store : Store} {key : Text} {opened : Macros}
    (opens : ofStore store key = .ok opened) (definitions : List (Text × List Text)) {name : Text}
    {commands : List Text}
    (taken : (opened.defineAll definitions).define name commands = (after, .ok true)) :
    ∃ again, ofStore after.store after.key = .ok again ∧
      (after.book.Paired →
        again.book.entries = Keyed.ofEntries (MacroBook.joined after.book.entries)) ∧
      (¬ after.book.Paired → again.book.entries = []) ∧
      ((∀ known ∈ after.book.names, again.book.contains known = true) ↔
        ∀ entry ∈ after.book.entries, MacroBook.Sound entry) ∧
      ((∀ definition ∈ definitions ++ [(name, commands)], MacroBook.Sound definition) →
        ∀ known ∈ after.book.names, again.book.contains known = true) := by
  obtain ⟨defined, stored⟩ := get_of_define taken
  have found : ofStore after.store after.key =
      .ok ⟨bookOf (some after.book.write), after.store, after.key⟩ := by
    rw [ofStore, stored, Except.map]
  have run : (∀ definition ∈ definitions ++ [(name, commands)], MacroBook.Sound definition) →
      ∀ entry ∈ after.book.entries, MacroBook.Sound entry := by
    intro each
    have all := sound_defineAll (scalar_ofStore opens).sound each
    rw [defineAll_concat, taken] at all
    exact all
  by_cases paired : after.book.Paired
  · obtain ⟨book, read, entries⟩ := paired.read?_write
    have again : bookOf (some after.book.write) = book := by rw [bookOf, read, Option.getD_some]
    have names := paired.contains_iff_sound entries
    rw [← again] at entries names
    exact ⟨_, found, fun _ => entries, fun spoilt => absurd paired spoilt, names,
      fun each => names.2 (run each)⟩
  · have again : bookOf (some after.book.write) = .empty := by
      rw [bookOf, MacroBook.read?_write_of_not_paired paired, Option.getD_none]
    refine ⟨_, found, fun whole => absurd whole paired, fun _ => congrArg MacroBook.entries again,
      ?_, fun each => absurd (MacroBook.paired_of_sound (run each)) paired⟩
    constructor
    · intro all
      have held := all name defined
      rw [again] at held
      cases held
    · intro sound
      exact absurd (MacroBook.paired_of_sound sound) paired

/-- A high surrogate without its partner. -/
def loneSurrogate : Text := [.ofNat 0xD800]

/-- A split pair of surrogates, which is one smiling face when it is joined. -/
def splitSmile : Text := [.ofNat 0xD83D, .ofNat 0xDE00]

def smiling : Macros × Except Fault Bool := Macros.define default "good" [splitSmile]

def spoilt : Macros × Except Fault Bool := smiling.1.define loneSurrogate ["look"]

/-- Both definitions are reported as saved. Behind the first one the store opens with its joined
command, behind the second one with nothing. -/
theorem reopen_defineAll_lone :
    smiling.2 = .ok true ∧ spoilt.2 = .ok true ∧
      spoilt.1.book.names = [Text.ofString "good", loneSurrogate] ∧
      (∃ again, ofStore smiling.1.store smiling.1.key = .ok again ∧
        again.book.entries = [(Text.ofString "good", [Text.ofString "😀"])]) ∧
      ∃ again, ofStore spoilt.1.store spoilt.1.key = .ok again ∧ again.book.entries = [] := by
  have opens : ofStore .empty [] = .ok default := rfl
  have first : smiling.2 = .ok true := rfl
  have second : spoilt.2 = .ok true := rfl
  obtain ⟨once, open_once, joined, -⟩ := reopen_defineAll opens [] (Prod.ext rfl first)
  obtain ⟨twice, open_twice, -, emptied, -⟩ :=
    reopen_defineAll opens [("good", [splitSmile])] (Prod.ext rfl second)
  have whole : smiling.1.book.Paired := by decide
  have alone : ¬ spoilt.1.book.Paired := by decide
  exact ⟨first, second, by decide, ⟨once, open_once, (joined whole).trans (by decide)⟩, twice,
    open_twice, emptied alone⟩

end Macros

end GatedConsole
