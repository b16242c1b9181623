import GatedConsole.Proofs.Macro.RoundTrip

/-!
The same macros on two media, in a file and in memory. Main statement: as long as every write to the
file goes well, nothing that can be asked tells the two apart, whatever the file held at first; and
where a backup can stand beside the file, every write does go well.
-/

set_option autoImplicit false
set_option relaxedAutoImplicit false

namespace GatedConsole

namespace Store

/-- The store opened once more on what it works on. -/
def reopen (store : Store) : Except Files.Fault Store :=
  match store.medium with
  | .memory _ => .ok store
  | .files directory tree => (openFiles tree directory).2

/-- A store that can be opened once more, and is the same then. -/
def Stands (store : Store) : Prop :=
  match store.medium with
  | .memory _ => True
  | .files directory tree => tree.isDirectory directory = true ∧ store.writesFail = false

variable {store after : Store}

theorem openFiles_of_isDirectory {tree : Files.Tree} {directory : Path}
    (there : tree.isDirectory directory = true) :
    openFiles tree directory = (tree, .ok ⟨.files directory tree, false⟩) := by
  rw [openFiles, Files.Tree.makeDirectories_of_isDirectory there]

theorem Stands.reopen (stands : store.Stands) : store.reopen = .ok store := by
  obtain ⟨medium, fail⟩ := store
  cases medium with
  | memory texts => rfl
  | files directory tree =>
    obtain ⟨there, rfl⟩ := stands
    exact congrArg Prod.snd (openFiles_of_isDirectory there)

theorem Stands.set (stands : store.Stands) (key text : Text) : (store.set key text).1.Stands := by
  obtain ⟨medium, fail⟩ := store
  unfold Store.set
  split
  · exact stands
  · cases medium with
    | memory texts => trivial
    | files directory tree => exact ⟨isDirectory_setFile stands.1 rfl, stands.2⟩

end Store

namespace Macros

/-! ## Requests -/

/-- What can be asked of kept macros. They are opened once more on the same store, or on a store
that is opened once more itself. -/
inductive Request where
  | define (name : Text) (commands : List Text)
  | save
  | load
  | reopen
  | restart
  | get (name : Text)
  | names
  | items
  | contains (name : Text)
  | size

inductive Answer where
  | saved (outcome : Except Fault Bool)
  | opened (outcome : Except Files.Fault Unit)
  | commands (found : Option (List Text))
  | names (names : List Text)
  | items (entries : List (Text × List Text))
  | bool (b : Bool)
  | number (n : Nat)

/-- The book was to be written and is not. -/
def Answer.Unwritten : Answer → Prop
  | .saved (.ok taken) => taken = false
  | .saved (.error .noCommands) => False
  | .saved (.error (.store _)) => True
  | _ => False

/-- Macros in place of the ones in use, if they could be opened. -/
def settle (macros : Macros) (opened : Except Files.Fault Macros) : Macros × Answer :=
  match opened with
  | .ok again => (again, .opened (.ok ()))
  | .error fault => (macros, .opened (.error fault))

def serve (macros : Macros) : Request → Macros × Answer
  | .define name commands => (macros.define name commands).map id .saved
  | .save => macros.save.map id fun outcome => .saved (outcome.mapError .store)
  | .load => macros.settle macros.load
  | .reopen => macros.settle (ofStore macros.store macros.key)
  | .restart => macros.settle (macros.store.reopen.bind fun store => ofStore store macros.key)
  | .get name => (macros, .commands (macros.book.get? name))
  | .names => (macros, .names macros.book.names)
  | .items => (macros, .items macros.book.entries)
  | .contains name => (macros, .bool (macros.book.contains name))
  | .size => (macros, .number macros.book.size)

/-- The answers to one request after the other. -/
def serveAll (macros : Macros) : List Request → List Answer
  | [] => []
  | request :: requests =>
    (macros.serve request).2 :: serveAll (macros.serve request).1 requests

/-- As long as every write goes well, the same answers come to the same requests. -/
def Agrees (kept held : Macros) : Prop :=
  ∀ requests, (∀ answer ∈ kept.serveAll requests, ¬ answer.Unwritten) →
    kept.serveAll requests = held.serveAll requests

/-! ## Twins -/

/-- Two macros with the same book, over stores that hold the same book under the same key. -/
structure Twin (kept held : Macros) : Prop where
  book : kept.book = held.book
  key : kept.key = held.key
  loads : ∃ stored stored', kept.store.get kept.key = .ok stored ∧
    held.store.get held.key = .ok stored' ∧ bookOf stored = bookOf stored'
  stands : kept.store.Stands
  memory : ∃ texts, held.store = ⟨.memory texts, false⟩

variable {kept held : Macros}

theorem Twin.opened (twin : Twin kept held) :
    ∃ again again', ofStore kept.store kept.key = .ok again ∧
      ofStore held.store held.key = .ok again' ∧ Twin again again' := by
  obtain ⟨stored, stored', found, found', same⟩ := twin.loads
  refine ⟨⟨bookOf stored, kept.store, kept.key⟩, ⟨bookOf stored', held.store, held.key⟩, ?_, ?_,
    ?_⟩
  · rw [ofStore, found, Except.map]
  · rw [ofStore, found', Except.map]
  · exact ⟨same, twin.key, ⟨stored, stored', found, found', same⟩, twin.stands, twin.memory⟩

/-- The two have been asked and both have answered alike. -/
structure Alike (kept held : Macros × Answer) : Prop where
  answer : kept.2 = held.2
  twin : Twin kept.1 held.1

theorem Twin.settle (twin : Twin kept held) {opened opened' : Except Files.Fault Macros}
    (its : opened = ofStore kept.store kept.key) (its' : opened' = ofStore held.store held.key) :
    Alike (kept.settle opened) (held.settle opened') := by
  obtain ⟨again, again', found, found', after⟩ := twin.opened
  rw [its, its', found, found']
  exact ⟨rfl, after⟩

theorem Twin.save (twin : Twin kept held) (saved : kept.save.2 = .ok true) :
    held.save.2 = .ok true ∧ Twin kept.save.1 held.save.1 := by
  obtain ⟨texts, medium⟩ := twin.memory
  have written : held.written = .ok () := by
    rw [Macros.written, medium]
    rfl
  obtain ⟨-, found⟩ := save_of_written (written_of_save (Prod.ext rfl saved))
  obtain ⟨saved', found'⟩ := save_of_written written
  refine ⟨saved', ?_, ?_, ?_, ?_, ?_⟩
  · rw [book_save, book_save, twin.book]
  · rw [key_save, key_save, twin.key]
  · rw [key_save, key_save]
    exact ⟨_, _, found, found', by rw [twin.book]⟩
  · rw [store_save]
    exact twin.stands.set kept.key kept.book.write
  · rw [store_save, medium]
    exact ⟨_, rfl⟩

theorem Twin.inscribe (twin : Twin kept held) (name : Text) (commands : List Text)
    (filled : commands ≠ []) :
    Twin { kept with book := kept.book.define name commands filled }
      { held with book := held.book.define name commands filled } where
  book := by rw [twin.book]
  key := twin.key
  loads := twin.loads
  stands := twin.stands
  memory := twin.memory

theorem define_of_ne_nil (macros : Macros) (name : Text) {commands : List Text}
    (filled : commands ≠ []) :
    macros.define name commands =
      (macros.inscribe name commands filled).map id (·.mapError .store) :=
  dif_neg filled

theorem define_eq_ok_iff {macros after : Macros} {name : Text} {commands : List Text} {taken : Bool}
    (filled : commands ≠ []) :
    macros.define name commands = (after, .ok taken) ↔
      macros.inscribe name commands filled = (after, .ok taken) := by
  rw [define_of_ne_nil macros name filled]
  cases macros.inscribe name commands filled with
  | mk others outcome => cases outcome <;> simp [Except.mapError]

/-- A write that does not count as failed has gone well. -/
theorem saved_of_not_unwritten {outcome : Except Files.Fault Bool}
    (went_well : ¬ (Answer.saved (outcome.mapError .store)).Unwritten) : outcome = .ok true := by
  cases outcome with
  | error fault => exact absurd trivial went_well
  | ok taken =>
    cases taken with
    | false => exact absurd rfl went_well
    | true => rfl

theorem Twin.alike_save (twin : Twin kept held)
    (went_well : ¬ (Answer.saved (kept.save.2.mapError .store)).Unwritten) :
    Alike (kept.save.map id fun outcome => .saved (outcome.mapError .store))
      (held.save.map id fun outcome => .saved (outcome.mapError .store)) := by
  have saved := saved_of_not_unwritten went_well
  obtain ⟨saved', after⟩ := twin.save saved
  refine ⟨?_, after⟩
  rw [Prod.map_snd, Prod.map_snd, saved, saved']

/-- Twins answer alike and stay twins. -/
theorem Twin.serve (twin : Twin kept held) (request : Request)
    (went_well : ¬ (kept.serve request).2.Unwritten) :
    Alike (kept.serve request) (held.serve request) := by
  cases request with
  | define name commands =>
    by_cases filled : commands = []
    · subst filled
      exact ⟨rfl, twin⟩
    · simp only [Macros.serve, define_of_ne_nil _ _ filled, Prod.map_map] at went_well ⊢
      exact (twin.inscribe name commands filled).alike_save went_well
  | save => exact twin.alike_save went_well
  | load => exact twin.settle rfl rfl
  | reopen => exact twin.settle rfl rfl
  | restart =>
    obtain ⟨texts, medium⟩ := twin.memory
    refine twin.settle ?_ ?_
    · rw [twin.stands.reopen]
      rfl
    · rw [medium]
      rfl
  | get name => exact ⟨by rw [Macros.serve, Macros.serve, twin.book], twin⟩
  | names => exact ⟨by rw [Macros.serve, Macros.serve, twin.book], twin⟩
  | items => exact ⟨by rw [Macros.serve, Macros.serve, twin.book], twin⟩
  | contains name => exact ⟨by rw [Macros.serve, Macros.serve, twin.book], twin⟩
  | size => exact ⟨by rw [Macros.serve, Macros.serve, twin.book], twin⟩

theorem Twin.agrees (twin : Twin kept held) : Agrees kept held := by
  intro requests
  induction requests generalizing kept held with
  | nil => exact fun _ => rfl
  | cons request requests ih =>
    intro went_well
    rw [serveAll, List.forall_mem_cons] at went_well
    have step := twin.serve request went_well.1
    rw [serveAll, serveAll, step.answer, ih step.twin went_well.2]

/-! ## Writes that always go well -/

/-- Macros in a file beside which a backup can stand. -/
def InFile (macros : Macros) : Prop :=
  ∃ directory tree, macros.store = ⟨.files directory tree, false⟩ ∧
    tree.isDirectory directory = true ∧ Store.Backed tree directory macros.key

variable {macros : Macros}

theorem InFile.stands (in_file : InFile macros) : macros.store.Stands := by
  obtain ⟨directory, tree, medium, there, -⟩ := in_file
  rw [medium]
  exact ⟨there, rfl⟩

theorem InFile.save (in_file : InFile macros) :
    macros.save.2 = .ok true ∧ InFile macros.save.1 := by
  obtain ⟨directory, tree, medium, there, backed⟩ := in_file
  obtain ⟨bytes, encoded⟩ := write_encoded macros.book
  obtain ⟨after, outcome, backed'⟩ := Store.setFile_of_backed backed encoded
  have taken : macros.store.set macros.key macros.book.write =
      (⟨.files directory after, false⟩, .ok ()) := by
    rw [medium, Store.set, if_neg Bool.false_ne_true]
    dsimp only
    rw [outcome]
  have written : macros.written = .ok () := by rw [Macros.written, taken]
  refine ⟨(save_of_written written).1, directory, after, ?_, ?_, ?_⟩
  · rw [store_save, taken]
  · exact Store.isDirectory_setFile there outcome
  · rw [key_save]
    exact backed'

theorem InFile.settle (in_file : InFile macros) {opened : Except Files.Fault Macros}
    (its : opened = ofStore macros.store macros.key) : InFile (macros.settle opened).1 := by
  cases outcome : opened with
  | error fault => exact in_file
  | ok again =>
    obtain ⟨stored, -, rfl⟩ := ofStore_eq_ok (its ▸ outcome)
    exact in_file

theorem not_unwritten_settle (macros : Macros) (opened : Except Files.Fault Macros) :
    ¬ (macros.settle opened).2.Unwritten := by
  cases opened with
  | error fault => exact id
  | ok again => exact id

/-- Where a backup can stand beside the file no request fails to write, and a backup still can. -/
theorem InFile.serve (in_file : InFile macros) (request : Request) :
    ¬ (macros.serve request).2.Unwritten ∧ InFile (macros.serve request).1 := by
  cases request with
  | define name commands =>
    by_cases filled : commands = []
    · subst filled
      exact ⟨id, in_file⟩
    · have here : InFile { macros with book := macros.book.define name commands filled } :=
        in_file
      obtain ⟨saved, after⟩ := here.save
      simp only [Macros.serve, define_of_ne_nil _ _ filled, Prod.map_map]
      refine ⟨?_, after⟩
      rw [Prod.map_snd, inscribe, saved]
      exact Bool.noConfusion
  | save =>
    obtain ⟨saved, after⟩ := in_file.save
    refine ⟨?_, after⟩
    rw [Macros.serve, Prod.map_snd, saved]
    exact Bool.noConfusion
  | load => exact ⟨not_unwritten_settle macros _, in_file.settle rfl⟩
  | reopen => exact ⟨not_unwritten_settle macros _, in_file.settle rfl⟩
  | restart =>
    refine ⟨not_unwritten_settle macros _, in_file.settle ?_⟩
    rw [in_file.stands.reopen]
    rfl
  | get _ | names | items | contains _ | size => exact ⟨id, in_file⟩

theorem InFile.serveAll (in_file : InFile macros) (requests : List Request) :
    ∀ answer ∈ macros.serveAll requests, ¬ answer.Unwritten := by
  induction requests generalizing macros with
  | nil => exact nofun
  | cons request requests ih =>
    obtain ⟨went_well, after⟩ := in_file.serve request
    exact List.forall_mem_cons.2 ⟨went_well, ih after⟩

/-! ## A file and a text in memory -/

section File

variable {tree : Files.Tree} {directory : Path} {key : Text}

theorem ofStore_memory (texts : Keyed Text Text) (key : Text) :
    ofStore ⟨.memory texts, false⟩ key =
      .ok ⟨bookOf (Keyed.get? texts key), ⟨.memory texts, false⟩, key⟩ :=
  rfl

/-- Macros over a file and over a memory that hold the same book to begin with. -/
theorem agrees_of_file {stored : Option Text} {texts : Keyed Text Text}
    (there : tree.isDirectory directory = true)
    (found : Store.get ⟨.files directory tree, false⟩ key = .ok stored)
    (same : bookOf stored = bookOf (Keyed.get? texts key)) :
    Agrees ⟨bookOf stored, ⟨.files directory tree, false⟩, key⟩
      ⟨bookOf (Keyed.get? texts key), ⟨.memory texts, false⟩, key⟩ :=
  Twin.agrees ⟨same, rfl, ⟨stored, _, found, rfl, same⟩, ⟨there, rfl⟩, texts, rfl⟩

/-- Macros over a file and over a memory with the same text, in whatever kind of lines, answer
alike, whatever the text is. A file that is not UTF-8 is as good as none. And no write to the file
fails where a backup can stand beside it. -/
theorem serveAll_files_eq_memory {bytes : Bytes} (there : tree.isDirectory directory = true)
    (file : tree.entry (Store.fileOf directory key) = .ok (.file bytes)) :
    ∃ store kept, Store.openFiles tree directory = (tree, .ok store) ∧
      ofStore store key = .ok kept ∧
      (∀ text texts, Utf8.encode text = .ok bytes → Keyed.get? texts key = some text →
        ∃ held, ofStore ⟨.memory texts, false⟩ key = .ok held ∧ Agrees kept held) ∧
      (∀ fault texts, Utf8.decode bytes = .error fault → Keyed.get? texts key = none →
        ∃ held, ofStore ⟨.memory texts, false⟩ key = .ok held ∧ Agrees kept held) ∧
      ((∃ place, tree.placeToWrite (Store.backupOf directory key) = .ok place) →
        ∀ requests, ∀ answer ∈ kept.serveAll requests, ¬ answer.Unwritten) := by
  have found : Store.get ⟨.files directory tree, false⟩ key =
      .ok (Store.textOf? tree (Store.fileOf directory key)) := by
    simp only [Store.get, Files.Tree.exists?, file]
  have opened : ofStore ⟨.files directory tree, false⟩ key =
      .ok ⟨bookOf (Store.textOf? tree (Store.fileOf directory key)),
        ⟨.files directory tree, false⟩, key⟩ := by
    rw [ofStore, found, Except.map]
  refine ⟨_, _, Store.openFiles_of_isDirectory there, opened, ?_, ?_, ?_⟩
  · intro text texts encoded found'
    have same : bookOf (Store.textOf? tree (Store.fileOf directory key)) =
        bookOf (Keyed.get? texts key) := by
      rw [Store.textOf?_of_entry file encoded, found', bookOf, bookOf,
        MacroBook.read?_unifyNewlines]
    exact ⟨_, ofStore_memory texts key, agrees_of_file there found same⟩
  · intro fault texts broken found'
    have same : bookOf (Store.textOf? tree (Store.fileOf directory key)) =
        bookOf (Keyed.get? texts key) := by
      rw [found']
      simp only [Store.textOf?, Files.Tree.readBytes, file, broken]
    exact ⟨_, ofStore_memory texts key, agrees_of_file there found same⟩
  · intro backup
    have in_file : InFile ⟨bookOf (Store.textOf? tree (Store.fileOf directory key)),
        ⟨.files directory tree, false⟩, key⟩ :=
      ⟨directory, tree, rfl, there, ⟨bytes, file⟩, backup⟩
    exact in_file.serveAll

end File

/-- A book with lines of all three kinds. -/
def mixedLines : Text := "\x7b\r\n\"a\": [\r\"b\"\n]\x7d"

def mixedBytes : Bytes := mixedLines.map fun c => UInt8.ofNat c.val

/-- A directory with one file. -/
def treeOf (bytes : Bytes) : Files.Tree :=
  ⟨[([Files.Name.ofText "data"], .directory),
    ([Files.Name.ofText "data", Files.Name.ofText "m.json"], .file bytes)]⟩

theorem serveAll_files_eq_memory_mixed :
    (treeOf mixedBytes).isDirectory (.ofText "data") = true ∧
      (treeOf mixedBytes).entry (Store.fileOf (.ofText "data") "m") = .ok (.file mixedBytes) ∧
      (∃ store kept held, Store.openFiles (treeOf mixedBytes) (.ofText "data") =
          (treeOf mixedBytes, .ok store) ∧ ofStore store "m" = .ok kept ∧
        ofStore ⟨.memory [("m", mixedLines)], false⟩ "m" = .ok held ∧
        held.book.entries = [(("a" : Text), [("b" : Text)])] ∧
        ∀ requests, kept.serveAll requests = held.serveAll requests) ∧
      ∃ store kept held, Store.openFiles (treeOf [0xFF]) (.ofText "data") =
          (treeOf [0xFF], .ok store) ∧ ofStore store "m" = .ok kept ∧
        ofStore ⟨.memory [], false⟩ "m" = .ok held ∧
        ∀ requests, kept.serveAll requests = held.serveAll requests := by
  have there : (treeOf mixedBytes).isDirectory (.ofText "data") = true := by decide
  have file : (treeOf mixedBytes).entry (Store.fileOf (.ofText "data") "m") =
      .ok (.file mixedBytes) := rfl
  have encoded : Utf8.encode mixedLines = .ok mixedBytes := rfl
  have broken : Utf8.decode [0xFF] = .error ⟨.start, 0, [0xFF]⟩ := rfl
  have in_memory : Keyed.get? [(("m" : Text), mixedLines)] "m" = some mixedLines := rfl
  have backup : (treeOf mixedBytes).placeToWrite (Store.backupOf (.ofText "data") "m") =
      .ok [Files.Name.ofText "data", Files.Name.ofText "m.json.bak"] := rfl
  have book : (bookOf (some mixedLines)).entries = [(("a" : Text), [("b" : Text)])] := by
    decide +kernel
  have there' : (treeOf [0xFF]).isDirectory (.ofText "data") = true := by decide
  have file' : (treeOf [0xFF]).entry (Store.fileOf (.ofText "data") "m") =
      .ok (.file [0xFF]) := rfl
  have backup' : (treeOf [0xFF]).placeToWrite (Store.backupOf (.ofText "data") "m") =
      .ok [Files.Name.ofText "data", Files.Name.ofText "m.json.bak"] := rfl
  refine ⟨there, file, ?_, ?_⟩
  · obtain ⟨store, kept, made, opened, alike, -, all⟩ := serveAll_files_eq_memory there file
    obtain ⟨held, opened', agrees⟩ := alike _ _ encoded in_memory
    refine ⟨store, kept, held, made, opened, opened', ?_, fun requests =>
      agrees requests (all ⟨_, backup⟩ requests)⟩
    rw [ofStore_memory, in_memory] at opened'
    rw [← Except.ok.inj opened']
    exact book
  · obtain ⟨store, kept, made, opened, -, alike, all⟩ := serveAll_files_eq_memory there' file'
    obtain ⟨held, opened', agrees⟩ := alike _ [] broken rfl
    exact ⟨store, kept, held, made, opened, opened', fun requests =>
      agrees requests (all ⟨_, backup'⟩ requests)⟩

end Macros

end GatedConsole
