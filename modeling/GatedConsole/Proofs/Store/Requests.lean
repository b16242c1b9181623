import GatedConsole.Proofs.Store.Folder

/-!
Stores in memory and of files side by side. Main statement: asked the same, a store of files that
started in a bare directory answers as one in memory does, but for the kind of the line ends; a key
has a backup exactly if a set has found a text under it, and the backup holds what the last such set
replaced; and nothing that is asked of one key touches another one.
-/

set_option autoImplicit false
set_option relaxedAutoImplicit false

namespace GatedConsole.Store

open Files

inductive Request where
  | set (key text : Text)
  | get (key : Text)
  | delete (key : Text)

inductive Answer where
  | written (outcome : Except Fault Unit)
  | found (outcome : Except Fault (Option Text))
  | deleted (outcome : Except Fault Bool)

def serve (store : Store) : Request → Store × Answer
  | .set key text => ((store.set key text).1, .written (store.set key text).2)
  | .get key => (store, .found (store.get key))
  | .delete key => ((store.delete key).1, .deleted (store.delete key).2)

def serveAll (store : Store) : List Request → Store × List Answer
  | [] => (store, [])
  | request :: rest =>
    (((store.serve request).1.serveAll rest).1,
      (store.serve request).2 :: ((store.serve request).1.serveAll rest).2)

/-- The answer with the line ends of a found text unified. -/
def Answer.unified : Answer → Answer
  | .found (.ok text?) => .found (.ok (text?.map Text.unifyNewlines))
  | answer => answer

/-- The texts that a store in memory holds after these requests. -/
def textsAfter (requests : List Request) : Keyed Text Text := (empty.serveAll requests).1.texts

/-- With the request that follows on `before`, a text that stood under the key is replaced. -/
def Replaces (requests : List Request) (key : Text) (before : List Request) (old : Text) : Prop :=
  (∃ text, before ++ [.set key text] <+: requests) ∧ Keyed.get? (textsAfter before) key = some old

/-- The text is the one that was replaced last under the key. -/
def ReplacedLast (requests : List Request) (key old : Text) : Prop :=
  ∃ before, Replaces requests key before old ∧
    ∀ before' old', Replaces requests key before' old' → before'.length ≤ before.length

namespace Request

def key : Request → Text
  | .set key _ => key
  | .get key => key
  | .delete key => key

/-- The key can be the name of a file, and what is to be stored can be encoded. -/
def Usable (directory : Path) : Request → Prop
  | .set key text => Store.Usable directory key ∧ ∀ c ∈ text, c.isSurrogate = false
  | .get key => Store.Usable directory key
  | .delete key => Store.Usable directory key

instance (directory : Path) (request : Request) : Decidable (request.Usable directory) :=
  match request with
  | .set key text =>
    inferInstanceAs (Decidable (Store.Usable directory key ∧ ∀ c ∈ text, c.isSurrogate = false))
  | .get key => inferInstanceAs (Decidable (Store.Usable directory key))
  | .delete key => inferInstanceAs (Decidable (Store.Usable directory key))

/-! ## What a request does, whatever the store is made of -/

def reply (texts : Text → Option Text) : Request → Answer
  | .set _ _ => .written (.ok ())
  | .get key => .found (.ok (texts key))
  | .delete key => .deleted (.ok (texts key).isSome)

def change (texts : Text → Option Text) : Request → Text → Option Text
  | .set key text => Function.update texts key (some text)
  | .get _ => texts
  | .delete key => Function.update texts key none

/-- The texts that were replaced last, after a request to a store that holds `texts`. -/
def keep (texts backups : Text → Option Text) : Request → Text → Option Text
  | .set key _ => Function.update backups key ((texts key).or (backups key))
  | .get _ => backups
  | .delete _ => backups

theorem change_of_ne {texts : Text → Option Text} {request : Request} {other : Text}
    (apart : other ≠ request.key) : request.change texts other = texts other := by
  cases request with
  | set key text => exact Function.update_of_ne apart _ _
  | get key => rfl
  | delete key => exact Function.update_of_ne apart _ _

theorem keep_of_ne_set {texts backups : Text → Option Text} {request : Request} {other : Text}
    (unset : ∀ text, request ≠ .set other text) :
    request.keep texts backups other = backups other := by
  cases request with
  | set key text =>
    have apart : other ≠ key := by
      rintro rfl
      exact unset text rfl
    exact Function.update_of_ne apart _ _
  | get key => rfl
  | delete key => rfl

end Request

variable {directory : Path} {home : Place} {tree after : Tree} {requests before : List Request}
  {request : Request} {key text old : Text} {files backups : Text → Option Text}

theorem serveAll_concat (store : Store) (requests : List Request) (request : Request) :
    store.serveAll (requests ++ [request]) =
      (((store.serveAll requests).1.serve request).1,
        (store.serveAll requests).2 ++ [((store.serveAll requests).1.serve request).2]) := by
  induction requests generalizing store with
  | nil => rfl
  | cons first requests ih => rw [List.cons_append, serveAll, ih, serveAll, List.cons_append]

/-- One request to a store in memory. -/
theorem serve_memory (texts : Keyed Text Text) (request : Request) :
    ∃ texts', serve ⟨.memory texts, false⟩ request =
        (⟨.memory texts', false⟩, request.reply (Keyed.get? texts)) ∧
      Keyed.get? texts' = request.change (Keyed.get? texts) := by
  cases request with
  | set key text =>
    refine ⟨Keyed.put key text texts, rfl, ?_⟩
    rw [Request.change, eq_comm, Function.update_eq_iff]
    exact ⟨(Keyed.get?_put_self key text texts).symm, fun other apart =>
      (Keyed.get?_put_of_ne apart text texts).symm⟩
  | get key => exact ⟨texts, rfl, rfl⟩
  | delete key =>
    refine ⟨Keyed.erase key texts, rfl, ?_⟩
    rw [Request.change, eq_comm, Function.update_eq_iff]
    exact ⟨(Keyed.get?_erase_self key texts).symm, fun other apart =>
      (Keyed.get?_erase_of_ne apart texts).symm⟩

/-- One request to a store of files. -/
theorem Folder.serve (folder : Folder directory home files backups tree)
    (usable : request.Usable directory) :
    ∃ after, Store.serve ⟨.files directory tree, false⟩ request =
        (⟨.files directory after, false⟩, (request.reply files).unified) ∧
      Folder directory home (request.change files) (request.keep files backups) after := by
  cases request with
  | set key text =>
    obtain ⟨bytes, encoded⟩ : ∃ bytes, Utf8.encode text = .ok bytes :=
      ⟨_, Utf8.encode_eq_ok_iff.2 ⟨usable.2, rfl⟩⟩
    obtain ⟨after, outcome, folder'⟩ := folder.setFile_eq usable.1 encoded
    refine ⟨after, ?_, folder'⟩
    simp only [Store.serve, set, outcome, Bool.false_eq_true, if_false]
    rfl
  | get key =>
    refine ⟨tree, ?_, folder⟩
    rw [Store.serve, folder.get_eq usable]
    rfl
  | delete key =>
    obtain ⟨after, outcome, folder'⟩ := folder.delete_eq usable false
    refine ⟨after, ?_, folder'⟩
    rw [Store.serve, outcome]
    rfl

/-! ## In memory -/

theorem serveAll_empty (requests : List Request) :
    (empty.serveAll requests).1 = ⟨.memory (textsAfter requests), false⟩ := by
  induction requests using List.reverseRecOn with
  | nil => rfl
  | append_singleton requests request ih =>
    obtain ⟨texts, served, -⟩ := serve_memory (textsAfter requests) request
    rw [textsAfter, serveAll_concat, ih, served]
    rfl

theorem get?_textsAfter_concat (requests : List Request) (request : Request) :
    Keyed.get? (textsAfter (requests ++ [request])) =
      request.change (Keyed.get? (textsAfter requests)) := by
  obtain ⟨texts, served, changed⟩ := serve_memory (textsAfter requests) request
  rw [textsAfter, serveAll_concat, serveAll_empty, served]
  exact changed

theorem answers_concat (requests : List Request) (request : Request) :
    (empty.serveAll (requests ++ [request])).2 =
      (empty.serveAll requests).2 ++ [request.reply (Keyed.get? (textsAfter requests))] := by
  obtain ⟨texts, served, -⟩ := serve_memory (textsAfter requests) request
  rw [serveAll_concat, serveAll_empty, served]

/-! ## What was replaced -/

theorem replaces_concat :
    Replaces (requests ++ [request]) key before old ↔
      Replaces requests key before old ∨
        before = requests ∧ (∃ text, request = .set key text) ∧
          Keyed.get? (textsAfter requests) key = some old := by
  unfold Replaces
  constructor
  · rintro ⟨⟨text, sits⟩, found⟩
    rcases List.prefix_concat_iff.1 sits with last | sits
    · obtain ⟨rfl, its⟩ := List.append_inj' last rfl
      exact .inr ⟨rfl, ⟨text, (List.singleton_inj.1 its).symm⟩, found⟩
    · exact .inl ⟨⟨text, sits⟩, found⟩
  · rintro (⟨⟨text, sits⟩, found⟩ | ⟨rfl, ⟨text, rfl⟩, found⟩)
    · exact ⟨⟨text, sits.trans (List.prefix_append _ _)⟩, found⟩
    · exact ⟨⟨text, List.prefix_refl _⟩, found⟩

theorem Replaces.length_lt (h : Replaces requests key before old) :
    before.length < requests.length := by
  obtain ⟨⟨text, sits⟩, -⟩ := h
  have bound := sits.length_le
  rw [List.length_append, List.length_singleton] at bound
  omega

/-- A set that finds a text replaces it. -/
theorem replacedLast_concat_set {found : Text}
    (its : Keyed.get? (textsAfter requests) key = some found) :
    ReplacedLast (requests ++ [.set key text]) key old ↔ found = old := by
  have last : Replaces (requests ++ [.set key text]) key requests found :=
    replaces_concat.2 (.inr ⟨rfl, ⟨text, rfl⟩, its⟩)
  constructor
  · rintro ⟨before, replaces, latest⟩
    rcases replaces_concat.1 replaces with earlier | ⟨rfl, -, same⟩
    · have short := earlier.length_lt
      have long := latest requests found last
      omega
    · exact Option.some.inj (its.symm.trans same)
  · rintro rfl
    refine ⟨requests, last, fun before' old' replaces => ?_⟩
    have bound := replaces.length_lt
    rw [List.length_append, List.length_singleton] at bound
    omega

/-- Any other request replaces nothing under the key. -/
theorem replacedLast_concat
    (nothing : ∀ text, request = .set key text → Keyed.get? (textsAfter requests) key = none) :
    ReplacedLast (requests ++ [request]) key old ↔ ReplacedLast requests key old := by
  have same : ∀ before old, Replaces (requests ++ [request]) key before old ↔
      Replaces requests key before old := by
    intro before old
    rw [replaces_concat, or_iff_left]
    rintro ⟨-, ⟨text, its⟩, found⟩
    cases (nothing text its).symm.trans found
  unfold ReplacedLast
  simp only [same]

theorem exists_replacedLast_iff :
    (∃ old, ReplacedLast requests key old) ↔ ∃ before old, Replaces requests key before old := by
  constructor
  · rintro ⟨old, before, replaces, -⟩
    exact ⟨before, old, replaces⟩
  · induction requests using List.reverseRecOn with
    | nil =>
      rintro ⟨before, old, replaces⟩
      exact absurd replaces.length_lt (Nat.not_lt_zero _)
    | append_singleton requests request ih =>
      rintro ⟨before, old, replaces⟩
      -- the last request replaces a text itself, or what was replaced last stays the same
      by_cases found : ∃ text, request = .set key text ∧
          Keyed.get? (textsAfter requests) key ≠ none
      · obtain ⟨text, rfl, some_text⟩ := found
        obtain ⟨found, its⟩ := Option.ne_none_iff_exists'.1 some_text
        exact ⟨found, (replacedLast_concat_set its).2 rfl⟩
      · have nothing : ∀ text, request = .set key text →
            Keyed.get? (textsAfter requests) key = none := by
          intro text its
          by_contra some_text
          exact found ⟨text, its, some_text⟩
        rcases replaces_concat.1 replaces with earlier | ⟨-, ⟨text, its⟩, here⟩
        · obtain ⟨old', last⟩ := ih ⟨before, old, earlier⟩
          exact ⟨old', (replacedLast_concat nothing).2 last⟩
        · cases (nothing text its).symm.trans here

/-- What a store keeps beside its texts is what was replaced last. -/
theorem keep_eq_some_iff
    (kept : ∀ key old, backups key = some old ↔ ReplacedLast requests key old) (key old : Text) :
    request.keep (Keyed.get? (textsAfter requests)) backups key = some old ↔
      ReplacedLast (requests ++ [request]) key old := by
  cases request with
  | set other text =>
    rw [Request.keep]
    by_cases same : key = other
    · subst same
      rw [Function.update_self]
      cases its : Keyed.get? (textsAfter requests) key with
      | none => rw [Option.none_or, kept, replacedLast_concat fun _ _ => its]
      | some found => rw [Option.some_or, replacedLast_concat_set its, Option.some.injEq]
    · rw [Function.update_of_ne same, kept, replacedLast_concat]
      rintro text' its
      cases its
      exact absurd rfl same
  | get other => rw [Request.keep, kept, replacedLast_concat (by nofun)]
  | delete other => rw [Request.keep, kept, replacedLast_concat (by nofun)]

/-! ## Side by side -/

/-- A folder holds what a store in memory would hold after these requests. -/
theorem Folder.serveAll (folder : Folder directory home (fun _ => none) (fun _ => none) tree)
    (usable : ∀ request ∈ requests, request.Usable directory) :
    ∃ after backups,
      Store.serveAll ⟨.files directory tree, false⟩ requests =
        (⟨.files directory after, false⟩, (empty.serveAll requests).2.map Answer.unified) ∧
      Folder directory home (Keyed.get? (textsAfter requests)) backups after ∧
      ∀ key old, backups key = some old ↔ ReplacedLast requests key old := by
  induction requests using List.reverseRecOn with
  | nil =>
    refine ⟨tree, fun _ => none, rfl, folder, fun key old => ?_⟩
    constructor
    · nofun
    · rintro ⟨before, replaces, -⟩
      exact absurd replaces.length_lt (Nat.not_lt_zero _)
  | append_singleton requests request ih =>
    -- the invariant is that the folder holds the texts of the memory; one more request keeps it
    obtain ⟨middle, backups, served, folder', kept⟩ :=
      ih fun other mem => usable other (List.mem_append_left _ mem)
    obtain ⟨after, answered, folder''⟩ :=
      folder'.serve (usable request (List.mem_append_right _ (List.mem_singleton.2 rfl)))
    refine ⟨after, _, ?_, ?_, keep_eq_some_iff kept⟩
    · rw [serveAll_concat, served, answered, answers_concat, List.map_append, List.map_singleton]
    · rw [get?_textsAfter_concat]
      exact folder''

/-- A request leaves the files of all other keys alone, and a backup unless its own key is set. -/
structure LeavesOthers (directory : Path) (request : Request) (tree after : Tree) : Prop where
  file : ∀ key, Usable directory key → key ≠ request.key →
    after.entry (fileOf directory key) = tree.entry (fileOf directory key)
  value : ∀ key, Usable directory key → key ≠ request.key →
    get ⟨.files directory after, false⟩ key = get ⟨.files directory tree, false⟩ key
  backup : ∀ key, Usable directory key → (∀ text, request ≠ .set key text) →
    after.entry (backupOf directory key) = tree.entry (backupOf directory key)

theorem Folder.leavesOthers (folder : Folder directory home files backups tree)
    (folder' : Folder directory home (request.change files) (request.keep files backups) after) :
    LeavesOthers directory request tree after where
  file key usable apart := by
    have holds := folder'.file key usable
    rw [Request.change_of_ne apart] at holds
    exact (folder.file key usable).entry_congr holds (folder.follow_fileOf usable)
      (folder'.follow_fileOf usable)
  value key usable apart := by
    rw [folder'.get_eq usable, folder.get_eq usable, Request.change_of_ne apart]
  backup key usable unset := by
    have holds := folder'.backup key usable
    rw [Request.keep_of_ne_set unset] at holds
    exact (folder.backup key usable).entry_congr holds (folder.follow_backupOf usable)
      (folder'.follow_backupOf usable)

/-- What has become of a store of files after these requests, next to one in memory. -/
structure Mirrors (directory : Path) (store : Store) (requests : List Request) (after : Tree) :
    Prop where
  answers : store.serveAll requests =
    (⟨.files directory after, false⟩, (empty.serveAll requests).2.map Answer.unified)
  backed : ∀ key, Usable directory key →
    (after.exists? (backupOf directory key) = .ok true ↔
      ∃ before old, Replaces requests key before old)
  latest : ∀ key old, Usable directory key → ReplacedLast requests key old →
    ∃ bytes, Utf8.encode old = .ok bytes ∧
      after.entry (backupOf directory key) = .ok (.file bytes)
  others : ∀ request, request.Usable directory →
    ∃ later, (serve ⟨.files directory after, false⟩ request).1 = ⟨.files directory later, false⟩ ∧
      LeavesOthers directory request after later

/-- A store of files answers like one in memory, but for the kind of the line ends; its backups are
what was replaced last, and no key is touched by what is asked of another. -/
theorem mirrors_serveAll {made : Tree} {store : Store}
    (opened : openFiles tree directory = (made, .ok store)) (bare : made.IsBare directory)
    (usable : ∀ request ∈ requests, request.Usable directory) :
    ∃ after, Mirrors directory store requests after := by
  have its : store = ⟨.files directory made, false⟩ := by
    unfold openFiles at opened
    split at opened
    · cases opened
      rfl
    · cases opened
  subst its
  obtain ⟨home, folder⟩ := folder_of_isBare bare
  obtain ⟨after, backups, served, folder', kept⟩ := folder.serveAll usable
  refine ⟨after, served, ?_, ?_, ?_⟩
  · intro key usable
    have found := (folder'.backup key usable).exists?_eq (folder'.follow_backupOf usable)
    rw [found, ← exists_replacedLast_iff, Except.ok.injEq, Option.isSome_iff_exists]
    exact exists_congr fun old => kept key old
  · intro key old usable last
    have holds := folder'.backup key usable
    rw [(kept key old).2 last] at holds
    exact holds.entry_eq (folder'.follow_backupOf usable)
  · intro request usable
    obtain ⟨later, answered, folder''⟩ := folder'.serve usable
    exact ⟨later, congrArg Prod.fst answered, folder'.leavesOthers folder''⟩

/-- The directory of the data when it has just been made. -/
def bareTree : Tree := Tree.empty.put [Name.ofText "data"] .directory

/-- Keys that look like the files and backups of one another. -/
def rivalRequests : List Request :=
  [.set "a" "1\r\n2", .set "a.json" "3", .get "a", .set "a" "4", .set "a.json.bak" "5",
    .delete "a", .get "a", .get "a.json"]

theorem mirrors_serveAll_rivals :
    (openFiles Tree.empty (.ofText "data") =
        (bareTree, .ok ⟨.files (.ofText "data") bareTree, false⟩) ∧
      bareTree.IsBare (.ofText "data") ∧
      ∀ request ∈ rivalRequests, request.Usable (.ofText "data")) ∧
    (empty.serveAll rivalRequests).2.map Answer.unified =
      [.written (.ok ()), .written (.ok ()), .found (.ok (some "1\n2")), .written (.ok ()),
        .written (.ok ()), .deleted (.ok true), .found (.ok none), .found (.ok (some "3"))] ∧
    ∃ after, Mirrors (.ofText "data") ⟨.files (.ofText "data") bareTree, false⟩ rivalRequests
      after := by
  have makes : Tree.empty.makeDirectories (.ofText "data") = (bareTree, .ok ()) := by
    rw [Tree.makeDirectories]
    rfl
  have opened : openFiles Tree.empty (.ofText "data") =
      (bareTree, .ok ⟨.files (.ofText "data") bareTree, false⟩) := by
    rw [openFiles, makes]
  have bare : bareTree.IsBare (.ofText "data") := ⟨[Name.ofText "data"], rfl, rfl, rfl⟩
  have usable : ∀ request ∈ rivalRequests, request.Usable (.ofText "data") := by decide
  exact ⟨⟨opened, bare, usable⟩, rfl, mirrors_serveAll opened bare usable⟩

end GatedConsole.Store
