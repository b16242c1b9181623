import GatedConsole.Proofs.Session.TabLife
import Mathlib.Data.List.Nodup

/-!
Chronicles: what became of the tabs of a session, change by change. Main statement: in every
chronicle each open tab has lived its own life, whatever happened to the others, and the events of
its submissions are in order even when it has been closed.
-/

set_option autoImplicit false
set_option relaxedAutoImplicit false

namespace GatedConsole

/-! ## Opening, closing, switching -/

namespace Tabs

/-- No number is taken twice, and none that is still to come. -/
structure Tidy (tabs : Tabs) : Prop where
  nodup_ids : (tabs.toList.map (·.id)).Nodup
  lt_nextId : ∀ tab ∈ tabs.toList, tab.id < tabs.nextId

theorem of_splitAt? {id : Nat} {tabs before after : List Tab} {tab : Tab}
    (h : splitAt? id tabs = some (before, tab, after)) :
    tabs = before ++ tab :: after ∧ tab.id = id := by
  induction tabs generalizing before with
  | nil => cases h
  | cons first rest ih =>
    unfold splitAt? at h
    split at h
    · rename_i same
      obtain ⟨rfl, rfl, rfl⟩ := h
      exact ⟨rfl, same⟩
    · obtain ⟨⟨before, found, after⟩, parts, same⟩ := Option.map_eq_some_iff.1 h
      obtain ⟨rfl, rfl, rfl⟩ := same
      obtain ⟨rfl, same⟩ := ih parts
      exact ⟨rfl, same⟩

/-- The tab that is switched to is one of the tabs, which are the same ones in the same order. -/
theorem of_switch? {tabs tabs' : Tabs} {id : Nat} (h : tabs.switch? id = some tabs') :
    tabs'.toList = tabs.toList ∧ tabs'.nextId = tabs.nextId := by
  obtain ⟨⟨before, tab, after⟩, parts, rfl⟩ := Option.map_eq_some_iff.1 h
  exact ⟨(of_splitAt? parts).1.symm, rfl⟩

theorem of_closeActive? {tabs tabs' : Tabs} (h : tabs.closeActive? = some tabs') :
    tabs'.toList.Sublist tabs.toList ∧ tabs'.nextId = tabs.nextId := by
  unfold closeActive? at h
  split at h
  · rename_i next after its_after
    rw [← Option.some.inj h]
    refine ⟨?_, rfl⟩
    simp only [toList, its_after]
    exact List.Sublist.append_left (List.sublist_cons_self _ _) _
  · rename_i its_after
    split at h
    · cases h
    · rename_i last before its_before
      have parts : tabs.before = before.reverse ++ [last] := by
        rw [← List.reverse_reverse tabs.before, its_before, List.reverse_cons]
      rw [← Option.some.inj h]
      refine ⟨?_, rfl⟩
      simp only [toList, its_after, parts]
      exact List.sublist_append_left _ _

/-- Closing leaves all other tabs in their order. -/
theorem of_close? {tabs tabs' : Tabs} {id : Nat} (h : tabs.close? id = some tabs') :
    tabs'.toList.Sublist tabs.toList ∧ tabs'.nextId = tabs.nextId := by
  have without (first : List Tab) (tab : Tab) (rest : List Tab) :
      (first ++ rest).Sublist (first ++ tab :: rest) :=
    List.Sublist.append_left (List.sublist_cons_self _ _) _
  unfold close? at h
  split at h
  · rename_i first tab rest parts
    rw [← Option.some.inj h]
    refine ⟨?_, rfl⟩
    simp only [toList, (of_splitAt? parts).1]
    exact List.Sublist.append_right (without first tab rest) _
  · split at h
    · exact of_closeActive? h
    · split at h
      · rename_i first tab rest parts
        rw [← Option.some.inj h]
        refine ⟨?_, rfl⟩
        simp only [toList, (of_splitAt? parts).1]
        exact List.Sublist.append_left ((without first tab rest).cons_cons _) _
      · cases h

namespace Tidy

variable {tabs tabs' : Tabs}

theorem of_sublist (tidy : tabs.Tidy) (h : tabs'.toList.Sublist tabs.toList)
    (same : tabs'.nextId = tabs.nextId) : tabs'.Tidy where
  nodup_ids := tidy.nodup_ids.sublist (h.map _)
  lt_nextId tab mem := by
    rw [same]
    exact tidy.lt_nextId tab (h.subset mem)

theorem openTab (tidy : tabs.Tidy) (title : Option Text) (user : User) :
    (tabs.openTab title user).Tidy where
  nodup_ids := by
    rw [toList_openTab, List.map_append, List.nodup_append]
    refine ⟨tidy.nodup_ids, by simp, ?_⟩
    intro id mem id' mem' same
    obtain ⟨tab, tab_mem, rfl⟩ := List.mem_map.1 mem
    have fresh : id' = tabs.nextId := by simpa [Tab.new] using mem'
    have earlier := tidy.lt_nextId tab tab_mem
    omega
  lt_nextId tab mem := by
    rw [toList_openTab, List.mem_append] at mem
    change tab.id < tabs.nextId + 1
    rcases mem with mem | mem
    · exact Nat.lt_succ_of_lt (tidy.lt_nextId tab mem)
    · rw [List.mem_singleton.1 mem]
      exact Nat.lt_succ_self _

theorem update (tidy : tabs.Tidy) {id : Nat} {change : Tab → Tab}
    (keeps : ∀ tab ∈ tabs.toList, tab.id = id → (change tab).id = tab.id) :
    (tabs.update id change).Tidy := by
  have ids : (tabs.update id change).toList.map (·.id) = tabs.toList.map (·.id) := by
    rw [toList_update, List.map_map]
    refine List.map_congr_left fun tab mem => ?_
    dsimp only [Function.comp]
    split
    · rename_i same
      exact keeps tab mem same
    · rfl
  refine ⟨?_, ?_⟩
  · rw [ids]
    exact tidy.nodup_ids
  · intro tab mem
    have its_id := List.mem_map_of_mem (f := (·.id)) mem
    rw [ids] at its_id
    obtain ⟨tab', mem', same⟩ := List.mem_map.1 its_id
    rw [← same]
    exact tidy.lt_nextId tab' mem'

/-- An update leaves under each number the tab that was there, changed if it was meant. -/
theorem eq_of_mem_update (tidy : tabs.Tidy) {id : Nat} {change : Tab → Tab}
    (keeps : ∀ tab ∈ tabs.toList, tab.id = id → (change tab).id = tab.id) {tab tab' : Tab}
    (mem : tab ∈ tabs.toList) (mem' : tab' ∈ (tabs.update id change).toList)
    (same : tab'.id = tab.id) : tab' = if tab.id = id then change tab else tab := by
  rw [toList_update] at mem'
  obtain ⟨before, its_mem, rfl⟩ := List.mem_map.1 mem'
  have its_id : before.id = tab.id := by
    split at same
    · rename_i meant
      rw [← same, keeps before its_mem meant]
    · exact same
  rw [List.inj_on_of_nodup_map tidy.nodup_ids its_mem mem its_id]

theorem eq_of_id (tidy : tabs.Tidy) {tab tab' : Tab} (mem : tab ∈ tabs.toList)
    (mem' : tab' ∈ tabs.toList) (same : tab.id = tab'.id) : tab = tab' :=
  List.inj_on_of_nodup_map tidy.nodup_ids mem mem' same

end Tidy

/-- What a session does with its tabs besides submitting. -/
inductive Move (tabs : Tabs) : Tabs → Prop
  | stay : Move tabs tabs
  | aside (id : Nat) (change : Tab → Tab)
      (h : ∀ tab ∈ tabs.toList, tab.id = id → tab.Aside (change tab)) :
      Move tabs (tabs.update id change)
  | opened (title : Option Text) (user : User) : Move tabs (tabs.openTab title user)
  | closed {tabs' : Tabs} (id : Nat) (h : tabs.close? id = some tabs') : Move tabs tabs'
  | switched {tabs' : Tabs} (id : Nat) (h : tabs.switch? id = some tabs') : Move tabs tabs'

theorem Tidy.move {tabs tabs' : Tabs} (tidy : tabs.Tidy) (h : tabs.Move tabs') : tabs'.Tidy := by
  cases h with
  | stay => exact tidy
  | aside id change h => exact tidy.update fun tab mem same => (h tab mem same).id_eq
  | opened title user => exact tidy.openTab title user
  | closed id h => exact tidy.of_sublist (of_close? h).1 (of_close? h).2
  | switched id h =>
    exact tidy.of_sublist ((of_switch? h).1 ▸ .refl _) (of_switch? h).2

end Tabs

/-! ## Chronicles -/

/-- The tabs after a change, and what a submission did with it to the tab with a number, if it did
anything. -/
structure Glimpse where
  event : Option (Nat × TabEvent)
  tabs : Tabs

/-- What submissions did to the tab with a number. -/
def eventsOf (id : Nat) (log : List Glimpse) : List TabEvent :=
  log.filterMap fun g => g.event.bind fun e => if e.1 = id then some e.2 else none

theorem eventsOf_concat_none (id : Nat) (log : List Glimpse) (tabs : Tabs) :
    eventsOf id (log ++ [⟨none, tabs⟩]) = eventsOf id log := by
  simp [eventsOf]

theorem eventsOf_concat_self (id : Nat) (log : List Glimpse) (e : TabEvent) (tabs : Tabs) :
    eventsOf id (log ++ [⟨some (id, e), tabs⟩]) = eventsOf id log ++ [e] := by
  simp [eventsOf]

theorem eventsOf_concat_of_ne {id other : Nat} (apart : other ≠ id) (log : List Glimpse)
    (e : TabEvent) (tabs : Tabs) :
    eventsOf id (log ++ [⟨some (other, e), tabs⟩]) = eventsOf id log := by
  simp [eventsOf, apart]

/-- One change of the tabs of a session, with what it does to the tab of a submission. A submission
begins in an idle tab and with a line that is not blank; the rest of it may find its tab closed. -/
inductive Change (log : List Glimpse) (tabs : Tabs) : Option (Nat × TabEvent) → Tabs → Prop
  | move {tabs' : Tabs} (h : tabs.Move tabs') : Change log tabs none tabs'
  | begin (tab : Tab) (mem : tab ∈ tabs.toList) (idle : tab.executing = false)
      (some_line : tab.buffer.strip ≠ []) :
      Change log tabs (some (tab.id, .begun tab.buffer.strip))
        (tabs.update tab.id (·.begin tab.buffer.strip))
  | answer (id : Nat) (pending : stageOf (eventsOf id log) = .pending) (result : Result) :
      Change log tabs (some (id, .answered result))
        (tabs.update id (·.showResult Interpreter.clearSequence result))
  | finish (id : Nat) (busy : stageOf (eventsOf id log) ≠ .idle) :
      Change log tabs (some (id, .ended)) (tabs.update id Tab.finish)

/-- What can become of a tab in one change of the tabs, if it is still open then. -/
inductive Tab.Becomes (tab : Tab) : Option (Nat × TabEvent) → Tab → Prop
  | elsewhere (event : Option (Nat × TabEvent)) (other : ∀ e, event ≠ some (tab.id, e)) :
      Becomes tab event tab
  | aside {tab' : Tab} (h : tab.Aside tab') : Becomes tab none tab'
  | begun (idle : tab.executing = false) :
      Becomes tab (some (tab.id, .begun tab.buffer.strip)) (tab.begin tab.buffer.strip)
  | answered (result : Result) :
      Becomes tab (some (tab.id, .answered result))
        (tab.showResult Interpreter.clearSequence result)
  | ended : Becomes tab (some (tab.id, .ended)) tab.finish

/-- The log tells how the tabs of a new session became what they are. -/
inductive Chronicle (user : User) : List Glimpse → Tabs → Prop
  | start : Chronicle user [] (.ofUser user)
  | change {log : List Glimpse} {tabs tabs' : Tabs} {event : Option (Nat × TabEvent)}
      (h : Chronicle user log tabs) (h' : Change log tabs event tabs') :
      Chronicle user (log ++ [⟨event, tabs'⟩]) tabs'

/-- The tabs that the last glimpse shows; before the first one they are those of a new session. -/
def tabsAfter (user : User) (log : List Glimpse) : Tabs :=
  ((log.getLast?).map Glimpse.tabs).getD (.ofUser user)

namespace Change

variable {log : List Glimpse} {tabs tabs' : Tabs} {event : Option (Nat × TabEvent)}

theorem tidy (h : Change log tabs event tabs') (tidy : tabs.Tidy) : tabs'.Tidy := by
  cases h with
  | move h => exact tidy.move h
  | begin => exact tidy.update fun _ _ _ => rfl
  | answer id pending result =>
    refine tidy.update fun tab _ _ => ?_
    rw [Tab.showResult_eq]
  | finish => exact tidy.update fun _ _ _ => rfl

/-- In one change of the tabs each of them becomes what its own event makes of it, or what changes
aside do, or it stays as it is. -/
theorem becomes (h : Change log tabs event tabs') (tidy : tabs.Tidy) {tab tab' : Tab}
    (mem : tab ∈ tabs.toList) (mem' : tab' ∈ tabs'.toList) (same : tab'.id = tab.id) :
    tab.Becomes event tab' := by
  have unchanged {event : Option (Nat × TabEvent)} (other : ∀ e, event ≠ some (tab.id, e))
      (kept : tab' = tab) : tab.Becomes event tab' := by
    rw [kept]
    exact .elsewhere event other
  have elsewhere {id : Nat} {e : TabEvent} (apart : tab.id ≠ id) (e' : TabEvent) :
      some (id, e) ≠ some (tab.id, e') := by
    intro same
    exact apart (Prod.mk.inj (Option.some.inj same)).1.symm
  cases h with
  | move h =>
    cases h with
    | stay => exact unchanged (by nofun) (tidy.eq_of_id mem' mem same)
    | aside id change aside =>
      have found := tidy.eq_of_mem_update (fun t its_mem same => (aside t its_mem same).id_eq)
        mem mem' same
      split at found
      · rename_i meant
        rw [found]
        exact .aside (aside tab mem meant)
      · exact unchanged (by nofun) found
    | opened title user =>
      rw [Tabs.toList_openTab, List.mem_append] at mem'
      rcases mem' with earlier | new
      · exact unchanged (by nofun) (tidy.eq_of_id earlier mem same)
      · have fresh : tab'.id = tabs.nextId := by
          rw [List.mem_singleton.1 new]
          rfl
        have taken := tidy.lt_nextId tab mem
        omega
    | closed id close =>
      exact unchanged (by nofun)
        (tidy.eq_of_id ((Tabs.of_close? close).1.subset mem') mem same)
    | switched id switch =>
      rw [(Tabs.of_switch? switch).1] at mem'
      exact unchanged (by nofun) (tidy.eq_of_id mem' mem same)
  | begin other other_mem idle =>
    have found := tidy.eq_of_mem_update (by intros; rfl) mem mem' same
    split at found
    · rename_i meant
      obtain rfl := tidy.eq_of_id mem other_mem meant
      rw [found]
      exact .begun idle
    · rename_i apart
      exact unchanged (elsewhere apart) found
  | answer id pending result =>
    have found := tidy.eq_of_mem_update (fun t _ _ => by rw [Tab.showResult_eq]) mem mem' same
    split at found
    · rename_i meant
      rw [found, ← meant]
      exact .answered result
    · rename_i apart
      exact unchanged (elsewhere apart) found
  | finish id busy =>
    have found := tidy.eq_of_mem_update (by intros; rfl) mem mem' same
    split at found
    · rename_i meant
      rw [found, ← meant]
      exact .ended
    · rename_i apart
      exact unchanged (elsewhere apart) found

theorem nextId_le (h : Change log tabs event tabs') : tabs.nextId ≤ tabs'.nextId := by
  cases h with
  | move h =>
    cases h with
    | stay => exact Nat.le_refl _
    | aside => exact Nat.le_refl _
    | opened => exact Nat.le_succ _
    | closed id h => exact Nat.le_of_eq (Tabs.of_close? h).2.symm
    | switched id h => exact Nat.le_of_eq (Tabs.of_switch? h).2.symm
  | begin => exact Nat.le_refl _
  | answer => exact Nat.le_refl _
  | finish => exact Nat.le_refl _

end Change

namespace Chronicle

variable {user : User} {log : List Glimpse} {tabs : Tabs}

theorem tidy (h : Chronicle user log tabs) : tabs.Tidy := by
  induction h with
  | start => exact ⟨by simp [Tabs.ofUser, Tabs.toList], by simp [Tabs.ofUser, Tabs.toList, Tab.new]⟩
  | change _ h' ih => exact h'.tidy ih

/-- Nothing has been done yet to a tab whose number is still to come. -/
theorem eventsOf_eq_nil (h : Chronicle user log tabs) {id : Nat} (new : tabs.nextId ≤ id) :
    eventsOf id log = [] := by
  induction h with
  | start => rfl
  | @change log tabs tabs' event h h' ih =>
    have earlier := ih (Nat.le_trans h'.nextId_le new)
    cases h' with
    | move => rw [eventsOf_concat_none, earlier]
    | begin tab mem =>
      have taken := h.tidy.lt_nextId tab mem
      have apart : tab.id ≠ id := Nat.ne_of_lt (Nat.lt_of_lt_of_le taken new)
      rw [eventsOf_concat_of_ne apart, earlier]
    | answer id' pending =>
      have apart : id' ≠ id := by
        rintro rfl
        rw [earlier] at pending
        cases pending
      rw [eventsOf_concat_of_ne apart, earlier]
    | finish id' busy =>
      have apart : id' ≠ id := by
        rintro rfl
        rw [earlier] at busy
        exact busy rfl
      rw [eventsOf_concat_of_ne apart, earlier]

/-- What is done to one tab lets every tab live on: that one with the event, and the others
unchanged. -/
private theorem life_update {tabs : Tabs} {id : Nat} {e : TabEvent} {change : Tab → Tab}
    {tabs' : Tabs} (lives : ∀ tab ∈ tabs.toList, Life (eventsOf tab.id log) tab)
    (same_id : ∀ tab, (change tab).id = tab.id)
    (goes_on : ∀ tab ∈ tabs.toList, tab.id = id →
      Life (eventsOf id log ++ [e]) (change tab)) :
    ∀ tab ∈ (tabs.update id change).toList,
      Life (eventsOf tab.id (log ++ [⟨some (id, e), tabs'⟩])) tab := by
  intro tab mem
  rw [Tabs.toList_update] at mem
  obtain ⟨before, its_mem, rfl⟩ := List.mem_map.1 mem
  split
  · rename_i same
    rw [same_id, same, eventsOf_concat_self]
    exact goes_on before its_mem same
  · rename_i apart
    rw [eventsOf_concat_of_ne (Ne.symm apart)]
    exact lives before its_mem

/-- Every open tab has lived its own life. -/
theorem life (h : Chronicle user log tabs) :
    ∀ tab ∈ tabs.toList, Life (eventsOf tab.id log) tab := by
  -- For all tabs at once: a change of one tab has to leave the lives of the others as they are.
  induction h with
  | start =>
    intro tab mem
    rw [List.mem_singleton.1 mem]
    exact .opened _ _ _
  | @change log tabs tabs' event h h' ih =>
    cases h' with
    | move h' =>
      intro tab mem
      rw [eventsOf_concat_none]
      cases h' with
      | stay => exact ih tab mem
      | aside id change aside =>
        rw [Tabs.toList_update] at mem
        obtain ⟨before, its_mem, rfl⟩ := List.mem_map.1 mem
        split
        · rename_i same
          have moved := aside before its_mem same
          rw [moved.id_eq]
          exact .aside (ih before its_mem) moved
        · exact ih before its_mem
      | opened title user =>
        rw [Tabs.toList_openTab, List.mem_append] at mem
        rcases mem with mem | mem
        · exact ih tab mem
        · rw [List.mem_singleton.1 mem]
          rw [show eventsOf (Tab.new tabs.nextId _ user).id log = [] from
            h.eventsOf_eq_nil (Nat.le_refl _)]
          exact .opened _ _ _
      | closed id close => exact ih tab ((Tabs.of_close? close).1.subset mem)
      | switched id switch =>
        rw [(Tabs.of_switch? switch).1] at mem
        exact ih tab mem
    | begin tab mem idle some_line =>
      refine life_update ih (fun _ => rfl) ?_
      intro tab' mem' same
      obtain rfl := h.tidy.eq_of_id mem' mem same
      exact .begin (ih tab' mem') idle some_line
    | answer id pending result =>
      refine life_update ih (fun tab => by rw [Tab.showResult_eq]) ?_
      rintro tab mem rfl
      exact .answer (ih tab mem) pending result
    | finish id busy =>
      refine life_update ih (fun _ => rfl) ?_
      rintro tab mem rfl
      exact .finish (ih tab mem) busy

theorem tabsAfter_eq (h : Chronicle user log tabs) : tabsAfter user log = tabs := by
  cases h with
  | start => rfl
  | change => simp [tabsAfter]

theorem stageOf_eq_idle (h : Chronicle user log tabs) {tab : Tab} (mem : tab ∈ tabs.toList)
    (idle : tab.executing = false) : stageOf (eventsOf tab.id log) = .idle :=
  (h.life tab mem).stageOf_eq_idle idle

/-- The events of a tab are in order, even when it has been closed. -/
theorem orderly (h : Chronicle user log tabs) (id : Nat) : Orderly (eventsOf id log) := by
  induction h with
  | start => exact .none
  | @change log tabs tabs' event h h' ih =>
    have elsewhere {other : Nat} (e : TabEvent) (apart : other ≠ id) :
        Orderly (eventsOf id (log ++ [⟨some (other, e), tabs'⟩])) := by
      rw [eventsOf_concat_of_ne apart]
      exact ih
    cases h' with
    | move =>
      rw [eventsOf_concat_none]
      exact ih
    | begin tab mem idle =>
      by_cases same : tab.id = id
      · subst same
        rw [eventsOf_concat_self]
        exact .begin ih (h.stageOf_eq_idle mem idle) _
      · exact elsewhere _ same
    | answer id' pending result =>
      by_cases same : id' = id
      · subst same
        rw [eventsOf_concat_self]
        exact .answer ih pending result
      · exact elsewhere _ same
    | finish id' busy =>
      by_cases same : id' = id
      · subst same
        rw [eventsOf_concat_self]
        exact .finish ih busy
      · exact elsewhere _ same

end Chronicle

end GatedConsole
