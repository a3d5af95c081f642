import Mathlib.Data.List.Nodup
import SyncedBookmarks.Tracker

namespace SyncedBookmarks

/-! What the operations of the tracker make of the set of changed items, and what they leave as it
is. -/

namespace Ledger

theorem nodup_addChange {ledger : Ledger} (h : ledger.changes.Nodup) (collection guid : String) :
    (ledger.addChange collection guid).changes.Nodup := by
  rw [addChange]
  split
  · exact h
  · rename_i hnew
    refine List.nodup_append.mpr ⟨h, List.nodup_singleton _, ?_⟩
    rintro entry hentry _ hlast rfl
    rw [List.mem_singleton] at hlast
    subst hlast
    exact hnew (List.contains_iff_mem.mpr hentry)

theorem times_addChange (ledger : Ledger) (collection guid : String) :
    (ledger.addChange collection guid).times = ledger.times := by
  rw [addChange]
  split <;> rfl

theorem nodup_changesOf {ledger : Ledger} (h : ledger.changes.Nodup) (collection : String) :
    (ledger.changesOf collection).Nodup := by
  refine (h.filter _).map_on ?_
  intro first hfirst second hsecond heq
  have hfirst := (List.mem_filter.mp hfirst).2
  have hsecond := (List.mem_filter.mp hsecond).2
  exact Prod.ext ((beq_iff_eq.mp hfirst).trans (beq_iff_eq.mp hsecond).symm) heq

theorem setLastSync_setLastSync (ledger : Ledger) (collection : String)
    (first second : Timestamp) :
    (ledger.setLastSync collection first).setLastSync collection second =
      ledger.setLastSync collection second := by
  simp [setLastSync, List.filter_filter]

end Ledger

namespace Tracker

/-- The set of changed items and the journal of it list each item once. -/
structure Sound (tracker : Tracker) : Prop where
  changed : tracker.changed.Nodup
  journal : tracker.ledger.changes.Nodup

/-- What marking and clearing items leaves as it is. -/
structure Marks (before after : Tracker) : Prop where
  sound : before.Sound → after.Sound
  ignored : after.ignored = before.ignored
  suppressed : after.suppressed = before.suppressed
  journal : after.journal = before.journal
  times : after.ledger.times = before.ledger.times

namespace Marks

theorem refl (tracker : Tracker) : tracker.Marks tracker :=
  ⟨id, rfl, rfl, rfl, rfl⟩

theorem trans {first second third : Tracker} (h : first.Marks second) (h' : second.Marks third) :
    first.Marks third where
  sound := h'.sound ∘ h.sound
  ignored := h'.ignored.trans h.ignored
  suppressed := h'.suppressed.trans h.suppressed
  journal := h'.journal.trans h.journal
  times := h'.times.trans h.times

theorem foldl {step : Tracker → α → Tracker}
    (hstep : ∀ (tracker : Tracker) x, tracker.Marks (step tracker x))
    (tracker : Tracker) (xs : List α) : tracker.Marks (xs.foldl step tracker) := by
  induction xs generalizing tracker with
  | nil => exact refl tracker
  | cons x xs ih => exact (hstep tracker x).trans (ih _)

end Marks

/-! ### Writing through to the ledger -/

@[simp] theorem changed_withJournal (tracker : Tracker) (write : Ledger → String → Ledger) :
    (tracker.withJournal write).changed = tracker.changed := by
  rw [withJournal]
  split <;> rfl

theorem marks_withJournal (before after : Tracker) {write : Ledger → String → Ledger}
    (hchanged : before.changed.Nodup → after.changed.Nodup)
    (hignored : after.ignored = before.ignored) (hsuppressed : after.suppressed = before.suppressed)
    (hjournal : after.journal = before.journal) (hledger : after.ledger = before.ledger)
    (hnodup : ∀ ledger collection, ledger.changes.Nodup → (write ledger collection).changes.Nodup)
    (htimes : ∀ ledger collection, (write ledger collection).times = ledger.times) :
    before.Marks (after.withJournal write) := by
  rw [withJournal]
  split
  · exact
      { sound := fun h => ⟨hchanged h.changed, hnodup _ _ (by rw [hledger]; exact h.journal)⟩
        ignored := hignored
        suppressed := hsuppressed
        journal := hjournal
        times := (htimes _ _).trans (by rw [hledger]) }
  · exact
      { sound := fun h => ⟨hchanged h.changed, by rw [hledger]; exact h.journal⟩
        ignored := hignored
        suppressed := hsuppressed
        journal := hjournal
        times := by rw [hledger] }

/-! ### Marking items -/

theorem marks_add (tracker : Tracker) (guid : String) : tracker.Marks (tracker.add guid).2 := by
  rw [add]
  split
  · exact Marks.refl tracker
  · rename_i hnew
    refine marks_withJournal tracker { tracker with changed := tracker.changed ++ [guid] }
      ?_ rfl rfl rfl rfl (fun ledger collection h => Ledger.nodup_addChange h collection guid)
      fun ledger collection => ledger.times_addChange collection guid
    intro hnodup
    refine List.nodup_append.mpr ⟨hnodup, List.nodup_singleton _, ?_⟩
    rintro entry hentry _ hlast rfl
    rw [List.mem_singleton] at hlast
    subst hlast
    exact hnew (by simp [hentry])

theorem mem_changed_add (tracker : Tracker) (guid other : String) :
    other ∈ (tracker.add guid).2.changed ↔
      other ∈ tracker.changed ∨ other = guid ∧ guid ∉ tracker.ignored := by
  rw [add]
  split
  · rename_i hold
    rw [Bool.or_eq_true, List.contains_iff_mem, List.contains_iff_mem] at hold
    rw [iff_self_or]
    rintro ⟨rfl, hignored⟩
    exact hold.resolve_left hignored
  · rename_i hnew
    rw [Bool.or_eq_true, List.contains_iff_mem, List.contains_iff_mem, not_or] at hnew
    simp [hnew.1]

theorem marks_addAll (tracker : Tracker) (guids : List String) :
    tracker.Marks (tracker.addAll guids) :=
  Marks.foldl marks_add tracker guids

theorem mem_changed_addAll (tracker : Tracker) (guids : List String) (other : String) :
    other ∈ (tracker.addAll guids).changed ↔
      other ∈ tracker.changed ∨ other ∈ guids ∧ other ∉ tracker.ignored := by
  induction guids generalizing tracker with
  | nil => simp [addAll]
  | cons guid guids ih =>
      change other ∈ ((tracker.add guid).2.addAll guids).changed ↔ _
      rw [ih, mem_changed_add, (tracker.marks_add guid).ignored, List.mem_cons, or_assoc]
      refine or_congr_right ?_
      constructor
      · rintro (⟨rfl, hignored⟩ | ⟨hmem, hignored⟩)
        · exact ⟨.inl rfl, hignored⟩
        · exact ⟨.inr hmem, hignored⟩
      · rintro ⟨rfl | hmem, hignored⟩
        · exact .inl ⟨rfl, hignored⟩
        · exact .inr ⟨hmem, hignored⟩

/-- Marking items that are marked or passed over changes nothing. -/
theorem addAll_of_marked {tracker : Tracker} {guids : List String}
    (h : ∀ guid ∈ guids, guid ∈ tracker.ignored ∨ guid ∈ tracker.changed) :
    tracker.addAll guids = tracker := by
  induction guids with
  | nil => rfl
  | cons guid guids ih =>
      have hadd : (tracker.add guid).2 = tracker := by
        rw [add, if_pos]
        simpa using h guid List.mem_cons_self
      change (tracker.add guid).2.addAll guids = tracker
      rw [hadd]
      exact ih fun other hother => h other (List.mem_cons_of_mem _ hother)

/-! ### Clearing items -/

theorem marks_remove (tracker : Tracker) (guid : String) : tracker.Marks (tracker.remove guid) := by
  rw [remove]
  split
  · exact marks_withJournal tracker { tracker with changed := tracker.changed.filter (· != guid) }
      (fun hnodup => hnodup.filter _) rfl rfl rfl rfl
      (fun ledger collection h => h.filter _) fun _ _ => rfl
  · exact Marks.refl tracker

theorem mem_changed_remove (tracker : Tracker) (guid other : String) :
    other ∈ (tracker.remove guid).changed ↔ other ∈ tracker.changed ∧ other ≠ guid := by
  rw [remove]
  split
  · simp
  · rename_i hclean
    rw [List.contains_iff_mem] at hclean
    rw [iff_self_and]
    rintro hmem rfl
    exact hclean hmem

theorem marks_removeAll (tracker : Tracker) (guids : List String) :
    tracker.Marks (tracker.removeAll guids) :=
  Marks.foldl marks_remove tracker guids

theorem mem_changed_removeAll (tracker : Tracker) (guids : List String) (other : String) :
    other ∈ (tracker.removeAll guids).changed ↔ other ∈ tracker.changed ∧ other ∉ guids := by
  induction guids generalizing tracker with
  | nil => simp [removeAll]
  | cons guid guids ih =>
      change other ∈ ((tracker.remove guid).removeAll guids).changed ↔ _
      rw [ih, mem_changed_remove, List.mem_cons, not_or, and_assoc]

theorem marks_clear (tracker : Tracker) : tracker.Marks tracker.clear :=
  marks_withJournal tracker { tracker with changed := [] } (fun _ => List.nodup_nil) rfl rfl rfl rfl
    (fun _ _ h => h.filter _) fun _ _ => rfl

/-! ### Listening -/

/-- Hearing of an item marks it; beside that only the score may change. -/
theorem touch_eq {tree : Tree} {id : Int} {guid : String} (hguid : tree.guidOf? id = some guid)
    (tracker : Tracker) :
    ∃ score, tracker.touch tree id = { (tracker.add guid).2 with score } := by
  rw [touch, hguid]
  dsimp only
  rcases tracker.add guid with ⟨_ | _, next⟩
  · exact ⟨next.score, rfl⟩
  · exact ⟨next.score + increment, rfl⟩

theorem marks_touch (tracker : Tracker) (tree : Tree) (id : Int) :
    tracker.Marks (tracker.touch tree id) := by
  cases hguid : tree.guidOf? id with
  | none =>
      rw [touch, hguid]
      exact Marks.refl tracker
  | some guid =>
      obtain ⟨score, htouch⟩ := touch_eq hguid tracker
      have hmarks := tracker.marks_add guid
      rw [htouch]
      exact
        { sound := fun h => ⟨(hmarks.sound h).changed, (hmarks.sound h).journal⟩
          ignored := hmarks.ignored
          suppressed := hmarks.suppressed
          journal := hmarks.journal
          times := hmarks.times }

theorem marks_hear (tracker : Tracker) (notice : Notice) : tracker.Marks (tracker.hear notice) := by
  rw [hear]
  cases notice.event with
  | batchBegun => exact Marks.refl tracker
  | batchEnded => exact Marks.refl tracker
  | _ =>
      dsimp only
      split
      · exact Marks.refl tracker
      · exact tracker.marks_touch _ _

theorem marks_hearAll (tracker : Tracker) (notices : List Notice) :
    tracker.Marks (tracker.hearAll notices) :=
  Marks.foldl marks_hear tracker notices

theorem mem_changed_touch {tracker : Tracker} {other : String} (h : other ∈ tracker.changed)
    (tree : Tree) (id : Int) : other ∈ (tracker.touch tree id).changed := by
  cases hguid : tree.guidOf? id with
  | none =>
      rw [touch, hguid]
      exact h
  | some guid =>
      obtain ⟨score, htouch⟩ := touch_eq hguid tracker
      rw [htouch]
      exact (tracker.mem_changed_add guid other).mpr (.inl h)

/-- Nothing that is told takes an item off the list. -/
theorem mem_changed_hearAll {tracker : Tracker} {other : String} (h : other ∈ tracker.changed)
    (notices : List Notice) : other ∈ (tracker.hearAll notices).changed := by
  induction notices generalizing tracker with
  | nil => exact h
  | cons notice notices ih =>
      refine ih ?_
      rw [hear]
      cases notice.event with
      | batchBegun => exact h
      | batchEnded => exact h
      | _ =>
          dsimp only
          split
          · exact h
          · exact mem_changed_touch h _ _

theorem hear_of_suppressed {tracker : Tracker} (h : tracker.suppressed = true) (notice : Notice) :
    tracker.hear notice = tracker := by
  have hpassed : ∀ tree id folder, tracker.passesOver tree id folder = true := by
    intro tree id folder
    rw [passesOver, h, Bool.true_or]
  rw [hear]
  cases notice.event <;> simp [hpassed]

theorem hearAll_of_suppressed {tracker : Tracker} (h : tracker.suppressed = true)
    (notices : List Notice) : tracker.hearAll notices = tracker := by
  induction notices with
  | nil => rfl
  | cons notice notices ih =>
      change (tracker.hear notice).hearAll notices = tracker
      rw [hear_of_suppressed h, ih]

/-- The beginnings and ends of batches change no item. -/
theorem hearAll_of_batch {tracker : Tracker} {notices : List Notice}
    (h : ∀ notice ∈ notices, notice.event = .batchBegun ∨ notice.event = .batchEnded) :
    tracker.hearAll notices = tracker := by
  induction notices with
  | nil => rfl
  | cons notice notices ih =>
      have hsame : tracker.hear notice = tracker := by
        rw [hear]
        rcases h notice (by simp) with hevent | hevent <;> rw [hevent]
      change (tracker.hear notice).hearAll notices = tracker
      rw [hsame]
      exact ih fun other hother => h other (by simp [hother])

end Tracker

end SyncedBookmarks
