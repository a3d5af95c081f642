import SyncedBookmarks.Proofs.Incoming

namespace SyncedBookmarks

/-! A record that arrives puts its item where it belongs, or lets it wait in the unfiled folder, and
disturbs no item outside the tags. -/

namespace Tree

/-- The stages of an arrival: the item gets its place, then tags change, and then the rest of the
item. -/
structure Passed (id parent : Int) (before placed tagged after : Tree) : Prop where
  placed_wellFormed : placed.WellFormed
  placed_self : placed.above? id = some parent
  placed_other : ∀ other, other ≠ id → placed.known? other = before.known? other
  placed_guids : placed.guids = before.guids
  placed_nextId : before.nextId ≤ placed.nextId
  retagged : Retagged placed tagged
  wellFormed : after.WellFormed
  other : ∀ other, other ≠ id → after.known? other = tagged.known? other
  guids : after.guids = tagged.guids
  nextId : after.nextId = tagged.nextId

namespace Passed

variable {id parent : Int} {before placed tagged after : Tree}

theorem kept (h : Passed id parent before placed tagged after) {other : Int} {row : Row}
    (hne : other ≠ id) (hrow : before.known? other = some row) (hkept : ¬ placed.TagOwned other) :
    after.known? other = some row := by
  rw [h.other other hne]
  exact h.retagged.kept other row ((h.placed_other other hne).trans hrow) hkept

/-- An item outside the root for tags stays, and a bookmark stays outside of tags. -/
theorem kept_apart (h : Passed id parent before placed tagged after) (hparent : parent ≠ RootId.tags)
    {other : Int} {row : Row} {above : Int} (hne : other ≠ id)
    (hrow : before.known? other = some row) (habove : row.parent = some above)
    (hroot : above ≠ RootId.tags)
    (hurl : row.url.isSome → before.above? above ≠ some RootId.tags) :
    after.known? other = some row := by
  have hplaced := (h.placed_other other hne).trans hrow
  refine h.kept hne hrow ?_
  rintro (⟨found, folder, hfound, hfoundUrl, hfolder, hup⟩ | ⟨hup, -⟩)
  · rw [hplaced] at hfound
    obtain rfl := Option.some.inj hfound
    rw [habove] at hfolder
    obtain rfl := Option.some.inj hfolder
    by_cases heq : above = id
    · rw [heq, h.placed_self] at hup
      exact hparent (Option.some.inj hup)
    · rw [above?_eq_known?, h.placed_other above heq, ← above?_eq_known?] at hup
      exact hurl hfoundUrl hup
  · rw [above?_of_known? hplaced, habove] at hup
    exact hroot (Option.some.inj hup)

/-- A folder outside the root for tags stays. -/
theorem kept_folder (h : Passed id parent before placed tagged after) {other : Int} {row : Row}
    (hne : other ≠ id) (hrow : before.known? other = some row)
    (hfolder : row.typeCode = ItemType.folder.code) (habove : row.parent ≠ some RootId.tags) :
    after.known? other = some row := by
  have hplaced := (h.placed_other other hne).trans hrow
  refine h.kept hne hrow fun howned => habove ?_
  rw [← above?_of_known? hplaced]
  exact (h.placed_wellFormed.of_tagOwned_folder ⟨row, hplaced, hfolder⟩ howned).1

/-- A folder with something other than a bookmark in it stays. -/
theorem kept_holding (h : Passed id parent before placed tagged after) {other child : Int}
    {row found : Row} (hne : other ≠ id) (hrow : before.known? other = some row)
    (hfolder : row.typeCode = ItemType.folder.code) (hchild : placed.known? child = some found)
    (habove : found.parent = some other) (hurl : found.url = none) :
    after.known? other = some row := by
  have hplaced := (h.placed_other other hne).trans hrow
  refine h.kept hne hrow fun howned => ?_
  have hsome := (h.placed_wellFormed.of_tagOwned_folder ⟨row, hplaced, hfolder⟩ howned).2 child
    found hchild habove
  rw [hurl] at hsome
  exact absurd hsome (by simp)

/-- Whatever else there is afterwards was there before or has a GUID that was made up. -/
theorem new (h : Passed id parent before placed tagged after) {other : Int} {row : Row}
    (hne : other ≠ id) (hrow : after.known? other = some row) :
    before.known? other = some row ∨
      (before.nextId ≤ other ∧ ∃ count, row.guid = before.guids.candidate other count) := by
  rw [h.other other hne] at hrow
  rcases h.retagged.new other row hrow with hplaced | hnew
  · rw [h.placed_other other hne] at hplaced
    exact .inl hplaced
  · obtain ⟨count, hcount⟩ := hnew.guid
    rw [h.placed_guids] at hcount
    exact .inr ⟨h.placed_nextId.trans hnew.nextId_le, count, hcount⟩

theorem guids_eq (h : Passed id parent before placed tagged after) : after.guids = before.guids :=
  (h.guids.trans h.retagged.guids).trans h.placed_guids

theorem nextId_le (h : Passed id parent before placed tagged after) :
    before.nextId ≤ after.nextId := by
  rw [h.nextId]
  exact h.placed_nextId.trans h.retagged.nextId_le

end Passed

end Tree

namespace BookmarkStore

open SyncedBookmarks.Action SyncedBookmarks.Tree

theorem passed_of_updated {tree placed tagged last next : Tree} {id : Int} {row final : Row}
    {record : Record} {parent : Int} (h : Updated tree id row record parent placed tagged last)
    (hmarked : Rewritten id final last next) : Passed id parent tree placed tagged next where
  placed_wellFormed := h.place.wellFormed
  placed_self := by
    rw [above?_of_known? h.place.self, Row.placedBy_parent]
  placed_other := fun other hne => h.place.of_ne hne
  placed_guids := h.place.guids
  placed_nextId := h.place.nextId.ge
  retagged := h.tags.retagged h.place.wellFormed
  wellFormed := hmarked.wellFormed
  other := fun other hne => (hmarked.of_ne hne).trans (h.details.of_ne hne)
  guids := hmarked.guids.trans h.details.guids
  nextId := hmarked.nextId.trans h.details.nextId

theorem passed_of_created {tree tagged filled last next : Tree} {named final : Row}
    {record : Record} {parent : Int} (hwell : tree.WellFormed)
    (hcreates : Creates tree record parent) (h : Created tree record parent tagged filled)
    (hnamed : Rewritten tree.nextId named filled last)
    (hmarked : Rewritten tree.nextId final last next) :
    Passed tree.nextId parent tree
      (tree.inserted parent Places.atEnd record.itemType record.newTitle record.newUrl) tagged
      next := by
  have hinserted := hwell.inserted hcreates.folder Places.atEnd (fitting_of_creates hcreates)
  exact
    { placed_wellFormed := hinserted
      placed_self := by
        rw [above?_of_known? (hwell.known?_inserted_self _ _ _ _ _)]
        rfl
      placed_other := fun other hne => by rw [hwell.known?_inserted, if_neg hne]
      placed_guids := guids_inserted _ _ _ _ _ _
      placed_nextId := by
        rw [nextId_inserted]
        omega
      retagged := h.tags.retagged hinserted
      wellFormed := hmarked.wellFormed
      other := fun other hne =>
        ((hmarked.of_ne hne).trans (hnamed.of_ne hne)).trans (h.details.of_ne hne)
      guids := (hmarked.guids.trans hnamed.guids).trans h.details.guids
      nextId := (hmarked.nextId.trans hnamed.nextId).trans h.details.nextId }

end BookmarkStore

end SyncedBookmarks
