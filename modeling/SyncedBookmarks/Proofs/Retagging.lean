import SyncedBookmarks.Proofs.StoreSteps

namespace SyncedBookmarks

/-! Replacing the tags of a URI: the URI has the new tags afterwards, other URIs keep theirs, and
away from the tags nothing changes. -/

namespace Tree

/-- What may go when tags change: a bookmark in a tag, and a tag with nothing but bookmarks. -/
def TagOwned (tree : Tree) (id : Int) : Prop :=
  (∃ row folder, tree.known? id = some row ∧ row.url.isSome ∧ row.parent = some folder ∧
      tree.above? folder = some RootId.tags) ∨
    (tree.above? id = some RootId.tags ∧
      ∀ child row, tree.known? child = some row → row.parent = some id → row.url.isSome)

/-- Whether a place is neither the root for tags nor a tag. -/
def OutsideTags (tree : Tree) (place : Option Int) : Prop :=
  ∀ parent, place = some parent → parent ≠ RootId.tags ∧ tree.above? parent ≠ some RootId.tags

theorem OutsideTags.not_tagOwned {tree : Tree} {id : Int} {row : Row}
    (h : tree.OutsideTags row.parent) (hrow : tree.known? id = some row) : ¬ tree.TagOwned id := by
  rintro (⟨found, folder, hfound, -, hparent, habove⟩ | ⟨habove, -⟩)
  · rw [hrow] at hfound
    obtain rfl := Option.some.inj hfound
    exact (h folder hparent).2 habove
  · rw [above?_of_known? hrow] at habove
    exact (h _ habove).1 rfl

/-- Of the folders only a tag with nothing but bookmarks may go. -/
theorem WellFormed.of_tagOwned_folder {tree : Tree} (h : tree.WellFormed) {id : Int}
    (hfolder : tree.IsFolder id) (howned : tree.TagOwned id) :
    tree.above? id = some RootId.tags ∧
      ∀ child row, tree.known? child = some row → row.parent = some id → row.url.isSome := by
  refine howned.resolve_left ?_
  rintro ⟨row, -, hrow, hurl, -⟩
  obtain ⟨found, hfound, hcode⟩ := hfolder
  obtain rfl := Option.some.inj (hrow.symm.trans hfound)
  rw [(h.sound id row hrow).url_iff.mp hurl] at hcode
  exact absurd hcode (by decide)

structure Retagged (before after : Tree) : Prop where
  wellFormed : after.WellFormed
  guids : after.guids = before.guids
  nextId_le : before.nextId ≤ after.nextId
  kept : ∀ id row, before.known? id = some row → ¬ before.TagOwned id → after.known? id = some row
  new : ∀ id row, after.known? id = some row →
    before.known? id = some row ∨ NewTagRow before after id row

namespace Retagged

theorem of_grown {before after : Tree} (h : TagsGrown before after) : Retagged before after where
  wellFormed := h.wellFormed
  guids := h.guids
  nextId_le := h.nextId_le
  kept := fun id row hrow _ => h.kept id row hrow
  new := h.new

theorem of_untagged {before after : Tree} {uri : String} {picked : Int → Prop}
    (h : Cleared (before.Untagged uri picked) before after) : Retagged before after where
  wellFormed := h.wellFormed
  guids := h.guids
  nextId_le := h.nextId.ge
  kept := by
    intro id row hrow hkept
    rw [h.kept id ?_, hrow]
    rintro ⟨folder, hfolder, -, ⟨found, hfound, hparent, hurl⟩ | ⟨rfl, hall⟩⟩
    · exact hkept (.inl ⟨found, folder, hfound, by rw [hurl]; rfl, hparent, hfolder⟩)
    · refine hkept (.inr ⟨hfolder, ?_⟩)
      intro child childRow hchild hparent
      rw [hall child childRow hchild hparent]
      rfl
  new := fun id row hrow => .inl (h.known?_of_some hrow).2

theorem refl {tree : Tree} (h : tree.WellFormed) : Retagged tree tree :=
  of_grown (TagsGrown.refl h)

/-- A row from before cannot have become one of a new number. -/
theorem known?_of_old {before after : Tree} (h : Retagged before after)
    (hwell : before.WellFormed) {id : Int} {row found : Row} (hrow : before.known? id = some row)
    (hfound : after.known? id = some found) : found = row := by
  rcases h.new id found hfound with hbefore | hnew
  · rw [hrow] at hbefore
    exact (Option.some.inj hbefore).symm
  · have hlt := (hwell.id_bounds id row hrow).2
    have hle := hnew.nextId_le
    omega

/-- What no tag owns, no tag comes to own. -/
theorem not_tagOwned {before after : Tree} (h : Retagged before after) (hwell : before.WellFormed)
    {id : Int} {row : Row} (hrow : before.known? id = some row) (hkept : ¬ before.TagOwned id) :
    ¬ after.TagOwned id := by
  have hafter := h.kept id row hrow hkept
  rintro (⟨found, folder, hfound, hurl, hparent, habove⟩ | ⟨habove, hall⟩)
  · rw [hafter] at hfound
    obtain rfl := Option.some.inj hfound
    obtain ⟨place, hplace, -⟩ :=
      hwell.parent_folder id folder ((above?_of_known? hrow).trans hparent)
    obtain ⟨place', hplace', hplaceParent⟩ := known?_of_above? habove
    rw [h.known?_of_old hwell hplace hplace'] at hplaceParent
    exact hkept (.inl ⟨row, folder, hrow, hurl, hparent,
      (above?_of_known? hplace).trans hplaceParent⟩)
  · have hbefore : before.above? id = some RootId.tags := by
      rw [above?_of_known? hafter] at habove
      exact (above?_of_known? hrow).trans habove
    refine hkept (.inr ⟨hbefore, ?_⟩)
    intro child childRow hchild hparent
    by_contra hurl
    -- A child without a URL is owned by no tag, so it is there still.
    have hchildKept : ¬ before.TagOwned child := by
      rintro (⟨found, -, hfound, hfoundUrl, -⟩ | ⟨hchildAbove, -⟩)
      · rw [hchild] at hfound
        exact hurl (Option.some.inj hfound ▸ hfoundUrl)
      · rw [above?_of_known? hchild, hparent] at hchildAbove
        rw [Option.some.inj hchildAbove] at hbefore
        exact hwell.not_encloses_parent hbefore (Encloses.refl before _)
    exact hurl (hall child childRow (h.kept child childRow hchild hchildKept) hparent)

theorem trans {before middle after : Tree} (hwell : before.WellFormed)
    (hfirst : Retagged before middle) (hsecond : Retagged middle after) :
    Retagged before after where
  wellFormed := hsecond.wellFormed
  guids := hsecond.guids.trans hfirst.guids
  nextId_le := hfirst.nextId_le.trans hsecond.nextId_le
  kept := by
    intro id row hrow hkept
    exact hsecond.kept id row (hfirst.kept id row hrow hkept)
      (hfirst.not_tagOwned hwell hrow hkept)
  new := by
    intro id row hrow
    rcases hsecond.new id row hrow with hmiddle | hnew
    · rcases hfirst.new id row hmiddle with hbefore | hnew
      · exact .inl hbefore
      · obtain ⟨parent, hparent, hplace⟩ := hnew.parent
        refine .inr { hnew with parent := ⟨parent, hparent, hplace.imp_right ?_⟩ }
        intro habove
        obtain ⟨place, hplace, hplaceParent⟩ := known?_of_above? habove
        obtain ⟨place', hplace', -⟩ := hsecond.wellFormed.parent_folder id parent
          ((above?_of_known? hrow).trans hparent)
        rw [above?_of_known? hplace', hsecond.known?_of_old hfirst.wellFormed hplace hplace',
          hplaceParent]
    · exact .inr
        { hnew with
          nextId_le := hfirst.nextId_le.trans hnew.nextId_le
          guid := by
            rw [← hfirst.guids]
            exact hnew.guid }

end Retagged

/-! ### Without a URI -/

theorem Cleared.not_tagHolds {tree next : Tree} {uri : String}
    (h : Cleared (tree.Untagged uri (tree.PickedBy none)) tree next) (folder : Int) :
    ¬ next.TagHolds folder uri := by
  rintro ⟨habove, id, row, hrow, hparent, hurl⟩
  obtain ⟨hkept, hbefore⟩ := h.known?_of_some hrow
  exact hkept ⟨folder, h.above?_of_some habove, by simp [PickedBy],
    .inl ⟨row, hbefore, hparent, hurl⟩⟩

theorem Cleared.sameTags {tree next : Tree} (hwell : tree.WellFormed) {uri : String}
    {picked : Int → Prop} (h : Cleared (tree.Untagged uri picked) tree next) {other : String}
    (hne : other ≠ uri) : SameTags tree next other := by
  have htags : ∀ place, tree.above? place = some RootId.tags → place ≠ RootId.tags := by
    rintro place habove rfl
    exact hwell.not_encloses_parent habove (Encloses.refl tree _)
  intro folder
  have hforth : tree.TagHolds folder other →
      next.TagHolds folder other ∧ next.known? folder = tree.known? folder := by
    rintro ⟨habove, id, row, hrow, hparent, hurl⟩
    have hfolder : ¬ tree.Untagged uri picked folder := by
      rintro ⟨place, hplace, -, ⟨found, hfound, hfoundParent, -⟩ | ⟨rfl, hall⟩⟩
      · rw [above?_of_known? hfound, hfoundParent] at habove
        exact htags place hplace (Option.some.inj habove)
      · rw [hall id row hrow hparent] at hurl
        exact hne (Option.some.inj hurl).symm
    have hid : ¬ tree.Untagged uri picked id := by
      rintro ⟨place, hplace, -, ⟨found, hfound, -, hfoundUrl⟩ | ⟨rfl, -⟩⟩
      · rw [hrow] at hfound
        rw [← Option.some.inj hfound, hurl] at hfoundUrl
        exact hne (Option.some.inj hfoundUrl)
      · rw [above?_of_known? hrow, hparent] at hplace
        exact htags folder habove (Option.some.inj hplace)
    exact ⟨⟨by rw [h.above?_of_kept hfolder, habove], id, row, by rw [h.kept id hid, hrow],
      hparent, hurl⟩, h.kept folder hfolder⟩
  refine ⟨⟨?_, fun hholds => (hforth hholds).1⟩, ?_⟩
  · rintro ⟨habove, id, row, hrow, hparent, hurl⟩
    exact ⟨h.above?_of_some habove, id, row, (h.known?_of_some hrow).2, hparent, hurl⟩
  · intro hholds
    rw [tagTitle, (hforth hholds).2, tagTitle]

end Tree

namespace BookmarkStore

open SyncedBookmarks.Action SyncedBookmarks.Tree

theorem validateUri_holdingUri : validateUri holdingUri = .ok holdingUri := rfl

/-- What replacing the tags of a URI comes to. -/
structure TagsReplaced (uri : String) (tags : List String) (before after : Tree) : Prop where
  retagged : Retagged before after
  same : ∀ other, other ≠ uri → other ≠ holdingUri → SameTags before after other
  tagged : uri ≠ holdingUri → tags.Nodup → after.TaggedWith uri tags

theorem isFolder_tags_of_retagged {before after : Tree} (hwell : before.WellFormed)
    (h : Retagged before after) (htags : before.IsFolder RootId.tags) :
    after.IsFolder RootId.tags := by
  have ⟨row, hrow, hcode⟩ := htags
  refine ⟨row, h.kept _ _ hrow fun howned => ?_, hcode⟩
  exact hwell.not_encloses_parent (hwell.of_tagOwned_folder htags howned).1 (Encloses.refl before _)

theorem leads_replaceTags {tree : Tree} (h : tree.WellFormed) {uri : String}
    (huri : validateUri uri = .ok uri) {tags : List String}
    (htags : tags.filter (!·.isEmpty) = [] ∨ tree.IsFolder RootId.tags) :
    Leads (replaceTags uri tags) tree fun _ next =>
      TagsReplaced uri (tags.filter (!·.isEmpty)) tree next := by
  rw [replaceTags]
  generalize hgiven : tags.filter (!·.isEmpty) = given at htags
  have hne : ∀ tag ∈ given, tag ≠ "" := by
    intro tag htag
    rw [← hgiven] at htag
    simpa using (List.mem_filter.mp htag).2
  refine (leads_onTree (Places.leads_tagUri h validateUri_holdingUri hne htags)).bind ?_
  intro _ held hheld
  have hheldFrame := Retagged.of_grown hheld.grown
  have hheldWell := hheld.grown.wellFormed
  refine (leads_onTree (Places.leads_untagUri hheldWell huri none)).bind ?_
  intro _ bare hbare
  have hbareFrame := hheldFrame.trans h (Retagged.of_untagged hbare)
  have hbareTags : given = [] ∨ bare.IsFolder RootId.tags :=
    htags.imp_right (isFolder_tags_of_retagged h hbareFrame)
  refine (leads_onTree (Places.leads_tagUri hbare.wellFormed huri hne hbareTags)).bind ?_
  intro _ tagged htagged
  have htaggedFrame := hbareFrame.trans h (Retagged.of_grown htagged.grown)
  have htaggedWell := htagged.grown.wellFormed
  refine (leads_onTree (Places.leads_untagUri htaggedWell validateUri_holdingUri none)).imp ?_
  intro _ next hnext
  constructor
  case retagged => exact htaggedFrame.trans h (Retagged.of_untagged hnext)
  case same =>
    intro other hother hholding
    exact (((hheld.same other hholding).trans (hbare.sameTags hheldWell hother)).trans
      (htagged.same other hother)).trans (hnext.sameTags htaggedWell hholding)
  case tagged =>
    intro hholding hnodup
    exact (hnext.sameTags htaggedWell hholding).taggedWith
      (htagged.tagged (taggedWith_nil hbare.not_tagHolds) hnodup)

theorem keeps_replaceTags (uri : String) (tags : List String) :
    (replaceTags uri tags).Keeps WellFormed :=
  (keeps_onTree (Places.keeps_tagUri _ _)).bind fun _ =>
    (keeps_onTree (Places.keeps_untagUri _ _)).bind fun _ =>
      (keeps_onTree (Places.keeps_tagUri _ _)).bind fun _ =>
        keeps_onTree (Places.keeps_untagUri _ _)

end BookmarkStore

end SyncedBookmarks
