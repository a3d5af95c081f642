import SyncedBookmarks.Proofs.TagFolders

namespace SyncedBookmarks

/-! Replacing the tags of a URI is exact: the URI comes to have the tags that it is given, each in
the folder that the tag had, and no other URI's tags change. -/

namespace Action

theorem Yields.and {action : Action σ ε α} {state : σ} {post post' : α → σ → Prop}
    (h : action.Yields state post) (h' : action.Yields state post') :
    action.Yields state fun value next => post value next ∧ post' value next := by
  obtain ⟨value, next, hresult, hpost⟩ := h
  obtain ⟨_, _, hresult', hpost'⟩ := h'
  obtain ⟨hvalue, rfl⟩ := Prod.mk.inj (hresult.symm.trans hresult')
  obtain rfl := Except.ok.inj hvalue
  exact ⟨value, next, hresult, hpost, hpost'⟩

end Action

namespace Tree

variable {tree before after : Tree} {uri : String}

theorem WellFormed.isFolder_tags (h : tree.WellFormed) (hthere : (tree.row? RootId.tags).isSome) :
    tree.IsFolder RootId.tags := by
  rw [← isSome_known?] at hthere
  obtain ⟨row, hrow⟩ := Option.isSome_iff_exists.mp hthere
  refine ⟨row, hrow, (h.sound _ row hrow).root_folder ?_⟩
  rw [id_of_known? hrow]
  decide

theorem SameTags.tagsOf_eq (h : SameTags before after uri) (hbefore : before.WellFormed)
    (hafter : after.WellFormed) : after.tagsOf uri = before.tagsOf uri := by
  cases huri : validateUri uri with
  | error cause =>
      rw [tagsOf, huri, tagsOf, huri]
      rfl
  | ok checked =>
      obtain rfl := eq_of_validateUri huri
      obtain ⟨tags, htagged⟩ := hbefore.exists_taggedWith checked
      rw [Places.tagsOf_of_taggedWith hafter huri (h.taggedWith htagged),
        Places.tagsOf_of_taggedWith hbefore huri htagged]

theorem tagsOf_of_not_tagHolds (h : tree.WellFormed) (huri : validateUri uri = .ok uri)
    (hnone : ∀ folder, ¬ tree.TagHolds folder uri) : tree.tagsOf uri = .ok [] := by
  rw [Places.tagsOf_of_taggedWith h huri (taggedWith_nil hnone), List.mergeSort_nil]

/-- A tag that has another URI too keeps its folder, and that URI in it. -/
theorem FirstTag.untagged {tag other : String} {folder : Int} {picked : Int → Prop}
    (hfirst : tree.FirstTag tag folder) (h : tree.WellFormed)
    (hcleared : Cleared (tree.Untagged uri picked) tree after) (horder : InOrder tree after)
    (hholds : tree.Holds folder other) (hne : other ≠ uri) :
    after.FirstTag tag folder ∧ after.Holds folder other := by
  obtain ⟨id, row, hrow, hparent, hurl⟩ := hholds
  have hother : row.url ≠ some uri := fun heq => hne (Option.some.inj (hurl.symm.trans heq))
  obtain ⟨hkept, hentry⟩ := h.not_untagged hfirst.isTag.above? hrow hparent fun _ => hother
  exact ⟨hfirst.cleared hcleared horder hkept, id, row, (hcleared.kept id hentry).trans hrow,
    hparent, hurl⟩

end Tree

namespace BookmarkStore

open SyncedBookmarks.Action SyncedBookmarks.Tree

variable {tree next : Tree} {uri : String} {tags : List String}

/-- What replacing the tags of a URI makes of the folders of the tags. -/
structure TagsExchanged (uri : String) (tags : List String) (before after : Tree) : Prop where
  retagged : Retagged before after
  only : before.OnlyTags → after.OnlyTags
  same : ∀ other, other ≠ uri → other ≠ holdingUri → SameTags before after other
  others : ∀ other, other ≠ uri → other ≠ holdingUri → ∀ tag folder, before.FirstTag tag folder →
    before.Holds folder other → after.FirstTag tag folder ∧ after.Holds folder other
  firsts : ∀ tag ∈ tags, ∀ folder, before.FirstTag tag folder → after.FirstTag tag folder
  given : ∀ tag ∈ tags, ∃ folder, after.FirstTag tag folder ∧ after.Holds folder uri
  source : ∀ folder, after.TagHolds folder uri → ∃ tag ∈ tags, after.FirstTag tag folder
  unheld : ∀ folder, ¬ after.TagHolds folder holdingUri
  noneEmpty : after.NoneEmpty

/-- The passes that replace the tags of a URI: a throwaway URI is given the new tags, the URI loses
all that it has, it is given the new ones, and the throwaway URI loses them. -/
structure TagPasses (uri : String) (tags : List String) (tree held bare tagged next : Tree) :
    Prop where
  sheltered : Places.TagsEntered holdingUri tags tree held
  untagged : Cleared (held.Untagged uri (held.PickedBy none)) held bare
  untaggedOrder : InOrder held bare
  retagged : Places.TagsEntered uri tags bare tagged
  released : Cleared (tagged.Untagged holdingUri (tagged.PickedBy none)) tagged next
  releasedOrder : InOrder tagged next

theorem leads_replaceTags_passes (h : tree.WellFormed) (htags : tree.IsFolder RootId.tags)
    (huri : validateUri uri = .ok uri) (tags : List String) :
    Leads (replaceTags uri tags) tree fun _ next => ∃ held bare tagged,
      TagPasses uri (tags.filter (!·.isEmpty)) tree held bare tagged next := by
  have hfilter : (tags.filter (!·.isEmpty)).filter (!·.isEmpty) = tags.filter (!·.isEmpty) := by
    rw [List.filter_filter]
    simp only [Bool.and_self]
  rw [replaceTags]
  refine (leads_onTree (Places.leads_tagUri_entered h htags validateUri_holdingUri _)).bind ?_
  rw [hfilter]
  intro _ held hheld
  have hheldWell := hheld.grown.wellFormed
  refine (leads_onTree (Places.leads_untagUri_inOrder hheldWell huri none)).bind ?_
  rintro _ bare ⟨hbare, hbareOrder⟩
  have hbareTags : bare.IsFolder RootId.tags :=
    isFolder_tags_of_retagged hheldWell (Retagged.of_untagged hbare) (hheld.grown.isFolder htags)
  refine (leads_onTree (Places.leads_tagUri_entered hbare.wellFormed hbareTags huri _)).bind ?_
  rw [hfilter]
  intro _ tagged htagged
  refine (leads_onTree (Places.leads_untagUri_inOrder htagged.grown.wellFormed
    validateUri_holdingUri none)).imp ?_
  rintro _ next ⟨hnext, hnextOrder⟩
  exact ⟨held, bare, tagged, hheld, hbare, hbareOrder, htagged, hnext, hnextOrder⟩

namespace TagPasses

variable {held bare tagged : Tree} {tag : String} {folder : Int}
  (h : TagPasses uri tags tree held bare tagged next)

include h

/-- A tag of the URI keeps its folder when the throwaway URI is taken out of it. -/
theorem keeps_given (hne : uri ≠ holdingUri) (hgiven : tag ∈ tags)
    (hfirst : tagged.FirstTag tag folder) : next.FirstTag tag folder ∧ next.Holds folder uri := by
  have hwell := h.retagged.grown.wellFormed
  obtain ⟨other, hother, hholds⟩ := h.retagged.given tag hgiven
  obtain rfl := hfirst.unique hwell hother
  exact hfirst.untagged hwell h.released h.releasedOrder hholds hne

/-- While the URI is taken out of its tags, the throwaway URI holds the folders of those that it is
to have. -/
theorem keeps_firsts (hne : uri ≠ holdingUri) (hgiven : tag ∈ tags)
    (hfirst : tree.FirstTag tag folder) : next.FirstTag tag folder := by
  have hwell := h.sheltered.grown.wellFormed
  have hheldFirst := h.sheltered.firsts tag folder hfirst
  obtain ⟨other, hother, hholds⟩ := h.sheltered.given tag hgiven
  obtain rfl := hheldFirst.unique hwell hother
  have hbareFirst := (hheldFirst.untagged hwell h.untagged h.untaggedOrder hholds hne.symm).1
  exact (h.keeps_given hne hgiven (h.retagged.firsts tag folder hbareFirst)).1

theorem keeps_others {other : String} (hother : other ≠ uri) (hholding : other ≠ holdingUri)
    (hfirst : tree.FirstTag tag folder) (hholds : tree.Holds folder other) :
    next.FirstTag tag folder ∧ next.Holds folder other := by
  have hheldFirst := h.sheltered.firsts tag folder hfirst
  obtain ⟨hbareFirst, hbareHolds⟩ := hheldFirst.untagged h.sheltered.grown.wellFormed h.untagged
    h.untaggedOrder (h.sheltered.holds folder other hholds) hother
  exact (h.retagged.firsts tag folder hbareFirst).untagged h.retagged.grown.wellFormed h.released
    h.releasedOrder (h.retagged.holds folder other hbareHolds) hholding

theorem exists_source (hne : uri ≠ holdingUri) (hholds : next.TagHolds folder uri) :
    ∃ tag ∈ tags, next.FirstTag tag folder := by
  obtain ⟨habove, id, row, hrow, hparent, hurl⟩ := hholds
  have hentry := (h.released.known?_of_some hrow).2
  rcases h.retagged.source folder ⟨h.released.above?_of_some habove, id, row, hentry, hparent, hurl⟩
    with hold | ⟨tag, hgiven, hfirst⟩
  · exact absurd hold (h.untagged.not_tagHolds folder)
  · exact ⟨tag, hgiven, (h.keeps_given hne hgiven hfirst).1⟩

theorem exchanged (hne : uri ≠ holdingUri) (hreplaced : TagsReplaced uri tags tree next) :
    TagsExchanged uri tags tree next where
  retagged := hreplaced.retagged
  only := fun honly =>
    (h.retagged.only ((h.sheltered.only honly).cleared h.untagged)).cleared h.released
  same := hreplaced.same
  others := fun _ hother hholding _ _ hfirst hholds =>
    h.keeps_others hother hholding hfirst hholds
  firsts := fun _ hgiven _ hfirst => h.keeps_firsts hne hgiven hfirst
  given := by
    intro tag hgiven
    obtain ⟨folder, hfirst, -⟩ := h.retagged.given tag hgiven
    exact ⟨folder, h.keeps_given hne hgiven hfirst⟩
  source := fun _ hholds => h.exists_source hne hholds
  unheld := h.released.not_tagHolds
  noneEmpty := h.released.noneEmpty h.retagged.grown.wellFormed

end TagPasses

theorem leads_replaceTags_exchanged (h : tree.WellFormed) (htags : tree.IsFolder RootId.tags)
    (huri : validateUri uri = .ok uri) (hne : uri ≠ holdingUri) (tags : List String) :
    Leads (replaceTags uri tags) tree fun _ next =>
      TagsExchanged uri (tags.filter (!·.isEmpty)) tree next := by
  intro store hstore
  refine ((leads_replaceTags_passes h htags huri tags store hstore).and
    (leads_replaceTags h huri (.inr htags) store hstore)).imp ?_
  rintro - next ⟨⟨⟨held, bare, tagged, hpasses⟩, hframe⟩, hreplaced, -⟩
  exact ⟨hpasses.exchanged hne hreplaced, hframe⟩

theorem TagsExchanged.wellFormed (h : TagsExchanged uri tags tree next) : next.WellFormed :=
  h.retagged.wellFormed

theorem TagsExchanged.tagsOf_eq (h : TagsExchanged uri tags tree next)
    (huri : validateUri uri = .ok uri) :
    next.tagsOf uri = .ok (tags.toFinset.sort (· ≤ ·)) := by
  refine Places.tagsOf_of_titles h.wellFormed huri ?_ ?_
  · intro tag
    rw [List.mem_toFinset]
    constructor
    · intro hgiven
      obtain ⟨folder, hfirst, hholds⟩ := h.given tag hgiven
      exact ⟨folder, ⟨hfirst.isTag.above?, hholds⟩, hfirst.isTag.tagTitle⟩
    · rintro ⟨folder, hholds, rfl⟩
      obtain ⟨tag, hgiven, hfirst⟩ := h.source folder hholds
      rwa [hfirst.isTag.tagTitle]
  · intro first second hfirst hsecond htitle
    obtain ⟨tag, -, hfolder⟩ := h.source first hfirst
    obtain ⟨tag', -, hfolder'⟩ := h.source second hsecond
    rw [hfolder.isTag.tagTitle, hfolder'.isTag.tagTitle] at htitle
    exact hfolder.unique h.wellFormed (htitle ▸ hfolder')

/-- Replacing the tags of a URI is exact and keeps the folders of the tags, but for one without a
title, since there is no tag without a name. -/
theorem replaceTags_exact {store : BookmarkStore} (h : store.Reachable)
    (htags : (store.tree.row? RootId.tags).isSome) {uri : String}
    (huri : validateUri uri = .ok uri) (hne : uri ≠ holdingUri) (tags : List String) :
    ∃ next, (replaceTags uri tags).result store = (.ok (), next) ∧
      next.tree.tagsOf uri = .ok ((tags.filter (!·.isEmpty)).toFinset.sort (· ≤ ·)) ∧
      (∀ other, other ≠ uri → other ≠ holdingUri →
        next.tree.tagsOf other = store.tree.tagsOf other) ∧
      next.tree.tagsOf holdingUri = .ok [] ∧
      (∀ tag ∈ tags, tag ≠ "" → ∀ folder, store.tree.FirstTag tag folder →
        next.tree.FirstTag tag folder) ∧
      next.tree.NoneEmpty := by
  have hwell := h.wellFormed.tree
  have hfolder := hwell.isFolder_tags htags
  obtain ⟨_, next, hresult, hnext, -⟩ :=
    leads_replaceTags_exchanged hwell hfolder huri hne tags store rfl
  refine ⟨next, hresult, hnext.tagsOf_eq huri, ?_, ?_, ?_, hnext.noneEmpty⟩
  · intro other hother hholding
    exact (hnext.same other hother hholding).tagsOf_eq hwell hnext.wellFormed
  · exact tagsOf_of_not_tagHolds hnext.wellFormed validateUri_holdingUri hnext.unheld
  · intro tag hgiven hname folder hfirst
    exact hnext.firsts tag (List.mem_filter.mpr ⟨hgiven, by simpa using hname⟩) folder hfirst

/-- Two URIs that share the tag of folder 8. -/
def sharingStore : BookmarkStore :=
  StoreCall.runAll (fresh .numbered none)
    [.mutate (.tagUri "about:a" ["x", "y"]), .mutate (.tagUri "about:b" ["y"])]

theorem reachable_sharingStore : sharingStore.Reachable :=
  ⟨.numbered, none, _, rfl⟩

theorem shared_tag_kept : ∃ next,
    (replaceTags "about:a" ["z", "y", "z"]).result sharingStore = (.ok (), next) ∧
      next.tree.tagsOf "about:b" = sharingStore.tree.tagsOf "about:b" ∧
      next.tree.FirstTag "y" 8 := by
  have huri : validateUri "about:a" = .ok "about:a" := by cbv
  obtain ⟨next, hresult, -, hothers, -, hfirsts, -⟩ := replaceTags_exact reachable_sharingStore
    (by cbv) huri (by decide) ["z", "y", "z"]
  have hfirst : sharingStore.tree.FirstTag "y" 8 :=
    (Places.firstTag_iff_tagFolder? reachable_sharingStore.wellFormed.tree).mp (by cbv)
  exact ⟨next, hresult, hothers "about:b" (by decide) (by decide),
    hfirsts "y" (by decide) (by decide) 8 hfirst⟩

/-- A folder without a title among the tags. -/
def untitledStore : BookmarkStore :=
  StoreCall.runAll (fresh .numbered none) [.mutate (.createFolder RootId.tags "" Places.atEnd)]

/-- The folder without a title goes, for no tag has an empty name, though the list has one. -/
theorem untitled_folder_removed :
    ¬ ∀ store : BookmarkStore, store.Reachable → (store.tree.row? RootId.tags).isSome →
      ∀ uri, validateUri uri = .ok uri → uri ≠ holdingUri → ∀ tags : List String, ∀ tag ∈ tags,
        ∀ folder, store.tree.FirstTag tag folder →
          ((replaceTags uri tags).result store).2.tree.FirstTag tag folder := by
  intro hkept
  have hreachable : untitledStore.Reachable := ⟨.numbered, none, _, rfl⟩
  have hfirst : untitledStore.tree.FirstTag "" 6 :=
    (Places.firstTag_iff_tagFolder? hreachable.wellFormed.tree).mp (by cbv)
  obtain ⟨⟨row, hrow, -⟩, -⟩ := hkept untitledStore hreachable (by cbv) "about:blank" (by cbv)
    (by decide) [""] "" (by decide) 6 hfirst
  have hgone : ((replaceTags "about:blank" [""]).result untitledStore).2.tree.known? 6 = none := by
    cbv
  rw [hgone] at hrow
  cases hrow

end BookmarkStore

end SyncedBookmarks
