import SyncedBookmarks.Proofs.Sameness

namespace SyncedBookmarks

/-! A record that its item shows already, in the place and with the tags that the record gives it:
applying it makes no difference that is to be seen. -/

namespace Tree

variable {tree before after : Tree} {id : Int} {row : Row}

theorem WellFormed.sheltered_outside (h : tree.WellFormed) :
    Sheltered (fun id => (tree.row? id).isSome ∧ ¬ tree.Below RootId.tags id) tree where
  upward := by
    intro id parent hid habove
    obtain ⟨row, hrow, -⟩ := h.parent_folder id parent habove
    refine ⟨by rw [← isSome_known?, hrow, Option.isSome_some], fun hbelow => hid.2 ?_⟩
    exact Below.of_above? h habove hbelow.1
  untagged := fun id hid habove => hid.2 (Below.of_above? h habove (Encloses.refl tree RootId.tags))

theorem Same.isFolder_tags (h : before.Same after) (htags : before.IsFolder RootId.tags) :
    after.IsFolder RootId.tags := by
  obtain ⟨row, hrow, hcode⟩ := htags
  obtain ⟨row', hrow', hsame, -⟩ := h.exists_row hrow fun hbelow => hbelow.2 rfl
  exact ⟨row', hrow', hsame.typeCode.trans hcode⟩

/-- Whether a URI has certain tags, each once, while the throwaway URI has none. -/
structure HasTags (tree : Tree) (uri : String) (tags : List String) : Prop where
  given : tree.tagsOf uri = .ok ((tags.filter (!·.isEmpty)).toFinset.sort (· ≤ ·))
  held : tree.tagsOf BookmarkStore.holdingUri = .ok []

theorem Same.hasTags (h : before.Same after) {uri : String} {tags : List String}
    (htags : before.HasTags uri tags) : after.HasTags uri tags :=
  ⟨(h.tagsOf uri).trans htags.given, (h.tagsOf BookmarkStore.holdingUri).trans htags.held⟩

end Tree

namespace BookmarkStore

open SyncedBookmarks.Action SyncedBookmarks.Tree

theorem TagsExchanged.hasTags {before after : Tree} {uri : String} {tags : List String}
    (h : TagsExchanged uri (tags.filter (!·.isEmpty)) before after)
    (huri : validateUri uri = .ok uri) : after.HasTags uri tags where
  given := h.tagsOf_eq huri
  held := tagsOf_of_not_tagHolds h.wellFormed validateUri_holdingUri h.unheld

section Again

variable {tree : Tree} {id : Int} {row : Row}

theorem leads_replaceTags_again (h : tree.WellFormed) (htags : tree.IsFolder RootId.tags)
    {uri : String} (huri : validateUri uri = .ok uri) (hne : uri ≠ holdingUri) {tags : List String}
    (hgiven : tree.HasTags uri tags) :
    Leads (replaceTags uri tags) tree fun _ next => Retagged tree next ∧ tree.Same next := by
  intro store hstore
  subst hstore
  obtain ⟨value, next, hresult, hnext, hframe⟩ :=
    leads_replaceTags_exchanged h htags huri hne tags store rfl
  have hspares : Spares (fun id => (store.tree.row? id).isSome ∧ ¬ store.tree.Below RootId.tags id)
      (fun _ => False) (fun _ => False) store.tree ((replaceTags uri tags).result store).2 :=
    keeps_replaceTags_spares h.sheltered_outside uri tags store
      (Places.Spares.refl h fun id hid => hid.1)
  rw [hresult] at hspares
  refine ⟨value, next, hresult, ⟨hnext.retagged, ?_⟩, hframe⟩
  apply hnext.retagged.same h hspares.undisturbed
  intro other
  have hafter := hnext.hasTags huri
  by_cases hother : other = uri
  · rw [hother, hafter.given, hgiven.given]
  by_cases hholding : other = holdingUri
  · rw [hholding, hafter.held, hgiven.held]
  exact (hnext.same other hother hholding).tagsOf_eq h hnext.wellFormed

theorem leads_updateTags_again (h : tree.WellFormed) (htags : tree.IsFolder RootId.tags)
    (hrow : tree.known? id = some row) (houtside : ¬ tree.Below RootId.tags id)
    {tags : Option (List String)} (hgiven : ∀ uri given, row.url = some uri → tags = some given →
      uri ≠ holdingUri ∧ tree.HasTags uri given) :
    Leads (tags.forM (updateTags id)) tree fun _ next =>
      tree.Same next ∧ next.WellFormed ∧ next.known? id = some row := by
  cases tags with
  | none => exact leads_pure ⟨Tree.Same.refl tree, h, hrow⟩
  | some given =>
      apply leads_check_bind (h.url? hrow)
      cases hurl : row.url with
      | none => exact leads_pure ⟨Tree.Same.refl tree, h, hrow⟩
      | some uri =>
          obtain ⟨hne, hhas⟩ := hgiven uri given hurl rfl
          have hvalid := (h.sound id row hrow).url_valid uri hurl
          apply (leads_replaceTags_again h htags hvalid hne hhas).imp
          intro _ next hnext
          exact ⟨hnext.2, hnext.1.wellFormed, hnext.1.known?_of_outside h hrow houtside⟩

end Again

theorem updateFields_eq (id : Int) (record : Record) : updateFields id record = (do
    (do
      record.title.forM fun title => onTree (Places.setTitle id title)
      record.bmkUri.forM fun uri => onTree (Places.setUrl id uri))
    record.tags.forM (updateTags id)
    (do
      record.keyword.forM fun keyword => onTree (Places.setKeyword id (some keyword))
      record.description.forM fun description => onTree (updateDescription id description)
      record.loadInSidebar.forM fun load => onTree (updateSidebar id load)
      record.generatorUri.forM (updateGenerator id)
      record.siteUri.forM fun site => onTree (Places.setSite id site)
      record.feedUri.forM fun feed => onTree (Places.setFeed id feed))) := by
  simp only [updateFields, bind_assoc]

/-- Whether an item has all that a record gives it, in its place and with its tags. -/
structure Settled (store : BookmarkStore) (record : Record) (place : Option Int)
    (orphanOf : Option String) (id : Int) (row : Row) : Prop where
  wellFormed : store.tree.WellFormed
  root : store.tree.IsFolder RootId.tags
  known : store.tree.known? id = some row
  guid : row.guid = record.id
  outside : ¬ store.tree.Below RootId.tags id
  placed : ∀ parent, place = some parent → row.parent = some parent
  suits : Suits record row.typeCode
  shows : row.Shows store.generators record
  waits : row.Waits place orphanOf
  tagged : ∀ uri tags, row.url = some uri → record.tags = some tags →
    uri ≠ holdingUri ∧ store.tree.HasTags uri tags

section Settled

variable {store : BookmarkStore} {record : Record} {place : Option Int} {orphanOf : Option String}
  {id : Int} {row : Row}

theorem Settled.result_updateParent (h : store.Settled record place orphanOf id row) :
    (place.forM fun parent => onTree (updateParent id parent)).result store = (.ok (), store) := by
  cases place with
  | none => rfl
  | some parent =>
      have hread : (updateParent id parent).result store.places = (.ok (), store.places) := by
        have hparent : store.places.tree.parentOf? id = .ok (some parent) := by
          rw [← h.placed parent rfl, ← above?_of_known? h.known]
          exact h.wellFormed.parentOf? id
        unfold updateParent
        rw [result_bind, Places.result_checked, hparent]
        simp
      change (onTree (updateParent id parent)).result store = _
      rw [onTree, result_within, hread]
      rfl

theorem Settled.yields_updateFields (h : store.Settled record place orphanOf id row) :
    (updateFields id record).Yields store fun _ next => store.tree.Same next.tree ∧
      next.tree.WellFormed ∧ next.generators = store.generators ∧
        ∃ last, next.tree.known? id = some last ∧ row.Same last := by
  rw [updateFields_eq]
  apply ((acts_inscribe record).done h.wellFormed h.known rfl h.suits.uri).bind
  intro _ inscribed hinscribed
  obtain ⟨hrecast, hgenerators⟩ := hinscribed
  rw [h.shows.inscribedBy] at hrecast
  have hsame := hrecast.same h.wellFormed h.known (Row.Same.refl row)
  obtain ⟨found, hfound, -, houtside⟩ := hsame.exists_row h.known h.outside
  have htags := leads_updateTags_again hrecast.wellFormed (hsame.isFolder_tags h.root)
    hrecast.self houtside fun uri tags huri hgiven =>
      (h.tagged uri tags huri hgiven).imp_right hsame.hasTags
  apply Yields.bind (htags inscribed rfl)
  intro _ tagged htagged
  obtain ⟨⟨hsame', hwell, hrow⟩, -, hgenerators'⟩ := htagged
  apply ((acts_furnish record).done hwell hrow (hgenerators'.trans hgenerators)
    ⟨h.suits.site, h.suits.feed⟩).imp
  intro _ next hnext
  obtain ⟨hrecast', hgenerators''⟩ := hnext
  exact ⟨(hsame.trans hsame').trans (hrecast'.same hwell hrow h.shows.furnishedBy),
    hrecast'.wellFormed, hgenerators'', _, hrecast'.self, h.shows.furnishedBy⟩

/-- Bringing such a record in again is not to be seen. -/
theorem Settled.yields_again (h : store.Settled record place orphanOf id row)
    (hdeleted : record.deleted = false) :
    (bringIn record place >>= fun _ => settle record.id place orphanOf).Yields store
      fun _ next => store.tree.Same next.tree := by
  have hid : store.tree.idOfGuid? record.id = some id :=
    h.wellFormed.idOfGuid?_iff.mpr ⟨row, h.known, h.guid⟩
  have hupdate : (bringIn record place).result store = (updateFields id record).result store := by
    rw [result_bringIn_of_some hdeleted hid, result_update_of_some hid, result_bind,
      h.result_updateParent]
  have hyields := h.yields_updateFields
  unfold Yields at hyields
  rw [← hupdate] at hyields
  apply Yields.bind hyields
  intro _ updated hupdated
  obtain ⟨hsame, hwell, hgenerators, last, hlast, hlook⟩ := hupdated
  have hguid : last.guid = record.id := hlook.guid.trans h.guid
  have hid' : updated.tree.idOfGuid? record.id = some id :=
    hwell.idOfGuid?_iff.mpr ⟨last, hlast, hguid⟩
  have hmark : (onTree (markOrphan id place orphanOf)).Yields (updated.forget record.id)
      fun _ next => Recast id (last.settledBy place orphanOf) updated.tree next.tree ∧
        next.generators = store.generators :=
    (acts_markOrphan place orphanOf).done hwell hlast hgenerators trivial
  unfold Yields
  rw [result_settle_of_some hid']
  apply hmark.imp
  intro _ next hnext
  exact hsame.trans (hnext.1.same hwell hlast (hlook.waits h.waits).settledBy)

end Settled

end BookmarkStore

end SyncedBookmarks
