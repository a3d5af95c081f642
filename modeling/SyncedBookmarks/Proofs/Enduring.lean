import SyncedBookmarks.Proofs.StoreSteps

namespace SyncedBookmarks

/-! An incoming record changes the fields of one item, replaces the tags of URIs, and makes and
removes items. What endures each of these endures the record, so no more than these need be looked
at. -/

namespace BookmarkStore

open SyncedBookmarks.Action

variable {inv : BookmarkStore → Prop} {record : Record} {id : Int}

/-! ### The fields of an item -/

/-- Whether what holds of a store endures changes to the fields of an item. Its place, its name, its
URI and the mark of an orphan are left out, for not everything endures changes to these. -/
structure Endures (inv : BookmarkStore → Prop) (id : Int) : Prop where
  title : ∀ title, (onTree (Places.setTitle id title)).Keeps inv
  keyword : ∀ keyword, (onTree (Places.setKeyword id keyword)).Keeps inv
  annotate : ∀ name value, name ≠ AnnotationName.intendedParent →
    (onTree (Places.annotate id name value)).Keeps inv
  unannotate : ∀ name, name ≠ AnnotationName.intendedParent →
    (onTree (Places.unannotate id name)).Keeps inv
  site : ∀ uri, (onTree (Places.setSite id uri)).Keeps inv
  feed : ∀ uri, (onTree (Places.setFeed id uri)).Keeps inv

/-- What a microsummary has beside what every bookmark has. -/
def fillSummary (id : Int) (record : Record) : StoreAction Unit := do
  if record.kind = .microsummary then
    onTree (Places.annotate id AnnotationName.staticTitle (record.staticTitle.getD ""))
    record.generatorUri.forM (tryGenerator id)

theorem fillBookmark_eq (id : Int) (record : Record) (uri : String) :
    fillBookmark id record uri = (do
      record.tags.forM (replaceTags uri)
      onTree (Places.setKeyword id record.keyword)
      (record.description.filter (!·.isEmpty)).forM fun description =>
        onTree (Places.annotate id AnnotationName.description description)
      if record.loadInSidebar = some true then
        onTree (Places.annotate id AnnotationName.loadInSidebar "true")
      fillSummary id record) := by
  rw [fillBookmark]
  simp only [fillSummary]
  cases record.tags <;> cases record.description.filter (!·.isEmpty) <;>
    cases record.generatorUri <;> rfl

/-- What an update does once the item is in its place. -/
def updateFields (id : Int) (record : Record) : StoreAction Unit := do
  record.title.forM fun title => onTree (Places.setTitle id title)
  record.bmkUri.forM fun uri => onTree (Places.setUrl id uri)
  record.tags.forM (updateTags id)
  record.keyword.forM fun keyword => onTree (Places.setKeyword id (some keyword))
  record.description.forM fun description => onTree (updateDescription id description)
  record.loadInSidebar.forM fun load => onTree (updateSidebar id load)
  record.generatorUri.forM (updateGenerator id)
  record.siteUri.forM fun site => onTree (Places.setSite id site)
  record.feedUri.forM fun feed => onTree (Places.setFeed id feed)

theorem result_update_of_some {store : BookmarkStore} {record : Record}
    (hid : store.tree.idOfGuid? record.id = some id) (parent : Option Int) :
    (update record parent).result store =
      ((parent.forM fun parent => onTree (updateParent id parent)) >>= fun _ =>
        updateFields id record).result store := by
  rw [update, result_look_bind, hid]
  rfl

theorem result_update_of_none {store : BookmarkStore} {record : Record}
    (hid : store.tree.idOfGuid? record.id = none) (parent : Option Int) :
    (update record parent).result store = (.ok (), store) := by
  rw [update, result_look_bind, hid]
  rfl

namespace Endures

theorem tryGenerator (h : Endures inv id) (generator : String) :
    (BookmarkStore.tryGenerator id generator).Keeps inv := by
  have hbind : (bindGenerator id generator).Keeps inv := by
    refine (keeps_read _ _).bind fun installed => ?_
    cases installed with
    | none => exact keeps_pure _ _
    | some installed =>
        dsimp only
        split
        · exact h.annotate _ generator (by decide)
        · exact keeps_throw _ _
  exact hbind.attempt.bind fun _ => keeps_pure _ _

theorem fillBookmark (h : Endures inv id) (record : Record) {uri : String}
    (htags : ∀ tags, (replaceTags uri tags).Keeps inv) :
    (BookmarkStore.fillBookmark id record uri).Keeps inv := by
  have hsummary : (fillSummary id record).Keeps inv := by
    rw [fillSummary]
    split
    · exact (h.annotate _ _ (by decide)).bind fun _ => keeps_optionForM _ h.tryGenerator
    · exact keeps_pure _ _
  rw [fillBookmark_eq]
  refine (keeps_optionForM _ htags).bind fun _ => (h.keyword _).bind fun _ =>
    (keeps_optionForM _ fun _ => h.annotate _ _ (by decide)).bind fun _ => ?_
  split
  · exact (h.annotate _ _ (by decide)).bind fun _ => hsummary
  · exact hsummary

theorem updateDescription (h : Endures inv id) (description : String) :
    (onTree (BookmarkStore.updateDescription id description)).Keeps inv := by
  rw [BookmarkStore.updateDescription]
  split
  · exact h.unannotate _ (by decide)
  · exact h.annotate _ description (by decide)

theorem updateSidebar (h : Endures inv id) (load : Bool) :
    (onTree (BookmarkStore.updateSidebar id load)).Keeps inv := by
  rw [BookmarkStore.updateSidebar]
  split
  · exact h.annotate _ _ (by decide)
  · exact h.unannotate _ (by decide)

theorem updateGenerator (h : Endures inv id) (generator : String) :
    (BookmarkStore.updateGenerator id generator).Keeps inv := by
  refine (keeps_read _ _).bind fun uri => ?_
  split
  · exact h.tryGenerator generator
  · exact keeps_pure _ _

/-- The URI and the tags of an item are updated on conditions of their own. -/
theorem updateFields (h : Endures inv id)
    (hurl : ∀ uri, record.bmkUri = some uri → (onTree (Places.setUrl id uri)).Keeps inv)
    (htags : ∀ tags, (updateTags id tags).Keeps inv) :
    (BookmarkStore.updateFields id record).Keeps inv := by
  have hgiven : (record.bmkUri.forM fun uri => onTree (Places.setUrl id uri)).Keeps inv := by
    cases huri : record.bmkUri with
    | none => exact keeps_pure _ _
    | some uri => exact hurl uri huri
  exact (keeps_optionForM _ h.title).bind fun _ => hgiven.bind
    fun _ => (keeps_optionForM _ htags).bind
    fun _ => (keeps_optionForM _ fun keyword => h.keyword (some keyword)).bind
    fun _ => (keeps_optionForM _ h.updateDescription).bind
    fun _ => (keeps_optionForM _ h.updateSidebar).bind
    fun _ => (keeps_optionForM _ h.updateGenerator).bind
    fun _ => (keeps_optionForM _ h.site).bind
    fun _ => keeps_optionForM _ h.feed

end Endures

theorem holds_update {store : BookmarkStore} {place : Option Int} (h : inv store)
    (hmove : ∀ id, store.tree.idOfGuid? record.id = some id → ∀ parent,
      (onTree (updateParent id parent)).Keeps inv)
    (hfields : ∀ id, store.tree.idOfGuid? record.id = some id →
      (updateFields id record).Keeps inv) : inv ((update record place).result store).2 := by
  cases hid : store.tree.idOfGuid? record.id with
  | none =>
      rw [result_update_of_none hid]
      exact h
  | some id =>
      rw [result_update_of_some hid]
      exact Keeps.bind (keeps_optionForM place (hmove id hid)) (fun _ => hfields id hid) store h

/-! ### Making an item -/

variable {fresh : Int → Prop} {parent : Int}

theorem ensures_createBookmark
    (hinsert : ∀ uri, record.bmkUri = some uri →
      (onTree (Places.insertBookmark parent uri Places.atEnd record.title)).Ensures inv fresh)
    (hfill : ∀ id uri, fresh id → record.bmkUri = some uri →
      (fillBookmark id record uri).Keeps inv) :
    (createBookmark record parent).Ensures inv fresh := by
  refine (ensures_require "bmkUri" record.bmkUri).bind fun uri huri =>
    (hinsert uri huri).bind fun id hfresh => ?_
  exact (hfill id uri hfresh huri).ensures.bind fun _ _ => ensures_pure hfresh

theorem ensures_createItem (hbookmark : (createBookmark record parent).Ensures inv fresh)
    (hfolder : ∀ title, (onTree (Places.createFolder parent title Places.atEnd)).Ensures inv fresh)
    (hlivemark : ∀ title feed, (onTree (Places.createLivemark parent title record.siteUri feed
      Places.atEnd)).Ensures inv fresh)
    (hseparator : (onTree (Places.insertSeparator parent Places.atEnd)).Ensures inv fresh) :
    (createItem record parent).Ensures inv fun made => ∀ id, made = some id → fresh id := by
  have hsome : ∀ {action : StoreAction Int}, action.Ensures inv fresh →
      (some <$> action).Ensures inv fun made => ∀ id, made = some id → fresh id := by
    intro action haction
    have hlift : action.Ensures inv fun found => ∀ id, some found = some id → fresh id := by
      intro store hstore
      obtain ⟨hkept, hfound⟩ := haction store hstore
      exact ⟨hkept, fun found hvalue id heq => Option.some.inj heq ▸ hfound found hvalue⟩
    exact hlift.map some
  rw [createItem]
  cases record.kind with
  | bookmark => exact hsome hbookmark
  | query => exact hsome hbookmark
  | microsummary => exact hsome hbookmark
  | folder => exact hsome (hfolder _)
  | livemark =>
      exact (ensures_require "feedUri" record.feedUri).bind fun feed _ => hsome (hlivemark _ feed)
  | separator => exact hsome hseparator
  | item => exact ensures_pure fun id heq => by cases heq
  | unknown => exact fun _ hstore => ⟨hstore, fun _ hvalue => by cases hvalue⟩

theorem keeps_create {place : Option Int}
    (hitem : ∀ parent, (createItem record parent).Ensures inv fun made =>
      ∀ id, made = some id → fresh id)
    (hguid : ∀ id, fresh id → (onTree (Places.setGuid id record.id)).Keeps inv) :
    (create record place).Keeps inv := by
  refine (ensures_require "parentid" place).bind_keeps fun parent _ =>
    (hitem parent).bind_keeps fun made hmade => ?_
  cases made with
  | none => exact keeps_pure _ _
  | some id =>
      refine (keeps_look _).bind fun guid => ?_
      split
      · exact hguid id (hmade id rfl)
      · exact keeps_pure _ _

/-! ### Removing an item -/

theorem holds_remove {store : BookmarkStore} (h : inv store)
    (hbookmark : ∀ id, store.tree.idOfGuid? record.id = some id →
      (onTree (removeBookmark id)).Keeps inv)
    (hfolder : ∀ id, store.tree.idOfGuid? record.id = some id →
      (onTree (Places.removeFolder id)).Keeps inv)
    (hseparator : ∀ id, store.tree.idOfGuid? record.id = some id →
      (onTree (Places.removeItem id)).Keeps inv) :
    inv ((remove record).result store).2 := by
  rw [remove, result_look_bind]
  cases hid : store.tree.idOfGuid? record.id with
  | none => exact h
  | some id =>
      refine Keeps.bind (keeps_checked _) (fun type => ?_) store h
      split
      · exact hbookmark id hid
      · exact hfolder id hid
      · exact hseparator id hid
      · exact keeps_pure _ _

end BookmarkStore

end SyncedBookmarks
