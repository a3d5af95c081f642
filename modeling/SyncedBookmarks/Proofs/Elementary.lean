import SyncedBookmarks.Proofs.StoreRuns

namespace SyncedBookmarks

/-! Every operation on the tree is made of changes to rows that keep their ids, of new rows with the
next id, of rows taken out, and of words about items. What each of these keeps is kept by every
call, whatever state it meets and whether it succeeds or not. -/

namespace Places

open SyncedBookmarks.Action

structure Hereditary (inv : Places → Prop) : Prop where
  mapRows : ∀ select {change : Row → Row}, (∀ row, (change row).id = row.id) →
    (edit (·.mapRows select change)).Keeps inv
  append : ∀ parent position type title url,
    (edit (·.append parent position type title url)).Keeps inv
  eraseRow : ∀ id, (edit (·.eraseRow id)).Keeps inv
  tell : ∀ {event : Event}, event.ofItem = true → (tell event).Keeps inv

namespace Hereditary

variable {inv : Places → Prop} (h : Hereditary inv)

include h

/-! ### One item -/

theorem mapRow (id : Int) {change : Row → Row} (hid : ∀ row, (change row).id = row.id) :
    (edit (·.mapRow id change)).Keeps inv :=
  h.mapRows (·.id == id) hid

theorem closeGap (folder position : Int) : (edit (·.closeGap folder position)).Keeps inv :=
  h.mapRows _ fun _ => rfl

theorem reserve (folder index : Int) : (edit (·.reserve folder index)).Keeps inv := by
  intro places hinv
  change inv { places with tree := places.tree.reserve folder index }
  rw [Tree.reserve]
  split
  · exact hinv
  · have hgap : (edit (·.openGap folder index)).Keeps inv := h.mapRows _ fun _ => by rfl
    exact hgap places hinv

theorem insertItem (parent index : Int) (type : ItemType) (title url : Option String) :
    (insertItem parent index type title url).Keeps inv :=
  (keeps_check _ _).bind fun _ => (keeps_read _ _).bind fun _ => (h.reserve _ _).bind fun _ =>
    (keeps_read _ _).bind fun _ => (h.append _ _ _ _ _).bind fun _ => (h.tell rfl).bind fun _ =>
      keeps_pure _ _

theorem insertBookmark (parent : Int) (uri : String) (index : Int) (title : Option String) :
    (insertBookmark parent uri index title).Keeps inv :=
  (keeps_check _ _).bind fun _ => h.insertItem _ _ _ _ _

theorem createFolder (parent : Int) (title : String) (index : Int) :
    (createFolder parent title index).Keeps inv :=
  h.insertItem _ _ _ _ _

theorem insertSeparator (parent index : Int) : (insertSeparator parent index).Keeps inv :=
  h.insertItem _ _ _ _ _

theorem setGuid (id : Int) (guid : String) : (setGuid id guid).Keeps inv := by
  refine (keeps_read _ _).bind fun owner => ?_
  cases owner with
  | some owner =>
      dsimp only
      split
      · exact keeps_pure _ _
      · exact keeps_throw _ _
  | none =>
      refine (keeps_read _ _).bind fun row => ?_
      split
      · exact keeps_throw _ _
      · exact h.mapRow id fun _ => rfl

/-- A change to an item that is told. -/
theorem edited (id : Int) {change : Row → Row} (hid : ∀ row, (change row).id = row.id)
    {event : Event} (hevent : event.ofItem = true) :
    (edit (·.mapRow id change) >>= fun _ => Places.tell event).Keeps inv :=
  (h.mapRow id hid).bind fun _ => h.tell hevent

theorem setTitle (id : Int) (title : String) : (setTitle id title).Keeps inv := by
  refine (keeps_read _ _).bind fun row => ?_
  split
  · exact keeps_throw _ _
  · exact h.edited id (fun _ => by rfl) (by rfl)

theorem setUrl (id : Int) (uri : String) : (setUrl id uri).Keeps inv := by
  refine (keeps_check _ _).bind fun uri => (keeps_read _ _).bind fun row => ?_
  split
  · exact keeps_throw _ _
  · exact h.edited id (fun _ => by rfl) (by rfl)

theorem setKeyword (id : Int) (keyword : Option String) : (setKeyword id keyword).Keeps inv := by
  refine (keeps_read _ _).bind fun row => ?_
  split
  · exact keeps_throw _ _
  · exact h.edited id (fun _ => by rfl) (by rfl)

theorem moveItem (id newParent index : Int) : (moveItem id newParent index).Keeps inv := by
  refine (keeps_check _ _).bind fun item => (keeps_check _ _).bind fun _ =>
    (keeps_check _ _).bind fun inside => ?_
  have hplaced : (do
      edit (·.mapRow id ({ · with parent := none }))
      let position ← look (·.slot newParent index)
      edit (·.reserve newParent index)
      edit (·.mapRow id ({ · with parent := some newParent, position }))
      Places.tell (.moved id (item.parent.getD (-1)) item.position newParent position) :
        TreeAction Unit).Keeps inv := by
    refine (h.mapRow id fun _ => by rfl).bind fun _ => (keeps_read _ _).bind fun position => ?_
    exact (h.reserve _ _).bind fun _ => h.edited id (fun _ => by rfl) (by rfl)
  cases inside with
  | true => exact keeps_throw _ _
  | false =>
      dsimp only
      rw [if_neg Bool.false_ne_true]
      split
      · exact (h.closeGap _ _).bind fun _ => hplaced
      · exact hplaced

theorem annotate (id : Int) (name value : String) : (annotate id name value).Keeps inv :=
  (keeps_check _ _).bind fun _ => h.edited id (fun _ => by rfl) (by rfl)

theorem unannotate (id : Int) (name : String) : (unannotate id name).Keeps inv := by
  refine (keeps_read _ _).bind fun there => ?_
  split
  · exact h.edited id (fun _ => by rfl) (by rfl)
  · exact keeps_pure _ _

theorem setSite (id : Int) (uri : String) : (setSite id uri).Keeps inv :=
  (keeps_check _ _).bind fun _ => h.annotate _ _ _

theorem setFeed (id : Int) (uri : String) : (setFeed id uri).Keeps inv :=
  (keeps_check _ _).bind fun _ => h.annotate _ _ _

theorem createLivemark (parent : Int) (title : String) (site : Option String) (feed : String)
    (index : Int) : (createLivemark parent title site feed index).Keeps inv :=
  (ensures_createLivemark site feed (h.createFolder _ _ _).ensures
    fun id _ name value _ => h.annotate id name value).keeps

/-! ### Removal -/

theorem deleteRow (id : Int) : (deleteRow id).Keeps inv := by
  refine (keeps_read _ _).bind fun guid => (h.tell rfl).bind fun _ =>
    (keeps_check _ _).bind fun current => (h.eraseRow _).bind fun _ => ?_
  split
  · exact h.closeGap _ _
  · exact keeps_pure _ _

theorem emptyFolder (fuel : Nat) (folder : Int) : (emptyFolder fuel folder).Keeps inv := by
  induction fuel generalizing folder with
  | zero => exact keeps_pure _ _
  | succ fuel ih =>
      refine (keeps_check _ _).bind fun children => keeps_forM _ fun child _ => ?_
      split
      · exact (keeps_check _ _).bind fun _ => (ih child.id).bind fun _ => h.deleteRow child.id
      · exact h.deleteRow child.id

theorem removeChildren (folder : Int) : (removeChildren folder).Keeps inv :=
  (keeps_read _ _).bind fun _ => h.emptyFolder _ _

theorem removeFolder (id : Int) : (removeFolder id).Keeps inv :=
  (keeps_check _ _).bind fun _ => (h.removeChildren _).bind fun _ => h.deleteRow _

theorem removeItem (id : Int) : (removeItem id).Keeps inv := by
  refine (keeps_check _ _).bind fun item => ?_
  split
  · exact h.removeFolder id
  · exact h.deleteRow id

/-! ### Tags -/

theorem addTag (uri tag : String) : (addTag uri tag).Keeps inv := by
  have hfolder : (tagFolder? tag).Keeps inv := (keeps_check _ _).bind fun _ => keeps_pure _ _
  have hfill : ∀ folder, (do
      if !holdsUrl uri (← check (·.children folder)) then
        let _ ← Places.insertBookmark folder uri atEnd none : TreeAction Unit).Keeps inv := by
    intro folder
    refine (keeps_check _ _).bind fun items => ?_
    split
    · exact (h.insertBookmark _ _ _ _).bind fun _ => keeps_pure _ _
    · exact keeps_pure _ _
  refine hfolder.bind fun found => ?_
  cases found with
  | some folder => exact hfill folder
  | none => exact (h.createFolder _ _ _).bind hfill

theorem tagUri (uri : String) (tags : List String) : (tagUri uri tags).Keeps inv :=
  (keeps_check _ _).bind fun _ => keeps_forM _ fun _ _ => h.addTag _ _

theorem clearTag (uri : String) (folder : Int) : (clearTag uri folder).Keeps inv := by
  refine (keeps_check _ _).bind fun children => (keeps_forM _ fun _ _ => h.deleteRow _).bind
    fun _ => ?_
  split
  · exact h.deleteRow folder
  · exact keeps_pure _ _

theorem untagUri (uri : String) (tags : Option (List String)) : (untagUri uri tags).Keeps inv :=
  (keeps_check _ _).bind fun _ => (keeps_check _ _).bind fun _ => keeps_forM _ fun _ _ =>
    h.clearTag _ _

/-- What any call leads to, the beginnings and ends of batches apart. -/
theorem mutation (hbegin : (change beginBatch : TreeAction Unit).Keeps inv)
    (hend : (change endBatch : TreeAction Unit).Keeps inv) (mutation : Mutation) :
    mutation.action.Keeps inv := by
  cases mutation with
  | insertBookmark parent uri index title => exact (h.insertBookmark _ _ _ _).map _
  | createFolder parent title index => exact (h.createFolder _ _ _).map _
  | insertSeparator parent index => exact (h.insertSeparator _ _).map _
  | setTitle id title => exact h.setTitle _ _
  | setUrl id uri => exact h.setUrl _ _
  | setKeyword id keyword => exact h.setKeyword _ _
  | setGuid id guid => exact h.setGuid _ _
  | moveItem id newParent index => exact h.moveItem _ _ _
  | removeItem id => exact h.removeItem _
  | removeFolder id => exact h.removeFolder _
  | removeChildren folder => exact h.removeChildren _
  | annotate id name value => exact h.annotate _ _ _
  | unannotate id name => exact h.unannotate _ _
  | tagUri uri tags => exact h.tagUri _ _
  | untagUri uri tags => exact h.untagUri _ _
  | createLivemark parent title site feed index => exact (h.createLivemark _ _ _ _ _).map _
  | setSite id uri => exact h.setSite _ _
  | setFeed id uri => exact h.setFeed _ _
  | beginBatch => exact hbegin
  | endBatch => exact hend

end Hereditary

end Places

namespace Places.Hereditary

open SyncedBookmarks.Action SyncedBookmarks.BookmarkStore

variable {inv : Places → Prop} (h : Hereditary inv)

/-! ### Steps on the store -/

theorem onTree {action : TreeAction α} (haction : action.Keeps inv) :
    (BookmarkStore.onTree action).Keeps fun store => inv store.places :=
  haction.within (fun _ hstore => hstore) fun _ _ _ hplaces => hplaces

theorem checked (view : Tree → Except TreeError α) :
    (BookmarkStore.check view).Keeps fun store => inv store.places :=
  onTree (keeps_check _ _)

include h

theorem endures (id : Int) : Endures (fun store => inv store.places) id where
  title := fun _ => onTree (h.setTitle _ _)
  keyword := fun _ => onTree (h.setKeyword _ _)
  annotate := fun _ _ _ => onTree (h.annotate _ _ _)
  unannotate := fun _ _ => onTree (h.unannotate _ _)
  site := fun _ => onTree (h.setSite _ _)
  feed := fun _ => onTree (h.setFeed _ _)

theorem replaceTags (uri : String) (tags : List String) :
    (replaceTags uri tags).Keeps fun store => inv store.places :=
  (onTree (h.tagUri _ _)).bind fun _ => (onTree (h.untagUri _ _)).bind fun _ =>
    (onTree (h.tagUri _ _)).bind fun _ => onTree (h.untagUri _ _)

theorem localized (record : Record) :
    (localized record).Keeps fun store => inv store.places := by
  rw [BookmarkStore.localized]
  split
  · rw [localizeQuery]
    split
    · refine (onTree (h.tagUri _ _)).bind fun _ => (checked _).bind fun folders => ?_
      split <;> exact keeps_pure _ _
    · exact keeps_pure _ _
  · exact keeps_pure _ _

theorem create (record : Record) (place : Option Int) :
    (create record place).Keeps fun store => inv store.places :=
  keeps_create (fun _ => ensures_createItem
      (ensures_createBookmark (fun _ _ => (onTree (h.insertBookmark _ _ _ _)).ensures)
        fun id uri _ _ => (h.endures id).fillBookmark record (h.replaceTags uri))
      (fun _ => (onTree (h.createFolder _ _ _)).ensures)
      (fun _ _ => (onTree (h.createLivemark _ _ _ _ _)).ensures)
      (onTree (h.insertSeparator _ _)).ensures)
    fun _ _ => onTree (h.setGuid _ _)

theorem updateParent (id parent : Int) : (updateParent id parent).Keeps inv := by
  refine (keeps_check _ _).bind fun above => ?_
  split
  · exact h.moveItem _ _ _
  · exact keeps_pure _ _

theorem update (record : Record) (place : Option Int) :
    (update record place).Keeps fun store => inv store.places := by
  have htags : ∀ id tags, (updateTags id tags).Keeps fun store => inv store.places := by
    intro id tags
    refine (checked _).bind fun uri => ?_
    cases uri with
    | some uri => exact h.replaceTags uri tags
    | none => exact keeps_pure _ _
  exact fun _ hinv => holds_update hinv
    (fun id _ parent => onTree (h.updateParent id parent))
    fun id _ => (h.endures id).updateFields (fun _ _ => onTree (h.setUrl _ _)) (htags id)

theorem remove (record : Record) : (remove record).Keeps fun store => inv store.places := by
  have hbookmark : ∀ id, (removeBookmark id).Keeps inv := fun id =>
    (keeps_check _ _).bind fun _ =>
      (keeps_optionForM _ fun _ => h.untagUri _ _).bind fun _ => h.removeItem _
  exact fun _ hinv => holds_remove hinv
    (fun id _ => onTree (hbookmark id)) (fun _ _ => onTree (h.removeFolder _))
    fun _ _ => onTree (h.removeItem _)

theorem markOrphan (id : Int) (parent : Option Int) (orphanOf : Option String) :
    (markOrphan id parent orphanOf).Keeps inv := by
  cases orphanOf with
  | some guid => exact h.annotate _ _ _
  | none =>
      rw [BookmarkStore.markOrphan]
      split
      · exact h.unannotate _ _
      · exact keeps_pure _ _

omit h in
/-- What the cache holds does not matter. -/
theorem cached {step : BookmarkStore → BookmarkStore}
    (hplaces : ∀ store, (step store).places = store.places) :
    (change step : StoreAction Unit).Keeps fun store => inv store.places := by
  intro store hinv
  rw [result_change, hplaces]
  exact hinv

theorem applyIncoming (record : Record) :
    (applyIncoming record).Keeps fun store => inv store.places := by
  cases hroot : RootGuid.all.contains record.id with
  | true =>
      rw [BookmarkStore.applyIncoming, if_pos hroot]
      exact keeps_pure _ _
  | false =>
      rw [applyIncoming_eq hroot]
      have hbring : ∀ (record : Record) (place : Option Int),
          (bringIn record place).Keeps fun store => inv store.places := by
        intro record place
        rw [bringIn]
        split
        · exact h.remove record
        · refine (keeps_read _ _).bind fun there => ?_
          split
          · exact h.update record place
          · exact h.create record place
      have hsettle : ∀ guid parent orphanOf,
          (settle guid parent orphanOf).Keeps fun store => inv store.places := by
        intro guid parent orphanOf
        refine (cached fun _ => by rfl).bind fun _ => (keeps_read _ _).bind fun id => ?_
        cases id with
        | some id => exact onTree (h.markOrphan _ _ _)
        | none => exact keeps_pure _ _
      exact (h.localized record).bind fun record => (keeps_read _ _).bind fun place =>
        (hbring record place.1).bind fun _ => hsettle record.id place.1 place.2

theorem reparent (id : Int) (mark : String) :
    (reparent id mark).Keeps fun store => inv store.places := by
  refine (keeps_read _ _).bind fun parent => ?_
  cases parent with
  | none => exact keeps_pure _ _
  | some parent =>
      refine (onTree (h.moveItem _ _ _)).attempt.bind fun outcome => ?_
      cases outcome with
      | error cause => exact keeps_pure _ _
      | ok moved =>
          refine (onTree (h.unannotate _ _)).bind fun _ => (keeps_read _ _).bind fun guid => ?_
          cases guid with
          | some guid => exact (cached fun _ => by rfl).bind fun _ => keeps_pure _ _
          | none => exact keeps_pure _ _

theorem reparentOrphans : BookmarkStore.reparentOrphans.Keeps fun store => inv store.places := by
  have hall : ∀ orphans, (reparentAll orphans).Keeps fun store => inv store.places := by
    intro orphans
    induction orphans with
    | nil => exact keeps_pure _ _
    | cons orphan orphans ih =>
        exact (h.reparent _ _).bind fun _ => ih.bind fun _ => keeps_pure _ _
  exact (keeps_read _ _).bind hall

omit h in
/-- The part of a record that does not depend on the parent is only read. -/
theorem ownRecord (item : Item) :
    (ownRecord item).Keeps fun store => inv store.places := by
  have hgenerator : (generatorOf? item.id).Keeps fun store => inv store.places := by
    refine (keeps_read _ _).bind fun generators => ?_
    split
    · exact keeps_read _ _
    · exact keeps_pure _ _
  have hkind : (bookmarkKind item).Keeps fun store => inv store.places := by
    refine hgenerator.bind fun generator => ?_
    cases generator with
    | some generator => exact (keeps_read _ _).bind fun _ => keeps_pure _ _
    | none =>
        dsimp only
        split
        · exact (keeps_read _ _).bind fun _ => keeps_pure _ _
        · exact keeps_pure _ _
  rw [BookmarkStore.ownRecord]
  cases item.type with
  | folder => exact keeps_read _ _
  | separator => exact keeps_pure _ _
  | bookmark =>
      rw [bookmarkRecord_eq]
      exact hkind.bind fun _ => (checked _).bind fun _ => (checked _).bind fun _ =>
        (keeps_read _ _).bind fun _ => (keeps_read _ _).bind fun _ => keeps_pure _ _

/-- Making a record moves an item whose parent is gone. -/
theorem createRecord (guid : String) :
    (createRecord guid).Keeps fun store => inv store.places := by
  have hparent : ∀ item, (parentGuid item).Keeps fun store => inv store.places := by
    intro item
    refine (keeps_read _ _).bind fun parent => ?_
    cases parent with
    | some guid => exact keeps_pure _ _
    | none => exact (onTree (h.moveItem _ _ _)).bind fun _ => keeps_pure _ _
  have hrecord : ∀ item, (recordOf item).Keeps fun store => inv store.places := by
    intro item
    rw [recordOf_eq]
    exact (ownRecord item).bind fun _ => (hparent item).bind fun _ => keeps_pure _ _
  refine (keeps_read _ _).bind fun cached? => ?_
  cases cached? with
  | some record => exact keeps_pure _ _
  | none =>
      refine (checked _).bind fun item => ?_
      cases item with
      | none => exact (cached fun _ => by rfl).bind fun _ => keeps_pure _ _
      | some item =>
          exact (hrecord item).bind fun _ => (cached fun _ => by rfl).bind fun _ => keeps_pure _ _

theorem changeItemId (old new : String) :
    (changeItemId old new).Keeps fun store => inv store.places := by
  rw [BookmarkStore.changeItemId]
  split
  · exact keeps_pure _ _
  · refine (keeps_read _ _).bind fun id => (keeps_read _ _).bind fun owner => ?_
    split
    · exact keeps_throw _ _
    · split
      · exact keeps_pure _ _
      · exact keeps_throw _ _
    · exact (onTree (h.setGuid _ _)).bind fun _ => cached fun _ => by rfl

theorem wipe : BookmarkStore.wipe.Keeps fun store => inv store.places := by
  refine (keeps_forM _ fun guid _ => (keeps_read _ _).bind fun root => ?_).bind fun _ =>
    cached fun _ => by rfl
  cases root with
  | some root => exact onTree (h.removeChildren root)
  | none => exact keeps_pure _ _

theorem storeCall (hbegin : (change Places.beginBatch : TreeAction Unit).Keeps inv)
    (hend : (change Places.endBatch : TreeAction Unit).Keeps inv) (call : StoreCall) :
    call.action.Keeps fun store => inv store.places := by
  cases call with
  | mutate mutation => exact onTree (h.mutation hbegin hend mutation)
  | applyIncoming record => exact h.applyIncoming record
  | createRecord guid => exact (h.createRecord guid).map _
  | changeItemId old new => exact h.changeItemId old new
  | reparentOrphans => exact h.reparentOrphans.map _
  | wipe => exact h.wipe
  | forget guid => exact cached fun _ => by rfl
  | clearCache => exact cached fun _ => by rfl

end Places.Hereditary

end SyncedBookmarks
