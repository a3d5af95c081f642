import SyncedBookmarks.Proofs.Portraits

namespace SyncedBookmarks

/-! Making the record of an item looks at the tree and changes nothing. It comes through for every
GUID but that of the topmost root, which has no parent to tell. -/

/-- What a record tells of its item alone: neither the tags of its URI nor the title of the folder
of a query, which are matters of other items. -/
def Record.own (record : Record) : Record :=
  { record with tags := none, folderName := none }

namespace Row

variable (generators : Option (List String)) (row : Row)

/-- The generator of an item's live title, when live titles are supported. -/
def generator? : Option String :=
  if generators.isSome then row.annotationOf? AnnotationName.generatorUri else none

/-- What the record of a bookmark begins with, as it is told by the row alone. -/
def kindGist : Record :=
  match row.generator? generators with
  | some generator =>
      { id := row.guid, kind := .microsummary, generatorUri := some generator
        staticTitle := some ((row.annotationOf? AnnotationName.staticTitle).getD "") }
  | none =>
      if BookmarkStore.isQuery (row.url.getD "") then { id := row.guid, kind := .query }
      else { id := row.guid, kind := .bookmark }

def ownGist : Record :=
  if row.typeCode = ItemType.bookmark.code then
    { row.kindGist generators with
      title := row.title
      keyword := row.keyword
      description := row.annotationOf? AnnotationName.description
      loadInSidebar := some (row.annotationOf? AnnotationName.loadInSidebar).isSome
      bmkUri := some (row.url.getD "") }
  else row.ownRecord []

/-- What the record of a row tells of its item alone. -/
def gist (parent : String) : Record :=
  { row.ownGist generators with parentid := some parent }

def ownAccount (tree : Tree) : Record :=
  if row.typeCode = ItemType.bookmark.code then
    { row.ownGist generators with
      tags := some (tree.tagsFor (row.url.getD ""))
      folderName :=
        if (row.kindGist generators).kind = .query then
          BookmarkStore.queryFolderName? tree (row.url.getD "")
        else none }
  else row.ownGist generators

/-- The record of a row in a tree. -/
def account (tree : Tree) (parent : String) : Record :=
  { row.ownAccount generators tree with parentid := some parent }

theorem own_kindGist : (row.kindGist generators).own = row.kindGist generators := by
  rw [kindGist]
  split
  · rfl
  · split <;> rfl

theorem own_account (tree : Tree) (parent : String) :
    (row.account generators tree parent).own = row.gist generators parent := by
  rw [account, gist, ownAccount]
  split
  · rename_i hcode
    rw [ownGist, if_pos hcode, ← own_kindGist]
    rfl
  · rename_i hcode
    rw [ownGist, if_neg hcode, ownRecord, if_neg hcode]
    split
    · split <;> rfl
    · rfl

theorem kindGist_id : (row.kindGist generators).id = row.guid := by
  rw [kindGist]
  split
  · rfl
  · split <;> rfl

theorem gist_id (parent : String) : (row.gist generators parent).id = row.guid := by
  change (row.ownGist generators).id = row.guid
  rw [ownGist, ownRecord]
  split
  · exact row.kindGist_id generators
  · split
    · split <;> rfl
    · rfl

end Row

namespace BookmarkStore

open SyncedBookmarks.Action SyncedBookmarks.Tree

/-- The record of a GUID as it is made when none is in the cache. -/
def newRecord (store : BookmarkStore) (guid : String) : Except StoreError Record :=
  ((createRecord guid).result store.clearCache).1

/-- A step that comes to a value and leaves the store as it is, whatever the cache holds. -/
def Reads (action : StoreAction α) (store : BookmarkStore) (value : α) : Prop :=
  ∀ cache, action.result { store with cache } = (.ok value, { store with cache })

variable {store : BookmarkStore}

theorem reads_pure (value : α) : Reads (pure value) store value :=
  fun _ => rfl

theorem reads_look (view : Tree → α) : Reads (look view) store (view store.tree) :=
  fun _ => rfl

theorem reads_generators : Reads (Action.read generators) store store.generators :=
  fun _ => rfl

theorem reads_check {view : Tree → Except TreeError α} {value : α}
    (hview : view store.tree = .ok value) : Reads (check view) store value := by
  intro cache
  rw [check, onTree, result_within, Places.result_checked]
  exact congrArg (fun outcome => (Except.mapError StoreError.tree outcome, _)) hview

theorem Reads.bind {action : StoreAction α} {next : α → StoreAction β} {value : α} {last : β}
    (haction : Reads action store value) (hnext : Reads (next value) store last) :
    Reads (action >>= next) store last := by
  intro cache
  rw [result_bind, haction cache]
  exact hnext cache

/-! ### The parts of a record -/

variable {id : Int} {row : Row} {item : Item}

theorem reads_generatorOf? (hrow : store.tree.known? id = some row) :
    Reads (generatorOf? id) store (row.generator? store.generators) := by
  rw [generatorOf?, Row.generator?]
  refine reads_generators.bind ?_
  split
  · have hannotation : store.tree.annotationOf? id AnnotationName.generatorUri =
        row.annotationOf? AnnotationName.generatorUri := by
      rw [annotationOf?_eq_known?, hrow, Option.bind_some]
    rw [← hannotation]
    exact reads_look (·.annotationOf? id AnnotationName.generatorUri)
  · exact reads_pure none

theorem reads_bookmarkKind (hrow : store.tree.known? item.id = some row)
    (hguid : item.guid = row.guid) (hurl : item.url = row.url) :
    Reads (bookmarkKind item) store { row.kindGist store.generators with
      folderName :=
        if (row.kindGist store.generators).kind = .query then
          queryFolderName? store.tree (row.url.getD "")
        else none } := by
  have hgenerator := reads_generatorOf? hrow
  rw [Row.kindGist]
  cases hfound : row.generator? store.generators with
  | some generator =>
      have htitle : store.tree.annotationOf? item.id AnnotationName.staticTitle =
          row.annotationOf? AnnotationName.staticTitle := by
        rw [annotationOf?_eq_known?, hrow, Option.bind_some]
      rw [hfound] at hgenerator
      rw [← hguid, ← htitle]
      exact hgenerator.bind ((reads_look _).bind (reads_pure _))
  | none =>
      rw [hfound] at hgenerator
      refine hgenerator.bind ?_
      dsimp only
      rw [hurl, hguid]
      by_cases hquery : isQuery (row.url.getD "") = true
      · rw [if_pos hquery, if_pos hquery]
        exact (reads_look (queryFolderName? · (row.url.getD ""))).bind (reads_pure _)
      · rw [if_neg hquery, if_neg hquery]
        exact reads_pure _

theorem reads_ownRecord (h : store.tree.WellFormed) (hrow : store.tree.row? id = some row)
    (hread : row.item = .ok item) :
    Reads (ownRecord item) store (row.unplaced.ownAccount store.generators store.tree) := by
  obtain ⟨hitemId, hguid, -, -, htype, htitle, hurl⟩ := Row.item_eq_ok_iff.mp hread
  obtain rfl : item.id = id := hitemId.trans (id_of_row? hrow)
  have hknown := known?_of_row? hrow
  have hsound := h.sound item.id _ hknown
  have hcode : row.unplaced.typeCode = item.type.code := htype.symm
  have hannotation : ∀ name, store.tree.annotationOf? item.id name =
      row.unplaced.annotationOf? name := by
    intro name
    rw [annotationOf?_eq_known?, hknown, Option.bind_some]
  rw [ownRecord, Row.ownAccount, Row.ownGist, hcode]
  cases htypeIs : item.type with
  | folder =>
      have hfolder : folderRecord store.tree item = row.unplaced.ownRecord [] := by
        rw [Row.ownRecord, hcode, htypeIs, if_neg (by decide), if_pos rfl, folderRecord, isLivemark,
          isAnnotated, hannotation, hannotation, htitle, hguid]
        rfl
      rw [if_neg (by decide), if_neg (by decide), ← hfolder]
      exact reads_look (folderRecord · item)
  | separator =>
      rw [if_neg (by decide), if_neg (by decide), Row.ownRecord, hcode, htypeIs,
        if_neg (by decide), if_neg (by decide), Row.unplaced_guid, ← hguid]
      exact reads_pure _
  | bookmark =>
      have hvalid : validateUri (row.unplaced.url.getD "") = .ok (row.unplaced.url.getD "") := by
        obtain ⟨uri, huri⟩ := Option.isSome_iff_exists.mp
          (hsound.url_iff.mpr (by rw [hcode, htypeIs]))
        rw [huri]
        exact hsound.url_valid uri huri
      dsimp only
      rw [bookmarkRecord_eq, hurl, ← Row.unplaced_url, if_pos rfl, if_pos rfl, ← hannotation,
        ← hannotation, Row.unplaced_title, ← htitle]
      exact (reads_bookmarkKind hknown hguid hurl).bind ((reads_check (h.tagsOf_eq hvalid)).bind
        ((reads_check (keyword?_of_known? hknown)).bind ((reads_look _).bind ((reads_look _).bind
          (reads_pure _)))))

theorem exists_reads_recordOf (h : store.tree.WellFormed) (hrow : store.tree.row? id = some row)
    (hread : row.item = .ok item) (hroot : id ≠ RootId.places) :
    ∃ parent, row.parent.bind store.tree.guidOf? = some parent ∧
      Reads (recordOf item) store (row.unplaced.account store.generators store.tree parent) := by
  have hknown := known?_of_row? hrow
  obtain ⟨parent, hparent⟩ := Option.ne_none_iff_exists'.mp
    (mt (h.parent_iff id _ hknown).mp hroot)
  obtain ⟨folder, hfolder, -⟩ :=
    h.parent_folder id parent ((above?_of_known? hknown).trans hparent)
  have hfound : row.parent.bind store.tree.guidOf? = some folder.guid := by
    rw [← Row.unplaced_parent, hparent, Option.bind_some, guidOf?_eq_known?, hfolder,
      Option.map_some]
  have hguid : Reads (parentGuid item) store folder.guid := by
    refine (reads_look _).bind ?_
    rw [(Row.item_eq_ok_iff.mp hread).2.2.1, hfound]
    exact reads_pure _
  rw [recordOf_eq]
  exact ⟨folder.guid, hfound, (reads_ownRecord h hrow hread).bind (hguid.bind (reads_pure _))⟩

/-! ### Whole records -/

/-- What is told of a GUID: that there is no item, or what the item's row tells. -/
def Told (store : BookmarkStore) (guid : String) (record : Record) : Prop :=
  store.tree.idOfGuid? guid = none ∧ record = Record.tombstone guid ∨
    ∃ id row parent, store.tree.known? id = some row ∧ row.guid = guid ∧
      row.parent.bind store.tree.guidOf? = some parent ∧
      record = row.account store.generators store.tree parent

theorem Told.id_eq {guid : String} {record : Record} (h : store.Told guid record) :
    record.id = guid := by
  rcases h with ⟨-, rfl⟩ | ⟨id, row, parent, -, rfl, -, rfl⟩
  · rfl
  · rw [← row.gist_id store.generators parent, ← row.own_account _ store.tree]
    rfl

theorem Told.of_known? (h : store.tree.WellFormed) {record : Record}
    (hrow : store.tree.known? id = some row) (htold : store.Told row.guid record) :
    ∃ parent, row.parent.bind store.tree.guidOf? = some parent ∧
      record = row.account store.generators store.tree parent := by
  rcases htold with ⟨hnone, -⟩ | ⟨other, found, parent, hfound, hguid, hparent, hrecord⟩
  · cases hnone.symm.trans (h.idOfGuid?_iff.mpr ⟨row, hrow, rfl⟩)
  · obtain rfl := h.guid_inj other id found row hfound hrow hguid
    obtain rfl := Option.some.inj (hfound.symm.trans hrow)
    exact ⟨parent, hparent, hrecord⟩

theorem Told.of_none (h : store.tree.WellFormed) {guid : String} {record : Record}
    (hnone : store.tree.idOfGuid? guid = none) (htold : store.Told guid record) :
    record = Record.tombstone guid := by
  rcases htold with ⟨-, hrecord⟩ | ⟨id, row, -, hrow, hguid, -⟩
  · exact hrecord
  · exact absurd hguid (h.idOfGuid?_eq_none_iff.mp hnone id row hrow)

theorem Told.unique (h : store.tree.WellFormed) {guid : String} {record other : Record}
    (htold : store.Told guid record) (htold' : store.Told guid other) : record = other := by
  cases hid : store.tree.idOfGuid? guid with
  | none => rw [htold.of_none h hid, htold'.of_none h hid]
  | some id =>
      obtain ⟨row, hrow, rfl⟩ := h.idOfGuid?_iff.mp hid
      obtain ⟨parent, hparent, rfl⟩ := htold.of_known? h hrow
      obtain ⟨parent', hparent', rfl⟩ := htold'.of_known? h hrow
      rw [Option.some.inj (hparent.symm.trans hparent')]

/-- Unless it is the topmost root's, a GUID has a record, which does not depend on the cache. -/
theorem exists_told (h : store.tree.WellFormed) {guid : String}
    (hroot : store.tree.idOfGuid? guid ≠ some RootId.places) :
    ∃ record, store.Told guid record ∧ store.newRecord guid = .ok record ∧
      ∀ cache, { store with cache }.cached? guid = none →
        (createRecord guid).result { store with cache } =
          (.ok record, { store with cache }.remember guid record) := by
  have hmake : ∃ record, store.Told guid record ∧
      ∀ cache, { store with cache }.cached? guid = none →
        (createRecord guid).result { store with cache } =
          (.ok record, { store with cache }.remember guid record) := by
    cases hid : store.tree.idOfGuid? guid with
    | none =>
        refine ⟨Record.tombstone guid, .inl ⟨hid, rfl⟩, ?_⟩
        intro cache hcached
        have hlook : itemOfGuid? store.tree guid = .ok none := by rw [itemOfGuid?, hid]
        rw [createRecord, result_bind, result_read, hcached]
        dsimp only
        rw [result_bind, reads_check hlook cache]
        rfl
    | some id =>
        obtain ⟨row, hrow, rfl⟩ := h.idOfGuid?_iff.mp hid
        obtain ⟨found, hfound, rfl⟩ := Option.map_eq_some_iff.mp hrow
        obtain ⟨item, hread, hitem, -⟩ := h.item? hfound
        obtain ⟨parent, hparent, hrecord⟩ := exists_reads_recordOf h hfound hread
          fun heq => hroot (hid.trans (congrArg some heq))
        refine ⟨_, .inr ⟨id, _, parent, hrow, rfl, hparent, rfl⟩, ?_⟩
        intro cache hcached
        have hlook : itemOfGuid? store.tree found.unplaced.guid = .ok (some item) := by
          rw [itemOfGuid?, hid]
          exact hitem
        rw [createRecord, result_bind, result_read, hcached]
        dsimp only
        rw [result_bind, reads_check hlook cache]
        dsimp only
        rw [result_bind, hrecord cache]
        rfl
  obtain ⟨record, htold, hresult⟩ := hmake
  exact ⟨record, htold, congrArg Prod.fst (hresult [] rfl), hresult⟩

theorem exists_newRecord (h : store.tree.WellFormed) {guid : String}
    (hroot : store.tree.idOfGuid? guid ≠ some RootId.places) :
    ∃ record, record.id = guid ∧ store.newRecord guid = .ok record ∧
      ∀ cache, { store with cache }.cached? guid = none →
        (createRecord guid).result { store with cache } =
          (.ok record, { store with cache }.remember guid record) := by
  obtain ⟨record, htold, hmade⟩ := exists_told h hroot
  exact ⟨record, htold.id_eq, hmade⟩

/-- The topmost root has no record: it cannot be moved to where there would be a parent. -/
theorem exists_refused_places (h : store.tree.WellFormed) {guid : String}
    (hroot : store.tree.idOfGuid? guid = some RootId.places) :
    ∃ cause, ∀ cache, { store with cache }.cached? guid = none →
      (createRecord guid).result { store with cache } = (.error cause, { store with cache }) := by
  obtain ⟨row, hrow, rfl⟩ := h.idOfGuid?_iff.mp hroot
  obtain ⟨found, hfound, rfl⟩ := Option.map_eq_some_iff.mp hrow
  obtain ⟨item, hread, hitem, -⟩ := h.item? hfound
  have hlook : itemOfGuid? store.tree found.unplaced.guid = .ok (some item) := by
    rw [itemOfGuid?, hroot]
    exact hitem
  have hrecord := reads_ownRecord h hfound hread
  obtain ⟨hitemId, -, hitemParent, -⟩ := Row.item_eq_ok_iff.mp hread
  have hnone : item.parent.bind store.tree.guidOf? = none := by
    rw [hitemParent, ← Row.unplaced_parent, (h.parent_iff _ _ hrow).mpr rfl]
    rfl
  have hid : item.id = RootId.places := hitemId.trans (id_of_row? hfound)
  have hstay : ∃ cause, (Places.moveItem item.id RootId.unfiled Places.atEnd).result store.places =
      (.error cause, store.places) := by
    refine Places.result_moveItem_of_not h ?_ Places.atEnd
    rintro - - ⟨folder, hfolder, -⟩
    rw [hid]
    exact h.rooted _ folder hfolder
  obtain ⟨cause, hmove⟩ := hstay
  refine ⟨.tree cause, ?_⟩
  intro cache hcached
  rw [createRecord, result_bind, result_read, hcached]
  dsimp only
  rw [result_bind, reads_check hlook cache]
  dsimp only
  rw [result_bind, recordOf_eq, result_bind, hrecord cache]
  dsimp only
  rw [result_bind, parentGuid, result_bind, reads_look _ cache, hnone]
  dsimp only
  rw [result_bind, onTree, result_within, hmove]
  rfl

theorem result_createRecord_places (h : store.tree.WellFormed) {guid : String}
    (hroot : store.tree.idOfGuid? guid = some RootId.places) (hcached : store.cached? guid = none) :
    ∃ cause, (createRecord guid).result store = (.error cause, store) := by
  obtain ⟨cause, hcause⟩ := exists_refused_places h hroot
  exact ⟨cause, hcause store.cache hcached⟩

/-- What is made of a GUID with no record in the cache does not depend on the rest of it. -/
theorem result_createRecord_of_uncached (h : store.tree.WellFormed) {guid : String}
    (hcached : store.cached? guid = none) :
    ((createRecord guid).result store).1 = store.newRecord guid := by
  by_cases hroot : store.tree.idOfGuid? guid = some RootId.places
  · obtain ⟨cause, hcause⟩ := exists_refused_places h hroot
    exact (congrArg Prod.fst (hcause store.cache hcached)).trans
      (congrArg Prod.fst (hcause [] rfl)).symm
  · obtain ⟨record, -, hnew, hmake⟩ := exists_told h hroot
    exact (congrArg Prod.fst (hmake store.cache hcached)).trans hnew.symm

theorem not_places_of_newRecord (h : store.tree.WellFormed) {guid : String} {record : Record}
    (hmade : store.newRecord guid = .ok record) :
    store.tree.idOfGuid? guid ≠ some RootId.places := by
  intro hroot
  have hwell : store.clearCache.tree.WellFormed := h
  obtain ⟨cause, hcause⟩ := result_createRecord_places hwell hroot rfl
  rw [newRecord, hcause] at hmade
  cases hmade

/-- Whatever record is made of a GUID, it is what the GUID's row tells. -/
theorem told_of_newRecord (h : store.tree.WellFormed) {guid : String} {record : Record}
    (hmade : store.newRecord guid = .ok record) : store.Told guid record := by
  obtain ⟨made, htold, hnew, -⟩ := exists_told h (not_places_of_newRecord h hmade)
  obtain rfl := Except.ok.inj (hnew.symm.trans hmade)
  exact htold

end BookmarkStore

end SyncedBookmarks
