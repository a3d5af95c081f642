import SyncedBookmarks.Proofs.ItemSteps

namespace SyncedBookmarks

/-! The record that is made of an item, field by field. -/

namespace Row

/-- The record of a row with some tags, without its parent. -/
def ownRecord (row : Row) (tags : List String) : Record :=
  if row.typeCode = ItemType.bookmark.code then
    { id := row.guid, kind := .bookmark, title := row.title, bmkUri := some (row.url.getD "")
      tags := some tags, keyword := row.keyword
      description := row.annotationOf? AnnotationName.description
      loadInSidebar := some (row.annotationOf? AnnotationName.loadInSidebar).isSome }
  else if row.typeCode = ItemType.folder.code then
    if (row.annotationOf? AnnotationName.feedUri).isSome then
      { id := row.guid, kind := .livemark, title := row.title
        siteUri := row.annotationOf? AnnotationName.siteUri
        feedUri := row.annotationOf? AnnotationName.feedUri }
    else { id := row.guid, kind := .folder, title := row.title }
  else { id := row.guid, kind := .separator }

def record (row : Row) (tags : List String) (parent : String) : Record :=
  { row.ownRecord tags with parentid := some parent }

/-- Whether a row is that of a plain bookmark, if it is that of a bookmark at all. -/
def Plain (row : Row) : Prop :=
  row.typeCode = ItemType.bookmark.code →
    BookmarkStore.isQuery (row.url.getD "") = false ∧
      row.annotationOf? AnnotationName.generatorUri = none

end Row

namespace BookmarkStore

open SyncedBookmarks.Action SyncedBookmarks.Tree

variable {tree : Tree} {id : Int} {row : Row}

theorem leads_generatorOf?_none (hnone : row.annotationOf? AnnotationName.generatorUri = none)
    (hrow : tree.known? id = some row) :
    Leads (generatorOf? id) tree fun found next => found = none ∧ next = tree := by
  rintro store rfl
  have hlook : store.tree.annotationOf? id AnnotationName.generatorUri = none := by
    rw [annotationOf?_eq_known?, hrow, Option.bind_some, hnone]
  refine (yields_read (P := fun generators state =>
    generators = store.generators ∧ state = store) ⟨rfl, rfl⟩).bind ?_
  rintro generators state ⟨rfl, rfl⟩
  split
  · exact yields_read ⟨⟨hlook, rfl⟩, rfl, rfl⟩
  · exact yields_pure ⟨⟨rfl, rfl⟩, rfl, rfl⟩

theorem leads_bookmarkRecord (hrow : tree.known? id = some row) {item : Item} (hid : item.id = id)
    (hguid : item.guid = row.guid) (htitle : item.title = row.title) (hurl : item.url = row.url)
    (hbookmark : row.typeCode = ItemType.bookmark.code) (hplain : row.Plain) {tags : List String}
    (htags : tree.tagsOf (row.url.getD "") = .ok tags) :
    Leads (bookmarkRecord item) tree fun record next =>
      record = row.ownRecord tags ∧ next = tree := by
  subst hid
  obtain ⟨hquery, hgenerator⟩ := hplain hbookmark
  have hkind : Leads (bookmarkKind item) tree fun record next =>
      record = { id := row.guid, kind := .bookmark } ∧ next = tree := by
    refine (leads_generatorOf?_none hgenerator hrow).bind ?_
    rintro found next ⟨rfl, rfl⟩
    rw [hurl, hguid]
    dsimp only
    rw [if_neg (by rw [hquery]; exact Bool.false_ne_true)]
    exact leads_pure ⟨rfl, rfl⟩
  rw [bookmarkRecord_eq, hurl, htitle]
  refine hkind.bind ?_
  rintro record next ⟨rfl, rfl⟩
  refine leads_check_bind htags (leads_check_bind (keyword?_of_known? hrow) (leads_look_bind
    (leads_look_bind (leads_pure ⟨?_, rfl⟩))))
  rw [Row.ownRecord, if_pos hbookmark, isAnnotated, annotationOf?_eq_known?,
    annotationOf?_eq_known?, hrow]
  rfl

theorem leads_ownRecord (hrow : tree.known? id = some row) {item : Item} (hid : item.id = id)
    (hguid : item.guid = row.guid) (htype : item.type.code = row.typeCode)
    (htitle : item.title = row.title) (hurl : item.url = row.url) (hplain : row.Plain)
    {tags : List String} (htags : row.typeCode = ItemType.bookmark.code →
      tree.tagsOf (row.url.getD "") = .ok tags) :
    Leads (ownRecord item) tree fun record next =>
      record = row.ownRecord tags ∧ next = tree := by
  rw [ownRecord]
  cases htypeIs : item.type with
  | bookmark =>
      have hbookmark : row.typeCode = ItemType.bookmark.code := by rw [← htype, htypeIs]
      exact leads_bookmarkRecord hrow hid hguid htitle hurl hbookmark hplain (htags hbookmark)
  | separator =>
      refine leads_pure ⟨?_, rfl⟩
      have hcode : row.typeCode = ItemType.separator.code := by rw [← htype, htypeIs]
      rw [Row.ownRecord, hcode, if_neg (by decide), if_neg (by decide), hguid]
  | folder =>
      subst hid
      have hcode : row.typeCode = ItemType.folder.code := by rw [← htype, htypeIs]
      rintro store rfl
      refine yields_read ⟨⟨?_, rfl⟩, rfl, rfl⟩
      change folderRecord store.tree item = _
      rw [Row.ownRecord, hcode, if_neg (by decide), if_pos rfl, folderRecord, isLivemark,
        isAnnotated, annotationOf?_eq_known?, annotationOf?_eq_known?, hrow, htitle, hguid]
      rfl

/-- The record of an item whose parent is there. -/
theorem leads_recordOf (hrow : tree.known? id = some row) {item : Item} (hid : item.id = id)
    (hguid : item.guid = row.guid) (hparent : item.parent = row.parent)
    (htype : item.type.code = row.typeCode) (htitle : item.title = row.title)
    (hurl : item.url = row.url) (hplain : row.Plain) {tags : List String}
    (htags : row.typeCode = ItemType.bookmark.code → tree.tagsOf (row.url.getD "") = .ok tags)
    {parent : String} (hparentGuid : row.parent.bind tree.guidOf? = some parent) :
    Leads (recordOf item) tree fun record next =>
      record = row.record tags parent ∧ next = tree := by
  rw [recordOf_eq]
  refine (leads_ownRecord hrow hid hguid htype htitle hurl hplain htags).bind ?_
  rintro record next ⟨rfl, rfl⟩
  have hfound : Leads (parentGuid item) next fun found state => found = parent ∧ state = next := by
    refine leads_look_bind ?_
    rw [hparent, hparentGuid]
    exact leads_pure ⟨rfl, rfl⟩
  refine hfound.bind ?_
  rintro found state ⟨rfl, rfl⟩
  exact leads_pure ⟨rfl, rfl⟩

/-- Making the record of an item that has none in the cache. -/
theorem yields_createRecord {store : BookmarkStore} (h : store.tree.WellFormed)
    (hrow : store.tree.known? id = some row) (hcached : store.cached? row.guid = none)
    (hplain : row.Plain) {tags : List String} (htags : row.typeCode = ItemType.bookmark.code →
      store.tree.tagsOf (row.url.getD "") = .ok tags)
    {parent : String} (hparent : row.parent.bind store.tree.guidOf? = some parent) :
    (createRecord row.guid).Yields store fun record next =>
      record = row.record tags parent ∧ next.tree = store.tree ∧
        next.cache = (store.remember row.guid record).cache ∧ next.generators = store.generators := by
  have hid : store.tree.idOfGuid? row.guid = some id := h.idOfGuid?_iff.mpr ⟨row, hrow, rfl⟩
  obtain ⟨found, hfound, rfl⟩ := Option.map_eq_some_iff.mp hrow
  obtain ⟨item, hread, hitem, -⟩ := h.item? hfound
  obtain ⟨hitemId, hguid, hitemParent, -, htype, htitle, hurl⟩ := Row.item_eq_ok_iff.mp hread
  have hlook : itemOfGuid? store.tree found.unplaced.guid = .ok (some item) := by
    rw [itemOfGuid?, hid]
    exact hitem
  refine (yields_read (P := fun cached state => cached = none ∧ state = store)
    ⟨hcached, rfl⟩).bind ?_
  rintro cached state ⟨rfl, rfl⟩
  have hcheck : Leads (check (itemOfGuid? · found.unplaced.guid)) state.tree fun read next =>
      read = some item ∧ next = state.tree := by
    refine leads_onTree ?_
    rintro places htree
    exact yields_check (by rw [htree]; exact hlook) ⟨rfl, htree⟩
  refine Yields.bind (hcheck state rfl) ?_
  rintro read state' ⟨⟨rfl, hsame⟩, hcache, hgenerators⟩
  have hrecord := leads_recordOf hrow (hitemId.trans (id_of_row? hfound)) hguid hitemParent htype
    htitle hurl hplain htags hparent
  refine Yields.bind (hrecord state' hsame) ?_
  rintro record state'' ⟨⟨rfl, hsame'⟩, hcache', hgenerators'⟩
  refine (yields_change (P := fun _ next => next = state''.remember _ _) rfl).bind ?_
  rintro - - rfl
  refine yields_pure ⟨rfl, hsame', ?_, hgenerators'.trans hgenerators⟩
  rw [remember, remember, hcache', hcache]

end BookmarkStore

end SyncedBookmarks
