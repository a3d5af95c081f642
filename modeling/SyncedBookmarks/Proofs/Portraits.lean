import SyncedBookmarks.Proofs.Outgoing
import SyncedBookmarks.Proofs.Synced

namespace SyncedBookmarks

/-! The record of an item as a function of the tree alone, and that making records comes to it. -/

namespace Row

/-- The forms that the record of a row takes, one for each kind of item. -/
inductive Form (row : Row) (tags : List String) (parent : String) : Record → Prop where
  | bookmark (uri : String) (hcode : row.typeCode = ItemType.bookmark.code)
      (hurl : row.url = some uri) :
      Form row tags parent
        { id := row.guid, parentid := some parent, kind := .bookmark, title := row.title
          bmkUri := some uri, tags := some tags, keyword := row.keyword
          description := row.annotationOf? AnnotationName.description
          loadInSidebar := some (row.annotationOf? AnnotationName.loadInSidebar).isSome }
  | folder (title : String) (hcode : row.typeCode = ItemType.folder.code)
      (htitle : row.title = some title) (hfeed : row.annotationOf? AnnotationName.feedUri = none) :
      Form row tags parent
        { id := row.guid, parentid := some parent, kind := .folder, title := some title }
  | livemark (title feed : String) (hcode : row.typeCode = ItemType.folder.code)
      (htitle : row.title = some title)
      (hfeed : row.annotationOf? AnnotationName.feedUri = some feed) :
      Form row tags parent
        { id := row.guid, parentid := some parent, kind := .livemark, title := some title
          siteUri := row.annotationOf? AnnotationName.siteUri, feedUri := some feed }
  | separator (hcode : row.typeCode = ItemType.separator.code) :
      Form row tags parent { id := row.guid, parentid := some parent, kind := .separator }

theorem Sound.form {row : Row} (h : row.Sound) (tags : List String) (parent : String) :
    row.Form tags parent (row.record tags parent) := by
  obtain ⟨type, htype⟩ := h.typed
  have hcode : row.typeCode = type.code := (ItemType.ofCode?_eq_some htype).symm
  cases type with
  | bookmark =>
      obtain ⟨uri, huri⟩ := Option.isSome_iff_exists.mp (h.url_iff.mpr hcode)
      rw [record, ownRecord, if_pos hcode, huri]
      exact .bookmark uri hcode huri
  | folder =>
      obtain ⟨title, htitle⟩ := Option.isSome_iff_exists.mp (h.folder_titled hcode)
      rw [record, ownRecord, if_neg (by rw [hcode]; decide), if_pos hcode, htitle]
      cases hfeed : row.annotationOf? AnnotationName.feedUri with
      | none =>
          rw [if_neg (by simp)]
          exact .folder title hcode htitle hfeed
      | some feed =>
          rw [if_pos (by simp)]
          exact .livemark title feed hcode htitle hfeed
  | separator =>
      rw [record, ownRecord, if_neg (by rw [hcode]; decide), if_neg (by rw [hcode]; decide)]
      exact .separator hcode

end Row

namespace Tree

/-! ### The tags of a URI -/

/-- Every URI has some tags, if only none. -/
theorem WellFormed.exists_taggedWith {tree : Tree} (h : tree.WellFormed) (uri : String) :
    ∃ tags, tree.TaggedWith uri tags := by
  classical
  refine ⟨_, ((tree.rows.map (·.id)).filter fun folder => tree.TagHolds folder uri), ?_, ?_,
    List.Perm.refl _⟩
  · exact h.ids_nodup.filter _
  · intro folder
    rw [List.mem_filter, decide_eq_true_eq, and_iff_right_iff_imp]
    rintro ⟨habove, -⟩
    obtain ⟨row, hrow, -⟩ := known?_of_above? habove
    obtain ⟨found, hmem, rfl, -⟩ := exists_mem_of_known? hrow
    exact List.mem_map_of_mem hmem

def tagsFor (tree : Tree) (uri : String) : List String :=
  match tree.tagsOf uri with
  | .ok tags => tags
  | .error _ => []

theorem WellFormed.tagsOf_eq {tree : Tree} (h : tree.WellFormed) {uri : String}
    (huri : validateUri uri = .ok uri) : tree.tagsOf uri = .ok (tree.tagsFor uri) := by
  obtain ⟨tags, htagged⟩ := h.exists_taggedWith uri
  rw [tagsFor, Places.tagsOf_of_taggedWith h huri htagged]

theorem WellFormed.tagsFor_eq {tree : Tree} (h : tree.WellFormed) {uri : String}
    (huri : validateUri uri = .ok uri) {tags : List String} (htagged : tree.TaggedWith uri tags) :
    tree.tagsFor uri = tags.mergeSort (· ≤ ·) := by
  rw [tagsFor, Places.tagsOf_of_taggedWith h huri htagged]

/-- Whether tags have names, each another. -/
structure TagsNamed (tree : Tree) : Prop where
  titled : ∀ id row, tree.known? id = some row → row.parent = some RootId.tags →
    row.typeCode = ItemType.folder.code → row.title ≠ some ""
  distinct : ∀ first second row row', tree.known? first = some row →
    row.parent = some RootId.tags → row.typeCode = ItemType.folder.code →
    tree.known? second = some row' → row'.parent = some RootId.tags →
    row'.typeCode = ItemType.folder.code → row.title = row'.title → first = second

theorem TagHolds.exists_row {tree : Tree} (h : tree.WellFormed) {folder : Int} {uri : String}
    (hholds : tree.TagHolds folder uri) : ∃ row title, tree.known? folder = some row ∧
      row.parent = some RootId.tags ∧ row.typeCode = ItemType.folder.code ∧
      row.title = some title ∧ tree.tagTitle folder = title := by
  obtain ⟨habove, id, item, hitem, hparent, -⟩ := hholds
  obtain ⟨row, hrow, hcode⟩ := h.parent_folder id folder ((above?_of_known? hitem).trans hparent)
  obtain ⟨title, htitle⟩ :=
    Option.isSome_iff_exists.mp ((h.sound folder row hrow).folder_titled hcode)
  refine ⟨row, title, hrow, (above?_of_known? hrow).symm.trans habove, hcode, htitle, ?_⟩
  rw [tagTitle, hrow, Option.bind_some, htitle]
  rfl

/-- The tags that are read are names, each one once. -/
theorem TagsNamed.tagsFor {tree : Tree} (hnamed : tree.TagsNamed) (h : tree.WellFormed)
    {uri : String} (huri : validateUri uri = .ok uri) :
    (tree.tagsFor uri).Nodup ∧ "" ∉ tree.tagsFor uri := by
  obtain ⟨tags, folders, hfolders, hmem, hperm⟩ := h.exists_taggedWith uri
  have hnodup : (folders.map tree.tagTitle).Nodup := by
    refine hfolders.map_on ?_
    intro first hfirst second hsecond heq
    obtain ⟨row, title, hrow, hparent, hcode, htitle, hname⟩ :=
      ((hmem first).mp hfirst).exists_row h
    obtain ⟨row', title', hrow', hparent', hcode', htitle', hname'⟩ :=
      ((hmem second).mp hsecond).exists_row h
    refine hnamed.distinct first second row row' hrow hparent hcode hrow' hparent' hcode' ?_
    rw [htitle, htitle', ← hname, ← hname', heq]
  have hnone : "" ∉ folders.map tree.tagTitle := by
    intro hempty
    obtain ⟨folder, hfolder, heq⟩ := List.mem_map.mp hempty
    obtain ⟨row, title, hrow, hparent, hcode, htitle, hname⟩ :=
      ((hmem folder).mp hfolder).exists_row h
    refine hnamed.titled folder row hrow hparent hcode ?_
    rw [htitle, ← hname, heq]
  have hsorted : (folders.map tree.tagTitle).Perm (tree.tagsFor uri) := by
    rw [h.tagsFor_eq huri ⟨folders, hfolders, hmem, hperm⟩]
    exact hperm.trans (List.mergeSort_perm tags _).symm
  exact ⟨hsorted.nodup_iff.mp hnodup, fun hempty => hnone (hsorted.mem_iff.mpr hempty)⟩

/-! ### Portraits -/

/-- The record of the item with a GUID. -/
def portrait? (tree : Tree) (guid : String) : Option Record := do
  let row ← (tree.idOfGuid? guid).bind tree.known?
  let parent ← row.parent.bind tree.guidOf?
  pure (row.record (tree.tagsFor (row.url.getD "")) parent)

/-- What is told of a GUID: the record of its item, or that there is none. -/
def answer (tree : Tree) (guid : String) : Record :=
  (tree.portrait? guid).getD (Record.tombstone guid)

/-- Whether the item with a GUID, if there is one, is plain and has a parent. -/
def Tells (tree : Tree) (guid : String) : Prop :=
  ∀ id row, tree.known? id = some row → row.guid = guid →
    row.Plain ∧ ∃ parent, row.parent.bind tree.guidOf? = some parent

theorem portrait?_of_known? {tree : Tree} (h : tree.WellFormed) {id : Int} {row : Row}
    (hrow : tree.known? id = some row) {parent : String}
    (hparent : row.parent.bind tree.guidOf? = some parent) :
    tree.portrait? row.guid = some (row.record (tree.tagsFor (row.url.getD "")) parent) := by
  rw [portrait?, h.idOfGuid?_iff.mpr ⟨row, hrow, rfl⟩]
  simp only [Option.bind_some, hrow, hparent, bind, pure]

theorem answer_of_none {tree : Tree} {guid : String} (h : tree.idOfGuid? guid = none) :
    tree.answer guid = Record.tombstone guid := by
  rw [answer, portrait?, h]
  rfl

end Tree

namespace BookmarkStore

open SyncedBookmarks.Action SyncedBookmarks.Tree

/-- Whether what the cache holds of plain items is what the tree tells. -/
def Coherent (store : BookmarkStore) : Prop :=
  ∀ guid record, store.cached? guid = some record → store.tree.Tells guid →
    record = store.tree.answer guid

theorem coherent_of_empty {store : BookmarkStore} (h : store.cache = []) : store.Coherent := by
  intro guid record hcached
  rw [cached?, h] at hcached
  contradiction

theorem Coherent.congr {store next : BookmarkStore} (h : store.Coherent)
    (htree : next.tree = store.tree) (hcache : next.cache = store.cache) : next.Coherent := by
  intro guid record hcached
  rw [cached?, hcache] at hcached
  rw [htree]
  exact h guid record hcached

theorem cached?_remember (store : BookmarkStore) (guid : String) (record : Record)
    (other : String) : (store.remember guid record).cached? other =
      if other = guid then some record else store.cached? other := by
  have hsame : (store.cache.filter (·.1 != guid)).find? (·.1 == guid) = none := by
    rw [List.find?_eq_none]
    intro entry hentry
    simpa using (List.mem_filter.mp hentry).2
  rw [cached?, remember, List.find?_append]
  split
  · rename_i heq
    rw [heq, hsame]
    simp
  · rename_i hne
    have hother : (store.cache.filter (·.1 != guid)).find? (·.1 == other) =
        store.cache.find? (·.1 == other) := by
      rw [List.find?_filter]
      congr 1
      funext entry
      by_cases heq : entry.1 = other
      · have hkeep : entry.1 ≠ guid := fun hguid => hne (heq.symm.trans hguid)
        simp [heq, hne]
      · simp [heq]
    have hlast : [(guid, record)].find? (·.1 == other) = none := by
      simp [Ne.symm hne]
    rw [hother, hlast, Option.or_none, cached?]

theorem Coherent.remember {store next : BookmarkStore} (h : store.Coherent) {guid : String}
    {record : Record} (hrecord : store.tree.Tells guid → record = store.tree.answer guid)
    (htree : next.tree = store.tree) (hcache : next.cache = (store.remember guid record).cache) :
    next.Coherent := by
  intro other found hfound
  rw [cached?, hcache] at hfound
  have hremembered := store.cached?_remember guid record other
  rw [cached?, hfound] at hremembered
  rw [htree]
  split at hremembered
  · rename_i heq
    rw [heq, Option.some.inj hremembered]
    exact hrecord
  · exact h other found hremembered.symm

/-- Making a record comes to what the tree tells, whether the record is in the cache or not. -/
theorem yields_createRecord_answer {store : BookmarkStore} (h : store.tree.WellFormed)
    (hcoherent : store.Coherent) {guid : String} (htells : store.tree.Tells guid) :
    (createRecord guid).Yields store fun record next =>
      record = store.tree.answer guid ∧ next.tree = store.tree ∧ next.Coherent := by
  cases hcached : store.cached? guid with
  | some record =>
      refine (yields_read (P := fun cached state => cached = some record ∧ state = store)
        ⟨hcached, rfl⟩).bind ?_
      rintro _ _ ⟨rfl, rfl⟩
      exact yields_pure ⟨hcoherent guid record hcached htells, rfl, hcoherent⟩
  | none =>
      cases hid : store.tree.idOfGuid? guid with
      | some id =>
          obtain ⟨row, hrow, rfl⟩ := h.idOfGuid?_iff.mp hid
          obtain ⟨hplain, parent, hparent⟩ := htells id row hrow rfl
          have hportrait := portrait?_of_known? h hrow hparent
          have hanswer : store.tree.answer row.guid =
              row.record (store.tree.tagsFor (row.url.getD "")) parent := by
            rw [answer, hportrait, Option.getD_some]
          have htags : row.typeCode = ItemType.bookmark.code →
              store.tree.tagsOf (row.url.getD "") =
                .ok (store.tree.tagsFor (row.url.getD "")) := by
            intro hbookmark
            obtain ⟨uri, huri⟩ :=
              Option.isSome_iff_exists.mp ((h.sound id row hrow).url_iff.mpr hbookmark)
            rw [huri]
            exact h.tagsOf_eq ((h.sound id row hrow).url_valid uri huri)
          refine (yields_createRecord h hrow hcached hplain htags hparent).imp ?_
          rintro record next ⟨rfl, htree, hcache, -⟩
          exact ⟨hanswer.symm, htree, hcoherent.remember (fun _ => hanswer.symm) htree hcache⟩
      | none =>
          have hanswer := answer_of_none hid
          have hlook : itemOfGuid? store.tree guid = .ok none := by
            rw [itemOfGuid?, hid]
          refine (yields_read (P := fun cached state => cached = none ∧ state = store)
            ⟨hcached, rfl⟩).bind ?_
          rintro _ state ⟨rfl, rfl⟩
          have hcheck : Leads (check (itemOfGuid? · guid)) state.tree fun read next =>
              read = none ∧ next = state.tree := by
            refine leads_onTree ?_
            rintro places htree
            exact yields_check (by rw [htree]; exact hlook) ⟨rfl, htree⟩
          refine Yields.bind (hcheck state rfl) ?_
          rintro read last ⟨⟨rfl, hsame⟩, hcache, -⟩
          have hmade : (pure (Record.tombstone guid) : StoreAction Record).Yields last
              fun made next => made = Record.tombstone guid ∧ last = next :=
            yields_pure ⟨rfl, rfl⟩
          refine Yields.bind hmade ?_
          rintro _ _ ⟨rfl, rfl⟩
          refine Yields.bind (yields_change (P := fun _ next =>
            next = last.remember guid (Record.tombstone guid)) rfl) ?_
          rintro - - rfl
          refine yields_pure ⟨hanswer.symm, hsame, ?_⟩
          refine hcoherent.remember (fun _ => hanswer.symm) hsame ?_
          rw [remember, remember, hcache]

/-- Whatever record comes of a plain item, it is what the tree tells. -/
theorem eq_answer_of_result {store next : BookmarkStore} (h : store.tree.WellFormed)
    (hcoherent : store.Coherent) {guid : String} (htells : store.tree.Tells guid) {record : Record}
    (hresult : (createRecord guid).result store = (.ok record, next)) :
    record = store.tree.answer guid := by
  obtain ⟨made, last, hmade, hrecord, -⟩ := yields_createRecord_answer h hcoherent htells
  rw [hmade] at hresult
  obtain ⟨hsame, -⟩ := Prod.mk.inj hresult
  rw [← Except.ok.inj hsame, hrecord]

end BookmarkStore

end SyncedBookmarks
