import SyncedBookmarks.Proofs.StoreSteps

namespace SyncedBookmarks

/-! The records that are made from local items have the fields of their kinds alone. -/

namespace BookmarkStore

open SyncedBookmarks.Action

/-- An item as it can be read from a well-formed tree. -/
def FromTree (item : Item) : Prop :=
  ∃ row : Row, row.Sound ∧ row.typeCode = item.type.code ∧ row.title = item.title ∧
    row.url = item.url

theorem fromTree_of_item? {tree : Tree} (h : tree.WellFormed) {id : Int} {item : Item}
    (hitem : tree.item? id = .ok (some item)) : FromTree item := by
  obtain ⟨row, hrow, hread⟩ := h.exists_row_of_item? hitem
  obtain ⟨-, -, -, -, htype, htitle, hurl⟩ := Row.item_eq_ok_iff.mp hread
  exact ⟨row.unplaced, h.sound id _ (Tree.known?_of_row? hrow), htype.symm, htitle.symm,
    hurl.symm⟩

/-- What a bookmark's record begins with: its kind, and what that kind alone has. -/
def bookmarkKind (item : Item) : StoreAction Record := do
  match ← generatorOf? item.id with
  | some generator => do
      let staticTitle ← look (·.annotationOf? item.id AnnotationName.staticTitle)
      pure
        { id := item.guid, kind := .microsummary, generatorUri := some generator
          staticTitle := some (staticTitle.getD "") }
  | none =>
      if isQuery (item.url.getD "") then do
        let folderName ← look (queryFolderName? · (item.url.getD ""))
        pure { id := item.guid, kind := .query, folderName }
      else pure { id := item.guid, kind := .bookmark }

theorem bookmarkRecord_eq (item : Item) :
    bookmarkRecord item = (do
      let record ← bookmarkKind item
      let tags ← check (·.tagsOf (item.url.getD ""))
      let keyword ← check (·.keyword? item.id)
      let description ← look (·.annotationOf? item.id AnnotationName.description)
      let loadInSidebar ← look (·.isAnnotated item.id AnnotationName.loadInSidebar)
      pure
        { record with
          title := item.title
          tags := some tags
          keyword, description
          loadInSidebar := some loadInSidebar
          bmkUri := some (item.url.getD "") }) := by
  rw [bookmarkRecord, bookmarkKind, bind_assoc]
  congr 1
  funext generator
  cases generator with
  | some generator => rfl
  | none =>
      dsimp only
      split
      · rfl
      · rfl

/-- The part of an item's record that does not depend on its parent. -/
def ownRecord (item : Item) : StoreAction Record :=
  match item.type with
  | .bookmark => bookmarkRecord item
  | .folder => look (folderRecord · item)
  | .separator => pure { id := item.guid, kind := .separator }

theorem recordOf_eq (item : Item) :
    recordOf item = (do
      let record ← ownRecord item
      let parent ← parentGuid item
      pure { record with parentid := some parent }) := by
  rw [recordOf, ownRecord]
  cases item.type <;> rfl

theorem sorted_of_tagsOf {tree : Tree} {uri : String} {tags : List String}
    (h : tree.tagsOf uri = .ok tags) : tags.mergeSort (· ≤ ·) = tags := by
  obtain ⟨unsorted, rfl⟩ : ∃ unsorted : List String, tags = unsorted.mergeSort (· ≤ ·) := by
    obtain ⟨_, -, h⟩ := Action.exists_of_bind_ok h
    obtain ⟨_, -, h⟩ := Action.exists_of_bind_ok h
    obtain ⟨tagged, -, hvalue⟩ := Action.exists_of_bind_ok h
    exact ⟨_, (Except.ok.inj hvalue).symm⟩
  exact Places.sorted_of_perm (List.mergeSort_perm unsorted _)

theorem ensures_bookmarkKind (item : Item) :
    (bookmarkKind item).Ensures WellFormed fun record => record.id = item.guid ∧
      (record = { id := item.guid, kind := .bookmark } ∧ isQuery (item.url.getD "") = false ∨
        record.kind = .query ∨ record.kind = .microsummary) := by
  have hgenerator : (generatorOf? item.id).Keeps WellFormed := by
    refine (keeps_read _ _).bind fun generators => ?_
    split
    · exact keeps_look _
    · exact keeps_pure _ _
  refine hgenerator.ensures.bind fun generator _ => ?_
  cases generator with
  | some generator =>
      exact (keeps_look _).ensures.bind fun _ _ => ensures_pure ⟨rfl, .inr (.inr rfl)⟩
  | none =>
      dsimp only
      split
      · exact (keeps_look _).ensures.bind fun _ _ => ensures_pure ⟨rfl, .inr (.inl rfl)⟩
      · rename_i hquery
        exact ensures_pure ⟨rfl, .inl ⟨rfl, by simpa using hquery⟩⟩

theorem ensures_bookmarkRecord {item : Item} (hitem : FromTree item) (htype : item.type = .bookmark) :
    (bookmarkRecord item).Ensures WellFormed fun record => record.id = item.guid ∧
      ∀ parent, Record.Serialized { record with parentid := some parent } := by
  obtain ⟨row, hsound, hcode, -, hurl⟩ := hitem
  have hsome : row.url.isSome := hsound.url_iff.mpr (by rw [hcode, htype])
  obtain ⟨uri, huri⟩ := Option.isSome_iff_exists.mp hsome
  have hvalid := hsound.url_valid uri huri
  have hitemUrl : item.url.getD "" = uri := by rw [← hurl, huri]; rfl
  rw [bookmarkRecord_eq, hitemUrl]
  refine (ensures_bookmarkKind item).bind ?_
  rintro record ⟨hid, hkind⟩
  refine (ensures_checked (P := fun tags => tags.mergeSort (· ≤ ·) = tags)
    fun _ _ _ htags => sorted_of_tagsOf htags).bind fun tags htags => ?_
  refine (ensures_checked (P := fun keyword => keyword ≠ some "") ?_).bind
    fun keyword hkeyword => ?_
  · intro tree keyword hwell hkeyword
    cases hentry : tree.known? item.id with
    | none =>
        rw [Tree.keyword?, Tree.known?_eq_none_iff.mp hentry] at hkeyword
        cases hkeyword
    | some found =>
        rw [Tree.keyword?_of_known? hentry] at hkeyword
        rw [← Except.ok.inj hkeyword]
        exact (hwell.sound _ found hentry).keyword_ne
  refine (keeps_look _).ensures.bind fun description _ => (keeps_look _).ensures.bind
    fun sidebar _ => ensures_pure ⟨hid, fun parent => ?_⟩
  rcases hkind with ⟨rfl, hquery⟩ | hkind
  · rw [hitemUrl] at hquery
    exact .bookmark _ _ _ _ _ _ _ _ hvalid hquery htags hkeyword
  · exact .other _ hkind

theorem ensures_ownRecord {item : Item} (hitem : FromTree item) :
    (ownRecord item).Ensures WellFormed fun record => record.id = item.guid ∧
      ∀ parent, Record.Serialized { record with parentid := some parent } := by
  rw [ownRecord]
  cases htype : item.type with
  | bookmark => exact ensures_bookmarkRecord hitem htype
  | separator => exact ensures_pure ⟨rfl, fun parent => .separator _ parent⟩
  | folder =>
      obtain ⟨row, hsound, hcode, htitle, -⟩ := hitem
      have hsome : row.title.isSome := hsound.folder_titled (by rw [hcode, htype])
      obtain ⟨title, hrowTitle⟩ := Option.isSome_iff_exists.mp hsome
      have hitemTitle : item.title = some title := htitle.symm.trans hrowTitle
      refine ensures_look fun tree _ => ?_
      rw [folderRecord, hitemTitle]
      cases hfeed : tree.annotationOf? item.id AnnotationName.feedUri with
      | none =>
          rw [if_neg (by simp [Tree.isLivemark, Tree.isAnnotated, hfeed])]
          exact ⟨rfl, fun parent => .folder _ parent title⟩
      | some feed =>
          rw [if_pos (by simp [Tree.isLivemark, Tree.isAnnotated, hfeed])]
          exact ⟨rfl, fun parent => .livemark _ parent title _ feed⟩

theorem keeps_parentGuid (item : Item) : (parentGuid item).Keeps WellFormed := by
  refine (keeps_look _).bind fun parent => ?_
  cases parent with
  | some guid => exact keeps_pure _ _
  | none => exact (keeps_onTree (Places.keeps_moveItem _ _ _)).bind fun _ => keeps_pure _ _

theorem ensures_recordOf {item : Item} (hitem : FromTree item) :
    (recordOf item).Ensures WellFormed fun record =>
      record.id = item.guid ∧ record.Serialized := by
  rw [recordOf_eq]
  refine (ensures_ownRecord hitem).bind ?_
  rintro record ⟨hid, hserialized⟩
  exact (keeps_parentGuid item).ensures.bind fun parent _ => ensures_pure ⟨hid, hserialized parent⟩

theorem WellFormed.of_cached? {store : BookmarkStore} (h : store.WellFormed) {guid : String}
    {record : Record} (hcached : store.cached? guid = some record) :
    record.id = guid ∧ record.Serialized := by
  obtain ⟨entry, hentry, rfl⟩ := Option.map_eq_some_iff.mp hcached
  have hguid : entry.1 = guid := by simpa using List.find?_some hentry
  rw [← hguid]
  exact h.cache entry.1 entry.2 (List.mem_of_find?_eq_some hentry)

theorem WellFormed.forget {store : BookmarkStore} (h : store.WellFormed) (guid : String) :
    (store.forget guid).WellFormed :=
  ⟨h.tree, fun other record hmem => h.cache other record (List.mem_filter.mp hmem).1⟩

theorem WellFormed.remember {store : BookmarkStore} (h : store.WellFormed) {record : Record}
    (hserialized : record.Serialized) : (store.remember record.id record).WellFormed := by
  refine ⟨h.tree, ?_⟩
  intro guid other hmem
  rcases List.mem_append.mp hmem with hold | hnew
  · exact h.cache guid other (List.mem_filter.mp hold).1
  · obtain ⟨rfl, rfl⟩ := Prod.mk.inj (List.mem_singleton.mp hnew)
    exact ⟨rfl, hserialized⟩

theorem item?_of_itemOfGuid? {tree : Tree} {guid : String} {item : Item}
    (h : itemOfGuid? tree guid = .ok (some item)) :
    ∃ id, tree.idOfGuid? guid = some id ∧ tree.item? id = .ok (some item) := by
  rw [itemOfGuid?] at h
  split at h
  · rename_i id hid
    exact ⟨id, hid, h⟩
  · cases Except.ok.inj h

/-- Whatever record is made for a GUID has that GUID and the fields of its kind alone. -/
theorem ensures_createRecord (guid : String) :
    (createRecord guid).Ensures WellFormed fun record =>
      record.id = guid ∧ record.Serialized := by
  have hcached : (read (cached? · guid) : StoreAction (Option Record)).Ensures WellFormed
      fun cached => ∀ record, cached = some record → record.id = guid ∧ record.Serialized :=
    ensures_read fun store hwell record => hwell.of_cached?
  have hitem : (check (itemOfGuid? · guid)).Ensures WellFormed
      fun item => ∀ found, item = some found → found.guid = guid ∧ FromTree found := by
    refine ensures_checked ?_
    rintro tree item hwell hitem found rfl
    obtain ⟨id, hid, hread⟩ := item?_of_itemOfGuid? hitem
    refine ⟨?_, fromTree_of_item? hwell hread⟩
    obtain ⟨entry, hentry, rfl⟩ := hwell.idOfGuid?_iff.mp hid
    obtain ⟨row, hrow, hitem⟩ := hwell.exists_row_of_item? hread
    rw [Tree.known?, hrow] at hentry
    rw [← Option.some.inj hentry]
    exact (Row.item_eq_ok_iff.mp hitem).2.1
  have hremember : ∀ record : Record, record.id = guid → record.Serialized →
      (Action.change (·.remember guid record) : StoreAction Unit).Keeps WellFormed := by
    rintro record rfl hserialized store hwell
    exact hwell.remember hserialized
  refine hcached.bind fun cached hcached => ?_
  cases cached with
  | some record => exact ensures_pure (hcached record rfl)
  | none =>
      refine hitem.bind fun item hitem => ?_
      cases item with
      | none =>
          exact (hremember _ rfl (.tombstone guid)).ensures.bind fun _ _ =>
            ensures_pure ⟨rfl, .tombstone guid⟩
      | some item =>
          obtain ⟨hguid, hfrom⟩ := hitem item rfl
          refine (ensures_recordOf hfrom).bind ?_
          rintro record ⟨hid, hserialized⟩
          exact (hremember record (hid.trans hguid) hserialized).ensures.bind fun _ _ =>
            ensures_pure ⟨hid.trans hguid, hserialized⟩

end BookmarkStore

end SyncedBookmarks
