import SyncedBookmarks.Proofs.Updating

namespace SyncedBookmarks

/-! What creating the item of a record comes to, and what it leaves alone. -/

namespace Record

/-- The type of the item that a record describes. -/
def itemType (record : Record) : ItemType :=
  match record.kind with
  | .folder => .folder
  | .livemark => .folder
  | .separator => .separator
  | _ => .bookmark

/-- The title that a new item gets from a record. -/
def newTitle (record : Record) : Option String :=
  match record.itemType with
  | .bookmark => record.title
  | .folder => some (record.title.getD "")
  | .separator => none

def newUrl (record : Record) : Option String :=
  match record.itemType with
  | .bookmark => record.bmkUri
  | _ => none

def newTags (record : Record) : Option (List String) :=
  match record.itemType with
  | .bookmark => record.tags
  | _ => none

end Record

namespace Row

/-- A new row with what a record says beside title and URL. -/
def filledBy (row : Row) (record : Record) : Row :=
  match record.kind with
  | .livemark =>
      let row := record.feedUri.elim row (row.annotate AnnotationName.feedUri)
      record.siteUri.elim row (row.annotate AnnotationName.siteUri)
  | .folder => row
  | .separator => row
  | _ =>
      let row := { row with keyword := record.keyword.filter (!·.isEmpty) }
      let row := (record.description.filter (!·.isEmpty)).elim row
        (row.annotate AnnotationName.description)
      if record.loadInSidebar = some true then row.annotate AnnotationName.loadInSidebar "true"
      else row

theorem filledBy_bookmark (row : Row) {record : Record} (hkind : record.kind = .bookmark) :
    row.filledBy record =
      let row := { row with keyword := record.keyword.filter (!·.isEmpty) }
      let row := (record.description.filter (!·.isEmpty)).elim row
        (row.annotate AnnotationName.description)
      if record.loadInSidebar = some true then row.annotate AnnotationName.loadInSidebar "true"
      else row := by
  rw [filledBy, hkind]

/-- What fills a new row concerns its keyword and its annotations alone. -/
theorem exists_filledBy_eq (row : Row) (record : Record) :
    ∃ keyword annotations, row.filledBy record = { row with keyword, annotations } := by
  have hgiven : ∀ (row : Row) (value : Option String) (name : String),
      row.Reannotated (value.elim row (row.annotate name)) :=
    fun row value name => reannotated_elim row value (·.annotate name) fun _ _ => rfl
  rw [filledBy]
  split
  · have hfed := hgiven row record.feedUri AnnotationName.feedUri
    exact ⟨_, _, hfed.trans (hgiven _ record.siteUri AnnotationName.siteUri)⟩
  · exact ⟨row.keyword, row.annotations, rfl⟩
  · exact ⟨row.keyword, row.annotations, rfl⟩
  · have hdescribed := hgiven { row with keyword := record.keyword.filter (!·.isEmpty) }
      (record.description.filter (!·.isEmpty)) AnnotationName.description
    dsimp only
    split
    · exact ⟨_, _, hdescribed.trans rfl⟩
    · exact ⟨_, _, hdescribed⟩

end Row

namespace BookmarkStore

open SyncedBookmarks.Action SyncedBookmarks.Tree

variable {tree : Tree} {id : Int} {row : Row}

/-- What has to hold for the item of a record to be made without a failure. -/
structure Creates (tree : Tree) (record : Record) (parent : Int) : Prop where
  folder : tree.IsFolder parent
  kind : record.kind ∈ [RecordKind.bookmark, .folder, .livemark, .separator]
  uri : record.kind = .bookmark → ∃ uri, record.bmkUri = some uri ∧ validateUri uri = .ok uri
  tags : record.kind = .bookmark → ∀ tags, record.tags = some tags →
    (tags.filter (!·.isEmpty) = [] ∨ tree.IsFolder RootId.tags) ∧
      parent ≠ RootId.tags ∧ tree.above? parent ≠ some RootId.tags
  site : record.kind = .livemark → ∀ uri, record.siteUri = some uri → validateUri uri = .ok uri
  feed : record.kind = .livemark →
    ∃ uri, record.feedUri = some uri ∧ validateUri uri = .ok uri

/-- The stages of a creation: a new item, then the tags of its URL, and at last all the rest. -/
structure Created (tree : Tree) (record : Record) (parent : Int) (tagged next : Tree) : Prop where
  tags : TagsUpdated record.newUrl record.newTags
    (tree.inserted parent Places.atEnd record.itemType record.newTitle record.newUrl) tagged
  kept : tagged.known? tree.nextId =
    some (tree.newRow parent record.itemType record.newTitle record.newUrl)
  details : Rewritten tree.nextId
    ((tree.newRow parent record.itemType record.newTitle record.newUrl).filledBy record) tagged next

theorem leads_fillBookmark (h : tree.WellFormed) (hrow : tree.known? id = some row)
    {record : Record} (hkind : record.kind = .bookmark) {uri : String}
    (hvalid : validateUri uri = .ok uri)
    (htags : ∀ tags, record.tags = some tags →
      (tags.filter (!·.isEmpty) = [] ∨ tree.IsFolder RootId.tags) ∧ ¬ tree.TagOwned id) :
    Leads (fillBookmark id record uri) tree fun _ next => ∃ tagged,
      TagsUpdated (some uri) record.tags tree tagged ∧ tagged.known? id = some row ∧
        Rewritten id (row.filledBy record) tagged next := by
  have hreplace : Leads (record.tags.forM (replaceTags uri)) tree fun _ next =>
      TagsUpdated (some uri) record.tags tree next := by
    cases hgiven : record.tags with
    | none => exact leads_pure (.untouched tree (.inr rfl))
    | some tags =>
        exact (leads_replaceTags h hvalid (htags tags hgiven).1).imp fun _ _ hnext =>
          .replaced hnext
  rw [fillBookmark_eq]
  refine hreplace.bind ?_
  intro _ tagged htagged
  have hwell := (htagged.retagged h).wellFormed
  have hkept : tagged.known? id = some row := by
    refine htagged.kept hrow ?_
    intro _ hsome
    obtain ⟨tags, hgiven⟩ := Option.isSome_iff_exists.mp hsome
    exact (htags tags hgiven).2
  have hsummary : fillSummary id record = pure () := by
    rw [fillSummary, if_neg (by rw [hkind]; simp)]
  simp only [hsummary]
  refine Leads.imp ?_ fun _ _ hnext => ⟨tagged, htagged, hkept, hnext⟩
  rw [Row.filledBy_bookmark row hkind]
  refine rewrites_bind (leads_onTree (Places.rewrites_setKeyword hwell hkept record.keyword)) ?_
  intro _ hkeyword
  refine rewrites_bind (rewrites_forM hkeyword.wellFormed hkeyword.self
    (record.description.filter (!·.isEmpty)) fun description _ =>
      leads_onTree (Places.rewrites_annotate hkeyword.wellFormed hkeyword.self _ description)) ?_
  intro _ hdescription
  split
  · refine rewrites_bind (leads_onTree
      (Places.rewrites_annotate hdescription.wellFormed hdescription.self _ _)) ?_
    intro _ hsidebar
    exact leads_pure (Rewritten.refl hsidebar.wellFormed hsidebar.self)
  · exact leads_pure (Rewritten.refl hdescription.wellFormed hdescription.self)

theorem leads_createBookmark (h : tree.WellFormed) {record : Record} {parent : Int}
    (hcreates : Creates tree record parent) (hkind : record.kind = .bookmark) :
    Leads (createBookmark record parent) tree fun made next =>
      made = tree.nextId ∧ ∃ tagged, Created tree record parent tagged next := by
  obtain ⟨uri, huri, hvalid⟩ := hcreates.uri hkind
  have htype : record.itemType = .bookmark := by rw [Record.itemType, hkind]
  have htitle : record.newTitle = record.title := by rw [Record.newTitle, htype]
  have hurl : record.newUrl = some uri := by rw [Record.newUrl, htype, huri]
  have htags : record.newTags = record.tags := by rw [Record.newTags, htype]
  rw [createBookmark, huri]
  refine (leads_onTree (Places.leads_insertBookmark h hcreates.folder hvalid Places.atEnd
    record.title)).bind ?_
  rintro _ _ ⟨rfl, rfl⟩
  have hwell := h.inserted hcreates.folder Places.atEnd
    (Places.fitting_bookmark hvalid record.title)
  have hself := h.known?_inserted_self parent Places.atEnd .bookmark record.title (some uri)
  refine (leads_fillBookmark hwell hself hkind hvalid ?_).bind ?_
  · intro tags hgiven
    obtain ⟨hroot, hne, hup⟩ := hcreates.tags hkind tags hgiven
    refine ⟨hroot.imp_right (h.isFolder_inserted parent _ _ _ _), ?_⟩
    exact not_tagOwned_of_parent hself rfl hne
      (by rwa [h.above?_inserted parent _ _ _ _ hcreates.folder])
  · rintro - next ⟨tagged, htagged, hkept, hnext⟩
    refine leads_pure ⟨rfl, tagged, ?_⟩
    constructor
    · rw [htype, htitle, hurl, htags]
      exact htagged
    · rw [htype, htitle, hurl]
      exact hkept
    · rw [htype, htitle, hurl]
      exact hnext

/-- Only the items of bookmarks have tags to be changed. -/
theorem created_of_details (h : tree.WellFormed) {record : Record} {parent : Int} {next : Tree}
    (htype : record.itemType ≠ .bookmark)
    (hnext : Rewritten tree.nextId
      ((tree.newRow parent record.itemType record.newTitle record.newUrl).filledBy record)
      (tree.inserted parent Places.atEnd record.itemType record.newTitle record.newUrl) next) :
    Created tree record parent
      (tree.inserted parent Places.atEnd record.itemType record.newTitle record.newUrl) next where
  tags := by
    refine .untouched _ (.inl ?_)
    rw [Record.newUrl]
    split
    · rename_i hbookmark
      exact absurd hbookmark htype
    · rfl
  kept := h.known?_inserted_self parent _ _ _ _
  details := hnext

theorem leads_createLivemark (h : tree.WellFormed) {parent : Int} (hparent : tree.IsFolder parent)
    (title : String) {site : Option String}
    (hsite : ∀ uri, site = some uri → validateUri uri = .ok uri) {feed : String}
    (hfeed : validateUri feed = .ok feed) (index : Int) :
    Places.Leads (Places.createLivemark parent title site feed index) tree fun id next =>
      id = tree.nextId ∧
        Rewritten tree.nextId
          (site.elim ((tree.newRow parent .folder (some title) none).annotate
            AnnotationName.feedUri feed)
            (((tree.newRow parent .folder (some title) none).annotate
              AnnotationName.feedUri feed).annotate AnnotationName.siteUri))
          (tree.inserted parent index .folder (some title) none) next := by
  have hchecked : site.mapM validateUri = .ok site := by
    cases site with
    | none => rfl
    | some uri =>
        rw [Option.mapM_some, hsite uri rfl]
        rfl
  refine Places.leads_check_bind hfeed (Places.leads_check_bind hchecked
    ((Places.leads_insertItem h hparent index .folder (some title) none).bind ?_))
  rintro _ _ ⟨rfl, rfl⟩
  have hwell := h.inserted hparent index (Places.fitting_folder title)
  have hself := h.known?_inserted_self parent index .folder (some title) none
  refine (Places.rewrites_annotate hwell hself _ feed).bind ?_
  intro _ fed hfed
  cases site with
  | none => exact Places.leads_pure ⟨rfl, hfed⟩
  | some uri =>
      refine (Places.rewrites_annotate hfed.wellFormed hfed.self _ uri).bind ?_
      intro _ next hnext
      exact Places.leads_pure ⟨rfl, hfed.trans hnext⟩

theorem leads_createItem (h : tree.WellFormed) {record : Record} {parent : Int}
    (hcreates : Creates tree record parent) :
    Leads (createItem record parent) tree fun made next =>
      made = some tree.nextId ∧ ∃ tagged, Created tree record parent tagged next := by
  have hkind := hcreates.kind
  simp only [List.mem_cons, List.not_mem_nil, or_false] at hkind
  rcases hkind with hkind | hkind | hkind | hkind
  · simp only [createItem, hkind]
    refine ((leads_createBookmark h hcreates hkind).imp ?_).map some
    rintro made next ⟨rfl, hcreated⟩
    exact ⟨rfl, hcreated⟩
  · have htype : record.itemType = .folder := by rw [Record.itemType, hkind]
    have htitle : record.newTitle = some (record.title.getD "") := by rw [Record.newTitle, htype]
    have hurl : record.newUrl = none := by rw [Record.newUrl, htype]
    simp only [createItem, hkind]
    refine ((leads_onTree (Places.leads_insertItem h hcreates.folder Places.atEnd .folder
      (some (record.title.getD "")) none)).imp ?_).map some
    rintro made next ⟨rfl, rfl⟩
    refine ⟨rfl, _, created_of_details h (by rw [htype]; simp) ?_⟩
    rw [htype, htitle, hurl, Row.filledBy, hkind]
    exact Rewritten.refl (h.inserted hcreates.folder _ (Places.fitting_folder _))
      (h.known?_inserted_self parent _ _ _ _)
  · have htype : record.itemType = .folder := by rw [Record.itemType, hkind]
    have htitle : record.newTitle = some (record.title.getD "") := by rw [Record.newTitle, htype]
    have hurl : record.newUrl = none := by rw [Record.newUrl, htype]
    obtain ⟨feed, hgiven, hfeed⟩ := hcreates.feed hkind
    simp only [createItem, hkind, hgiven]
    refine ((leads_onTree (leads_createLivemark h hcreates.folder (record.title.getD "")
      (hcreates.site hkind) hfeed Places.atEnd)).imp ?_).map some
    rintro made next ⟨rfl, hnext⟩
    refine ⟨rfl, _, created_of_details h (by rw [htype]; simp) ?_⟩
    rw [htype, htitle, hurl, Row.filledBy, hkind, hgiven]
    exact hnext
  · have htype : record.itemType = .separator := by rw [Record.itemType, hkind]
    have htitle : record.newTitle = none := by rw [Record.newTitle, htype]
    have hurl : record.newUrl = none := by rw [Record.newUrl, htype]
    simp only [createItem, hkind]
    refine ((leads_onTree (Places.leads_insertItem h hcreates.folder Places.atEnd .separator
      none none)).imp ?_).map some
    rintro made next ⟨rfl, rfl⟩
    refine ⟨rfl, _, created_of_details h (by rw [htype]; simp) ?_⟩
    rw [htype, htitle, hurl, Row.filledBy, hkind]
    exact Rewritten.refl (h.inserted hcreates.folder _ Places.fitting_separator)
      (h.known?_inserted_self parent _ _ _ _)

/-! ### The item with its GUID -/

end BookmarkStore

namespace Tree

/-- Whether no new item will be given a GUID before someone asks for it. -/
def NeverMakes (tree : Tree) (guid : String) : Prop :=
  ∀ id, tree.nextId ≤ id → ∀ count, tree.guids.candidate id count ≠ guid

theorem NeverMakes.mono {tree next : Tree} {guid : String} (h : tree.NeverMakes guid)
    (hguids : next.guids = tree.guids) (hle : tree.nextId ≤ next.nextId) :
    next.NeverMakes guid := by
  intro id hid count
  rw [hguids]
  exact h id (hle.trans hid) count

theorem nextId_inserted (tree : Tree) (parent index : Int) (type : ItemType)
    (title url : Option String) :
    (tree.inserted parent index type title url).nextId = tree.nextId + 1 := by
  change (tree.reserve parent index).nextId + 1 = _
  rw [nextId_reserve]

theorem guids_inserted (tree : Tree) (parent index : Int) (type : ItemType)
    (title url : Option String) :
    (tree.inserted parent index type title url).guids = tree.guids :=
  guids_reserve tree parent index

end Tree

namespace BookmarkStore

open SyncedBookmarks.Action SyncedBookmarks.Tree

variable {tree : Tree} {record : Record} {parent : Int} {tagged next : Tree}

/-- Beside the new item, there is what was there and what the tags have added. -/
theorem Created.known?_of_some (h : tree.WellFormed) (hcreated : Created tree record parent tagged next)
    (hwell : (tree.inserted parent Places.atEnd record.itemType record.newTitle
      record.newUrl).WellFormed)
    {other : Int} {found : Row} (hfound : next.known? other = some found)
    (hne : other ≠ tree.nextId) : tree.known? other = some found ∨
      NewTagRow (tree.inserted parent Places.atEnd record.itemType record.newTitle record.newUrl)
        tagged other found := by
  rw [hcreated.details.of_ne hne] at hfound
  rcases (hcreated.tags.retagged hwell).new other found hfound with hbefore | hnew
  · rw [h.known?_inserted, if_neg hne] at hbefore
    exact .inl hbefore
  · exact .inr hnew

/-- A GUID that the source does not make is free for the new item. -/
theorem Created.idOfGuid?_eq_none (h : tree.WellFormed)
    (hcreated : Created tree record parent tagged next)
    (hwell : (tree.inserted parent Places.atEnd record.itemType record.newTitle
      record.newUrl).WellFormed)
    {guid : String} (hfree : tree.idOfGuid? guid = none) (hnever : tree.NeverMakes guid) :
    next.idOfGuid? guid = none := by
  rw [hcreated.details.wellFormed.idOfGuid?_eq_none_iff]
  intro other found hfound heq
  by_cases hself : other = tree.nextId
  · rw [hself, hcreated.details.self] at hfound
    obtain ⟨_, _, hfilled⟩ := (tree.newRow parent record.itemType record.newTitle
      record.newUrl).exists_filledBy_eq record
    rw [← Option.some.inj hfound, hfilled] at heq
    obtain ⟨count, hcount⟩ := tree.exists_freshGuid_eq
    exact hnever tree.nextId le_rfl count (hcount.symm.trans heq)
  · rcases hcreated.known?_of_some h hwell hfound hself with hbefore | hnew
    · exact h.idOfGuid?_eq_none_iff.mp hfree other found hbefore heq
    · obtain ⟨count, hcount⟩ := hnew.guid
      rw [guids_inserted] at hcount
      have hle := hnew.nextId_le
      rw [nextId_inserted] at hle
      exact hnever other (by omega) count (hcount.symm.trans heq)

theorem fitting_of_creates (hcreates : Creates tree record parent) :
    Fitting record.itemType record.newTitle record.newUrl := by
  have hkind := hcreates.kind
  simp only [List.mem_cons, List.not_mem_nil, or_false] at hkind
  rcases hkind with hkind | hkind | hkind | hkind
  · obtain ⟨uri, huri, hvalid⟩ := hcreates.uri hkind
    rw [Record.newTitle, Record.newUrl, Record.itemType, hkind, huri]
    exact Places.fitting_bookmark hvalid record.title
  · rw [Record.newTitle, Record.newUrl, Record.itemType, hkind]
    exact Places.fitting_folder _
  · rw [Record.newTitle, Record.newUrl, Record.itemType, hkind]
    exact Places.fitting_folder _
  · rw [Record.newTitle, Record.newUrl, Record.itemType, hkind]
    exact Places.fitting_separator

/-- The row of a new item in the end. -/
def createdRow (tree : Tree) (record : Record) (parent : Int) : Row :=
  { (tree.newRow parent record.itemType record.newTitle record.newUrl).filledBy record with
    guid := record.id }

theorem leads_create (h : tree.WellFormed) (hcreates : Creates tree record parent)
    (hfree : tree.idOfGuid? record.id = none) (hnever : tree.NeverMakes record.id) :
    Leads (create record (some parent)) tree fun _ next => ∃ tagged filled,
      Created tree record parent tagged filled ∧
        Rewritten tree.nextId (createdRow tree record parent) filled next := by
  have hwell := h.inserted hcreates.folder Places.atEnd (fitting_of_creates hcreates)
  rw [create, require, pure_bind]
  refine (leads_createItem h hcreates).bind ?_
  rintro _ filled ⟨rfl, tagged, hcreated⟩
  refine leads_look_bind ?_
  have hself := hcreated.details.self
  have hnone := hcreated.idOfGuid?_eq_none h hwell hfree hnever
  have hother : filled.guidOf? tree.nextId ≠ some record.id := by
    rw [guidOf?_eq_known?, hself]
    intro heq
    exact hcreated.details.wellFormed.idOfGuid?_eq_none_iff.mp hnone _ _ hself
      (Option.some.inj heq)
  rw [if_pos hother]
  refine (leads_onTree (Places.rewrites_setGuid hcreated.details.wellFormed hself hnone)).imp ?_
  intro _ next hnext
  exact ⟨tagged, filled, hcreated, hnext⟩

end BookmarkStore

end SyncedBookmarks
