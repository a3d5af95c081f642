import SyncedBookmarks.Proofs.Caching
import SyncedBookmarks.Proofs.Mooring
import SyncedBookmarks.Proofs.Repeating

namespace SyncedBookmarks

/-! A query that names a tag is bound to the tag's folder by the number in its URI, and it stays
bound while records of other items come in, until it goes itself. -/

namespace BookmarkStore

open SyncedBookmarks.Action SyncedBookmarks.Tree

variable {store first middle next : BookmarkStore} {tree after : Tree} {record made : Record}
  {guid tag uri url : String} {id folder parent : Int} {row : Row} {place : Option Int}

/-- What a tree and the record of a query are for the query to be bound to the tag that it names.
The GUID of a new query is none that the tree is yet to give. -/
structure Binds (tree : Tree) (record : Record) (tag uri : String) : Prop where
  roots : tree.RootsInPlace
  only : tree.OnlyTags
  durable : ∀ id row, tree.known? id = some row → ¬ tree.Below RootId.tags id → Durable row.url
  query : record.kind = .query
  present : record.deleted = false
  plain : record.generatorUri = none
  notRoot : record.id ∉ RootGuid.all
  never : tree.idOfGuid? record.id = none → tree.NeverMakes record.id
  own : ∀ id row, tree.known? id = some row → row.guid = record.id →
    ¬ tree.Below RootId.tags id ∧ row.annotationOf? AnnotationName.generatorUri = none
  named : record.folderName = some tag ∧ tag ≠ ""
  address : record.bmkUri = some uri
  place : isQuery uri = true
  refers : (Query.reference? uri).isSome = true
  parent : ∃ folder, record.parentid.bind tree.idOfGuid? = some folder ∧
    ¬ tree.Encloses RootId.tags folder

/-- Whether the query with a GUID is bound to the folder of a tag. -/
structure Bound (store : BookmarkStore) (guid tag : String) (id folder : Int) (url : String) :
    Prop where
  named : store.tree.idOfGuid? guid = some id
  address : store.tree.url? id = .ok (some url)
  refers : Query.folderId? url = some folder
  isTag : store.tree.IsTag tag folder
  told : ∃ record last, (createRecord guid).result store = (.ok record, last) ∧
    record.kind = .query ∧ record.folderName = some tag

/-- Whether a record is one of another item, outside the tags, and is not that of a query. -/
structure Aside (guid : String) (tree : Tree) (record : Record) : Prop where
  other : record.id ≠ guid
  plain : record.kind ≠ .query
  durable : Durable record.bmkUri
  outside : ∀ id, tree.idOfGuid? record.id = some id → ¬ tree.Below RootId.tags id

/-- Whether records, each when its turn comes, are of other items. -/
def EachAside (guid : String) : BookmarkStore → List Record → Prop
  | _, [] => True
  | store, record :: rest =>
      Aside guid store.tree record ∧
        EachAside guid (StoreCall.run store (.applyIncoming record)) rest

/-! ### The cache -/

theorem cached?_settle (store : BookmarkStore) (guid : String) (parent : Option Int)
    (orphanOf : Option String) :
    ((settle guid parent orphanOf).result store).2.cached? guid = none := by
  cases hid : store.tree.idOfGuid? guid with
  | none =>
      rw [result_settle_of_none hid]
      exact cached?_forget store guid
  | some id =>
      rw [result_settle_of_some hid]
      exact cached?_forget store guid

theorem cached?_applyIncoming (hnone : store.cached? guid = none) (record : Record) :
    ((applyIncoming record).result store).2.cached? guid = none := by
  have hcache := (forgets_applyIncoming record store.cache store.generators store
    ⟨List.Subset.refl _, rfl⟩).1
  by_contra hsome
  obtain ⟨found, hfound⟩ := Option.ne_none_iff_exists'.mp hsome
  exact cached?_ne_none (hcache (exists_mem_of_cached? hfound)) hnone

/-! ### What is kept -/

/-- A query's row that refers to a folder. -/
structure QueryRow (row : Row) (guid : String) (folder : Int) (url : String) : Prop where
  name : row.guid = guid
  notRoot : guid ∉ RootGuid.all
  typeCode : row.typeCode = ItemType.bookmark.code
  address : row.url = some url
  plain : row.annotationOf? AnnotationName.generatorUri = none
  query : isQuery url = true
  refers : Query.folderId? url = some folder

/-- What is kept from record to record: the tag's folder is there, and the query is as it was unless
it has gone. -/
structure Tied (tag : String) (folder id : Int) (row : Row) (store : BookmarkStore) : Prop where
  anchored : store.tree.Anchored tag folder
  old : id < store.tree.nextId
  item : ∀ found, store.tree.known? id = some found → found = row
  uncached : store.cached? row.guid = none

theorem Tied.applyIncoming (h : Tied tag folder id row store)
    (haside : Aside row.guid store.tree record) :
    Tied tag folder id row ((applyIncoming record).result store).2 := by
  cases hroot : RootGuid.all.contains record.id with
  | true =>
      rw [BookmarkStore.applyIncoming, if_pos hroot]
      exact h
  | false =>
      have huncached := cached?_applyIncoming h.uncached record
      -- A record that is not that of a query is local as it is, so no tag is looked up.
      have hlocal := localized_of_plain fun hquery => absurd hquery haside.plain
      have heq : BookmarkStore.applyIncoming record = (localized record >>= takeIn) :=
        applyIncoming_eq hroot
      rw [hlocal, pure_bind] at heq
      rw [heq] at huncached ⊢
      have houtlying : store.tree.Outlying record :=
        ⟨by simpa using hroot, haside.outside, haside.durable.1⟩
      have hspares := spares_takeIn_of_outlying houtlying h.anchored.wellFormed h.anchored.roots
      refine ⟨anchored_takeIn h.anchored houtlying, h.old.trans_le hspares.descends.nextId_le, ?_,
        huncached⟩
      intro found hfound
      refine h.item found (hspares.known?_of_not_own (fun _ hle => .inr hle) ?_ hfound)
      rintro (⟨own, hown, hguid⟩ | hle)
      · exact haside.other (h.item own hown ▸ hguid).symm
      · exact absurd h.old hle.not_gt

theorem Tied.runAll (h : Tied tag folder id row store) {records : List Record}
    (haside : EachAside row.guid store records) :
    Tied tag folder id row (StoreCall.runAll store (records.map .applyIncoming)) := by
  induction records generalizing store with
  | nil => exact h
  | cons record rest ih => exact ih (h.applyIncoming haside.1) haside.2

/-- The record of a query tells the title of the folder that its URI refers to. -/
theorem QueryRow.account (h : QueryRow row guid folder url) {generators : Option (List String)}
    (htree : tree.WellFormed) (htag : tree.IsTag tag folder) (parent : String) :
    (row.account generators tree parent).kind = .query ∧
      (row.account generators tree parent).folderName = some tag := by
  obtain ⟨found, hfound, -, -, htitle⟩ := htag
  have hgenerator : row.generator? generators = none := by
    rw [Row.generator?, h.plain, ite_self]
  have hkind : row.kindGist generators = { id := row.guid, kind := .query } := by
    rw [Row.kindGist, hgenerator, h.address]
    exact if_pos h.query
  have hname : queryFolderName? tree url = some tag := by
    rw [queryFolderName?, h.refers]
    simp only [Option.bind_eq_bind, Option.bind_some, htree.title? hfound, htitle]
  rw [Row.account, Row.ownAccount, if_pos h.typeCode, Row.ownGist, if_pos h.typeCode, hkind,
    h.address]
  exact ⟨rfl, hname⟩

theorem Tied.bound (h : Tied tag folder id row store) (hquery : QueryRow row guid folder url)
    (hthere : (store.tree.known? id).isSome = true) : Bound store guid tag id folder url := by
  obtain ⟨found, hfound⟩ := Option.isSome_iff_exists.mp hthere
  obtain rfl := h.item found hfound
  have hwell := h.anchored.wellFormed
  have hid := hwell.idOfGuid?_iff.mpr ⟨found, hfound, hquery.name⟩
  constructor
  case named => exact hid
  case address => rw [hwell.url? hfound, hquery.address]
  case refers => exact hquery.refers
  case isTag => exact h.anchored.isTag
  case told =>
    have hroot : store.tree.idOfGuid? guid ≠ some RootId.places := by
      intro hplaces
      refine h.anchored.roots.named.ne_of_guid places_mem_rootNames hfound ?_
        (Option.some.inj (hid.symm.trans hplaces))
      exact hquery.name ▸ hquery.notRoot
    obtain ⟨made, htold, -, hmake⟩ := exists_told hwell hroot
    obtain ⟨parent, -, rfl⟩ := Told.of_known? hwell hfound (hquery.name.symm ▸ htold)
    exact ⟨_, _, hmake store.cache (hquery.name ▸ h.uncached),
      hquery.account hwell h.anchored.isTag parent⟩

/-! ### The query itself -/

theorem Binds.pointed (h : Binds tree record tag uri) (hmade : Pointed record after made) :
    ∃ folder url, Query.withFolder? uri folder = some url ∧
      made = { record with bmkUri := some url } ∧ after.FirstTag tag folder ∧
        after.Holds folder lookupUri := by
  cases hmade with
  | plain hplain =>
      rcases hplain h.query with hnone | hnone
      · cases h.address.symm.trans hnone
      · cases h.named.1.symm.trans hnone
  | @tag _ _ folder _ huri hname hfirst hholds =>
      obtain rfl := Option.some.inj (h.address.symm.trans huri)
      obtain rfl := Option.some.inj (h.named.1.symm.trans hname)
      obtain ⟨found, hfound⟩ := Option.isSome_iff_exists.mp h.refers
      obtain ⟨url, hurl⟩ : ∃ url, Query.withFolder? uri folder = some url := by
        rw [Query.withFolder?, hfound]
        exact ⟨_, rfl⟩
      refine ⟨folder, url, hurl, ?_, hfirst, hholds⟩
      rw [Record.pointedAt, hurl]
      rfl

/-- Making a query local makes no item of its name. -/
theorem Binds.known? (h : Binds tree record tag uri) (hwell : tree.WellFormed)
    (hgrown : TagsGrown tree after) (hrow : after.known? id = some row)
    (hguid : row.guid = record.id) : tree.known? id = some row := by
  cases hid : tree.idOfGuid? record.id with
  | none => exact hgrown.known?_of_never (h.never hid) hrow hguid
  | some other =>
      obtain ⟨old, hold, hname⟩ := hwell.idOfGuid?_iff.mp hid
      obtain rfl := hgrown.wellFormed.guid_inj other id old row (hgrown.kept other old hold) hrow
        (hname.trans hguid.symm)
      exact hold.trans ((hgrown.kept _ old hold).symm.trans hrow)

theorem Binds.own_grown (h : Binds tree record tag uri) (hwell : tree.WellFormed)
    (hgrown : TagsGrown tree after) (hrow : after.known? id = some row)
    (hguid : row.guid = record.id) : ¬ after.Below RootId.tags id ∧ Durable row.url ∧
      row.annotationOf? AnnotationName.generatorUri = none := by
  have hold := h.known? hwell hgrown hrow hguid
  obtain ⟨houtside, hplain⟩ := h.own id row hold hguid
  exact ⟨fun hbelow => houtside ⟨(hgrown.encloses_iff hwell hold).mp hbelow.1, hbelow.2⟩,
    h.durable id row hold houtside, hplain⟩

theorem Binds.anchored (h : Binds tree record tag uri) (hwell : tree.WellFormed)
    (hgrown : TagsGrown tree after) (hfirst : after.FirstTag tag folder)
    (hholds : after.Holds folder lookupUri) : after.Anchored tag folder where
  wellFormed := hgrown.wellFormed
  roots := h.roots.grown hgrown
  isTag := hfirst.isTag
  held := hholds
  clear := by
    intro id row hrow houtside
    rcases hgrown.new id row hrow with hold | hnew
    · exact (h.durable id row hold fun hbelow =>
        houtside ⟨(hgrown.encloses_iff hwell hold).mpr hbelow.1, hbelow.2⟩).1
    · exact absurd (hnew.below hgrown.wellFormed hrow) houtside

theorem Binds.destination_eq (h : Binds tree record tag uri) (hwell : tree.WellFormed)
    (hgrown : TagsGrown tree after) : ∃ parent,
      destination after record.parentid = (some parent, none) ∧
        ¬ after.Encloses RootId.tags parent := by
  obtain ⟨parent, hnamed, houtside⟩ := h.parent
  obtain ⟨name, hname, hid⟩ := Option.bind_eq_some_iff.mp hnamed
  obtain ⟨row, hrow, hguid⟩ := hwell.idOfGuid?_iff.mp hid
  have hafter := hgrown.wellFormed.idOfGuid?_iff.mpr ⟨row, hgrown.kept parent row hrow, hguid⟩
  refine ⟨parent, ?_, fun hencloses => houtside ((hgrown.encloses_iff hwell hrow).mp hencloses)⟩
  rw [hname, destination_of_known hafter]

/-! ### What is made of it -/

/-- The record of a query without the fields of other kinds, of which nothing is made. -/
def bareQuery (record : Record) : Record :=
  { record with staticTitle := none, generatorUri := none, siteUri := none, feedUri := none }

theorem ofKind_bareQuery (hquery : record.kind = .query) : (bareQuery record).OfKind := by
  have hkind : (bareQuery record).kind = .query := hquery
  constructor
  case bookmark => simp [hkind]
  case microsummary => exact fun _ => ⟨rfl, rfl⟩
  case livemark => exact fun _ => ⟨rfl, rfl⟩
  case separator =>
    intro hother
    cases hkind.symm.trans hother

theorem create_bareQuery (hquery : record.kind = .query) (place : Option Int) :
    create (bareQuery record) place = create record place := by
  simp only [create, createItem, createBookmark, fillBookmark, bareQuery, hquery, reduceCtorEq,
    if_false]

/-- A query is brought into its item, or an item is made of it, with its URI and no generator. -/
theorem exists_queryRow (h : first.tree.WellFormed) (hroot : first.tree.IsFolder RootId.tags)
    (hquery : made.kind = .query) (hpresent : made.deleted = false)
    (hplain : made.generatorUri = none) (hurl : made.bmkUri = some url)
    (hdurable : Durable (some url)) (houtside : ¬ first.tree.Encloses RootId.tags parent)
    (hown : ∀ id row, first.tree.known? id = some row → row.guid = made.id →
      ¬ first.tree.Below RootId.tags id ∧ Durable row.url ∧
        row.annotationOf? AnnotationName.generatorUri = none)
    (hbring : (bringIn made (some parent)).result first = (.ok (), middle))
    (hsettle : (settle made.id (some parent) none).result middle = (.ok (), next)) :
    ∃ id row, next.tree.known? id = some row ∧ row.guid = made.id ∧
      row.typeCode = ItemType.bookmark.code ∧ row.url = some url ∧
        row.annotationOf? AnnotationName.generatorUri = none := by
  have hplace : ∀ given, some parent = some given → first.tree.OutsideTags (some given) :=
    fun _ heq => Option.some.inj heq ▸ outsideTags_of_not_encloses houtside
  have hbrought : ∃ brought id row, brought.id = made.id ∧ brought.bmkUri = made.bmkUri ∧
      brought.generatorUri = none ∧ Brought first brought (some parent) id row middle ∧
        row.guid = made.id := by
    -- A creation reads only the fields of its kind; `Brought` asks that there be no others.
    rcases updated_or_created h hpresent hbring with ⟨id, row, hrow, hguid, hupdate⟩ | ⟨-, hcreate⟩
    · obtain ⟨houter, hold, -⟩ := hown id row hrow hguid
      obtain ⟨last, hlast, hname⟩ := brought_of_update h hroot hrow hguid
        (above?_of_known? hrow ▸ h.outsideTags houter) hplace hold (hurl ▸ hdurable) hupdate
      exact ⟨made, id, last, rfl, rfl, hplain, hlast, hname⟩
    · rw [← create_bareQuery hquery] at hcreate
      rcases brought_of_create h hroot hplace (ofKind_bareQuery hquery) (hurl ▸ hdurable)
        hcreate with ⟨hkind, -⟩ | ⟨id, row, hlast, hname⟩
      · cases hquery.symm.trans hkind
      · exact ⟨bareQuery made, id, row, rfl, rfl, rfl, hlast, hname⟩
  obtain ⟨brought, id, row, hid, haddress, hnone, hlast, hname⟩ := hbrought
  obtain ⟨hunderway, -⟩ := hlast.settled (hname.trans hid.symm) (hid.symm ▸ hsettle)
  have hfields := Row.reannotated_settledBy row (some parent) none
  refine ⟨id, _, hunderway.known, ?_, ?_, ?_, ?_⟩
  · rw [hfields]
    exact hname
  · rw [hfields]
    exact (hlast.suits.uri url (haddress.trans hurl)).1
  · rw [hfields]
    exact hlast.shows.url url (haddress.trans hurl)
  · -- A generator of the row can only be one that its item had before.
    rw [Row.annotationOf?_settledBy _ _ _ (by decide)]
    by_contra hsome
    obtain ⟨generator, hgenerator⟩ := Option.ne_none_iff_exists'.mp hsome
    obtain ⟨old, hold, hguid, hbound⟩ := hlast.generator hnone generator hgenerator
    cases (hown id old hold (hguid.trans hid)).2.2.symm.trans hbound

theorem Binds.localized (h : Binds store.tree record tag uri) (hstore : store.Reachable)
    (hok : (localized record).result store = (.ok made, first)) :
    TagsGrown store.tree first.tree ∧ ∃ folder url, Query.Redirects uri folder url ∧
      Durable (some url) ∧ made = { record with bmkUri := some url } ∧
        first.tree.Anchored tag folder := by
  have hwell := hstore.wellFormed.tree
  have hnamed : record.kind = .query → record.folderName ≠ some "" :=
    fun _ heq => h.named.2 (Option.some.inj (h.named.1.symm.trans heq))
  obtain ⟨⟨⟨hgrown, -⟩, hpointed⟩, -⟩ := (leads_localized_pointed hwell
    (h.roots.named.isFolder_of_mem hwell tags_mem_rootNames) h.only hnamed store rfl).of_result hok
  obtain ⟨folder, url, hurl, hmade, hfirst, hholds⟩ := h.pointed hpointed
  refine ⟨hgrown, folder, url, Query.redirects_of_withFolder? hurl, ?_, hmade,
    h.anchored hwell hgrown hfirst hholds⟩
  exact ⟨fun heq => Query.withFolder?_ne hurl (by decide) (Option.some.inj heq),
    fun heq => Query.withFolder?_ne hurl (by decide) (Option.some.inj heq)⟩

theorem Binds.exists_tied (h : Binds store.tree record tag uri) (hstore : store.Reachable)
    (hok : (applyIncoming record).result store = (.ok (), next))
    (hfits : next.tree.nextId ≤ 2 ^ 63) :
    ∃ id folder url row, Query.Redirects uri folder url ∧ QueryRow row record.id folder url ∧
      Tied tag folder id row next ∧ next.tree.known? id = some row := by
  have hwell := hstore.wellFormed.tree
  rw [show applyIncoming record = (BookmarkStore.localized record >>= takeIn) from
    applyIncoming_eq (by simpa using h.notRoot)] at hok
  obtain ⟨made, first, hlocal, htaken⟩ := exists_of_result_bind hok
  obtain ⟨hgrown, folder, url, hredirects, hdurable, hmade, hanchored⟩ := h.localized hstore hlocal
  have hguid : made.id = record.id := by rw [hmade]
  have hurl : made.bmkUri = some url := by rw [hmade]
  have hown : ∀ id row, first.tree.known? id = some row → row.guid = made.id →
      ¬ first.tree.Below RootId.tags id ∧ Durable row.url ∧
        row.annotationOf? AnnotationName.generatorUri = none :=
    fun id row hrow hname => h.own_grown hwell hgrown hrow (hname.trans hguid)
  -- The query itself is a record outside the tags too, once it is pointed at the folder.
  have hnext : next.tree.Anchored tag folder := by
    have houtlying : first.tree.Outlying made := by
      refine ⟨hguid ▸ h.notRoot, fun id hid => ?_, hurl ▸ hdurable.1⟩
      obtain ⟨row, hrow, hname⟩ := hanchored.wellFormed.idOfGuid?_iff.mp hid
      exact (hown id row hrow hname).1
    have htaking := anchored_takeIn hanchored houtlying
    rwa [htaken] at htaking
  obtain ⟨parent, hdestination, houtside⟩ := h.destination_eq hwell hgrown
  have hparent : made.parentid = record.parentid := by rw [hmade]
  rw [result_takeIn, hparent, hdestination] at htaken
  obtain ⟨_, middle, hbring, hsettle⟩ := exists_of_result_bind htaken
  obtain ⟨id, row, hrow, hname, htype, haddress, hplain⟩ := exists_queryRow hanchored.wellFormed
    (hanchored.roots.named.isFolder_of_mem hanchored.wellFormed tags_mem_rootNames)
    (by rw [hmade]; exact h.query) (by rw [hmade]; exact h.present) (by rw [hmade]; exact h.plain)
    hurl hdurable houtside hown hbring hsettle
  have hbounds := hnext.wellFormed.id_bounds
  obtain ⟨found, hfound, -⟩ := hnext.isTag
  refine ⟨id, folder, url, row, hredirects, ?_, ?_, hrow⟩
  · exact
      { name := hname.trans hguid
        notRoot := h.notRoot
        typeCode := htype
        address := haddress
        plain := hplain
        query := hredirects.startsWith (by decide) h.place
        refers := hredirects.folderId? (hbounds folder found hfound).1.le
          ((hbounds folder found hfound).2.trans_le hfits) }
  · refine ⟨hnext, (hbounds id row hrow).2, fun other hother => ?_, ?_⟩
    · exact Option.some.inj (hother.symm.trans hrow)
    · have huncached := cached?_settle middle made.id (some parent) none
      rwa [hsettle, ← hname] at huncached

/-- A query that comes with the name of a tag is bound to the tag's folder, with nothing but the
digits of its URI replaced, and stays bound for as long as it is there while records of other items
come in, whether they can be applied or not. The numbers of items fit into 64 bits, as those in URIs
do. -/
theorem query_stays_bound (h : store.Reachable) (hbinds : Binds store.tree record tag uri)
    (hok : (applyIncoming record).result store = (.ok (), next))
    (hfits : next.tree.nextId ≤ 2 ^ 63) :
    ∃ id folder url, Query.Redirects uri folder url ∧ Bound next record.id tag id folder url ∧
      ∀ records, EachAside record.id next records →
        ((StoreCall.runAll next (records.map .applyIncoming)).tree.known? id).isSome = true →
          Bound (StoreCall.runAll next (records.map .applyIncoming)) record.id tag id folder
            url := by
  obtain ⟨id, folder, url, row, hredirects, hquery, htied, hrow⟩ := hbinds.exists_tied h hok hfits
  refine ⟨id, folder, url, hredirects, htied.bound hquery (by rw [hrow]; rfl), ?_⟩
  intro records haside hthere
  exact (htied.runAll (hquery.name.symm ▸ haside)).bound hquery hthere

/-- A store into which a query for the bookmarks with a tag has come. -/
def queryStore : BookmarkStore :=
  StoreCall.run (.fresh .numbered none) (.applyIncoming (taggedQuery "x" none))

/-- A bookmark that comes and goes. -/
def passingRecords : List Record :=
  [{ id := "b", parentid := some "toolbar", kind := .bookmark, bmkUri := some "about:blank" },
    .tombstone "b"]

theorem binds_taggedQuery :
    Binds (fresh .numbered none).tree (taggedQuery "x" none) "x" "place:folder=42" := by
  have hwell : (fresh .numbered none).tree.WellFormed := wellFormed_fresh .numbered
  constructor
  case roots => exact rootsInPlace_of_all (by decide +kernel) (by decide +kernel)
  case only =>
    intro id row hrow hparent
    have hcode := known?_of_all (fresh .numbered none).tree
      (p := fun row => row.typeCode == ItemType.folder.code) (by decide +kernel) hrow
    exact eq_of_beq hcode
  case durable =>
    intro id row hrow _
    have hurl := known?_of_all (fresh .numbered none).tree (p := (·.url == none))
      (by decide +kernel) hrow
    rw [eq_of_beq hurl]
    constructor <;> simp
  case query => rfl
  case present => rfl
  case plain => rfl
  case notRoot => decide
  case never => exact fun _ => neverMakes_of_numbered rfl (by decide)
  case own =>
    intro id row hrow hguid
    have hfree : (fresh .numbered none).tree.idOfGuid? "q" = none := by decide +kernel
    exact absurd hguid (hwell.idOfGuid?_eq_none_iff.mp hfree id row hrow)
  case named => exact ⟨rfl, by decide⟩
  case address => rfl
  case place => decide +kernel
  case refers => decide +kernel
  case parent =>
    exact ⟨RootId.menu, by decide +kernel, hwell.not_encloses_of_isWithin (by decide +kernel)⟩

theorem eachAside_passingRecords : EachAside "q" queryStore passingRecords := by
  have hreachable : (StoreCall.runAll queryStore
      ((passingRecords.take 1).map .applyIncoming)).Reachable :=
    ⟨.numbered, none,
      .applyIncoming (taggedQuery "x" none) :: (passingRecords.take 1).map .applyIncoming, rfl⟩
  refine ⟨⟨by decide, by decide, ⟨by decide, by decide⟩, ?_⟩,
    ⟨by decide, by decide, ⟨by decide, by decide⟩, ?_⟩, trivial⟩
  · have hfree : queryStore.tree.idOfGuid? "b" = none := by decide +kernel
    exact fun id hid => absurd (hfree.symm.trans hid) (by simp)
  · have hid : (StoreCall.runAll queryStore
        ((passingRecords.take 1).map .applyIncoming)).tree.idOfGuid? "b" = some 9 := by
      decide +kernel
    intro id hother hbelow
    obtain rfl := Option.some.inj (hid.symm.trans hother)
    exact hreachable.wellFormed.tree.not_encloses_of_isWithin (by decide +kernel) hbelow.1

theorem query_bound_after_bookmark_gone :
    Bound (StoreCall.runAll queryStore (passingRecords.map .applyIncoming)) "q" "x" 8 6
      "place:folder=6" := by
  have hok : ((applyIncoming (taggedQuery "x" none)).result (fresh .numbered none)).1 = .ok () := by
    decide +kernel
  obtain ⟨id, folder, url, -, hbound, hstays⟩ := query_stays_bound ⟨.numbered, none, [], rfl⟩
    binds_taggedQuery (Prod.ext hok rfl) (by decide +kernel)
  have hid : queryStore.tree.idOfGuid? "q" = some 8 := by decide +kernel
  obtain rfl := Option.some.inj (hbound.named.symm.trans hid)
  have haddress : queryStore.tree.url? 8 = .ok (some "place:folder=6") := by decide +kernel
  obtain rfl := Option.some.inj (Except.ok.inj (hbound.address.symm.trans haddress))
  have hfolder : Query.folderId? "place:folder=6" = some 6 := by decide +kernel
  obtain rfl := Option.some.inj (hbound.refers.symm.trans hfolder)
  exact hstays passingRecords eachAside_passingRecords (by decide +kernel)

end BookmarkStore

end SyncedBookmarks
