import Mathlib
import SyncedBookmarks.Proofs.Incoming
import SyncedBookmarks.Proofs.Outgoing

namespace SyncedBookmarks

/-! An edit that was made elsewhere shows in the record that is made of the item here. -/

namespace Row

/-- Whether a row is that of an item of a kind. -/
def HasKind (row : Row) : RecordKind → Prop
  | .bookmark =>
      row.typeCode = ItemType.bookmark.code ∧
        row.annotationOf? AnnotationName.generatorUri = none
  | .folder =>
      row.typeCode = ItemType.folder.code ∧ row.annotationOf? AnnotationName.feedUri = none
  | .livemark =>
      row.typeCode = ItemType.folder.code ∧ (row.annotationOf? AnnotationName.feedUri).isSome
  | .separator => row.typeCode = ItemType.separator.code
  | _ => False

end Row

/-- A record with what an item keeps of its own where the record has no field for it. -/
def Record.over (record : Record) (row : Row) : Record :=
  match record.kind with
  | .bookmark =>
      { record with
        title := record.title <|> row.title
        keyword := record.keyword <|> row.keyword
        description := record.description <|> row.annotationOf? AnnotationName.description }
  | .livemark =>
      { record with siteUri := record.siteUri <|> row.annotationOf? AnnotationName.siteUri }
  | _ => record

namespace BookmarkStore

open SyncedBookmarks.Action SyncedBookmarks.Tree

/-! ### The record afterwards -/

/-- The row that an item has once a record is taken up. -/
def takenUp (row : Row) (record : Record) (parent : Int) : Row :=
  ((row.placedBy record parent).detailedBy record).markedBy none

section TakenUp

variable (row : Row) (record : Record) (parent : Int)

theorem placedBy_annotationOf? (name : String) :
    (row.placedBy record parent).annotationOf? name = row.annotationOf? name := by
  rw [Row.annotationOf?, Row.placedBy_annotations, Row.annotationOf?]

theorem takenUp_annotationOf? {name : String} (hne : name ≠ AnnotationName.intendedParent) :
    (takenUp row record parent).annotationOf? name = row.annotationBy record name := by
  rw [takenUp, Row.markedBy, Row.annotationOf?_unannotate, if_neg hne, Row.annotationOf?_detailedBy,
    Row.annotationBy, placedBy_annotationOf?, Row.annotationBy]

theorem takenUp_description :
    (takenUp row record parent).annotationOf? AnnotationName.description =
      record.description.elim (row.annotationOf? AnnotationName.description) fun description =>
        (some description).filter (!·.isEmpty) := by
  rw [takenUp_annotationOf? _ _ _ (by decide), Row.annotationBy_description]

theorem takenUp_loadInSidebar :
    (takenUp row record parent).annotationOf? AnnotationName.loadInSidebar =
      record.loadInSidebar.elim (row.annotationOf? AnnotationName.loadInSidebar) fun load =>
        if load then some "true" else none := by
  rw [takenUp_annotationOf? _ _ _ (by decide), Row.annotationBy_loadInSidebar]

theorem takenUp_siteUri :
    (takenUp row record parent).annotationOf? AnnotationName.siteUri =
      (record.siteUri <|> row.annotationOf? AnnotationName.siteUri) := by
  rw [takenUp_annotationOf? _ _ _ (by decide), Row.annotationBy_siteUri]

theorem takenUp_feedUri :
    (takenUp row record parent).annotationOf? AnnotationName.feedUri =
      (record.feedUri <|> row.annotationOf? AnnotationName.feedUri) := by
  rw [takenUp_annotationOf? _ _ _ (by decide), Row.annotationBy_feedUri]

theorem takenUp_generatorUri :
    (takenUp row record parent).annotationOf? AnnotationName.generatorUri =
      row.annotationOf? AnnotationName.generatorUri := by
  rw [takenUp_annotationOf? _ _ _ (by decide),
    Row.annotationBy_other _ _ (by decide) (by decide) (by decide) (by decide)]

theorem takenUp_title : (takenUp row record parent).title = (record.title <|> row.title) := by
  change ((row.placedBy record parent).detailedBy record).title = _
  rw [Row.detailedBy_title, Row.placedBy_title]

theorem takenUp_url : (takenUp row record parent).url = (record.bmkUri <|> row.url) := by
  change ((row.placedBy record parent).detailedBy record).url = _
  rw [Row.detailedBy_url, Row.placedBy_url]

theorem takenUp_guid : (takenUp row record parent).guid = row.guid := by
  change ((row.placedBy record parent).detailedBy record).guid = _
  rw [Row.detailedBy_guid, Row.placedBy_guid]

theorem takenUp_parent : (takenUp row record parent).parent = some parent := by
  change ((row.placedBy record parent).detailedBy record).parent = _
  rw [Row.detailedBy_parent, Row.placedBy_parent]

theorem takenUp_typeCode : (takenUp row record parent).typeCode = row.typeCode := by
  change ((row.placedBy record parent).detailedBy record).typeCode = _
  rw [Row.detailedBy_typeCode, Row.placedBy_typeCode]

theorem takenUp_keyword :
    (takenUp row record parent).keyword =
      record.keyword.elim row.keyword fun keyword => (some keyword).filter (!·.isEmpty) := by
  change ((row.placedBy record parent).detailedBy record).keyword = _
  rw [Row.detailedBy_keyword, Row.placedBy_keyword]

end TakenUp

/-- A text that is given and not empty is taken as it is. -/
theorem elim_filter_isEmpty {value old : Option String} (hne : value ≠ some "") :
    (value.elim old fun text => (some text).filter (!·.isEmpty)) = (value <|> old) := by
  cases value with
  | none => rfl
  | some text =>
      have hgiven : text ≠ "" := fun heq => hne (by rw [heq])
      simp [Option.filter, hgiven]

/-- The record of the item is the one that was taken up, over what the item had before. -/
theorem takenUp_record {row : Row} {record : Record} (hserialized : record.Serialized)
    (hkind : row.HasKind record.kind) (hguid : row.guid = record.id)
    (hdescription : record.description ≠ some "") (parent : Int) {guid : String}
    (hparent : record.parentid = some guid) :
    (takenUp row record parent).record (record.tags.getD []) guid = record.over row := by
  rw [Row.record, Row.ownRecord]
  simp only [takenUp_typeCode, takenUp_guid, takenUp_title, takenUp_url, takenUp_keyword,
    takenUp_description, takenUp_loadInSidebar, takenUp_siteUri, takenUp_feedUri, hguid]
  cases hserialized with
  | tombstone id => exact absurd hkind (by simp [Row.HasKind, Record.tombstone])
  | other record hother =>
      rcases hother with hother | hother <;>
        exact absurd hkind (by rw [hother]; exact not_false)
  | bookmark id _ title uri tags keyword description sidebar huri hquery htags hkeyword =>
      obtain ⟨hcode, -⟩ := hkind
      obtain rfl := Option.some.inj hparent
      simp only [if_pos hcode, Record.over, elim_filter_isEmpty hkeyword,
        elim_filter_isEmpty hdescription]
      cases sidebar <;> rfl
  | folder id _ title =>
      obtain ⟨hcode, hfeed⟩ := hkind
      obtain rfl := Option.some.inj hparent
      simp only [hcode, hfeed, Record.over]
      rfl
  | livemark id _ title site feed =>
      obtain ⟨hcode, -⟩ := hkind
      obtain rfl := Option.some.inj hparent
      simp only [hcode, Record.over]
      rfl
  | separator id _ =>
      obtain rfl := Option.some.inj hparent
      have hcode : row.typeCode = ItemType.separator.code := hkind
      simp only [hcode, Record.over]
      rfl

/-- A record as it is made from an item is taken up without a failure by an item of its kind. -/
theorem accepts_of_serialized {tree : Tree} {id : Int} {row : Row} {record : Record} {parent : Int}
    (hserialized : record.Serialized) (hkind : row.HasKind record.kind)
    (hfolder : tree.IsFolder parent) (hapart : ¬ tree.Encloses RootId.tags parent)
    (houtside : ¬ tree.Encloses id parent)
    (htags : ∀ tags, record.tags = some tags → tags = [] ∨ tree.IsFolder RootId.tags)
    (hsite : ∀ uri, record.siteUri = some uri → validateUri uri = .ok uri)
    (hfeed : ∀ uri, record.feedUri = some uri → validateUri uri = .ok uri) :
    Accepts tree id row record parent where
  folder := hfolder
  outside := houtside
  uri := by
    intro uri huri
    cases hserialized with
    | tombstone => exact absurd huri (by simp [Record.tombstone])
    | folder => exact absurd huri (by simp)
    | livemark => exact absurd huri (by simp)
    | separator => exact absurd huri (by simp)
    | bookmark _ _ _ _ _ _ _ _ hvalid =>
        obtain rfl := Option.some.inj huri
        exact ⟨hkind.1, hvalid⟩
    | other record hother =>
        rcases hother with hother | hother <;>
          exact absurd hkind (by rw [hother]; exact not_false)
  tags := by
    intro tags hgiven _
    refine ⟨(htags tags hgiven).imp_left fun hnil => by rw [hnil]; rfl, ?_, ?_⟩
    · rintro rfl
      exact hapart (Encloses.refl tree _)
    · intro habove
      exact hapart ((Encloses.refl tree _).of_above? habove)
  generator := by
    cases hserialized with
    | other record hother =>
        rcases hother with hother | hother <;>
          exact absurd hkind (by rw [hother]; exact not_false)
    | _ => rfl
  site := hsite
  feed := hfeed

/-- What an update leaves of another item that no tag owns. -/
theorem Updated.known?_of_ne {tree placed tagged next : Tree} {id : Int} {row : Row}
    {record : Record} {parent : Int} (h : Updated tree id row record parent placed tagged next)
    {other : Int} {found : Row} (hne : other ≠ id) (hfound : tree.known? other = some found)
    (hkept : ¬ placed.TagOwned other) : next.known? other = some found := by
  have hplaced : placed.known? other = some found := (h.place.of_ne hne).trans hfound
  rw [h.details.of_ne hne]
  exact (h.tags.retagged h.place.wellFormed).kept other found hplaced hkept

theorem tagsReplaced_of_updated {uri : String} {tags : List String} {before after : Tree}
    (h : TagsUpdated (some uri) (some tags) before after) :
    TagsReplaced uri (tags.filter (!·.isEmpty)) before after := by
  cases h with
  | untouched _ hnone => simp at hnone
  | replaced h => exact h

/-- The tags that a bookmark's record gives are read back for its URL. -/
theorem tagsOf_of_updated {tree placed tagged next last : Tree} {id : Int} {row : Row}
    {record : Record} {parent : Int} (h : Updated tree id row record parent placed tagged next)
    (hmarked : Rewritten id (takenUp row record parent) next last) {uri : String}
    {tags : List String} (huri : record.bmkUri = some uri) (hvalid : validateUri uri = .ok uri)
    (hheld : uri ≠ holdingUri) (htags : record.tags = some tags)
    (hsorted : tags.mergeSort (· ≤ ·) = tags) (hgiven : tags.Nodup ∧ "" ∉ tags) :
    last.tagsOf uri = .ok tags := by
  have hupdated := h.tags
  rw [Row.placedBy_url, huri, htags] at hupdated
  have hfilter : tags.filter (!·.isEmpty) = tags := by
    rw [List.filter_eq_self]
    intro tag htag
    have hne : tag ≠ "" := fun heq => hgiven.2 (heq ▸ htag)
    simpa using hne
  have htagged := (tagsReplaced_of_updated hupdated).tagged hheld (by rw [hfilter]; exact hgiven.1)
  rw [hfilter] at htagged
  have hdetails : SameTags tagged next uri := by
    refine h.details.sameTags h.kept ?_ ?_ ?_ uri
    · exact Row.detailedBy_parent _ _
    · exact Row.detailedBy_url _ _
    · exact Row.detailedBy_title _ _
  have hlast : SameTags next last uri := hmarked.sameTags h.details.self rfl rfl rfl uri
  have hread := Places.tagsOf_of_taggedWith hmarked.wellFormed hvalid
    ((hdetails.trans hlast).taggedWith htagged)
  rwa [hsorted] at hread

/-- An item of the kind and with the parent that a record names takes the record up, and the record
that is made of it then is the same, over what the item had where the record has no field. -/
theorem createRecord_applyIncoming {here elsewhere : BookmarkStore} (hhere : here.Reachable)
    (helsewhere : elsewhere.Reachable) {guid : String} {record : Record}
    (hmade : ((createRecord guid).result elsewhere).1 = .ok record)
    (hroot : record.id ∉ RootGuid.all) (hheld : record.bmkUri ≠ some holdingUri)
    (hdescription : record.description ≠ some "")
    (htags : ∀ tags, record.tags = some tags → tags.Nodup ∧ "" ∉ tags)
    {id : Int} {row : Row} (hid : here.tree.idOfGuid? record.id = some id)
    (hrow : here.tree.row? id = some row) (hkind : row.HasKind record.kind)
    {parentGuid : String} {parent : Int} (hparentid : record.parentid = some parentGuid)
    (hparent : here.tree.idOfGuid? parentGuid = some parent)
    (hfolder : here.tree.IsFolder parent) (hapart : ¬ here.tree.Encloses RootId.tags parent)
    (houtside : ¬ here.tree.Encloses id parent)
    (htagged : ∀ tags, record.tags = some tags → tags = [] ∨ here.tree.IsFolder RootId.tags)
    (hsite : ∀ uri, record.siteUri = some uri → validateUri uri = .ok uri)
    (hfeed : ∀ uri, record.feedUri = some uri → validateUri uri = .ok uri) :
    ∃ next, (applyIncoming record).result here = (.ok (), next) ∧
      ((createRecord record.id).result next).1 = .ok (record.over row) := by
  have hwell := hhere.wellFormed.tree
  have hserialized := ((ensures_createRecord guid elsewhere helsewhere.wellFormed).2 record hmade).2
  have hentry : here.tree.known? id = some row.unplaced := by rw [Tree.known?, hrow]; rfl
  have hguid : row.unplaced.guid = record.id := by
    obtain ⟨found, hfound, hfoundGuid⟩ := hwell.idOfGuid?_iff.mp hid
    rw [hentry] at hfound
    rw [Option.some.inj hfound, hfoundGuid]
  have hkindEntry : row.unplaced.HasKind record.kind := by
    cases hname : record.kind <;> rw [hname] at hkind <;> exact hkind
  have haccepts := accepts_of_serialized hserialized hkindEntry hfolder hapart houtside htagged
    hsite hfeed
  have hplace : destination here.tree record.parentid = (some parent, none) := by
    rw [hparentid, destination_of_known hparent]
  have hnamed : record.kind ≠ .query ∧ record.deleted = false := by
    cases hserialized with
    | tombstone => exact absurd hkind not_false
    | other record hother =>
        rcases hother with hother | hother <;>
          exact absurd hkind (by rw [hother]; exact not_false)
    | _ => exact ⟨by simp, rfl⟩
  obtain ⟨_, next, hresult, placed, tagged, last, hupdated, hmarked, hcache, -⟩ :=
    yields_applyIncoming_update hwell (by simpa using hroot) hnamed.1 hnamed.2 hentry hguid hplace
      haccepts
  refine ⟨next, hresult, ?_⟩
  have hself : next.tree.known? id = some (takenUp row.unplaced record parent) := hmarked.self
  have hname : (takenUp row.unplaced record parent).guid = record.id := by
    rw [takenUp_guid, hguid]
  -- The parent is a folder outside the tags, so it is still what it was.
  have habove : (takenUp row.unplaced record parent).parent.bind next.tree.guidOf? =
      some parentGuid := by
    obtain ⟨found, hfound, hfoundGuid⟩ := hwell.idOfGuid?_iff.mp hparent
    obtain ⟨same, hsame, hcode⟩ := hfolder
    rw [hfound] at hsame
    obtain rfl := Option.some.inj hsame
    have hne : parent ≠ id := by
      rintro rfl
      exact houtside (Encloses.refl _ parent)
    have hplaced := (hupdated.place.of_ne hne).trans hfound
    have hup : placed.above? parent ≠ some RootId.tags := by
      intro hup
      rw [above?_of_known? hplaced] at hup
      exact hapart ((Encloses.refl _ _).of_above? ((above?_of_known? hfound).trans hup))
    have hlast := hupdated.known?_of_ne hne hfound fun howned =>
      hup (hupdated.place.wellFormed.of_tagOwned_folder ⟨_, hplaced, hcode⟩ howned).1
    rw [takenUp_parent, Option.bind_some, guidOf?_eq_known?, hmarked.of_ne hne, hlast]
    exact congrArg some hfoundGuid
  have hplain : (takenUp row.unplaced record parent).Plain ∧
      ((takenUp row.unplaced record parent).typeCode = ItemType.bookmark.code →
        next.tree.tagsOf ((takenUp row.unplaced record parent).url.getD "") =
          .ok (record.tags.getD [])) := by
    rw [Row.Plain, takenUp_url, takenUp_generatorUri, takenUp_typeCode]
    cases hserialized with
    | bookmark _ _ _ uri tags _ _ _ hvalid hquery hsorted =>
        refine ⟨fun _ => ⟨hquery, hkind.2⟩, fun _ => ?_⟩
        exact tagsOf_of_updated hupdated hmarked rfl hvalid (fun heq => hheld (congrArg some heq))
          rfl hsorted (htags tags rfl)
    | tombstone => exact absurd hkind not_false
    | other record hother =>
        rcases hother with hother | hother <;>
          exact absurd hkind (by rw [hother]; exact not_false)
    | folder => exact ⟨fun hcode => absurd (hkind.1.symm.trans hcode) (by decide),
        fun hcode => absurd (hkind.1.symm.trans hcode) (by decide)⟩
    | livemark => exact ⟨fun hcode => absurd (hkind.1.symm.trans hcode) (by decide),
        fun hcode => absurd (hkind.1.symm.trans hcode) (by decide)⟩
    | separator => exact ⟨fun hcode => absurd (hkind.symm.trans hcode) (by decide),
        fun hcode => absurd (hkind.symm.trans hcode) (by decide)⟩
  have hcached : next.cached? (takenUp row.unplaced record parent).guid = none := by
    rw [hname, cached?, hcache]
    exact cached?_forget here record.id
  obtain ⟨made, hmadeResult, hmadeEq, -⟩ :=
    (yields_createRecord hmarked.wellFormed hself hcached hplain.1 hplain.2 habove).result
  rw [hname] at hmadeResult
  rw [hmadeResult, hmadeEq, takenUp_record hserialized hkindEntry hguid hdescription parent hparentid]
  rw [Record.over, Record.over]
  rfl

/-! ### One item in two stores -/

/-- A bookmark with a keyword. -/
def keywordStore : BookmarkStore :=
  StoreCall.runAll (fresh .numbered none)
    [.mutate (.insertBookmark RootId.menu "about:blank" Places.atEnd (some "A")),
      .mutate (.setGuid 6 "a"), .mutate (.setKeyword 6 (some "k"))]

/-- The same bookmark without one, with another title. -/
def retitledStore : BookmarkStore :=
  StoreCall.runAll (fresh .numbered none)
    [.mutate (.insertBookmark RootId.menu "about:blank" Places.atEnd (some "B")),
      .mutate (.setGuid 6 "a")]

def retitledRecord : Record :=
  { id := "a", parentid := some RootGuid.menu, kind := .bookmark, title := some "B"
    bmkUri := some "about:blank", tags := some [], loadInSidebar := some false }

def keywordRow : Row :=
  { id := 6, guid := "a", parent := some RootId.menu, position := 0
    typeCode := ItemType.bookmark.code, title := some "A", url := some "about:blank"
    keyword := some "k" }

theorem reachable_keywordStore : keywordStore.Reachable :=
  ⟨.numbered, none, _, rfl⟩

theorem reachable_retitledStore : retitledStore.Reachable :=
  ⟨.numbered, none, _, rfl⟩

theorem createRecord_retitledStore :
    ((createRecord "a").result retitledStore).1 = .ok retitledRecord := by
  cbv

theorem idOfGuid?_keywordStore :
    keywordStore.tree.idOfGuid? "a" = some 6 ∧
      keywordStore.tree.idOfGuid? RootGuid.menu = some RootId.menu := by
  refine ⟨?_, ?_⟩ <;> cbv

theorem row?_keywordStore : keywordStore.tree.row? 6 = some keywordRow := by
  cbv

theorem isFolder_keywordStore :
    keywordStore.tree.IsFolder RootId.menu ∧ keywordStore.tree.IsFolder RootId.tags := by
  have hwell := reachable_keywordStore.wellFormed.tree
  refine ⟨(hwell.requireFolder_iff _).mp ?_, (hwell.requireFolder_iff _).mp ?_⟩ <;> cbv

theorem not_encloses_keywordStore :
    ¬ keywordStore.tree.Encloses RootId.tags RootId.menu ∧
      ¬ keywordStore.tree.Encloses 6 RootId.menu := by
  have hwell := reachable_keywordStore.wellFormed.tree
  refine ⟨hwell.not_encloses_of_isWithin ?_, hwell.not_encloses_of_isWithin ?_⟩ <;> cbv

theorem keyword_kept_under_retitled :
    ∃ next, (applyIncoming retitledRecord).result keywordStore = (.ok (), next) ∧
      ((createRecord "a").result next).1 = .ok (retitledRecord.over keywordRow) := by
  refine createRecord_applyIncoming
    reachable_keywordStore reachable_retitledStore createRecord_retitledStore (by decide) (by decide)
    (by decide) ?_ idOfGuid?_keywordStore.1 row?_keywordStore ⟨rfl, rfl⟩ rfl
    idOfGuid?_keywordStore.2 isFolder_keywordStore.1 not_encloses_keywordStore.1
    not_encloses_keywordStore.2 (fun _ _ => .inr isFolder_keywordStore.2) ?_ ?_
  · intro tags htags
    rw [← Option.some.inj htags]
    exact ⟨List.nodup_nil, List.not_mem_nil⟩
  · intro uri huri
    cases huri
  · intro uri huri
    cases huri

/-- A keyword that was cleared elsewhere is not cleared here. -/
theorem keyword_not_cleared :
    keywordStore.Reachable ∧ retitledStore.Reachable ∧
      ((createRecord "a").result retitledStore).1 = .ok retitledRecord ∧
      retitledRecord.id ∉ RootGuid.all ∧ retitledRecord.bmkUri ≠ some holdingUri ∧
      retitledRecord.description ≠ some "" ∧
      keywordStore.tree.idOfGuid? "a" = some 6 ∧ keywordStore.tree.row? 6 = some keywordRow ∧
      keywordRow.HasKind retitledRecord.kind ∧ retitledRecord.parentid = some RootGuid.menu ∧
      keywordStore.tree.idOfGuid? RootGuid.menu = some RootId.menu ∧
      keywordStore.tree.IsFolder RootId.menu ∧
      ¬ keywordStore.tree.Encloses RootId.tags RootId.menu ∧
      ¬ keywordStore.tree.Encloses 6 RootId.menu ∧
      keywordStore.tree.IsFolder RootId.tags ∧
      ((applyIncoming retitledRecord).result keywordStore).1 = .ok () ∧
      ((createRecord "a").result ((applyIncoming retitledRecord).result keywordStore).2).1 =
        .ok { retitledRecord with keyword := some "k" } ∧
      retitledRecord.keyword = none :=
  ⟨reachable_keywordStore, reachable_retitledStore, createRecord_retitledStore, by decide, by decide,
    by decide, idOfGuid?_keywordStore.1, row?_keywordStore, ⟨rfl, rfl⟩, rfl,
    idOfGuid?_keywordStore.2, isFolder_keywordStore.1, not_encloses_keywordStore.1,
    not_encloses_keywordStore.2, isFolder_keywordStore.2, by cbv, by cbv, rfl⟩

end BookmarkStore

end SyncedBookmarks
