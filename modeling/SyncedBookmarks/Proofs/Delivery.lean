import SyncedBookmarks.Proofs.Arrival
import Mathlib.Logic.Relation

namespace SyncedBookmarks

/-! Records that arrive one after another, in any order. Each item that has arrived is where its
record wants it, or waits for the folder that its record names. -/

namespace Record

/-- Whether a record of a bookmark, a folder, a livemark or a separator has the fields that its kind
needs, with addresses that are valid. -/
structure Proper (record : Record) : Prop where
  kind : record.kind ∈ [RecordKind.bookmark, .folder, .livemark, .separator]
  deleted : record.deleted = false
  uri : record.kind = .bookmark → ∃ uri, record.bmkUri = some uri ∧ validateUri uri = .ok uri
  no_uri : record.kind ≠ .bookmark → record.bmkUri = none
  generator : record.generatorUri = none
  site : ∀ uri, record.siteUri = some uri → validateUri uri = .ok uri
  feed : ∀ uri, record.feedUri = some uri → validateUri uri = .ok uri
  fed : record.kind = .livemark → record.feedUri.isSome

/-- Whether one of the records puts the item with a GUID under that with another. -/
def Prescribed (records : List Record) (guid parent : String) : Prop :=
  ∃ record ∈ records, record.id = guid ∧ record.parentid = some parent

/-- Records of distinct items that are no roots, each in a root or in the folder of another record,
so that they make a forest. -/
structure Orderly (records : List Record) : Prop where
  proper : ∀ record ∈ records, record.Proper
  distinct : (records.map (·.id)).Nodup
  apart : ∀ record ∈ records, record.id ∉ RootGuid.all
  named : ∀ record ∈ records, ∃ guid, record.parentid = some guid ∧
    (guid ∈ BookmarkStore.syncedRoots ∨
      ∃ folder ∈ records, folder.kind = .folder ∧ folder.id = guid)
  forest : ∀ record ∈ records, ¬ Relation.TransGen (Prescribed records) record.id record.id

end Record

namespace Tree

def rootNames : List (Int × String) :=
  [(RootId.places, RootGuid.places), (RootId.menu, RootGuid.menu),
    (RootId.toolbar, RootGuid.toolbar), (RootId.tags, RootGuid.tags),
    (RootId.unfiled, RootGuid.unfiled)]

def RootsNamed (tree : Tree) : Prop :=
  ∀ id guid, (id, guid) ∈ rootNames → tree.guidOf? id = some guid

/-- Whether the five roots have their names and their places. -/
structure RootsInPlace (tree : Tree) : Prop where
  named : tree.RootsNamed
  above : ∀ id ∈ [RootId.menu, RootId.toolbar, RootId.tags, RootId.unfiled],
    tree.above? id = some RootId.places

/-- Whether no root that items arrive in waits for a parent itself. -/
def RootsSettled (tree : Tree) : Prop :=
  ∀ id ∈ [RootId.menu, RootId.toolbar, RootId.unfiled],
    tree.annotationOf? id AnnotationName.intendedParent = none

/-- Whether the folder that a record names, if it is there, can take the record's item: it is
nowhere below the item, and not the folder of a tag when the item is a bookmark. -/
def Admits (tree : Tree) (record : Record) : Prop :=
  ∀ parent, record.parentid.bind tree.idOfGuid? = some parent →
    (∀ id, tree.idOfGuid? record.id = some id → ¬ tree.Encloses id parent) ∧
      (record.kind = .bookmark → tree.above? parent ≠ some RootId.tags)

/-- Whether records of distinct items fit what is in a tree. -/
structure Receives (tree : Tree) (records : List Record) : Prop extends
    Record.Orderly records where
  roots : tree.RootsInPlace
  same_type : ∀ record ∈ records, ∀ id row, tree.known? id = some row → row.guid = record.id →
    row.typeCode = record.itemType.code
  never_made : ∀ record ∈ records, tree.NeverMakes record.id

/-- Whether an item is in the folder that its record names, and waits for no other. -/
def AtHome (tree : Tree) (record : Record) (row : Row) : Prop :=
  row.annotationOf? AnnotationName.intendedParent = none ∧
    ∃ parent, row.parent = some parent ∧ tree.guidOf? parent = record.parentid ∧
      (record.kind = .bookmark → tree.above? parent ≠ some RootId.tags)

/-- Whether an item is in the unfiled folder until that which its record names is there. -/
def Waits (record : Record) (row : Row) : Prop :=
  row.parent = some RootId.unfiled ∧
    row.annotationOf? AnnotationName.intendedParent =
      record.parentid.map (BookmarkStore.orphanMark ++ ·)

structure Settled (tree : Tree) (record : Record) (id : Int) (row : Row) : Prop where
  known? : tree.known? id = some row
  guid : row.guid = record.id
  place : tree.AtHome record row ∨ Waits record row

end Tree

namespace Record

theorem Proper.itemType_of_ne {record : Record} (h : record.Proper)
    (hkind : record.kind ≠ .bookmark) : record.itemType ≠ .bookmark := by
  have hgiven := h.kind
  simp only [List.mem_cons, List.not_mem_nil, or_false] at hgiven
  rcases hgiven with hgiven | hgiven | hgiven | hgiven
  · exact absurd hgiven hkind
  all_goals
    rw [itemType, hgiven]
    decide

theorem itemType_bookmark {record : Record} (hkind : record.kind = .bookmark) :
    record.itemType = .bookmark := by
  rw [itemType, hkind]

theorem itemType_folder {record : Record} (hkind : record.kind = .folder) :
    record.itemType = .folder := by
  rw [itemType, hkind]

end Record

namespace Tree

/-! ### The roots -/

theorem places_mem_rootNames : (RootId.places, RootGuid.places) ∈ rootNames := by decide

theorem menu_mem_rootNames : (RootId.menu, RootGuid.menu) ∈ rootNames := by decide

theorem toolbar_mem_rootNames : (RootId.toolbar, RootGuid.toolbar) ∈ rootNames := by decide

theorem tags_mem_rootNames : (RootId.tags, RootGuid.tags) ∈ rootNames := by decide

theorem unfiled_mem_rootNames : (RootId.unfiled, RootGuid.unfiled) ∈ rootNames := by decide

theorem mem_all_of_rootNames {id : Int} {guid : String} (h : (id, guid) ∈ rootNames) :
    guid ∈ RootGuid.all := by
  simp only [rootNames, List.mem_cons, Prod.mk.injEq, List.not_mem_nil, or_false] at h
  rcases h with ⟨-, rfl⟩ | ⟨-, rfl⟩ | ⟨-, rfl⟩ | ⟨-, rfl⟩ | ⟨-, rfl⟩ <;> decide

theorem exists_root_of_mem_all {guid : String} (h : guid ∈ RootGuid.all) :
    ∃ root, (root, guid) ∈ rootNames := by
  simp only [RootGuid.all, List.mem_cons, List.not_mem_nil, or_false] at h
  rcases h with rfl | rfl | rfl | rfl | rfl
  · exact ⟨RootId.places, places_mem_rootNames⟩
  · exact ⟨RootId.menu, menu_mem_rootNames⟩
  · exact ⟨RootId.toolbar, toolbar_mem_rootNames⟩
  · exact ⟨RootId.unfiled, unfiled_mem_rootNames⟩
  · exact ⟨RootId.tags, tags_mem_rootNames⟩

theorem exists_rootName {root : Int}
    (h : root ∈ [RootId.menu, RootId.toolbar, RootId.tags, RootId.unfiled]) :
    ∃ guid, (root, guid) ∈ rootNames := by
  simp only [List.mem_cons, List.not_mem_nil, or_false] at h
  rcases h with rfl | rfl | rfl | rfl
  · exact ⟨RootGuid.menu, menu_mem_rootNames⟩
  · exact ⟨RootGuid.toolbar, toolbar_mem_rootNames⟩
  · exact ⟨RootGuid.tags, tags_mem_rootNames⟩
  · exact ⟨RootGuid.unfiled, unfiled_mem_rootNames⟩

namespace RootsNamed

variable {tree : Tree}

theorem isFolder_of_mem (h : tree.RootsNamed) (hwell : tree.WellFormed) {id : Int} {guid : String}
    (hmem : (id, guid) ∈ rootNames) : tree.IsFolder id := by
  have hguid := h id guid hmem
  rw [guidOf?_eq_known?, Option.map_eq_some_iff] at hguid
  obtain ⟨row, hrow, -⟩ := hguid
  refine ⟨row, hrow, (hwell.sound id row hrow).root_folder ?_⟩
  rw [id_of_known? hrow]
  simp only [rootNames, List.mem_cons, Prod.mk.injEq, List.not_mem_nil, or_false] at hmem
  rcases hmem with ⟨rfl, -⟩ | ⟨rfl, -⟩ | ⟨rfl, -⟩ | ⟨rfl, -⟩ | ⟨rfl, -⟩ <;> decide

/-- The item with the name of a root is that root. -/
theorem eq_of_guid (h : tree.RootsNamed) (hwell : tree.WellFormed) {root id : Int} {guid : String}
    (hmem : (root, guid) ∈ rootNames) {row : Row} (hrow : tree.known? id = some row)
    (hguid : row.guid = guid) : id = root := by
  have hroot := h root guid hmem
  rw [guidOf?_eq_known?, Option.map_eq_some_iff] at hroot
  obtain ⟨found, hfound, hfoundGuid⟩ := hroot
  exact hwell.guid_inj id root row found hrow hfound (hguid.trans hfoundGuid.symm)

/-- An item with another name is no root. -/
theorem ne_of_guid (h : tree.RootsNamed) {root id : Int} {guid : String}
    (hmem : (root, guid) ∈ rootNames) {row : Row} (hrow : tree.known? id = some row)
    (hguid : row.guid ∉ RootGuid.all) : id ≠ root := by
  rintro rfl
  have hname := h id guid hmem
  rw [guidOf?_eq_known?, hrow, Option.map_some, Option.some.injEq] at hname
  exact hguid (hname ▸ mem_all_of_rootNames hmem)

/-- Above a root that is in its place there is no other item. -/
theorem not_encloses (h : tree.RootsNamed) (hwell : tree.WellFormed) {root id : Int} {guid : String}
    (hmem : (root, guid) ∈ rootNames) (habove : tree.above? root = some RootId.places) {row : Row}
    (hrow : tree.known? id = some row) (hguid : row.guid ∉ RootGuid.all) :
    ¬ tree.Encloses id root := by
  intro hencloses
  rcases hencloses.eq_or_above? with heq | ⟨parent, hparent, hup⟩
  · exact h.ne_of_guid hmem hrow hguid heq
  · obtain rfl := Option.some.inj (habove.symm.trans hparent)
    exact hwell.not_encloses_places
      (h.ne_of_guid places_mem_rootNames hrow hguid) hup

end RootsNamed

end Tree

namespace Record

/-- The root for tags is named by no record. -/
theorem Orderly.ne_tags_of_named {records : List Record} (h : Orderly records) {tree : Tree}
    (hroots : tree.RootsNamed) {record : Record} (hrecord : record ∈ records) {parent : Int}
    (hparent : tree.guidOf? parent = record.parentid) : parent ≠ RootId.tags := by
  rintro rfl
  obtain ⟨guid, hguid, hroot | ⟨folder, hfolder, -, hfolderGuid⟩⟩ := h.named record hrecord
  all_goals
    rw [hroots _ _ Tree.tags_mem_rootNames, hguid] at hparent
    obtain rfl := Option.some.inj hparent
  · exact absurd hroot (by decide)
  · exact h.apart folder hfolder (by rw [hfolderGuid]; decide)

end Record

namespace Tree

/-! ### Where a record's item goes -/

namespace Receives

variable {tree : Tree} {records : List Record}

theorem isFolder_of_named (h : tree.Receives records) (hwell : tree.WellFormed) {record : Record}
    (hrecord : record ∈ records) {guid : String} (hguid : record.parentid = some guid)
    {parent : Int} (hparent : tree.idOfGuid? guid = some parent) : tree.IsFolder parent := by
  obtain ⟨row, hrow, hname⟩ := hwell.idOfGuid?_iff.mp hparent
  obtain ⟨named, hnamed, hroot | ⟨folder, hfolder, hkind, hfolderGuid⟩⟩ := h.named record hrecord
  · obtain rfl := Option.some.inj (hguid.symm.trans hnamed)
    simp only [BookmarkStore.syncedRoots, List.mem_cons, List.not_mem_nil, or_false] at hroot
    rcases hroot with rfl | rfl | rfl
    · rw [h.roots.named.eq_of_guid hwell menu_mem_rootNames hrow hname]
      exact h.roots.named.isFolder_of_mem hwell menu_mem_rootNames
    · rw [h.roots.named.eq_of_guid hwell toolbar_mem_rootNames hrow hname]
      exact h.roots.named.isFolder_of_mem hwell toolbar_mem_rootNames
    · rw [h.roots.named.eq_of_guid hwell unfiled_mem_rootNames hrow hname]
      exact h.roots.named.isFolder_of_mem hwell unfiled_mem_rootNames
  · obtain rfl := Option.some.inj (hguid.symm.trans hnamed)
    have hcode := h.same_type folder hfolder parent row hrow (hname.trans hfolderGuid.symm)
    rw [Record.itemType_folder hkind] at hcode
    exact ⟨row, hrow, hcode⟩

theorem ne_tags_of_named (h : tree.Receives records) {record : Record} (hrecord : record ∈ records)
    {parent : Int} (hparent : tree.guidOf? parent = record.parentid) : parent ≠ RootId.tags :=
  h.toOrderly.ne_tags_of_named h.roots.named hrecord hparent

end Receives

end Tree

namespace BookmarkStore

open SyncedBookmarks.Action SyncedBookmarks.Tree

/-- Where a record's item goes as the record arrives: where it belongs, or where it waits. -/
structure Place (tree : Tree) (record : Record) (parent : Int) (orphanOf : Option String) :
    Prop where
  destination : destination tree record.parentid = (some parent, orphanOf)
  folder : tree.IsFolder parent
  outside : ∀ id, tree.idOfGuid? record.id = some id → ¬ tree.Encloses id parent
  apart : parent ≠ RootId.tags
  untagged : record.kind = .bookmark → tree.above? parent ≠ some RootId.tags
  named : (orphanOf = none ∧ tree.guidOf? parent = record.parentid) ∨
    (orphanOf = record.parentid ∧ parent = RootId.unfiled)

theorem exists_place {tree : Tree} (hwell : tree.WellFormed) {records : List Record}
    (h : tree.Receives records) {record : Record} (hrecord : record ∈ records)
    (hadmits : tree.Admits record) : ∃ parent orphanOf, Place tree record parent orphanOf := by
  obtain ⟨guid, hguid, -⟩ := h.named record hrecord
  cases hfound : tree.idOfGuid? guid with
  | none =>
      refine ⟨RootId.unfiled, some guid, ?_⟩
      constructor
      case destination => rw [hguid, BookmarkStore.destination, hfound]
      case folder => exact h.roots.named.isFolder_of_mem hwell unfiled_mem_rootNames
      case outside =>
        intro id hid
        obtain ⟨row, hrow, hname⟩ := hwell.idOfGuid?_iff.mp hid
        exact h.roots.named.not_encloses hwell unfiled_mem_rootNames
          (h.roots.above RootId.unfiled (by decide)) hrow (hname ▸ h.apart record hrecord)
      case apart => decide
      case untagged =>
        intro _
        rw [h.roots.above RootId.unfiled (by decide)]
        decide
      case named => exact .inr ⟨hguid.symm, rfl⟩
  | some parent =>
      obtain ⟨houtside, huntagged⟩ := hadmits parent (by rw [hguid]; exact hfound)
      have hname : tree.guidOf? parent = record.parentid := by
        obtain ⟨row, hrow, hrowGuid⟩ := hwell.idOfGuid?_iff.mp hfound
        rw [guidOf?_eq_known?, hrow, hguid, ← hrowGuid]
        rfl
      refine ⟨parent, none, ?_⟩
      constructor
      case destination => rw [hguid, destination_of_known hfound]
      case folder => exact h.isFolder_of_named hwell hrecord hguid hfound
      case outside => exact houtside
      case apart => exact h.ne_tags_of_named hrecord hname
      case untagged => exact huntagged
      case named => exact .inl ⟨rfl, hname⟩

/-! ### One arrival -/

/-- What the arrival of a record comes to. -/
structure Arrived (record : Record) (id parent : Int) (orphanOf : Option String)
    (before placed tagged after : Tree) : Prop extends Passed id parent before placed tagged after
    where
  place : Place before record parent orphanOf
  apart : ∀ row, before.known? id = some row → row.guid = record.id
  outside : parent ≠ id
  self : ∃ row, after.known? id = some row ∧ row.guid = record.id ∧ row.parent = some parent ∧
    row.typeCode = record.itemType.code ∧
    row.annotationOf? AnnotationName.intendedParent = orphanOf.map (orphanMark ++ ·)
  bare : record.kind ≠ .bookmark → ∃ row, placed.known? id = some row ∧
    row.parent = some parent ∧ row.url = none

theorem markedBy_eq (row : Row) (orphanOf : Option String) :
    ∃ annotations, row.markedBy orphanOf = { row with annotations } := by
  cases orphanOf <;> exact ⟨_, rfl⟩

theorem mark_of_markedBy (row : Row) (orphanOf : Option String) :
    (row.markedBy orphanOf).annotationOf? AnnotationName.intendedParent =
      orphanOf.map (orphanMark ++ ·) := by
  cases orphanOf with
  | none => rw [Row.markedBy, Row.annotationOf?_unannotate, if_pos rfl, Option.map_none]
  | some guid => rw [Row.markedBy, Row.annotationOf?_annotate, if_pos rfl, Option.map_some]

section Arrives

variable {store : BookmarkStore} {records : List Record} {record : Record} {parent : Int}
  {orphanOf : Option String}

theorem accepts_of_place (hwell : store.tree.WellFormed) (h : store.tree.Receives records)
    (hrecord : record ∈ records) (hplace : Place store.tree record parent orphanOf) {id : Int}
    {row : Row} (hrow : store.tree.known? id = some row) (hguid : row.guid = record.id) :
    Accepts store.tree id row record parent where
  folder := hplace.folder
  outside := hplace.outside id (hwell.idOfGuid?_iff.mpr ⟨row, hrow, hguid⟩)
  uri := by
    intro uri huri
    have hproper := h.proper record hrecord
    by_cases hkind : record.kind = .bookmark
    · obtain ⟨given, hgiven, hvalid⟩ := hproper.uri hkind
      rw [huri] at hgiven
      obtain rfl := Option.some.inj hgiven
      have hcode := h.same_type record hrecord id row hrow hguid
      rw [Record.itemType_bookmark hkind] at hcode
      exact ⟨hcode, hvalid⟩
    · rw [hproper.no_uri hkind] at huri
      contradiction
  tags := by
    intro tags _ hurl
    refine ⟨.inr (h.roots.named.isFolder_of_mem hwell tags_mem_rootNames),
      hplace.apart, ?_⟩
    by_cases hkind : record.kind = .bookmark
    · exact hplace.untagged hkind
    · have hproper := h.proper record hrecord
      rw [hproper.no_uri hkind] at hurl
      have hbookmark := (hwell.sound id row hrow).url_iff.mp hurl
      rw [h.same_type record hrecord id row hrow hguid] at hbookmark
      exact absurd (ItemType.code_inj hbookmark) (hproper.itemType_of_ne hkind)
  generator := (h.proper record hrecord).generator
  site := (h.proper record hrecord).site
  feed := (h.proper record hrecord).feed

theorem creates_of_place (hwell : store.tree.WellFormed) (h : store.tree.Receives records)
    (hrecord : record ∈ records) (hplace : Place store.tree record parent orphanOf) :
    Creates store.tree record parent where
  folder := hplace.folder
  kind := (h.proper record hrecord).kind
  uri := (h.proper record hrecord).uri
  tags := fun hkind _ _ =>
    ⟨.inr (h.roots.named.isFolder_of_mem hwell tags_mem_rootNames), hplace.apart,
      hplace.untagged hkind⟩
  site := fun _ => (h.proper record hrecord).site
  feed := by
    intro hkind
    obtain ⟨uri, huri⟩ := Option.isSome_iff_exists.mp ((h.proper record hrecord).fed hkind)
    exact ⟨uri, huri, (h.proper record hrecord).feed uri huri⟩

theorem arrives_update (hwell : store.tree.WellFormed) (h : store.tree.Receives records)
    (hrecord : record ∈ records) (hplace : Place store.tree record parent orphanOf) {id : Int}
    {row : Row} (hrow : store.tree.known? id = some row) (hguid : row.guid = record.id) :
    (applyIncoming record).Yields store fun _ next => ∃ id placed tagged,
      Arrived record id parent orphanOf store.tree placed tagged next.tree := by
  have hproper := h.proper record hrecord
  have haccepts := accepts_of_place hwell h hrecord hplace hrow hguid
  have hquery : record.kind ≠ .query := by
    intro hkind
    have hgiven := hproper.kind
    rw [hkind] at hgiven
    exact absurd hgiven (by decide)
  refine (yields_applyIncoming_update hwell (by simpa using h.apart record hrecord) hquery
    hproper.deleted hrow hguid hplace.destination haccepts).imp ?_
  rintro - next ⟨placed, tagged, last, hupdated, hmarked, -, -⟩
  refine ⟨id, placed, tagged, ?_⟩
  constructor
  case toPassed => exact passed_of_updated hupdated hmarked
  case place => exact hplace
  case apart =>
    intro found hfound
    rw [← Option.some.inj (hrow.symm.trans hfound), hguid]
  case outside =>
    rintro rfl
    exact haccepts.outside (Encloses.refl _ _)
  case self =>
    obtain ⟨annotations, hannotations⟩ :=
      markedBy_eq ((row.placedBy record parent).detailedBy record) orphanOf
    refine ⟨_, hmarked.self, ?_, ?_, ?_, mark_of_markedBy _ _⟩
    · rw [hannotations]
      exact (Row.detailedBy_guid _ _).trans ((Row.placedBy_guid _ _ _).trans hguid)
    · rw [hannotations]
      exact (Row.detailedBy_parent _ _).trans (Row.placedBy_parent _ _ _)
    · rw [hannotations]
      exact (Row.detailedBy_typeCode _ _).trans ((Row.placedBy_typeCode _ _ _).trans
        (h.same_type record hrecord id row hrow hguid))
  case bare =>
    intro hkind
    refine ⟨_, hupdated.place.self, Row.placedBy_parent _ _ _, ?_⟩
    rw [Row.placedBy_url, hproper.no_uri hkind]
    refine (hwell.sound id row hrow).url_eq_none ?_
    rw [h.same_type record hrecord id row hrow hguid]
    intro hcode
    exact hproper.itemType_of_ne hkind (ItemType.code_inj hcode)

theorem arrived_of_created {tree tagged filled last next : Tree} (hwell : tree.WellFormed)
    (hproper : record.Proper) (hplace : Place tree record parent orphanOf)
    (hcreates : Creates tree record parent) (hcreated : Created tree record parent tagged filled)
    (hnamed : Rewritten tree.nextId (createdRow tree record parent) filled last)
    (hmarked : Rewritten tree.nextId ((createdRow tree record parent).markedBy orphanOf) last
      next) :
    Arrived record tree.nextId parent orphanOf tree
      (tree.inserted parent Places.atEnd record.itemType record.newTitle record.newUrl) tagged
      next := by
  constructor
  case toPassed => exact passed_of_created hwell hcreates hcreated hnamed hmarked
  case place => exact hplace
  case apart =>
    intro found hfound
    rw [hwell.known?_nextId] at hfound
    contradiction
  case outside =>
    rintro rfl
    obtain ⟨found, hfound, -⟩ := hplace.folder
    rw [hwell.known?_nextId] at hfound
    contradiction
  case self =>
    obtain ⟨annotations, hannotations⟩ := markedBy_eq (createdRow tree record parent) orphanOf
    obtain ⟨_, _, hfilled⟩ := (tree.newRow parent record.itemType record.newTitle
      record.newUrl).exists_filledBy_eq record
    refine ⟨_, hmarked.self, ?_, ?_, ?_, mark_of_markedBy _ _⟩
    · rw [hannotations, createdRow]
    · rw [hannotations, createdRow, hfilled]
      rfl
    · rw [hannotations, createdRow, hfilled]
      rfl
  case bare =>
    intro hkind
    refine ⟨_, hwell.known?_inserted_self _ _ _ _ _, rfl, ?_⟩
    change record.newUrl = none
    rw [Record.newUrl]
    split
    · rename_i hbookmark
      exact absurd hbookmark (hproper.itemType_of_ne hkind)
    · rfl

/-- A record that the tree admits arrives. -/
theorem arrives (hwell : store.tree.WellFormed) (h : store.tree.Receives records)
    (hrecord : record ∈ records) (hadmits : store.tree.Admits record) :
    (applyIncoming record).Yields store fun _ next => ∃ id parent orphanOf placed tagged,
      Arrived record id parent orphanOf store.tree placed tagged next.tree := by
  obtain ⟨parent, orphanOf, hplace⟩ := exists_place hwell h hrecord hadmits
  cases hid : store.tree.idOfGuid? record.id with
  | none =>
      have hproper := h.proper record hrecord
      have hcreates := creates_of_place hwell h hrecord hplace
      refine (yields_applyIncoming_create hwell (by simpa using h.apart record hrecord)
        hproper.deleted hid (h.never_made record hrecord) hplace.destination hcreates).imp ?_
      rintro - next ⟨tagged, filled, last, hcreated, hnamed, hmarked, -, -⟩
      exact ⟨_, parent, orphanOf, _, tagged,
        arrived_of_created hwell hproper hplace hcreates hcreated hnamed hmarked⟩
  | some id =>
      obtain ⟨row, hrow, hguid⟩ := hwell.idOfGuid?_iff.mp hid
      refine (arrives_update hwell h hrecord hplace hrow hguid).imp ?_
      rintro - next ⟨id, placed, tagged, harrived⟩
      exact ⟨id, parent, orphanOf, placed, tagged, harrived⟩

end Arrives

/-! ### What an arrival leaves in order -/

theorem kind_of_url {tree : Tree} (hwell : tree.WellFormed) {records : List Record}
    (h : tree.Receives records) {record : Record} (hrecord : record ∈ records) {id : Int} {row : Row}
    (hrow : tree.known? id = some row) (hguid : row.guid = record.id) (hurl : row.url.isSome) :
    record.kind = .bookmark := by
  by_contra hkind
  have hbookmark := (hwell.sound id row hrow).url_iff.mp hurl
  rw [h.same_type record hrecord id row hrow hguid] at hbookmark
  exact (h.proper record hrecord).itemType_of_ne hkind (ItemType.code_inj hbookmark)

namespace Arrived

variable {record : Record} {id parent : Int} {orphanOf : Option String}
  {before placed tagged after : Tree} {records : List Record}

theorem ne_of_guid (h : Arrived record id parent orphanOf before placed tagged after) {other : Int}
    {row : Row} (hrow : before.known? other = some row) (hguid : row.guid ≠ record.id) :
    other ≠ id := by
  rintro rfl
  exact hguid (h.apart row hrow)

theorem known?_root (h : Arrived record id parent orphanOf before placed tagged after)
    (hwell : before.WellFormed) (hreceives : before.Receives records) (hrecord : record ∈ records)
    {root : Int} {guid : String} (hmem : (root, guid) ∈ rootNames) :
    after.known? root = before.known? root := by
  have hroots := hreceives.roots
  obtain ⟨row, hrow, hcode⟩ := hroots.named.isFolder_of_mem hwell hmem
  have hguid := hroots.named root guid hmem
  rw [guidOf?_eq_known?, hrow, Option.map_some, Option.some.injEq] at hguid
  have hne : root ≠ id := by
    refine h.ne_of_guid hrow ?_
    rw [hguid]
    rintro rfl
    exact hreceives.apart record hrecord (mem_all_of_rootNames hmem)
  rw [hrow]
  refine h.kept_folder hne hrow hcode ?_
  rw [← above?_of_known? hrow]
  by_cases hplaces : root = RootId.places
  · rw [hplaces, hwell.above?_places]
    simp
  · rw [hroots.above root ?_]
    · decide
    · simp only [rootNames, List.mem_cons, Prod.mk.injEq, List.not_mem_nil, or_false] at hmem ⊢
      tauto

theorem rootsInPlace (h : Arrived record id parent orphanOf before placed tagged after)
    (hwell : before.WellFormed) (hreceives : before.Receives records) (hrecord : record ∈ records) :
    after.RootsInPlace where
  named := by
    intro root guid hmem
    rw [guidOf?_eq_known?, h.known?_root hwell hreceives hrecord hmem, ← guidOf?_eq_known?]
    exact hreceives.roots.named root guid hmem
  above := by
    intro root hroot
    obtain ⟨guid, hmem⟩ := exists_rootName hroot
    rw [above?_eq_known?, h.known?_root hwell hreceives hrecord hmem, ← above?_eq_known?]
    exact hreceives.roots.above root hroot

theorem rootsSettled (h : Arrived record id parent orphanOf before placed tagged after)
    (hwell : before.WellFormed) (hreceives : before.Receives records) (hrecord : record ∈ records)
    (hsettled : before.RootsSettled) : after.RootsSettled := by
  intro root hroot
  obtain ⟨guid, hmem⟩ : ∃ guid, (root, guid) ∈ rootNames := by
    refine exists_rootName ?_
    simp only [List.mem_cons, List.not_mem_nil, or_false] at hroot ⊢
    tauto
  rw [annotationOf?_eq_known?, h.known?_root hwell hreceives hrecord hmem,
    ← annotationOf?_eq_known?]
  exact hsettled root hroot

/-- The records that fitted the tree fit it still. -/
theorem receives (h : Arrived record id parent orphanOf before placed tagged after)
    (hwell : before.WellFormed) (hreceives : before.Receives records) (hrecord : record ∈ records) :
    after.Receives records where
  toOrderly := hreceives.toOrderly
  roots := h.rootsInPlace hwell hreceives hrecord
  same_type := by
    intro other hother item row hrow hguid
    by_cases heq : item = id
    · obtain ⟨self, hself, hselfGuid, -, hcode, -⟩ := h.self
      rw [heq, hself] at hrow
      obtain rfl := Option.some.inj hrow
      have hsame := List.inj_on_of_nodup_map hreceives.distinct hother hrecord
        (hguid.symm.trans hselfGuid)
      rw [hsame]
      exact hcode
    · rcases h.new heq hrow with hbefore | ⟨hle, count, hcount⟩
      · exact hreceives.same_type other hother item row hbefore hguid
      · exact absurd (hcount.symm.trans hguid) (hreceives.never_made other hother item hle count)
  never_made := fun other hother =>
    (hreceives.never_made other hother).mono h.guids_eq h.nextId_le

/-- The folder that the arrived item is in stays what it was. -/
theorem known?_parent (h : Arrived record id parent orphanOf before placed tagged after) :
    after.known? parent = before.known? parent := by
  obtain ⟨folder, hfolder, hcode⟩ := h.place.folder
  rw [hfolder]
  by_cases hkind : record.kind = .bookmark
  · refine h.kept_folder h.outside hfolder hcode ?_
    rw [← above?_of_known? hfolder]
    exact h.place.untagged hkind
  · obtain ⟨row, hrow, habove, hurl⟩ := h.bare hkind
    exact h.kept_holding h.outside hfolder hcode hrow habove hurl

theorem settled_self (h : Arrived record id parent orphanOf before placed tagged after) :
    ∃ row, after.Settled record id row := by
  obtain ⟨row, hrow, hguid, habove, -, hmark⟩ := h.self
  refine ⟨row, hrow, hguid, ?_⟩
  rcases h.place.named with ⟨rfl, hname⟩ | ⟨rfl, rfl⟩
  · refine .inl ⟨hmark, parent, habove, ?_, ?_⟩
    · rw [guidOf?_eq_known?, h.known?_parent, ← guidOf?_eq_known?]
      exact hname
    · rw [above?_eq_known?, h.known?_parent, ← above?_eq_known?]
      exact h.place.untagged
  · exact .inr ⟨habove, hmark⟩

/-- What has been settled stays so. -/
theorem settled_of_settled (h : Arrived record id parent orphanOf before placed tagged after)
    (hwell : before.WellFormed) (hreceives : before.Receives records) {other : Record}
    (hother : other ∈ records) (hne : other.id ≠ record.id) {item : Int} {row : Row}
    (hsettled : before.Settled other item row) : after.Settled other item row := by
  obtain ⟨hrow, hguid, ⟨hmark, folder, habove, hname, huntagged⟩ | ⟨habove, hmark⟩⟩ := hsettled
  all_goals have hitem : item ≠ id := h.ne_of_guid hrow (hguid ▸ hne)
  · have hkind : row.url.isSome → other.kind = .bookmark :=
      fun hurl => kind_of_url hwell hreceives hother hrow hguid hurl
    have hkept := h.kept_apart h.place.apart hitem hrow habove
      (hreceives.ne_tags_of_named hother hname) fun hurl => huntagged (hkind hurl)
    refine ⟨hkept, hguid, .inl ⟨hmark, folder, habove, ?_⟩⟩
    obtain ⟨place, hplace, hcode⟩ :=
      hwell.parent_folder item folder ((above?_of_known? hrow).trans habove)
    by_cases heq : folder = id
    · -- The folder that it is in is the one that has just arrived.
      obtain ⟨self, hself, hselfGuid, hselfParent, -⟩ := h.self
      rw [heq] at hplace hname
      refine ⟨?_, fun _ => ?_⟩
      · rw [guidOf?_eq_known?, heq, hself, ← hname, guidOf?_eq_known?, hplace, Option.map_some,
          Option.map_some, hselfGuid, h.apart place hplace]
      · rw [heq, above?_of_known? hself, hselfParent]
        exact fun hroot => h.place.apart (Option.some.inj hroot)
    · have hplaceKept : after.known? folder = before.known? folder := by
        rw [hplace]
        by_cases hup : before.above? folder = some RootId.tags
        · have hurl : row.url = none := by
            rw [← Option.not_isSome_iff_eq_none]
            exact fun hurl => huntagged (hkind hurl) hup
          exact h.kept_holding heq hplace hcode ((h.placed_other item hitem).trans hrow) habove hurl
        · refine h.kept_folder heq hplace hcode ?_
          rwa [← above?_of_known? hplace]
      refine ⟨?_, ?_⟩
      · rw [guidOf?_eq_known?, hplaceKept, ← guidOf?_eq_known?, hname]
      · rw [above?_eq_known?, hplaceKept, ← above?_eq_known?]
        exact huntagged
  · have hkept := h.kept_apart h.place.apart hitem hrow habove (by decide) (by
      intro _
      rw [hreceives.roots.above RootId.unfiled (by decide)]
      decide)
    exact ⟨hkept, hguid, .inr ⟨habove, hmark⟩⟩

end Arrived

end BookmarkStore

end SyncedBookmarks
