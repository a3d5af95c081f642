import SyncedBookmarks.Proofs.Delivery
import SyncedBookmarks.Proofs.Portraits

namespace SyncedBookmarks

/-! The records of all that is synced in a tree: each can be taken up elsewhere, and together they
make a forest. -/

namespace Record

/-- Whether a record can be taken up elsewhere without a loss. -/
structure Portable (record : Record) : Prop where
  proper : record.Proper
  serialized : record.Serialized
  described : record.description ≠ some ""
  held : record.bmkUri ≠ some BookmarkStore.holdingUri
  tags : ∀ tags, record.tags = some tags → tags.Nodup ∧ "" ∉ tags

/-- Whether records can be taken up elsewhere together: they make a forest, and agree on the tags of
each URI. -/
structure Consistent (records : List Record) : Prop extends Orderly records where
  portable : ∀ record ∈ records, record.Portable
  agreed : ∀ first ∈ records, ∀ second ∈ records, first.bmkUri = second.bmkUri →
    first.tags = second.tags

end Record

namespace Row

theorem id_record (row : Row) (tags : List String) (parent : String) :
    (row.record tags parent).id = row.guid := by
  rw [record, ownRecord]
  split
  · rfl
  · split
    · split <;> rfl
    · rfl

theorem parentid_record (row : Row) (tags : List String) (parent : String) :
    (row.record tags parent).parentid = some parent :=
  rfl

theorem kind_record_folder {row : Row} (hcode : row.typeCode = ItemType.folder.code)
    (hfeed : row.annotationOf? AnnotationName.feedUri = none) (tags : List String)
    (parent : String) : (row.record tags parent).kind = .folder := by
  rw [record, ownRecord, hcode, if_neg (by decide), if_pos rfl, hfeed, if_neg (by simp)]

end Row

namespace Tree

/-- Whether what is synced can be taken up elsewhere without a loss. -/
structure Portable (tree : Tree) : Prop where
  plain : ∀ id row, tree.Synced id → tree.known? id = some row → row.Plain
  held : ∀ id row, tree.Synced id → tree.known? id = some row →
    row.url ≠ some BookmarkStore.holdingUri
  described : ∀ id row, tree.Synced id → tree.known? id = some row →
    row.annotationOf? AnnotationName.description ≠ some ""
  fed : ∀ id row, tree.Synced id → tree.known? id = some row →
    row.typeCode = ItemType.folder.code → ∀ feed,
      row.annotationOf? AnnotationName.feedUri = some feed → validateUri feed = .ok feed ∧
        ∀ site, row.annotationOf? AnnotationName.siteUri = some site → validateUri site = .ok site
  tags : tree.TagsNamed

namespace Synced

variable {tree : Tree} {id : Int}

theorem exists_parent (h : tree.Synced id) : ∃ parent, tree.above? id = some parent ∧
    tree.isLivemark parent = false ∧ (tree.IsSyncedRoot parent ∨ tree.Synced parent) := by
  cases h with
  | child hroot hopen habove => exact ⟨_, habove, hopen, .inl hroot⟩
  | deeper hparent hopen habove => exact ⟨_, habove, hopen, .inr hparent⟩

/-- No root is synced itself. -/
theorem guid_notMem (h : tree.Synced id) (hwell : tree.WellFormed) (hroots : tree.RootsInPlace)
    {row : Row} (hrow : tree.known? id = some row) : row.guid ∉ RootGuid.all := by
  have hplaces : ∀ place, tree.Synced place → place ≠ RootId.places := by
    rintro place hplace rfl
    obtain ⟨parent, hparent, -⟩ := hplace.exists_parent
    rw [hwell.above?_places] at hparent
    contradiction
  obtain ⟨parent, hparent, -, hway⟩ := h.exists_parent
  have hne : parent ≠ RootId.places := by
    rcases hway with ⟨guid, hguid, hroot⟩ | hsynced
    · rintro rfl
      obtain ⟨place, hplace, rfl⟩ := hwell.idOfGuid?_iff.mp hroot
      have hname := hroots.named RootId.places RootGuid.places places_mem_rootNames
      rw [guidOf?_eq_known?, hplace, Option.map_some, Option.some.injEq] at hname
      rw [hname] at hguid
      exact absurd hguid (by decide)
    · exact hplaces parent hsynced
  intro hmem
  have hroot : ∀ root guid, (root, guid) ∈ rootNames → row.guid = guid → id = root :=
    fun root guid hname hguid => hroots.named.eq_of_guid hwell hname hrow hguid
  have habove : ∀ root ∈ [RootId.menu, RootId.toolbar, RootId.tags, RootId.unfiled], id ≠ root := by
    rintro root hgiven rfl
    exact hne (Option.some.inj (hparent.symm.trans (hroots.above id hgiven)))
  simp only [RootGuid.all, List.mem_cons, List.not_mem_nil, or_false] at hmem
  rcases hmem with hguid | hguid | hguid | hguid | hguid
  · exact hplaces id h (hroot _ _ places_mem_rootNames hguid)
  · exact habove _ (by decide) (hroot _ _ menu_mem_rootNames hguid)
  · exact habove _ (by decide) (hroot _ _ toolbar_mem_rootNames hguid)
  · exact habove _ (by decide) (hroot _ _ unfiled_mem_rootNames hguid)
  · exact habove _ (by decide) (hroot _ _ tags_mem_rootNames hguid)

end Synced

/-! ### One record -/

theorem Portable.record {tree : Tree} (h : tree.Portable) (hwell : tree.WellFormed) {id : Int}
    {row : Row} (hsynced : tree.Synced id) (hrow : tree.known? id = some row) (parent : String) :
    (row.record (tree.tagsFor (row.url.getD "")) parent).Portable := by
  have hsound := hwell.sound id row hrow
  have hplain := h.plain id row hsynced hrow
  have hheld := h.held id row hsynced hrow
  have hdescribed := h.described id row hsynced hrow
  have hfed := h.fed id row hsynced hrow
  have hform := hsound.form (tree.tagsFor (row.url.getD "")) parent
  generalize row.record (tree.tagsFor (row.url.getD "")) parent = record at hform ⊢
  cases hform with
  | bookmark uri hcode hurl =>
      have hvalid := hsound.url_valid uri hurl
      obtain ⟨hquery, -⟩ := hplain hcode
      rw [hurl, Option.getD_some] at hquery ⊢
      have htags := h.tags.tagsFor hwell hvalid
      constructor
      case proper =>
        constructor <;> simp
        exact hvalid
      case serialized =>
        exact .bookmark _ _ _ _ _ _ _ _ hvalid hquery
          (BookmarkStore.sorted_of_tagsOf (hwell.tagsOf_eq hvalid)) hsound.keyword_ne
      case described => exact hdescribed
      case held => exact fun heq => hheld (hurl.trans heq)
      case tags =>
        intro tags hgiven
        obtain rfl := Option.some.inj hgiven
        exact htags
  | folder title hcode htitle hfeed =>
      constructor
      case proper => constructor <;> simp
      case serialized => exact .folder _ _ _
      case described => simp
      case held => simp
      case tags => simp
  | livemark title feed hcode htitle hfeed =>
      obtain ⟨hfeedValid, hsiteValid⟩ := hfed hcode feed hfeed
      constructor
      case proper =>
        constructor <;> simp
        · exact hsiteValid
        · exact hfeedValid
      case serialized => exact .livemark _ _ _ _ _
      case described => simp
      case held => simp
      case tags => simp
  | separator hcode =>
      constructor
      case proper => constructor <;> simp
      case serialized => exact .separator _ _
      case described => simp
      case held => simp
      case tags => simp

theorem tags_record {tree : Tree} (hwell : tree.WellFormed) {id : Int} {row : Row}
    (hrow : tree.known? id = some row) (parent : String) :
    (row.record (tree.tagsFor (row.url.getD "")) parent).tags =
      (row.record (tree.tagsFor (row.url.getD "")) parent).bmkUri.map tree.tagsFor := by
  have hform := (hwell.sound id row hrow).form (tree.tagsFor (row.url.getD "")) parent
  generalize row.record (tree.tagsFor (row.url.getD "")) parent = record at hform ⊢
  cases hform with
  | bookmark uri hcode hurl => rw [hurl, Option.getD_some, Option.map_some]
  | folder => rfl
  | livemark => rfl
  | separator => rfl

/-! ### All records -/

theorem id_answer {tree : Tree} (hwell : tree.WellFormed) (guid : String) :
    (tree.answer guid).id = guid := by
  rw [answer, portrait?]
  cases hid : tree.idOfGuid? guid with
  | none => rfl
  | some id =>
      obtain ⟨row, hrow, rfl⟩ := hwell.idOfGuid?_iff.mp hid
      cases hparent : row.parent.bind tree.guidOf? with
      | none => simp [hrow, hparent, Record.tombstone]
      | some parent => simp [hrow, hparent, Row.id_record]

/-- The items that are synced, each by its GUID. -/
def Lists (tree : Tree) (guids : List String) : Prop :=
  ∀ guid, guid ∈ guids ↔ ∃ id, tree.Synced id ∧ tree.guidOf? id = some guid

namespace Lists

variable {tree : Tree} {guids : List String}

theorem exists_row (h : tree.Lists guids) (hwell : tree.WellFormed) {guid : String}
    (hguid : guid ∈ guids) : ∃ id row folder, tree.Synced id ∧ tree.known? id = some row ∧
      row.guid = guid ∧ row.parent.bind tree.guidOf? = some folder ∧
      tree.answer guid = row.record (tree.tagsFor (row.url.getD "")) folder := by
  obtain ⟨id, hsynced, hname⟩ := (h guid).mp hguid
  obtain ⟨parent, habove, -⟩ := hsynced.exists_parent
  obtain ⟨row, hrow, hparent⟩ := known?_of_above? habove
  obtain ⟨folder, hfolder, -⟩ := hwell.parent_folder id parent habove
  rw [guidOf?_eq_known?, hrow, Option.map_some, Option.some.injEq] at hname
  subst hname
  have hname : row.parent.bind tree.guidOf? = some folder.guid := by
    rw [hparent, Option.bind_some, guidOf?_eq_known?, hfolder, Option.map_some]
  refine ⟨id, row, folder.guid, hsynced, hrow, rfl, hname, ?_⟩
  rw [answer, portrait?_of_known? hwell hrow hname, Option.getD_some]

theorem mem_of_synced (h : tree.Lists guids) {id : Int} (hsynced : tree.Synced id) {row : Row}
    (hrow : tree.known? id = some row) : row.guid ∈ guids :=
  (h row.guid).mpr ⟨id, hsynced, by rw [guidOf?_eq_known?, hrow, Option.map_some]⟩

/-- Where one record puts an item under another, the tree has it there. -/
theorem above?_of_prescribed (h : tree.Lists guids) (hwell : tree.WellFormed) {guid above : String}
    (hprescribed : Record.Prescribed (guids.map tree.answer) guid above) {id : Int}
    (hid : tree.guidOf? id = some guid) :
    ∃ parent, tree.above? id = some parent ∧ tree.guidOf? parent = some above := by
  obtain ⟨record, hrecord, hname, habove⟩ := hprescribed
  obtain ⟨listed, hlisted, rfl⟩ := List.mem_map.mp hrecord
  rw [id_answer hwell] at hname
  subst hname
  obtain ⟨item, row, folder, -, hrow, hguid, hfolder, hanswer⟩ := h.exists_row hwell hlisted
  rw [guidOf?_eq_known?, Option.map_eq_some_iff] at hid
  obtain ⟨found, hfound, hfoundGuid⟩ := hid
  obtain rfl := hwell.guid_inj item id row found hrow hfound (hguid.trans hfoundGuid.symm)
  rw [hanswer, Row.parentid_record, Option.some.injEq] at habove
  obtain ⟨parent, hparent, hparentGuid⟩ := Option.bind_eq_some_iff.mp hfolder
  exact ⟨parent, (above?_of_known? hrow).trans hparent, by rw [hparentGuid, habove]⟩

theorem encloses_of_prescribed (h : tree.Lists guids) (hwell : tree.WellFormed)
    {guid above : String}
    (hway : Relation.ReflTransGen (Record.Prescribed (guids.map tree.answer)) guid above)
    {id ancestor : Int} (hid : tree.guidOf? id = some guid)
    (hancestor : tree.guidOf? ancestor = some above) : tree.Encloses ancestor id := by
  induction hway using Relation.ReflTransGen.head_induction_on generalizing id with
  | refl =>
      rw [guidOf?_eq_known?, Option.map_eq_some_iff] at hid hancestor
      obtain ⟨row, hrow, hguid⟩ := hid
      obtain ⟨found, hfound, hfoundGuid⟩ := hancestor
      rw [hwell.guid_inj id ancestor row found hrow hfound (hguid.trans hfoundGuid.symm)]
      exact Encloses.refl tree ancestor
  | head hstep _ ih =>
      obtain ⟨parent, hparent, hparentGuid⟩ := h.above?_of_prescribed hwell hstep hid
      exact (ih hparentGuid).of_above? hparent

/-- The folder that a listed item is in is one of the three roots, or a folder that is listed. -/
theorem named_answer (h : tree.Lists guids) (hwell : tree.WellFormed) {guid : String}
    (hguid : guid ∈ guids) :
    ∃ name, (tree.answer guid).parentid = some name ∧ (name ∈ BookmarkStore.syncedRoots ∨
      ∃ folder ∈ guids.map tree.answer, folder.kind = .folder ∧ folder.id = name) := by
  obtain ⟨id, row, name, hsynced, hrow, -, hname, hanswer⟩ := h.exists_row hwell hguid
  refine ⟨name, by rw [hanswer]; rfl, ?_⟩
  obtain ⟨parent, hparent, hopen, hway⟩ := hsynced.exists_parent
  obtain ⟨place, hplace, hcode⟩ := hwell.parent_folder id parent hparent
  obtain rfl : place.guid = name := by
    rw [above?_of_known? hrow] at hparent
    rw [hparent, Option.bind_some, guidOf?_eq_known?, hplace, Option.map_some] at hname
    exact Option.some.inj hname
  rcases hway with ⟨root, hroot, hid⟩ | hparentSynced
  · obtain ⟨found, hfound, rfl⟩ := hwell.idOfGuid?_iff.mp hid
    obtain rfl := Option.some.inj (hplace.symm.trans hfound)
    exact .inl hroot
  · have hlisted := h.mem_of_synced hparentSynced hplace
    refine .inr ⟨tree.answer place.guid, List.mem_map_of_mem hlisted, ?_, id_answer hwell _⟩
    obtain ⟨other, otherRow, above, -, hother, hotherGuid, -, hotherAnswer⟩ :=
      h.exists_row hwell hlisted
    obtain rfl := hwell.guid_inj other parent otherRow place hother hplace hotherGuid
    obtain rfl := Option.some.inj (hother.symm.trans hplace)
    rw [hotherAnswer]
    refine Row.kind_record_folder hcode ?_ _ _
    rwa [isLivemark, isAnnotated, annotationOf?_eq_known?, hplace, Option.bind_some,
      Option.isSome_eq_false_iff, Option.isNone_iff_eq_none] at hopen

/-- The prescribed folders lead up the tree, so they lead nowhere twice. -/
theorem not_prescribed_loop (h : tree.Lists guids) (hwell : tree.WellFormed) {guid : String}
    (hguid : guid ∈ guids) :
    ¬ Relation.TransGen (Record.Prescribed (guids.map tree.answer)) guid guid := by
  intro hloop
  obtain ⟨id, row, folder, -, hrow, hname, -⟩ := h.exists_row hwell hguid
  have hid : tree.guidOf? id = some guid := by
    rw [guidOf?_eq_known?, hrow, Option.map_some, hname]
  obtain ⟨above, hstep, hway⟩ := Relation.TransGen.head'_iff.mp hloop
  obtain ⟨parent, hparent, hparentGuid⟩ := h.above?_of_prescribed hwell hstep hid
  exact hwell.not_encloses_parent hparent (h.encloses_of_prescribed hwell hway hparentGuid hid)

/-- The records of all that is synced can be taken up elsewhere together. -/
theorem consistent (h : tree.Lists guids) (hnodup : guids.Nodup) (hwell : tree.WellFormed)
    (hroots : tree.RootsInPlace) (hportable : tree.Portable) :
    Record.Consistent (guids.map tree.answer) := by
  have hids : (guids.map tree.answer).map (·.id) = guids := by
    rw [List.map_map]
    exact (List.map_congr_left fun guid _ => id_answer hwell guid).trans (List.map_id guids)
  have hrecord : ∀ record ∈ guids.map tree.answer, record.Portable := by
    intro record hrecord
    obtain ⟨guid, hguid, rfl⟩ := List.mem_map.mp hrecord
    obtain ⟨id, row, folder, hsynced, hrow, -, -, hanswer⟩ := h.exists_row hwell hguid
    rw [hanswer]
    exact hportable.record hwell hsynced hrow folder
  have htags : ∀ record ∈ guids.map tree.answer, record.tags = record.bmkUri.map tree.tagsFor := by
    intro record hrecord
    obtain ⟨guid, hguid, rfl⟩ := List.mem_map.mp hrecord
    obtain ⟨id, row, folder, -, hrow, -, -, hanswer⟩ := h.exists_row hwell hguid
    rw [hanswer]
    exact tags_record hwell hrow folder
  constructor
  case portable => exact hrecord
  case agreed =>
    intro first hfirst second hsecond heq
    rw [htags first hfirst, htags second hsecond, heq]
  case toOrderly =>
    constructor
    case proper => exact fun record hmem => (hrecord record hmem).proper
    case distinct => rwa [hids]
    case apart =>
      intro record hrecord
      obtain ⟨guid, hguid, rfl⟩ := List.mem_map.mp hrecord
      obtain ⟨id, row, folder, hsynced, hrow, hname, -⟩ := h.exists_row hwell hguid
      rw [id_answer hwell, ← hname]
      exact hsynced.guid_notMem hwell hroots hrow
    case named =>
      intro record hrecord
      obtain ⟨guid, hguid, rfl⟩ := List.mem_map.mp hrecord
      exact h.named_answer hwell hguid
    case forest =>
      intro record hrecord
      obtain ⟨guid, hguid, rfl⟩ := List.mem_map.mp hrecord
      rw [id_answer hwell]
      exact h.not_prescribed_loop hwell hguid

end Lists

end Tree

end SyncedBookmarks
