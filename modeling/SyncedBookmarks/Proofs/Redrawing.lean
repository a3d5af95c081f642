import SyncedBookmarks.Proofs.Gathering
import SyncedBookmarks.Proofs.Portable

namespace SyncedBookmarks

/-! A fresh tree that the records of another one arrive at, in any order, comes to tell the same of
every item. -/

namespace Row

/-- Whether a row says what a record does, but for the parent. -/
structure Draws (row : Row) (record : Record) : Prop where
  plain : row.Plain
  record_eq : ∀ parent, row.record (record.tags.getD []) parent =
    { record with parentid := some parent }

/-- What a row says depends neither on its place nor on whether it waits for a parent. -/
theorem Draws.of_same {row other : Row} {record : Record} (h : row.Draws record)
    (hguid : other.guid = row.guid) (hcode : other.typeCode = row.typeCode)
    (htitle : other.title = row.title) (hurl : other.url = row.url)
    (hkeyword : other.keyword = row.keyword)
    (hannotations : ∀ name, name ≠ AnnotationName.intendedParent →
      other.annotationOf? name = row.annotationOf? name) : other.Draws record where
  plain := by
    rw [Plain, hcode, hurl, hannotations _ (by decide)]
    exact h.plain
  record_eq := by
    intro parent
    rw [← h.record_eq parent, Row.record, Row.record, ownRecord, ownRecord]
    simp only [hguid, hcode, htitle, hurl, hkeyword,
      hannotations AnnotationName.description (by decide),
      hannotations AnnotationName.loadInSidebar (by decide),
      hannotations AnnotationName.feedUri (by decide),
      hannotations AnnotationName.siteUri (by decide)]

end Row

namespace Record

theorem Portable.exists_tags {record : Record} (h : record.Portable)
    (hkind : record.kind = .bookmark) : ∃ tags, record.tags = some tags := by
  cases h.serialized with
  | bookmark => exact ⟨_, rfl⟩
  | other _ hother => rcases hother with hother | hother <;> rw [hother] at hkind <;> contradiction
  | tombstone => contradiction
  | folder => contradiction
  | livemark => contradiction
  | separator => contradiction

theorem Portable.sorted_tags {record : Record} (h : record.Portable) :
    (record.tags.getD []).mergeSort (· ≤ ·) = record.tags.getD [] := by
  have hkind := h.proper.kind
  cases h.serialized with
  | bookmark _ _ _ _ _ _ _ _ _ _ hsorted => exact hsorted
  | other _ hother => rcases hother with hother | hother <;> rw [hother] at hkind <;> simp at hkind
  | tombstone => simp [Record.tombstone]
  | folder => simp
  | livemark => simp
  | separator => simp

end Record

namespace BookmarkStore

open SyncedBookmarks.Action SyncedBookmarks.Tree

theorem filter_isEmpty {text : Option String} (hne : text ≠ some "") :
    text.filter (!·.isEmpty) = text := by
  cases text with
  | none => rfl
  | some text =>
      have hgiven : text ≠ "" := fun heq => hne (by rw [heq])
      simp [Option.filter, hgiven]

theorem typeCode_createdRow (tree : Tree) (record : Record) (parent : Int) :
    (createdRow tree record parent).typeCode = record.itemType.code := by
  obtain ⟨_, _, hfilled⟩ := (tree.newRow parent record.itemType record.newTitle
    record.newUrl).exists_filledBy_eq record
  rw [createdRow, hfilled]
  rfl

theorem url_createdRow (tree : Tree) (record : Record) (parent : Int) :
    (createdRow tree record parent).url = record.newUrl := by
  obtain ⟨_, _, hfilled⟩ := (tree.newRow parent record.itemType record.newTitle
    record.newUrl).exists_filledBy_eq record
  rw [createdRow, hfilled]
  rfl

/-- The row that is made of a record says what the record does. -/
theorem draws_createdRow {record : Record} (h : record.Portable) (tree : Tree) (parent : Int) :
    (createdRow tree record parent).Draws record := by
  have hkind := h.proper.kind
  have hdescribed := h.described
  have hplain : record.itemType ≠ .bookmark → (createdRow tree record parent).Plain := by
    intro htype hcode
    rw [typeCode_createdRow] at hcode
    exact absurd (ItemType.code_inj hcode) htype
  cases h.serialized with
  | tombstone id => exact absurd hkind (by simp [Record.tombstone])
  | other record hother =>
      rcases hother with hother | hother <;> exact absurd hkind (by rw [hother]; decide)
  | bookmark id _ title uri tags keyword description sidebar huri hquery htags hkeyword =>
      constructor
      case plain =>
        refine fun _ => ⟨by rw [url_createdRow]; exact hquery, ?_⟩
        simp only [createdRow, Row.filledBy, filter_isEmpty hdescribed]
        cases description <;> cases sidebar <;> rfl
      case record_eq =>
        intro parent
        simp only [createdRow, Row.filledBy, filter_isEmpty hdescribed, filter_isEmpty hkeyword]
        cases description <;> cases sidebar <;> rfl
  | folder id _ title => exact ⟨hplain (by simp [Record.itemType]), fun _ => rfl⟩
  | livemark id _ title site feed =>
      refine ⟨hplain (by simp [Record.itemType]), fun _ => ?_⟩
      cases site <;> rfl
  | separator id _ => exact ⟨hplain (by simp [Record.itemType]), fun _ => rfl⟩

theorem annotationOf?_markedBy (row : Row) (orphanOf : Option String) {name : String}
    (hne : name ≠ AnnotationName.intendedParent) :
    (row.markedBy orphanOf).annotationOf? name = row.annotationOf? name := by
  cases orphanOf with
  | none => rw [Row.markedBy, Row.annotationOf?_unannotate, if_neg hne]
  | some guid => rw [Row.markedBy, Row.annotationOf?_annotate, if_neg hne]

theorem draws_markedBy {row : Row} {record : Record} (h : row.Draws record)
    (orphanOf : Option String) : (row.markedBy orphanOf).Draws record := by
  have hannotations := fun name (hne : name ≠ AnnotationName.intendedParent) =>
    annotationOf?_markedBy row orphanOf hne
  obtain ⟨annotations, hmarked⟩ := markedBy_eq row orphanOf
  rw [hmarked] at hannotations ⊢
  exact h.of_same rfl rfl rfl rfl rfl hannotations

end BookmarkStore

namespace Tree

/-- An item that gets a row in a place outside the tags, and had none in them, is in no tag. -/
theorem sameTags_of_outside {before after : Tree} {id : Int} {row : Row}
    (hknown : ∀ other, after.known? other = if other = id then some row else before.known? other)
    (hold : before.OutsideTags (before.above? id)) (hnew : before.OutsideTags row.parent)
    (uri : String) : SameTags before after uri := by
  intro folder
  by_cases heq : folder = id
  · have habove : after.above? folder = row.parent := by
      rw [above?_eq_known?, hknown, if_pos heq, Option.bind_some]
    have hbefore : ¬ before.TagHolds folder uri := fun hholds =>
      (hold _ (heq ▸ hholds.1)).1 rfl
    have hafter : ¬ after.TagHolds folder uri := fun hholds =>
      (hnew _ (habove.symm.trans hholds.1)).1 rfl
    exact ⟨iff_of_false hafter hbefore, fun hholds => absurd hholds hbefore⟩
  · have habove : after.above? folder = before.above? folder := by
      rw [above?_eq_known?, hknown, if_neg heq, ← above?_eq_known?]
    refine ⟨?_, fun _ => by rw [tagTitle, hknown, if_neg heq, tagTitle]⟩
    rw [TagHolds, TagHolds, habove]
    refine and_congr_right fun hup => ?_
    constructor
    · rintro ⟨item, found, hfound, hparent, hurl⟩
      rw [hknown] at hfound
      split at hfound
      · obtain rfl := Option.some.inj hfound
        exact absurd hup (hnew folder hparent).2
      · exact ⟨item, found, hfound, hparent, hurl⟩
    · rintro ⟨item, found, hfound, hparent, hurl⟩
      have hne : item ≠ id := by
        rintro rfl
        exact (hold folder ((above?_of_known? hfound).trans hparent)).2 hup
      exact ⟨item, found, by rw [hknown, if_neg hne, hfound], hparent, hurl⟩

theorem TagsUpdated.sameTags {url : Option String} {tags : Option (List String)}
    {before after : Tree} (h : TagsUpdated url tags before after) {uri : String}
    (hother : url ≠ some uri) (hheld : uri ≠ BookmarkStore.holdingUri) :
    SameTags before after uri := by
  cases h with
  | untouched => exact SameTags.refl before uri
  | replaced h => exact h.same uri (fun heq => hother (congrArg some heq.symm)) hheld

theorem TagsUpdated.taggedWith {uri : String} {tags : List String} {before after : Tree}
    (h : TagsUpdated (some uri) (some tags) before after) (hheld : uri ≠ BookmarkStore.holdingUri)
    (hnodup : tags.Nodup) (hnames : "" ∉ tags) : after.TaggedWith uri tags := by
  have hall : tags.filter (!·.isEmpty) = tags := by
    rw [List.filter_eq_self]
    intro tag htag
    have hne : tag ≠ "" := fun heq => hnames (heq ▸ htag)
    simpa using hne
  cases h with
  | untouched _ hnone => simp at hnone
  | replaced h =>
      rw [hall] at h
      exact h.tagged hheld hnodup

/-- Whether the items of some records say what the records do and have their tags, and beside them
there are only roots and what tags are made of. -/
structure Drawn (records : List Record) (tree : Tree) : Prop where
  draws : ∀ record ∈ records, ∀ id row, tree.known? id = some row → row.guid = record.id →
    row.Draws record
  tagged : ∀ record ∈ records, ∀ uri, record.bmkUri = some uri →
    tree.TaggedWith uri (record.tags.getD [])
  others : ∀ id row, tree.known? id = some row → row.guid ∉ records.map (·.id) →
    row.annotations = [] ∧ (row.guid ∈ RootGuid.all ∨
      ∃ parent, row.parent = some parent ∧
        (parent = RootId.tags ∨ tree.above? parent = some RootId.tags))

end Tree

namespace BookmarkStore

open SyncedBookmarks.Action SyncedBookmarks.Tree

/-! ### One record -/

theorem createdRow_eq (tree : Tree) (record : Record) (parent : Int) :
    ∃ guid keyword annotations, createdRow tree record parent =
      { tree.newRow parent record.itemType record.newTitle record.newUrl with
        guid, keyword, annotations } := by
  obtain ⟨keyword, annotations, hfilled⟩ := (tree.newRow parent record.itemType record.newTitle
    record.newUrl).exists_filledBy_eq record
  exact ⟨record.id, keyword, annotations, by rw [createdRow, hfilled]⟩

/-- What holds while records arrive at a tree that was fresh, of which the items with some GUIDs
are awaited. -/
structure Redrawing (guids : List String) (records done : List Record) (tree : Tree) : Prop extends
    Settling records done tree, Drawn done tree where
  known : ∀ record ∈ done, record ∈ records
  free : ∀ guid ∈ guids, guid ∉ done.map (·.id) → tree.idOfGuid? guid = none
  never : ∀ guid ∈ guids, tree.NeverMakes guid

/-- What one record has made of a tree that awaited it. -/
structure Made (record : Record) (parent : Int) (orphanOf : Option String)
    (before tagged after : Tree) : Prop where
  place : Place before record parent orphanOf
  outside : before.OutsideTags (some parent)
  tags : TagsUpdated record.newUrl record.newTags
    (before.inserted parent Places.atEnd record.itemType record.newTitle record.newUrl) tagged
  kept : tagged.known? before.nextId =
    some (before.newRow parent record.itemType record.newTitle record.newUrl)
  row : Rewritten before.nextId ((createdRow before record parent).markedBy orphanOf) tagged after
  arrived : Arrived record before.nextId parent orphanOf before
    (before.inserted parent Places.atEnd record.itemType record.newTitle record.newUrl) tagged after

namespace Redrawing

variable {guids : List String} {records done : List Record} {tree : Tree}

/-- The folder that a record names is no tag. -/
theorem not_tag_of_named (h : Redrawing guids records done tree)
    (hids : ∀ record ∈ records, record.id ∈ guids) {record : Record} (hrecord : record ∈ records)
    {parent : Int} (hname : tree.guidOf? parent = record.parentid) :
    tree.above? parent ≠ some RootId.tags := by
  obtain ⟨guid, hguid, hnamed⟩ := h.receives.named record hrecord
  rw [hguid, guidOf?_eq_known?, Option.map_eq_some_iff] at hname
  obtain ⟨row, hrow, rfl⟩ := hname
  rcases hnamed with hroot | ⟨folder, hfolder, -, hid⟩
  · obtain ⟨root, hmem, hrootName⟩ := Gathering.exists_synced hroot
    rw [h.receives.roots.named.eq_of_guid h.wellFormed hrootName hrow rfl,
      h.receives.roots.above root (by simp only [List.mem_cons] at hmem ⊢; tauto)]
    decide
  · have hdone : folder.id ∈ done.map (·.id) := by
      by_contra hnot
      exact h.wellFormed.idOfGuid?_eq_none_iff.mp
        (h.free folder.id (hids folder hfolder) hnot) parent row hrow hid.symm
    obtain ⟨other, hother, hotherId⟩ := List.mem_map.mp hdone
    obtain rfl := List.inj_on_of_nodup_map h.receives.distinct (h.known other hother) hfolder
      hotherId
    obtain ⟨item, found, hfound, hguid, hplace⟩ := h.settled other hother
    obtain rfl := h.wellFormed.guid_inj item parent found row hfound hrow (hguid.trans hid)
    rw [above?_of_known? hfound]
    rcases hplace with ⟨-, place, hplace, hplaceName, -⟩ | ⟨hunfiled, -⟩
    · rw [hplace]
      exact fun heq => h.receives.ne_tags_of_named hfolder hplaceName (Option.some.inj heq)
    · rw [hunfiled]
      decide

theorem admits (h : Redrawing guids records done tree)
    (hids : ∀ record ∈ records, record.id ∈ guids) {record : Record} (hrecord : record ∈ records)
    (hnew : record.id ∉ done.map (·.id)) : tree.Admits record := by
  intro parent hparent
  constructor
  · intro id hid
    rw [h.free record.id (hids record hrecord) hnew] at hid
    contradiction
  · intro _
    obtain ⟨guid, hguid, hfound⟩ := Option.bind_eq_some_iff.mp hparent
    obtain ⟨row, hrow, rfl⟩ := h.wellFormed.idOfGuid?_iff.mp hfound
    refine h.not_tag_of_named hids hrecord ?_
    rw [hguid, guidOf?_eq_known?, hrow, Option.map_some]

theorem yields_made {store : BookmarkStore} (h : Redrawing guids records done store.tree)
    (hids : ∀ record ∈ records, record.id ∈ guids) {record : Record} (hrecord : record ∈ records)
    (hnew : record.id ∉ done.map (·.id)) :
    (applyIncoming record).Yields store fun _ next => ∃ parent orphanOf tagged,
      Made record parent orphanOf store.tree tagged next.tree := by
  have hfree := h.free record.id (hids record hrecord) hnew
  have hproper := h.receives.proper record hrecord
  obtain ⟨parent, orphanOf, hplace⟩ :=
    exists_place h.wellFormed h.receives hrecord (h.admits hids hrecord hnew)
  have hcreates := creates_of_place h.wellFormed h.receives hrecord hplace
  refine (yields_applyIncoming_create h.wellFormed
    (by simpa using h.receives.apart record hrecord) hproper.deleted hfree
    (h.never record.id (hids record hrecord)) hplace.destination hcreates).imp ?_
  rintro - next ⟨tagged, filled, last, hcreated, hnamed, hmarked, -, -⟩
  refine ⟨parent, orphanOf, tagged, ?_⟩
  exact
    { place := hplace
      outside := by
        rintro _ ⟨⟩
        refine ⟨hplace.apart, ?_⟩
        rcases hplace.named with ⟨-, hname⟩ | ⟨-, rfl⟩
        · exact h.not_tag_of_named hids hrecord hname
        · rw [h.receives.roots.above RootId.unfiled (by decide)]
          decide
      tags := hcreated.tags
      kept := hcreated.kept
      row := (hcreated.details.trans hnamed).trans hmarked
      arrived := arrived_of_created h.wellFormed hproper hplace hcreates hcreated hnamed hmarked }

end Redrawing

namespace Made

variable {record : Record} {parent : Int} {orphanOf : Option String} {before tagged after : Tree}

theorem guid_row (h : Made record parent orphanOf before tagged after) {row : Row}
    (hrow : after.known? before.nextId = some row) : row.guid = record.id := by
  obtain ⟨_, hmarked⟩ := markedBy_eq (createdRow before record parent) orphanOf
  rw [← Option.some.inj (h.row.self.symm.trans hrow), hmarked, createdRow]

theorem draws (h : Made record parent orphanOf before tagged after) (hportable : record.Portable)
    {id : Int} {row : Row} (hrow : after.known? id = some row) (hguid : row.guid = record.id) :
    row.Draws record := by
  have hself := h.row.self
  obtain rfl := h.row.wellFormed.guid_inj id before.nextId row _ hrow hself
    (hguid.trans (h.guid_row hself).symm)
  rw [← Option.some.inj (hself.symm.trans hrow)]
  exact draws_markedBy (draws_createdRow hportable before parent) orphanOf

/-- What is left of a creation after the tags concerns no tag. -/
theorem sameTags_row (h : Made record parent orphanOf before tagged after) (uri : String) :
    SameTags tagged after uri := by
  obtain ⟨_, hmarked⟩ := markedBy_eq (createdRow before record parent) orphanOf
  obtain ⟨_, _, _, hcreated⟩ := createdRow_eq before record parent
  have hrow := h.row
  rw [hmarked, hcreated] at hrow
  exact hrow.sameTags h.kept rfl rfl rfl uri

/-- Only the tags of the record's own URI change. -/
theorem sameTags (h : Made record parent orphanOf before tagged after) (hwell : before.WellFormed)
    {uri : String} (hother : record.bmkUri ≠ some uri) (hheld : uri ≠ holdingUri) :
    SameTags before after uri := by
  have hnone : before.above? before.nextId = none := by
    rw [above?_eq_known?, hwell.known?_nextId]
    rfl
  have hplaced : SameTags before (before.inserted parent Places.atEnd record.itemType
      record.newTitle record.newUrl) uri := by
    refine sameTags_of_outside (hwell.known?_inserted _ _ _ _ _) ?_ h.outside uri
    rw [hnone]
    rintro _ ⟨⟩
  have hurl : record.newUrl ≠ some uri := by
    rw [Record.newUrl]
    split
    · exact hother
    · exact (Option.some_ne_none uri).symm
  exact (hplaced.trans (h.tags.sameTags hurl hheld)).trans (h.sameTags_row uri)

theorem taggedWith (h : Made record parent orphanOf before tagged after)
    (hportable : record.Portable) {uri : String} (huri : record.bmkUri = some uri) :
    after.TaggedWith uri (record.tags.getD []) := by
  have hproper := hportable.proper
  have hkind : record.kind = .bookmark := by
    by_contra hother
    rw [hproper.no_uri hother] at huri
    contradiction
  have htype := Record.itemType_bookmark hkind
  have htags := h.tags
  rw [Record.newUrl, Record.newTags, htype, huri] at htags
  obtain ⟨tags, hgiven⟩ := hportable.exists_tags hkind
  obtain ⟨hnodup, hnames⟩ := hportable.tags tags hgiven
  rw [hgiven] at htags ⊢
  exact (h.sameTags_row uri).taggedWith
    (htags.taggedWith (fun heq => hportable.held (huri.trans (congrArg some heq))) hnodup hnames)

/-- Whatever else is there afterwards was there before or belongs to a tag. -/
theorem old_or_new (h : Made record parent orphanOf before tagged after)
    (hwell : before.WellFormed) {id : Int} {row : Row} (hrow : after.known? id = some row)
    (hne : id ≠ before.nextId) : before.known? id = some row ∨
      before.nextId ≤ id ∧ row.annotations = [] ∧ ∃ parent, row.parent = some parent ∧
        (parent = RootId.tags ∨ after.above? parent = some RootId.tags) := by
  have hplaced := h.arrived.placed_wellFormed
  rw [h.row.of_ne hne] at hrow
  rcases (h.tags.retagged hplaced).new id row hrow with hold | hnew
  · rw [hwell.known?_inserted, if_neg hne] at hold
    exact .inl hold
  · refine .inr ⟨?_, hnew.annotations, ?_⟩
    · have hle := hnew.nextId_le
      rw [nextId_inserted] at hle
      omega
    · obtain ⟨folder, hfolder, hplace⟩ := hnew.parent
      refine ⟨folder, hfolder, hplace.imp_right fun hup => ?_⟩
      have hfolderNe : folder ≠ before.nextId := by
        rintro rfl
        rw [above?_of_known? h.kept] at hup
        exact (h.outside parent rfl).1 (Option.some.inj hup)
      rw [above?_eq_known?, h.row.of_ne hfolderNe, ← above?_eq_known?, hup]

/-- A tag that something is still in is where it was. -/
theorem above?_of_old (h : Made record parent orphanOf before tagged after)
    (hwell : before.WellFormed) {id folder : Int} {row : Row} (hrow : after.known? id = some row)
    (hfolder : row.parent = some folder) {up : Int} (hup : before.above? folder = some up) :
    after.above? folder = some up := by
  obtain ⟨found, hfound, hparent⟩ := known?_of_above? hup
  have hlt := (hwell.id_bounds folder found hfound).2
  obtain ⟨place, hplace, -⟩ :=
    h.row.wellFormed.parent_folder id folder ((above?_of_known? hrow).trans hfolder)
  rcases h.old_or_new hwell hplace hlt.ne with hold | ⟨hle, -⟩
  · rw [hfound] at hold
    rw [above?_of_known? hplace, ← Option.some.inj hold, hparent]
  · exact absurd hlt hle.not_gt

end Made

namespace Redrawing

section OfMade

variable {guids : List String} {records done : List Record} {record : Record} {parent : Int}
  {orphanOf : Option String} {before tagged after : Tree}
  (h : Redrawing guids records done before)
  (hmade : Made record parent orphanOf before tagged after)

include h hmade

/-- An item that has arrived before has kept its row. -/
theorem draws_of_done (hnew : record.id ∉ done.map (·.id)) {other : Record} (hother : other ∈ done)
    {id : Int} {row : Row} (hrow : after.known? id = some row) (hguid : row.guid = other.id) :
    row.Draws other := by
  obtain ⟨item, found, hsettled⟩ := h.settled other hother
  have hne : other.id ≠ record.id := fun heq => hnew (heq ▸ List.mem_map_of_mem hother)
  have hkept := (hmade.arrived.settled_of_settled h.wellFormed h.receives (h.known other hother)
    hne hsettled).known?
  obtain rfl := hmade.row.wellFormed.guid_inj item id found row hkept hrow
    (hsettled.guid.trans hguid.symm)
  obtain rfl := Option.some.inj (hkept.symm.trans hrow)
  exact h.draws other hother item found hsettled.known? hguid

/-- The URI of the record has the tags of the record, and with them those of every record of the
same URI; the tags of other URIs stay. -/
theorem tagged_of_made (hrecords : Record.Consistent records) (hrecord : record ∈ records)
    {other : Record} (hother : other ∈ done ∨ other = record) {uri : String}
    (huri : other.bmkUri = some uri) : after.TaggedWith uri (other.tags.getD []) := by
  have hotherRecord : other ∈ records := by
    rcases hother with hdone | rfl
    · exact h.known other hdone
    · exact hrecord
  by_cases hsame : record.bmkUri = some uri
  · rw [hrecords.agreed other hotherRecord record hrecord (huri.trans hsame.symm)]
    exact hmade.taggedWith (hrecords.portable record hrecord) hsame
  · have hdone : other ∈ done := hother.resolve_right fun heq => hsame (heq ▸ huri)
    refine (hmade.sameTags h.wellFormed hsame ?_).taggedWith (h.tagged other hdone uri huri)
    rintro rfl
    exact (hrecords.portable other hotherRecord).held huri

theorem others_of_made {id : Int} {row : Row} (hrow : after.known? id = some row)
    (hdone : row.guid ∉ done.map (·.id)) (hother : row.guid ≠ record.id) :
    row.annotations = [] ∧ (row.guid ∈ RootGuid.all ∨ ∃ folder, row.parent = some folder ∧
      (folder = RootId.tags ∨ after.above? folder = some RootId.tags)) := by
  have hwell := h.wellFormed
  have hne : id ≠ before.nextId := by
    rintro rfl
    exact hother (hmade.guid_row hrow)
  rcases hmade.old_or_new hwell hrow hne with hold | ⟨-, hannotations, hplace⟩
  · obtain ⟨hannotations, hplace⟩ := h.others id row hold hdone
    refine ⟨hannotations, hplace.imp_right ?_⟩
    rintro ⟨folder, hfolder, hup⟩
    exact ⟨folder, hfolder, hup.imp_right (hmade.above?_of_old hwell hrow hfolder)⟩
  · exact ⟨hannotations, .inr hplace⟩

theorem free_of_made {guid : String} (hguid : guid ∈ guids) (hdone : guid ∉ done.map (·.id))
    (hother : guid ≠ record.id) : after.idOfGuid? guid = none := by
  rw [hmade.row.wellFormed.idOfGuid?_eq_none_iff]
  rintro id row hrow rfl
  have hne : id ≠ before.nextId := by
    rintro rfl
    exact hother (hmade.guid_row hrow)
  rcases hmade.arrived.new hne hrow with hold | ⟨hle, count, hcount⟩
  · exact h.wellFormed.idOfGuid?_eq_none_iff.mp (h.free row.guid hguid hdone) id row hold rfl
  · exact h.never row.guid hguid id hle count hcount.symm

theorem of_made (hrecords : Record.Consistent records) (hrecord : record ∈ records)
    (hnew : record.id ∉ done.map (·.id)) :
    Redrawing guids records (done ++ [record]) after := by
  have hsettling := h.of_arrived h.known hrecord hmade.arrived
  have hmem : ∀ other ∈ done ++ [record], other ∈ done ∨ other = record := by
    simp
  have houtside : ∀ {guid : String}, guid ∉ (done ++ [record]).map (·.id) →
      guid ∉ done.map (·.id) ∧ guid ≠ record.id := by
    simp
  constructor
  case toSettling => exact hsettling
  case toDrawn =>
    constructor
    case draws =>
      intro other hother id row hrow hguid
      rcases hmem other hother with hdone | rfl
      · exact h.draws_of_done hmade hnew hdone hrow hguid
      · exact hmade.draws (hrecords.portable _ hrecord) hrow hguid
    case tagged =>
      exact fun other hother uri huri =>
        h.tagged_of_made hmade hrecords hrecord (hmem other hother) huri
    case others =>
      intro id row hrow hguid
      obtain ⟨hdone, hother⟩ := houtside hguid
      exact h.others_of_made hmade hrow hdone hother
  case known =>
    intro other hother
    rcases hmem other hother with hdone | rfl
    · exact h.known other hdone
    · exact hrecord
  case free =>
    intro guid hguid hfresh
    obtain ⟨hdone, hother⟩ := houtside hfresh
    exact h.free_of_made hmade hguid hdone hother
  case never =>
    intro guid hguid
    exact (h.never guid hguid).mono hmade.arrived.guids_eq hmade.arrived.nextId_le

end OfMade

variable {guids : List String} {records done : List Record}

/-- A record that is awaited arrives. -/
theorem step {store : BookmarkStore} (h : Redrawing guids records done store.tree)
    (hids : ∀ record ∈ records, record.id ∈ guids) (hrecords : Record.Consistent records)
    {record : Record} (hrecord : record ∈ records) (hnew : record.id ∉ done.map (·.id)) :
    (applyIncoming record).Yields store fun _ next =>
      Redrawing guids records (done ++ [record]) next.tree := by
  refine (h.yields_made hids hrecord hnew).imp ?_
  rintro - next ⟨parent, orphanOf, tagged, hmade⟩
  exact h.of_made hmade hrecords hrecord hnew

end Redrawing

/-- A deletion of what is not there changes nothing. -/
theorem yields_applyIncoming_tombstone {store : BookmarkStore} {guid : String}
    (hroot : guid ∉ RootGuid.all) (hfree : store.tree.idOfGuid? guid = none) :
    (applyIncoming (Record.tombstone guid)).Yields store fun _ next => next.tree = store.tree := by
  have hremove : Leads (bringIn (Record.tombstone guid) none) store.tree fun _ next =>
      next = store.tree := by
    rw [bringIn, if_pos (show (Record.tombstone guid).deleted = true from rfl)]
    refine leads_look_bind ?_
    rw [show store.tree.idOfGuid? (Record.tombstone guid).id = none from hfree]
    exact leads_pure rfl
  rw [applyIncoming_eq (by simpa [Record.tombstone] using hroot), localized,
    if_neg (by simp [Record.tombstone]), pure_bind]
  refine (yields_read (P := fun place state => place = (none, none) ∧ store = state)
    ⟨rfl, rfl⟩).bind ?_
  rintro _ _ ⟨rfl, rfl⟩
  refine Yields.bind (hremove store rfl) ?_
  rintro - state ⟨htree, -, -⟩
  refine (yields_change (P := fun _ next => next = state.forget guid) rfl).bind ?_
  rintro - - rfl
  refine (yields_read (P := fun found next => found = none ∧ next = state.forget guid)
    ⟨?_, rfl⟩).bind ?_
  · change state.tree.idOfGuid? guid = none
    rw [htree, hfree]
  · rintro _ _ ⟨rfl, rfl⟩
    exact yields_pure htree

/-! ### The beginning -/

theorem exists_root_of_fresh {source : GuidSource} {id : Int} {row : Row}
    (hrow : (Tree.fresh source).known? id = some row) :
    ∃ guid parent title, (id, guid) ∈ rootNames ∧ row = root id guid parent 0 title := by
  obtain ⟨found, hmem, rfl, rfl⟩ := exists_mem_of_known? hrow
  rcases mem_fresh_iff.mp hmem with rfl | rfl | rfl | rfl | rfl <;>
    exact ⟨_, _, _, by decide, rfl⟩

theorem rootsInPlace_fresh (source : GuidSource) : (Tree.fresh source).RootsInPlace where
  named := by
    intro id guid hmem
    simp only [rootNames, List.mem_cons, Prod.mk.injEq, List.not_mem_nil, or_false] at hmem
    rcases hmem with ⟨rfl, rfl⟩ | ⟨rfl, rfl⟩ | ⟨rfl, rfl⟩ | ⟨rfl, rfl⟩ | ⟨rfl, rfl⟩ <;> rfl
  above := by
    intro id hmem
    simp only [List.mem_cons, List.not_mem_nil, or_false] at hmem
    rcases hmem with rfl | rfl | rfl | rfl <;> rfl

/-- A fresh tree awaits all records. -/
theorem redrawing_fresh {source : GuidSource} {guids : List String} {records : List Record}
    (hrecords : Record.Consistent records) (hids : ∀ record ∈ records, record.id ∈ guids)
    (hroots : ∀ guid ∈ guids, guid ∉ RootGuid.all)
    (hnever : ∀ guid ∈ guids, (Tree.fresh source).NeverMakes guid) :
    Redrawing guids records [] (Tree.fresh source) := by
  have hwell := wellFormed_fresh source
  have hguid : ∀ id row, (Tree.fresh source).known? id = some row →
      row.guid ∈ RootGuid.all ∧ row.annotations = [] := by
    intro id row hrow
    obtain ⟨guid, parent, title, hmem, rfl⟩ := exists_root_of_fresh hrow
    exact ⟨mem_all_of_rootNames hmem, rfl⟩
  constructor
  case toSettling =>
    constructor
    case wellFormed => exact hwell
    case receives =>
      constructor
      case toOrderly => exact hrecords.toOrderly
      case roots => exact rootsInPlace_fresh source
      case same_type =>
        intro record hrecord id row hrow hname
        exact absurd (hname ▸ (hguid id row hrow).1) (hrecords.apart record hrecord)
      case never_made => exact fun record hrecord => hnever record.id (hids record hrecord)
    case rootsSettled =>
      intro root _
      rw [annotationOf?_eq_known?, Option.bind_eq_none_iff]
      intro row hrow
      rw [Row.annotationOf?, (hguid root row hrow).2]
      rfl
    case settled => exact fun _ hmem => absurd hmem List.not_mem_nil
  case toDrawn =>
    constructor
    case draws => exact fun _ hmem => absurd hmem List.not_mem_nil
    case tagged => exact fun _ hmem => absurd hmem List.not_mem_nil
    case others =>
      intro id row hrow _
      exact ⟨(hguid id row hrow).2, .inl (hguid id row hrow).1⟩
  case known => exact fun _ hmem => absurd hmem List.not_mem_nil
  case free =>
    intro guid hmem _
    rw [hwell.idOfGuid?_eq_none_iff]
    rintro id row hrow rfl
    exact hroots row.guid hmem (hguid id row hrow).1
  case never => exact hnever

end BookmarkStore

end SyncedBookmarks
