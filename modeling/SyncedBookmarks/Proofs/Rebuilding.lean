import SyncedBookmarks.Proofs.Redrawing

namespace SyncedBookmarks

/-! Once all records have arrived and the orphans are moved, what is synced in the tree is what the
records tell of, and the tree tells the same of it. -/

namespace Row

theorem Draws.url {row : Row} {record : Record} (h : row.Draws record)
    (hcode : row.typeCode = ItemType.bookmark.code) : record.bmkUri = some (row.url.getD "") := by
  have hsame := congrArg Record.bmkUri (h.record_eq "")
  rw [Row.record, ownRecord, if_pos hcode] at hsame
  exact hsame.symm

theorem Draws.feed {row : Row} {record : Record} (h : row.Draws record)
    (hcode : row.typeCode = ItemType.folder.code) (hkind : record.kind = .folder) :
    row.annotationOf? AnnotationName.feedUri = none := by
  have hsame := congrArg Record.kind (h.record_eq "")
  rw [Row.record, ownRecord, if_neg (by rw [hcode]; decide), if_pos hcode] at hsame
  by_contra hfeed
  rw [if_pos (Option.isSome_iff_ne_none.mpr hfeed)] at hsame
  cases hsame.trans hkind

theorem record_of_ne {row : Row} (hcode : row.typeCode ≠ ItemType.bookmark.code)
    (tags other : List String) (parent : String) :
    row.record tags parent = row.record other parent := by
  rw [record, ownRecord, if_neg hcode, record, ownRecord, if_neg hcode]

end Row

namespace Tree

/-- Whether what is synced in a tree is what some records tell of, and the tree tells the same. -/
structure Mirrors (tree : Tree) (records : List Record) : Prop where
  lists : tree.Lists (records.map (·.id))
  tells : ∀ record ∈ records, tree.Tells record.id
  answer : ∀ record ∈ records, tree.answer record.id = record

end Tree

namespace BookmarkStore

open SyncedBookmarks.Action SyncedBookmarks.Tree

/-- What holds while the orphans are gone through: all that waits is a record's item. -/
structure Regathering (records : List Record) (orphans : List (Int × String)) (tree : Tree) :
    Prop extends Drawn records tree where
  roots : tree.RootsInPlace
  recorded : ∀ orphan ∈ orphans, ∃ record ∈ records, tree.guidOf? orphan.1 = some record.id

namespace Gathering

variable {records : List Record} {orphans : List (Int × String)} {tree : Tree}

theorem parent_ne_tags (h : Gathering records orphans tree) (hrecords : Record.Orderly records)
    {record : Record} (hrecord : record ∈ records) {id : Int} {row : Row}
    (hrow : tree.known? id = some row) (hguid : row.guid = record.id) :
    row.parent ≠ some RootId.tags := by
  obtain ⟨item, found, hfound, hfoundGuid, -, hplace⟩ := h.gathered record hrecord
  obtain rfl := h.wellFormed.guid_inj item id found row hfound hrow (hfoundGuid.trans hguid.symm)
  obtain rfl := Option.some.inj (hfound.symm.trans hrow)
  rcases hplace with ⟨-, parent, hparent, hname⟩ | ⟨hunfiled, -⟩
  · rw [hparent]
    exact fun heq => hrecords.ne_tags_of_named h.named hrecord hname (Option.some.inj heq)
  · rw [hunfiled]
    decide

/-- The folder that a record names is neither the root for tags nor a tag. -/
theorem outside_of_named (h : Gathering records orphans tree) (hrecords : Record.Orderly records)
    {record : Record} (hrecord : record ∈ records) {parent : Int}
    (hname : tree.guidOf? parent = record.parentid) : tree.OutsideTags (some parent) := by
  rintro _ ⟨⟩
  refine ⟨hrecords.ne_tags_of_named h.named hrecord hname, ?_⟩
  obtain ⟨guid, hguid, hnamed⟩ := hrecords.named record hrecord
  rw [hguid, guidOf?_eq_known?, Option.map_eq_some_iff] at hname
  obtain ⟨row, hrow, rfl⟩ := hname
  rcases hnamed with hroot | ⟨folder, hfolder, -, hid⟩
  · obtain ⟨root, hmem, hrootName⟩ := exists_synced hroot
    rw [h.named.eq_of_guid h.wellFormed hrootName hrow rfl, (h.above root hmem).2]
    decide
  · rw [above?_of_known? hrow]
    exact h.parent_ne_tags hrecords hfolder hrow hid.symm

end Gathering

namespace Regathering

variable {records : List Record}

theorem of_moved {id : Int} {mark : String} {rest : List (Int × String)} {before after : Tree}
    (h : Regathering records ((id, mark) :: rest) before)
    (hgathering : Gathering records ((id, mark) :: rest) before)
    (hrecords : Record.Consistent records) {row : Row} (hrow : before.known? id = some row)
    {parent : Int} (hparent : before.idOfGuid? (intendedParent mark) = some parent)
    (hmoved : Rewritten id
      ({ row with parent := some parent }.unannotate AnnotationName.intendedParent) before after) :
    Regathering records rest after := by
  have hwell := hgathering.wellFormed
  obtain ⟨own, hown, hownName⟩ := h.recorded (id, mark) List.mem_cons_self
  rw [guidOf?_eq_known?, hrow, Option.map_some, Option.some.injEq] at hownName
  obtain ⟨hunfiled, hgiven⟩ := hgathering.waits_of_head hown hrow hownName
  have hguids := guidOf?_of_rewritten hmoved hrow rfl
  have hsame : ∀ uri, SameTags before after uri := by
    refine sameTags_of_outside hmoved.known? ?_ ?_
    · rw [above?_of_known? hrow, hunfiled]
      rintro _ ⟨⟩
      rw [h.roots.above RootId.unfiled (by decide)]
      exact ⟨by decide, by decide⟩
    · refine hgathering.outside_of_named hrecords.toOrderly hown ?_
      obtain ⟨folder, hfolder, hname⟩ := hwell.idOfGuid?_iff.mp hparent
      rw [guidOf?_eq_known?, hfolder, Option.map_some, hname, hgiven]
  constructor
  case toDrawn =>
    constructor
    case draws =>
      intro record hrecord item found hfound hguid
      rw [hmoved.known?] at hfound
      split at hfound
      · obtain rfl := Option.some.inj hfound
        refine (h.draws record hrecord id row hrow hguid).of_same rfl rfl rfl rfl rfl ?_
        intro name hne
        rw [Row.annotationOf?_unannotate, if_neg hne]
        rfl
      · exact h.draws record hrecord item found hfound hguid
    case tagged =>
      intro record hrecord uri huri
      exact (hsame uri).taggedWith (h.tagged record hrecord uri huri)
    case others =>
      intro item found hfound hguid
      rw [hmoved.known?] at hfound
      split at hfound
      · obtain rfl := Option.some.inj hfound
        exact absurd (List.mem_map.mpr ⟨own, hown, hownName.symm⟩) hguid
      · obtain ⟨hannotations, hplace⟩ := h.others item found hfound hguid
        refine ⟨hannotations, hplace.imp_right ?_⟩
        rintro ⟨folder, hfolder, hup⟩
        refine ⟨folder, hfolder, hup.imp_right fun hup => ?_⟩
        have hne : folder ≠ id := by
          rintro rfl
          rw [above?_of_known? hrow, hunfiled] at hup
          exact absurd hup (by decide)
        rw [above?_eq_known?, hmoved.of_ne hne, ← above?_eq_known?, hup]
  case roots =>
    refine ⟨fun root guid hmem => (hguids root).trans (h.roots.named root guid hmem), ?_⟩
    intro root hroot
    obtain ⟨guid, hmem⟩ := exists_rootName hroot
    have hne : id ≠ root :=
      h.roots.named.ne_of_guid hmem hrow (hownName ▸ hrecords.apart own hown)
    rw [above?_eq_known?, hmoved.of_ne hne.symm, ← above?_eq_known?]
    exact h.roots.above root hroot
  case recorded =>
    intro orphan horphan
    obtain ⟨record, hrecord, hname⟩ := h.recorded orphan (List.mem_cons_of_mem _ horphan)
    exact ⟨record, hrecord, (hguids orphan.1).trans hname⟩

/-! ### In the end -/

section Gathered

variable {tree : Tree} (h : Regathering records [] tree) (hgathering : Gathering records [] tree)
  (hrecords : Record.Consistent records)

include hgathering in
/-- The item of a record is in the folder that the record names. -/
theorem home {record : Record} (hrecord : record ∈ records) {id : Int} {row : Row}
    (hrow : tree.known? id = some row) (hguid : row.guid = record.id) :
    row.typeCode = record.itemType.code ∧
      ∃ parent, row.parent = some parent ∧ tree.guidOf? parent = record.parentid := by
  obtain ⟨item, found, hfound, hfoundGuid, hcode, hplace⟩ := hgathering.gathered record hrecord
  obtain rfl := hgathering.wellFormed.guid_inj item id found row hfound hrow
    (hfoundGuid.trans hguid.symm)
  obtain rfl := Option.some.inj (hfound.symm.trans hrow)
  rcases hplace with ⟨-, hhome⟩ | ⟨-, _, -, hmem⟩
  · exact ⟨hcode, hhome⟩
  · exact absurd hmem List.not_mem_nil

include h hgathering hrecords

theorem told {record : Record} (hrecord : record ∈ records) :
    tree.Tells record.id ∧ tree.answer record.id = record := by
  have hwell := hgathering.wellFormed
  have hportable := hrecords.portable record hrecord
  obtain ⟨guid, hgiven, -⟩ := hrecords.named record hrecord
  have hparent : ∀ id row, tree.known? id = some row → row.guid = record.id →
      row.parent.bind tree.guidOf? = some guid := by
    intro id row hrow hguid
    obtain ⟨-, parent, hup, hname⟩ := home hgathering hrecord hrow hguid
    rw [hup, Option.bind_some, hname, hgiven]
  refine ⟨fun id row hrow hguid =>
    ⟨(h.draws record hrecord id row hrow hguid).plain, guid, hparent id row hrow hguid⟩, ?_⟩
  obtain ⟨id, row, hrow, hguid, -⟩ := hgathering.gathered record hrecord
  have hdraws := h.draws record hrecord id row hrow hguid
  have htags : row.record (tree.tagsFor (row.url.getD "")) guid =
      row.record (record.tags.getD []) guid := by
    by_cases hcode : row.typeCode = ItemType.bookmark.code
    · have hsound := hwell.sound id row hrow
      obtain ⟨uri, huri⟩ := Option.isSome_iff_exists.mp (hsound.url_iff.mpr hcode)
      have hgivenUri := hdraws.url hcode
      rw [huri, Option.getD_some] at hgivenUri ⊢
      rw [hwell.tagsFor_eq (hsound.url_valid uri huri) (h.tagged record hrecord uri hgivenUri),
        hportable.sorted_tags]
    · exact Row.record_of_ne hcode _ _ guid
  rw [answer, ← hguid, portrait?_of_known? hwell hrow (hparent id row hrow hguid),
    Option.getD_some, htags, hdraws.record_eq, ← hgiven]

theorem not_livemark_root {root : Int} {guid : String} (hmem : (root, guid) ∈ rootNames) :
    tree.isLivemark root = false := by
  have hname := hgathering.named root guid hmem
  rw [guidOf?_eq_known?, Option.map_eq_some_iff] at hname
  obtain ⟨row, hrow, rfl⟩ := hname
  have hapart : row.guid ∉ records.map (·.id) := by
    intro hlisted
    obtain ⟨record, hrecord, heq⟩ := List.mem_map.mp hlisted
    exact hrecords.apart record hrecord (heq ▸ mem_all_of_rootNames hmem)
  rw [isLivemark, isAnnotated, annotationOf?_eq_known?, hrow, Option.bind_some, Row.annotationOf?,
    (h.others root row hrow hapart).1]
  rfl

/-- What is a record's item is synced. -/
theorem synced_of_climb (steps : Nat) {record : Record} (hrecord : record ∈ records) {id : Int}
    {row : Row} (hrow : tree.known? id = some row) (hguid : row.guid = record.id)
    (hsteps : tree.climb steps id = some RootId.places) : tree.Synced id := by
  have hwell := hgathering.wellFormed
  induction steps generalizing record id row with
  | zero =>
      exact absurd (Option.some.inj hsteps) (hgathering.named.ne_of_guid places_mem_rootNames hrow
        (hguid ▸ hrecords.apart record hrecord))
  | succ steps ih =>
      obtain ⟨-, parent, hparent, hname⟩ := home hgathering hrecord hrow hguid
      have habove : tree.above? id = some parent := (above?_of_known? hrow).trans hparent
      rw [climb_succ, habove, Option.bind_some] at hsteps
      obtain ⟨guid, hgiven, hnamed⟩ := hrecords.named record hrecord
      rw [hgiven, guidOf?_eq_known?, Option.map_eq_some_iff] at hname
      obtain ⟨folder, hfolder, rfl⟩ := hname
      rcases hnamed with hroot | ⟨above, habove', hkind, hid⟩
      · obtain ⟨root, -, hrootName⟩ := Gathering.exists_synced hroot
        obtain rfl := hgathering.named.eq_of_guid hwell hrootName hfolder rfl
        exact .child ⟨folder.guid, hroot, hwell.idOfGuid?_iff.mpr ⟨folder, hfolder, rfl⟩⟩
          (h.not_livemark_root hgathering hrecords hrootName) habove
      · refine .deeper (ih habove' hfolder hid.symm hsteps) ?_ habove
        obtain ⟨hcode, -⟩ := home hgathering habove' hfolder hid.symm
        rw [Record.itemType_folder hkind] at hcode
        rw [isLivemark, isAnnotated, annotationOf?_eq_known?, hfolder, Option.bind_some,
          (h.draws above habove' parent folder hfolder hid.symm).feed hcode hkind]
        rfl

/-- What is synced is a record's item. -/
theorem recorded_of_synced {id : Int} (hsynced : tree.Synced id) :
    ∃ row, tree.known? id = some row ∧ row.guid ∈ records.map (·.id) := by
  have hwell := hgathering.wellFormed
  have hfound : ∀ {id parent : Int}, tree.Synced id → tree.above? id = some parent →
      tree.OutsideTags (some parent) →
      ∃ row, tree.known? id = some row ∧ row.guid ∈ records.map (·.id) := by
    intro id parent hsynced habove houtside
    obtain ⟨row, hrow, hparent⟩ := known?_of_above? habove
    refine ⟨row, hrow, ?_⟩
    by_contra hother
    obtain ⟨-, hroot | ⟨folder, hfolder, hplace⟩⟩ := h.others id row hrow hother
    · exact hsynced.guid_notMem hwell h.roots hrow hroot
    · obtain rfl := Option.some.inj (hparent.symm.trans hfolder)
      obtain ⟨hne, hup⟩ := houtside parent rfl
      rcases hplace with heq | hplace
      · exact hne heq
      · exact hup hplace
  induction hsynced with
  | child hroot hopen habove =>
      refine hfound (.child hroot hopen habove) habove ?_
      obtain ⟨guid, hguid, hid⟩ := hroot
      obtain ⟨root, hmem, hrootName⟩ := Gathering.exists_synced hguid
      obtain ⟨row, hrow, hname⟩ := hwell.idOfGuid?_iff.mp hid
      rw [hgathering.named.eq_of_guid hwell hrootName hrow hname]
      rintro _ ⟨⟩
      rw [(hgathering.above root hmem).2]
      refine ⟨?_, by decide⟩
      rintro rfl
      exact absurd hmem (by decide)
  | deeper hparent hopen habove ih =>
      refine hfound (.deeper hparent hopen habove) habove ?_
      obtain ⟨folder, hfolder, hlisted⟩ := ih
      obtain ⟨record, hrecord, hname⟩ := List.mem_map.mp hlisted
      rintro _ ⟨⟩
      refine ⟨?_, ?_⟩
      · exact hgathering.named.ne_of_guid tags_mem_rootNames hfolder
          (hname ▸ hrecords.apart record hrecord)
      · rw [above?_of_known? hfolder]
        exact hgathering.parent_ne_tags hrecords.toOrderly hrecord hfolder hname.symm

/-- In the end the tree tells what the records do. -/
theorem mirrors : tree.Mirrors records where
  lists := by
    intro guid
    constructor
    · intro hlisted
      obtain ⟨record, hrecord, rfl⟩ := List.mem_map.mp hlisted
      obtain ⟨id, row, hrow, hguid, -⟩ := hgathering.gathered record hrecord
      obtain ⟨steps, hsteps⟩ := hgathering.wellFormed.rooted id row hrow
      refine ⟨id, h.synced_of_climb hgathering hrecords steps hrecord hrow hguid hsteps, ?_⟩
      rw [guidOf?_eq_known?, hrow, Option.map_some, hguid]
    · rintro ⟨id, hsynced, hname⟩
      obtain ⟨row, hrow, hlisted⟩ := h.recorded_of_synced hgathering hrecords hsynced
      rw [guidOf?_eq_known?, hrow, Option.map_some, Option.some.injEq] at hname
      exact hname ▸ hlisted
  tells := fun record hrecord => (h.told hgathering hrecords hrecord).1
  answer := fun record hrecord => (h.told hgathering hrecords hrecord).2

end Gathered

end Regathering

/-- Once all records have arrived, the orphans among their items are all that waits. -/
theorem Redrawing.regathering {guids : List String} {records done : List Record} {tree : Tree}
    (h : Redrawing guids records done tree) (hall : ∀ record ∈ records, record ∈ done) :
    Regathering records (tree.annotated AnnotationName.intendedParent) tree := by
  have hids : ∀ guid, guid ∉ records.map (·.id) → guid ∉ done.map (·.id) := by
    intro guid hother hdone
    obtain ⟨record, hrecord, rfl⟩ := List.mem_map.mp hdone
    exact hother (List.mem_map_of_mem (h.known record hrecord))
  constructor
  case toDrawn =>
    exact ⟨fun record hrecord => h.draws record (hall record hrecord),
      fun record hrecord => h.tagged record (hall record hrecord),
      fun id row hrow hother => h.others id row hrow (hids row.guid hother)⟩
  case roots => exact h.receives.roots
  case recorded =>
    rintro ⟨id, mark⟩ horphan
    obtain ⟨row, hrow, hmark⟩ := (mem_annotated_iff h.wellFormed).mp horphan
    have hlisted : row.guid ∈ done.map (·.id) := by
      by_contra hother
      rw [Row.annotationOf?, (h.others id row hrow hother).1] at hmark
      contradiction
    obtain ⟨record, hrecord, hname⟩ := List.mem_map.mp hlisted
    exact ⟨record, h.known record hrecord,
      by rw [guidOf?_eq_known?, hrow, Option.map_some, hname]⟩

/-- Moving the orphans completes the picture. -/
theorem yields_reparentOrphans_mirrors {guids : List String} {records done : List Record}
    {store : BookmarkStore} (h : Redrawing guids records done store.tree)
    (hrecords : Record.Consistent records) (hall : ∀ record ∈ records, record ∈ done) :
    reparentOrphans.Yields store fun _ last => last.tree.Mirrors records := by
  have hmoves := yields_reparentAll hrecords.toOrderly (P := Regathering records)
    (fun _ _ _ _ _ _ _ hgathering hrow hparent hmoved hregathering =>
      hregathering.of_moved hgathering hrecords hrow hparent hmoved)
    (fun _ _ _ hregathering =>
      ⟨hregathering.toDrawn, hregathering.roots,
        fun orphan horphan => hregathering.recorded orphan (List.mem_cons_of_mem _ horphan)⟩)
    _ store (h.gathering hall) (h.regathering hall)
  refine (yields_read (P := fun orphans state =>
    orphans = store.tree.annotated AnnotationName.intendedParent ∧ store = state) ⟨rfl, rfl⟩).bind ?_
  rintro _ _ ⟨rfl, rfl⟩
  exact hmoves.imp fun _ _ hlast => hlast.1.2.mirrors hlast.1.1 hrecords

end BookmarkStore

end SyncedBookmarks
