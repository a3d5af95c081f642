import SyncedBookmarks.Proofs.OwnItem
import SyncedBookmarks.Proofs.Redrawing
import SyncedBookmarks.Proofs.FolderOrder

namespace SyncedBookmarks

/-! An item that is made from a record, in whatever tree, gives the record back. -/

namespace Tree

variable {tree before after : Tree} {id folder : Int}

theorem Undisturbed.mono {still fewer own : Int → Prop} (h : Undisturbed still own before after)
    (hfewer : ∀ id, fewer id → still id) : Undisturbed fewer own before after where
  there := fun id hid => h.there id (hfewer id hid)
  above? := fun id hid => h.above? id (hfewer id hid)
  known? := fun id hid => h.known? id (hfewer id hid)
  ahead := fun id other hid => h.ahead id other (hfewer id hid)
  loose := fun id hid => h.loose id (hfewer id hid)

/-- A new item behind others that are as they were. -/
theorem forest_eq_append {own : Int → Prop}
    (h : Undisturbed (fun other => before.above? other = some folder) own before after)
    (hbefore : before.WellFormed) (hafter : after.WellFormed)
    (hnew : before.above? id ≠ some folder)
    (habove : ∀ other, after.above? other = some folder ↔
      before.above? other = some folder ∨ other = id) :
    after.forest folder = before.forest folder ++ [id] := by
  have hahead : ∀ other ∈ before.forest folder, after.Precedes other id := by
    intro other hother
    have hfolder := hbefore.orderly.mem_forest_iff.mp hother
    have hne : other ≠ id := by
      rintro rfl
      exact hnew hfolder
    refine (hafter.precedes_or_precedes hne ((habove other).mpr (.inl hfolder))
      ((habove id).mpr (.inr rfl))).resolve_right fun hback => ?_
    exact hnew ((h.ahead other id hfolder hback).above?_eq.trans hfolder)
  apply eq_of_pairwise_precedes (hafter.orderly.pairwise_forest folder)
  · refine List.pairwise_append.mpr ⟨?_, List.pairwise_singleton _ _, ?_⟩
    · refine (hbefore.orderly.pairwise_forest folder).imp_of_mem ?_
      intro first second hfirst hsecond hprecedes
      exact (h.precedes_iff hafter (hbefore.orderly.mem_forest_iff.mp hsecond)
        (hbefore.orderly.mem_forest_iff.mp hfirst)).mpr hprecedes
    · intro other hother last hlast
      rw [List.mem_singleton.mp hlast]
      exact hahead other hother
  · intro other
    rw [hafter.orderly.mem_forest_iff, habove, List.mem_append, List.mem_singleton,
      hbefore.orderly.mem_forest_iff]

theorem rootsInPlace_of_all
    (hnamed : rootNames.all (fun root => tree.guidOf? root.1 == some root.2) = true)
    (habove : [RootId.menu, RootId.toolbar, RootId.tags, RootId.unfiled].all
      (fun root => tree.above? root == some RootId.places) = true) : tree.RootsInPlace where
  named := fun id guid hmem => eq_of_beq (List.all_eq_true.mp hnamed (id, guid) hmem)
  above := fun id hmem => eq_of_beq (List.all_eq_true.mp habove id hmem)

end Tree

namespace BookmarkStore

open SyncedBookmarks.Action SyncedBookmarks.Tree

namespace Made

variable {record : Record} {parent : Int} {orphanOf : Option String} {before tagged after : Tree}

/-- The way up from an item that was there is what it was. -/
theorem encloses_iff (h : Made record parent orphanOf before tagged after)
    (hwell : before.WellFormed) {ancestor id : Int} {row row' : Row}
    (hrow : before.known? id = some row) (hrow' : after.known? id = some row') :
    after.Encloses ancestor id ↔ before.Encloses ancestor id := by
  apply hwell.encloses_iff h.row.wellFormed ?_ hrow hrow'
  intro other found found' hfound hfound'
  have hlt := (hwell.id_bounds other found hfound).2
  rcases h.old_or_new hwell hfound' (by omega) with hold | ⟨hle, -⟩
  · exact Option.some.inj (hold.symm.trans hfound)
  · omega

end Made

/-- What has to hold for a record to be made an item of. -/
structure Awaits (store : BookmarkStore) (record : Record) (parent : Int) : Prop where
  roots : store.tree.RootsInPlace
  notRoot : record.id ∉ RootGuid.all
  free : store.tree.idOfGuid? record.id = none
  never : store.tree.NeverMakes record.id
  named : record.parentid.bind store.tree.idOfGuid? = some parent
  folder : store.tree.IsFolder parent
  apart : ¬ store.tree.Encloses RootId.tags parent

section Creation

variable {store : BookmarkStore} {record : Record} {parent : Int}

theorem Awaits.place (h : store.Awaits record parent) (hwell : store.tree.WellFormed) :
    Place store.tree record parent none where
  destination := by
    obtain ⟨guid, hguid, hparent⟩ := Option.bind_eq_some_iff.mp h.named
    rw [hguid, destination_of_known hparent]
  folder := h.folder
  outside := by
    intro id hid
    rw [h.free] at hid
    cases hid
  apart := by
    rintro rfl
    exact h.apart (Encloses.refl _ _)
  untagged := fun _ habove => h.apart ((Encloses.refl _ _).of_above? habove)
  named := by
    obtain ⟨guid, hguid, hparent⟩ := Option.bind_eq_some_iff.mp h.named
    obtain ⟨row, hrow, rfl⟩ := hwell.idOfGuid?_iff.mp hparent
    exact .inl ⟨rfl, by rw [hguid, guidOf?_eq_known?, hrow, Option.map_some]⟩

theorem Awaits.creates (h : store.Awaits record parent) (hwell : store.tree.WellFormed)
    (hproper : record.Proper) : Creates store.tree record parent where
  folder := h.folder
  kind := hproper.kind
  uri := hproper.uri
  tags := fun hkind _ _ => ⟨.inr (h.roots.named.isFolder_of_mem hwell tags_mem_rootNames),
    (h.place hwell).apart, (h.place hwell).untagged hkind⟩
  site := fun _ => hproper.site
  feed := by
    intro hkind
    obtain ⟨uri, huri⟩ := Option.isSome_iff_exists.mp (hproper.fed hkind)
    exact ⟨uri, huri, hproper.feed uri huri⟩

/-- An item is made of a record, and the record forgotten. -/
theorem yields_made (h : store.Awaits record parent) (hwell : store.tree.WellFormed)
    (hproper : record.Proper) :
    (applyIncoming record).Yields store fun _ next => next.cached? record.id = none ∧
      ∃ tagged, Made record parent none store.tree tagged next.tree := by
  have hplace := h.place hwell
  have hcreates := h.creates hwell hproper
  refine (yields_applyIncoming_create hwell (by simpa using h.notRoot) hproper.deleted h.free
    h.never hplace.destination hcreates).imp ?_
  rintro - next ⟨tagged, filled, last, hcreated, hnamed, hmarked, hcache, -⟩
  have hcached : next.cached? record.id = none := by
    rw [cached?, hcache]
    exact cached?_forget store record.id
  refine ⟨hcached, tagged, ?_⟩
  exact
    { place := hplace
      outside := by
        rintro _ ⟨⟩
        exact ⟨hplace.apart, fun habove => h.apart ((Encloses.refl _ _).of_above? habove)⟩
      tags := hcreated.tags
      kept := hcreated.kept
      row := (hcreated.details.trans hnamed).trans hmarked
      arrived := arrived_of_created hwell hproper hplace hcreates hcreated hnamed hmarked }

variable {tagged : Tree} {next : BookmarkStore}

theorem parent_markedBy_createdRow (tree : Tree) (record : Record) (parent : Int)
    (orphanOf : Option String) :
    ((createdRow tree record parent).markedBy orphanOf).parent = some parent := by
  obtain ⟨_, hmarked⟩ := markedBy_eq (createdRow tree record parent) orphanOf
  obtain ⟨_, _, _, hcreated⟩ := createdRow_eq tree record parent
  rw [hmarked, hcreated]
  rfl

theorem guid_markedBy_createdRow (tree : Tree) (record : Record) (parent : Int)
    (orphanOf : Option String) :
    ((createdRow tree record parent).markedBy orphanOf).guid = record.id := by
  obtain ⟨_, hmarked⟩ := markedBy_eq (createdRow tree record parent) orphanOf
  rw [hmarked, createdRow]

theorem Awaits.isApart (h : store.Awaits record parent) (hproper : record.Proper) {other : Int}
    {row : Row} (hrow : store.tree.known? other = some row)
    (houtside : ¬ store.tree.Below RootId.tags other) : store.tree.Apart record other where
  there := by rw [← isSome_known?, hrow, Option.isSome_some]
  other := by simp [h.free]
  outside := fun hdeleted => absurd hdeleted (by simp [hproper.deleted])
  untagged := houtside

/-- Beside the new item, there is outside the tags what there was. -/
theorem Awaits.others (h : store.Awaits record parent) (hwell : store.tree.WellFormed)
    (hproper : record.Proper) (hresult : ((applyIncoming record).result store).2 = next)
    (hmade : Made record parent none store.tree tagged next.tree) {other : Int}
    (hne : other ≠ store.tree.nextId) (row : Row) :
    (next.tree.known? other = some row ∧ ¬ next.tree.Below RootId.tags other) ↔
      store.tree.known? other = some row ∧ ¬ store.tree.Below RootId.tags other := by
  constructor
  · rintro ⟨hrow, houtside⟩
    rcases hmade.old_or_new hwell hrow hne with hold | ⟨-, -, folder, hfolder, hplace⟩
    · exact ⟨hold, fun hbelow =>
        houtside ⟨(hmade.encloses_iff hwell hold hrow).mpr hbelow.1, hbelow.2⟩⟩
    · refine absurd (Below.of_above? hmade.row.wellFormed
        ((above?_of_known? hrow).trans hfolder) ?_) houtside
      rcases hplace with rfl | habove
      · exact Encloses.refl _ _
      · exact (Encloses.refl _ _).of_above? habove
  · rintro ⟨hrow, houtside⟩
    have hkept := (leaves_applyIncoming hwell (bears_apart hwell)).known?
      (h.isApart hproper hrow houtside)
    rw [hresult] at hkept
    have hrow' := hkept.trans hrow
    exact ⟨hrow', fun hbelow =>
      houtside ⟨(hmade.encloses_iff hwell hrow hrow').mp hbelow.1, hbelow.2⟩⟩

/-- The folder of the new item is the one that there was. -/
theorem Awaits.parent_kept (h : store.Awaits record parent) (hwell : store.tree.WellFormed)
    (hproper : record.Proper) (hresult : ((applyIncoming record).result store).2 = next)
    (hmade : Made record parent none store.tree tagged next.tree) :
    ∃ row, store.tree.known? parent = some row ∧ next.tree.known? parent = some row ∧
      ¬ next.tree.Below RootId.tags parent := by
  obtain ⟨row, hrow, -⟩ := h.folder
  have hlt := (hwell.id_bounds parent row hrow).2
  have houtside : ¬ store.tree.Below RootId.tags parent := fun hbelow => h.apart hbelow.1
  obtain ⟨hrow', hplace⟩ :=
    (h.others hwell hproper hresult hmade (by omega) row).mpr ⟨hrow, houtside⟩
  exact ⟨row, hrow, hrow', hplace⟩

/-- The new item is the last in its folder. -/
theorem Awaits.forest_eq (h : store.Awaits record parent) (hwell : store.tree.WellFormed)
    (hproper : record.Proper) (hresult : ((applyIncoming record).result store).2 = next)
    (hmade : Made record parent none store.tree tagged next.tree) :
    next.tree.forest parent = store.tree.forest parent ++ [store.tree.nextId] := by
  obtain ⟨row, -, -, houtside⟩ := h.parent_kept hwell hproper hresult hmade
  have hnextApart : ¬ next.tree.Encloses RootId.tags parent :=
    fun hencloses => houtside ⟨hencloses, (h.place hwell).apart⟩
  have hback : ∀ other, store.tree.above? other = some parent →
      ∃ row, store.tree.known? other = some row ∧ ¬ store.tree.Below RootId.tags other := by
    intro other habove
    obtain ⟨row, hrow, -⟩ := known?_of_above? habove
    exact ⟨row, hrow, fun hbelow => h.apart (hbelow.above? habove)⟩
  have hnew : store.tree.above? store.tree.nextId ≠ some parent := by
    rw [above?_eq_known?, hwell.known?_nextId]
    exact Option.some_ne_none parent ∘ Eq.symm
  have hleaves : Leaves (store.tree.Apart record) store.tree next :=
    hresult ▸ leaves_applyIncoming hwell (bears_apart hwell)
  have hstill : Undisturbed (fun other => store.tree.above? other = some parent)
      (fun other => ¬ store.tree.Apart record other) store.tree next.tree := by
    refine hleaves.undisturbed.mono ?_
    intro other habove
    obtain ⟨row, hrow, hplace⟩ := hback other habove
    exact h.isApart hproper hrow hplace
  refine forest_eq_append hstill hwell hmade.row.wellFormed hnew ?_
  intro other
  by_cases hother : other = store.tree.nextId
  · subst hother
    have hself := above?_of_known? hmade.row.self
    rw [parent_markedBy_createdRow] at hself
    simp [hself]
  · have hiff := h.others hwell hproper hresult hmade hother
    constructor
    · intro habove
      obtain ⟨row, hrow, hparent⟩ := known?_of_above? habove
      obtain ⟨hrow', -⟩ := (hiff row).mp ⟨hrow, fun hbelow => hnextApart (hbelow.above? habove)⟩
      exact .inl ((above?_of_known? hrow').trans hparent)
    · rintro (habove | heq)
      · obtain ⟨row, hrow, hplace⟩ := hback other habove
        obtain ⟨hrow', -⟩ := (hiff row).mpr ⟨hrow, hplace⟩
        rw [above?_of_known? hrow', ← above?_of_known? hrow, habove]
      · exact absurd heq hother

end Creation

theorem yields_createRecord_made {store next : BookmarkStore} {record : Record} {parent : Int}
    {parentGuid : String} {tagged : Tree} (hportable : record.Portable)
    (hmade : Made record parent none store.tree tagged next.tree)
    (hcached : next.cached? record.id = none) (hparentid : record.parentid = some parentGuid)
    (hparent : next.tree.guidOf? parent = some parentGuid) :
    (createRecord record.id).Yields next fun found _ => found = record := by
  have hself := hmade.row.self
  have hguid := guid_markedBy_createdRow store.tree record parent none
  have hup := parent_markedBy_createdRow store.tree record parent none
  have hdraws := draws_markedBy (draws_createdRow hportable store.tree parent) none
  generalize (createdRow store.tree record parent).markedBy none = row at hself hguid hup hdraws
  have htags : row.typeCode = ItemType.bookmark.code →
      next.tree.tagsOf (row.url.getD "") = .ok (record.tags.getD []) := by
    intro hcode
    have hrecord := congrArg (·.bmkUri) (hdraws.record_eq parentGuid)
    rw [Row.record, Row.ownRecord, if_pos hcode] at hrecord
    obtain ⟨uri, huri, hvalid⟩ : ∃ uri, record.bmkUri = some uri ∧ validateUri uri = .ok uri := by
      refine hportable.proper.uri ?_
      by_contra hother
      exact absurd (hrecord.trans (hportable.proper.no_uri hother)) (Option.some_ne_none _)
    obtain rfl : row.url.getD "" = uri := Option.some.inj (hrecord.trans huri)
    rw [Places.tagsOf_of_taggedWith hmade.row.wellFormed hvalid (hmade.taggedWith hportable huri),
      hportable.sorted_tags]
  rw [← hguid] at hcached ⊢
  refine (yields_createRecord hmade.row.wellFormed hself hcached hdraws.plain htags
    (by rw [hup]; exact hparent)).imp ?_
  rintro _ _ ⟨rfl, -⟩
  rw [hdraws.record_eq, ← hparentid]

/-- In whatever tree an item is made of a record: it is the only new item outside the tags and the
last in its folder, and gives the record back. -/
theorem createRecord_recreated {store : BookmarkStore} (h : store.Reachable) {record : Record}
    (hportable : record.Portable) {parent : Int} (hawaits : store.Awaits record parent) :
    ∃ next id, (applyIncoming record).result store = (.ok (), next) ∧
      store.tree.row? id = none ∧ (next.tree.row? id).isSome ∧
      ¬ next.tree.Below RootId.tags id ∧
      (∀ other, other ≠ id → ∀ row,
        (next.tree.known? other = some row ∧ ¬ next.tree.Below RootId.tags other) ↔
          store.tree.known? other = some row ∧ ¬ store.tree.Below RootId.tags other) ∧
      next.tree.forest parent = store.tree.forest parent ++ [id] ∧
      ((createRecord record.id).result next).1 = .ok record := by
  have hwell := h.wellFormed.tree
  have hproper := hportable.proper
  obtain ⟨_, next, hresult, hcached, tagged, hmade⟩ := yields_made hawaits hwell hproper
  have hnext : ((applyIncoming record).result store).2 = next := by rw [hresult]
  obtain ⟨row, hrow, hrow', houtside⟩ := hawaits.parent_kept hwell hproper hnext hmade
  obtain ⟨parentGuid, hparentid, hparent⟩ := Option.bind_eq_some_iff.mp hawaits.named
  obtain ⟨found, hfound, rfl⟩ := hwell.idOfGuid?_iff.mp hparent
  obtain rfl := Option.some.inj (hrow.symm.trans hfound)
  have habove := above?_of_known? hmade.row.self
  rw [parent_markedBy_createdRow] at habove
  obtain ⟨_, _, hrecord, rfl⟩ := yields_createRecord_made hportable hmade hcached hparentid
    (by rw [guidOf?_eq_known?, hrow', Option.map_some])
  refine ⟨next, store.tree.nextId, hresult, known?_eq_none_iff.mp hwell.known?_nextId, ?_, ?_, ?_,
    hawaits.forest_eq hwell hproper hnext hmade, by rw [hrecord]⟩
  · exact isSome_row?_of_above? habove
  · exact fun hbelow => houtside ⟨hbelow.above? habove, (hawaits.place hwell).apart⟩
  · exact fun other hne => hawaits.others hwell hproper hnext hmade hne

/-- A bookmark's record for a folder, where its URI has other tags and its GUID is known for gone. -/
def crowdedStore : BookmarkStore :=
  StoreCall.runAll (fresh .numbered none)
    [.mutate (.tagUri "about:a" ["x", "y"]), .mutate (.createFolder RootId.menu "F" Places.atEnd),
      .mutate (.setGuid 10 "f"), .mutate (.insertSeparator 10 Places.atEnd), .createRecord "b"]

def crowdedRecord : Record :=
  { id := "b", parentid := some "f", kind := .bookmark, bmkUri := some "about:a"
    tags := some ["y", "z"], keyword := some "k", description := some "d"
    loadInSidebar := some true }

theorem reachable_crowdedStore : crowdedStore.Reachable :=
  ⟨.numbered, none, _, rfl⟩

theorem portable_crowdedRecord : crowdedRecord.Portable where
  proper := by
    constructor <;> simp [crowdedRecord]
    cbv
  serialized :=
    .bookmark _ _ _ _ _ _ _ _ (by cbv) (by cbv) (by cbv) (by decide)
  described := by decide
  held := by decide
  tags := by
    intro tags htags
    obtain rfl := Option.some.inj htags
    decide

theorem awaits_crowdedStore : crowdedStore.Awaits crowdedRecord 10 := by
  have hwell := reachable_crowdedStore.wellFormed.tree
  constructor
  case roots => exact rootsInPlace_of_all (by cbv) (by cbv)
  case notRoot => decide
  case free => cbv
  case never => exact neverMakes_of_numbered (by cbv) (by decide)
  case named => cbv
  case folder => exact (hwell.requireFolder_iff _).mp (by cbv)
  case apart => exact hwell.not_encloses_of_isWithin (by cbv)

theorem bookmark_recreated :
    crowdedStore.Reachable ∧ crowdedRecord.Portable ∧ crowdedStore.Awaits crowdedRecord 10 ∧
      ∃ next id, (applyIncoming crowdedRecord).result crowdedStore = (.ok (), next) ∧
        next.tree.forest 10 = crowdedStore.tree.forest 10 ++ [id] ∧
        ((createRecord "b").result next).1 = .ok crowdedRecord := by
  obtain ⟨next, id, hresult, -, -, -, -, hlast, hrecord⟩ :=
    createRecord_recreated reachable_crowdedStore portable_crowdedRecord awaits_crowdedStore
  exact ⟨reachable_crowdedStore, portable_crowdedRecord, awaits_crowdedStore, next, id, hresult,
    hlast, hrecord⟩

end BookmarkStore

end SyncedBookmarks
