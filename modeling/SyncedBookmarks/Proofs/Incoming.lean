import SyncedBookmarks.Proofs.Creating

namespace SyncedBookmarks

/-! Applying a record that is no deletion and no query: its item is changed or made, and marked
with the parent that it waits for. -/

namespace Row

/-- The row with the mark of an orphan, or without one. -/
def markedBy (row : Row) : Option String → Row
  | some guid =>
      row.annotate AnnotationName.intendedParent (BookmarkStore.orphanMark ++ guid)
  | none => row.unannotate AnnotationName.intendedParent

end Row

namespace BookmarkStore

open SyncedBookmarks.Action SyncedBookmarks.Tree

theorem cached?_forget (store : BookmarkStore) (guid : String) :
    (store.forget guid).cached? guid = none := by
  simp [cached?, forget, List.find?_eq_none]

theorem destination_of_known {tree : Tree} {guid : String} {parent : Int}
    (hparent : tree.idOfGuid? guid = some parent) :
    destination tree (some guid) = (some parent, none) := by
  simp [destination, hparent]

theorem rewrites_markOrphan {tree : Tree} (h : tree.WellFormed) {id : Int} {row : Row}
    (hrow : tree.known? id = some row) (parent : Int) (orphanOf : Option String) :
    Places.Leads (markOrphan id (some parent) orphanOf) tree fun _ next =>
      Rewritten id (row.markedBy orphanOf) tree next := by
  cases orphanOf with
  | some guid => exact Places.rewrites_annotate h hrow _ _
  | none => exact Places.rewrites_unannotate h hrow _

/-- Once its item is in the tree, a record is forgotten and the item marked. -/
theorem yields_settle {store : BookmarkStore} (h : store.tree.WellFormed) {id : Int} {row : Row}
    (hrow : store.tree.known? id = some row) (parent : Int) (orphanOf : Option String) :
    (settle row.guid (some parent) orphanOf).Yields store fun _ next =>
      Rewritten id (row.markedBy orphanOf) store.tree next.tree ∧
        next.cache = (store.forget row.guid).cache ∧ next.generators = store.generators := by
  have hid : store.tree.idOfGuid? row.guid = some id := h.idOfGuid?_iff.mpr ⟨row, hrow, rfl⟩
  refine (yields_change (P := fun _ next => next = store.forget row.guid) rfl).bind ?_
  rintro - - rfl
  refine (leads_look_bind ?_ : Leads _ store.tree _) (store.forget row.guid) rfl
  rw [hid]
  exact leads_onTree (rewrites_markOrphan h hrow parent orphanOf)

/-- A record for an item that there is. -/
theorem yields_applyIncoming_update {store : BookmarkStore} (h : store.tree.WellFormed)
    {record : Record} (hroot : RootGuid.all.contains record.id = false)
    (hkind : record.kind ≠ .query) (hdeleted : record.deleted = false) {id : Int} {row : Row}
    (hrow : store.tree.known? id = some row) (hguid : row.guid = record.id)
    {parent : Int} {orphanOf : Option String}
    (hplace : destination store.tree record.parentid = (some parent, orphanOf))
    (haccepts : Accepts store.tree id row record parent) :
    (applyIncoming record).Yields store fun _ next => ∃ placed tagged last,
      Updated store.tree id row record parent placed tagged last ∧
        Rewritten id (((row.placedBy record parent).detailedBy record).markedBy orphanOf) last
          next.tree ∧
        next.cache = (store.forget record.id).cache ∧ next.generators = store.generators := by
  have hid : store.tree.idOfGuid? record.id = some id :=
    h.idOfGuid?_iff.mpr ⟨row, hrow, hguid⟩
  have hbring : Leads (bringIn record (some parent)) store.tree fun _ next =>
      ∃ placed tagged, Updated store.tree id row record parent placed tagged next := by
    rw [bringIn, if_neg (by rw [hdeleted]; exact Bool.false_ne_true)]
    refine leads_look_bind ?_
    rw [hid]
    exact leads_update h hrow hid haccepts
  rw [applyIncoming_eq hroot, localized, if_neg hkind, pure_bind]
  refine (yields_read (P := fun place state => place = (some parent, orphanOf) ∧ store = state)
    ⟨hplace, rfl⟩).bind ?_
  rintro _ _ ⟨rfl, rfl⟩
  refine Yields.bind (hbring store rfl) ?_
  rintro - state ⟨⟨placed, tagged, hupdated⟩, hcache, hgenerators⟩
  have hself := hupdated.details.self
  have hname : ((row.placedBy record parent).detailedBy record).guid = record.id := by
    rw [Row.detailedBy_guid, Row.placedBy_guid, hguid]
  have hsettle := yields_settle hupdated.details.wellFormed hself parent orphanOf
  rw [hname] at hsettle
  refine hsettle.imp ?_
  rintro - next ⟨hmarked, hnextCache, hnextGenerators⟩
  refine ⟨placed, tagged, state.tree, hupdated, hmarked, ?_, hnextGenerators.trans hgenerators⟩
  rw [hnextCache, forget, forget, hcache]

/-- A record for an item that there is not yet. -/
theorem yields_applyIncoming_create {store : BookmarkStore} (h : store.tree.WellFormed)
    {record : Record} (hroot : RootGuid.all.contains record.id = false)
    (hdeleted : record.deleted = false) (hfree : store.tree.idOfGuid? record.id = none)
    (hnever : store.tree.NeverMakes record.id) {parent : Int} {orphanOf : Option String}
    (hplace : destination store.tree record.parentid = (some parent, orphanOf))
    (hcreates : Creates store.tree record parent) :
    (applyIncoming record).Yields store fun _ next => ∃ tagged filled last,
      Created store.tree record parent tagged filled ∧
        Rewritten store.tree.nextId (createdRow store.tree record parent) filled last ∧
        Rewritten store.tree.nextId
          ((createdRow store.tree record parent).markedBy orphanOf) last next.tree ∧
        next.cache = (store.forget record.id).cache ∧ next.generators = store.generators := by
  have hkind : record.kind ≠ .query := by
    intro hquery
    have hkind := hcreates.kind
    rw [hquery] at hkind
    exact absurd hkind (by decide)
  have hbring : Leads (bringIn record (some parent)) store.tree fun _ next => ∃ tagged filled,
      Created store.tree record parent tagged filled ∧
        Rewritten store.tree.nextId (createdRow store.tree record parent) filled next := by
    rw [bringIn, if_neg (by rw [hdeleted]; exact Bool.false_ne_true)]
    refine leads_look_bind ?_
    rw [hfree]
    exact leads_create h hcreates hfree hnever
  rw [applyIncoming_eq hroot, localized, if_neg hkind, pure_bind]
  refine (yields_read (P := fun place state => place = (some parent, orphanOf) ∧ store = state)
    ⟨hplace, rfl⟩).bind ?_
  rintro _ _ ⟨rfl, rfl⟩
  refine Yields.bind (hbring store rfl) ?_
  rintro - state ⟨⟨tagged, filled, hcreated, hnamed⟩, hcache, hgenerators⟩
  refine (yields_settle hnamed.wellFormed hnamed.self parent orphanOf).imp ?_
  rintro - next ⟨hmarked, hnextCache, hnextGenerators⟩
  refine ⟨tagged, filled, state.tree, hcreated, hnamed, hmarked, ?_,
    hnextGenerators.trans hgenerators⟩
  rw [hnextCache, forget, forget, hcache]
  rfl

end BookmarkStore

end SyncedBookmarks
