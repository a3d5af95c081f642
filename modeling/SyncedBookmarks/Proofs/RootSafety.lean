import SyncedBookmarks.Proofs.Confined
import SyncedBookmarks.Proofs.Recording
import SyncedBookmarks.Proofs.Redrawing

namespace SyncedBookmarks

/-! The roots are out of reach for synchronization: whatever records arrive, in whatever order, and
whatever else it does to a store, their rows stay what they were from the beginning. -/

namespace Tree

def IsRoot (id : Int) : Prop :=
  ∃ guid, (id, guid) ∈ rootNames

theorem isRoot_iff {id : Int} : IsRoot id ↔
    id ∈ [RootId.places, RootId.menu, RootId.toolbar, RootId.tags, RootId.unfiled] := by
  simp [IsRoot, rootNames, exists_or]

theorem isRoot_places : IsRoot RootId.places :=
  ⟨_, places_mem_rootNames⟩

theorem isRoot_tags : IsRoot RootId.tags :=
  ⟨_, tags_mem_rootNames⟩

theorem RootsInPlace.above?_of_isRoot {tree : Tree} (h : tree.RootsInPlace)
    (hwell : tree.WellFormed) {id parent : Int} (hroot : IsRoot id)
    (habove : tree.above? id = some parent) : parent = RootId.places := by
  obtain rfl | hmem := List.mem_cons.mp (isRoot_iff.mp hroot)
  · cases hwell.above?_places.symm.trans habove
  · exact Option.some.inj (habove.symm.trans (h.above id hmem))

/-- Roots that stay as they are stay in place. -/
theorem RootsInPlace.of_known? {tree after : Tree} (h : tree.RootsInPlace)
    (hsame : ∀ id, IsRoot id → after.known? id = tree.known? id) : after.RootsInPlace where
  named := by
    intro id guid hmem
    rw [guidOf?_eq_known?, hsame id ⟨guid, hmem⟩, ← guidOf?_eq_known?]
    exact h.named id guid hmem
  above := by
    intro id hmem
    rw [above?_eq_known?, hsame id (isRoot_iff.mpr (List.mem_cons_of_mem _ hmem)),
      ← above?_eq_known?]
    exact h.above id hmem

theorem RootsInPlace.sheltered {tree : Tree} (h : tree.RootsInPlace) (hwell : tree.WellFormed) :
    Sheltered IsRoot tree where
  upward := fun _ _ hroot habove => h.above?_of_isRoot hwell hroot habove ▸ isRoot_places
  untagged := fun _ hroot habove => absurd (h.above?_of_isRoot hwell hroot habove) (by decide)

theorem row?_fresh_isSome (guids : GuidSource) {id : Int} :
    ((fresh guids).row? id).isSome ↔ IsRoot id := by
  rw [isSome_row?_iff, isRoot_iff]
  simp [fresh, root, eq_comm]

theorem known?_fresh (guids : GuidSource) {id : Int} (h : IsRoot id) :
    ∃ row, (fresh guids).known? id = some row ∧ (id, row.guid) ∈ rootNames ∧ row.annotations = [] ∧
      (row.parent = none ∧ id = RootId.places ∨
        row.parent = some RootId.places ∧ id ≠ RootId.places) := by
  rw [isRoot_iff] at h
  simp only [List.mem_cons, List.not_mem_nil, or_false] at h
  rcases h with rfl | rfl | rfl | rfl | rfl
  all_goals exact ⟨_, rfl, by decide, rfl, by decide⟩

theorem sheltered_fresh (guids : GuidSource) : Sheltered IsRoot (fresh guids) where
  upward := by
    intro id parent hid habove
    obtain ⟨row, hrow, -, -, ⟨hparent, -⟩ | ⟨hparent, -⟩⟩ := known?_fresh guids hid
    · rw [above?_of_known? hrow, hparent] at habove
      contradiction
    · rw [above?_of_known? hrow, hparent] at habove
      exact Option.some.inj habove ▸ ⟨_, places_mem_rootNames⟩
  untagged := by
    intro id hid habove
    obtain ⟨row, hrow, -, -, ⟨hparent, -⟩ | ⟨hparent, -⟩⟩ := known?_fresh guids hid
    all_goals
      rw [above?_of_known? hrow, hparent] at habove
      exact absurd habove (by decide)

/-- Below a root other than the topmost there is no root. -/
theorem not_below_fresh (guids : GuidSource) {folder id : Int} (hfolder : folder ≠ RootId.places)
    (hid : IsRoot id) : ¬ (fresh guids).Below folder id := by
  rintro ⟨hencloses, hne⟩
  have hwell := wellFormed_fresh guids
  rcases hencloses.eq_or_above? with heq | ⟨parent, habove, hup⟩
  · exact hne heq.symm
  · obtain ⟨row, hrow, -, -, ⟨hparent, -⟩ | ⟨hparent, -⟩⟩ := known?_fresh guids hid
    · rw [above?_of_known? hrow, hparent] at habove
      contradiction
    · rw [above?_of_known? hrow, hparent] at habove
      obtain rfl := Option.some.inj habove
      exact hwell.not_encloses_places hfolder hup

end Tree

namespace BookmarkStore

open SyncedBookmarks.Action SyncedBookmarks.Tree

/-- Whether the roots have been left alone from the beginning. -/
def RootsKept (guids : GuidSource) (store : BookmarkStore) : Prop :=
  Leaves IsRoot (Tree.fresh guids) store

namespace RootsKept

variable {guids : GuidSource} {store : BookmarkStore}

theorem fresh (guids : GuidSource) (generators : Option (List String)) :
    RootsKept guids (BookmarkStore.fresh guids generators) := by
  have hwell : (BookmarkStore.fresh guids generators).tree.WellFormed := wellFormed_fresh guids
  exact Leaves.refl hwell fun _ hid => (row?_fresh_isSome guids).mpr hid

theorem wellFormed (h : RootsKept guids store) : store.tree.WellFormed :=
  Places.Spares.wellFormed h

theorem step {next : BookmarkStore} (h : RootsKept guids store)
    (hnext : Leaves IsRoot store.tree next) : RootsKept guids next :=
  Leaves.trans h hnext

theorem there (h : RootsKept guids store) (id : Int) (hid : IsRoot id) :
    (store.tree.row? id).isSome :=
  h.undisturbed.there id hid

theorem known? (h : RootsKept guids store) {id : Int} (hid : IsRoot id) :
    ∃ row, store.tree.known? id = some row ∧ (id, row.guid) ∈ rootNames ∧ row.annotations = [] ∧
      (row.parent = none ∧ id = RootId.places ∨
        row.parent = some RootId.places ∧ id ≠ RootId.places) := by
  rw [Leaves.known? h hid]
  exact known?_fresh guids hid

theorem sheltered (h : RootsKept guids store) : Sheltered IsRoot store.tree :=
  (sheltered_fresh guids).of_undisturbed h.undisturbed

theorem named (h : RootsKept guids store) : store.tree.RootsNamed := by
  intro id guid hmem
  rw [guidOf?_eq_known?, Leaves.known? h ⟨guid, hmem⟩, ← guidOf?_eq_known?]
  exact (rootsInPlace_fresh guids).named id guid hmem

theorem isRoot_iff (h : RootsKept guids store) {id : Int} {row : Row}
    (hrow : store.tree.known? id = some row) : IsRoot id ↔ row.guid ∈ RootGuid.all := by
  constructor
  · intro hid
    obtain ⟨found, hfound, hname, -⟩ := h.known? hid
    obtain rfl := Option.some.inj (hrow.symm.trans hfound)
    exact mem_all_of_rootNames hname
  · intro hguid
    obtain ⟨root, hmem⟩ := exists_root_of_mem_all hguid
    exact h.named.eq_of_guid h.wellFormed hmem hrow rfl ▸ ⟨row.guid, hmem⟩

theorem not_isRoot (h : RootsKept guids store) {id : Int} {row : Row}
    (hrow : store.tree.known? id = some row) (hguid : row.guid ∉ RootGuid.all) : ¬ IsRoot id :=
  fun hid => hguid ((h.isRoot_iff hrow).mp hid)

theorem unmarked (h : RootsKept guids store) {id : Int} {row : Row}
    (hrow : store.tree.known? id = some row) (hid : IsRoot id) : row.mark? = none := by
  obtain ⟨found, hfound, -, hnone, -⟩ := h.known? hid
  obtain rfl := Option.some.inj (hrow.symm.trans hfound)
  rw [Row.mark?, Row.annotationOf?, hnone]
  rfl

theorem bears (h : RootsKept guids store) {record : Record} (hroot : record.id ∉ RootGuid.all) :
    Bears IsRoot store.tree record where
  there := h.there
  item := fun _ _ hrow hguid => h.not_isRoot hrow (hguid ▸ hroot)
  sheltered := fun _ => h.sheltered

/-- The row of a root is what it was, its position included. -/
theorem row? (h : RootsKept guids store) {id : Int} (hid : IsRoot id) :
    store.tree.row? id = (Tree.fresh guids).row? id := by
  obtain ⟨row, hrow⟩ := Option.isSome_iff_exists.mp (h.there id hid)
  obtain ⟨first, hfirst⟩ := Option.isSome_iff_exists.mp ((row?_fresh_isSome guids).mpr hid)
  have hsame := Leaves.known? h hid
  rw [Tree.known?, Tree.known?, hrow, hfirst, Option.map_some, Option.map_some] at hsame
  have hposition : row.position = first.position := by
    refine h.undisturbed.position_eq (wellFormed_fresh guids) h.wellFormed ?_ hid hfirst hrow
    rintro - other - ⟨before, -, hbefore, -⟩
    exact (row?_fresh_isSome guids).mp (by rw [hbefore]; rfl)
  rw [hrow, hfirst]
  congr 1
  have hunplaced := Option.some.inj hsame
  cases row
  cases first
  simp only [Row.unplaced, Row.mk.injEq] at hunplaced hposition ⊢
  tauto

end RootsKept

/-! ### One call -/

section Calls

variable {guids : GuidSource}

theorem keeps_applyIncoming_roots (record : Record) :
    (applyIncoming record).Keeps (RootsKept guids) := by
  intro store h
  by_cases hroot : record.id ∈ RootGuid.all
  · rw [applyIncoming, if_pos (by simpa using hroot)]
    exact h
  · exact h.step (leaves_applyIncoming h.wellFormed (h.bears hroot))

/-- Making a record changes no tree that is in order. -/
theorem tree_createRecord {store : BookmarkStore} (h : store.tree.WellFormed) (guid : String) :
    ((createRecord guid).result store).2.tree = store.tree := by
  cases hcached : store.cached? guid with
  | some record =>
      rw [createRecord, result_bind, result_read, hcached]
      rfl
  | none =>
      by_cases hroot : store.tree.idOfGuid? guid = some RootId.places
      · obtain ⟨cause, hfail⟩ := result_createRecord_places h hroot hcached
        rw [hfail]
      · obtain ⟨record, -, -, hmake⟩ := exists_newRecord h hroot
        have hresult : (createRecord guid).result store = _ := hmake store.cache hcached
        rw [hresult]
        rfl

theorem RootsKept.congr {store next : BookmarkStore} (h : RootsKept guids store)
    (htree : next.tree = store.tree) : RootsKept guids next :=
  h.step (htree ▸ Leaves.refl (htree ▸ h.wellFormed) fun id hid => htree ▸ h.there id hid)

theorem keeps_createRecord_roots (guid : String) :
    (createRecord guid).Keeps (RootsKept guids) :=
  fun _ h => h.congr (tree_createRecord h.wellFormed guid)

theorem keeps_forget_roots (guid : String) :
    (Action.change (·.forget guid) : StoreAction Unit).Keeps (RootsKept guids) :=
  fun _ h => h

theorem keeps_changeItemId_roots (old new : String) :
    (changeItemId old new).Keeps (RootsKept guids) := by
  intro store h
  rw [changeItemId]
  split
  · exact h
  · rename_i hroot
    rw [result_look_bind, result_look_bind]
    cases hid : store.tree.idOfGuid? old with
    | none => exact h
    | some id =>
        obtain ⟨row, hrow, rfl⟩ := h.wellFormed.idOfGuid?_iff.mp hid
        have hother : ¬ IsRoot id := h.not_isRoot hrow (by simpa using hroot)
        cases store.tree.idOfGuid? new with
        | some owner =>
            dsimp only
            split
            · exact h
            · exact h
        | none =>
            refine (keeps_onTree_spares ?_).bind (fun _ => keeps_forget_roots row.guid) store h
            exact (Places.writes_setGuid id (Places.lasting_guid _)).keeps_of_free
              (Places.keeps_setGuid id new)
              (fun hstill => absurd hstill hother) hother

theorem keeps_reparent_roots {id : Int} (hid : ¬ IsRoot id) (mark : String) :
    (reparent id mark).Keeps (RootsKept guids) := by
  refine (keeps_read _ _).bind fun parent => ?_
  cases parent with
  | none => exact keeps_pure _ _
  | some parent =>
      refine (keeps_onTree_spares (Places.keeps_moveItem_spares hid hid parent)).attempt.bind
        fun outcome => ?_
      cases outcome with
      | error cause => exact keeps_pure _ _
      | ok value =>
          refine (keeps_onTree_spares ?_).bind fun _ => (keeps_read _ _).bind fun guid => ?_
          · exact (Places.writes_unannotate id (Places.lasting_unannotate _)).keeps_of_free
              (Places.keeps_unannotate id _) (fun hstill => absurd hstill hid) hid
          · cases guid with
            | some guid => exact (keeps_forget_roots guid).bind fun _ => keeps_pure _ _
            | none => exact keeps_pure _ _

theorem keeps_reparentAll_roots (orphans : List (Int × String))
    (horphans : ∀ orphan ∈ orphans, ¬ IsRoot orphan.1) :
    (reparentAll orphans).Keeps (RootsKept guids) := by
  induction orphans with
  | nil => exact keeps_pure _ _
  | cons orphan orphans ih =>
      exact (keeps_reparent_roots (horphans orphan List.mem_cons_self) orphan.2).bind fun _ =>
        (ih fun other hother => horphans other (List.mem_cons_of_mem _ hother)).bind fun _ =>
          keeps_pure _ _

/-- No root waits for a parent, so none is moved. -/
theorem keeps_reparentOrphans_roots : reparentOrphans.Keeps (RootsKept guids) := by
  intro store h
  refine keeps_reparentAll_roots (store.tree.annotated AnnotationName.intendedParent) ?_ store h
  rintro ⟨id, mark⟩ horphan hid
  obtain ⟨row, hrow, hmark⟩ := (mem_annotated_iff h.wellFormed).mp horphan
  cases (h.unmarked hrow hid).symm.trans hmark

theorem keeps_wipe_roots : wipe.Keeps (RootsKept guids) := by
  refine (keeps_forM _ ?_).bind fun _ _ h => h
  intro guid hguid store h
  rw [result_look_bind]
  cases hroot : store.tree.idOfGuid? guid with
  | none => exact h
  | some root =>
      -- The topmost root's children would be the other roots; but it has none of the names.
      have hne : root ≠ RootId.places := by
        rintro rfl
        obtain ⟨row, hrow, hname⟩ := h.wellFormed.idOfGuid?_iff.mp hroot
        have hplaces := h.named RootId.places _ places_mem_rootNames
        rw [guidOf?_eq_known?, hrow, Option.map_some, hname] at hplaces
        rw [Option.some.inj hplaces] at hguid
        revert hguid
        decide
      exact keeps_onTree_spares (Places.keeps_removeChildren_spares
        (sheltered_fresh guids).upward fun id hid => not_below_fresh guids hne hid) store h

end Calls

end BookmarkStore

namespace StoreCall

open SyncedBookmarks.BookmarkStore

/-- Whether a call is one that synchronization makes. -/
def isSync : StoreCall → Bool
  | mutate _ => false
  | _ => true

theorem keeps_roots {guids : GuidSource} {call : StoreCall} (h : call.isSync) :
    call.action.Keeps (RootsKept guids) := by
  cases call with
  | mutate mutation => exact absurd h Bool.false_ne_true
  | applyIncoming record => exact keeps_applyIncoming_roots record
  | createRecord guid => exact (keeps_createRecord_roots guid).map _
  | changeItemId old new => exact keeps_changeItemId_roots old new
  | reparentOrphans => exact keeps_reparentOrphans_roots.map _
  | wipe => exact keeps_wipe_roots
  | forget guid => exact keeps_forget_roots guid
  | clearCache => exact fun _ h => h

theorem rootsKept_runAll {guids : GuidSource} {store : BookmarkStore} (h : RootsKept guids store)
    {calls : List StoreCall} (hcalls : ∀ call ∈ calls, call.isSync) :
    RootsKept guids (runAll store calls) := by
  induction calls generalizing store with
  | nil => exact h
  | cons call calls ih =>
      exact ih (keeps_roots (hcalls call List.mem_cons_self) store h)
        fun other hother => hcalls other (List.mem_cons_of_mem _ hother)

/-- Synchronization leaves each root as it was made, whatever the records and the GUIDs that it is
given and whether its calls succeed or fail. -/
theorem roots_safe (guids : GuidSource) (generators : Option (List String))
    (calls : List StoreCall) (hcalls : ∀ call ∈ calls, call.isSync) (row : Row)
    (hrow : row ∈ (Tree.fresh guids).rows) :
    (runAll (fresh guids generators) calls).tree.row? row.id = some row := by
  have hthere := Tree.row?_eq_some_of_mem (Tree.wellFormed_fresh guids).ids_nodup hrow
  have hroot := (Tree.row?_fresh_isSome guids).mp (Option.isSome_iff_exists.mpr ⟨row, hthere⟩)
  rw [(rootsKept_runAll (.fresh guids generators) hcalls).row? hroot, hthere]

/-- A folder that goes into itself, gets a root's name, takes a root for an orphan's parent and is
deleted with all that is in it. -/
theorem toolbar_safe :
    let calls : List StoreCall :=
      [.applyIncoming { id := "f", parentid := some "f", kind := .folder },
        .applyIncoming { id := "g", parentid := some RootGuid.places, kind := .folder },
        .applyIncoming { id := RootGuid.toolbar, parentid := some "f", kind := .folder },
        .changeItemId "f" RootGuid.toolbar, .reparentOrphans,
        .applyIncoming (Record.tombstone "f"), .applyIncoming (Record.tombstone RootGuid.toolbar),
        .wipe]
    (∀ call ∈ calls, call.isSync) ∧
      (runAll (fresh .numbered none) calls).tree.row? RootId.toolbar =
        some (Tree.root RootId.toolbar RootGuid.toolbar (some RootId.places) 1
          "Bookmarks Toolbar") :=
  ⟨by decide, roots_safe .numbered none _ (by decide)
    (Tree.root RootId.toolbar RootGuid.toolbar (some RootId.places) 1 "Bookmarks Toolbar")
    (by decide)⟩

end StoreCall

end SyncedBookmarks
