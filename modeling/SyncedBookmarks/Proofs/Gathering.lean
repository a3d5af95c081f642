import Mathlib
import SyncedBookmarks.Proofs.Delivery

namespace SyncedBookmarks

/-! Once all records have arrived, every item that waits is moved to the folder that its record
names, whatever the order in which they came. -/

namespace Action

theorem Yields.attempt {action : Action σ ε α} {state : σ} {post : α → σ → Prop}
    (h : action.Yields state post) :
    (action.attempt : Action σ ε' (Except ε α)).Yields state fun outcome next =>
      ∃ value, outcome = .ok value ∧ post value next := by
  obtain ⟨value, next, hresult, hpost⟩ := h
  exact ⟨.ok value, next, by rw [result_attempt, hresult], value, rfl, hpost⟩

end Action

namespace BookmarkStore

open SyncedBookmarks.Action SyncedBookmarks.Tree

/-! ### All arrivals -/

/-- Whether every record is admitted as it arrives, after those before it. -/
def Unhindered (store : BookmarkStore) : List Record → Prop
  | [] => True
  | record :: rest =>
      store.tree.Admits record ∧
        ∀ next, (applyIncoming record).result store = (.ok (), next) → Unhindered next rest

/-- What holds while records arrive. -/
structure Settling (records done : List Record) (tree : Tree) : Prop where
  wellFormed : tree.WellFormed
  receives : tree.Receives records
  rootsSettled : tree.RootsSettled
  settled : ∀ record ∈ done, ∃ id row, tree.Settled record id row

theorem Settling.of_arrived {records done : List Record} {before placed tagged after : Tree}
    (h : Settling records done before) (hdone : ∀ record ∈ done, record ∈ records)
    {record : Record} (hrecord : record ∈ records) {id parent : Int} {orphanOf : Option String}
    (harrived : Arrived record id parent orphanOf before placed tagged after) :
    Settling records (done ++ [record]) after where
  wellFormed := harrived.wellFormed
  receives := harrived.receives h.wellFormed h.receives hrecord
  rootsSettled := harrived.rootsSettled h.wellFormed h.receives hrecord h.rootsSettled
  settled := by
    intro other hother
    rcases List.mem_append.mp hother with hbefore | hself
    · by_cases heq : other.id = record.id
      · rw [List.inj_on_of_nodup_map h.receives.distinct (hdone other hbefore) hrecord heq]
        exact ⟨id, harrived.settled_self⟩
      · obtain ⟨item, row, hsettled⟩ := h.settled other hbefore
        exact ⟨item, row, harrived.settled_of_settled h.wellFormed h.receives (hdone other hbefore)
          heq hsettled⟩
    · rw [List.mem_singleton.mp hself]
      exact ⟨id, harrived.settled_self⟩

theorem Settling.step {records done : List Record} {store : BookmarkStore}
    (h : Settling records done store.tree) (hdone : ∀ record ∈ done, record ∈ records)
    {record : Record} (hrecord : record ∈ records) (hadmits : store.tree.Admits record) :
    (applyIncoming record).Yields store fun _ next =>
      Settling records (done ++ [record]) next.tree := by
  refine (arrives h.wellFormed h.receives hrecord hadmits).imp ?_
  rintro - next ⟨id, parent, orphanOf, placed, tagged, harrived⟩
  exact h.of_arrived hdone hrecord harrived

/-- The records that are left arrive after those that are done. -/
theorem yields_arrivals {records : List Record} (rest done : List Record) (store : BookmarkStore)
    (hall : ∀ record ∈ done ++ rest, record ∈ records) (hclear : Unhindered store rest)
    (h : Settling records done store.tree) :
    (rest.forM applyIncoming).Yields store fun _ next =>
      Settling records (done ++ rest) next.tree := by
  induction rest generalizing done store with
  | nil =>
      rw [List.append_nil]
      exact yields_pure h
  | cons record rest ih =>
      obtain ⟨hadmits, hrest⟩ := hclear
      have hdone : ∀ other ∈ done, other ∈ records :=
        fun other hother => hall other (List.mem_append_left _ hother)
      obtain ⟨_, next, hresult, hsettling⟩ := h.step hdone (hall record (by simp)) hadmits
      have hassoc : done ++ record :: rest = (done ++ [record]) ++ rest := by simp
      rw [hassoc] at hall ⊢
      obtain ⟨_, last, hlast, hpost⟩ := ih (done ++ [record]) next hall (hrest next hresult) hsettling
      refine ⟨(), last, ?_, hpost⟩
      change ((applyIncoming record) >>= fun _ => rest.forM applyIncoming).result store = _
      rw [result_bind, hresult]
      exact hlast

/-! ### One orphan -/

/-- What reparenting an item comes to: a move to the parent it waits for, or nothing when there is
none that can take it. -/
inductive Reparented (id : Int) (row : Row) (guid : String) (before after : Tree) : Prop where
  | moved (parent : Int) (hparent : before.idOfGuid? guid = some parent)
      (hrewritten : Rewritten id
        ({ row with parent := some parent }.unannotate AnnotationName.intendedParent) before after)
  | refused (hsame : after = before)
      (hnone : ∀ parent, before.idOfGuid? guid = some parent → before.IsFolder parent →
        before.Encloses id parent)

/-- An orphan stays for which there is no parent that can take it. -/
theorem result_reparent_refused {store : BookmarkStore} (h : store.tree.WellFormed) {id : Int}
    {mark : String} (hnone : ∀ parent, store.tree.idOfGuid? (intendedParent mark) = some parent →
      store.tree.IsFolder parent → store.tree.Encloses id parent) :
    (reparent id mark).result store = (.ok false, store) := by
  rw [reparent, result_look_bind]
  cases htarget : store.tree.idOfGuid? (intendedParent mark) with
  | none => rfl
  | some parent =>
      obtain ⟨cause, hcause⟩ := Places.result_moveItem_of_not h
        (fun _ _ hfolder => hnone parent htarget hfolder) Places.atEnd
      have hmove : (attempt (onTree (Places.moveItem id parent Places.atEnd)) :
          StoreAction (Except StoreError Unit)).result store =
            (.ok (.error (.tree cause)), store) := by
        rw [result_attempt, onTree, result_within, hcause]
        rfl
      dsimp only
      rw [result_bind, hmove]
      rfl

/-- An orphan moves to the parent that can take it, and its record is forgotten. -/
theorem yields_reparent_moved {store : BookmarkStore} (h : store.tree.WellFormed) {id : Int}
    {row : Row} (hrow : store.tree.known? id = some row) {mark : String} {parent : Int}
    (htarget : store.tree.idOfGuid? (intendedParent mark) = some parent)
    (hfolder : store.tree.IsFolder parent) (houtside : ¬ store.tree.Encloses id parent) :
    (reparent id mark).Yields store fun moved next => moved = true ∧
      Rewritten id ({ row with parent := some parent }.unannotate AnnotationName.intendedParent)
        store.tree next.tree ∧ next.cache = (store.forget row.guid).cache ∧
          next.generators = store.generators := by
  rw [reparent]
  refine (yields_read (P := fun found state =>
    found = store.tree.idOfGuid? (intendedParent mark) ∧ store = state) ⟨rfl, rfl⟩).bind ?_
  rintro _ _ ⟨rfl, rfl⟩
  rw [htarget]
  have hmove : (attempt (onTree (Places.moveItem id parent Places.atEnd)) :
      StoreAction (Except StoreError Unit)).Yields store fun outcome next =>
        outcome = .ok () ∧
          Rewritten id { row with parent := some parent } store.tree next.tree ∧
          next.cache = store.cache ∧ next.generators = store.generators := by
    refine (leads_onTree (Places.rewrites_moveItem h hrow hfolder houtside Places.atEnd) store
      rfl).attempt.imp ?_
    rintro _ next ⟨_, rfl, hrewritten, hcache, hgenerators⟩
    exact ⟨rfl, hrewritten, hcache, hgenerators⟩
  refine hmove.bind ?_
  rintro _ state ⟨rfl, hmoved, hcache, hgenerators⟩
  refine Yields.bind (leads_onTree (Places.rewrites_unannotate hmoved.wellFormed hmoved.self
    AnnotationName.intendedParent) state rfl) ?_
  rintro - last ⟨hcleared, hlastCache, hlastGenerators⟩
  have hname : last.tree.guidOf? id = some row.guid := by
    rw [guidOf?_eq_known?, hcleared.self]
    rfl
  refine (yields_read (P := fun found state => found = last.tree.guidOf? id ∧ last = state)
    ⟨rfl, rfl⟩).bind ?_
  rintro _ _ ⟨rfl, rfl⟩
  rw [hname]
  refine (yields_change (P := fun _ next => next = last.forget row.guid) rfl).bind ?_
  rintro - - rfl
  refine yields_pure ⟨rfl, hmoved.trans hcleared, ?_, hlastGenerators.trans hgenerators⟩
  rw [forget, forget, hlastCache, hcache]

theorem yields_reparent {store : BookmarkStore} (h : store.tree.WellFormed) {id : Int} {row : Row}
    (hrow : store.tree.known? id = some row) (mark : String) :
    (reparent id mark).Yields store fun _ next =>
      Reparented id row (intendedParent mark) store.tree next.tree ∧
        next.cache.Sublist store.cache := by
  by_cases hnone : ∀ parent, store.tree.idOfGuid? (intendedParent mark) = some parent →
      store.tree.IsFolder parent → store.tree.Encloses id parent
  · exact ⟨false, store, result_reparent_refused h hnone, .refused rfl hnone, List.Sublist.refl _⟩
  · push Not at hnone
    obtain ⟨parent, htarget, hfolder, houtside⟩ := hnone
    refine (yields_reparent_moved h hrow htarget hfolder houtside).imp ?_
    rintro _ next ⟨-, hrewritten, hcache, -⟩
    exact ⟨.moved parent htarget hrewritten, hcache ▸ List.filter_sublist⟩

/-! ### All orphans -/

/-- Whether an item is where its record wants it. -/
def HomeOf (tree : Tree) (record : Record) (row : Row) : Prop :=
  ∃ parent, row.parent = some parent ∧ tree.guidOf? parent = record.parentid

/-- What holds of a record's item while the orphans are gone through: it is at home and not among
those that are left, or it is one of them, still in the unfiled folder. -/
def Gathered (tree : Tree) (orphans : List (Int × String)) (record : Record) : Prop :=
  ∃ id row, tree.known? id = some row ∧ row.guid = record.id ∧
    row.typeCode = record.itemType.code ∧
    ((id ∉ orphans.map (·.1) ∧ HomeOf tree record row) ∨
      (row.parent = some RootId.unfiled ∧
        ∃ guid, record.parentid = some guid ∧ (id, orphanMark ++ guid) ∈ orphans))

structure Gathering (records : List Record) (orphans : List (Int × String)) (tree : Tree) :
    Prop where
  wellFormed : tree.WellFormed
  distinct : (orphans.map (·.1)).Nodup
  named : tree.RootsNamed
  above : ∀ root ∈ [RootId.menu, RootId.toolbar, RootId.unfiled],
    root ∉ orphans.map (·.1) ∧ tree.above? root = some RootId.places
  there : ∀ orphan ∈ orphans, ∃ row, tree.known? orphan.1 = some row
  gathered : ∀ record ∈ records, Gathered tree orphans record

namespace Gathering

variable {records : List Record} {orphans : List (Int × String)} {tree : Tree}

theorem exists_synced {guid : String} (h : guid ∈ syncedRoots) :
    ∃ root ∈ [RootId.menu, RootId.toolbar, RootId.unfiled], (root, guid) ∈ rootNames := by
  simp only [syncedRoots, List.mem_cons, List.not_mem_nil, or_false] at h
  rcases h with rfl | rfl | rfl
  · exact ⟨RootId.menu, by decide, by decide⟩
  · exact ⟨RootId.toolbar, by decide, by decide⟩
  · exact ⟨RootId.unfiled, by decide, by decide⟩

/-- Nothing but places is above the roots that items arrive in. -/
theorem not_encloses_root (h : Gathering records orphans tree) (hrecords : Record.Orderly records)
    {record : Record} (hrecord : record ∈ records) {id : Int} {row : Row}
    (hrow : tree.known? id = some row) (hguid : row.guid = record.id) {root : Int} {guid : String}
    (hroot : root ∈ [RootId.menu, RootId.toolbar, RootId.unfiled])
    (hmem : (root, guid) ∈ rootNames) : ¬ tree.Encloses id root :=
  h.named.not_encloses h.wellFormed hmem (h.above root hroot).2 hrow
    (hguid ▸ hrecords.apart record hrecord)

/-- The way up from one record's item to another's goes along what the records prescribe. -/
theorem prescribed_of_climb (h : Gathering records orphans tree) (hrecords : Record.Orderly records)
    {record : Record} (hrecord : record ∈ records) {id : Int} {row : Row}
    (hrow : tree.known? id = some row) (hguid : row.guid = record.id) (steps : Nat) {other : Record}
    (hother : other ∈ records) {item : Int} {found : Row} (hfound : tree.known? item = some found)
    (hfoundGuid : found.guid = other.id) (hsteps : tree.climb steps item = some id) :
    Relation.ReflTransGen (Record.Prescribed records) other.id record.id := by
  induction steps generalizing other item found with
  | zero =>
      obtain rfl : item = id := Option.some.inj hsteps
      obtain rfl := Option.some.inj (hrow.symm.trans hfound)
      rw [← hfoundGuid, hguid]
  | succ steps ih =>
      rw [climb_succ] at hsteps
      obtain ⟨parent, hparent, hrest⟩ := Option.bind_eq_some_iff.mp hsteps
      rw [above?_of_known? hfound] at hparent
      obtain ⟨same, sameRow, hsame, hsameGuid, -, ⟨-, place, hplace, hname⟩ | ⟨hunfiled, -⟩⟩ :=
        h.gathered other hother
      all_goals
        obtain rfl := h.wellFormed.guid_inj same item sameRow found hsame hfound
          (hsameGuid.trans hfoundGuid.symm)
        obtain rfl := Option.some.inj (hsame.symm.trans hfound)
      · obtain rfl := Option.some.inj (hplace.symm.trans hparent)
        obtain ⟨guid, hgiven, hnamed⟩ := hrecords.named other hother
        rw [hgiven, guidOf?_eq_known?, Option.map_eq_some_iff] at hname
        obtain ⟨folderRow, hfolderRow, hfolderGuid⟩ := hname
        rcases hnamed with hroot | ⟨folder, hfolder, -, hfolderId⟩
        · obtain ⟨root, hmem, hrootName⟩ := exists_synced hroot
          rw [h.named.eq_of_guid h.wellFormed hrootName hfolderRow hfolderGuid] at hrest
          exact absurd ⟨steps, hrest⟩
            (h.not_encloses_root hrecords hrecord hrow hguid hmem hrootName)
        · refine (ih hfolder hfolderRow (hfolderGuid.trans hfolderId.symm) hrest).head ?_
          exact ⟨other, hother, rfl, by rw [hgiven, hfolderId]⟩
      · obtain rfl := Option.some.inj (hunfiled.symm.trans hparent)
        exact absurd ⟨steps, hrest⟩ (h.not_encloses_root hrecords hrecord hrow hguid
          (by decide) unfiled_mem_rootNames)

/-- The folder that a record names is there, and it is nowhere below the record's item. -/
theorem exists_target (h : Gathering records orphans tree) (hrecords : Record.Orderly records)
    {record : Record} (hrecord : record ∈ records) {id : Int} {row : Row}
    (hrow : tree.known? id = some row) (hguid : row.guid = record.id) {guid : String}
    (hgiven : record.parentid = some guid) :
    ∃ parent, tree.idOfGuid? guid = some parent ∧ tree.IsFolder parent ∧
      ¬ tree.Encloses id parent := by
  obtain ⟨named, hnamed, hroot | ⟨folder, hfolder, hkind, hfolderId⟩⟩ :=
    hrecords.named record hrecord
  all_goals obtain rfl := Option.some.inj (hgiven.symm.trans hnamed)
  · obtain ⟨root, hmem, hrootName⟩ := exists_synced hroot
    have hname := h.named root guid hrootName
    rw [guidOf?_eq_known?, Option.map_eq_some_iff] at hname
    obtain ⟨rootRow, hrootRow, hrootGuid⟩ := hname
    exact ⟨root, h.wellFormed.idOfGuid?_iff.mpr ⟨rootRow, hrootRow, hrootGuid⟩,
      h.named.isFolder_of_mem h.wellFormed hrootName,
      h.not_encloses_root hrecords hrecord hrow hguid hmem hrootName⟩
  · obtain ⟨parent, folderRow, hfolderRow, hfolderGuid, hcode, -⟩ := h.gathered folder hfolder
    rw [Record.itemType_folder hkind] at hcode
    refine ⟨parent, h.wellFormed.idOfGuid?_iff.mpr ⟨folderRow, hfolderRow,
      hfolderGuid.trans hfolderId⟩, ⟨folderRow, hfolderRow, hcode⟩, ?_⟩
    rintro ⟨steps, hsteps⟩
    have hway := h.prescribed_of_climb hrecords hrecord hrow hguid steps hfolder hfolderRow
      hfolderGuid hsteps
    refine hrecords.forest record hrecord (Relation.TransGen.head' ?_ hway)
    exact ⟨record, hrecord, rfl, by rw [hgiven, hfolderId]⟩

end Gathering

theorem intendedParent_orphanMark (guid : String) : intendedParent (orphanMark ++ guid) = guid := by
  have hstarts : (orphanMark ++ guid).startsWith orphanMark = true := by simp
  rw [intendedParent, if_pos hstarts]
  simp [orphanMark]

theorem guidOf?_of_rewritten {before after : Tree} {id : Int} {row old : Row}
    (h : Rewritten id row before after) (hold : before.known? id = some old)
    (hguid : row.guid = old.guid) (other : Int) : after.guidOf? other = before.guidOf? other := by
  rw [guidOf?_eq_known?, h.known?, guidOf?_eq_known?]
  split
  · rename_i heq
    rw [heq, hold, Option.map_some, Option.map_some, hguid]
  · rfl

namespace Gathering

variable {records : List Record}

/-- The item of a record that is next among the orphans waits for the folder of its mark. -/
theorem waits_of_head {id : Int} {mark : String} {rest : List (Int × String)} {tree : Tree}
    (h : Gathering records ((id, mark) :: rest) tree) {record : Record} (hrecord : record ∈ records)
    {row : Row} (hrow : tree.known? id = some row) (hguid : row.guid = record.id) :
    row.parent = some RootId.unfiled ∧ record.parentid = some (intendedParent mark) := by
  obtain ⟨hhead, -⟩ := List.nodup_cons.mp h.distinct
  obtain ⟨item, found, hfound, hfoundGuid, -, hplace⟩ := h.gathered record hrecord
  obtain rfl := h.wellFormed.guid_inj item id found row hfound hrow (hfoundGuid.trans hguid.symm)
  obtain rfl := Option.some.inj (hfound.symm.trans hrow)
  rcases hplace with ⟨hlisted, -⟩ | ⟨hunfiled, guid, hgiven, hmem⟩
  · exact absurd (by simp) hlisted
  · refine ⟨hunfiled, ?_⟩
    -- The item is among the orphans once, with the mark of its record's parent.
    rcases List.mem_cons.mp hmem with hsame | hlater
    · obtain ⟨-, rfl⟩ := Prod.mk.inj hsame
      rw [intendedParent_orphanMark, hgiven]
    · exact absurd (List.mem_map_of_mem hlater) hhead

/-- After a move, the item is at home. -/
theorem of_moved {id : Int} {mark : String} {rest : List (Int × String)} {before after : Tree}
    (h : Gathering records ((id, mark) :: rest) before) {row : Row}
    (hrow : before.known? id = some row) {parent : Int}
    (hparent : before.idOfGuid? (intendedParent mark) = some parent)
    (hmoved : Rewritten id
      ({ row with parent := some parent }.unannotate AnnotationName.intendedParent) before after) :
    Gathering records rest after := by
  obtain ⟨hhead, htail⟩ := List.nodup_cons.mp h.distinct
  have hguids := guidOf?_of_rewritten hmoved hrow rfl
  constructor
  case wellFormed => exact hmoved.wellFormed
  case distinct => exact htail
  case named =>
    intro root guid hmem
    rw [hguids]
    exact h.named root guid hmem
  case above =>
    intro root hroot
    obtain ⟨hlisted, habove⟩ := h.above root hroot
    rw [List.map_cons, List.mem_cons, not_or] at hlisted
    refine ⟨hlisted.2, ?_⟩
    rw [above?_eq_known?, hmoved.of_ne hlisted.1, ← above?_eq_known?, habove]
  case there =>
    intro orphan horphan
    have hne : orphan.1 ≠ id := by
      intro heq
      exact hhead (List.mem_map.mpr ⟨orphan, horphan, heq⟩)
    obtain ⟨found, hfound⟩ := h.there orphan (List.mem_cons_of_mem _ horphan)
    exact ⟨found, (hmoved.of_ne hne).trans hfound⟩
  case gathered =>
    intro record hrecord
    obtain ⟨item, found, hfound, hguid, hcode, hplace⟩ := h.gathered record hrecord
    by_cases heq : item = id
    · rw [heq] at hfound hplace
      obtain rfl := Option.some.inj (hrow.symm.trans hfound)
      refine ⟨id, _, hmoved.self, hguid, hcode, .inl ⟨hhead, parent, rfl, ?_⟩⟩
      obtain ⟨folder, hfolder, hname⟩ := h.wellFormed.idOfGuid?_iff.mp hparent
      rw [hguids, guidOf?_eq_known?, hfolder, Option.map_some, hname,
        (h.waits_of_head hrecord hrow hguid).2]
    · refine ⟨item, found, (hmoved.of_ne heq).trans hfound, hguid, hcode, ?_⟩
      rcases hplace with ⟨hlisted, place, habove, hname⟩ | ⟨hunfiled, guid, hgiven, hmem⟩
      · rw [List.map_cons, List.mem_cons, not_or] at hlisted
        exact .inl ⟨hlisted.2, place, habove, (hguids place).trans hname⟩
      · refine .inr ⟨hunfiled, guid, hgiven, ?_⟩
        rcases List.mem_cons.mp hmem with hsame | hlater
        · exact absurd (congrArg Prod.fst hsame) heq
        · exact hlater

/-- What is refused is no record's item. -/
theorem of_refused {id : Int} {mark : String} {rest : List (Int × String)} {tree : Tree}
    (h : Gathering records ((id, mark) :: rest) tree) (hrecords : Record.Orderly records)
    (hnone : ∀ parent, tree.idOfGuid? (intendedParent mark) = some parent →
      tree.IsFolder parent → tree.Encloses id parent) : Gathering records rest tree := by
  obtain ⟨hhead, htail⟩ := List.nodup_cons.mp h.distinct
  constructor
  case wellFormed => exact h.wellFormed
  case distinct => exact htail
  case named => exact h.named
  case above =>
    intro root hroot
    obtain ⟨hlisted, habove⟩ := h.above root hroot
    rw [List.map_cons, List.mem_cons, not_or] at hlisted
    exact ⟨hlisted.2, habove⟩
  case there => exact fun orphan horphan => h.there orphan (List.mem_cons_of_mem _ horphan)
  case gathered =>
    intro record hrecord
    obtain ⟨item, found, hfound, hguid, hcode, hplace⟩ := h.gathered record hrecord
    refine ⟨item, found, hfound, hguid, hcode, ?_⟩
    rcases hplace with ⟨hlisted, hhome⟩ | ⟨hunfiled, guid, hgiven, hmem⟩
    · rw [List.map_cons, List.mem_cons, not_or] at hlisted
      exact .inl ⟨hlisted.2, hhome⟩
    · refine .inr ⟨hunfiled, guid, hgiven, ?_⟩
      rcases List.mem_cons.mp hmem with hsame | hlater
      · obtain ⟨rfl, rfl⟩ := Prod.mk.inj hsame
        obtain ⟨parent, hparent, hfolder, houtside⟩ :=
          h.exists_target hrecords hrecord hfound hguid hgiven
        rw [intendedParent_orphanMark] at hnone
        exact absurd (hnone parent hparent hfolder) houtside
      · exact hlater

end Gathering

/-- Going through the orphans, with something else that every move keeps. -/
theorem yields_reparentAll {records : List Record} (hrecords : Record.Orderly records)
    {P : List (Int × String) → Tree → Prop}
    (hmove : ∀ id mark rest before after row parent, Gathering records ((id, mark) :: rest) before →
      before.known? id = some row → before.idOfGuid? (intendedParent mark) = some parent →
      Rewritten id ({ row with parent := some parent }.unannotate AnnotationName.intendedParent)
        before after → P ((id, mark) :: rest) before → P rest after)
    (hskip : ∀ orphan rest tree, P (orphan :: rest) tree → P rest tree)
    (orphans : List (Int × String)) (store : BookmarkStore)
    (h : Gathering records orphans store.tree) (hinv : P orphans store.tree) :
    (reparentAll orphans).Yields store fun _ next =>
      (Gathering records [] next.tree ∧ P [] next.tree) ∧ next.cache.Sublist store.cache := by
  induction orphans generalizing store with
  | nil => exact yields_pure ⟨⟨h, hinv⟩, List.Sublist.refl _⟩
  | cons orphan orphans ih =>
      obtain ⟨id, mark⟩ := orphan
      obtain ⟨row, hrow⟩ := h.there (id, mark) (by simp)
      refine (yields_reparent h.wellFormed hrow mark).bind ?_
      rintro moved next ⟨hreparented, hcache⟩
      have hnext : Gathering records orphans next.tree ∧ P orphans next.tree := by
        cases hreparented with
        | moved parent hparent hrewritten =>
            exact ⟨h.of_moved hrow hparent hrewritten,
              hmove id mark orphans _ _ row parent h hrow hparent hrewritten hinv⟩
        | refused hsame hnone =>
            rw [hsame]
            exact ⟨h.of_refused hrecords hnone, hskip _ _ _ hinv⟩
      refine (ih next hnext.1 hnext.2).bind ?_
      rintro more last ⟨hlast, hlastCache⟩
      exact yields_pure ⟨hlast, hlastCache.trans hcache⟩

/-! ### From what has arrived to what is gathered -/

theorem mem_annotated_iff {tree : Tree} (h : tree.WellFormed) {name : String} {id : Int}
    {value : String} : (id, value) ∈ tree.annotated name ↔
      ∃ row, tree.known? id = some row ∧ row.annotationOf? name = some value := by
  rw [Tree.annotated, List.mem_filterMap]
  constructor
  · rintro ⟨row, hmem, hvalue⟩
    obtain ⟨found, hfound, heq⟩ := Option.map_eq_some_iff.mp hvalue
    obtain ⟨rfl, rfl⟩ := Prod.mk.inj heq
    exact ⟨row.unplaced, known?_eq_some_of_mem h.ids_nodup hmem, hfound⟩
  · rintro ⟨row, hrow, hvalue⟩
    obtain ⟨found, hmem, rfl, rfl⟩ := exists_mem_of_known? hrow
    refine ⟨found, hmem, ?_⟩
    rw [Row.unplaced_annotationOf?] at hvalue
    rw [hvalue]
    rfl

theorem ids_annotated_nodup {tree : Tree} (h : tree.WellFormed) (name : String) :
    ((tree.annotated name).map (·.1)).Nodup := by
  have hsub : ((tree.annotated name).map (·.1)).Sublist (tree.rows.map (·.id)) := by
    rw [Tree.annotated]
    induction tree.rows with
    | nil => exact List.Sublist.refl _
    | cons row rows ih =>
        rw [List.filterMap_cons, List.map_cons]
        cases row.annotationOf? name with
        | none => exact ih.cons _
        | some value => exact ih.cons_cons _
  exact hsub.nodup h.ids_nodup

theorem Settling.gathering {records order : List Record} {tree : Tree}
    (h : Settling records order tree) (hall : ∀ record ∈ records, record ∈ order) :
    Gathering records (tree.annotated AnnotationName.intendedParent) tree where
  wellFormed := h.wellFormed
  distinct := ids_annotated_nodup h.wellFormed _
  named := h.receives.roots.named
  above := by
    intro root hroot
    refine ⟨?_, h.receives.roots.above root ?_⟩
    · intro hmem
      obtain ⟨⟨id, mark⟩, horphan, rfl⟩ := List.mem_map.mp hmem
      obtain ⟨row, hrow, hmark⟩ := (mem_annotated_iff h.wellFormed).mp horphan
      have hnone := h.rootsSettled id hroot
      rw [annotationOf?_eq_known?, hrow, Option.bind_some, hmark] at hnone
      contradiction
    · simp only [List.mem_cons, List.not_mem_nil, or_false] at hroot ⊢
      tauto
  there := by
    rintro ⟨id, mark⟩ horphan
    obtain ⟨row, hrow, -⟩ := (mem_annotated_iff h.wellFormed).mp horphan
    exact ⟨row, hrow⟩
  gathered := by
    intro record hrecord
    obtain ⟨id, row, hrow, hguid, hplace⟩ := h.settled record (hall record hrecord)
    refine ⟨id, row, hrow, hguid, h.receives.same_type record hrecord id row hrow hguid, ?_⟩
    rcases hplace with ⟨hmark, parent, habove, hname, -⟩ | ⟨hunfiled, hmark⟩
    · refine .inl ⟨?_, parent, habove, hname⟩
      intro hmem
      obtain ⟨⟨other, mark⟩, horphan, rfl⟩ := List.mem_map.mp hmem
      obtain ⟨found, hfound, hfoundMark⟩ := (mem_annotated_iff h.wellFormed).mp horphan
      obtain rfl := Option.some.inj (hrow.symm.trans hfound)
      rw [hmark] at hfoundMark
      contradiction
    · obtain ⟨guid, hgiven, -⟩ := h.receives.named record hrecord
      rw [hgiven] at hmark
      exact .inr ⟨hunfiled, guid, hgiven, (mem_annotated_iff h.wellFormed).mpr ⟨row, hrow, hmark⟩⟩

/-- The GUID of the folder that an item is directly in. -/
def folderOf? (tree : Tree) (guid : String) : Option String :=
  ((tree.idOfGuid? guid).bind tree.above?).bind tree.guidOf?

/-- Records that fit the tree and are admitted as they come, in whatever order, end with every item
directly under the folder that its record names. -/
theorem arrivals_gathered {store : BookmarkStore} (hstore : store.Reachable)
    {records order : List Record} (hrecords : store.tree.Receives records)
    (hroots : store.tree.RootsSettled) (horder : order.Perm records)
    (hclear : Unhindered store order) :
    ∃ next count last, (order.forM applyIncoming).result store = (.ok (), next) ∧
      reparentOrphans.result next = (.ok count, last) ∧
      ∀ record ∈ records, folderOf? last.tree record.id = record.parentid := by
  have hstart : Settling records [] store.tree :=
    ⟨hstore.wellFormed.tree, hrecords, hroots, fun _ hmem => absurd hmem (List.not_mem_nil)⟩
  obtain ⟨_, next, hnext, hsettling⟩ :=
    yields_arrivals order [] store (fun _ hmem => horder.subset hmem) hclear hstart
  have hgathering := hsettling.gathering fun _ hmem => horder.symm.subset hmem
  have hreparent : reparentOrphans.Yields next fun _ last => Gathering records [] last.tree := by
    have hall := yields_reparentAll hrecords.toOrderly (P := fun _ _ => True)
      (fun _ _ _ _ _ _ _ _ _ _ _ _ => trivial) (fun _ _ _ _ => trivial) _ next hgathering trivial
    refine (yields_read (P := fun orphans state =>
      orphans = next.tree.annotated AnnotationName.intendedParent ∧ next = state)
      ⟨rfl, rfl⟩).bind ?_
    rintro _ _ ⟨rfl, rfl⟩
    exact hall.imp fun _ _ hlast => hlast.1.1
  obtain ⟨count, last, hlast, hgathered⟩ := hreparent
  refine ⟨next, count, last, hnext, hlast, ?_⟩
  intro record hrecord
  obtain ⟨id, row, hrow, hguid, -, ⟨-, parent, habove, hname⟩ | ⟨-, _, -, hmem⟩⟩ :=
    hgathered.gathered record hrecord
  · rw [folderOf?, hgathered.wellFormed.idOfGuid?_iff.mpr ⟨row, hrow, hguid⟩, Option.bind_some,
      above?_of_known? hrow, habove, Option.bind_some, hname]
  · exact absurd hmem List.not_mem_nil

/-! ### Folders inside out -/

/-- Records whose parents have lower ranks make a forest. -/
theorem not_transGen_of_rank {records : List Record} (rank : String → Nat)
    (h : ∀ record ∈ records, ∀ guid, record.parentid = some guid → rank guid < rank record.id)
    (guid : String) : ¬ Relation.TransGen (Record.Prescribed records) guid guid := by
  have hlower : ∀ {first last : String},
      Relation.TransGen (Record.Prescribed records) first last → rank last < rank first := by
    intro first last hway
    induction hway with
    | single hstep =>
        obtain ⟨record, hrecord, rfl, hgiven⟩ := hstep
        exact h record hrecord _ hgiven
    | tail _ hstep ih =>
        obtain ⟨record, hrecord, rfl, hgiven⟩ := hstep
        exact (h record hrecord _ hgiven).trans ih
  exact fun hway => lt_irrefl _ (hlower hway)

theorem neverMakes_of_numbered {tree : Tree} (h : tree.guids = .numbered) {guid : String}
    (hguid : guid.toList.head? ≠ some '~') : tree.NeverMakes guid := by
  intro id _ count heq
  rw [h] at heq
  refine hguid ?_
  rw [← heq]
  change (GuidSource.numberedCandidate id count).toList.head? = _
  simp [GuidSource.numberedCandidate]

/-- For a tree with numbered items, it can be read off its rows whether records fit it. -/
theorem receives_of_rows {tree : Tree} (hguids : tree.guids = .numbered) {records : List Record}
    (hrecords : Record.Orderly records)
    (hnames : ∀ record ∈ records, record.id.toList.head? ≠ some '~')
    (hnamed : ∀ root ∈ rootNames, (tree.rows.find? (·.id == root.1)).map (·.guid) = some root.2)
    (habove : ∀ root ∈ [RootId.menu, RootId.toolbar, RootId.tags, RootId.unfiled],
      (tree.rows.find? (·.id == root)).bind (·.parent) = some RootId.places)
    (htypes : ∀ row ∈ tree.rows, ∀ record ∈ records, row.guid = record.id →
      row.typeCode = record.itemType.code) : tree.Receives records where
  toOrderly := hrecords
  roots := ⟨fun id guid hmem => hnamed (id, guid) hmem, habove⟩
  same_type := by
    intro record hrecord id row hrow hguid
    obtain ⟨found, hmem, -, rfl⟩ := exists_mem_of_known? hrow
    exact htypes found hmem record hrecord hguid
  never_made := fun record hrecord => neverMakes_of_numbered hguids (hnames record hrecord)

/-- The tree after records have been applied one by one, whatever their outcome, and then the
orphans have been moved. -/
def gatheredTree (store : BookmarkStore) (records : List Record) : Tree :=
  (StoreCall.runAll store (records.map .applyIncoming ++ [.reparentOrphans])).tree

def folderNamed (id parent : String) : Record :=
  { id, parentid := some parent, kind := .folder, title := some id }

/-- A folder in a folder. -/
def nestedStore : BookmarkStore :=
  StoreCall.runAll (fresh .numbered none)
    [.mutate (.createFolder RootId.menu "A" Places.atEnd), .mutate (.setGuid 6 "a"),
      .mutate (.createFolder 6 "B" Places.atEnd), .mutate (.setGuid 7 "b")]

/-- The same two folders, the other way round. -/
def turnedRecords : List Record :=
  [folderNamed "a" "b", folderNamed "b" RootGuid.menu]

/-- The two folders once the outer one of the records is in its place. -/
def turningStore : BookmarkStore :=
  StoreCall.run nestedStore (.applyIncoming (folderNamed "b" RootGuid.menu))

theorem reachable_nestedStore : nestedStore.Reachable :=
  ⟨.numbered, none, _, rfl⟩

theorem reachable_turningStore : turningStore.Reachable :=
  ⟨.numbered, none,
    [.mutate (.createFolder RootId.menu "A" Places.atEnd), .mutate (.setGuid 6 "a"),
      .mutate (.createFolder 6 "B" Places.atEnd), .mutate (.setGuid 7 "b"),
      .applyIncoming (folderNamed "b" RootGuid.menu)], rfl⟩

theorem rows_nestedStore : nestedStore.tree.rows =
    (Tree.fresh .numbered).rows ++
      [Tree.root 6 "a" (some RootId.menu) 0 "A", Tree.root 7 "b" (some 6) 0 "B"] := by
  cbv

theorem orderly_turnedRecords : Record.Orderly turnedRecords where
  proper := by
    intro record hrecord
    simp only [turnedRecords, List.mem_cons, List.not_mem_nil, or_false] at hrecord
    rcases hrecord with rfl | rfl <;> constructor <;> simp [folderNamed]
  distinct := by decide
  apart := by decide
  named := by
    intro record hrecord
    simp only [turnedRecords, List.mem_cons, List.not_mem_nil, or_false] at hrecord
    rcases hrecord with rfl | rfl
    · exact ⟨"b", rfl, .inr ⟨folderNamed "b" RootGuid.menu, by decide, rfl, rfl⟩⟩
    · exact ⟨RootGuid.menu, rfl, .inl (by decide)⟩
  forest := by
    intro record _
    refine not_transGen_of_rank (fun guid => [RootGuid.menu, "b", "a"].idxOf guid) ?_ record.id
    decide

theorem receives_turnedRecords : nestedStore.tree.Receives turnedRecords := by
  refine receives_of_rows rfl orderly_turnedRecords (by decide) ?_ ?_ ?_ <;> rw [rows_nestedStore] <;> decide

theorem rootsSettled_nestedStore : nestedStore.tree.RootsSettled := by
  change ∀ root ∈ [RootId.menu, RootId.toolbar, RootId.unfiled],
    (nestedStore.tree.rows.find? (·.id == root)).bind
      (·.annotationOf? AnnotationName.intendedParent) = none
  rw [rows_nestedStore]
  decide

theorem admits_of_isWithin {tree : Tree} (h : tree.WellFormed) {record : Record}
    (hkind : record.kind ≠ .bookmark) (parent id : Int)
    (hparent : record.parentid.bind tree.idOfGuid? = some parent)
    (hid : tree.idOfGuid? record.id = some id) (hread : tree.isWithin parent id = .ok false) :
    tree.Admits record := by
  intro place hplace
  obtain rfl := Option.some.inj (hparent.symm.trans hplace)
  refine ⟨?_, fun hbookmark => absurd hbookmark hkind⟩
  intro item hitem
  obtain rfl := Option.some.inj (hid.symm.trans hitem)
  exact h.not_encloses_of_isWithin hread

theorem unhindered_nestedStore : Unhindered nestedStore turnedRecords.reverse := by
  have hlast : turningStore.tree.Admits (folderNamed "a" "b") := by
    refine admits_of_isWithin reachable_turningStore.wellFormed.tree (by decide) 7 6 ?_ ?_ ?_ <;>
      cbv
  refine ⟨?_, ?_⟩
  · refine admits_of_isWithin reachable_nestedStore.wellFormed.tree (by decide) RootId.menu 7
      ?_ ?_ ?_ <;> cbv
  · intro next hnext
    have hturning : turningStore = next := congrArg Prod.snd hnext
    rw [← hturning]
    exact ⟨hlast, fun _ _ => trivial⟩

/-- Two folders change places when the record of the outer one arrives first. -/
theorem folders_turned :
    ∃ next count last, (turnedRecords.reverse.forM applyIncoming).result nestedStore =
        (.ok (), next) ∧
      reparentOrphans.result next = (.ok count, last) ∧
      ∀ record ∈ turnedRecords, folderOf? last.tree record.id = record.parentid :=
  arrivals_gathered reachable_nestedStore receives_turnedRecords rootsSettled_nestedStore
    turnedRecords.reverse_perm unhindered_nestedStore

/-! ### Where an order matters -/

/-- A tag with a bookmark in it. -/
def taggedStore : BookmarkStore :=
  StoreCall.runAll (fresh .numbered none)
    [.mutate (.tagUri "about:blank" ["t"]), .mutate (.setGuid 6 "f")]

/-- The folder of the tag moved to the menu, with a bookmark for it. -/
def untaggedRecords : List Record :=
  [{ id := "b", parentid := some "f", kind := .bookmark, bmkUri := some "about:blank"
     tags := some [] },
    folderNamed "f" RootGuid.menu]

/-- A menu that waits for a parent itself. -/
def markedStore : BookmarkStore :=
  StoreCall.runAll (fresh .numbered none)
    [.mutate (.annotate RootId.menu AnnotationName.intendedParent "Tx")]

/-- Three new folders, the outermost last. -/
def chainRecords : List Record :=
  [folderNamed "z" "w", folderNamed "x" "z", folderNamed "w" RootGuid.menu]

theorem rows_taggedStore : taggedStore.tree.rows =
    (Tree.fresh .numbered).rows ++
      [Tree.root 6 "f" (some RootId.tags) 0 "t",
        { id := 7, guid := GuidSource.numberedCandidate 7 0, parent := some 6, position := 0
          typeCode := ItemType.bookmark.code, title := none, url := some "about:blank" }] := by
  cbv

theorem rows_markedStore : markedStore.tree.rows =
    [Tree.root RootId.places RootGuid.places none 0 "",
      (Tree.root RootId.menu RootGuid.menu (some RootId.places) 0 "Bookmarks Menu").annotate
        AnnotationName.intendedParent "Tx",
      Tree.root RootId.toolbar RootGuid.toolbar (some RootId.places) 1 "Bookmarks Toolbar",
      Tree.root RootId.tags RootGuid.tags (some RootId.places) 2 "Tags",
      Tree.root RootId.unfiled RootGuid.unfiled (some RootId.places) 3 "Other Bookmarks"] := by
  cbv

theorem orderly_untaggedRecords : Record.Orderly untaggedRecords where
  proper := by
    intro record hrecord
    simp only [untaggedRecords, List.mem_cons, List.not_mem_nil, or_false] at hrecord
    rcases hrecord with rfl | rfl
    · constructor <;> simp
      cbv
    · constructor <;> simp [folderNamed]
  distinct := by decide
  apart := by decide
  named := by
    intro record hrecord
    simp only [untaggedRecords, List.mem_cons, List.not_mem_nil, or_false] at hrecord
    rcases hrecord with rfl | rfl
    · exact ⟨"f", rfl, .inr ⟨folderNamed "f" RootGuid.menu, by decide, rfl, rfl⟩⟩
    · exact ⟨RootGuid.menu, rfl, .inl (by decide)⟩
  forest := by
    intro record _
    refine not_transGen_of_rank (fun guid => [RootGuid.menu, "f", "b"].idxOf guid) ?_ record.id
    decide

theorem orderly_chainRecords : Record.Orderly chainRecords where
  proper := by
    intro record hrecord
    simp only [chainRecords, List.mem_cons, List.not_mem_nil, or_false] at hrecord
    rcases hrecord with rfl | rfl | rfl <;> constructor <;> simp [folderNamed]
  distinct := by decide
  apart := by decide
  named := by
    intro record hrecord
    simp only [chainRecords, List.mem_cons, List.not_mem_nil, or_false] at hrecord
    rcases hrecord with rfl | rfl | rfl
    · exact ⟨"w", rfl, .inr ⟨folderNamed "w" RootGuid.menu, by decide, rfl, rfl⟩⟩
    · exact ⟨"z", rfl, .inr ⟨folderNamed "z" "w", by decide, rfl, rfl⟩⟩
    · exact ⟨RootGuid.menu, rfl, .inl (by decide)⟩
  forest := by
    intro record _
    refine not_transGen_of_rank (fun guid => [RootGuid.menu, "w", "z", "x"].idxOf guid) ?_
      record.id
    decide

theorem receives_untaggedRecords : taggedStore.tree.Receives untaggedRecords := by
  refine receives_of_rows (by cbv) orderly_untaggedRecords (by decide) ?_ ?_ ?_ <;>
    rw [rows_taggedStore] <;> decide

theorem receives_chainRecords : markedStore.tree.Receives chainRecords := by
  refine receives_of_rows rfl orderly_chainRecords (by decide) ?_ ?_ ?_ <;>
    rw [rows_markedStore] <;> decide

theorem folderOf?_turned :
    folderOf? (gatheredTree nestedStore turnedRecords) "a" = some RootGuid.menu := by
  cbv

theorem folderOf?_untagged :
    folderOf? (gatheredTree taggedStore untaggedRecords) "b" = none := by
  cbv

theorem folderOf?_chain :
    folderOf? (gatheredTree markedStore chainRecords) "z" = some RootGuid.unfiled := by
  cbv

/-- An item stays where it was when its folder is still below it, a bookmark goes when its folder is
still a tag, and an item stays an orphan when a root is moved below it first. -/
theorem items_astray :
    (nestedStore.Reachable ∧ nestedStore.tree.Receives turnedRecords ∧
      ¬ ∀ record ∈ turnedRecords,
        folderOf? (gatheredTree nestedStore turnedRecords) record.id = record.parentid) ∧
    (taggedStore.Reachable ∧ taggedStore.tree.Receives untaggedRecords ∧
      ¬ ∀ record ∈ untaggedRecords,
        folderOf? (gatheredTree taggedStore untaggedRecords) record.id = record.parentid) ∧
    (markedStore.Reachable ∧ markedStore.tree.Receives chainRecords ∧
      ¬ ∀ record ∈ chainRecords,
        folderOf? (gatheredTree markedStore chainRecords) record.id = record.parentid) := by
  refine ⟨⟨reachable_nestedStore, receives_turnedRecords, ?_⟩,
    ⟨⟨.numbered, none, _, rfl⟩, receives_untaggedRecords, ?_⟩,
    ⟨⟨.numbered, none, _, rfl⟩, receives_chainRecords, ?_⟩⟩
  · intro hall
    have hplace := hall _ List.mem_cons_self
    exact absurd (folderOf?_turned.symm.trans hplace) (by decide)
  · intro hall
    have hplace := hall _ List.mem_cons_self
    exact absurd (folderOf?_untagged.symm.trans hplace) (by decide)
  · intro hall
    have hplace := hall _ List.mem_cons_self
    exact absurd (folderOf?_chain.symm.trans hplace) (by decide)

end BookmarkStore

end SyncedBookmarks
