import SyncedBookmarks.Proofs.Enduring
import SyncedBookmarks.Proofs.Retagging
import SyncedBookmarks.Proofs.Serializing

namespace SyncedBookmarks

/-! Every run of calls on a fresh store, whatever their arguments and whether they succeed or not,
leaves its tree well-formed and its cache with nothing but records as they are made from items. -/

namespace BookmarkStore

open SyncedBookmarks.Action

/-! ### Incoming records -/

theorem endures_wellFormed (id : Int) : Endures WellFormed id where
  title := fun title => keeps_onTree (Places.keeps_setTitle id title)
  keyword := fun keyword => keeps_onTree (Places.keeps_setKeyword id keyword)
  annotate := fun name value _ => keeps_onTree (Places.keeps_annotate id name value)
  unannotate := fun name _ => keeps_onTree (Places.keeps_unannotate id name)
  site := fun uri => keeps_onTree (Places.keeps_setSite id uri)
  feed := fun uri => keeps_onTree (Places.keeps_setFeed id uri)

theorem keeps_localizeQuery (record : Record) : (localizeQuery record).Keeps WellFormed := by
  rw [localizeQuery]
  split
  · refine (keeps_onTree (Places.keeps_tagUri _ _)).bind fun _ => (keeps_checked _).bind
      fun folders => ?_
    split
    · exact keeps_pure _ _
    · exact keeps_pure _ _
  · exact keeps_pure _ _

theorem keeps_create_wellFormed (record : Record) (place : Option Int) :
    (create record place).Keeps WellFormed :=
  keeps_create (fun parent => ensures_createItem
      (ensures_createBookmark
        (fun uri _ => (keeps_onTree (Places.keeps_insertBookmark parent uri _ _)).ensures)
        fun id uri _ _ => (endures_wellFormed id).fillBookmark record (keeps_replaceTags uri))
      (fun title => (keeps_onTree (Places.keeps_createFolder parent title _)).ensures)
      (fun title feed => (keeps_onTree (Places.keeps_createLivemark parent title _ feed _)).ensures)
      (keeps_onTree (Places.keeps_insertSeparator parent _)).ensures)
    fun id _ => keeps_onTree (Places.keeps_setGuid id record.id)

theorem keeps_updateParent (id parent : Int) :
    (updateParent id parent).Keeps Places.WellFormed := by
  refine (Places.keeps_checked _).bind fun above => ?_
  split
  · exact Places.keeps_moveItem _ _ _
  · exact keeps_pure _ _

theorem keeps_updateTags (id : Int) (tags : List String) :
    (updateTags id tags).Keeps WellFormed := by
  refine (keeps_checked _).bind fun uri => ?_
  cases uri with
  | some uri => exact keeps_replaceTags uri tags
  | none => exact keeps_pure _ _

theorem keeps_update (record : Record) (place : Option Int) :
    (update record place).Keeps WellFormed :=
  fun _ hwell => holds_update hwell (fun id _ parent => keeps_onTree (keeps_updateParent id parent))
    fun id _ => (endures_wellFormed id).updateFields
      (fun uri _ => keeps_onTree (Places.keeps_setUrl id uri)) (keeps_updateTags id)

theorem keeps_remove (record : Record) : (remove record).Keeps WellFormed := by
  have hbookmark : ∀ id, (removeBookmark id).Keeps Places.WellFormed := fun id =>
    (Places.keeps_checked _).bind fun _ =>
      (keeps_optionForM _ fun _ => Places.keeps_untagUri _ _).bind fun _ =>
        Places.keeps_removeItem _
  exact fun _ hwell => holds_remove hwell (fun id _ => keeps_onTree (hbookmark id))
    (fun id _ => keeps_onTree (Places.keeps_removeFolder id))
    fun id _ => keeps_onTree (Places.keeps_removeItem id)

theorem keeps_markOrphan (id : Int) (parent : Option Int) (orphanOf : Option String) :
    (markOrphan id parent orphanOf).Keeps Places.WellFormed := by
  cases orphanOf with
  | some guid => exact Places.keeps_annotate _ _ _
  | none =>
      rw [markOrphan]
      split
      · exact Places.keeps_unannotate _ _
      · exact keeps_pure _ _

theorem keeps_forget (guid : String) :
    (Action.change (·.forget guid) : StoreAction Unit).Keeps WellFormed :=
  fun _ hwell => hwell.forget guid

/-! An incoming record is made local, brought into the tree, and its item marked with the parent
that it waits for. -/

def localized (record : Record) : StoreAction Record :=
  if record.kind = .query then localizeQuery record else pure record

def bringIn (record : Record) (parent : Option Int) : StoreAction Unit :=
  if record.deleted then remove record
  else do if ← exists? record.id then update record parent else create record parent

def settle (guid : String) (parent : Option Int) (orphanOf : Option String) :
    StoreAction Unit := do
  Action.change (·.forget guid)
  match ← look (·.idOfGuid? guid) with
  | some id => onTree (markOrphan id parent orphanOf)
  | none => pure ()

theorem result_settle_of_some {store : BookmarkStore} {guid : String} {id : Int}
    (hid : store.tree.idOfGuid? guid = some id) (parent : Option Int) (orphanOf : Option String) :
    (settle guid parent orphanOf).result store =
      (onTree (markOrphan id parent orphanOf)).result (store.forget guid) := by
  rw [settle, result_bind, result_change]
  dsimp only
  rw [result_look_bind, show (store.forget guid).tree.idOfGuid? guid = some id from hid]

theorem result_settle_of_none {store : BookmarkStore} {guid : String}
    (hid : store.tree.idOfGuid? guid = none) (parent : Option Int) (orphanOf : Option String) :
    (settle guid parent orphanOf).result store = (.ok (), store.forget guid) := by
  rw [settle, result_bind, result_change]
  dsimp only
  rw [result_look_bind, show (store.forget guid).tree.idOfGuid? guid = none from hid]
  rfl

/-- What is done with a record that is local. -/
def takeIn (record : Record) : StoreAction Unit := do
  let (parent, orphanOf) ← look (destination · record.parentid)
  bringIn record parent
  settle record.id parent orphanOf

theorem result_takeIn (store : BookmarkStore) (record : Record) :
    (takeIn record).result store =
      (bringIn record (destination store.tree record.parentid).1 >>= fun _ =>
        settle record.id (destination store.tree record.parentid).1
          (destination store.tree record.parentid).2).result store := by
  rw [takeIn, result_look_bind]

theorem applyIncoming_eq {record : Record} (hroot : RootGuid.all.contains record.id = false) :
    applyIncoming record = (do
      let record ← localized record
      let (parent, orphanOf) ← look (destination · record.parentid)
      bringIn record parent
      settle record.id parent orphanOf) := by
  rw [applyIncoming, if_neg (by rw [hroot]; exact Bool.false_ne_true)]
  have hrest : ∀ record : Record, (do
      let (parent, orphanOf) ← look (destination · record.parentid)
      if record.deleted then remove record
      else if ← exists? record.id then update record parent
      else create record parent
      Action.change (·.forget record.id)
      match ← look (·.idOfGuid? record.id) with
      | some id => onTree (markOrphan id parent orphanOf)
      | none => pure () : StoreAction Unit) = (do
        let (parent, orphanOf) ← look (destination · record.parentid)
        bringIn record parent
        settle record.id parent orphanOf) := by
    intro record
    congr 1
    funext place
    obtain ⟨parent, orphanOf⟩ := place
    simp only [bringIn]
    split
    · rfl
    · rw [bind_assoc]
      congr 1
      funext there
      split <;> rfl
  simp only [localized]
  split
  · congr 1
    funext record
    exact hrest record
  · exact hrest record

section BringIn

variable {store first : BookmarkStore} {record made : Record}

theorem bringIn_of_deleted (hdeleted : record.deleted = true) (parent : Option Int) :
    bringIn record parent = remove record :=
  if_pos hdeleted

theorem result_bringIn_of_some (hdeleted : record.deleted = false) {id : Int}
    (hid : store.tree.idOfGuid? record.id = some id) (parent : Option Int) :
    (bringIn record parent).result store = (update record parent).result store := by
  rw [bringIn, if_neg (by simp [hdeleted]), exists?, result_look_bind, hid, Option.isSome_some,
    if_pos rfl]

theorem result_bringIn_of_none (hdeleted : record.deleted = false)
    (hid : store.tree.idOfGuid? record.id = none) (parent : Option Int) :
    (bringIn record parent).result store = (create record parent).result store := by
  rw [bringIn, if_neg (by simp [hdeleted]), exists?, result_look_bind, hid, Option.isSome_none,
    if_neg Bool.false_ne_true]

/-- Where a record goes is looked up once it is local. -/
theorem result_applyIncoming_of_ok (hroot : RootGuid.all.contains record.id = false)
    (hlocal : (localized record).result store = (.ok made, first)) :
    (applyIncoming record).result store =
      (bringIn made (destination first.tree made.parentid).1 >>= fun _ =>
        settle made.id (destination first.tree made.parentid).1
          (destination first.tree made.parentid).2).result first := by
  rw [applyIncoming_eq hroot, result_bind, hlocal]
  rfl

theorem result_applyIncoming_of_error (hroot : RootGuid.all.contains record.id = false)
    {cause : StoreError} (hlocal : (localized record).result store = (.error cause, first)) :
    (applyIncoming record).result store = (.error cause, first) := by
  rw [applyIncoming_eq hroot, result_bind, hlocal]

end BringIn

theorem keeps_applyIncoming (record : Record) : (applyIncoming record).Keeps WellFormed := by
  cases hroot : RootGuid.all.contains record.id with
  | true =>
      rw [applyIncoming, if_pos hroot]
      exact keeps_pure _ _
  | false =>
      rw [applyIncoming_eq hroot]
      have hlocalized : (localized record).Keeps WellFormed := by
        rw [localized]
        split
        · exact keeps_localizeQuery record
        · exact keeps_pure _ _
      have hbring : ∀ record parent, (bringIn record parent).Keeps WellFormed := by
        intro record parent
        rw [bringIn]
        split
        · exact keeps_remove record
        · refine (keeps_look _).bind fun there => ?_
          split
          · exact keeps_update record parent
          · exact keeps_create_wellFormed record parent
      have hsettle : ∀ guid parent orphanOf, (settle guid parent orphanOf).Keeps WellFormed := by
        intro guid parent orphanOf
        refine (keeps_forget guid).bind fun _ => (keeps_look _).bind fun id => ?_
        cases id with
        | some id => exact keeps_onTree (keeps_markOrphan _ _ _)
        | none => exact keeps_pure _ _
      exact hlocalized.bind fun record => (keeps_look _).bind fun place =>
        (hbring record place.1).bind fun _ => hsettle record.id place.1 place.2

/-! ### Orphans and whole-store steps -/

theorem keeps_reparent (id : Int) (mark : String) : (reparent id mark).Keeps WellFormed := by
  refine (keeps_look _).bind fun parent => ?_
  cases parent with
  | none => exact keeps_pure _ _
  | some parent =>
      refine (keeps_onTree (Places.keeps_moveItem _ _ _)).attempt.bind fun outcome => ?_
      cases outcome with
      | error cause => exact keeps_pure _ _
      | ok moved =>
          refine (keeps_onTree (Places.keeps_unannotate _ _)).bind fun _ =>
            (keeps_look _).bind fun guid => ?_
          cases guid with
          | some guid => exact (keeps_forget guid).bind fun _ => keeps_pure _ _
          | none => exact keeps_pure _ _

theorem keeps_reparentAll (orphans : List (Int × String)) :
    (reparentAll orphans).Keeps WellFormed := by
  induction orphans with
  | nil => exact keeps_pure _ _
  | cons orphan orphans ih =>
      exact (keeps_reparent _ _).bind fun _ => ih.bind fun _ => keeps_pure _ _

theorem keeps_reparentOrphans : reparentOrphans.Keeps WellFormed :=
  (keeps_look _).bind fun orphans => keeps_reparentAll orphans

theorem keeps_changeItemId (old new : String) : (changeItemId old new).Keeps WellFormed := by
  rw [changeItemId]
  split
  · exact keeps_pure _ _
  · refine (keeps_look _).bind fun id => (keeps_look _).bind fun owner => ?_
    split
    · exact keeps_throw _ _
    · split
      · exact keeps_pure _ _
      · exact keeps_throw _ _
    · exact (keeps_onTree (Places.keeps_setGuid _ _)).bind fun _ => keeps_forget _

theorem keeps_clearCache : (Action.change clearCache : StoreAction Unit).Keeps WellFormed :=
  fun _ hwell => ⟨hwell.tree, by simp [result_change, clearCache]⟩

theorem keeps_wipe : wipe.Keeps WellFormed := by
  refine (keeps_forM _ fun guid _ => (keeps_look _).bind fun root => ?_).bind fun _ =>
    keeps_clearCache
  cases root with
  | some root => exact keeps_onTree (Places.keeps_removeChildren root)
  | none => exact keeps_pure _ _

end BookmarkStore

/-- A call on a store, or an operation on its tree by someone else. -/
inductive StoreCall where
  | mutate (mutation : Mutation)
  | applyIncoming (record : Record)
  | createRecord (guid : String)
  | changeItemId (old new : String)
  | reparentOrphans
  | wipe
  | forget (guid : String)
  | clearCache

namespace StoreCall

/-- The call, for its effect alone. -/
def action : StoreCall → StoreAction Unit
  | mutate mutation => BookmarkStore.onTree mutation.action
  | applyIncoming record => BookmarkStore.applyIncoming record
  | createRecord guid => (fun _ => ()) <$> BookmarkStore.createRecord guid
  | changeItemId old new => BookmarkStore.changeItemId old new
  | reparentOrphans => (fun _ => ()) <$> BookmarkStore.reparentOrphans
  | wipe => BookmarkStore.wipe
  | forget guid => Action.change (·.forget guid)
  | clearCache => Action.change BookmarkStore.clearCache

theorem keeps_action (call : StoreCall) : call.action.Keeps BookmarkStore.WellFormed := by
  cases call with
  | mutate mutation => exact BookmarkStore.keeps_onTree mutation.keeps_action
  | applyIncoming record => exact BookmarkStore.keeps_applyIncoming record
  | createRecord guid => exact (BookmarkStore.ensures_createRecord guid).keeps.map _
  | changeItemId old new => exact BookmarkStore.keeps_changeItemId old new
  | reparentOrphans => exact BookmarkStore.keeps_reparentOrphans.map _
  | wipe => exact BookmarkStore.keeps_wipe
  | forget guid => exact BookmarkStore.keeps_forget guid
  | clearCache => exact BookmarkStore.keeps_clearCache

/-- What a call leaves, also where it fails. -/
def run (store : BookmarkStore) (call : StoreCall) : BookmarkStore :=
  (call.action.result store).2

def runAll (store : BookmarkStore) (calls : List StoreCall) : BookmarkStore :=
  calls.foldl run store

theorem wellFormed_runAll {store : BookmarkStore} (h : store.WellFormed) (calls : List StoreCall) :
    (runAll store calls).WellFormed := by
  induction calls generalizing store with
  | nil => exact h
  | cons call calls ih => exact ih (call.keeps_action store h)

end StoreCall

namespace BookmarkStore

def fresh (guids : GuidSource) (generators : Option (List String)) : BookmarkStore :=
  { places := { tree := Tree.fresh guids }, generators }

/-- The stores that there can be. -/
def Reachable (store : BookmarkStore) : Prop :=
  ∃ guids generators calls, store = StoreCall.runAll (fresh guids generators) calls

theorem Reachable.wellFormed {store : BookmarkStore} (h : store.Reachable) : store.WellFormed := by
  obtain ⟨guids, generators, calls, rfl⟩ := h
  have hfresh : (fresh guids generators).WellFormed :=
    ⟨Tree.wellFormed_fresh guids, by simp [fresh]⟩
  exact StoreCall.wellFormed_runAll hfresh calls

end BookmarkStore

end SyncedBookmarks
