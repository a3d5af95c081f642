import SyncedBookmarks.Proofs.StoreRuns

namespace SyncedBookmarks

/-! Applying records puts nothing into the cache: it holds at most what it held before. -/

namespace BookmarkStore

open SyncedBookmarks.Action

def Forgets (action : StoreAction α) : Prop :=
  ∀ (cache : List (String × Record)) (generators : Option (List String)),
    action.Keeps fun store => store.cache ⊆ cache ∧ store.generators = generators

theorem forgets_pure (value : α) : Forgets (pure value) :=
  fun _ _ => keeps_pure _ _

theorem forgets_read (view : BookmarkStore → α) : Forgets (Action.read view) :=
  fun _ _ => keeps_read _ _

theorem forgets_onTree (action : TreeAction α) : Forgets (onTree action) :=
  fun _ _ _ h => h

theorem forgets_forget (guid : String) :
    Forgets (Action.change (·.forget guid) : StoreAction Unit) :=
  fun _ _ _ h => ⟨fun _ hentry => h.1 (List.mem_filter.mp hentry).1, h.2⟩

theorem Forgets.bind {action : StoreAction α} {next : α → StoreAction β} (haction : Forgets action)
    (hnext : ∀ value, Forgets (next value)) : Forgets (action >>= next) :=
  fun cache generators => (haction cache generators).bind fun value => hnext value cache generators

theorem Forgets.attempt {action : StoreAction α} (haction : Forgets action) :
    Forgets (action.attempt : StoreAction (Except StoreError α)) :=
  fun cache generators => (haction cache generators).attempt

/-! ### Incoming records -/

theorem forgets_replaceTags (uri : String) (tags : List String) : Forgets (replaceTags uri tags) :=
  (forgets_onTree _).bind fun _ => (forgets_onTree _).bind fun _ =>
    (forgets_onTree _).bind fun _ => forgets_onTree _

theorem endures_forgets (cache : List (String × Record)) (generators : Option (List String))
    (id : Int) : Endures (fun store => store.cache ⊆ cache ∧ store.generators = generators) id where
  title := fun _ => forgets_onTree _ cache generators
  keyword := fun _ => forgets_onTree _ cache generators
  annotate := fun _ _ _ => forgets_onTree _ cache generators
  unannotate := fun _ _ => forgets_onTree _ cache generators
  site := fun _ => forgets_onTree _ cache generators
  feed := fun _ => forgets_onTree _ cache generators

theorem forgets_localized (record : Record) : Forgets (localized record) := by
  rw [localized]
  split
  · rw [localizeQuery]
    split
    · refine (forgets_onTree _).bind fun _ => (forgets_onTree _).bind fun folders => ?_
      split <;> exact forgets_pure _
    · exact forgets_pure _
  · exact forgets_pure _

theorem forgets_create (record : Record) (place : Option Int) : Forgets (create record place) := by
  intro cache generators
  have htree : ∀ {α : Type} (action : TreeAction α), (onTree action).Ensures
      (fun store => store.cache ⊆ cache ∧ store.generators = generators) fun _ => True :=
    fun action => (forgets_onTree action cache generators).ensures
  exact keeps_create (fun parent => ensures_createItem
      (ensures_createBookmark (fun _ _ => htree _) fun id uri _ _ =>
        (endures_forgets cache generators id).fillBookmark record fun tags =>
          forgets_replaceTags uri tags cache generators)
      (fun _ => htree _) (fun _ _ => htree _) (htree _))
    fun _ _ => forgets_onTree _ cache generators

theorem forgets_update (record : Record) (place : Option Int) : Forgets (update record place) := by
  have htags : ∀ id tags, Forgets (updateTags id tags) := by
    refine fun id tags => (forgets_onTree _).bind fun uri => ?_
    cases uri with
    | some uri => exact forgets_replaceTags uri tags
    | none => exact forgets_pure _
  exact fun cache generators _ hstore => holds_update hstore
    (fun id _ parent => forgets_onTree (updateParent id parent) cache generators)
    fun id _ => (endures_forgets cache generators id).updateFields
      (fun _ _ => forgets_onTree _ cache generators) fun tags => htags id tags cache generators

theorem forgets_remove (record : Record) : Forgets (remove record) :=
  fun cache generators _ hstore => holds_remove hstore
    (fun _ _ => forgets_onTree _ cache generators) (fun _ _ => forgets_onTree _ cache generators)
    fun _ _ => forgets_onTree _ cache generators

theorem forgets_applyIncoming (record : Record) : Forgets (applyIncoming record) := by
  cases hroot : RootGuid.all.contains record.id with
  | true =>
      rw [applyIncoming, if_pos hroot]
      exact forgets_pure _
  | false =>
      rw [applyIncoming_eq hroot]
      have hbring : ∀ record parent, Forgets (bringIn record parent) := by
        intro record parent
        rw [bringIn]
        split
        · exact forgets_remove record
        · refine (forgets_read _).bind fun there => ?_
          split
          · exact forgets_update record parent
          · exact forgets_create record parent
      have hsettle : ∀ guid parent orphanOf, Forgets (settle guid parent orphanOf) := by
        intro guid parent orphanOf
        refine (forgets_forget guid).bind fun _ => (forgets_read _).bind fun id => ?_
        cases id with
        | some id => exact forgets_onTree _
        | none => exact forgets_pure _
      exact (forgets_localized record).bind fun record => (forgets_read _).bind fun place =>
        (hbring record place.1).bind fun _ => hsettle record.id place.1 place.2

/-! ### Orphans -/

theorem forgets_reparentAll (orphans : List (Int × String)) : Forgets (reparentAll orphans) := by
  induction orphans with
  | nil => exact forgets_pure _
  | cons orphan orphans ih =>
      have hone : Forgets (reparent orphan.1 orphan.2) := by
        refine (forgets_read _).bind fun parent => ?_
        cases parent with
        | none => exact forgets_pure _
        | some parent =>
            refine (forgets_onTree _).attempt.bind fun outcome => ?_
            cases outcome with
            | error cause => exact forgets_pure _
            | ok moved =>
                refine (forgets_onTree _).bind fun _ => (forgets_read _).bind fun guid => ?_
                cases guid with
                | some guid => exact (forgets_forget guid).bind fun _ => forgets_pure _
                | none => exact forgets_pure _
      exact hone.bind fun _ => ih.bind fun _ => forgets_pure _

theorem forgets_reparentOrphans : Forgets reparentOrphans :=
  (forgets_read _).bind fun orphans => forgets_reparentAll orphans

end BookmarkStore

end SyncedBookmarks
