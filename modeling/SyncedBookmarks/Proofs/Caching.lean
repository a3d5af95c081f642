import SyncedBookmarks.Proofs.OrphanPass
import SyncedBookmarks.Proofs.Passes
import SyncedBookmarks.Proofs.RootSafety

namespace SyncedBookmarks

/-! The records in the cache. What an operation makes of an item's own data is never hidden by them;
what it makes of other items that a record tells of may be. -/

theorem Action.snd_result_map (f : α → β) (action : Action σ ε α) (state : σ) :
    ((f <$> action).result state).2 = (action.result state).2 := by
  rw [map_eq_pure_bind, result_bind]
  cases action.result state with
  | mk outcome next => cases outcome <;> rfl

/-- Which item a record is made of, and what it tells of others: the name of the folder, the tags of
the URI, and the title of the folder of a query. -/
structure Outlook where
  item : Int
  parent : Option String
  tags : Option (List String)
  folderName : Option String

theorem Row.ownAccount_eq (generators : Option (List String)) (row : Row) (tree : Tree) :
    row.ownAccount generators tree = { row.ownGist generators with
      tags := (row.ownAccount generators tree).tags
      folderName := (row.ownAccount generators tree).folderName } := by
  rw [ownAccount]
  split <;> rfl

/-- Whether an item has a certain GUID or is yet to come. -/
def Tree.OwnedBy (tree : Tree) (guid : String) (id : Int) : Prop :=
  tree.nextId ≤ id ∨ ∃ row, tree.known? id = some row ∧ row.guid = guid

theorem Tree.WellFormed.ownedBy_iff {tree : Tree} (h : tree.WellFormed) {id : Int} {row : Row}
    (hrow : tree.known? id = some row) (guid : String) :
    tree.OwnedBy guid id ↔ row.guid = guid := by
  constructor
  · rintro (hle | ⟨found, hfound, hname⟩)
    · exact absurd (h.id_bounds id row hrow).2 hle.not_gt
    · exact Option.some.inj (hrow.symm.trans hfound) ▸ hname
  · exact fun hname => .inr ⟨row, hrow, hname⟩

namespace BookmarkStore

open SyncedBookmarks.Action SyncedBookmarks.Tree

/-- The outlook of the item with a GUID. -/
def outlook? (store : BookmarkStore) (guid : String) : Option Outlook := do
  let item ← store.tree.idOfGuid? guid
  let row ← store.tree.known? item
  let record := row.ownAccount store.generators store.tree
  pure
    { item, parent := row.parent.bind store.tree.guidOf?, tags := record.tags
      folderName := record.folderName }

/-- A later state, in which the cache holds no record of a GUID that it did not hold, and in which
the item with that GUID is as it was if it holds any. -/
structure Attends (guid : String) (before after : BookmarkStore) : Prop where
  generators : after.generators = before.generators
  cache : ∀ record, (guid, record) ∈ after.cache → (guid, record) ∈ before.cache
  item : ∀ record, (guid, record) ∈ after.cache → ∀ id row last, before.tree.known? id = some row →
    row.guid = guid → after.tree.known? id = some last → last.guid = guid → last = row

/-- Whether the cache holds of a GUID only what the tree tells. -/
def Current (guid : String) (store : BookmarkStore) : Prop :=
  ∀ record, (guid, record) ∈ store.cache → store.Told guid record

variable {store before after next : BookmarkStore} {guid : String} {record : Record} {id : Int}
  {row : Row}

/-! ### The cache and the tree -/

theorem exists_mem_of_cached? (h : store.cached? guid = some record) :
    (guid, record) ∈ store.cache := by
  obtain ⟨⟨name, found⟩, hfind, rfl⟩ := Option.map_eq_some_iff.mp h
  have hname : name = guid := by simpa using List.find?_some hfind
  exact hname ▸ List.mem_of_find?_eq_some hfind

theorem cached?_ne_none (h : (guid, record) ∈ store.cache) : store.cached? guid ≠ none := by
  intro hnone
  have hnot := List.find?_eq_none.mp (Option.map_eq_none_iff.mp hnone) _ h
  simp at hnot

theorem outlook?_of_known? (h : store.tree.WellFormed) (hrow : store.tree.known? id = some row) :
    store.outlook? row.guid = some
      { item := id, parent := row.parent.bind store.tree.guidOf?
        tags := (row.ownAccount store.generators store.tree).tags
        folderName := (row.ownAccount store.generators store.tree).folderName } := by
  simp only [outlook?, h.idOfGuid?_iff.mpr ⟨row, hrow, rfl⟩, hrow, bind, Option.bind_some, pure]

theorem outlook?_eq_none_iff (h : store.tree.WellFormed) :
    store.outlook? guid = none ↔ store.tree.idOfGuid? guid = none := by
  constructor
  · intro hnone
    by_contra hsome
    obtain ⟨id, hid⟩ := Option.ne_none_iff_exists'.mp hsome
    obtain ⟨row, hrow, rfl⟩ := h.idOfGuid?_iff.mp hid
    cases (outlook?_of_known? h hrow).symm.trans hnone
  · intro hnone
    rw [outlook?, hnone]
    rfl

/-- With the same item and the same outlook the record is the same. -/
theorem Attends.told (h : Attends guid before after) (hbefore : before.tree.WellFormed)
    (hafter : after.tree.WellFormed) (hlook : after.outlook? guid = before.outlook? guid)
    (hcached : (guid, record) ∈ after.cache) (htold : before.Told guid record) :
    after.Told guid record := by
  rcases htold with ⟨hnone, rfl⟩ | ⟨id, row, parent, hrow, rfl, hparent, rfl⟩
  · refine .inl ⟨(outlook?_eq_none_iff hafter).mp ?_, rfl⟩
    exact hlook.trans ((outlook?_eq_none_iff hbefore).mpr hnone)
  · have hseen := outlook?_of_known? hbefore hrow
    have hthere : after.tree.idOfGuid? row.guid ≠ none := by
      rw [ne_eq, ← outlook?_eq_none_iff hafter, hlook, hseen]
      simp
    obtain ⟨other, hother⟩ := Option.ne_none_iff_exists'.mp hthere
    obtain ⟨last, hlast, hname⟩ := hafter.idOfGuid?_iff.mp hother
    have hsame := (outlook?_of_known? hafter hlast).symm.trans
      ((congrArg after.outlook? hname).trans (hlook.trans hseen))
    obtain ⟨rfl, hfolder, htags, htitle⟩ := Outlook.mk.inj (Option.some.inj hsame)
    obtain rfl := h.item _ hcached other row last hrow rfl hlast hname
    refine .inr ⟨other, last, parent, hlast, rfl, hfolder.trans hparent, ?_⟩
    rw [Row.account, Row.account, Row.ownAccount_eq after.generators, htags, htitle, h.generators,
      ← Row.ownAccount_eq]

/-! ### Single operations -/

theorem attends_of_known? (hgenerators : after.generators = before.generators)
    (hcache : after.cache ⊆ before.cache)
    (hkept : (∃ record, (guid, record) ∈ after.cache) → ∀ id row, before.tree.known? id = some row →
      row.guid = guid → after.tree.known? id = some row ∨ after.tree.known? id = none) :
    Attends guid before after where
  generators := hgenerators
  cache := fun _ hentry => hcache hentry
  item := by
    intro record hentry id row last hrow hguid hlast _
    rcases hkept ⟨record, hentry⟩ id row hrow hguid with hsame | hgone
    · exact Option.some.inj (hlast.symm.trans hsame)
    · cases hlast.symm.trans hgone

theorem attends_refl (guid : String) (store : BookmarkStore) : Attends guid store store :=
  attends_of_known? rfl (fun _ => id) fun _ _ _ hrow _ => .inl hrow

theorem not_mem_forget (store : BookmarkStore) (guid : String) (record : Record) :
    (guid, record) ∉ (store.forget guid).cache := by
  simp [forget]

theorem forgets_at {action : StoreAction α} (h : Forgets action) (store : BookmarkStore) :
    (action.result store).2.cache ⊆ store.cache ∧
      (action.result store).2.generators = store.generators :=
  h store.cache store.generators store ⟨fun _ => id, rfl⟩

/-- What an item is as that may not be written to. -/
theorem Spares.known?_eq {still own : Int → Prop} (hspares : Spares still own own store.tree next)
    (h : store.tree.WellFormed) (hother : ¬ own id) (hrow : store.tree.known? id = some row)
    {last : Row} (hlast : next.tree.known? id = some last) : last = row := by
  rcases hspares.descends.origin id last hlast with ⟨origin, horigin, hstems⟩ | ⟨hle, -⟩
  · rw [hstems.same hother hother]
    exact Option.some.inj (horigin.symm.trans hrow)
  · exact absurd (h.id_bounds id row hrow).2 hle.not_gt

/-- A record that comes through is forgotten. -/
theorem not_mem_of_applyIncoming (h : store.tree.WellFormed)
    (hroot : RootGuid.all.contains record.id = false)
    (hok : ((applyIncoming record).result store).1 = .ok ()) (other : Record) :
    (record.id, other) ∉ ((applyIncoming record).result store).2.cache := by
  have hsettle : ∀ (state : BookmarkStore) parent orphanOf,
      (record.id, other) ∉ ((settle record.id parent orphanOf).result state).2.cache := by
    intro state parent orphanOf
    cases hid : state.tree.idOfGuid? record.id with
    | none =>
        rw [result_settle_of_none hid]
        exact not_mem_forget state record.id other
    | some id =>
        rw [result_settle_of_some hid]
        exact not_mem_forget state record.id other
  have hmade := (ensures_localized record store (Inherits.refl h)).2
  cases hlocal : (localized record).result store with
  | mk outcome first =>
      rw [hlocal] at hmade
      cases outcome with
      | error cause =>
          rw [result_applyIncoming_of_error hroot hlocal] at hok
          cases hok
      | ok made =>
          obtain ⟨bmkUri, rfl⟩ := hmade made rfl
          rw [result_applyIncoming_of_ok hroot hlocal] at hok ⊢
          obtain ⟨_, state, hbrought, -⟩ := exists_of_result_bind (Prod.ext hok rfl)
          rw [result_bind, hbrought]
          exact hsettle state _ _

theorem attends_applyIncoming (h : store.tree.WellFormed)
    (hdone : record.id = guid → ((applyIncoming record).result store).1 = .ok ()) :
    Attends guid store ((applyIncoming record).result store).2 := by
  cases hroot : RootGuid.all.contains record.id with
  | true =>
      rw [applyIncoming, if_pos hroot]
      exact attends_refl guid store
  | false =>
      obtain ⟨hcache, hgenerators⟩ := forgets_at (forgets_applyIncoming record) store
      -- What may change is the record's own item, and what is new.
      have howns : Owns (store.tree.OwnedBy record.id) store.tree record.id :=
        ⟨fun _ row hrow hguid => .inr ⟨row, hrow, hguid⟩, fun _ => .inl⟩
      have hspares := spares_applyIncoming h
        { there := fun _ hnone => False.elim hnone
          item := fun _ _ _ _ hnone => hnone
          sheltered := fun _ => sheltered_none store.tree } howns fun _ _ hnone => hnone
      refine ⟨hgenerators, fun _ hentry => hcache hentry, ?_⟩
      intro kept hentry id row last hrow hguid hlast _
      refine hspares.known?_eq h (fun hown => ?_) hrow hlast
      have heq : record.id = guid := ((h.ownedBy_iff hrow record.id).mp hown).symm.trans hguid
      exact not_mem_of_applyIncoming h hroot (hdone heq) kept (heq ▸ hentry)

theorem attends_changeItemId (h : store.tree.WellFormed) (old new : String) :
    Attends guid store ((changeItemId old new).result store).2 := by
  rw [changeItemId]
  split
  · exact attends_refl guid store
  · rw [result_look_bind, result_look_bind]
    cases hid : store.tree.idOfGuid? old with
    | none => exact attends_refl guid store
    | some id =>
        cases hnew : store.tree.idOfGuid? new with
        | some owner =>
            dsimp only
            split <;> exact attends_refl guid store
        | none =>
            obtain ⟨row, hrow, rfl⟩ := h.idOfGuid?_iff.mp hid
            obtain ⟨_, renamed, hresult, htree, hcache, hgenerators⟩ := leads_onTree
              (Places.leads_setGuid (Places.isSome_row?_of_known? hrow) hnew) store rfl
            dsimp only
            rw [result_bind_of_ok hresult]
            refine attends_of_known? hgenerators ?_ ?_
            · exact fun _ hentry => hcache ▸ (List.mem_filter.mp hentry).1
            · rintro ⟨record, hentry⟩ other found hfound hguid
              have hne : other ≠ id := by
                rintro rfl
                obtain rfl := Option.some.inj (hrow.symm.trans hfound)
                exact not_mem_forget renamed row.guid record (hguid ▸ hentry)
              refine .inl ?_
              change renamed.tree.known? other = some found
              rw [htree, (steady_guid new).known?, if_neg hne]
              exact hfound

theorem attends_wipe (h : store.tree.WellFormed) : Attends guid store (wipe.result store).2 := by
  have hkept : wipe.Keeps (Spares (fun _ => False) (fun _ => False) (fun _ => False) store.tree) := by
    refine (keeps_forM _ fun guid _ => (keeps_read _ _).bind fun root => ?_).bind fun _ _ h => h
    cases root with
    | none => exact keeps_pure _ _
    | some root =>
        exact keeps_onTree_spares
          (Places.keeps_removeChildren_spares (sheltered_none _).upward fun _ hnone => hnone.elim)
  have hforgets : Forgets wipe := by
    refine fun cache generators => (keeps_forM _ fun guid _ => (keeps_read _ _).bind fun root => ?_).bind
      fun _ _ h => ⟨List.nil_subset _, h.2⟩
    cases root with
    | none => exact keeps_pure _ _
    | some root => exact forgets_onTree _ cache generators
  obtain ⟨hcache, hgenerators⟩ := forgets_at hforgets store
  have hspares := hkept store (Places.Spares.refl h fun _ hnone => False.elim hnone)
  exact ⟨hgenerators, fun _ hentry => hcache hentry,
    fun _ _ _ _ _ hrow _ hlast _ => hspares.known?_eq h (fun hnone => hnone) hrow hlast⟩

/-- A later state with the same items. Of those with a certain GUID that have changed the cache holds
no record. -/
structure Minds (guid : String) (before after : BookmarkStore) : Prop where
  wellFormed : after.tree.WellFormed
  generators : after.generators = before.generators
  cache : after.cache ⊆ before.cache
  there : ∀ id, (after.tree.known? id).isSome = (before.tree.known? id).isSome
  item : (∃ record, (guid, record) ∈ after.cache) → ∀ id row, after.tree.known? id = some row →
    row.guid = guid → before.tree.known? id = some row

theorem Minds.attends (h : Minds guid before after) : Attends guid before after where
  generators := h.generators
  cache := fun _ hentry => h.cache hentry
  item := by
    intro record hentry id row last hrow _ hlast hname
    exact Option.some.inj ((h.item ⟨record, hentry⟩ id last hlast hname).symm.trans hrow)

/-- Where an item has moved there is no record of it left. -/
theorem Minds.reparent (h : Minds guid store next) (hid : (store.tree.known? id).isSome)
    (mark : String) : (reparent id mark).Yields next fun _ last => Minds guid store last := by
  by_cases hnone : ∀ parent, next.tree.idOfGuid? (intendedParent mark) = some parent →
      next.tree.IsFolder parent → next.tree.Encloses id parent
  · exact ⟨false, next, result_reparent_refused h.wellFormed hnone, h⟩
  · push Not at hnone
    obtain ⟨parent, htarget, hfolder, houtside⟩ := hnone
    obtain ⟨row, hrow⟩ := Option.isSome_iff_exists.mp ((h.there id).trans hid)
    refine (yields_reparent_moved h.wellFormed hrow htarget hfolder houtside).imp ?_
    rintro _ last ⟨-, hrewritten, hcache, hgenerators⟩
    constructor
    case wellFormed => exact hrewritten.wellFormed
    case generators => exact hgenerators.trans h.generators
    case cache =>
      intro entry hentry
      rw [hcache] at hentry
      exact h.cache (List.mem_filter.mp hentry).1
    case there =>
      intro other
      rw [hrewritten.known?]
      split
      · rename_i heq
        rw [heq, hid, Option.isSome_some]
      · exact h.there other
    case item =>
      rintro ⟨record, hentry⟩ other found hfound hguid
      rw [hcache] at hentry
      rw [hrewritten.known?] at hfound
      split at hfound
      · obtain rfl := Option.some.inj hfound
        exact absurd (hguid ▸ hentry) (not_mem_forget next row.guid record)
      · exact h.item ⟨record, (List.mem_filter.mp hentry).1⟩ other found hfound hguid

theorem attends_reparentOrphans (h : store.tree.WellFormed) :
    Attends guid store (reparentOrphans.result store).2 := by
  have hstart : Minds guid store store := ⟨h, rfl, fun _ => id, fun _ => rfl, fun _ _ _ hrow _ => hrow⟩
  have hone : ∀ orphan ∈ store.tree.annotated AnnotationName.intendedParent, ∀ state,
      Minds guid store state →
        (reparent orphan.1 orphan.2).Yields state fun _ next => Minds guid store next := by
    rintro ⟨id, mark⟩ horphan state hminds
    obtain ⟨origin, horigin, -⟩ := (mem_annotated_iff h).mp horphan
    exact hminds.reparent (by rw [horigin, Option.isSome_some]) mark
  obtain ⟨_, -, hminds⟩ := (yields_reparentOrphans hstart hone).result
  exact hminds.attends

/-! ### Making records -/

theorem current_createRecord (h : store.tree.WellFormed) (hcurrent : store.Current guid)
    (other : String) : Current guid ((createRecord other).result store).2 := by
  cases hcached : store.cached? other with
  | some record =>
      rw [createRecord, result_bind, result_read, hcached]
      exact hcurrent
  | none =>
      by_cases hroot : store.tree.idOfGuid? other = some RootId.places
      · obtain ⟨cause, hcause⟩ := result_createRecord_places h hroot hcached
        rw [hcause]
        exact hcurrent
      · obtain ⟨made, htold, -, hmake⟩ := exists_told h hroot
        have hresult : (createRecord other).result store = (.ok made, store.remember other made) :=
          hmake store.cache hcached
        rw [hresult]
        intro record hentry
        rcases List.mem_append.mp hentry with hold | hnew
        · exact hcurrent record (List.mem_filter.mp hold).1
        · obtain ⟨rfl, rfl⟩ := Prod.mk.inj (List.mem_singleton.mp hnew)
          exact htold

/-- With a cache that is current, what comes out is what would be made anew. -/
theorem Current.result_createRecord (hcurrent : store.Current guid) (h : store.tree.WellFormed) :
    ((createRecord guid).result store).1 = store.newRecord guid := by
  cases hcached : store.cached? guid with
  | none => exact result_createRecord_of_uncached h hcached
  | some record =>
      have hout : ((createRecord guid).result store).1 = .ok record := by
        rw [createRecord, result_bind, result_read, hcached]
        rfl
      have htold := hcurrent record (exists_mem_of_cached? hcached)
      by_cases hroot : store.tree.idOfGuid? guid = some RootId.places
      · obtain ⟨row, hrow, rfl⟩ := h.idOfGuid?_iff.mp hroot
        obtain ⟨parent, hparent, -⟩ := htold.of_known? h hrow
        rw [(h.parent_iff _ row hrow).mpr rfl] at hparent
        cases hparent
      · obtain ⟨made, hmade, hnew, -⟩ := exists_told h hroot
        rw [hout, hnew, htold.unique h hmade]

end BookmarkStore

namespace StoreCall

open SyncedBookmarks.Action SyncedBookmarks.BookmarkStore

/-- What a call has to come to that leaves a record of a GUID in the cache: it does not give up while
it applies a record of that GUID, and the item keeps its outlook. -/
structure Heeds (guid : String) (store : BookmarkStore) (call : StoreCall) : Prop where
  finished : ∀ record, call = .applyIncoming record → record.id = guid →
    (call.action.result store).1 = .ok ()
  outlook : (call.run store).outlook? guid = store.outlook? guid

/-- Whether that is so of each call of a run. -/
def AllHeed (guid : String) (store : BookmarkStore) : List StoreCall → Prop
  | [] => True
  | call :: calls =>
      ((run store call).cached? guid ≠ none → Heeds guid store call) ∧
        AllHeed guid (run store call) calls

variable {store : BookmarkStore} {guid : String}

/-- What is current stays so through a call that heeds it. -/
theorem current_run (h : store.WellFormed) {call : StoreCall} (hsync : call.isSync)
    (hheeds : (run store call).cached? guid ≠ none → Heeds guid store call)
    (hcurrent : store.Current guid) : (run store call).Current guid := by
  intro record hentry
  obtain ⟨hfinished, houtlook⟩ := hheeds (cached?_ne_none hentry)
  have hnext : (run store call).WellFormed := call.keeps_action store h
  have hattended : Attends guid store (run store call) → (run store call).Told guid record :=
    fun hattends => hattends.told h.tree hnext.tree houtlook hentry
      (hcurrent record (hattends.cache record hentry))
  cases call with
  | mutate mutation => exact absurd hsync Bool.false_ne_true
  | applyIncoming record =>
      exact hattended (attends_applyIncoming h.tree (hfinished record rfl))
  | createRecord other =>
      rw [run, action, snd_result_map] at hentry ⊢
      exact current_createRecord h.tree hcurrent other record hentry
  | changeItemId old new => exact hattended (attends_changeItemId h.tree old new)
  | reparentOrphans =>
      refine hattended ?_
      rw [run, action, snd_result_map]
      exact attends_reparentOrphans h.tree
  | wipe => exact hattended (attends_wipe h.tree)
  | forget other =>
      exact hattended (attends_of_known? rfl (fun _ hold => (List.mem_filter.mp hold).1)
        fun _ _ _ hrow _ => .inl hrow)
  | clearCache => cases hentry

theorem current_runAll (h : store.WellFormed) {calls : List StoreCall}
    (hcalls : ∀ call ∈ calls, call.isSync) (hheed : AllHeed guid store calls)
    (hcurrent : store.Current guid) : (runAll store calls).Current guid := by
  induction calls generalizing store with
  | nil => exact hcurrent
  | cons call calls ih =>
      exact ih (call.keeps_action store h) (fun other hother => hcalls other
        (List.mem_cons_of_mem _ hother)) hheed.2
        (current_run h (hcalls call List.mem_cons_self) hheed.1 hcurrent)

/-- As long as every call heeds what the cache holds of a GUID, that is never seen: the record that
is made of the GUID is the one that would be made with an empty cache. -/
theorem cache_unseen (h : store.Reachable) (hnone : store.cached? guid = none)
    {calls : List StoreCall} (hcalls : ∀ call ∈ calls, call.isSync)
    (hheed : AllHeed guid store calls) :
    ((BookmarkStore.createRecord guid).result (runAll store calls)).1 =
      (runAll store calls).newRecord guid := by
  have hstart : store.Current guid := fun _ hentry => absurd hnone (cached?_ne_none hentry)
  exact (current_runAll h.wellFormed hcalls hheed hstart).result_createRecord
    (wellFormed_runAll h.wellFormed calls).tree

/-- A folder in a folder that gets another title. -/
theorem inner_folder_unseen :
    let calls : List StoreCall :=
      [.createRecord "b", .applyIncoming { id := "a", kind := .folder, title := some "C" }]
    AllHeed "b" nestedStore calls ∧
      ((BookmarkStore.createRecord "b").result (runAll nestedStore calls)).1 =
        (runAll nestedStore calls).newRecord "b" := by
  intro calls
  have hheed : AllHeed "b" nestedStore calls := by
    refine ⟨fun _ => ⟨fun _ hcall => ?_, by cbv⟩, fun _ => ⟨fun record hcall hname => ?_, by cbv⟩,
      trivial⟩
    · cases hcall
    · cases hcall
      exact absurd hname (by decide)
  exact ⟨hheed, cache_unseen reachable_nestedStore (by cbv) (by decide) hheed⟩

/-- Without that it is seen: the record of a folder outlives it when the folder above it is
deleted. -/
theorem deleted_folder_recorded :
    let calls : List StoreCall := [.createRecord "b", .applyIncoming (Record.tombstone "a")]
    nestedStore.Reachable ∧ nestedStore.cache = [] ∧ (∀ call ∈ calls, call.isSync) ∧
      ((BookmarkStore.createRecord "b").result (runAll nestedStore calls)).1 =
        .ok { id := "b", parentid := some "a", kind := .folder, title := some "B" } ∧
      (runAll nestedStore calls).newRecord "b" = .ok (Record.tombstone "b") := by
  refine ⟨reachable_nestedStore, by cbv, by decide, by cbv, by cbv⟩

end StoreCall

end SyncedBookmarks
