import SyncedBookmarks.Proofs.Delivery
import SyncedBookmarks.Proofs.Noticing

namespace SyncedBookmarks

/-! Every local change to what a client uploads gets on the tracker's list, but for what the tracker
passes over by design. -/

namespace Tree

/-! ### What is watched -/

section Synced

variable {tree : Tree} {id : Int} (h : tree.WellFormed) (hroots : tree.RootsInPlace)

include h hroots

/-- While the roots are in their places, those whose content is synced are the three. -/
theorem mem_of_isSyncedRoot {root : Int} (hroot : tree.IsSyncedRoot root) :
    root ∈ [RootId.menu, RootId.toolbar, RootId.unfiled] := by
  obtain ⟨guid, hguid, hid⟩ := hroot
  obtain ⟨row, hrow, rfl⟩ := h.idOfGuid?_iff.mp hid
  simp only [BookmarkStore.syncedRoots, List.mem_cons, List.not_mem_nil, or_false] at hguid ⊢
  rcases hguid with hguid | hguid | hguid
  · exact .inl (hroots.named.eq_of_guid h (by decide) hrow hguid)
  · exact .inr (.inl (hroots.named.eq_of_guid h (by decide) hrow hguid))
  · exact .inr (.inr (hroots.named.eq_of_guid h (by decide) hrow hguid))

theorem not_synced_tags : ¬ tree.Synced RootId.tags := by
  have htags : tree.above? RootId.tags = some RootId.places := hroots.above _ (by decide)
  intro hsynced
  cases hsynced with
  | child hroot _ habove =>
      obtain rfl := Option.some.inj (htags.symm.trans habove)
      exact absurd (mem_of_isSyncedRoot h hroots hroot) (by decide)
  | deeper hparent _ habove =>
      obtain rfl := Option.some.inj (htags.symm.trans habove)
      cases hparent with
      | child _ _ hup => cases h.above?_places.symm.trans hup
      | deeper _ _ hup => cases h.above?_places.symm.trans hup

/-- Whatever is synced is watched. -/
theorem watched_of_synced (hsynced : tree.Synced id) : tree.Watched id := by
  have hopen : ∀ {folder : Int}, folder ≠ RootId.tags → tree.above? folder ≠ some RootId.tags →
      tree.isLivemark folder = false → Tracker.isUnsyncedFolder tree folder = false := by
    intro folder hne hup hlive
    have hparent : Tracker.parentIn tree folder ≠ some RootId.tags :=
      fun hparent => hup (above?_of_parentIn hparent)
    simp [Tracker.isUnsyncedFolder, hne, hparent, hlive]
  intro folder habove
  cases hsynced with
  | child hroot hlive hup =>
      obtain rfl := Option.some.inj (habove.symm.trans hup)
      have hmem := mem_of_isSyncedRoot h hroots hroot
      have hplace : tree.above? folder = some RootId.places := by
        refine hroots.above folder ?_
        revert hmem
        simp only [List.mem_cons, List.not_mem_nil, or_false]
        tauto
      refine hopen ?_ ?_ hlive
      · rintro rfl
        exact absurd hmem (by decide)
      · rw [hplace]
        decide
  | deeper hparent hlive hup =>
      obtain rfl := Option.some.inj (habove.symm.trans hup)
      refine hopen ?_ ?_ hlive
      · rintro rfl
        exact not_synced_tags h hroots hparent
      · intro htags
        cases hparent with
        | child hroot _ hroot' =>
            obtain rfl := Option.some.inj (htags.symm.trans hroot')
            exact absurd (mem_of_isSyncedRoot h hroots hroot) (by decide)
        | deeper htop _ htop' =>
            obtain rfl := Option.some.inj (htags.symm.trans htop')
            exact not_synced_tags h hroots htop

theorem watched_of_listed {guids : List String} (hids : BookmarkStore.allIds tree = .ok guids)
    {guid : String} (hmem : guid ∈ guids) (hid : tree.idOfGuid? guid = some id) :
    tree.Watched id := by
  obtain ⟨found, hfound, hlist⟩ := BookmarkStore.allIds_spec h
  obtain rfl := Except.ok.inj (hids.symm.trans hfound)
  obtain ⟨other, hsynced, hguid⟩ := (hlist guid).mp hmem
  rw [guidOf?_eq_known?, Option.map_eq_some_iff] at hguid
  obtain ⟨row, hrow, rfl⟩ := hguid
  obtain rfl := Option.some.inj (hid.symm.trans (h.idOfGuid?_iff.mpr ⟨row, hrow, rfl⟩))
  exact watched_of_synced h hroots hsynced

end Synced

end Tree

/-- Where no item has changed its name, items that tell the same alone have the same records, apart
from what is told of others. -/
theorem BookmarkStore.Told.own_eq {store next : BookmarkStore} (h : store.tree.WellFormed)
    (hnext : next.tree.WellFormed) (hgenerators : next.generators = store.generators)
    (hnamed : ∀ id row row', store.tree.known? id = some row → next.tree.known? id = some row' →
      row'.guid = row.guid)
    {id : Int} {row row' : Row} (hrow : store.tree.known? id = some row)
    (hrow' : next.tree.known? id = some row') (halike : row.Alike row') {record record' : Record}
    (htold : store.Told row.guid record) (htold' : next.Told row'.guid record') :
    record.own = record'.own := by
  obtain ⟨parent, hparent, rfl⟩ := htold.of_known? h hrow
  obtain ⟨parent', hparent', rfl⟩ := htold'.of_known? hnext hrow'
  -- The folder is the same, and has kept its name.
  have hsame : parent' = parent := by
    rw [halike.parent] at hparent'
    obtain ⟨folder, hfolder, hguid⟩ := Option.bind_eq_some_iff.mp hparent
    rw [hfolder, Option.bind_some] at hparent'
    rw [Tree.guidOf?_eq_known?] at hguid hparent'
    obtain ⟨found, hfound, rfl⟩ := Option.map_eq_some_iff.mp hguid
    obtain ⟨found', hfound', rfl⟩ := Option.map_eq_some_iff.mp hparent'
    exact hnamed folder found found' hfound hfound'
  rw [Row.own_account, Row.own_account, hsame, hgenerators]
  exact (halike.gist _ _).symm

namespace Client

open SyncedBookmarks.BookmarkStore

/-- The client after a local operation on its tree. -/
def edited (client : Client) (mutation : Mutation) : Client :=
  ClientCall.run client (.locally (.store (.mutate mutation)))

variable {client : Client} {mutation : Mutation}

/-- Whatever record a local operation changes otherwise than in the tags of its URI or in the title
of a query's folder, the tracker has its GUID on the list; unless it is to ignore the GUID, or the
item is a tag or in a tag or a livemark. -/
theorem changes_noticed (h : client.Reachable) (hlistens : client.tracker.suppressed = false)
    (hmutation : ∀ id guid, mutation ≠ .setGuid id guid) {guid : String}
    (hignored : guid ∉ client.tracker.ignored) {record record' : Record}
    (hbefore : client.store.newRecord guid = .ok record)
    (hafter : (client.edited mutation).store.newRecord guid = .ok record')
    (hdiffers : record.own ≠ record'.own)
    (hthere : ∀ id, (client.edited mutation).tree.idOfGuid? guid = some id →
      (client.edited mutation).tree.Watched id)
    (hgone : (client.edited mutation).tree.idOfGuid? guid = none →
      ∀ id, client.tree.idOfGuid? guid = some id → client.tree.Watched id) :
    guid ∈ (client.edited mutation).tracker.changed := by
  have hwell := h.wellFormed.store.tree
  have hnext : (client.edited mutation).tree.WellFormed :=
    mutation.keeps_action client.store.places hwell
  have hnoted : Places.Noted client.tracker client.tree (mutation.run client.store.places) :=
    mutation.noted_run hlistens hwell hmutation
  have htold := told_of_newRecord hwell hbefore
  have htold' := told_of_newRecord hnext hafter
  suffices hheard : Places.Heard client.tracker (mutation.run client.store.places) guid from
    hheard.resolve_left hignored
  cases hid : (client.edited mutation).tree.idOfGuid? guid with
  | none =>
      have hrecord' := htold'.of_none hnext hid
      rcases htold with ⟨-, hrecord⟩ | ⟨id, row, -, hrow, rfl, -⟩
      · exact absurd (hrecord.trans hrecord'.symm ▸ rfl) hdiffers
      · -- No item has lost its name, so the item is gone.
        have hnone : (client.edited mutation).tree.known? id = none := by
          by_contra hthere
          obtain ⟨row', hrow'⟩ := Option.ne_none_iff_exists'.mp hthere
          exact hnext.idOfGuid?_eq_none_iff.mp hid id row' hrow'
            (hnoted.named id row row' hrow hrow')
        have hnamed := hwell.idOfGuid?_iff.mpr ⟨row, hrow, rfl⟩
        exact hnoted.gone id row hrow hnone (hgone hid id hnamed)
  | some id =>
      obtain ⟨row', hrow', rfl⟩ := hnext.idOfGuid?_iff.mp hid
      have hwatched := hthere id hid
      cases hrow : client.tree.known? id with
      | none => exact hnoted.made id row' hrow hrow' hwatched
      | some row =>
          have hname := hnoted.named id row row' hrow hrow'
          rw [hname]
          refine hnoted.altered id row row' hrow hrow' (fun halike => hdiffers ?_) hwatched
          exact Told.own_eq hwell hnext rfl hnoted.named hrow hrow' halike (hname ▸ htold) htold'

/-! ### A bookmark, a livemark, a folder and a query for the folder -/

/-- A client whose items need not be uploaded. -/
def tended : Client :=
  ClientCall.runAll (Client.fresh "bookmarks" none false .numbered)
    [.locally (.store (.mutate (.insertBookmark RootId.menu "about:blank" Places.atEnd none))),
      .locally (.store (.mutate
        (.createLivemark RootId.menu "News" none "about:blank" Places.atEnd))),
      .locally (.store (.mutate (.createFolder RootId.menu "F" Places.atEnd))),
      .locally (.store (.mutate (.insertBookmark RootId.menu "place:folder=8" Places.atEnd none))),
      .locally .unmarkAll]

theorem reachable_tended : tended.Reachable :=
  ⟨"bookmarks", none, false, .numbered, _, rfl⟩

def tendedGuid : String :=
  GuidSource.numberedCandidate 6 0

def tendedRecord : Record :=
  { id := tendedGuid, parentid := some RootGuid.menu, kind := .bookmark
    bmkUri := some "about:blank", tags := some [], loadInSidebar := some false }

/-- The record of the query, by the title of its folder. -/
def tendedQuery (title : String) : Record :=
  { id := GuidSource.numberedCandidate 9 0, parentid := some RootGuid.menu, kind := .query
    bmkUri := some "place:folder=8", folderName := some title, tags := some []
    loadInSidebar := some false }

theorem newRecord_tended : tended.store.newRecord tendedGuid = .ok tendedRecord := by
  decide +kernel

/-- A title that the bookmark gets. -/
theorem titled_noticed :
    tended.Reachable ∧ tendedGuid ∈ (tended.edited (.setTitle 6 "A")).tracker.changed := by
  have hafter : (tended.edited (.setTitle 6 "A")).store.newRecord tendedGuid =
      .ok { tendedRecord with title := some "A" } := by
    decide +kernel
  have hid : (tended.edited (.setTitle 6 "A")).tree.idOfGuid? tendedGuid = some 6 := by
    decide +kernel
  have hwatched : (tended.edited (.setTitle 6 "A")).tree.Watched 6 := by
    intro folder habove
    have hmenu : (tended.edited (.setTitle 6 "A")).tree.above? 6 = some RootId.menu := by
      decide +kernel
    obtain rfl := Option.some.inj (hmenu.symm.trans habove)
    decide +kernel
  refine ⟨reachable_tended, changes_noticed reachable_tended (by decide +kernel)
    (fun _ _ => Mutation.noConfusion) (by decide +kernel) newRecord_tended hafter (by decide) ?_ ?_⟩
  · intro id hother
    exact Option.some.inj (hid.symm.trans hother) ▸ hwatched
  · intro hnone
    cases hid.symm.trans hnone

/-- A local operation that changes the record of an item that is synced, and that leaves it off the
list. -/
structure Overlooked (client : Client) (mutation : Mutation) (guid : String) : Prop where
  reachable : client.Reachable
  listens : client.tracker.suppressed = false
  content : ∀ id guid, mutation ≠ .setGuid id guid
  plain : guid ∉ RootGuid.all
  listed : ∃ guids, allIds client.tree = .ok guids ∧ guid ∈ guids
  differs : ∃ record record', client.store.newRecord guid = .ok record ∧
    (client.edited mutation).store.newRecord guid = .ok record' ∧ record ≠ record'
  clean : guid ∉ (client.edited mutation).tracker.changed

theorem listed_tended (id : Int) {guid : String} (hguid : tended.tree.guidOf? id = some guid)
    (habove : tended.tree.above? id = some RootId.menu) :
    ∃ guids, allIds tended.tree = .ok guids ∧ guid ∈ guids := by
  obtain ⟨guids, hids, hmem⟩ := allIds_spec reachable_tended.wellFormed.store.tree
  have hmenu : tended.tree.IsSyncedRoot RootId.menu :=
    ⟨RootGuid.menu, by decide, by decide +kernel⟩
  have hopen : tended.tree.isLivemark RootId.menu = false := by decide +kernel
  exact ⟨guids, hids, (hmem guid).mpr ⟨id, .child hmenu hopen habove, hguid⟩⟩

/-- The tracker does not hear of a tag that a bookmark gets, nor of its move into a livemark, nor of
a change to it that it is to ignore; and a query is not on the list when its folder is renamed. -/
theorem changes_overlooked :
    tended.Overlooked (.tagUri "about:blank" ["t"]) tendedGuid ∧
    tended.Overlooked (.moveItem 6 7 Places.atEnd) tendedGuid ∧
    (ClientCall.run tended (.locally (.ignore tendedGuid))).Overlooked (.setTitle 6 "A")
      tendedGuid ∧
    tended.Overlooked (.setTitle 8 "G") (GuidSource.numberedCandidate 9 0) := by
  have hbookmark : ∃ guids, allIds tended.tree = .ok guids ∧ tendedGuid ∈ guids :=
    listed_tended 6 (by decide +kernel) (by decide +kernel)
  refine ⟨?_, ?_, ?_, ?_⟩
  · exact ⟨reachable_tended, by decide +kernel, fun _ _ => Mutation.noConfusion, by decide,
      hbookmark, ⟨tendedRecord, { tendedRecord with tags := some ["t"] }, newRecord_tended,
        by decide +kernel, by decide⟩, by decide +kernel⟩
  · exact ⟨reachable_tended, by decide +kernel, fun _ _ => Mutation.noConfusion, by decide,
      hbookmark, ⟨tendedRecord, { tendedRecord with
        parentid := some (GuidSource.numberedCandidate 7 0) }, newRecord_tended,
        by decide +kernel, by decide +kernel⟩, by decide +kernel⟩
  · exact ⟨reachable_tended.run _, by decide +kernel, fun _ _ => Mutation.noConfusion, by decide,
      hbookmark, ⟨tendedRecord, { tendedRecord with title := some "A" }, newRecord_tended,
        by decide +kernel, by decide⟩, by decide +kernel⟩
  · exact ⟨reachable_tended, by decide +kernel, fun _ _ => Mutation.noConfusion, by decide,
      listed_tended 9 (by decide +kernel) (by decide +kernel),
      ⟨tendedQuery "F", tendedQuery "G", by decide +kernel, by decide +kernel, by decide⟩,
      by decide +kernel⟩

end Client

end SyncedBookmarks
