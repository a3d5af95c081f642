import SyncedBookmarks.Proofs.ClientRuns
import SyncedBookmarks.Proofs.Elementary

namespace SyncedBookmarks

/-! New items take ever higher numbers and stand behind those that are there, and no call puts the
rows of a tree in another order. So the rows of every client stand in the order of their numbers. -/

namespace Client

open SyncedBookmarks.Action

/-! ### What a pass makes of the tree -/

section Pass

variable {inv : Tree → Prop}
  (happly : ∀ record, (BookmarkStore.applyIncoming record).Keeps fun store => inv store.tree)
  (hreparent : BookmarkStore.reparentOrphans.Keeps fun store => inv store.tree)

include happly

theorem holds_receiveOne {client : Client} (h : inv client.tree) (keys : KeyBundle)
    (progress : Progress) (stored : StoredRecord) :
    inv (client.receiveOne keys progress stored).2.tree := by
  cases hopen : stored.openRecord keys with
  | error cause =>
      rw [receiveOne, hopen]
      exact h
  | ok record =>
      rw [receiveOne_of_opened hopen]
      exact happly record client.store h

theorem holds_receiveAll {client : Client} (h : inv client.tree) (keys : KeyBundle)
    (progress : Progress) (records : List StoredRecord) :
    inv (client.receiveAll keys progress records).2.tree := by
  induction records generalizing client progress with
  | nil => exact h
  | cons stored records ih => exact ih (holds_receiveOne happly h keys progress stored) _

include hreparent

theorem holds_caughtUp {client : Client} (h : client.WellFormed) (hinv : inv client.tree)
    (keys : KeyBundle) (records : List StoredRecord) : inv (client.caughtUp keys records).tree := by
  rw [← (startPass_eq h).2.tree] at hinv
  exact hreparent _ (holds_receiveAll happly hinv keys ⟨{}, client.lastSync⟩ records)

omit happly hreparent in
/-- Nothing but the records that are fetched changes the tree of a client that is synced. -/
theorem tree_sync {client : Client} (h : client.WellFormed) (storage : Storage σ)
    (keys : KeyBundle) (state : σ) :
    (client.sync storage keys state).2.1.tree = client.tree ∨ ∃ records,
      (client.sync storage keys state).2.1.tree = (client.caughtUp keys records).tree := by
  cases hfetch : (storage.fetch client.collection client.lastSync state).1 with
  | error cause =>
      obtain ⟨next, hsync, hquiet⟩ := sync_unfetched h storage keys state hfetch
      rw [hsync]
      exact .inl (hquiet.tree.trans (startPass_eq h).2.tree)
  | ok records =>
      refine .inr ⟨records, ?_⟩
      by_cases hparcel : client.parcel keys records = []
      · obtain ⟨_, _, next, -, hquiet, hfinished, hsync⟩ :=
          sync_idle h storage keys state hfetch hparcel
        rw [hsync]
        exact hfinished.tree.trans hquiet.tree
      · cases hupload : (storage.upload client.collection (client.parcel keys records)
            (storage.fetch client.collection client.lastSync state).2).1 with
        | error cause =>
            obtain ⟨next, hquiet, hsync⟩ :=
              sync_refused h storage keys state hfetch hparcel hupload
            rw [hsync]
            exact hquiet.tree
        | ok result =>
            obtain ⟨_, _, next, -, hquiet, hfinished, hsync⟩ :=
              sync_uploaded h storage keys state hfetch hparcel hupload
            rw [hsync]
            exact hfinished.tree.trans hquiet.tree

theorem holds_sync {client : Client} (h : client.WellFormed) (hinv : inv client.tree)
    (storage : Storage σ) (keys : KeyBundle) (state : σ) :
    inv (client.sync storage keys state).2.1.tree := by
  rcases tree_sync h storage keys state with hsame | ⟨records, hcaught⟩
  · rw [hsame]
    exact hinv
  · rw [hcaught]
    exact holds_caughtUp happly hreparent h hinv keys records

end Pass

theorem tree_wipeClient (client : Client) : client.wipeClient.2.tree =
    (BookmarkStore.wipe.result (client.onTracker (·.suppress true)).beginBatch.store).2.tree := by
  rw [wipeClient, Faults.wipe_never]
  generalize hopened : (client.onTracker (·.suppress true)).beginBatch = opened
  have hwiped : ((fromStore BookmarkStore.wipe).result opened).2.tree =
      (BookmarkStore.wipe.result opened.store).2.tree := rfl
  generalize (fromStore BookmarkStore.wipe).result opened = last at hwiped ⊢
  obtain ⟨outcome, wiped⟩ := last
  have hclosed : wiped.endBatch.tree = wiped.tree := Places.tree_endBatch _
  cases outcome with
  | error cause => exact hclosed.trans hwiped
  | ok done => exact hclosed.trans hwiped

end Client

namespace Places.Hereditary

open SyncedBookmarks.Action SyncedBookmarks.Client

variable {inv : Tree → Prop} (h : Hereditary fun places => inv places.tree)

include h

theorem localCall {client : Client} (hinv : inv client.tree) (call : LocalCall) :
    inv (LocalCall.run client call).tree := by
  have hbegin : (change Places.beginBatch : TreeAction Unit).Keeps fun places =>
      inv places.tree := by
    intro places hplaces
    rwa [result_change, Places.tree_beginBatch]
  have hend : (change Places.endBatch : TreeAction Unit).Keeps fun places => inv places.tree := by
    intro places hplaces
    rwa [result_change, Places.tree_endBatch]
  cases call with
  | store call => exact h.storeCall hbegin hend call client.store hinv
  | beginBatch => exact hbegin client.store.places hinv
  | endBatch => exact hend client.store.places hinv
  | wipe =>
      change inv client.wipeClient.2.tree
      rw [tree_wipeClient]
      exact h.wipe _ (hbegin client.store.places hinv)
  | mark guid => exact hinv
  | unmark guid => exact hinv
  | unmarkAll => exact hinv
  | ignore guid => exact hinv
  | unignore guid => exact hinv
  | suppress suppressed => exact hinv
  | resetScore => exact hinv
  | resume journaled => exact hinv

/-- What every call on a tree keeps, every client has that began with it. -/
theorem reachable (hfresh : ∀ guids, inv (Tree.fresh guids)) {client : Client}
    (hclient : client.Reachable) : inv client.tree := by
  obtain ⟨collection, generators, journaled, guids, calls, rfl⟩ := hclient
  have hwell := wellFormed_fresh collection generators journaled guids
  have hinv : inv (Client.fresh collection generators journaled guids).tree := hfresh guids
  generalize Client.fresh collection generators journaled guids = client at hwell hinv
  induction calls generalizing client with
  | nil => exact hinv
  | cons call calls ih =>
      refine ih _ (call.wellFormed_run hwell) ?_
      cases call with
      | locally call => exact h.localCall hinv call
      | setLastSync time => exact hinv
      | sync keys fetched uploaded =>
          exact holds_sync h.applyIncoming h.reparentOrphans hwell hinv _ keys ()

end Places.Hereditary

namespace Tree

/-- Whether the rows stand in the order of their ids, the ids yet to be given being higher. -/
structure InSequence (tree : Tree) : Prop where
  increasing : tree.rows.Pairwise (·.id < ·.id)
  given : ∀ row ∈ tree.rows, row.id < tree.nextId

theorem inSequence_fresh (guids : GuidSource) : (fresh guids).InSequence where
  increasing := (by decide : (fresh .numbered).rows.Pairwise (·.id < ·.id))
  given := (by decide : ∀ row ∈ (fresh .numbered).rows, row.id < (fresh .numbered).nextId)

theorem hereditary_inSequence : Places.Hereditary fun places => places.tree.InSequence where
  mapRows := by
    rintro select change hid places ⟨hincreasing, hgiven⟩
    have hkept : ∀ row : Row, (if select row then change row else row).id = row.id := by
      intro row
      split
      · exact hid row
      · rfl
    refine ⟨List.pairwise_map.mpr (hincreasing.imp fun hlt => ?_), ?_⟩
    · rwa [hkept, hkept]
    · intro row hrow
      obtain ⟨old, hold, rfl⟩ := List.mem_map.mp hrow
      rw [hkept]
      exact hgiven old hold
  append := by
    rintro parent position type title url places ⟨hincreasing, hgiven⟩
    refine ⟨List.pairwise_append.mpr ⟨hincreasing, List.pairwise_singleton _ _, ?_⟩, ?_⟩
    · intro row hrow new hnew
      obtain rfl := List.mem_singleton.mp hnew
      exact hgiven row hrow
    · intro row hrow
      change row.id < places.tree.nextId + 1
      rcases List.mem_append.mp hrow with hold | hnew
      · have := hgiven row hold
        omega
      · obtain rfl := List.mem_singleton.mp hnew
        exact Int.lt_succ _
  eraseRow := by
    rintro id places ⟨hincreasing, hgiven⟩
    exact ⟨hincreasing.sublist List.filter_sublist,
      fun row hrow => hgiven row (List.mem_of_mem_filter hrow)⟩
  tell := fun _ _ hplaces => hplaces

end Tree

theorem Client.Reachable.inSequence {client : Client} (h : client.Reachable) :
    client.tree.InSequence :=
  Tree.hereditary_inSequence.reachable Tree.inSequence_fresh h

end SyncedBookmarks
