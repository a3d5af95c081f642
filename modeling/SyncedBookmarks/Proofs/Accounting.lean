import SyncedBookmarks.Proofs.ClientRuns
import SyncedBookmarks.Sync.Server

namespace SyncedBookmarks

/-! The account that a pass gives of the items that have changed: each is uploaded, or yields to the
server's record, or stays for the next pass. -/

namespace Client

/-- Whether an item is to be uploaded, were the server to tell nothing of it: it has changed, or it
is synced and nothing was synced before. -/
def Owes (client : Client) (guid : String) : Prop :=
  guid ∈ client.tracker.changed ∨
    client.lastSync ≤ Binary64.zero ∧ guid ∉ client.tracker.ignored ∧
      ∃ guids, BookmarkStore.allIds client.tree = .ok guids ∧ guid ∈ guids

theorem mem_unsynced {client : Client} {guid : String} :
    guid ∈ client.unsynced ↔ client.lastSync ≤ Binary64.zero ∧
      ∃ guids, BookmarkStore.allIds client.tree = .ok guids ∧ guid ∈ guids := by
  rw [unsynced]
  split
  · rename_i hfirst
    cases BookmarkStore.allIds client.tree <;> simp [hfirst, Except.toOption]
  · rename_i hlater
    simp [hlater]

theorem mem_changed_begun {client : Client} (h : client.WellFormed) {guid : String} :
    guid ∈ client.begun.tracker.changed ↔ client.Owes guid := by
  rw [(startPass_eq h).2.tracker]
  change guid ∈ (client.tracker.addAll client.unsynced).changed ↔ _
  rw [Tracker.mem_changed_addAll, mem_unsynced, Owes]
  tauto

theorem mem_changed_caughtUp {client : Client} (h : client.WellFormed) {keys : KeyBundle}
    {records : List StoredRecord} {guid : String} :
    guid ∈ (client.caughtUp keys records).tracker.changed ↔
      client.Owes guid ∧ guid ∉ openedIds keys records := by
  rw [(caughtUp_spec h keys records).tracker]
  change guid ∈ (client.begun.tracker.removeAll (openedIds keys records)).changed ↔ _
  rw [Tracker.mem_changed_removeAll, mem_changed_begun h]

/-- What a pass has to send, after it was given records: one record for each item that it owes and
was told nothing of, which says what the tree is once the records are applied. The topmost root has
no record. -/
structure Discharges (keys : KeyBundle) (records : List StoredRecord) (client : Client)
    (sent : List StoredRecord) : Prop where
  once : (sent.map (·.id)).Nodup
  mem_iff : ∀ guid, guid ∈ sent.map (·.id) ↔
    (client.Owes guid ∧ guid ∉ openedIds keys records) ∧
      (client.caughtUp keys records).tree.idOfGuid? guid ≠ some RootId.places
  opens : ∀ stored ∈ sent, ∃ record, stored.openRecord keys = .ok record ∧
    (client.caughtUp keys records).store.newRecord stored.id = .ok record

theorem discharges_parcel {client : Client} (h : client.WellFormed) {keys : KeyBundle}
    (hkeys : keys.encryptionKey.length = Aead.keyLength) (records : List StoredRecord) :
    Discharges keys records client (client.parcel keys records) := by
  have hsealed := sealed_parcel h hkeys records
  have hnodup := (caughtUp_spec h keys records).wellFormed.tracker.changed
  refine ⟨?_, ?_, hsealed.opens⟩
  · rw [hsealed.ids]
    exact hnodup.filter _
  · intro guid
    rw [hsealed.ids, List.mem_filter, decide_eq_true_iff, mem_changed_caughtUp h]

/-- A summary of a pass, against what it was given and what the server accepted. -/
structure Tallies (records : List StoredRecord) (accepted : List String) (summary : Summary) :
    Prop where
  received : summary.applied + summary.failed = records.length
  uploaded : summary.uploaded = accepted.length

/-- However the server answers, a pass takes off the list of changed items those that the server
told of and those that it accepted, and no others; and it uploads what is left between the two
answers, at once, if anything is. -/
theorem sync_accounts {client : Client} (h : client.Reachable) {keys : KeyBundle}
    (hkeys : keys.encryptionKey.length = Aead.keyLength) (storage : Storage σ) (state : σ) :
    let fetched := storage.fetch client.collection client.lastSync state
    let ended := client.sync storage keys state
    let changed := ended.2.1.tracker.changed
    match fetched.1 with
    | .error cause =>
        ended.1 = .error (.storage cause) ∧ ended.2.2 = fetched.2 ∧
          ∀ guid, guid ∈ changed ↔ client.Owes guid
    | .ok records =>
        ended.2.1.tree = (client.caughtUp keys records).tree ∧
        ∃ sent, Discharges keys records client sent ∧
          if sent = [] then
            (∃ summary, ended.1 = .ok summary ∧ Tallies records [] summary) ∧
              ended.2.2 = fetched.2 ∧
              ∀ guid, guid ∈ changed ↔ client.Owes guid ∧ guid ∉ openedIds keys records
          else
            let answered := storage.upload client.collection sent fetched.2
            ended.2.2 = answered.2 ∧
            match answered.1 with
            | .error cause =>
                ended.1 = .error (.storage cause) ∧
                  ∀ guid, guid ∈ changed ↔ client.Owes guid ∧ guid ∉ openedIds keys records
            | .ok result =>
                (∃ summary, ended.1 = .ok summary ∧ Tallies records result.success summary) ∧
                  ∀ guid, guid ∈ changed ↔ (client.Owes guid ∧ guid ∉ openedIds keys records) ∧
                    guid ∉ result.success := by
  have hwell := h.wellFormed
  dsimp only
  cases hfetch : (storage.fetch client.collection client.lastSync state).1 with
  | error cause =>
      obtain ⟨next, hsync, hquiet⟩ := sync_unfetched hwell storage keys state hfetch
      rw [hsync]
      refine ⟨rfl, rfl, fun guid => ?_⟩
      dsimp only
      rw [hquiet.tracker]
      exact mem_changed_begun hwell
  | ok records =>
      have hdischarges := discharges_parcel hwell hkeys records
      by_cases hparcel : client.parcel keys records = []
      · obtain ⟨progress, ready, next, hreceived, hquiet, hfinished, hsync⟩ :=
          sync_idle hwell storage keys state hfetch hparcel
        rw [hsync]
        refine ⟨hfinished.tree.trans hquiet.tree, [], hparcel ▸ hdischarges, ?_⟩
        rw [if_pos rfl]
        refine ⟨⟨_, rfl, hreceived.counted, rfl⟩, rfl, fun guid => ?_⟩
        dsimp only
        rw [hfinished.changed, hquiet.tracker]
        exact mem_changed_caughtUp hwell
      · cases hupload : (storage.upload client.collection (client.parcel keys records)
            (storage.fetch client.collection client.lastSync state).2).1 with
        | error cause =>
            obtain ⟨next, hquiet, hsync⟩ :=
              sync_refused hwell storage keys state hfetch hparcel hupload
            rw [hsync]
            refine ⟨hquiet.tree, _, hdischarges, ?_⟩
            rw [if_neg hparcel, hupload]
            refine ⟨rfl, rfl, fun guid => ?_⟩
            dsimp only
            rw [hquiet.tracker]
            exact mem_changed_caughtUp hwell
        | ok result =>
            obtain ⟨progress, ready, next, hreceived, hquiet, hfinished, hsync⟩ :=
              sync_uploaded hwell storage keys state hfetch hparcel hupload
            rw [hsync]
            refine ⟨hfinished.tree.trans hquiet.tree, _, hdischarges, ?_⟩
            rw [if_neg hparcel, hupload]
            refine ⟨rfl, ⟨_, rfl, hreceived.counted, rfl⟩, fun guid => ?_⟩
            dsimp only
            rw [hfinished.changed]
            change guid ∈ (ready.tracker.removeAll result.success).changed ↔ _
            rw [Tracker.mem_changed_removeAll, hquiet.tracker, mem_changed_caughtUp hwell]

/-! ### A topmost root that was edited -/

/-- A client whose topmost root was given another name and a title, and which has an item marked
that is not there. -/
def renamed : Client :=
  ClientCall.runAll (fresh "bookmarks" none false GuidSource.numbered)
    [.setLastSync (Binary64.ofNat 1), .locally (.store (.mutate (.setGuid RootId.places "r"))),
      .locally (.store (.mutate (.setTitle RootId.places "t"))), .locally (.mark "a")]

def blankKeys : KeyBundle :=
  ⟨List.replicate 32 0, List.replicate 32 0⟩

/-- A storage that has nothing, takes everything, and writes down the names. -/
def recording : Storage (List (List String)) where
  fetch _ _ log := (.ok [], log)
  upload _ records log :=
    (.ok { success := records.map (·.id) }, log ++ [records.map (·.id)])

theorem reachable_renamed : renamed.Reachable :=
  ⟨"bookmarks", none, false, .numbered, _, rfl⟩

theorem ids_parcel_renamed : (renamed.parcel blankKeys []).map (·.id) = ["a"] := by
  rw [(sealed_parcel reachable_renamed.wellFormed (by decide) []).ids]
  decide +kernel

theorem renamed_accounted :
    renamed.Reachable ∧ blankKeys.encryptionKey.length = Aead.keyLength ∧
      ∀ guid, guid ∈ (renamed.sync recording blankKeys []).2.1.tracker.changed ↔
        (renamed.Owes guid ∧ guid ∉ openedIds blankKeys []) ∧ guid ≠ "a" := by
  refine ⟨reachable_renamed, by decide, ?_⟩
  obtain ⟨-, sent, hsent, hended⟩ := sync_accounts reachable_renamed
    (by decide : blankKeys.encryptionKey.length = Aead.keyLength) recording []
  have hids : ∀ guid, guid ∈ sent.map (·.id) ↔ guid = "a" := by
    intro guid
    rw [hsent.mem_iff, ← (discharges_parcel reachable_renamed.wellFormed (by decide) []).mem_iff,
      ids_parcel_renamed, List.mem_singleton]
  rw [if_neg (by rintro rfl; simpa using hids "a")] at hended
  intro guid
  rw [hended.2.2 guid]
  exact and_congr_right fun _ => not_congr (hids guid)

/-- A changed item that the server tells nothing of need not be uploaded: the topmost root has no
record. -/
theorem places_withheld :
    renamed.Reachable ∧ blankKeys.encryptionKey.length = Aead.keyLength ∧
      renamed.Owes "r" ∧ "r" ∉ openedIds blankKeys [] ∧
      (renamed.sync recording blankKeys []).2.2 = [["a"]] := by
  refine ⟨reachable_renamed, by decide, .inl (by decide +kernel), List.not_mem_nil, ?_⟩
  have hparcel : renamed.parcel blankKeys [] ≠ [] := by
    intro hnone
    simpa [hnone] using ids_parcel_renamed
  obtain ⟨_, _, next, -, -, -, hsync⟩ := sync_uploaded reachable_renamed.wellFormed recording
    blankKeys [] rfl hparcel rfl
  rw [hsync]
  exact congrArg ([] ++ [·]) ids_parcel_renamed

end Client

end SyncedBookmarks
