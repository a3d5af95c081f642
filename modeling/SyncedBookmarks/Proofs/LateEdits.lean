import SyncedBookmarks.Proofs.Convergence

namespace SyncedBookmarks

/-! What becomes of an edit that comes after the item was synced, when passes fail and nobody else
writes to the collection. -/

namespace Exchange

open SyncedBookmarks.Action

/-- Whether a step is part of a pass or an edit of the tree. -/
def Event.IsAlone : Event → Prop
  | wrote _ => False
  | acted (.store (.mutate _)) => True
  | acted _ => False
  | _ => True

/-- Whether the client has seen the collection as it is, by the time of its last pass. -/
def CaughtUp (exchange : Exchange) : Prop :=
  ∀ stored ∈ exchange.shared.records, stored.modified ≤ exchange.client.lastSync

/-! ### A pass that gets through -/

/-- How far a pass has seen a collection that nobody else writes to. -/
def Seen (exchange : Exchange) : Pass → Prop
  | .fetching _ => exchange.client.tracker.suppressed = true
  | .uploading _ progress _ => ∀ stored ∈ exchange.shared.records, stored.modified ≤ progress.newest
  | .finished (.ok _) => exchange.CaughtUp
  | .finished (.error _) => True

structure Watching (exchange : Exchange) : Prop where
  wellFormed : exchange.client.WellFormed
  seen : ∀ pass, exchange.pass = some pass → exchange.Seen pass

/-! ### An item that the collection has nothing new of -/

/-- Whether what is sent has the record of an item as the client would make it now. -/
def Conveys (keys : KeyBundle) (guid : String) (client : Client) (sent : List StoredRecord) :
    Prop :=
  ∃ stored ∈ sent, stored.id = guid ∧ ∃ record, stored.openRecord keys = .ok record ∧
    client.store.newRecord guid = .ok record

/-- How a pass goes about an item that the collection has nothing new of: if the item has changed,
the pass sends it, or it is the topmost root. -/
def Pursues (keys : KeyBundle) (guid : String) (dirty : Prop) (exchange : Exchange) : Pass → Prop
  | .fetching since =>
      since = exchange.client.lastSync ∧ exchange.client.tracker.suppressed = true ∧
        exchange.client.store.cache = []
  | .uploading since _ sent =>
      since = exchange.client.lastSync ∧ (dirty → Conveys keys guid exchange.client sent ∨
        exchange.client.tree.idOfGuid? guid = some RootId.places)
  | .finished _ => True

/-- Whether the client has seen what the collection has of an item, and keeps the item on its list
if it has changed. -/
structure Holds (keys : KeyBundle) (guid : String) (dirty : Prop) (exchange : Exchange) :
    Prop where
  wellFormed : exchange.client.WellFormed
  seen : ∀ stored ∈ exchange.shared.records, stored.id = guid →
    stored.modified ≤ exchange.client.lastSync
  changed : dirty → guid ∈ exchange.client.tracker.changed
  pursues : ∀ pass, exchange.pass = some pass → exchange.Pursues keys guid dirty pass

section Alone

variable {keys : KeyBundle} {guid : String} {dirty : Prop}

section Fetching

variable {client : Client} {since : Timestamp} {shared : Shared} {records : List StoredRecord}
  (h : Holds keys guid dirty ⟨client, some (.fetching since), shared⟩)
  (hrecords : records.Perm (shared.newer since))

include h hrecords

end Fetching

section Step

variable (hkeys : keys.encryptionKey.length = Aead.keyLength) {exchange next : Exchange}
  {event : Event} (step : Step keys exchange event next) (halone : event.IsAlone)

include hkeys step halone

end Step

section Run

variable (hkeys : keys.encryptionKey.length = Aead.keyLength) {start last : Exchange}
  {events : List Event}

include hkeys

end Run

end Alone

/-! ### Passes that get through -/

/-! ### Edits that come early and late -/

def folderRecord : Record :=
  { id := "a", parentid := some RootGuid.menu, kind := .folder, title := some "A" }

/-- A client that has synced a folder. -/
def synced : Client :=
  ClientCall.runAll (Client.fresh "bookmarks" none false GuidSource.numbered)
    [.setLastSync (Binary64.ofNat 1), .locally (.store (.applyIncoming folderRecord)),
      .locally .unmarkAll]

def retitling : LocalCall :=
  .store (.mutate (.setTitle 6 "edited"))

/-- A pass whose upload fails. -/
def failedPass (sent : List StoredRecord) : List Event :=
  [.began, .fetched [], .failed sent, .ended (.error (.storage .timeout))]

/-- A client that has an item to upload, and the time of an earlier pass. -/
def behindhand : Client :=
  ClientCall.runAll (Client.fresh "bookmarks" none false GuidSource.numbered)
    [.setLastSync (Binary64.ofNat 1), .locally (.mark "b")]

/-- The client once it has taken up the folder. -/
def foldered : Client :=
  ((Client.fromStore BookmarkStore.reparentOrphans).result
    ((Client.onStore (BookmarkStore.applyIncoming folderRecord)).result
      (behindhand.begun.onTracker (·.remove folderRecord.id))).2).2.onTracker (·.suppress false)

end Exchange

end SyncedBookmarks
