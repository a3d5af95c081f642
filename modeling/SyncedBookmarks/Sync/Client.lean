import SyncedBookmarks.StoredRecord
import SyncedBookmarks.Store.Incoming
import SyncedBookmarks.Store.Outgoing
import SyncedBookmarks.Tracker

namespace SyncedBookmarks

/-! A client: a bookmark store with the tracker that watches it, for one collection. -/

structure Client where
  store : BookmarkStore
  tracker : Tracker
  collection : String
  /-- Everything that the tree has told. -/
  log : List Notice := []
  /-- How many payloads were sealed; no two of them share an initialization vector. -/
  sealings : Nat := 0

namespace Client

/-- A client as after a start, over a tree and a ledger that were kept. -/
def resume (collection : String) (generators : Option (List String)) (journaled : Bool)
    (tree : Tree) (ledger : Ledger) : Client where
  store := { places := { tree }, generators }
  tracker := Tracker.resume (if journaled then some collection else none) ledger
  collection := collection

def tree (client : Client) : Tree :=
  client.store.tree

/-- Passes what the tree has told on to the tracker. -/
def deliver (client : Client) : Client :=
  let places := client.store.places
  { client with
    store := { client.store with places := { places with notices := [] } }
    tracker := client.tracker.hearAll places.notices
    log := client.log ++ places.notices }

/-- A step on the store, which the tracker gets to hear of. -/
def onStore (action : StoreAction α) : Action Client StoreError α :=
  fun client =>
    let (outcome, store) := action.result client.store
    (outcome, { client with store }.deliver)

def onTree (action : TreeAction α) : Action Client TreeError α :=
  fun client =>
    let (outcome, places) := action.result client.store.places
    (outcome, { client with store := { client.store with places } }.deliver)

def onPlaces (step : Places → Places) (client : Client) : Client :=
  { client with store := { client.store with places := step client.store.places } }.deliver

def beginBatch (client : Client) : Client :=
  client.onPlaces Places.beginBatch

def endBatch (client : Client) : Client :=
  client.onPlaces Places.endBatch

def onTracker (step : Tracker → Tracker) (client : Client) : Client :=
  { client with tracker := step client.tracker }

def clearCache (client : Client) : Client :=
  { client with store := client.store.clearCache }

def lastSync (client : Client) : Timestamp :=
  client.tracker.ledger.lastSync client.collection

def setLastSync (time : Timestamp) (client : Client) : Client :=
  client.onTracker fun tracker =>
    { tracker with ledger := tracker.ledger.setLastSync client.collection time }

/-- The initialization vector of the next sealing. -/
def nextIv (client : Client) : Bytes :=
  Bytes.ofNat Aead.ivLength client.sealings

end Client

end SyncedBookmarks
