import Mathlib
import SyncedBookmarks.Proofs.ClientRuns
import SyncedBookmarks.Proofs.Elementary

namespace SyncedBookmarks

/-! However a pass or a wipe ends, also by a statement that fails, the tracker listens again and the
batch is closed, with all that was told of items between its beginning and its end. Only a pass that
got through moves the time on and sets the score back. -/

namespace Tracker

end Tracker

namespace Places

theorem Reaches.trans {first second third : Places} (h : first.Reaches second)
    (h' : second.Reaches third) : first.Reaches third := by
  induction h' with
  | refl => exact h
  | edit _ tree ih => exact ih.edit tree
  | tell _ hitem ih => exact ih.tell hitem

theorem hereditary_reaches (start : Places) : Hereditary start.Reaches where
  mapRows := fun _ _ _ _ h => h.edit _
  append := fun _ _ _ _ _ _ h => h.edit _
  eraseRow := fun _ _ h => h.edit _
  tell := fun hitem _ h => h.tell hitem

end Places

/-! ### What mishaps reach -/

/-- Whether a call, whatever it meets, reaches what it leaves by changes of the tree and words about
items. -/
def StoreAction.Confined (action : StoreAction α) : Prop :=
  ∀ start : Places, action.Keeps fun store => start.Reaches store.places

theorem Mishap.confined_instead (mishap : Option (Mishap α)) {action : StoreAction α}
    (haction : action.Confined) : (instead mishap action).Confined := by
  intro start store hstore
  cases mishap with
  | none => exact haction start store hstore
  | some mishap => exact hstore.trans (mishap.reaches store)

/-- A call that gets as far as another does, and fails there. -/
def Mishap.cutOff (action : StoreAction α) (haction : action.Confined) (cause : StoreError) :
    Mishap β where
  action := action >>= fun _ => throw cause
  reaches store := ((haction store.places).bind fun _ => Action.keeps_throw cause _) store .refl

namespace Faults

open Places

variable (faults : Faults)

theorem confined_reparentOrphans : faults.reparentOrphans.Confined :=
  Mishap.confined_instead _ fun start => (hereditary_reaches start).reparentOrphans

end Faults

namespace Client

open SyncedBookmarks.Action

/-! ### Within a batch -/

/-- What a stretch of a call makes of a client within its batch: what it tells is of items alone,
and the time of the last pass stays. -/
structure Stretch (client : Client) (told : List Notice) (next : Client) : Prop where
  depth : next.store.places.depth = client.store.places.depth
  heard : next.store.places.notices = []
  log : next.log = client.log ++ told
  items : ∀ notice ∈ told, notice.event.ofItem = true
  collection : next.collection = client.collection
  times : next.tracker.ledger.times = client.tracker.ledger.times

namespace Stretch

end Stretch

/-! ### Receiving -/

/-! ### Sending -/

/-! ### The batch around a call -/

/-- What those who watch get to see of a call: what it tells of items, and the beginning and the
end of a batch around that, unless the call is part of a larger batch. -/
structure Bracketed (before : Client) (told : List Notice) (after : Client) : Prop where
  depth : after.store.places.depth = before.store.places.depth
  items : ∀ notice ∈ told, notice.event.ofItem = true
  log : after.log = before.log ++
    if before.store.places.inBatch then told
    else ⟨.batchBegun, before.tree⟩ :: told ++ [⟨.batchEnded, after.tree⟩]

/-! ### Beginning -/

/-- Whether a pass cannot begin: the time of the last one cannot be read or, before the first one,
the list of what is synced. -/
def Unbegun (client : Client) (faults : Faults) : Prop :=
  faults.unread.isSome ∨
    client.lastSync ≤ Binary64.zero ∧ ∃ cause, faults.listed client.tree = .error cause

/-- A pass that cannot begin leaves the tracker as it was. -/
structure Unopened (client : Client) (faults : Faults) (next : Client) : Prop where
  unbegun : client.Unbegun faults
  bracketed : client.Bracketed [] next
  tracker : next.tracker = client.tracker
  lastSync : next.lastSync = client.lastSync

/-- A client that asks what is newer. It marks items first, before it stops listening. -/
structure Asking (client : Client) (faults : Faults) (next : Client) : Prop where
  begun : ¬ client.Unbegun faults
  stretch : client.clearCache.beginBatch.Stretch [] next
  deaf : next.tracker.suppressed = true
  score : next.tracker.score = client.tracker.score

/-! ### Whole calls -/

/-- The greatest of some times. -/
structure Greatest (time : Timestamp) (times : List Timestamp) : Prop where
  mem : time ∈ times
  le : ∀ other ∈ times, other ≤ time

/-- What is heard while a client listens adds to the score; what it hears of is the last that was
told. What the server has accepted is dropped afterwards. -/
def Earned (client : Client) (told : List Notice) (tracker : Tracker) : Prop :=
  ∃ (earlier heard : List Notice) (listening : Tracker) (accepted : List String),
    told = earlier ++ heard ∧ listening.score = client.tracker.score ∧
      tracker = (listening.hearAll heard).removeAll accepted

/-- The time that a pass has of its upload: the storage's, and zero when nothing was sent. -/
def UploadTime (storage : Storage σ) (keys : KeyBundle) (client : Client) (state : σ)
    (faults : Faults) (records : List StoredRecord) (time : Timestamp) : Prop :=
  let sent := client.parcel keys records faults
  (sent = [] ∧ time = Binary64.zero) ∨
    (sent ≠ [] ∧ ∃ result, time = result.modified ∧
      (storage.upload client.collection sent
        (storage.fetch client.collection client.lastSync state).2).1 = .ok result)

section

variable {client opened last : Client} {told : List Notice}
  (h : client.store.places.notices = []) (hopened : client.clearCache.beginBatch = opened)
  (hstretch : opened.Stretch told last)

include h hopened hstretch

end

/-- How a pass leaves a client, whatever its outcome. -/
structure Left (storage : Storage σ) (keys : KeyBundle) (state : σ) (faults : Faults)
    (client : Client) (outcome : Except SyncError Summary) (told : List Notice) (next : Client) :
    Prop where
  bracketed : client.Bracketed told next
  deaf_iff : next.tracker.suppressed = true ↔
    client.tracker.suppressed = true ∧ client.Unbegun faults
  failed : ∀ cause, outcome = .error cause →
    next.lastSync = client.lastSync ∧ client.Earned told next.tracker
  passed : ∀ summary, outcome = .ok summary →
    faults.unread = none ∧ faults.unwritten = none ∧
    next.tracker.score = 0 ∧ client.lastSync ≤ next.lastSync ∧
      ∃ records time, (storage.fetch client.collection client.lastSync state).1 = .ok records ∧
        UploadTime storage keys client state faults records time ∧
        Greatest next.lastSync (client.lastSync :: records.map (·.modified) ++ [time])

section

variable {client next last final : Client} {storage : Storage σ} {keys : KeyBundle} {state : σ}
  {faults : Faults} {told : List Notice}

/-- A client that listens after what it was told, and has only earned its score meanwhile. -/
structure Listening (client : Client) (faults : Faults) (told : List Notice) (last : Client) :
    Prop where
  begun : ¬ client.Unbegun faults
  stretch : client.clearCache.beginBatch.Stretch told last
  listens : last.tracker.suppressed = false
  earned : client.Earned told last.tracker

section

variable (h : client.store.places.notices = [])
  (hstart : client.startPass faults = (.fetching client.lastSync, next))
  (hasking : client.Asking faults next)

include h hstart hasking

end

end

/-- A client whose last pass was at a time. -/
def lastAt (time : Timestamp) : Client :=
  (fresh "bookmarks" none false .numbered).setLastSync time

/-- A client whose last pass was at a time, and which has heard of something since. -/
def scored (time : Timestamp) : Client :=
  (lastAt time).onTracker ({ · with score := 3 })

def unwritable : Faults where
  unwritten := some "disk full"

/-- Faults in which the last statement of the re-parenting pass fails. -/
def unmovable : Faults where
  reparenting := some (.cutOff BookmarkStore.reparentOrphans
    (Faults.confined_reparentOrphans .never) (.tree (.database "disk full")))

/-- A client that does not listen. -/
def deaf : Client :=
  (fresh "bookmarks" none false .numbered).onTracker (·.suppress true)

/-- A client that does not listen, with an item in the menu whose type has no meaning. -/
def deafened : Client :=
  let row : Row :=
    { id := 6, guid := "a", parent := some RootId.menu, position := 0, typeCode := 9
      title := none, url := none }
  { deaf with store.places.tree := { deaf.tree with rows := deaf.tree.rows ++ [row] } }

def unreadable : Faults where
  unread := some "database is locked"

/-- A client whose last pass was at -5. -/
def early : Client :=
  lastAt ⟨true, 0x4014000000000000, by decide⟩

def silent : Storage Unit :=
  Storage.answering (.ok []) (.error .unauthorized)

end Client

end SyncedBookmarks
