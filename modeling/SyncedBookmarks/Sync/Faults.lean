import SyncedBookmarks.Store.Incoming
import SyncedBookmarks.Store.Outgoing

namespace SyncedBookmarks

/-! What becomes of the calls of a pass when statements of the database fail. A call that only reads
fails with its statement. One that writes keeps what it has done by then, and may go on without the
statement. -/

/-- What statements on the tree, and words about items, can make of it. -/
inductive Places.Reaches (start : Places) : Places → Prop
  | refl : Reaches start start
  | edit {places : Places} (before : Reaches start places) (tree : Tree) :
      Reaches start { places with tree }
  | tell {places : Places} (before : Reaches start places) {event : Event}
      (hitem : event.ofItem = true) : Reaches start (places.told event)

/-- A call on the store in which statements fail, wherever that is and whatever it does then. -/
structure Mishap (α : Type) where
  action : StoreAction α
  reaches (store : BookmarkStore) : store.places.Reaches (action.result store).2.places

namespace Mishap

/-- A call that may meet with a mishap. -/
def instead (mishap : Option (Mishap α)) (action : StoreAction α) : StoreAction α :=
  match mishap with
  | some mishap => mishap.action
  | none => action

end Mishap

/-- What fails in a pass or a wipe. -/
structure Faults where
  /-- Why the time of the last pass cannot be read. -/
  unread : Option String := none
  /-- Why the time of the last pass cannot be written. -/
  unwritten : Option String := none
  /-- Why it cannot be listed what is synced. -/
  unlisted : Option String := none
  applying : Record → Option (Mishap Unit) := fun _ => none
  reparenting : Option (Mishap Nat) := none
  making : String → Option (Mishap Record) := fun _ => none
  wiping : Option (Mishap Unit) := none

namespace Faults

/-- No statement fails. -/
def never : Faults := {}

def listed (faults : Faults) (tree : Tree) : Except TreeError (List String) :=
  match faults.unlisted with
  | some reason => .error (.database reason)
  | none => BookmarkStore.allIds tree

def allIds (faults : Faults) : StoreAction (List String) :=
  BookmarkStore.check faults.listed

def applyIncoming (faults : Faults) (record : Record) : StoreAction Unit :=
  Mishap.instead (faults.applying record) (BookmarkStore.applyIncoming record)

def reparentOrphans (faults : Faults) : StoreAction Nat :=
  Mishap.instead faults.reparenting BookmarkStore.reparentOrphans

def createRecord (faults : Faults) (guid : String) : StoreAction Record :=
  Mishap.instead (faults.making guid) (BookmarkStore.createRecord guid)

def wipe (faults : Faults) : StoreAction Unit :=
  Mishap.instead faults.wiping BookmarkStore.wipe

@[simp] theorem allIds_never : never.allIds = BookmarkStore.check BookmarkStore.allIds := rfl

@[simp] theorem applyIncoming_never (record : Record) :
    never.applyIncoming record = BookmarkStore.applyIncoming record := rfl

@[simp] theorem reparentOrphans_never :
    never.reparentOrphans = BookmarkStore.reparentOrphans := rfl

@[simp] theorem createRecord_never (guid : String) :
    never.createRecord guid = BookmarkStore.createRecord guid := rfl

@[simp] theorem wipe_never : never.wipe = BookmarkStore.wipe := rfl

end Faults

end SyncedBookmarks
