import SyncedBookmarks.Disk
import SyncedBookmarks.Proofs.Steps

namespace SyncedBookmarks.Disk

/-! What has been written to a file is read from it. -/

theorem node?_put (disk : Disk) (place other : DiskPath) (node : DiskNode) :
    (disk.put place node).node? other =
      if other.isEmpty then some .directory
      else if other = place then some node
      else disk.node? other := by
  rw [node?, node?, put]
  split
  · rfl
  · rw [List.find?_append]
    split
    · rename_i heq
      subst heq
      have hnone : (disk.nodes.filter (·.1 != other)).find? (·.1 == other) = none := by
        rw [List.find?_eq_none]
        simp
      rw [hnone]
      simp
    · rename_i hne
      have hsame : (disk.nodes.filter (·.1 != place)).find? (·.1 == other) =
          disk.nodes.find? (·.1 == other) := by
        rw [List.find?_filter]
        congr
        funext entry
        by_cases heq : entry.1 = other
        · simp [heq, hne]
        · simp [heq]
      rw [hsame]
      simp [Ne.symm hne]

/-- A way that leads through directories leads on when something is put where there was none. -/
theorem walk_put {disk : Disk} {place : DiskPath} (hplace : disk.node? place ≠ some .directory)
    (node : DiskNode) {start found : DiskPath} {names : List String}
    (h : disk.walk start names = .ok found) :
    (disk.put place node).walk start names = .ok found := by
  induction names generalizing start with
  | nil => exact h
  | cons name names ih =>
      rw [walk] at h
      split at h
      · cases h
      · cases h
      · rename_i hstart
        -- The way goes on out of a directory, which the place is not.
        have hne : start ≠ place := by
          rintro rfl
          exact hplace hstart
        have hkept : (disk.put place node).node? start = some .directory := by
          rw [node?_put, if_neg hne, hstart, ite_self]
        rw [walk, hkept]
        dsimp only
        split at h
        · rename_i hup
          rw [if_pos hup]
          exact ih h
        · rename_i hup
          split at h
          · cases h
          · rename_i hshort
            rw [if_neg hup, if_neg hshort]
            exact ih h

theorem locate_put {disk : Disk} {path : String} {place found : DiskPath}
    (hplace : disk.node? place ≠ some .directory) (node : DiskNode)
    (h : disk.locate path = .ok found) : (disk.put place node).locate path = .ok found := by
  rw [locate] at h ⊢
  split at h
  · cases h
  · exact walk_put hplace node h

theorem exists_of_write_ok {disk after : Disk} {path : String} {content : Bytes}
    (h : (write path content).result disk = (.ok (), after)) :
    ∃ place, disk.locate path = .ok place ∧ disk.node? place ≠ some .directory ∧
      DiskPath.endsInDirectory path = false ∧ after = disk.put place (.file content) := by
  rw [write, Action.result_bind, Action.result_check] at h
  cases hlocated : disk.locate path with
  | error fault =>
      rw [hlocated] at h
      cases h
  | ok place =>
      rw [hlocated] at h
      dsimp only at h
      rw [Action.result_bind, Action.result_read] at h
      dsimp only at h
      split at h
      · cases h
      · rename_i hnode
        split at h
        · cases h
        · rename_i hname
          exact ⟨place, rfl, by simp [hnode], by simpa using hname, (Prod.mk.inj h).2.symm⟩
      · rename_i hnode
        split at h
        · cases h
        · rename_i hname
          exact ⟨place, rfl, by simp [hnode], by simpa using hname, (Prod.mk.inj h).2.symm⟩

/-- A file is found as it was written last. -/
theorem find_of_write {disk after : Disk} {path : String} {content : Bytes}
    (h : (write path content).result disk = (.ok (), after)) :
    after.find path = .ok (.file content) := by
  obtain ⟨place, hlocated, hplace, hname, rfl⟩ := exists_of_write_ok h
  have hroot : ¬ place.isEmpty = true := fun hempty => hplace (if_pos hempty)
  have hnode : (disk.put place (.file content)).node? place = some (.file content) := by
    rw [node?_put, if_neg hroot, if_pos rfl]
  rw [find, locate_put hplace _ hlocated]
  simp only [bind, Except.bind, hnode, hname, Bool.false_eq_true, if_false]
  rfl

theorem contains_of_write {disk after : Disk} {path : String} {content : Bytes}
    (h : (write path content).result disk = (.ok (), after)) : after.contains path = true := by
  rw [contains, find_of_write h]
  rfl

theorem readText_of_write {disk after : Disk} {path text : String}
    (h : (write path (Bytes.ofText text)).result disk = (.ok (), after)) :
    after.readText path = .ok text := by
  rw [readText, read, find_of_write h]
  simp only [bind, Except.bind, pure, Except.pure, Bytes.text?_ofText]

end SyncedBookmarks.Disk
