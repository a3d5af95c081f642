import Mathlib.Data.List.Nodup
import SyncedBookmarks.Tree.Basic

namespace SyncedBookmarks

/-! What can be looked up in a tree after each of the edits that the operations are made of. -/

namespace Row

/-- What is known of an item but for its place among its siblings. -/
def unplaced (row : Row) : Row :=
  { row with position := 0 }

@[simp] theorem unplaced_id (row : Row) : row.unplaced.id = row.id := rfl
@[simp] theorem unplaced_guid (row : Row) : row.unplaced.guid = row.guid := rfl
@[simp] theorem unplaced_parent (row : Row) : row.unplaced.parent = row.parent := rfl
@[simp] theorem unplaced_typeCode (row : Row) : row.unplaced.typeCode = row.typeCode := rfl
@[simp] theorem unplaced_title (row : Row) : row.unplaced.title = row.title := rfl
@[simp] theorem unplaced_url (row : Row) : row.unplaced.url = row.url := rfl
@[simp] theorem unplaced_keyword (row : Row) : row.unplaced.keyword = row.keyword := rfl
@[simp] theorem unplaced_annotations (row : Row) :
    row.unplaced.annotations = row.annotations := rfl
@[simp] theorem unplaced_annotationOf? (row : Row) (name : String) :
    row.unplaced.annotationOf? name = row.annotationOf? name := rfl
@[simp] theorem unplaced_unplaced (row : Row) : row.unplaced.unplaced = row.unplaced := rfl

@[simp] theorem unplaced_withPosition (row : Row) (position : Int) :
    { row with position }.unplaced = row.unplaced := rfl

end Row

namespace Tree

def known? (tree : Tree) (id : Int) : Option Row :=
  (tree.row? id).map Row.unplaced

/-- The parent of an item, `none` also when there is no such item. -/
def above? (tree : Tree) (id : Int) : Option Int :=
  (tree.row? id).bind (·.parent)

theorem above?_eq_known? (tree : Tree) (id : Int) :
    tree.above? id = (tree.known? id).bind (·.parent) := by
  cases hrow : tree.row? id <;> simp [above?, known?, hrow]

theorem guidOf?_eq_known? (tree : Tree) (id : Int) :
    tree.guidOf? id = (tree.known? id).map (·.guid) := by
  cases hrow : tree.row? id <;> simp [guidOf?, known?, hrow]

theorem annotationOf?_eq_known? (tree : Tree) (id : Int) (name : String) :
    tree.annotationOf? id name = (tree.known? id).bind (·.annotationOf? name) := by
  cases hrow : tree.row? id <;> simp [annotationOf?, known?, hrow]

theorem known?_of_row? {tree : Tree} {id : Int} {row : Row} (h : tree.row? id = some row) :
    tree.known? id = some row.unplaced :=
  congrArg (Option.map Row.unplaced) h

theorem keyword?_of_known? {tree : Tree} {id : Int} {row : Row} (h : tree.known? id = some row) :
    tree.keyword? id = .ok row.keyword := by
  obtain ⟨found, hfound, rfl⟩ := Option.map_eq_some_iff.mp h
  simp [keyword?, hfound]

theorem id_of_row? {tree : Tree} {id : Int} {row : Row} (h : tree.row? id = some row) :
    row.id = id := by
  simpa using List.find?_some h

theorem mem_of_row? {tree : Tree} {id : Int} {row : Row} (h : tree.row? id = some row) :
    row ∈ tree.rows :=
  List.mem_of_find?_eq_some h

theorem id_of_known? {tree : Tree} {id : Int} {row : Row} (h : tree.known? id = some row) :
    row.id = id := by
  obtain ⟨found, hfound, rfl⟩ := Option.map_eq_some_iff.mp h
  simpa using id_of_row? hfound

theorem isSome_row?_iff {tree : Tree} {id : Int} :
    (tree.row? id).isSome ↔ ∃ row ∈ tree.rows, row.id = id := by
  simp [row?, List.find?_isSome]

@[simp] theorem isSome_known? (tree : Tree) (id : Int) :
    (tree.known? id).isSome = (tree.row? id).isSome := by
  simp [known?]

theorem known?_eq_none_iff {tree : Tree} {id : Int} :
    tree.known? id = none ↔ tree.row? id = none := by
  simp [known?]

/-- In a list of rows with distinct values at some key, a row is found by its value. -/
theorem find?_eq_some_of_nodup [DecidableEq κ] {rows : List Row} {f : Row → κ}
    (hnodup : (rows.map f).Nodup) {row : Row} (hmem : row ∈ rows) :
    rows.find? (f · == f row) = some row := by
  induction rows with
  | nil => simp at hmem
  | cons head tail ih =>
      rw [List.map_cons, List.nodup_cons] at hnodup
      rcases List.mem_cons.mp hmem with rfl | htail
      · simp
      · have hne : f head ≠ f row := by
          intro heq
          exact hnodup.1 (heq ▸ List.mem_map_of_mem htail)
        rw [List.find?_cons_of_neg (by simpa using hne)]
        exact ih hnodup.2 htail

/-! ### Edits -/

@[simp] theorem nextId_mapRows (tree : Tree) (select : Row → Bool) (change : Row → Row) :
    (tree.mapRows select change).nextId = tree.nextId := rfl

@[simp] theorem guids_mapRows (tree : Tree) (select : Row → Bool) (change : Row → Row) :
    (tree.mapRows select change).guids = tree.guids := rfl

theorem row?_mapRows (tree : Tree) (select : Row → Bool) {change : Row → Row}
    (hid : ∀ row, (change row).id = row.id) (id : Int) :
    (tree.mapRows select change).row? id =
      (tree.row? id).map fun row => if select row then change row else row := by
  have hkeep : ((fun row : Row => row.id == id) ∘ fun row => if select row then change row else row)
      = fun row => row.id == id := by
    funext row
    by_cases hselect : select row <;> simp [hselect, hid]
  rw [row?, mapRows, List.find?_map, hkeep]
  rfl

theorem row?_mapRow (tree : Tree) (id : Int) {change : Row → Row}
    (hid : ∀ row, (change row).id = row.id) (other : Int) :
    (tree.mapRow id change).row? other =
      if other = id then (tree.row? id).map change else tree.row? other := by
  rw [mapRow, row?_mapRows tree _ hid]
  by_cases heq : other = id
  · subst heq
    cases hrow : tree.row? other with
    | none => simp
    | some row => simp [id_of_row? hrow]
  · cases hrow : tree.row? other with
    | none => simp [heq]
    | some row => simp [id_of_row? hrow, heq]

theorem known?_mapRow (tree : Tree) (id : Int) {change : Row → Row}
    (hid : ∀ row, (change row).id = row.id)
    (hplace : ∀ row, (change row).unplaced = (change row.unplaced).unplaced) (other : Int) :
    (tree.mapRow id change).known? other =
      if other = id then (tree.known? id).map fun row => (change row).unplaced
      else tree.known? other := by
  rw [known?, row?_mapRow tree id hid]
  by_cases heq : other = id
  · simp only [heq, if_true, known?, Option.map_map]
    congr 1
    funext row
    exact hplace row
  · simp [heq, known?]

theorem row?_openGap (tree : Tree) (folder position id : Int) :
    (tree.openGap folder position).row? id =
      (tree.row? id).map fun row =>
        if row.parent == some folder && decide (position ≤ row.position) then
          { row with position := row.position + 1 }
        else row := by
  rw [openGap]
  exact row?_mapRows tree _ (by intro row; rfl) id

theorem row?_closeGap (tree : Tree) (folder position id : Int) :
    (tree.closeGap folder position).row? id =
      (tree.row? id).map fun row =>
        if row.parent == some folder && decide (position < row.position) then
          { row with position := row.position - 1 }
        else row := by
  rw [closeGap]
  exact row?_mapRows tree _ (by intro row; rfl) id

@[simp] theorem known?_openGap (tree : Tree) (folder position id : Int) :
    (tree.openGap folder position).known? id = tree.known? id := by
  rw [known?, row?_openGap, known?, Option.map_map]
  congr 1
  funext row
  simp only [Function.comp]
  split <;> rfl

@[simp] theorem known?_closeGap (tree : Tree) (folder position id : Int) :
    (tree.closeGap folder position).known? id = tree.known? id := by
  rw [known?, row?_closeGap, known?, Option.map_map]
  congr 1
  funext row
  simp only [Function.comp]
  split <;> rfl

@[simp] theorem known?_reserve (tree : Tree) (folder index id : Int) :
    (tree.reserve folder index).known? id = tree.known? id := by
  rw [reserve]
  split
  · rfl
  · exact known?_openGap tree folder index id

@[simp] theorem nextId_reserve (tree : Tree) (folder index : Int) :
    (tree.reserve folder index).nextId = tree.nextId := by
  rw [reserve]
  split <;> rfl

@[simp] theorem guids_reserve (tree : Tree) (folder index : Int) :
    (tree.reserve folder index).guids = tree.guids := by
  rw [reserve]
  split <;> rfl

theorem row?_eraseRow (tree : Tree) (id other : Int) :
    (tree.eraseRow id).row? other = if other = id then none else tree.row? other := by
  simp only [row?, eraseRow, List.find?_filter]
  by_cases heq : other = id
  · subst heq
    simp
  · rw [if_neg heq]
    congr 1
    funext row
    by_cases hrow : row.id = other <;> simp [hrow, heq]

theorem known?_eraseRow (tree : Tree) (id other : Int) :
    (tree.eraseRow id).known? other = if other = id then none else tree.known? other := by
  rw [known?, row?_eraseRow]
  split <;> rfl

end Tree

end SyncedBookmarks
