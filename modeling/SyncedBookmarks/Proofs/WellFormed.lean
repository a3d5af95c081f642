import SyncedBookmarks.Proofs.Ancestry
import SyncedBookmarks.Proofs.Slots

namespace SyncedBookmarks

/-! What holds of every tree that the operations can make, and what follows for its lookups. -/

/-- What holds of a row by itself. -/
structure Row.Sound (row : Row) : Prop where
  typed : ∃ type, ItemType.ofCode? row.typeCode = some type
  url_iff : row.url.isSome ↔ row.typeCode = ItemType.bookmark.code
  url_valid : ∀ uri, row.url = some uri → validateUri uri = .ok uri
  folder_titled : row.typeCode = ItemType.folder.code → row.title.isSome
  keyword_ne : row.keyword ≠ some ""
  root_folder : row.id ≤ RootId.unfiled → row.typeCode = ItemType.folder.code

namespace Tree

/-- Whether there is a folder with an id. -/
def IsFolder (tree : Tree) (id : Int) : Prop :=
  ∃ row, tree.known? id = some row ∧ row.typeCode = ItemType.folder.code

structure WellFormed (tree : Tree) : Prop where
  ids_nodup : (tree.rows.map (·.id)).Nodup
  id_bounds : ∀ id row, tree.known? id = some row → 0 < id ∧ id < tree.nextId
  roots_given : RootId.unfiled < tree.nextId
  sound : ∀ id row, tree.known? id = some row → row.Sound
  guid_inj : ∀ first second row row', tree.known? first = some row →
    tree.known? second = some row' → row.guid = row'.guid → first = second
  parent_iff : ∀ id row, tree.known? id = some row → (row.parent = none ↔ id = RootId.places)
  parent_folder : ∀ id parent, tree.above? id = some parent → tree.IsFolder parent
  rooted : ∀ id row, tree.known? id = some row → tree.Encloses RootId.places id
  contiguous : ∀ folder, Contiguous (tree.slots folder)

/-! ### Rows and entries -/

theorem row?_eq_some_of_mem {tree : Tree} (hids : (tree.rows.map (·.id)).Nodup) {row : Row}
    (hmem : row ∈ tree.rows) : tree.row? row.id = some row :=
  find?_eq_some_of_nodup hids hmem

theorem known?_eq_some_of_mem {tree : Tree} (hids : (tree.rows.map (·.id)).Nodup) {row : Row}
    (hmem : row ∈ tree.rows) : tree.known? row.id = some row.unplaced := by
  rw [known?, row?_eq_some_of_mem hids hmem]
  rfl

theorem exists_mem_of_known? {tree : Tree} {id : Int} {row : Row}
    (h : tree.known? id = some row) :
    ∃ found ∈ tree.rows, found.id = id ∧ found.unplaced = row := by
  obtain ⟨found, hfound, rfl⟩ := Option.map_eq_some_iff.mp h
  exact ⟨found, mem_of_row? hfound, id_of_row? hfound, rfl⟩

theorem above?_of_known? {tree : Tree} {id : Int} {row : Row} (h : tree.known? id = some row) :
    tree.above? id = row.parent := by
  rw [above?_eq_known?, h]
  rfl

theorem known?_of_above? {tree : Tree} {id parent : Int} (h : tree.above? id = some parent) :
    ∃ row, tree.known? id = some row ∧ row.parent = some parent := by
  rw [above?_eq_known?] at h
  exact Option.bind_eq_some_iff.mp h

namespace WellFormed

theorem typed {tree : Tree} (h : tree.WellFormed) : tree.Typed := by
  intro row hrow
  exact (h.sound row.id _ (known?_eq_some_of_mem h.ids_nodup hrow)).typed

theorem guids_nodup {tree : Tree} (h : tree.WellFormed) : (tree.rows.map (·.guid)).Nodup := by
  have hids : tree.rows.Pairwise fun a b => a.id ≠ b.id := List.pairwise_map.mp h.ids_nodup
  refine List.pairwise_map.mpr (hids.imp_of_mem ?_)
  intro first second hfirst hsecond hne heq
  exact hne (h.guid_inj _ _ _ _ (known?_eq_some_of_mem h.ids_nodup hfirst)
    (known?_eq_some_of_mem h.ids_nodup hsecond) heq)

theorem idOfGuid?_iff {tree : Tree} (h : tree.WellFormed) {guid : String} {id : Int} :
    tree.idOfGuid? guid = some id ↔ ∃ row, tree.known? id = some row ∧ row.guid = guid := by
  constructor
  · intro hfound
    obtain ⟨row, hrow, rfl⟩ := Option.map_eq_some_iff.mp hfound
    have hmem := List.mem_of_find?_eq_some hrow
    refine ⟨row.unplaced, known?_eq_some_of_mem h.ids_nodup hmem, ?_⟩
    simpa using List.find?_some hrow
  · rintro ⟨row, hrow, rfl⟩
    obtain ⟨found, hmem, rfl, rfl⟩ := exists_mem_of_known? hrow
    rw [idOfGuid?, Row.unplaced_guid,
      find?_eq_some_of_nodup (f := (·.guid)) h.guids_nodup hmem]
    rfl

theorem idOfGuid?_eq_none_iff {tree : Tree} (h : tree.WellFormed) {guid : String} :
    tree.idOfGuid? guid = none ↔ ∀ id row, tree.known? id = some row → row.guid ≠ guid := by
  rw [Option.eq_none_iff_forall_ne_some]
  constructor
  · intro hnone id row hrow heq
    exact hnone id (h.idOfGuid?_iff.mpr ⟨row, hrow, heq⟩)
  · intro hnone id hid
    obtain ⟨row, hrow, heq⟩ := h.idOfGuid?_iff.mp hid
    exact hnone id row hrow heq

theorem known?_nextId {tree : Tree} (h : tree.WellFormed) : tree.known? tree.nextId = none := by
  rw [Option.eq_none_iff_forall_ne_some]
  intro row hrow
  have := h.id_bounds _ row hrow
  omega

theorem above?_places {tree : Tree} (h : tree.WellFormed) :
    tree.above? RootId.places = none := by
  rw [above?_eq_known?]
  cases hroot : tree.known? RootId.places with
  | none => rfl
  | some row => exact (h.parent_iff _ row hroot).mpr rfl

theorem pos_of_above? {tree : Tree} (h : tree.WellFormed) {id parent : Int}
    (habove : tree.above? id = some parent) : 0 < parent := by
  obtain ⟨row, hrow, -⟩ := h.parent_folder id parent habove
  exact (h.id_bounds parent row hrow).1

/-- Only folders have anything below them. -/
theorem leaf {tree : Tree} (h : tree.WellFormed) {id : Int} {row : Row}
    (hrow : tree.known? id = some row) (htype : row.typeCode ≠ ItemType.folder.code) (other : Int) :
    tree.above? other ≠ some id := by
  intro habove
  obtain ⟨folder, hfolder, hcode⟩ := h.parent_folder other id habove
  rw [hrow] at hfolder
  exact htype (Option.some.inj hfolder ▸ hcode)

theorem not_encloses_places {tree : Tree} (h : tree.WellFormed) {id : Int}
    (hne : id ≠ RootId.places) : ¬ tree.Encloses id RootId.places := by
  intro hencloses
  rcases hencloses.eq_or_above? with heq | ⟨parent, hparent, -⟩
  · exact hne heq
  · rw [h.above?_places] at hparent
    contradiction

/-- With an item, the root above it is there. -/
theorem isSome_places {tree : Tree} (h : tree.WellFormed) {id : Int} {row : Row}
    (hrow : tree.known? id = some row) : (tree.row? RootId.places).isSome := by
  rcases (h.rooted id row hrow).eq_or_child with rfl | ⟨child, hchild, -⟩
  · rw [← isSome_known?, hrow]
    rfl
  · obtain ⟨folder, hfolder, -⟩ := h.parent_folder child RootId.places hchild
    rw [← isSome_known?, hfolder]
    rfl

/-- Every way up is shorter than the bound that walks are given. -/
theorem climb_lt {tree : Tree} (h : tree.WellFormed) {id found : Int} {steps : Nat}
    (hsteps : tree.climb steps id = some found) : steps < tree.walkLength := by
  rw [walkLength]
  cases hrow : tree.known? id with
  | none =>
      cases steps with
      | zero => omega
      | succ steps =>
          simp [climb_succ, above?_eq_known?, hrow] at hsteps
  | some row =>
      obtain ⟨whole, hwhole⟩ := h.rooted id row hrow
      have hle := climb_le_of_root h.above?_places hwhole hsteps
      have hlt := climb_lt_length h.above?_places (h.isSome_places hrow) hwhole
      omega

/-- Looking for an ancestor finds it exactly when it is one. -/
theorem isWithin {tree : Tree} (h : tree.WellFormed) (id ancestor : Int) :
    ∃ found, tree.isWithin id ancestor = .ok found ∧
      (found = true ↔ tree.Encloses ancestor id) := by
  obtain ⟨found, hfound, hiff⟩ := h.typed.climbsTo ancestor tree.walkLength id
  refine ⟨found, hfound, hiff.trans ?_⟩
  constructor
  · rintro ⟨steps, -, hsteps⟩
    exact ⟨steps, hsteps⟩
  · rintro ⟨steps, hsteps⟩
    exact ⟨steps, h.climb_lt hsteps, hsteps⟩

theorem not_encloses_of_isWithin {tree : Tree} (h : tree.WellFormed) {ancestor id : Int}
    (hread : tree.isWithin id ancestor = .ok false) : ¬ tree.Encloses ancestor id := by
  obtain ⟨found, hfound, hiff⟩ := h.isWithin id ancestor
  obtain rfl := Except.ok.inj (hread.symm.trans hfound)
  intro hencloses
  exact Bool.false_ne_true (hiff.mpr hencloses)

end WellFormed

end Tree

end SyncedBookmarks
