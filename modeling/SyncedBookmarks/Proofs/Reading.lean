import SyncedBookmarks.Proofs.WellFormed

namespace SyncedBookmarks

/-! In a well-formed tree every item can be read, and what is read is what is there. -/

theorem ItemType.code_inj {first second : ItemType} (h : first.code = second.code) :
    first = second := by
  have hread := congrArg ItemType.ofCode? h
  rw [ofCode?_code, ofCode?_code] at hread
  exact Option.some.inj hread

namespace Row

theorem item_eq_ok_iff {row : Row} {item : Item} :
    row.item = .ok item ↔
      item.id = row.id ∧ item.guid = row.guid ∧ item.parent = row.parent ∧
        item.position = row.position ∧ item.type.code = row.typeCode ∧
          item.title = row.title ∧ item.url = row.url := by
  rw [Row.item]
  constructor
  · intro h
    split at h
    · rename_i type htype
      obtain rfl := Except.ok.inj h
      exact ⟨rfl, rfl, rfl, rfl, ItemType.ofCode?_eq_some htype, rfl, rfl⟩
    · contradiction
  · rintro ⟨hid, hguid, hparent, hposition, htype, htitle, hurl⟩
    rw [← htype, ItemType.ofCode?_code]
    cases item
    simp_all

theorem Sound.exists_item {row : Row} (h : row.unplaced.Sound) : ∃ item, row.item = .ok item := by
  obtain ⟨type, htype⟩ := h.typed
  rw [unplaced_typeCode] at htype
  exact ⟨_, by rw [Row.item, htype]⟩

/-- A row with a URL is that of a bookmark, and no other row is. -/
theorem Sound.url_eq_none {row : Row} (h : row.Sound)
    (htype : row.typeCode ≠ ItemType.bookmark.code) : row.url = none := by
  have hnot := fun hsome => htype (h.url_iff.mp hsome)
  simpa using hnot

end Row

namespace Tree

/-! ### Items -/

namespace WellFormed

theorem exists_item {tree : Tree} (h : tree.WellFormed) {row : Row} (hmem : row ∈ tree.rows) :
    ∃ item, row.item = .ok item :=
  (h.sound row.id _ (known?_eq_some_of_mem h.ids_nodup hmem)).exists_item

theorem item? {tree : Tree} (h : tree.WellFormed) {id : Int} {row : Row}
    (hrow : tree.row? id = some row) : ∃ item, row.item = .ok item ∧ tree.item? id = .ok (some item) ∧
      tree.requireItem id = .ok item := by
  obtain ⟨item, hitem⟩ := h.exists_item (mem_of_row? hrow)
  have hread : tree.item? id = .ok (some item) := by
    rw [Tree.item?, hrow]
    simp only [hitem, Except.map]
  refine ⟨item, hitem, hread, ?_⟩
  rw [Tree.requireItem, hread]
  rfl

theorem item?_none {tree : Tree} {id : Int} (hrow : tree.row? id = none) :
    tree.item? id = .ok none ∧ tree.requireItem id = .error (.itemNotFound id) := by
  have hread : tree.item? id = .ok none := by rw [Tree.item?, hrow]
  refine ⟨hread, ?_⟩
  rw [Tree.requireItem, hread]
  rfl

/-- An item that was read is that of a row. -/
theorem exists_row_of_item? {tree : Tree} (h : tree.WellFormed) {id : Int} {item : Item}
    (hitem : tree.item? id = .ok (some item)) :
    ∃ row, tree.row? id = some row ∧ row.item = .ok item := by
  cases hrow : tree.row? id with
  | none =>
      rw [(item?_none hrow).1] at hitem
      cases Except.ok.inj hitem
  | some row =>
      obtain ⟨found, hread, hfound, -⟩ := h.item? hrow
      rw [hitem] at hfound
      obtain rfl := Option.some.inj (Except.ok.inj hfound)
      exact ⟨row, rfl, hread⟩

theorem parentOf? {tree : Tree} (h : tree.WellFormed) (id : Int) :
    tree.parentOf? id = .ok (tree.above? id) :=
  h.typed.parentOf? id

theorem typeOf? {tree : Tree} (h : tree.WellFormed) {id : Int} {row : Row}
    (hrow : tree.known? id = some row) :
    ∃ type : ItemType, type.code = row.typeCode ∧ tree.typeOf? id = .ok (some type) := by
  obtain ⟨found, hfound, rfl⟩ := Option.map_eq_some_iff.mp hrow
  obtain ⟨item, hitem, hread, -⟩ := h.item? hfound
  refine ⟨item.type, (Row.item_eq_ok_iff.mp hitem).2.2.2.2.1, ?_⟩
  rw [Tree.typeOf?, hread]
  rfl

theorem url? {tree : Tree} (h : tree.WellFormed) {id : Int} {row : Row}
    (hrow : tree.known? id = some row) : tree.url? id = .ok row.url := by
  obtain ⟨found, hfound, rfl⟩ := Option.map_eq_some_iff.mp hrow
  obtain ⟨item, hitem, -, hread⟩ := h.item? hfound
  have hurl : item.url = found.url := (Row.item_eq_ok_iff.mp hitem).2.2.2.2.2.2
  rw [Tree.url?, hread]
  exact congrArg Except.ok hurl

theorem title? {tree : Tree} (h : tree.WellFormed) {id : Int} {row : Row}
    (hrow : tree.known? id = some row) : tree.title? id = .ok row.title := by
  obtain ⟨found, hfound, rfl⟩ := Option.map_eq_some_iff.mp hrow
  obtain ⟨item, hitem, -, hread⟩ := h.item? hfound
  have htitle : item.title = found.title := (Row.item_eq_ok_iff.mp hitem).2.2.2.2.2.1
  rw [Tree.title?, hread]
  exact congrArg Except.ok htitle

end WellFormed

/-- A folder is required with success exactly where there is one. -/
theorem WellFormed.requireFolder_iff {tree : Tree} (h : tree.WellFormed) (id : Int) :
    tree.requireFolder id = .ok () ↔ tree.IsFolder id := by
  rw [Tree.requireFolder]
  cases hrow : tree.known? id with
  | none =>
      have hread := (WellFormed.item?_none (known?_eq_none_iff.mp hrow)).1
      rw [Tree.typeOf?, hread]
      constructor
      · intro hok
        exact absurd hok (by simp [bind, Except.bind, pure, Except.pure])
      · rintro ⟨row, hfound, -⟩
        rw [hrow] at hfound
        contradiction
  | some row =>
      obtain ⟨type, hcode, htype⟩ := h.typeOf? hrow
      rw [htype]
      constructor
      · intro hok
        refine ⟨row, hrow, ?_⟩
        cases type with
        | folder => exact hcode.symm
        | bookmark => exact absurd hok (by simp [bind, Except.bind])
        | separator => exact absurd hok (by simp [bind, Except.bind])
      · rintro ⟨found, hfound, hfolder⟩
        rw [hrow] at hfound
        obtain rfl := Option.some.inj hfound
        have : type = .folder := by
          cases type <;> simp_all [ItemType.code]
        rw [this]
        rfl

theorem WellFormed.requireFolder {tree : Tree} (h : tree.WellFormed) {id : Int}
    (hfolder : tree.IsFolder id) : tree.requireFolder id = .ok () :=
  (h.requireFolder_iff id).mpr hfolder

/-! ### Children -/

/-- What is below a folder, the folder itself left out. -/
def Below (tree : Tree) (folder id : Int) : Prop :=
  tree.Encloses folder id ∧ id ≠ folder

theorem mem_childRows_iff {tree : Tree} {folder : Int} {row : Row} :
    row ∈ tree.childRows folder ↔ row ∈ tree.rows ∧ row.parent = some folder := by
  rw [childRows, List.mem_mergeSort, List.mem_filter]
  simp

/-- A walk over a list gets through if each of its steps does. -/
theorem exists_mapM {f : α → Except ε β} {R : α → β → Prop} {xs : List α}
    (h : ∀ x ∈ xs, ∃ y, f x = .ok y ∧ R x y) :
    ∃ ys, xs.mapM f = .ok ys ∧ List.Forall₂ R xs ys := by
  induction xs with
  | nil => exact ⟨[], rfl, .nil⟩
  | cons x xs ih =>
      obtain ⟨y, hy, hrel⟩ := h x (by simp)
      obtain ⟨ys, hys, hall⟩ := ih fun other hother => h other (by simp [hother])
      refine ⟨y :: ys, ?_, .cons hrel hall⟩
      rw [List.mapM_cons, hy, hys]
      rfl

theorem ids_of_forall₂ {rows : List Row} {items : List Item}
    (hall : List.Forall₂ (fun row item => row.item = .ok item) rows items) :
    items.map (·.id) = rows.map (·.id) := by
  induction hall with
  | nil => rfl
  | cons hitem _ ih => rw [List.map_cons, List.map_cons, ih, (Row.item_eq_ok_iff.mp hitem).1]

theorem mem_iff_of_forall₂ {rows : List Row} {items : List Item}
    (hall : List.Forall₂ (fun row item => row.item = .ok item) rows items) (item : Item) :
    item ∈ items ↔ ∃ row ∈ rows, row.item = .ok item := by
  induction hall with
  | nil => simp
  | @cons row head rows items hhead _ ih =>
      rw [List.mem_cons, ih]
      constructor
      · rintro (rfl | ⟨other, hother, hread⟩)
        · exact ⟨row, by simp, hhead⟩
        · exact ⟨other, by simp [hother], hread⟩
      · rintro ⟨other, hother, hread⟩
        rcases List.mem_cons.mp hother with rfl | hother
        · exact .inl (Except.ok.inj (hread.symm.trans hhead))
        · exact .inr ⟨other, hother, hread⟩

namespace WellFormed

theorem forall₂_children {tree : Tree} (h : tree.WellFormed) (folder : Int) :
    ∃ items, tree.children folder = .ok items ∧
      List.Forall₂ (fun row item => row.item = .ok item) (tree.childRows folder) items :=
  exists_mapM fun _ hrow =>
    (h.exists_item (mem_childRows_iff.mp hrow).1).imp fun _ hitem => ⟨hitem, hitem⟩

/-- The children of a folder are the items with it as parent, each once. -/
theorem children {tree : Tree} (h : tree.WellFormed) (folder : Int) :
    ∃ items, tree.children folder = .ok items ∧ (items.map (·.id)).Nodup ∧
      ∀ item, item ∈ items ↔
        ∃ row, tree.row? item.id = some row ∧ row.item = .ok item ∧ row.parent = some folder := by
  obtain ⟨items, hitems, hall⟩ := h.forall₂_children folder
  refine ⟨items, hitems, ?_, ?_⟩
  · rw [ids_of_forall₂ hall]
    have hperm := List.mergeSort_perm (tree.rows.filter (·.parent == some folder))
      fun a b : Row => decide (a.position ≤ b.position)
    exact (hperm.map (·.id)).nodup_iff.mpr (h.ids_nodup.sublist (List.filter_sublist.map _))
  · intro item
    rw [mem_iff_of_forall₂ hall]
    constructor
    · rintro ⟨row, hrow, hitem⟩
      obtain ⟨hrow, hparent⟩ := mem_childRows_iff.mp hrow
      refine ⟨row, ?_, hitem, hparent⟩
      rw [(Row.item_eq_ok_iff.mp hitem).1]
      exact row?_eq_some_of_mem h.ids_nodup hrow
    · rintro ⟨row, hrow, hitem, hparent⟩
      exact ⟨row, mem_childRows_iff.mpr ⟨mem_of_row? hrow, hparent⟩, hitem⟩

theorem ids_children {tree : Tree} (h : tree.WellFormed) {folder : Int} {items : List Item}
    (hitems : tree.children folder = .ok items) (id : Int) :
    id ∈ items.map (·.id) ↔ tree.above? id = some folder := by
  obtain ⟨found, hfound, -, hmem⟩ := h.children folder
  obtain rfl := Except.ok.inj (hitems.symm.trans hfound)
  rw [List.mem_map]
  constructor
  · rintro ⟨item, hitem, rfl⟩
    obtain ⟨row, hrow, -, hparent⟩ := (hmem item).mp hitem
    rw [Tree.above?, hrow]
    exact hparent
  · intro habove
    obtain ⟨row, hrow, hparent⟩ := Option.bind_eq_some_iff.mp habove
    obtain ⟨item, hread, -, -⟩ := h.item? hrow
    have hid : item.id = id := (Row.item_eq_ok_iff.mp hread).1.trans (id_of_row? hrow)
    exact ⟨item, (hmem item).mpr ⟨row, by rw [hid, hrow], hread, hparent⟩, hid⟩

/-- A child as it is read shows what is known of it. -/
theorem of_mem_children {tree : Tree} (h : tree.WellFormed) {folder : Int} {items : List Item}
    (hitems : tree.children folder = .ok items) {item : Item} (hitem : item ∈ items) :
    ∃ row, tree.known? item.id = some row ∧ row.parent = some folder ∧ row.guid = item.guid ∧
      row.typeCode = item.type.code ∧ row.title = item.title ∧ row.url = item.url := by
  obtain ⟨found, hfound, -, hmem⟩ := h.children folder
  obtain rfl := Except.ok.inj (hitems.symm.trans hfound)
  obtain ⟨row, hrow, hread, hparent⟩ := (hmem item).mp hitem
  obtain ⟨-, hguid, -, -, htype, htitle, hurl⟩ := Row.item_eq_ok_iff.mp hread
  exact ⟨row.unplaced, known?_of_row? hrow, hparent, hguid.symm, htype.symm, htitle.symm,
    hurl.symm⟩

theorem exists_mem_children {tree : Tree} (h : tree.WellFormed) {folder : Int} {items : List Item}
    (hitems : tree.children folder = .ok items) {id : Int} {row : Row}
    (hrow : tree.known? id = some row) (hparent : row.parent = some folder) :
    ∃ item ∈ items, item.id = id ∧ row.guid = item.guid ∧ row.typeCode = item.type.code ∧
      row.title = item.title ∧ row.url = item.url := by
  obtain ⟨item, hitem, rfl⟩ :=
    List.mem_map.mp ((h.ids_children hitems id).mpr ((above?_of_known? hrow).trans hparent))
  obtain ⟨found, hfound, -, hshown⟩ := h.of_mem_children hitems hitem
  rw [hrow] at hfound
  obtain rfl := Option.some.inj hfound
  exact ⟨item, hitem, rfl, hshown⟩

end WellFormed

end Tree

end SyncedBookmarks
