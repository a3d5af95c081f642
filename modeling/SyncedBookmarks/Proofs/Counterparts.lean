import Mathlib.Data.List.Forall2
import SyncedBookmarks.Proofs.Bystanders
import SyncedBookmarks.Proofs.Delivery
import SyncedBookmarks.Proofs.Mimicry

namespace SyncedBookmarks

/-! Two trees that differ only in what was there before: the ids of new items run on from another
number in each, and the roots may bear other titles and stand in another order. What is looked up in
one and in the other is the same but for the ids. -/

/-- The id that an item has in a tree whose ids run on `shift` later. The roots keep theirs. -/
def renumber (shift : Nat) (id : Int) : Int :=
  if id ≤ RootId.unfiled then id else id + shift

section Numbers

variable {shift : Nat} {id other : Int}

theorem renumber_of_le (h : id ≤ RootId.unfiled) : renumber shift id = id :=
  if_pos h

theorem renumber_of_lt (h : RootId.unfiled < id) : renumber shift id = id + shift :=
  if_neg (by omega)

@[simp] theorem renumber_inj : renumber shift id = renumber shift other ↔ id = other := by
  rw [renumber, renumber]
  split <;> split <;> omega

@[simp] theorem renumber_places : renumber shift RootId.places = RootId.places :=
  renumber_of_le (by decide)

@[simp] theorem renumber_tags : renumber shift RootId.tags = RootId.tags :=
  renumber_of_le (by decide)

@[simp] theorem renumber_unfiled : renumber shift RootId.unfiled = RootId.unfiled :=
  renumber_of_le (by decide)

/-- Whether two ids are those of an item, and not of a root, in both trees. -/
def Twins (shift : Nat) (id other : Int) : Prop :=
  RootId.unfiled < id ∧ other = renumber shift id

theorem Twins.ne_places (h : Twins shift id other) : id ≠ RootId.places := by
  have := h.1
  simp only [RootId.unfiled, RootId.places] at *
  omega

end Numbers

/-- Whether a URI, where there is one, is not that of a query. -/
def NoQuery (url : Option String) : Prop :=
  ∀ uri, url = some uri → BookmarkStore.isQuery uri = false

def Item.renumbered (shift : Nat) (item : Item) : Item :=
  { item with id := renumber shift item.id, parent := item.parent.map (renumber shift) }

def Row.renumbered (shift : Nat) (row : Row) : Row :=
  { row with id := renumber shift row.id, parent := row.parent.map (renumber shift) }

/-- Whether an item is none of the roots and no query. -/
structure Item.Ordinary (item : Item) : Prop where
  notRoot : RootId.unfiled < item.id
  noQuery : NoQuery item.url

structure Row.Ordinary (row : Row) : Prop where
  notRoot : RootId.unfiled < row.id
  noQuery : NoQuery row.url

/-- Whether two items are the same but for their numbers. -/
def Item.Counterpart (shift : Nat) (item other : Item) : Prop :=
  item.Ordinary ∧ other = item.renumbered shift

namespace Item.Counterpart

variable {shift : Nat} {item other : Item} (h : item.Counterpart shift other)

include h

theorem twins : Twins shift item.id other.id :=
  ⟨h.1.notRoot, congrArg Item.id h.2⟩

theorem guid : other.guid = item.guid := by
  rw [h.2, Item.renumbered]

theorem type : other.type = item.type := by
  rw [h.2, Item.renumbered]

theorem title : other.title = item.title := by
  rw [h.2, Item.renumbered]

theorem url : other.url = item.url := by
  rw [h.2, Item.renumbered]

end Item.Counterpart

namespace Row

/-- Whether two rows stand for the same item. Of a root it does not matter how it is called and
where it stands. No item is a query. -/
inductive Counterpart (shift : Nat) : Row → Row → Prop where
  | root {row : Row} (title keyword : Option String) (position : Int)
      (hroot : (row.id, row.guid) ∈ Tree.rootNames)
      (hparent : row.parent = none ∨ row.parent = some RootId.places)
      (hplain : row.annotations = []) :
      Counterpart shift row { row with title, keyword, position }
  | item {row : Row} (hordinary : row.Ordinary) : Counterpart shift row (row.renumbered shift)

theorem le_of_mem_rootNames : ∀ root ∈ Tree.rootNames, root.1 ≤ RootId.unfiled := by decide

namespace Counterpart

variable {shift : Nat} {row other : Row}

theorem id (h : row.Counterpart shift other) : other.id = renumber shift row.id := by
  cases h with
  | root _ _ _ hroot => exact (renumber_of_le (le_of_mem_rootNames _ hroot)).symm
  | item => rfl

theorem guid (h : row.Counterpart shift other) : other.guid = row.guid := by
  cases h <;> rfl

theorem typeCode (h : row.Counterpart shift other) : other.typeCode = row.typeCode := by
  cases h <;> rfl

theorem annotations (h : row.Counterpart shift other) : other.annotations = row.annotations := by
  cases h <;> rfl

theorem parent (h : row.Counterpart shift other) :
    other.parent = row.parent.map (renumber shift) := by
  cases h with
  | root _ _ _ _ hparent =>
      rcases hparent with hparent | hparent
      · simp [hparent]
      · simp [hparent]
  | item => rfl

theorem annotationOf? (h : row.Counterpart shift other) (name : String) :
    other.annotationOf? name = row.annotationOf? name := by
  rw [Row.annotationOf?, Row.annotationOf?, h.annotations]

theorem id_beq (h : row.Counterpart shift other) (id : Int) :
    (other.id == renumber shift id) = (row.id == id) := by
  rw [h.id, Bool.eq_iff_iff]
  simp

theorem parent_beq (h : row.Counterpart shift other) (folder : Int) :
    (other.parent == some (renumber shift folder)) = (row.parent == some folder) := by
  rw [h.parent, Bool.eq_iff_iff]
  cases row.parent <;> simp

/-- What is in a folder other than the topmost is no root. -/
theorem of_parent (h : row.Counterpart shift other) {folder : Int}
    (hparent : row.parent = some folder) (hfolder : folder ≠ RootId.places) :
    row.Ordinary ∧ other = row.renumbered shift := by
  cases h with
  | root _ _ _ _ hplace =>
      rw [hparent] at hplace
      exact absurd (Option.some.inj (hplace.resolve_left (by simp))) hfolder
  | item hordinary => exact ⟨hordinary, rfl⟩

/-- The row of an item, and not of a root. -/
theorem of_lt (h : row.Counterpart shift other) (hitem : RootId.unfiled < row.id) :
    row.Ordinary ∧ other = row.renumbered shift := by
  cases h with
  | root _ _ _ hroot => exact absurd (le_of_mem_rootNames _ hroot) (Int.not_le.mpr hitem)
  | item hordinary => exact ⟨hordinary, rfl⟩

theorem lt_of_guid (h : row.Counterpart shift other) (hguid : row.guid ∉ RootGuid.all) :
    RootId.unfiled < row.id := by
  cases h with
  | root _ _ _ hroot => exact absurd (Tree.mem_all_of_rootNames hroot) hguid
  | item hordinary => exact hordinary.notRoot

theorem lt_of_annotation (h : row.Counterpart shift other) {name value : String}
    (hvalue : row.annotationOf? name = some value) : RootId.unfiled < row.id := by
  cases h with
  | root _ _ _ _ _ hplain =>
      rw [Row.annotationOf?, hplain] at hvalue
      cases hvalue
  | item hordinary => exact hordinary.notRoot

end Counterpart

theorem item_renumbered (shift : Nat) (row : Row) :
    (row.renumbered shift).item = row.item.map (Item.renumbered shift) := by
  rw [item, item, show (row.renumbered shift).typeCode = row.typeCode from rfl]
  cases ItemType.ofCode? row.typeCode <;> rfl

theorem Ordinary.of_item {row : Row} {item : Item} (h : row.Ordinary)
    (hread : row.item = .ok item) : item.Ordinary := by
  obtain ⟨hid, -, -, -, -, -, hurl⟩ := item_eq_ok_iff.mp hread
  exact ⟨hid ▸ h.notRoot, hurl ▸ h.noQuery⟩

theorem Ordinary.sameItem {row : Row} (h : row.Ordinary) (shift : Nat) :
    SameOutcome (Item.Counterpart shift) row.item (row.renumbered shift).item := by
  rw [item_renumbered]
  cases hread : row.item with
  | error cause => exact .error _ _
  | ok item => exact .ok ⟨h.of_item hread, rfl⟩

end Row

theorem find?_forall₂ {R : α → β → Prop} {xs : List α} {ys : List β} (hall : List.Forall₂ R xs ys)
    {p : α → Bool} {q : β → Bool} (h : ∀ x y, R x y → q y = p x) :
    Option.Rel R (xs.find? p) (ys.find? q) := by
  induction hall with
  | nil => exact .none
  | cons hxy _ ih =>
      rw [List.find?_cons, List.find?_cons, h _ _ hxy]
      split
      · exact .some hxy
      · exact ih

/-- What is made in the same way of members that fit is the same. -/
theorem bind_eq_of_rel {R : α → β → Prop} {first : Option α} {second : Option β}
    (h : Option.Rel R first second) {f : α → Option γ} {g : β → Option γ}
    (hsame : ∀ x y, R x y → g y = f x) : second.bind g = first.bind f := by
  cases h with
  | none => rfl
  | some hxy => exact hsame _ _ hxy

theorem map_eq_of_rel {R : α → β → Prop} {first : Option α} {second : Option β}
    (h : Option.Rel R first second) {f : α → γ} {g : β → γ} (hsame : ∀ x y, R x y → g y = f x) :
    second.map g = first.map f := by
  cases h with
  | none => rfl
  | some hxy => exact congrArg some (hsame _ _ hxy)

theorem rel_map {R : α → β → Prop} {Q : γ → δ → Prop} {first : Option α} {second : Option β}
    (h : Option.Rel R first second) {f : α → γ} {g : β → δ} (hfit : ∀ x y, R x y → Q (f x) (g y)) :
    Option.Rel Q (first.map f) (second.map g) := by
  cases h with
  | none => exact .none
  | some hxy => exact .some (hfit _ _ hxy)

namespace Tree

/-- Whether two trees draw the same GUIDs for the items that are yet to come. -/
def SameDraws (tree other : Tree) : Prop :=
  ∀ number count : Nat, other.guids.candidate (other.nextId + number) count =
    tree.guids.candidate (tree.nextId + number) count

/-- Whether two trees are the same but for the numbers of their items. -/
structure Counterpart (shift : Nat) (tree other : Tree) : Prop where
  rows : List.Forall₂ (Row.Counterpart shift) tree.rows other.rows
  given : RootId.unfiled < tree.nextId
  nextId : other.nextId = tree.nextId + shift
  draws : tree.SameDraws other

namespace Counterpart

variable {shift : Nat} {tree other : Tree}

/-! ### Lookups -/

theorem row? (h : tree.Counterpart shift other) (id : Int) :
    Option.Rel (Row.Counterpart shift) (tree.row? id) (other.row? (renumber shift id)) :=
  find?_forall₂ h.rows fun _ _ hrow => hrow.id_beq id

/-- The row of an item, and not of a root. -/
theorem row_of_twins (h : tree.Counterpart shift other) {id id' : Int} (hid : Twins shift id id') :
    Option.Rel (fun row other => row.Ordinary ∧ other = row.renumbered shift) (tree.row? id)
      (other.row? id') := by
  have hrel := h.row? id
  rw [hid.2]
  generalize other.row? (renumber shift id) = found' at hrel
  cases hfound : tree.row? id with
  | none =>
      rw [hfound] at hrel
      cases hrel
      exact .none
  | some row =>
      rw [hfound] at hrel
      cases hrel with
      | some hrow => exact .some (hrow.of_lt (id_of_row? hfound ▸ hid.1))

theorem row?_of_twins (h : tree.Counterpart shift other) {id id' : Int} (hid : Twins shift id id') :
    other.row? id' = (tree.row? id).map (Row.renumbered shift) := by
  have hmap := map_eq_of_rel (h.row_of_twins hid) (f := Row.renumbered shift) (g := fun row => row)
    fun _ _ hrow => hrow.2
  rwa [Option.map_id'] at hmap

theorem find?_guid (h : tree.Counterpart shift other) (guid : String) :
    Option.Rel (Row.Counterpart shift) (tree.rows.find? (·.guid == guid))
      (other.rows.find? (·.guid == guid)) :=
  find?_forall₂ h.rows fun _ _ hrow => by rw [hrow.guid]

theorem idOfGuid? (h : tree.Counterpart shift other) (guid : String) :
    other.idOfGuid? guid = (tree.idOfGuid? guid).map (renumber shift) := by
  rw [Tree.idOfGuid?, Tree.idOfGuid?, Option.map_map]
  exact map_eq_of_rel (h.find?_guid guid) fun _ _ hrow => hrow.id

/-- What does not go by the name of a root is none. -/
theorem twins_of_idOfGuid? (h : tree.Counterpart shift other) {guid : String}
    (hguid : guid ∉ RootGuid.all) :
    Option.Rel (Twins shift) (tree.idOfGuid? guid) (other.idOfGuid? guid) := by
  rw [h.idOfGuid? guid]
  have hrel := h.find?_guid guid
  rw [Tree.idOfGuid?]
  cases hfound : tree.rows.find? (·.guid == guid) with
  | none => exact .none
  | some row =>
      rw [hfound] at hrel
      generalize other.rows.find? (·.guid == guid) = found' at hrel
      cases hrel with
      | some hrow =>
          have hname : row.guid = guid := by simpa using List.find?_some hfound
          exact .some ⟨hrow.lt_of_guid (hname ▸ hguid), rfl⟩

theorem guidOf? (h : tree.Counterpart shift other) (id : Int) :
    other.guidOf? (renumber shift id) = tree.guidOf? id :=
  map_eq_of_rel (h.row? id) fun _ _ hrow => hrow.guid

theorem above? (h : tree.Counterpart shift other) (id : Int) :
    other.above? (renumber shift id) = (tree.above? id).map (renumber shift) := by
  rw [Tree.above?, Tree.above?, Option.map_bind]
  exact bind_eq_of_rel (h.row? id) fun _ _ hrow => hrow.parent

theorem climb (h : tree.Counterpart shift other) (steps : Nat) (id : Int) :
    other.climb steps (renumber shift id) = (tree.climb steps id).map (renumber shift) := by
  induction steps generalizing id with
  | zero => rfl
  | succ steps ih =>
      rw [climb_succ, climb_succ, h.above?]
      cases tree.above? id with
      | none => rfl
      | some parent => exact ih parent

theorem encloses_iff (h : tree.Counterpart shift other) {ancestor id : Int} :
    other.Encloses (renumber shift ancestor) (renumber shift id) ↔ tree.Encloses ancestor id := by
  refine exists_congr fun steps => ?_
  rw [h.climb]
  cases tree.climb steps id <;> simp

theorem annotationOf? (h : tree.Counterpart shift other) (id : Int) (name : String) :
    other.annotationOf? (renumber shift id) name = tree.annotationOf? id name :=
  bind_eq_of_rel (h.row? id) fun _ _ hrow => hrow.annotationOf? name

theorem isLivemark (h : tree.Counterpart shift other) (id : Int) :
    other.isLivemark (renumber shift id) = tree.isLivemark id := by
  rw [Tree.isLivemark, isAnnotated, h.annotationOf?]
  rfl

/-- Only items bear annotations, and they stand in the same order. -/
theorem annotated (h : tree.Counterpart shift other) (name : String) :
    List.Forall₂ (fun entry entry' : Int × String =>
      Twins shift entry.1 entry'.1 ∧ entry'.2 = entry.2) (tree.annotated name)
      (other.annotated name) := by
  refine List.rel_filterMap (R := Row.Counterpart shift) ?_ h.rows
  intro row row' hrow
  dsimp only
  rw [hrow.annotationOf?]
  cases hvalue : row.annotationOf? name with
  | none => exact .none
  | some value => exact .some ⟨⟨hrow.lt_of_annotation hvalue, hrow.id⟩, rfl⟩

theorem walkLength (h : tree.Counterpart shift other) : other.walkLength = tree.walkLength := by
  rw [Tree.walkLength, Tree.walkLength, h.rows.length_eq]

/-! ### Items -/

theorem typeOf? (h : tree.Counterpart shift other) (id : Int) :
    SameOutcome Eq (tree.typeOf? id) (other.typeOf? (renumber shift id)) := by
  have hrel := h.row? id
  rw [Tree.typeOf?, Tree.typeOf?, item?, item?]
  generalize tree.row? id = found at hrel
  generalize other.row? (renumber shift id) = found' at hrel
  cases hrel with
  | none => exact .ok rfl
  | some hrow =>
      simp only [Row.item, hrow.typeCode]
      split
      · exact .ok rfl
      · exact .error _ _

theorem requireFolder (h : tree.Counterpart shift other) (id : Int) :
    SameOutcome Eq (tree.requireFolder id) (other.requireFolder (renumber shift id)) := by
  refine (h.typeOf? id).bind ?_
  rintro type _ rfl
  split
  · exact .ok rfl
  · exact .error _ _

theorem isFolder_iff (h : tree.Counterpart shift other) (hwell : tree.WellFormed)
    (hwell' : other.WellFormed) (id : Int) :
    other.IsFolder (renumber shift id) ↔ tree.IsFolder id := by
  rw [← hwell.requireFolder_iff, ← hwell'.requireFolder_iff]
  have hread := h.requireFolder id
  generalize tree.requireFolder id = read at hread
  generalize other.requireFolder (renumber shift id) = read' at hread
  cases hread <;> simp_all

theorem item? (h : tree.Counterpart shift other) {id id' : Int} (hid : Twins shift id id') :
    SameOutcome (Option.Rel (Item.Counterpart shift)) (tree.item? id) (other.item? id') := by
  have hrel := h.row_of_twins hid
  rw [Tree.item?, Tree.item?]
  generalize tree.row? id = found at hrel
  generalize other.row? id' = found' at hrel
  cases hrel with
  | none => exact .ok .none
  | some hrow =>
      obtain ⟨hordinary, rfl⟩ := hrow
      dsimp only
      exact (hordinary.sameItem shift).bind fun _ _ hitem => .ok (.some hitem)

theorem requireItem (h : tree.Counterpart shift other) {id id' : Int} (hid : Twins shift id id') :
    SameOutcome (Item.Counterpart shift) (tree.requireItem id) (other.requireItem id') := by
  refine (h.item? hid).bind ?_
  rintro _ _ (hitem | _)
  · exact .ok hitem
  · exact .error _ _

theorem rows_of_folder (h : tree.Counterpart shift other) {folder : Int}
    (hfolder : folder ≠ RootId.places) :
    other.rows.filter (·.parent == some (renumber shift folder)) =
      (tree.rows.filter (·.parent == some folder)).map (Row.renumbered shift) := by
  have hall : ∀ {rows others}, List.Forall₂ (Row.Counterpart shift) rows others →
      others.filter (·.parent == some (renumber shift folder)) =
        (rows.filter (·.parent == some folder)).map (Row.renumbered shift) := by
    intro rows others hrows
    induction hrows with
    | nil => rfl
    | cons hrow _ ih =>
        rw [List.filter_cons, List.filter_cons, hrow.parent_beq, ih]
        split
        · rename_i hparent
          rw [List.map_cons, (hrow.of_parent (eq_of_beq hparent) hfolder).2]
        · rfl
  exact hall h.rows

theorem childRows (h : tree.Counterpart shift other) {folder : Int}
    (hfolder : folder ≠ RootId.places) : other.childRows (renumber shift folder) =
      (tree.childRows folder).map (Row.renumbered shift) := by
  rw [Tree.childRows, Tree.childRows, h.rows_of_folder hfolder]
  exact (List.map_mergeSort (f := Row.renumbered shift) fun _ _ _ _ => rfl).symm

theorem ordinary_of_mem_childRows (h : tree.Counterpart shift other) {folder : Int}
    (hfolder : folder ≠ RootId.places) {row : Row} (hrow : row ∈ tree.childRows folder) :
    row.Ordinary := by
  obtain ⟨hmem, hparent⟩ := mem_childRows_iff.mp hrow
  obtain ⟨index, hindex, rfl⟩ := List.getElem_of_mem hmem
  exact (h.rows.get hindex (h.rows.length_eq ▸ hindex) |>.of_parent hparent hfolder).1

/-- The children of a folder other than the topmost are items. -/
theorem children (h : tree.Counterpart shift other) {folder : Int}
    (hfolder : folder ≠ RootId.places) : SameOutcome (List.Forall₂ (Item.Counterpart shift))
      (tree.children folder) (other.children (renumber shift folder)) := by
  rw [Tree.children, Tree.children, h.childRows hfolder]
  refine SameOutcome.mapM (R := fun row other => row.Ordinary ∧ other = row.renumbered shift) ?_ ?_
  · rw [List.forall₂_map_right_iff, List.forall₂_same]
    exact fun row hrow => ⟨h.ordinary_of_mem_childRows hfolder hrow, rfl⟩
  · rintro row _ ⟨hordinary, rfl⟩
    exact hordinary.sameItem shift

theorem parentOf? (h : tree.Counterpart shift other) {id id' : Int} (hid : Twins shift id id') :
    SameOutcome (fun parent parent' => parent' = parent.map (renumber shift)) (tree.parentOf? id)
      (other.parentOf? id') := by
  refine (h.item? hid).bind ?_
  rintro _ _ (hitem | _)
  · exact .ok (congrArg Item.parent hitem.2)
  · exact .ok rfl

theorem url? (h : tree.Counterpart shift other) {id id' : Int} (hid : Twins shift id id') :
    SameOutcome (fun url url' => url = url' ∧ NoQuery url) (tree.url? id) (other.url? id') :=
  (h.requireItem hid).bind fun _ _ hitem =>
    .ok ⟨hitem.url.symm, hitem.1.noQuery⟩

theorem keyword? (h : tree.Counterpart shift other) {id id' : Int} (hid : Twins shift id id') :
    SameOutcome Eq (tree.keyword? id) (other.keyword? id') := by
  have hrel := h.row_of_twins hid
  rw [Tree.keyword?, Tree.keyword?]
  generalize tree.row? id = found at hrel
  generalize other.row? id' = found' at hrel
  cases hrel with
  | none => exact .error _ _
  | some hrow => exact .ok (congrArg Row.keyword hrow.2).symm

/-! ### Tags -/

theorem holdsUrl {items items' : List Item}
    (hall : List.Forall₂ (Item.Counterpart shift) items items') (uri : String) :
    Places.holdsUrl uri items' = Places.holdsUrl uri items := by
  induction hall with
  | nil => rfl
  | cons hitem _ ih =>
      obtain ⟨-, rfl⟩ := hitem
      exact congrArg₂ or rfl ih

theorem tagsOf (h : tree.Counterpart shift other) (uri : String) :
    SameOutcome Eq (tree.tagsOf uri) (other.tagsOf uri) := by
  have hfolders : SameOutcome (List.Forall₂ (Item.Counterpart shift)) (tree.children RootId.tags)
      (other.children (renumber shift RootId.tags)) := h.children (by decide)
  rw [renumber_tags] at hfolders
  refine (SameOutcome.eq_of_eq rfl).bind ?_
  rintro uri _ rfl
  refine hfolders.bind fun folders folders' hall => (SameOutcome.filterM hall ?_).bind ?_
  · intro folder folder' hfolder
    have htwins := hfolder.twins
    rw [htwins.2]
    exact (h.children htwins.ne_places).bind fun _ _ hitems => .ok (holdsUrl hitems uri).symm
  · intro tagged tagged' htagged
    have htitles : tagged'.map (·.title.getD "") = tagged.map (·.title.getD "") := by
      induction htagged with
      | nil => rfl
      | cons hfolder _ ih =>
          rw [List.map_cons, List.map_cons, ih, hfolder.title]
    rw [htitles]
    exact .ok rfl

/-! ### What is listed -/

theorem idsBelow (h : tree.Counterpart shift other) (fuel : Nat) {folder : Int}
    (hfolder : folder ≠ RootId.places) : SameOutcome Eq (BookmarkStore.idsBelow tree fuel folder)
      (BookmarkStore.idsBelow other fuel (renumber shift folder)) := by
  induction fuel generalizing folder with
  | zero => exact .ok rfl
  | succ fuel ih =>
      rw [BookmarkStore.idsBelow, BookmarkStore.idsBelow, h.isLivemark]
      split
      · exact .ok rfl
      · refine (h.children hfolder).bind fun items items' hall =>
          (SameOutcome.mapM (Q := Eq) hall ?_).bind fun below below' hsame => ?_
        · intro item item' hitem
          rw [hitem.twins.2, hitem.guid, hitem.type]
          split
          · refine (ih hitem.twins.ne_places).bind ?_
            rintro ids _ rfl
            exact .ok rfl
          · exact .ok rfl
        · rw [List.forall₂_eq_eq_eq] at hsame
          exact .ok (congrArg List.flatten hsame)

theorem ne_places_of_syncedRoots :
    ∀ root ∈ rootNames, root.2 ∈ BookmarkStore.syncedRoots → root.1 ≠ RootId.places := by decide

/-- What goes by the name of a synced root is not the topmost. -/
theorem ne_places_of_idOfGuid? (h : tree.Counterpart shift other) {guid : String} {root : Int}
    (hguid : guid ∈ BookmarkStore.syncedRoots) (hroot : tree.idOfGuid? guid = some root) :
    root ≠ RootId.places := by
  obtain ⟨row, hfound, rfl⟩ := Option.map_eq_some_iff.mp hroot
  have hname : row.guid = guid := by simpa using List.find?_some hfound
  have hrel := h.find?_guid guid
  rw [hfound] at hrel
  generalize other.rows.find? (·.guid == guid) = found' at hrel
  cases hrel with
  | some hrow =>
      cases hrow with
      | root _ _ _ hplace => exact ne_places_of_syncedRoots _ hplace (hname ▸ hguid)
      | item hordinary => exact (show Twins shift row.id _ from ⟨hordinary.notRoot, rfl⟩).ne_places

theorem allIds (h : tree.Counterpart shift other) :
    SameOutcome Eq (BookmarkStore.allIds tree) (BookmarkStore.allIds other) := by
  have hroots : List.Forall₂ (fun root root' => root ≠ RootId.places ∧ root' = renumber shift root)
      (BookmarkStore.syncedRoots.filterMap tree.idOfGuid?)
      (BookmarkStore.syncedRoots.filterMap other.idOfGuid?) := by
    refine List.rel_filterMap
      (R := fun guid guid' => guid' = guid ∧ guid ∈ BookmarkStore.syncedRoots) ?_
      (List.forall₂_same.mpr fun _ hguid => ⟨rfl, hguid⟩)
    rintro _ guid ⟨rfl, hguid⟩
    rw [h.idOfGuid? guid]
    cases hroot : tree.idOfGuid? guid with
    | none => exact .none
    | some root => exact .some ⟨h.ne_places_of_idOfGuid? hguid hroot, rfl⟩
  refine (SameOutcome.mapM (Q := Eq) hroots ?_).bind fun found found' hsame => ?_
  · rintro root _ ⟨hroot, rfl⟩
    rw [h.walkLength]
    exact h.idsBelow _ hroot
  · rw [List.forall₂_eq_eq_eq] at hsame
    rw [hsame]
    exact .ok rfl

/-! ### Edits -/

theorem of_rows (h : tree.Counterpart shift other) {rows rows' : List Row}
    (hrows : List.Forall₂ (Row.Counterpart shift) rows rows') :
    ({ tree with rows } : Tree).Counterpart shift { other with rows := rows' } where
  rows := hrows
  given := h.given
  nextId := h.nextId
  draws := h.draws

theorem mapRows (h : tree.Counterpart shift other) {select select' : Row → Bool}
    {change change' : Row → Row} (hrow : ∀ row row', row.Counterpart shift row' →
      (if select row then change row else row).Counterpart shift
        (if select' row' then change' row' else row')) :
    (tree.mapRows select change).Counterpart shift (other.mapRows select' change') :=
  h.of_rows (List.rel_map (R := Row.Counterpart shift) (fun row row' => hrow row row') h.rows)

/-- A change to the row of an item, which has nothing to do with its number. -/
theorem mapRow (h : tree.Counterpart shift other) {id id' : Int} (hid : Twins shift id id')
    {change change' : Row → Row} (hchange : ∀ row, row.Ordinary →
      (change row).Counterpart shift (change' (row.renumbered shift))) :
    (tree.mapRow id change).Counterpart shift (other.mapRow id' change') := by
  obtain ⟨hitem, rfl⟩ := hid
  refine h.mapRows fun row row' hrow => ?_
  by_cases heq : row.id = id
  · rw [if_pos (by simpa using heq), if_pos (by simp [hrow.id, heq])]
    obtain ⟨hordinary, rfl⟩ := hrow.of_lt (heq ▸ hitem)
    exact hchange row hordinary
  · rw [if_neg (by simpa using heq), if_neg (by simp [hrow.id, heq])]
    exact hrow

theorem closeGap (h : tree.Counterpart shift other) (folder position : Int) :
    (tree.closeGap folder position).Counterpart shift
      (other.closeGap (renumber shift folder) position) := by
  refine h.mapRows fun row row' hrow => ?_
  have hsame := hrow.parent_beq folder
  cases hrow with
  | root title keyword place hroot hparent hplain =>
      split <;> split <;> exact .root _ _ _ hroot hparent hplain
  | item hordinary =>
      have hplace : (row.renumbered shift).position = row.position := rfl
      simp only [hsame, hplace]
      split
      · exact @Row.Counterpart.item shift { row with position := row.position - 1 }
          ⟨hordinary.notRoot, hordinary.noQuery⟩
      · exact .item hordinary

theorem eraseRow (h : tree.Counterpart shift other) (id : Int) :
    (tree.eraseRow id).Counterpart shift (other.eraseRow (renumber shift id)) := by
  refine h.of_rows (List.rel_filter (R := Row.Counterpart shift) ?_ h.rows)
  intro row row' hrow
  simp [hrow.id]

theorem freshGuid (h : tree.Counterpart shift other) : other.freshGuid = tree.freshGuid := by
  have hcandidate : other.guidCandidate = tree.guidCandidate := by
    funext count
    simpa [guidCandidate] using h.draws 0 count
  have hfree : ∀ guid, (other.idOfGuid? guid).isNone = (tree.idOfGuid? guid).isNone := by
    intro guid
    rw [h.idOfGuid?, Option.isNone_map]
  simp only [Tree.freshGuid, hcandidate, hfree, h.rows.length_eq]

theorem append (h : tree.Counterpart shift other) (parent position : Int) (type : ItemType)
    (title : Option String) {url : Option String}
    (hquery : NoQuery url) :
    (tree.append parent position type title url).Counterpart shift
      (other.append (renumber shift parent) position type title url) where
  rows := by
    refine List.rel_append h.rows (.cons ?_ .nil)
    rw [h.freshGuid, h.nextId, ← renumber_of_lt h.given]
    exact @Row.Counterpart.item shift { tree.newRow parent type title url with position }
      ⟨h.given, hquery⟩
  given := by
    have := h.given
    simp only [Tree.append]
    omega
  nextId := by
    have := h.nextId
    simp only [Tree.append]
    omega
  draws := by
    intro number count
    have := h.draws (number + 1) count
    simp only [Tree.append]
    push_cast at this
    rw [show other.nextId + 1 + number = other.nextId + (number + 1) by omega,
      show tree.nextId + 1 + number = tree.nextId + (number + 1) by omega]
    exact this

/-- The place after the last child, which is told by how many there are. -/
theorem appendSlot (h : tree.Counterpart shift other) {folder : Int}
    (hplaces : Contiguous (tree.slots folder))
    (hplaces' : Contiguous (other.slots (renumber shift folder))) :
    other.appendSlot (renumber shift folder) = tree.appendSlot folder := by
  rw [appendSlot_eq_length hplaces, appendSlot_eq_length hplaces', slots, slots, slotsIn, slotsIn,
    List.length_map, List.length_map]
  have hrows := List.rel_filter (R := Row.Counterpart shift) (p := (·.parent == some folder))
    (q := (·.parent == some (renumber shift folder)))
    (fun row row' hrow => Bool.eq_iff_iff.mp (hrow.parent_beq folder).symm) h.rows
  rw [hrows.length_eq]

theorem inserted (h : tree.Counterpart shift other) (hwell : tree.WellFormed)
    (hwell' : other.WellFormed) (parent : Int) (type : ItemType) (title : Option String)
    {url : Option String} (hquery : NoQuery url) :
    (tree.inserted parent Places.atEnd type title url).Counterpart shift
      (other.inserted (renumber shift parent) Places.atEnd type title url) := by
  simp only [Tree.inserted, reserve_atEnd, slot_atEnd]
  rw [h.appendSlot (hwell.contiguous parent) (hwell'.contiguous _)]
  exact h.append parent _ type title hquery

theorem parked (h : tree.Counterpart shift other) {row : Row} (hitem : RootId.unfiled < row.id) :
    (tree.parked row).Counterpart shift (other.parked (row.renumbered shift)) := by
  have hdetached : ∀ {tree other : Tree}, tree.Counterpart shift other →
      (tree.mapRow row.id Row.detached).Counterpart shift
        (other.mapRow (row.renumbered shift).id Row.detached) := fun hboth =>
    hboth.mapRow ⟨hitem, rfl⟩ fun found hordinary =>
      @Row.Counterpart.item shift found.detached ⟨hordinary.notRoot, hordinary.noQuery⟩
  rw [Tree.parked, Tree.parked]
  cases hparent : row.parent with
  | none =>
      simp only [Row.renumbered, hparent, Option.map_none]
      exact hdetached h
  | some parent =>
      simp only [Row.renumbered, hparent, Option.map_some]
      exact hdetached (h.closeGap parent row.position)

theorem moved (h : tree.Counterpart shift other) (hwell : tree.WellFormed)
    (hwell' : other.WellFormed) {row : Row} (hitem : RootId.unfiled < row.id)
    (hrow : tree.row? row.id = some row)
    (hrow' : other.row? (renumber shift row.id) = some (row.renumbered shift)) (parent : Int) :
    (tree.moved row parent Places.atEnd).Counterpart shift
      (other.moved (row.renumbered shift) (renumber shift parent) Places.atEnd) := by
  have hparked := h.parked hitem
  simp only [Tree.moved, reserve_atEnd, slot_atEnd]
  rw [hparked.appendSlot (contiguous_parked hwell.ids_nodup hrow hwell.contiguous parent)
    (contiguous_parked hwell'.ids_nodup hrow' hwell'.contiguous _)]
  exact hparked.mapRow ⟨hitem, rfl⟩ fun found hordinary =>
    @Row.Counterpart.item shift (found.placed parent _) ⟨hordinary.notRoot, hordinary.noQuery⟩

end Counterpart

end Tree

end SyncedBookmarks
