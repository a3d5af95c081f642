import Mathlib.Data.List.InsertIdx
import SyncedBookmarks.Proofs.Outcomes

namespace SyncedBookmarks

/-! The folders of a tree as lists of items. What the operations make of the positions in the table
is what inserting, erasing and pruning make of the lists. -/

/-- The ids of what is in each folder, in order. -/
def Forest :=
  Int → List Int

namespace Forest

/-- A list with an item at the place that an index asks for: within the list, or after it. -/
def place (index id : Int) (ids : List Int) : List Int :=
  if 0 ≤ index ∧ index < ids.length then ids.insertIdx index.toNat id else ids ++ [id]

def insert (forest : Forest) (folder index id : Int) : Forest := fun other =>
  if other = folder then place index id (forest folder) else forest other

def erase (forest : Forest) (id : Int) : Forest := fun folder =>
  (forest folder).filter (· ≠ id)

/-- Whether an item is a given one or somewhere below it. -/
inductive Holds (forest : Forest) (id : Int) : Int → Prop where
  | self : Holds forest id id
  | child {folder other : Int} (hfolder : Holds forest id folder) (hother : other ∈ forest folder) :
      Holds forest id other

/-- What a forest comes to when an item goes with all that is below it. -/
structure Pruned (before after : Forest) (id : Int) : Prop where
  emptied : ∀ folder, before.Holds id folder → after folder = []
  kept : ∀ folder, ¬ before.Holds id folder → after folder = before.erase id folder

end Forest

/-- A row once its folder has room at a slot. -/
def Row.madeRoom (folder slot : Int) (row : Row) : Row :=
  if row.parent = some folder ∧ slot ≤ row.position then
    { row with position := row.position + 1 }
  else row

@[simp] theorem Row.madeRoom_parent (folder slot : Int) (row : Row) :
    (row.madeRoom folder slot).parent = row.parent := by
  rw [madeRoom]
  split <;> rfl

theorem Row.madeRoom_position {folder : Int} {row : Row} (h : row.parent = some folder)
    (slot : Int) : (row.madeRoom folder slot).position =
      if slot ≤ row.position then row.position + 1 else row.position := by
  rw [madeRoom]
  split <;> split <;> simp_all

theorem Row.madeRoom_of_ne {folder : Int} {row : Row} (h : row.parent ≠ some folder)
    (slot : Int) : row.madeRoom folder slot = row :=
  if_neg fun hin => h hin.1

namespace Tree

def forest (tree : Tree) : Forest := fun folder =>
  (tree.childRows folder).map (·.id)

/-- Whether the children of every folder are read in the order of a forest, each in the position of
its place there. -/
def Refines (tree : Tree) (forest : Forest) : Prop :=
  ∀ folder, ∃ items, tree.children folder = .ok items ∧ items.map (·.id) = forest folder ∧
    items.map (·.position) = (List.range items.length).map Int.ofNat

/-- What the order of the children rests on, also while an item is between two places. -/
structure Orderly (tree : Tree) : Prop where
  ids_nodup : (tree.rows.map (·.id)).Nodup
  contiguous : ∀ folder, Contiguous (tree.slots folder)

theorem WellFormed.orderly {tree : Tree} (h : tree.WellFormed) : tree.Orderly :=
  ⟨h.ids_nodup, h.contiguous⟩

/-- Whether an item has a certain place in a folder. -/
def At (tree : Tree) (folder : Int) (place : Nat) (id : Int) : Prop :=
  ∃ row, tree.row? id = some row ∧ row.parent = some folder ∧ row.position = place

variable {tree before after : Tree} {folder index id : Int}

theorem At.above? {place : Nat} (h : tree.At folder place id) : tree.above? id = some folder := by
  obtain ⟨row, hrow, hparent, -⟩ := h
  rw [Tree.above?, hrow]
  exact hparent

theorem At.place_eq {place other : Nat} (h : tree.At folder place id)
    (h' : tree.At folder other id) : place = other := by
  obtain ⟨row, hrow, -, hposition⟩ := h
  obtain ⟨found, hfound, -, hposition'⟩ := h'
  obtain rfl := Option.some.inj (hrow.symm.trans hfound)
  exact Int.ofNat_inj.mp (hposition.symm.trans hposition')

/-! ### The order of the children -/

namespace Orderly

theorem position_eq (h : tree.Orderly) {place : Nat} {row : Row}
    (hrow : (tree.childRows folder)[place]? = some row) : row.position = place := by
  have hposition := congrArg (·[place]?) (positions_childRows (h.contiguous folder))
  obtain ⟨hlt, rfl⟩ := List.getElem?_eq_some_iff.mp hrow
  simpa [hlt] using hposition

theorem getElem?_forest_iff (h : tree.Orderly) {place : Nat} :
    (tree.forest folder)[place]? = some id ↔ tree.At folder place id := by
  rw [forest, List.getElem?_map, Option.map_eq_some_iff]
  constructor
  · rintro ⟨row, hrow, rfl⟩
    obtain ⟨hmem, hparent⟩ := mem_childRows_iff.mp (List.mem_of_getElem? hrow)
    exact ⟨row, row?_eq_some_of_mem h.ids_nodup hmem, hparent, h.position_eq hrow⟩
  · rintro ⟨row, hrow, hparent, hposition⟩
    obtain ⟨found, hfound⟩ :=
      List.getElem?_of_mem (mem_childRows_iff.mpr ⟨mem_of_row? hrow, hparent⟩)
    obtain rfl := Int.ofNat_inj.mp ((h.position_eq hfound).symm.trans hposition)
    exact ⟨row, hfound, id_of_row? hrow⟩

theorem forest_eq (h : tree.Orderly) {ids : List Int}
    (hids : ∀ place id, ids[place]? = some id ↔ tree.At folder place id) :
    tree.forest folder = ids := by
  refine List.ext_getElem? fun place => Option.ext fun id => ?_
  rw [h.getElem?_forest_iff, hids]

theorem mem_forest_iff (h : tree.Orderly) : id ∈ tree.forest folder ↔ tree.above? id = some folder := by
  constructor
  · intro hmem
    obtain ⟨place, hplace⟩ := List.getElem?_of_mem hmem
    exact (h.getElem?_forest_iff.mp hplace).above?
  · intro habove
    obtain ⟨row, hrow, hparent⟩ := Option.bind_eq_some_iff.mp habove
    exact List.mem_map.mpr
      ⟨row, mem_childRows_iff.mpr ⟨mem_of_row? hrow, hparent⟩, id_of_row? hrow⟩

theorem pairwise_forest (h : tree.Orderly) (folder : Int) :
    (tree.forest folder).Pairwise tree.Precedes := by
  rw [List.pairwise_iff_getElem]
  intro place other hplace hother hlt
  obtain ⟨row, hrow, hparent, hposition⟩ :=
    h.getElem?_forest_iff.mp (List.getElem?_eq_getElem hplace)
  obtain ⟨row', hrow', hparent', hposition'⟩ :=
    h.getElem?_forest_iff.mp (List.getElem?_eq_getElem hother)
  exact ⟨row, row', hrow, hrow', by rw [hparent]; rfl, hparent.trans hparent'.symm, by omega⟩

theorem nodup_forest (h : tree.Orderly) (folder : Int) : (tree.forest folder).Nodup :=
  (h.pairwise_forest folder).imp fun hprecedes heq => (heq ▸ hprecedes).asymm (heq ▸ hprecedes)

theorem length_forest (tree : Tree) (folder : Int) :
    (tree.forest folder).length = (tree.slots folder).length := by
  simp [forest, childRows, slots, slotsIn]

end Orderly

theorem WellFormed.refines {tree : Tree} (h : tree.WellFormed) : tree.Refines tree.forest := by
  intro folder
  obtain ⟨items, hitems, hall⟩ := h.forall₂_children folder
  have hpositions : items.map (·.position) = (tree.childRows folder).map (·.position) := by
    clear hitems
    generalize tree.childRows folder = rows at hall
    induction hall with
    | nil => rfl
    | cons hitem _ ih =>
        rw [List.map_cons, List.map_cons, ih, (Row.item_eq_ok_iff.mp hitem).2.2.2.1]
  refine ⟨items, hitems, ids_of_forall₂ hall, ?_⟩
  rw [hpositions, positions_childRows (h.contiguous folder), hall.length_eq]

/-! ### Making a place -/

namespace Orderly

theorem position_bounds (h : tree.Orderly) {row : Row} (hrow : tree.row? id = some row)
    (hparent : row.parent = some folder) :
    0 ≤ row.position ∧ row.position < (tree.forest folder).length := by
  rw [length_forest]
  exact (h.contiguous folder).bounds row.position (List.mem_map.mpr ⟨row, List.mem_filter.mpr
    ⟨mem_of_row? hrow, by simp [hparent]⟩, rfl⟩)

theorem slot_eq (h : tree.Orderly) (folder index : Int) : tree.slot folder index =
    if 0 ≤ index ∧ index < (tree.forest folder).length then index
    else (tree.forest folder).length := by
  rw [slot, appendSlot_eq_length (h.contiguous folder), length_forest]
  split <;> split <;> omega

/-- An item at an index stands in the slot for that index. -/
theorem place_eq_insertIdx (h : tree.Orderly) (folder index id : Int) :
    Forest.place index id (tree.forest folder) =
      (tree.forest folder).insertIdx (tree.slot folder index).toNat id := by
  rw [Forest.place, h.slot_eq]
  split
  · rfl
  · rw [Int.toNat_natCast, List.insertIdx_length_self]

theorem row?_reserve (h : tree.Orderly) (folder index id : Int) :
    (tree.reserve folder index).row? id =
      (tree.row? id).map (Row.madeRoom folder (tree.slot folder index)) := by
  rw [reserve, slot]
  split
  · cases hrow : tree.row? id with
    | none => rfl
    | some row =>
        rw [Option.map_some, Row.madeRoom, if_neg]
        rintro ⟨hparent, hle⟩
        have hbounds := h.position_bounds hrow hparent
        rw [length_forest] at hbounds
        rw [appendSlot_eq_length (h.contiguous folder)] at hle
        omega
  · rw [row?_openGap]
    congr 1
    funext row
    simp [Row.madeRoom]

end Orderly

/-! ### Taking a place -/

/-- Each entry of a list is found behind a new one if it was not before it. -/
theorem getElem?_insertIdx_eq_some_iff {xs : List α} {slot : Nat} (hslot : slot ≤ xs.length)
    {new x : α} {place : Nat} : (xs.insertIdx slot new)[place]? = some x ↔
      (place = slot ∧ x = new) ∨
        ∃ old, xs[old]? = some x ∧ place = if slot ≤ old then old + 1 else old := by
  rw [List.getElem?_insertIdx]
  rcases Nat.lt_trichotomy place slot with hlt | rfl | hgt
  · rw [if_pos hlt]
    constructor
    · exact fun hold => .inr ⟨place, hold, by rw [if_neg]; omega⟩
    · rintro (⟨rfl, -⟩ | ⟨old, hold, hplace⟩)
      · omega
      · split at hplace
        · omega
        · exact hplace ▸ hold
  · rw [if_neg (Nat.lt_irrefl _), if_pos rfl, if_pos hslot]
    constructor
    · exact fun hnew => .inl ⟨rfl, (Option.some.inj hnew).symm⟩
    · rintro (⟨-, rfl⟩ | ⟨old, -, hplace⟩)
      · rfl
      · split at hplace <;> omega
  · rw [if_neg (by omega), if_neg (by omega)]
    constructor
    · exact fun hold => .inr ⟨place - 1, hold, by rw [if_pos] <;> omega⟩
    · rintro (⟨rfl, -⟩ | ⟨old, hold, hplace⟩)
      · omega
      · obtain rfl : old = place - 1 := by split at hplace <;> omega
        exact hold

section Entering

variable (hbefore : before.Orderly) (hothers : ∀ other, other ≠ id →
  after.row? other = (before.reserve folder index).row? other)

include hbefore hothers

theorem at_entered_iff {other : Int} (hne : other ≠ id) (place : Nat) :
    after.At folder place other ↔ ∃ old, before.At folder old other ∧
      place = if (before.slot folder index).toNat ≤ old then old + 1 else old := by
  have hslot := slot_bounds (hbefore.contiguous folder) index
  unfold At
  rw [hothers other hne, hbefore.row?_reserve]
  constructor
  · rintro ⟨last, hlast, hparent, hposition⟩
    obtain ⟨row, hrow, rfl⟩ := Option.map_eq_some_iff.mp hlast
    rw [Row.madeRoom_parent] at hparent
    rw [Row.madeRoom_position hparent] at hposition
    have hlow := (hbefore.position_bounds hrow hparent).1
    refine ⟨row.position.toNat, ⟨row, hrow, hparent, by omega⟩, ?_⟩
    split at hposition <;> split <;> omega
  · rintro ⟨old, ⟨row, hrow, hparent, hposition⟩, rfl⟩
    refine ⟨_, by rw [hrow, Option.map_some], by rw [Row.madeRoom_parent, hparent], ?_⟩
    rw [Row.madeRoom_position hparent]
    split <;> split <;> omega

theorem at_entered_of_ne {other elsewhere : Int} (hne : other ≠ id) (hfolder : elsewhere ≠ folder)
    (place : Nat) : after.At elsewhere place other ↔ before.At elsewhere place other := by
  have hunmoved : ∀ row : Row, row.parent = some elsewhere →
      row.madeRoom folder (before.slot folder index) = row := fun row hparent =>
    Row.madeRoom_of_ne (fun hin => hfolder (Option.some.inj (hparent.symm.trans hin))) _
  unfold At
  rw [hothers other hne, hbefore.row?_reserve]
  constructor
  · rintro ⟨last, hlast, hparent, hposition⟩
    obtain ⟨row, hrow, rfl⟩ := Option.map_eq_some_iff.mp hlast
    rw [Row.madeRoom_parent] at hparent
    rw [hunmoved row hparent] at hposition
    exact ⟨row, hrow, hparent, hposition⟩
  · rintro ⟨row, hrow, hparent, hposition⟩
    exact ⟨row, by rw [hrow, Option.map_some, hunmoved row hparent], hparent, hposition⟩

/-- An item that was in no folder and has taken the slot for an index. -/
theorem forest_entered (hafter : after.Orderly) (houtside : before.above? id = none)
    (hself : after.At folder (before.slot folder index).toNat id) :
    after.forest = before.forest.insert folder index id := by
  have hslot := slot_bounds (hbefore.contiguous folder) index
  have hnew : ∀ place slot, ¬ before.At place slot id := by
    intro place slot hat
    cases houtside.symm.trans hat.above?
  funext place
  rw [Forest.insert]
  split
  · rename_i heq
    rw [heq, hbefore.place_eq_insertIdx]
    refine hafter.forest_eq fun slot other => ?_
    have hroom : (before.slot folder index).toNat ≤ (before.forest folder).length := by
      rw [Orderly.length_forest]
      omega
    rw [getElem?_insertIdx_eq_some_iff hroom]
    by_cases hother : other = id
    · subst hother
      constructor
      · rintro (⟨rfl, -⟩ | ⟨old, hold, -⟩)
        · exact hself
        · exact absurd (hbefore.getElem?_forest_iff.mp hold) (hnew folder old)
      · exact fun hat => .inl ⟨hat.place_eq hself, rfl⟩
    · rw [at_entered_iff hbefore hothers hother]
      simp only [hbefore.getElem?_forest_iff, hother, and_false, false_or]
  · rename_i hne
    refine hafter.forest_eq fun slot other => ?_
    rw [hbefore.getElem?_forest_iff]
    by_cases heq : other = id
    · subst heq
      refine ⟨fun hat => absurd hat (hnew place slot), fun hat => ?_⟩
      exact absurd (Option.some.inj (hat.above?.symm.trans hself.above?)) hne
    · exact (at_entered_of_ne hbefore hothers heq hne slot).symm

end Entering

/-! ### Leaving a place -/

/-- Items can be put in order in one way only. -/
theorem eq_of_pairwise_precedes {tree : Tree} {items others : List Int}
    (hitems : items.Pairwise tree.Precedes) (hothers : others.Pairwise tree.Precedes)
    (hmem : ∀ id, id ∈ items ↔ id ∈ others) : items = others := by
  have hnodup : ∀ {items : List Int}, items.Pairwise tree.Precedes → items.Nodup :=
    fun hsorted => hsorted.imp fun hprecedes heq => (heq ▸ hprecedes).asymm (heq ▸ hprecedes)
  refine List.Perm.eq_of_pairwise ?_ hitems hothers ?_
  · exact fun first second _ _ hforth hback => absurd hback hforth.asymm
  · exact (List.perm_ext_iff_of_nodup (hnodup hitems) (hnodup hothers)).mpr hmem

/-- What stays in a folder stays in its order. -/
theorem forest_eq_filter (hbefore : before.Orderly) (hafter : after.Orderly)
    (hahead : ∀ first second, after.Precedes first second → before.Precedes first second)
    {kept : Int → Prop} [DecidablePred kept] (habove : ∀ id,
      after.above? id = some folder ↔ before.above? id = some folder ∧ kept id) :
    after.forest folder = (before.forest folder).filter kept := by
  have hsorted := (hafter.pairwise_forest folder).imp (hahead _ _)
  have hsorted' := (hbefore.pairwise_forest folder).filter (fun id => decide (kept id))
  refine eq_of_pairwise_precedes hsorted hsorted' fun id => ?_
  rw [hafter.mem_forest_iff, List.mem_filter, hbefore.mem_forest_iff, decide_eq_true_eq]
  exact habove id

theorem row?_parked (tree : Tree) (row : Row) (id : Int) : (tree.parked row).row? id =
    if id = row.id then (tree.row? id).map fun found => (row.closedUp found).detached
    else (tree.row? id).map row.closedUp := by
  rw [parked_eq, row?_mapRow _ _ Row.detached_id, row?_closeUp, row?_closeUp]
  split
  · rename_i heq
    rw [heq, Option.map_map]
    rfl
  · rfl

theorem above?_parked (tree : Tree) (row : Row) (id : Int) :
    (tree.parked row).above? id = if id = row.id then none else tree.above? id := by
  rw [Tree.above?, row?_parked]
  split
  · cases tree.row? id <;> rfl
  · rw [Tree.above?, Option.bind_map]
    congr 1
    funext found
    exact row.closedUp_parent found

theorem precedes_of_parked {row : Row} {first second : Int}
    (h : (tree.parked row).Precedes first second) : tree.Precedes first second := by
  have hback : ∀ id found, (tree.parked row).row? id = some found → found.parent.isSome →
      ∃ old, tree.row? id = some old ∧ row.closedUp old = found := by
    intro id found hfound hsome
    rw [row?_parked] at hfound
    split at hfound
    · obtain ⟨old, -, rfl⟩ := Option.map_eq_some_iff.mp hfound
      exact absurd hsome Bool.false_ne_true
    · exact Option.map_eq_some_iff.mp hfound
  obtain ⟨last, last', hlast, hlast', hsome, hparent, hlt⟩ := h
  obtain ⟨old, hold, rfl⟩ := hback first last hlast hsome
  obtain ⟨old', hold', rfl⟩ := hback second last' hlast' (hparent ▸ hsome)
  rw [Row.closedUp_parent] at hsome hparent
  rw [Row.closedUp_parent] at hparent
  exact ⟨old, old', hold, hold', hsome, hparent, row.position_lt_of_closedUp hparent hlt⟩

section Parking

variable (h : tree.Orderly) {row : Row} (hrow : tree.row? id = some row)

include h hrow

theorem orderly_parked : (tree.parked row).Orderly where
  ids_nodup := by
    rw [ids_parked]
    exact h.ids_nodup
  contiguous := contiguous_parked h.ids_nodup hrow h.contiguous

theorem forest_parked : (tree.parked row).forest = tree.forest.erase id := by
  obtain rfl := id_of_row? hrow
  funext folder
  refine forest_eq_filter h (orderly_parked h hrow) (fun _ _ => precedes_of_parked) ?_
  intro other
  rw [above?_parked]
  split <;> simp_all

end Parking

/-! ### Whole edits -/

theorem Orderly.toNat_slot (h : tree.Orderly) (folder index : Int) :
    Int.ofNat (tree.slot folder index).toNat = tree.slot folder index :=
  Int.toNat_of_nonneg (slot_bounds (h.contiguous folder) index).1

theorem WellFormed.at_inserted (h : tree.WellFormed) (parent index : Int) (type : ItemType)
    (title url : Option String) : (tree.inserted parent index type title url).At parent
      (tree.slot parent index).toNat tree.nextId := by
  have hold : (tree.reserve parent index).row? tree.nextId = none := by
    rw [← known?_eq_none_iff, known?_reserve, h.known?_nextId]
  refine ⟨{ (tree.reserve parent index).newRow parent type title url with
    position := tree.slot parent index }, ?_, rfl, (h.orderly.toNat_slot parent index).symm⟩
  rw [Tree.inserted, row?_append, hold, nextId_reserve, if_pos rfl, Option.none_or]

theorem WellFormed.forest_inserted (h : tree.WellFormed) {parent : Int}
    (hparent : tree.IsFolder parent) (index : Int) {type : ItemType} {title url : Option String}
    (hfit : Fitting type title url) : (tree.inserted parent index type title url).forest =
      tree.forest.insert parent index tree.nextId := by
  refine forest_entered h.orderly ?_ (h.inserted hparent index hfit).orderly ?_
    (h.at_inserted parent index type title url)
  · intro other hne
    rw [Tree.inserted, row?_append, nextId_reserve, if_neg hne, Option.or_none]
  · rw [above?_eq_known?, h.known?_nextId]
    rfl

theorem at_moved (h : tree.Orderly) {row : Row} (hrow : tree.row? id = some row)
    (newParent index : Int) : (tree.moved row newParent index).At newParent
      ((tree.parked row).slot newParent index).toNat id := by
  obtain rfl := id_of_row? hrow
  have hparked := orderly_parked h hrow
  refine ⟨(((row.closedUp row).detached).madeRoom newParent
    ((tree.parked row).slot newParent index)).placed newParent
      ((tree.parked row).slot newParent index), ?_, rfl, (hparked.toNat_slot newParent index).symm⟩
  rw [moved, row?_mapRow _ _ (Row.placed_id newParent _), if_pos rfl, hparked.row?_reserve,
    row?_parked, if_pos rfl, hrow]
  rfl

theorem WellFormed.forest_moved (h : tree.WellFormed) {row : Row}
    (hrow : tree.row? id = some row) {newParent : Int} (hfolder : tree.IsFolder newParent)
    (houtside : ¬ tree.Encloses id newParent) (index : Int) :
    (tree.moved row newParent index).forest =
      (tree.forest.erase id).insert newParent index id := by
  obtain rfl := id_of_row? hrow
  rw [← forest_parked h.orderly hrow]
  refine forest_entered (orderly_parked h.orderly hrow) ?_
    (h.moved hrow hfolder houtside index).orderly ?_ (at_moved h.orderly hrow newParent index)
  · intro other hne
    rw [Tree.moved, row?_mapRow _ _ (Row.placed_id newParent _), if_neg hne]
  · rw [above?_parked, if_pos rfl]

theorem Orderly.forest_mapRow (h : tree.Orderly) {change : Row → Row} (hsteady : Steady change)
    (id : Int) : (tree.mapRow id change).forest = tree.forest := by
  have hafter : (tree.mapRow id change).Orderly := by
    constructor
    · rw [mapRow, ids_mapRows tree _ hsteady.id]
      exact h.ids_nodup
    · intro folder
      rw [hsteady.slots]
      exact h.contiguous folder
  funext folder
  refine hafter.forest_eq fun place other => ?_
  rw [h.getElem?_forest_iff, At, At, row?_mapRow tree id hsteady.id]
  split
  · rename_i heq
    subst heq
    cases tree.row? other with
    | none => simp
    | some row => simp [hsteady.parent, hsteady.position]
  · rfl

theorem WellFormed.holds_iff (h : tree.WellFormed) {ancestor : Int} :
    tree.forest.Holds ancestor id ↔ tree.Encloses ancestor id := by
  constructor
  · intro hholds
    induction hholds with
    | self => exact Encloses.refl tree ancestor
    | child _ hother ih => exact ih.of_above? (h.orderly.mem_forest_iff.mp hother)
  · rintro ⟨steps, hsteps⟩
    induction steps generalizing id with
    | zero => exact Option.some.inj hsteps ▸ .self
    | succ steps ih =>
        rw [climb_succ, Option.bind_eq_some_iff] at hsteps
        obtain ⟨parent, hparent, hrest⟩ := hsteps
        exact .child (ih hrest) (h.orderly.mem_forest_iff.mpr hparent)

theorem Cleared.forest_pruned (hcleared : Cleared (before.Encloses id) before after)
    (h : before.WellFormed) (horder : InOrder before after) :
    before.forest.Pruned after.forest id := by
  have hafter := hcleared.wellFormed.orderly
  have hback : ∀ other folder, after.above? other = some folder →
      ¬ before.Encloses id other ∧ before.above? other = some folder := by
    intro other folder habove
    obtain ⟨row, hrow, -⟩ := known?_of_above? habove
    exact ⟨(hcleared.known?_of_some hrow).1, hcleared.above?_of_some habove⟩
  constructor
  case emptied =>
    intro folder hholds
    rw [List.eq_nil_iff_forall_not_mem]
    intro other hother
    obtain ⟨hstays, habove⟩ := hback other folder (hafter.mem_forest_iff.mp hother)
    exact hstays ((h.holds_iff.mp hholds).of_above? habove)
  case kept =>
    intro folder houtside
    refine forest_eq_filter h.orderly hafter horder.ahead fun other => ?_
    constructor
    · intro habove
      obtain ⟨hstays, hbefore⟩ := hback other folder habove
      exact ⟨hbefore, fun heq => hstays (heq ▸ Encloses.refl before id)⟩
    · rintro ⟨habove, hne⟩
      refine (hcleared.above?_of_kept ?_).trans habove
      intro hencloses
      rcases hencloses.eq_or_above? with heq | ⟨parent, hparent, hup⟩
      · exact hne heq.symm
      · obtain rfl := Option.some.inj (habove.symm.trans hparent)
        exact houtside (h.holds_iff.mpr hup)

end Tree

/-! ### Operations -/

/-- The item that is told to have come to stand somewhere, with its folder and its index there. -/
def Event.place? : Event → Option (Int × Int × Int)
  | .added id folder index => some (id, folder, index)
  | .moved id _ _ folder index => some (id, folder, index)
  | _ => none

/-- What an operation is to make of the lists of the folders. -/
inductive Reshaping where
  | insertion (folder index : Int)
  | move (id folder index : Int)
  | removal (id : Int)

def Mutation.reshaping? : Mutation → Option Reshaping
  | insertBookmark parent _ index _ => some (.insertion parent index)
  | createFolder parent _ index => some (.insertion parent index)
  | insertSeparator parent index => some (.insertion parent index)
  | createLivemark parent _ _ _ index => some (.insertion parent index)
  | moveItem id newParent index => some (.move id newParent index)
  | removeItem id => some (.removal id)
  | removeFolder id => some (.removal id)
  | _ => none

/-- Whether just one place has been told of, which is where an item stands in the end, and no other
item has changed but for its position. -/
structure Places.Settled (id folder : Int) (before after : Places) : Prop where
  told : ∃ told place, after.notices = before.notices ++ told ∧
    told.filterMap (·.event.place?) = [(id, folder, Int.ofNat place)] ∧
      (after.tree.forest folder)[place]? = some id
  others : ∀ other, other ≠ id → after.tree.known? other = before.tree.known? other

/-- Whether an operation has made of the lists what it is to make of them. -/
def Reshaping.Done (forest : Forest) (before after : Places) : Reshaping → Prop
  | .insertion folder index => ∃ id, before.tree.row? id = none ∧
      after.tree.Refines (forest.insert folder index id) ∧ before.Settled id folder after
  | .move id folder index =>
      after.tree.Refines ((forest.erase id).insert folder index id) ∧ before.Settled id folder after
  | .removal id => ∃ left, after.tree.Refines left ∧ forest.Pruned left id ∧
      (∀ other, forest.Holds id other → after.tree.known? other = none) ∧
      ∀ other, ¬ forest.Holds id other → after.tree.known? other = before.tree.known? other

namespace Places

open SyncedBookmarks.Action SyncedBookmarks.Tree

variable {before after : Places} {folder index id : Int}

/-- What is left after an event has been told that says where an item stands. -/
theorem Settled.of_told {event : Event} {tree : Tree} (horderly : tree.Orderly) {place : Nat}
    (hself : tree.At folder place id) (hevent : event.place? = some (id, folder, Int.ofNat place))
    (hothers : ∀ other, other ≠ id → tree.known? other = before.tree.known? other) :
    before.Settled id folder (({ before with tree } : Places).told event) where
  told := ⟨_, place, rfl, by simp [hevent], horderly.getElem?_forest_iff.mpr hself⟩
  others := hothers

/-- A new item, at its place in the lists. -/
structure Inserted (folder index id : Int) (before after : Places) : Prop where
  new : before.tree.row? id = none
  wellFormed : after.tree.WellFormed
  forest : after.tree.forest = before.tree.forest.insert folder index id
  settled : before.Settled id folder after

theorem inserted_of_insertItem (h : before.tree.WellFormed) {type : ItemType}
    {title url : Option String} (hfit : Fitting type title url)
    (hok : (insertItem folder index type title url).result before = (.ok id, after)) :
    Inserted folder index id before after := by
  cases hfolder : before.tree.requireFolder folder with
  | error cause =>
      simp only [insertItem, result_bind, result_checked, hfolder] at hok
      cases hok
  | ok value =>
      have hparent := (h.requireFolder_iff folder).mp hfolder
      obtain ⟨hid, rfl⟩ := Prod.mk.inj
        ((result_insertItem hfolder index type title url).symm.trans hok)
      obtain rfl := Except.ok.inj hid
      have hwell := h.inserted hparent index hfit
      refine ⟨known?_eq_none_iff.mp h.known?_nextId, hwell, h.forest_inserted hparent index hfit,
        .of_told hwell.orderly (h.at_inserted folder index type title url) ?_ ?_⟩
      · rw [h.orderly.toNat_slot]
        rfl
      · exact fun other hne => (h.known?_inserted folder index type title url other).trans (if_neg hne)

theorem inserted_of_insertBookmark (h : before.tree.WellFormed) {uri : String}
    {title : Option String}
    (hok : (insertBookmark folder uri index title).result before = (.ok id, after)) :
    Inserted folder index id before after := by
  rw [insertBookmark, result_bind, result_checked] at hok
  cases huri : validateUri uri with
  | error cause =>
      rw [huri] at hok
      cases hok
  | ok checked =>
      obtain rfl := eq_of_validateUri huri
      rw [huri] at hok
      exact inserted_of_insertItem h (fitting_bookmark huri title) hok

/-- What is written to a new item does not move it. -/
theorem keeps_annotate_inserted (name value : String) :
    (annotate id name value).Keeps (Inserted folder index id before) := by
  intro places h
  rw [annotate, result_bind, result_checked]
  cases places.tree.requireItem id with
  | error cause => exact h
  | ok item =>
      have hsteady := steady_annotate name value
      have hforest := h.wellFormed.orderly.forest_mapRow hsteady id
      obtain ⟨told, place, hnotices, hplaces, hself⟩ := h.settled.told
      constructor
      case new => exact h.new
      case wellFormed => exact h.wellFormed.annotate id name value
      case forest => exact hforest.trans h.forest
      case settled =>
        constructor
        · refine ⟨told ++ [⟨.changed id name true value, places.tree.mapRow id (·.annotate name value)⟩],
            place, ?_, ?_, ?_⟩
          · rw [← List.append_assoc, ← hnotices]
            rfl
          · rw [List.filterMap_append, hplaces]
            rfl
          · exact (congrArg (fun forest => (forest folder)[place]?) hforest).trans hself
        · intro other hne
          exact ((hsteady.known? places.tree id other).trans (if_neg hne)).trans
            (h.settled.others other hne)

theorem inserted_of_createLivemark (h : before.tree.WellFormed) {title : String}
    {site : Option String} {feed : String}
    (hok : (createLivemark folder title site feed index).result before = (.ok id, after)) :
    Inserted folder index id before after := by
  obtain ⟨feed, _, hfeed, hmade⟩ := exists_of_result_bind hok
  obtain rfl := (Prod.mk.inj hfeed).2
  obtain ⟨site, _, hsite, hplaced⟩ := exists_of_result_bind hmade
  obtain rfl := (Prod.mk.inj hsite).2
  obtain ⟨made, first, hinsert, hrest⟩ := exists_of_result_bind hplaced
  have hannotate : ∀ name value : String,
      (annotate made name value).Keeps (Inserted folder index made before) :=
    keeps_annotate_inserted
  obtain ⟨_, second, hfed, hlast⟩ := exists_of_result_bind hrest
  have hwithFeed := hannotate AnnotationName.feedUri feed first
    (inserted_of_insertItem h (fitting_folder title) hinsert)
  rw [hfed] at hwithFeed
  cases site with
  | none =>
      obtain ⟨hid, rfl⟩ := Prod.mk.inj hlast
      exact Except.ok.inj hid ▸ hwithFeed
  | some site =>
      obtain ⟨_, third, hsited, hend⟩ := exists_of_result_bind hlast
      obtain ⟨hid, rfl⟩ := Prod.mk.inj hend
      have hwithSite := hannotate AnnotationName.siteUri site second hwithFeed
      rw [hsited] at hwithSite
      exact Except.ok.inj hid ▸ hwithSite

theorem Inserted.done (h : Inserted folder index id before after) :
    (Reshaping.insertion folder index).Done before.tree.forest before after :=
  ⟨id, h.new, h.forest ▸ h.wellFormed.refines, h.settled⟩

theorem done_of_moveItem (h : before.tree.WellFormed)
    (hok : (moveItem id folder index).result before = (.ok (), after)) :
    (Reshaping.move id folder index).Done before.tree.forest before after := by
  by_cases hnot : ∀ row, before.tree.row? id = some row → before.tree.IsFolder folder →
      before.tree.Encloses id folder
  · obtain ⟨cause, hresult⟩ := result_moveItem_of_not h hnot index
    cases hresult.symm.trans hok
  · push Not at hnot
    obtain ⟨row, hrow, hfolder, houtside⟩ := hnot
    obtain ⟨-, rfl⟩ := Prod.mk.inj (hok.symm.trans (result_moveItem h hrow hfolder houtside index))
    have hwell := h.moved hrow hfolder houtside index
    have hparked := orderly_parked h.orderly hrow
    refine ⟨h.forest_moved hrow hfolder houtside index ▸ hwell.refines,
      .of_told hwell.orderly (at_moved h.orderly hrow folder index) ?_ ?_⟩
    · rw [hparked.toNat_slot]
      rfl
    · exact fun other hne => (known?_moved hrow folder index other).trans (if_neg hne)

theorem done_of_cleared (h : before.tree.WellFormed)
    (hcleared : Cleared (before.tree.Encloses id) before.tree after.tree)
    (horder : InOrder before.tree after.tree) :
    (Reshaping.removal id).Done before.tree.forest before after :=
  ⟨after.tree.forest, hcleared.wellFormed.refines, hcleared.forest_pruned h horder,
    fun other hholds => hcleared.absent other (h.holds_iff.mp hholds),
    fun other houtside => hcleared.kept other fun hencloses =>
      houtside (h.holds_iff.mpr hencloses)⟩

theorem done_of_removeItem (h : before.tree.WellFormed)
    (hok : (removeItem id).result before = (.ok (), after)) :
    (Reshaping.removal id).Done before.tree.forest before after := by
  have horder := keeps_removeItem_of keeps_deleteRow_inOrder id before (.refl before.tree)
  rw [hok] at horder
  exact done_of_cleared h (cleared_of_removeItem h hok) horder

theorem done_of_removeFolder (h : before.tree.WellFormed)
    (hok : (removeFolder id).result before = (.ok (), after)) :
    (Reshaping.removal id).Done before.tree.forest before after := by
  have horder := keeps_removeFolder_of keeps_deleteRow_inOrder id before (.refl before.tree)
  rw [hok] at horder
  exact done_of_cleared h (cleared_of_removeFolder h hok) horder

end Places

namespace Mutation

open SyncedBookmarks.Action SyncedBookmarks.Places

/-- The folders of every tree there can be hold lists, and an insertion, a move or a removal that
succeeds makes of the positions what it is to make of the lists. -/
theorem reshapes_forest {store : BookmarkStore} (h : store.Reachable) {mutation : Mutation}
    {reshaping : Reshaping} (hshape : mutation.reshaping? = some reshaping) {after : Places}
    (hok : mutation.action.result store.places = (.ok (), after)) :
    ∃ forest, store.tree.Refines forest ∧ reshaping.Done forest store.places after := by
  have hwell : store.places.tree.WellFormed := h.wellFormed.tree
  refine ⟨store.tree.forest, hwell.refines, ?_⟩
  cases mutation with
  | insertBookmark parent uri index title =>
      obtain rfl := Option.some.inj hshape
      obtain ⟨id, hid, -⟩ := exists_of_result_map hok
      exact (inserted_of_insertBookmark hwell hid).done
  | createFolder parent title index =>
      obtain rfl := Option.some.inj hshape
      obtain ⟨id, hid, -⟩ := exists_of_result_map hok
      exact (inserted_of_insertItem hwell (fitting_folder title) hid).done
  | insertSeparator parent index =>
      obtain rfl := Option.some.inj hshape
      obtain ⟨id, hid, -⟩ := exists_of_result_map hok
      exact (inserted_of_insertItem hwell fitting_separator hid).done
  | createLivemark parent title site feed index =>
      obtain rfl := Option.some.inj hshape
      obtain ⟨id, hid, -⟩ := exists_of_result_map hok
      exact (inserted_of_createLivemark hwell hid).done
  | moveItem id newParent index =>
      obtain rfl := Option.some.inj hshape
      exact done_of_moveItem hwell hok
  | removeItem id =>
      obtain rfl := Option.some.inj hshape
      exact done_of_removeItem hwell hok
  | removeFolder id =>
      obtain rfl := Option.some.inj hshape
      exact done_of_removeFolder hwell hok
  | _ => cases hshape

/-- A menu that holds the three folders 6, 7 and 8. -/
def threefold : BookmarkStore :=
  StoreCall.runAll (.fresh .numbered none)
    (["A", "B", "C"].map fun title => .mutate (.createFolder RootId.menu title Places.atEnd))

theorem first_moved_down :
    ∃ forest, threefold.tree.Refines forest ∧
      (Reshaping.move 6 RootId.menu 1).Done forest threefold.places
        ((moveItem 6 RootId.menu 1).action.result threefold.places).2 := by
  have hreachable : threefold.Reachable := ⟨.numbered, none, _, rfl⟩
  have hok : ((moveItem 6 RootId.menu 1).action.result threefold.places).1 = .ok () := by cbv
  exact reshapes_forest hreachable rfl (Prod.ext hok rfl)

end Mutation

end SyncedBookmarks
