import Mathlib
import SyncedBookmarks.Proofs.StoreRuns

namespace SyncedBookmarks

/-! Removing a folder says good-bye to each item of it, once and while it is still there, in the
reverse of the order in which a walk down from the folder meets them. -/

namespace Tree

/-! ### The walk down -/

/-- What a walk down from a folder meets below it, so many levels deep: each child, in their order,
with what is below it. -/
def descendants (tree : Tree) : Nat → Int → List Int
  | 0, _ => []
  | fuel + 1, folder =>
      (tree.childRows folder).flatMap fun row => row.id :: tree.descendants fuel row.id

/-- An item and all below it, in the order of a walk down from it. -/
def subtree (tree : Tree) (id : Int) : List Int :=
  id :: tree.descendants tree.walkLength id

/-- What goes with an item, the last that the walk meets first. -/
def retreat (tree : Tree) (fuel : Nat) (id : Int) : List Int :=
  (id :: tree.descendants fuel id).reverse

/-- What goes with some items, one after the other. -/
def retreats (tree : Tree) (fuel : Nat) (items : List Item) : List Int :=
  items.flatMap fun item => tree.retreat fuel item.id

variable {tree other : Tree} {folder id : Int}

theorem retreats_concat (tree : Tree) (fuel : Nat) (items : List Item) (item : Item) :
    tree.retreats fuel (items ++ [item]) =
      tree.retreats fuel items ++ tree.retreat fuel item.id := by
  rw [retreats, List.flatMap_append, List.flatMap_singleton, retreats]

theorem reverse_descendants (tree : Tree) (fuel : Nat) (folder : Int) :
    (tree.descendants (fuel + 1) folder).reverse =
      (tree.childRows folder).reverse.flatMap fun row => tree.retreat fuel row.id := by
  rw [descendants, List.reverse_flatMap]
  rfl

theorem WellFormed.reverse_descendants_eq (h : tree.WellFormed) {items : List Item}
    (hitems : tree.children folder = .ok items) (fuel : Nat) :
    (tree.descendants (fuel + 1) folder).reverse = tree.retreats fuel items.reverse := by
  obtain ⟨_, hfound, hall⟩ := h.forall₂_children folder
  obtain rfl := Except.ok.inj (hitems.symm.trans hfound)
  have hids : items.reverse.map (·.id) = (tree.childRows folder).reverse.map (·.id) := by
    rw [List.map_reverse, ids_of_forall₂ hall, List.map_reverse]
  have hflat : ∀ others : List Item, tree.retreats fuel others =
      (others.map (·.id)).flatMap (tree.retreat fuel) := fun _ => (List.flatMap_map ..).symm
  rw [reverse_descendants, hflat, hids, List.flatMap_map]

theorem WellFormed.above?_of_mem_childRows (h : tree.WellFormed) {row : Row}
    (hrow : row ∈ tree.childRows folder) : tree.above? row.id = some folder := by
  obtain ⟨hmem, hparent⟩ := mem_childRows_iff.mp hrow
  rw [above?, row?_eq_some_of_mem h.ids_nodup hmem]
  exact hparent

theorem exists_childRow (habove : tree.above? id = some folder) :
    ∃ row ∈ tree.childRows folder, row.id = id := by
  obtain ⟨row, hrow, hparent⟩ := Option.bind_eq_some_iff.mp habove
  exact ⟨row, mem_childRows_iff.mpr ⟨mem_of_row? hrow, hparent⟩, id_of_row? hrow⟩

theorem WellFormed.mem_descendants (h : tree.WellFormed) {fuel : Nat} :
    id ∈ tree.descendants fuel folder ↔
      ∃ steps < fuel, tree.climb (steps + 1) id = some folder := by
  induction fuel generalizing folder with
  | zero => simp [descendants]
  | succ fuel ih =>
      rw [descendants, List.mem_flatMap]
      constructor
      · rintro ⟨row, hrow, hmem⟩
        have habove := h.above?_of_mem_childRows hrow
        rcases List.mem_cons.mp hmem with rfl | hdeeper
        · exact ⟨0, Nat.succ_pos fuel, by rw [Nat.zero_add, climb_one, habove]⟩
        · obtain ⟨steps, hlt, hsteps⟩ := ih.mp hdeeper
          refine ⟨steps + 1, Nat.succ_lt_succ hlt, ?_⟩
          rw [climb_add, hsteps, Option.bind_some, climb_one, habove]
      · rintro ⟨steps, hlt, hsteps⟩
        rw [climb_add, Option.bind_eq_some_iff] at hsteps
        obtain ⟨child, hchild, habove⟩ := hsteps
        rw [climb_one] at habove
        obtain ⟨row, hrow, rfl⟩ := exists_childRow habove
        refine ⟨row, hrow, ?_⟩
        cases steps with
        | zero => exact List.mem_cons.mpr (.inl (Option.some.inj hchild))
        | succ steps =>
            exact List.mem_cons_of_mem _ (ih.mpr ⟨steps, Nat.lt_of_succ_lt_succ hlt, hchild⟩)

theorem WellFormed.encloses_of_mem_descendants (h : tree.WellFormed) {fuel : Nat}
    (hmem : id ∈ tree.descendants fuel folder) : tree.Below folder id := by
  obtain ⟨steps, -, hsteps⟩ := h.mem_descendants.mp hmem
  rw [climb_add, Option.bind_eq_some_iff] at hsteps
  obtain ⟨child, hchild, habove⟩ := hsteps
  rw [climb_one] at habove
  exact h.below_iff.mpr ⟨child, habove, steps, hchild⟩

theorem WellFormed.encloses_of_mem_retreat (h : tree.WellFormed) {fuel : Nat}
    (hmem : id ∈ tree.retreat fuel folder) : tree.Encloses folder id := by
  rcases List.mem_cons.mp (List.mem_reverse.mp hmem) with rfl | hbelow
  · exact Encloses.refl tree id
  · exact (h.encloses_of_mem_descendants hbelow).1

/-- The walk meets the item itself and what is below it, and nothing else. -/
theorem WellFormed.mem_subtree (h : tree.WellFormed) :
    id ∈ tree.subtree folder ↔ tree.Encloses folder id := by
  rw [subtree, List.mem_cons, h.mem_descendants]
  constructor
  · rintro (rfl | ⟨steps, -, hsteps⟩)
    · exact Encloses.refl tree id
    · exact ⟨steps + 1, hsteps⟩
  · rintro ⟨steps, hsteps⟩
    cases steps with
    | zero => exact .inl (Option.some.inj hsteps)
    | succ steps => exact .inr ⟨steps, Nat.lt_of_succ_lt (h.climb_lt hsteps), hsteps⟩

/-- A walk that may go deeper than there is anything goes no further. -/
theorem WellFormed.descendants_add (h : tree.WellFormed) {fuel : Nat}
    (hdepth : ∀ id steps, tree.climb steps id = some folder → steps ≤ fuel) (more : Nat) :
    tree.descendants (fuel + more) folder = tree.descendants fuel folder := by
  induction fuel generalizing folder with
  | zero =>
      rw [descendants, List.eq_nil_iff_forall_not_mem]
      intro id hmem
      obtain ⟨steps, -, hsteps⟩ := h.mem_descendants.mp hmem
      exact Nat.not_succ_le_zero steps (hdepth id _ hsteps)
  | succ fuel ih =>
      rw [Nat.succ_add, descendants, descendants]
      refine List.flatMap_congr fun row hrow => ?_
      rw [ih fun id steps hsteps => ?_]
      refine Nat.le_of_succ_le_succ (hdepth id (steps + 1) ?_)
      rw [climb_add, hsteps, Option.bind_some, climb_one, h.above?_of_mem_childRows hrow]

/-- The walk goes to the item first, then to each child in turn and down from there. -/
theorem WellFormed.subtree_eq (h : tree.WellFormed) (id : Int) :
    tree.subtree id = id :: (tree.childRows id).flatMap fun row => tree.subtree row.id := by
  have hdepth : ∀ place below steps, tree.climb steps below = some place →
      steps ≤ tree.walkLength := fun _ _ _ hsteps => (h.climb_lt hsteps).le
  rw [subtree, ← h.descendants_add (hdepth id) 1, descendants]
  rfl

theorem descendants_congr {fuel : Nat}
    (hsame : ∀ place, tree.Encloses folder place → other.childRows place = tree.childRows place)
    (h : tree.WellFormed) : other.descendants fuel folder = tree.descendants fuel folder := by
  induction fuel generalizing folder with
  | zero => rfl
  | succ fuel ih =>
      rw [descendants, descendants, hsame folder (Encloses.refl tree folder)]
      refine List.flatMap_congr fun row hrow => ?_
      rw [ih fun place hplace => hsame place
        (((Encloses.refl tree folder).of_above? (h.above?_of_mem_childRows hrow)).trans hplace)]

/-! ### The order of the walk -/

theorem pairwise_of_forall₂ {rows : List Row} {items : List Item}
    (hall : List.Forall₂ (fun row item => row.item = .ok item) rows items)
    (horder : rows.Pairwise fun first second =>
      first.id ≠ second.id ∧ first.position < second.position) :
    items.Pairwise fun first second => first.position < second.position := by
  induction hall with
  | nil => exact .nil
  | cons hread hrest ih =>
      obtain ⟨hlater, horder⟩ := List.pairwise_cons.mp horder
      refine List.pairwise_cons.mpr ⟨fun item hitem => ?_, ih horder⟩
      obtain ⟨row, hrow, hitemRead⟩ := (mem_iff_of_forall₂ hrest item).mp hitem
      rw [(Row.item_eq_ok_iff.mp hread).2.2.2.1, (Row.item_eq_ok_iff.mp hitemRead).2.2.2.1]
      exact (hlater row hrow).2

theorem WellFormed.not_encloses_of_below (h : tree.WellFormed) (hbelow : tree.Below folder id) :
    ¬ tree.Encloses id folder := by
  obtain ⟨child, habove, hencloses⟩ := h.below_iff.mp hbelow
  exact fun hup => h.not_encloses_parent habove (hencloses.trans hup)

/-- No two children of a folder have anything in common. -/
theorem WellFormed.not_encloses_of_children (h : tree.WellFormed) {first second : Row}
    (hfirst : first ∈ tree.childRows folder) (hsecond : second ∈ tree.childRows folder)
    (hne : first.id ≠ second.id) (hencloses : tree.Encloses first.id id) :
    ¬ tree.Encloses second.id id := by
  intro hother
  have habove := h.above?_of_mem_childRows hfirst
  have habove' := h.above?_of_mem_childRows hsecond
  rcases hencloses.total hother with hup | hup
  · exact h.not_encloses_sibling habove habove' hne hup
  · exact h.not_encloses_sibling habove' habove hne.symm hup

theorem WellFormed.childRows_pairwise (h : tree.WellFormed) (folder : Int) :
    (tree.childRows folder).Pairwise fun first second =>
      first.id ≠ second.id ∧ first.position < second.position := by
  have hids : ((tree.childRows folder).map (·.id)).Nodup :=
    ((List.mergeSort_perm _ _).map _).nodup_iff.mpr
      (h.ids_nodup.sublist (List.filter_sublist.map _))
  have hpositions : ((tree.childRows folder).map (·.position)).Pairwise (· < ·) := by
    rw [positions_childRows (h.contiguous folder), List.pairwise_map]
    exact List.pairwise_lt_range.imp fun hlt => Int.ofNat_lt.mpr hlt
  exact (List.pairwise_map.mp hids).and (List.pairwise_map.mp hpositions)

/-- Nothing comes before what is above it, or twice. -/
theorem WellFormed.descendants_pairwise (h : tree.WellFormed) (fuel : Nat) (folder : Int) :
    (tree.descendants fuel folder).Pairwise fun first second => ¬ tree.Encloses second first := by
  induction fuel generalizing folder with
  | zero => exact .nil
  | succ fuel ih =>
      rw [descendants, List.pairwise_flatMap]
      constructor
      · intro row _
        exact List.pairwise_cons.mpr ⟨fun id hbelow =>
          h.not_encloses_of_below (h.encloses_of_mem_descendants hbelow), ih row.id⟩
      · refine (h.childRows_pairwise folder).imp_of_mem ?_
        intro first second hfirst hsecond hapart id hid id' hid' hup
        have habove := h.encloses_of_mem_retreat (List.mem_reverse.mpr hid)
        have habove' := h.encloses_of_mem_retreat (List.mem_reverse.mpr hid')
        exact h.not_encloses_of_children hsecond hfirst hapart.1.symm (habove'.trans hup) habove

theorem WellFormed.subtree_pairwise (h : tree.WellFormed) (id : Int) :
    (tree.subtree id).Pairwise fun first second => ¬ tree.Encloses second first :=
  List.pairwise_cons.mpr ⟨fun _ hbelow =>
    h.not_encloses_of_below (h.encloses_of_mem_descendants hbelow), h.descendants_pairwise _ id⟩

theorem WellFormed.subtree_nodup (h : tree.WellFormed) (id : Int) : (tree.subtree id).Nodup := by
  refine List.nodup_iff_pairwise_ne.mpr ((h.subtree_pairwise id).imp ?_)
  rintro first _ hup rfl
  exact hup (Encloses.refl tree first)

/-! ### Taking away the last child -/

/-- Where nothing stands after an item, nothing moves up when it goes. -/
theorem removed_of_last {row : Row}
    (hlast : ∀ other ∈ tree.rows, ∀ parent, row.parent = some parent →
      other.parent = some parent → other.position ≤ row.position) :
    tree.removed row = tree.eraseRow row.id := by
  rw [removed]
  split
  · rename_i parent hparent
    rw [closeGap, mapRows, eraseRow]
    congr 1
    rw [List.map_congr_left (g := id), List.map_id]
    intro other hother
    rw [if_neg]
    · rfl
    · simp only [Bool.and_eq_true, beq_iff_eq, decide_eq_true_eq, not_and, not_lt]
      exact hlast other (List.mem_of_mem_filter hother) parent hparent
  · rfl

/-- What is said of an item that is about to go: its name, while it and all above it can still be
read as they were. -/
structure Farewell (tree : Tree) (id : Int) (notice : Notice) : Prop where
  event : ∃ guid, tree.guidOf? id = some guid ∧ notice.event = .removing id guid
  item : ∃ item, tree.requireItem id = .ok item ∧ notice.tree.requireItem id = .ok item
  rows : ∀ above, tree.Encloses above id → notice.tree.row? above = tree.row? above

end Tree

namespace Places

open SyncedBookmarks.Action SyncedBookmarks.Tree

/-! ### One item after the other -/

/-- An item said good-bye to and taken out, the others where they were. -/
def parted (places : Places) (id : Int) : Places :=
  { places.told (.removing id ((places.tree.guidOf? id).getD "")) with
    tree := places.tree.eraseRow id }

def partedAll (places : Places) (ids : List Int) : Places :=
  ids.foldl parted places

theorem partedAll_append (places : Places) (ids more : List Int) :
    places.partedAll (ids ++ more) = (places.partedAll ids).partedAll more :=
  List.foldl_append

theorem rows_partedAll (places : Places) (ids : List Int) :
    (places.partedAll ids).tree.rows = places.tree.rows.filter (!ids.contains ·.id) := by
  induction ids generalizing places with
  | nil => simp [partedAll]
  | cons id ids ih =>
      change ((places.parted id).partedAll ids).tree.rows = _
      rw [ih, parted, eraseRow, List.filter_filter]
      refine List.filter_congr fun row _ => ?_
      by_cases heq : row.id = id <;> simp [heq]

theorem row?_partedAll (places : Places) (ids : List Int) (id : Int) :
    (places.partedAll ids).tree.row? id = if id ∈ ids then none else places.tree.row? id := by
  induction ids generalizing places with
  | nil => rfl
  | cons first ids ih =>
      change ((places.parted first).partedAll ids).tree.row? id = _
      rw [ih, parted, row?_eraseRow]
      by_cases heq : id = first <;> simp [heq]

theorem climb_partedAll {places : Places} {ids : List Int} {steps : Nat} {id found : Int}
    (hsteps : (places.partedAll ids).tree.climb steps id = some found) :
    places.tree.climb steps id = some found := by
  induction steps generalizing id with
  | zero => exact hsteps
  | succ steps ih =>
      rw [climb_succ, Option.bind_eq_some_iff] at hsteps
      obtain ⟨parent, hparent, hrest⟩ := hsteps
      rw [above?, row?_partedAll] at hparent
      split at hparent
      · cases hparent
      · rw [climb_succ, above?, hparent]
        exact ih hrest

theorem childRows_partedAll {places : Places} {ids : List Int} {folder : Int}
    (hkept : ∀ row ∈ places.tree.childRows folder, row.id ∉ ids) :
    (places.partedAll ids).tree.childRows folder = places.tree.childRows folder := by
  rw [childRows, rows_partedAll, List.filter_filter, childRows]
  congr 1
  refine List.filter_congr fun row hrow => ?_
  by_cases hparent : row.parent = some folder
  · simp [hparent, hkept row (mem_childRows_iff.mpr ⟨hrow, hparent⟩)]
  · simp [hparent]

/-- Where nothing goes before what is below it, each is said good-bye to while it and all above it
are there. -/
theorem exists_farewells {tree : Tree} (h : tree.WellFormed) {ids : List Int} {places : Places}
    (hthere : ∀ id ∈ ids, (tree.row? id).isSome)
    (horder : ids.Pairwise fun first later => ¬ tree.Encloses first later)
    (hkept : ∀ id ∈ ids, ∀ above, tree.Encloses above id →
      places.tree.row? above = tree.row? above) :
    ∃ told, (places.partedAll ids).notices = places.notices ++ told ∧
      List.Forall₂ tree.Farewell ids told := by
  induction ids generalizing places with
  | nil => exact ⟨[], (List.append_nil _).symm, .nil⟩
  | cons id ids ih =>
      obtain ⟨hlater, horder⟩ := List.pairwise_cons.mp horder
      obtain ⟨told, htold, hall⟩ := @ih (places.parted id)
        (fun later hmem => hthere later (List.mem_cons_of_mem id hmem)) horder
        (by
          intro later hmem above hup
          have hne : above ≠ id := fun heq => hlater later hmem (heq ▸ hup)
          rw [parted, row?_eraseRow, if_neg hne]
          exact hkept later (List.mem_cons_of_mem id hmem) above hup)
      have hrows := hkept id List.mem_cons_self
      have hself := hrows id (Encloses.refl tree id)
      obtain ⟨row, hrow⟩ := Option.isSome_iff_exists.mp (hthere id List.mem_cons_self)
      obtain ⟨item, -, -, hitem⟩ := h.item? hrow
      refine ⟨⟨.removing id row.guid, places.tree⟩ :: told, ?_, .cons ⟨⟨row.guid, ?_, rfl⟩,
        ⟨item, hitem, ?_⟩, hrows⟩ hall⟩
      · change ((places.parted id).partedAll ids).notices = _
        rw [htold, parted, Places.told, guidOf?, hself, hrow]
        simp
      · rw [guidOf?, hrow]
        rfl
      · rw [← hitem, requireItem, item?, hself, requireItem, item?]

/-! ### Emptying a folder -/

theorem result_deleteRow {places : Places} (h : places.tree.WellFormed) {id : Int} {row : Row}
    (hrow : places.tree.row? id = some row) :
    (deleteRow id).result places =
      (.ok (), { places.told (.removing id row.guid) with tree := places.tree.removed row }) := by
  obtain rfl := id_of_row? hrow
  obtain ⟨item, hread, -, hitem⟩ := h.item? hrow
  obtain ⟨hid, -, hparent, hposition, -⟩ := Row.item_eq_ok_iff.mp hread
  have htold : (tell (.removing row.id row.guid)).result places =
      (.ok (), places.told (.removing row.id row.guid)) := rfl
  simp only [deleteRow, result_bind, result_look, guidOf?, hrow, Option.map_some, Option.getD_some,
    htold, result_checked, tree_told, hitem, hid, hparent, hposition, removed]
  cases row.parent <;> rfl

/-- The last child of a folder goes without a trace. -/
theorem result_deleteRow_of_last {places : Places} (h : places.tree.WellFormed) {id : Int}
    {row : Row} (hrow : places.tree.row? id = some row)
    (hlast : ∀ other ∈ places.tree.rows, ∀ parent, row.parent = some parent →
      other.parent = some parent → other.position ≤ row.position) :
    (deleteRow id).result places = (.ok (), places.parted id) := by
  rw [result_deleteRow h hrow, removed_of_last hlast, id_of_row? hrow, parted, guidOf?, hrow]
  rfl

/-- A walk over a list whose every step leads from what the steps before it have led to. -/
theorem result_forM (step : α → Action σ ε PUnit) (after : List α → σ) (inv : List α → Prop)
    (xs : List α) (hstart : inv [])
    (hstep : ∀ done x rest, xs = done ++ x :: rest → inv done →
      (step x).result (after done) = (.ok (), after (done ++ [x])) ∧ inv (done ++ [x])) :
    (xs.forM step).result (after []) = (.ok (), after xs) := by
  have hrest : ∀ rest done, xs = done ++ rest → inv done →
      (rest.forM step).result (after done) = (.ok (), after xs) := by
    intro rest
    induction rest with
    | nil =>
        rintro done hsplit -
        rw [hsplit, List.append_nil]
        rfl
    | cons x rest ih =>
        intro done hsplit hinv
        obtain ⟨hresult, hnext⟩ := hstep done x rest hsplit hinv
        change (step x >>= fun _ => rest.forM step).result (after done) = _
        rw [result_bind, hresult]
        exact ih (done ++ [x]) (by simp [hsplit]) hnext
  exact hrest xs [] rfl hstart

/-- One turn of emptying a folder: the last child that is left goes, after what is below it. -/
theorem result_deleteChild {fuel : Nat} {places : Places} (h : places.tree.WellFormed)
    {child : Item} {row : Row} (hrow : places.tree.row? child.id = some row)
    (hread : row.item = .ok child)
    (hfuel : ∀ id steps, places.tree.climb steps id = some child.id → steps ≤ fuel)
    (hempty : (emptyFolder fuel child.id).result places =
      (.ok (), places.partedAll (places.tree.descendants fuel child.id).reverse))
    (hlast : ∀ other ∈ places.tree.rows, ∀ parent, row.parent = some parent →
      other.parent = some parent → other.position ≤ row.position) :
    (deleteChild fuel child).result places =
      (.ok (), places.partedAll (places.tree.retreat fuel child.id)) := by
  have hbelow := leads_emptyFolder fuel h child.id hfuel places rfl
  obtain ⟨_, next, hnext, hcleared⟩ := hbelow
  obtain rfl : places.partedAll (places.tree.descendants fuel child.id).reverse = next :=
    (Prod.mk.inj (hempty.symm.trans hnext)).2
  have hstays : child.id ∉ (places.tree.descendants fuel child.id).reverse := by
    rw [List.mem_reverse]
    exact fun hmem => (h.encloses_of_mem_descendants hmem).2 rfl
  have hdelete : (deleteRow child.id).result
      (places.partedAll (places.tree.descendants fuel child.id).reverse) =
        (.ok (), places.partedAll (places.tree.retreat fuel child.id)) := by
    rw [retreat, List.reverse_cons, partedAll_append]
    refine result_deleteRow_of_last hcleared.wellFormed (by rw [row?_partedAll, if_neg hstays, hrow]) ?_
    intro other hother
    rw [rows_partedAll] at hother
    exact hlast other (List.mem_of_mem_filter hother)
  rw [deleteChild]
  split
  · obtain ⟨item, -, -, hitem⟩ := h.item? hrow
    simp only [result_bind, result_checked, hitem, hempty, hdelete]
  · rename_i htype
    have hentry := known?_of_row? hrow
    have hleaf := h.leaf hentry fun heq =>
      htype (ItemType.code_inj ((Row.item_eq_ok_iff.mp hread).2.2.2.2.1.trans heq))
    have hnothing : places.tree.descendants fuel child.id = [] := by
      rw [List.eq_nil_iff_forall_not_mem]
      intro id hmem
      have hbelow := h.encloses_of_mem_descendants hmem
      exact hbelow.2 (hbelow.1.eq_of_leaf hleaf)
    rwa [hnothing] at hdelete

/-- The last child that is left, when all after it have gone with what is below them. -/
theorem result_deleteLastChild {fuel : Nat} {places : Places} (h : places.tree.WellFormed)
    {gone : List Int} (hwell : (places.partedAll gone).tree.WellFormed) {folder : Int} {row : Row}
    {child : Item} (hrow : row ∈ places.tree.childRows folder) (hread : row.item = .ok child)
    (hgone : ∀ id ∈ gone, ∃ later ∈ places.tree.childRows folder, row.position < later.position ∧
      places.tree.Encloses later.id id)
    (hlater : ∀ later ∈ places.tree.childRows folder, row.position < later.position →
      later.id ∈ gone)
    (hfuel : ∀ id steps, (places.partedAll gone).tree.climb steps id = some child.id →
      steps ≤ fuel)
    (hempty : (emptyFolder fuel child.id).result (places.partedAll gone) =
      (.ok (), (places.partedAll gone).partedAll
        ((places.partedAll gone).tree.descendants fuel child.id).reverse)) :
    (deleteChild fuel child).result (places.partedAll gone) =
        (.ok (), places.partedAll (gone ++ places.tree.retreat fuel child.id)) ∧
      (places.partedAll (gone ++ places.tree.retreat fuel child.id)).tree.WellFormed := by
  have hid : child.id = row.id := (Row.item_eq_ok_iff.mp hread).1
  -- What is below the child has not gone yet, so the walk down from it is the same.
  have hstays : ∀ place, places.tree.Encloses child.id place → place ∉ gone := by
    intro place hbelow hmem
    obtain ⟨later, hchild, hlt, hencloses⟩ := hgone place hmem
    refine h.not_encloses_of_children hchild hrow ?_ hencloses (hid ▸ hbelow)
    intro heq
    have hsame := row?_eq_some_of_mem h.ids_nodup (mem_childRows_iff.mp hchild).1
    rw [heq, row?_eq_some_of_mem h.ids_nodup (mem_childRows_iff.mp hrow).1] at hsame
    rw [Option.some.inj hsame] at hlt
    exact lt_irrefl _ hlt
  have hwalk : (places.partedAll gone).tree.descendants fuel child.id =
      places.tree.descendants fuel child.id := by
    refine descendants_congr (fun place hplace => childRows_partedAll fun below hbelow => ?_) h
    exact hstays below.id (hplace.trans
      ((Encloses.refl places.tree place).of_above? (h.above?_of_mem_childRows hbelow)))
  have hthere : (places.partedAll gone).tree.row? child.id = some row := by
    rw [row?_partedAll, if_neg (hstays child.id (Encloses.refl places.tree child.id)), hid]
    exact row?_eq_some_of_mem h.ids_nodup (mem_childRows_iff.mp hrow).1
  have hlast : ∀ other ∈ (places.partedAll gone).tree.rows, ∀ parent, row.parent = some parent →
      other.parent = some parent → other.position ≤ row.position := by
    intro other hother parent hparent hsibling
    rw [rows_partedAll, List.mem_filter] at hother
    obtain ⟨hmem, hkept⟩ := hother
    rw [(mem_childRows_iff.mp hrow).2] at hparent
    obtain rfl := Option.some.inj hparent
    by_contra hlt
    have := hlater other (mem_childRows_iff.mpr ⟨hmem, hsibling⟩) (not_le.mp hlt)
    simp [this] at hkept
  have hresult := result_deleteChild hwell hthere hread hfuel hempty hlast
  rw [retreat, hwalk, ← retreat, ← partedAll_append] at hresult
  refine ⟨hresult, ?_⟩
  have hentry := known?_of_row? hthere
  obtain ⟨_, next, hnext, hcleared⟩ := leads_deleteChild hwell hentry
    (Row.item_eq_ok_iff.mp hread).2.2.2.2.1 (leads_emptyFolder fuel hwell child.id hfuel) _ rfl
  rw [(Prod.mk.inj (hresult.symm.trans hnext)).2]
  exact hcleared.wellFormed

/-- What each child of a folder needs: the children after it have gone, with what is below them. -/
theorem result_deleteNextChild {fuel : Nat} {places : Places} (h : places.tree.WellFormed)
    {folder : Int} {items done rest : List Item} {child : Item}
    (hitems : places.tree.children folder = .ok items)
    (hsplit : items.reverse = done ++ child :: rest)
    (hwell : (places.partedAll (places.tree.retreats fuel done)).tree.WellFormed)
    (hfuel : ∀ id steps, places.tree.climb steps id = some folder → steps ≤ fuel + 1)
    (hempty : ∀ places : Places, places.tree.WellFormed →
      (∀ id steps, places.tree.climb steps id = some child.id → steps ≤ fuel) →
      (emptyFolder fuel child.id).result places =
        (.ok (), places.partedAll (places.tree.descendants fuel child.id).reverse)) :
    (deleteChild fuel child).result (places.partedAll (places.tree.retreats fuel done)) =
        (.ok (), places.partedAll (places.tree.retreats fuel (done ++ [child]))) ∧
      (places.partedAll (places.tree.retreats fuel (done ++ [child]))).tree.WellFormed := by
  obtain ⟨_, hfound, hall⟩ := h.forall₂_children folder
  obtain rfl := Except.ok.inj (hitems.symm.trans hfound)
  have hmem : ∀ other, other ∈ items ↔ other ∈ done ++ child :: rest := by
    intro other
    rw [← hsplit, List.mem_reverse]
  have hitem : child ∈ items := (hmem child).mpr (by simp)
  have horder : (done ++ child :: rest).Pairwise fun first second : Item =>
      second.position < first.position := by
    rw [← hsplit, List.pairwise_reverse]
    exact pairwise_of_forall₂ hall (h.childRows_pairwise folder)
  obtain ⟨hbefore, hafter, hacross⟩ := List.pairwise_append.mp horder
  obtain ⟨row, hrow, hread⟩ := (mem_iff_of_forall₂ hall child).mp hitem
  have hposition : child.position = row.position := (Row.item_eq_ok_iff.mp hread).2.2.2.1
  have hdepth : ∀ id steps, (places.partedAll (places.tree.retreats fuel done)).tree.climb steps id =
      some child.id → steps ≤ fuel := by
    intro id steps hsteps
    have habove := (h.ids_children hitems child.id).mp (List.mem_map_of_mem hitem)
    refine Nat.le_of_succ_le_succ (hfuel id (steps + 1) ?_)
    rw [climb_add, climb_partedAll hsteps, Option.bind_some, climb_one, habove]
  rw [retreats_concat]
  refine result_deleteLastChild h hwell hrow hread ?_ ?_ hdepth (hempty _ hwell hdepth)
  · -- What has gone is below a child that stands after this one.
    intro id hgone
    obtain ⟨other, hother, hid⟩ := List.mem_flatMap.mp hgone
    obtain ⟨later, hlater, hlaterRead⟩ := (mem_iff_of_forall₂ hall other).mp
      ((hmem other).mpr (List.mem_append_left _ hother))
    obtain ⟨hsame, -, -, hsamePosition, -⟩ := Row.item_eq_ok_iff.mp hlaterRead
    refine ⟨later, hlater, ?_, hsame ▸ h.encloses_of_mem_retreat hid⟩
    rw [← hposition, ← hsamePosition]
    exact hacross other hother child List.mem_cons_self
  · -- Of the children, those that stand after this one come before it in the reversed list.
    intro later hlater hlt
    obtain ⟨other, hotherRead⟩ := h.exists_item (mem_childRows_iff.mp hlater).1
    obtain ⟨hsame, -, -, hsamePosition, -⟩ := Row.item_eq_ok_iff.mp hotherRead
    have hother := (hmem other).mp
      ((mem_iff_of_forall₂ hall other).mpr ⟨later, hlater, hotherRead⟩)
    rw [← hposition, ← hsamePosition] at hlt
    rcases List.mem_append.mp hother with hdone | hrest
    · exact List.mem_flatMap.mpr ⟨other, hdone, by simp [retreat, hsame]⟩
    · rcases List.mem_cons.mp hrest with rfl | hrest
      · exact absurd hlt (lt_irrefl _)
      · exact absurd ((List.pairwise_cons.mp hafter).1 other hrest) hlt.asymm

/-- Emptying a folder parts with what is below it in the reverse of the order of the walk, given
the fuel for its depth. -/
theorem result_emptyFolder (fuel : Nat) {places : Places} (h : places.tree.WellFormed)
    (folder : Int)
    (hfuel : ∀ id steps, places.tree.climb steps id = some folder → steps ≤ fuel) :
    (emptyFolder fuel folder).result places =
      (.ok (), places.partedAll (places.tree.descendants fuel folder).reverse) := by
  induction fuel generalizing places folder with
  | zero => rfl
  | succ fuel ih =>
      obtain ⟨items, hitems, -⟩ := h.children folder
      have hloop := result_forM (deleteChild fuel)
        (fun done => places.partedAll (places.tree.retreats fuel done))
        (fun done => (places.partedAll (places.tree.retreats fuel done)).tree.WellFormed)
        items.reverse h fun done child rest hsplit hwell =>
          result_deleteNextChild h hitems hsplit hwell hfuel fun _ hnext hdepth =>
            ih hnext child.id hdepth
      rw [h.reverse_descendants_eq hitems, emptyFolder_succ]
      simp only [result_bind, result_checked, hitems]
      exact hloop

/-- Removing a folder parts with it and all below it, and closes the gap that it leaves. -/
theorem result_removeFolder {places : Places} (h : places.tree.WellFormed) {id : Int}
    (hthere : (places.tree.row? id).isSome) :
    ∃ next, (removeFolder id).result places = (.ok (), next) ∧
      next.notices = (places.partedAll (places.tree.subtree id).reverse).notices := by
  obtain ⟨row, hrow⟩ := Option.isSome_iff_exists.mp hthere
  obtain ⟨item, hread, -, hitem⟩ := h.item? hrow
  have hid : item.id = id := (Row.item_eq_ok_iff.mp hread).1.trans (id_of_row? hrow)
  have hdepth : ∀ place steps, places.tree.climb steps place = some id →
      steps ≤ places.tree.walkLength := fun _ _ hsteps => (h.climb_lt hsteps).le
  have hstays : id ∉ (places.tree.descendants places.tree.walkLength id).reverse := by
    rw [List.mem_reverse]
    exact fun hmem => (h.encloses_of_mem_descendants hmem).2 rfl
  have hempty := result_emptyFolder _ h id hdepth
  have hkept := row?_partedAll places
    (places.tree.descendants places.tree.walkLength id).reverse id
  rw [if_neg hstays, hrow] at hkept
  rw [subtree, List.reverse_cons, partedAll_append]
  obtain ⟨_, emptied, hemptied, hcleared⟩ := leads_emptyFolder _ h id hdepth places rfl
  have hsame := (Prod.mk.inj (hempty.symm.trans hemptied)).2
  rw [hsame] at hempty hkept ⊢
  refine ⟨{ emptied.told (.removing id row.guid) with tree := emptied.tree.removed row }, ?_, ?_⟩
  · simp only [removeFolder, removeChildren, result_bind, result_checked, hitem, result_look,
      hempty, hid, result_deleteRow hcleared.wellFormed hkept]
  · simp only [partedAll, List.foldl_cons, List.foldl_nil, parted, told, guidOf?, hkept,
      Option.map_some, Option.getD_some]

end Places

namespace BookmarkStore

open SyncedBookmarks.Tree

/-- Removing a folder, as such or as an item, says good-bye to each item of it once and to no
other, the last that a walk down from the folder meets first. -/
theorem departures_announced {store : BookmarkStore} (h : store.Reachable) {folder : Int}
    (hfolder : store.tree.IsFolder folder) {removal : TreeAction Unit}
    (hremoval : removal = Places.removeFolder folder ∨ removal = Places.removeItem folder) :
    ∃ told next, removal.result store.places = (.ok (), next) ∧
      next.notices = store.places.notices ++ told ∧
      List.Forall₂ store.tree.Farewell (store.tree.subtree folder).reverse told ∧
      (∀ id, store.tree.subtree id =
        id :: (store.tree.childRows id).flatMap fun row => store.tree.subtree row.id) ∧
      (∀ id, id ∈ store.tree.subtree folder ↔ store.tree.Encloses folder id) ∧
      (store.tree.subtree folder).Nodup ∧
      (store.tree.subtree folder).reverse.Pairwise fun first later =>
        ¬ store.tree.Encloses first later := by
  have hwell : store.places.tree.WellFormed := h.wellFormed.tree
  obtain ⟨row, hrow, hcode⟩ := hfolder
  obtain ⟨found, hfound, rfl⟩ := Option.map_eq_some_iff.mp hrow
  obtain ⟨next, hnext, hnotices⟩ := Places.result_removeFolder hwell
    (Option.isSome_iff_exists.mpr ⟨found, hfound⟩)
  have horder : (store.tree.subtree folder).reverse.Pairwise fun first later =>
      ¬ store.tree.Encloses first later :=
    List.pairwise_reverse.mpr (hwell.subtree_pairwise folder)
  have hthere : ∀ id ∈ (store.tree.subtree folder).reverse, (store.tree.row? id).isSome := by
    intro id hmem
    rcases (hwell.mem_subtree.mp (List.mem_reverse.mp hmem)).eq_or_above? with rfl | ⟨_, habove, -⟩
    · exact Option.isSome_iff_exists.mpr ⟨found, hfound⟩
    · exact isSome_row?_of_above? habove
  obtain ⟨told, htold, hfarewells⟩ := Places.exists_farewells hwell hthere horder
    fun _ _ _ _ => rfl
  refine ⟨told, next, ?_, hnotices.trans htold, hfarewells, hwell.subtree_eq,
    fun id => hwell.mem_subtree, hwell.subtree_nodup folder, horder⟩
  rcases hremoval with rfl | rfl
  · exact hnext
  · obtain ⟨item, hread, -, hitem⟩ := hwell.item? hfound
    have htype : item.type = .folder :=
      ItemType.code_inj ((Row.item_eq_ok_iff.mp hread).2.2.2.2.1.trans hcode)
    simp only [Places.removeItem, Action.result_bind, Places.result_checked,
      show store.places.tree.requireItem folder = .ok item from hitem, htype, if_true, hnext]

/-- A folder in the menu with a bookmark, a folder that holds one too, and a separator. -/
def packedStore : BookmarkStore :=
  StoreCall.runAll (fresh .numbered none)
    [.mutate (.createFolder RootId.menu "A" Places.atEnd),
      .mutate (.insertBookmark 6 "about:blank" Places.atEnd none),
      .mutate (.createFolder 6 "B" Places.atEnd),
      .mutate (.insertBookmark 8 "about:blank" Places.atEnd none),
      .mutate (.insertSeparator 6 Places.atEnd)]

/-- The separator goes first, the inner folder after its bookmark, and the folder last. -/
theorem packed_folder_departs : packedStore.Reachable ∧ packedStore.tree.IsFolder 6 ∧
    ∃ told next, (Places.removeItem 6).result packedStore.places = (.ok (), next) ∧
      next.notices = packedStore.places.notices ++ told ∧
      List.Forall₂ packedStore.tree.Farewell [10, 9, 8, 7, 6] told := by
  have hreachable : packedStore.Reachable := ⟨.numbered, none, _, rfl⟩
  have hfolder : packedStore.tree.IsFolder 6 :=
    ⟨(packedStore.tree.known? 6).get (by decide +kernel), by simp, by decide +kernel⟩
  have hwalk : (packedStore.tree.subtree 6).reverse = [10, 9, 8, 7, 6] := by cbv
  obtain ⟨told, next, hresult, hnotices, hfarewells, -⟩ :=
    departures_announced hreachable hfolder (.inr rfl)
  exact ⟨hreachable, hfolder, told, next, hresult, hnotices, hwalk ▸ hfarewells⟩

end BookmarkStore

end SyncedBookmarks
