import SyncedBookmarks.Proofs.Operations

namespace SyncedBookmarks

/-! Removing an item takes away all that is below it and nothing else. -/

namespace Tree

/-- What a tree comes to when some items are taken away and the others stay as they are but for
their positions. -/
structure Cleared (gone : Int → Prop) (before after : Tree) : Prop where
  wellFormed : after.WellFormed
  absent : ∀ id, gone id → after.known? id = none
  kept : ∀ id, ¬ gone id → after.known? id = before.known? id
  nextId : after.nextId = before.nextId
  guids : after.guids = before.guids

/-- Once an item is gone, all below it is. -/
def DownClosed (tree : Tree) (gone : Int → Prop) : Prop :=
  ∀ id parent, tree.above? id = some parent → gone parent → gone id

namespace Cleared

theorem refl {tree : Tree} (h : tree.WellFormed) : Cleared (fun _ => False) tree tree where
  wellFormed := h
  absent := fun _ hgone => hgone.elim
  kept := fun _ _ => rfl
  nextId := rfl
  guids := rfl

theorem trans {gone more : Int → Prop} {before middle after : Tree}
    (hfirst : Cleared gone before middle) (hsecond : Cleared more middle after) :
    Cleared (fun id => gone id ∨ more id) before after where
  wellFormed := hsecond.wellFormed
  absent := by
    intro id hgone
    by_cases hmore : more id
    · exact hsecond.absent id hmore
    · rw [hsecond.kept id hmore]
      exact hfirst.absent id (hgone.resolve_right hmore)
  kept := by
    intro id hkept
    rw [hsecond.kept id fun hmore => hkept (.inr hmore)]
    exact hfirst.kept id fun hgone => hkept (.inl hgone)
  nextId := hsecond.nextId.trans hfirst.nextId
  guids := hsecond.guids.trans hfirst.guids

/-- Only the items that there were count. -/
theorem congr {gone same : Int → Prop} {before after : Tree} (h : Cleared gone before after)
    (hiff : ∀ id row, before.known? id = some row → (gone id ↔ same id)) :
    Cleared same before after where
  wellFormed := h.wellFormed
  absent := by
    intro id hsame
    by_cases hgone : gone id
    · exact h.absent id hgone
    · rw [h.kept id hgone, Option.eq_none_iff_forall_ne_some]
      exact fun row hrow => hgone ((hiff id row hrow).mpr hsame)
  kept := by
    intro id hsame
    by_cases hgone : gone id
    · rw [h.absent id hgone, eq_comm, Option.eq_none_iff_forall_ne_some]
      exact fun row hrow => hsame ((hiff id row hrow).mp hgone)
    · exact h.kept id hgone
  nextId := h.nextId
  guids := h.guids

theorem known?_of_some {gone : Int → Prop} {before after : Tree} (h : Cleared gone before after)
    {id : Int} {row : Row} (hrow : after.known? id = some row) :
    ¬ gone id ∧ before.known? id = some row := by
  have hkept : ¬ gone id := by
    intro hgone
    rw [h.absent id hgone] at hrow
    contradiction
  exact ⟨hkept, (h.kept id hkept).symm.trans hrow⟩

theorem above?_of_some {gone : Int → Prop} {before after : Tree} (h : Cleared gone before after)
    {id parent : Int} (habove : after.above? id = some parent) :
    before.above? id = some parent := by
  obtain ⟨row, hrow, hparent⟩ := known?_of_above? habove
  rw [above?_of_known? (h.known?_of_some hrow).2, hparent]

theorem above?_of_kept {gone : Int → Prop} {before after : Tree} (h : Cleared gone before after)
    {id : Int} (hkept : ¬ gone id) : after.above? id = before.above? id := by
  rw [above?_eq_known?, h.kept id hkept, above?_eq_known?]

theorem climb {gone : Int → Prop} {before after : Tree} (h : Cleared gone before after) {steps : Nat}
    {id found : Int} (hsteps : after.climb steps id = some found) :
    before.climb steps id = some found := by
  induction steps generalizing id with
  | zero => exact hsteps
  | succ steps ih =>
      rw [climb_succ, Option.bind_eq_some_iff] at hsteps
      obtain ⟨parent, hparent, hrest⟩ := hsteps
      rw [climb_succ, h.above?_of_some hparent]
      exact ih hrest

theorem encloses {gone : Int → Prop} {before after : Tree} (h : Cleared gone before after)
    {ancestor id : Int} (hencloses : after.Encloses ancestor id) :
    before.Encloses ancestor id := by
  obtain ⟨steps, hsteps⟩ := hencloses
  exact ⟨steps, h.climb hsteps⟩

/-- The way up from an item that stays does not pass what is gone. -/
theorem encloses_of_kept {gone : Int → Prop} {before after : Tree} (h : Cleared gone before after)
    (hclosed : before.DownClosed gone) {ancestor id : Int} (hkept : ¬ gone id)
    (hencloses : before.Encloses ancestor id) : after.Encloses ancestor id := by
  obtain ⟨steps, hsteps⟩ := hencloses
  induction steps generalizing id with
  | zero => exact ⟨0, hsteps⟩
  | succ steps ih =>
      rw [climb_succ, Option.bind_eq_some_iff] at hsteps
      obtain ⟨parent, hparent, hrest⟩ := hsteps
      have hstays : ¬ gone parent := fun hgone => hkept (hclosed id parent hparent hgone)
      exact (ih hstays hrest).of_above? (by rw [h.above?_of_kept hkept, hparent])

end Cleared

theorem cleared_removed {tree : Tree} (h : tree.WellFormed) {id : Int} {row : Row}
    (hrow : tree.row? id = some row) (hleaf : ∀ other, tree.above? other ≠ some id) :
    Cleared (· = id) tree (tree.removed row) := by
  have hid := id_of_row? hrow
  have hentry := known?_removed tree row
  rw [hid] at hentry
  exact
    { wellFormed := h.removed hrow hleaf
      absent := fun place hgone => by rw [hentry, if_pos hgone]
      kept := fun place hkept => by rw [hentry, if_neg hkept]
      nextId := nextId_removed tree row
      guids := guids_removed tree row }

/-- No item is below one of its children. -/
theorem WellFormed.not_encloses_parent {tree : Tree} (h : tree.WellFormed) {id parent : Int}
    (habove : tree.above? id = some parent) : ¬ tree.Encloses id parent := by
  rintro ⟨around, haround⟩
  obtain ⟨folder, hfolder, -⟩ := h.parent_folder id parent habove
  obtain ⟨steps, hsteps⟩ := h.rooted parent folder hfolder
  have hlonger : tree.climb (around + (steps + 1)) parent = some RootId.places := by
    rw [climb_add, haround, Option.bind_some, climb_succ, habove]
    exact hsteps
  have := climb_le_of_root h.above?_places hsteps hlonger
  omega

theorem WellFormed.not_encloses_sibling {tree : Tree} (h : tree.WellFormed)
    {first second parent : Int} (hfirst : tree.above? first = some parent)
    (hsecond : tree.above? second = some parent) (hne : first ≠ second) :
    ¬ tree.Encloses first second := by
  intro hencloses
  rcases hencloses.eq_or_above? with heq | ⟨above, habove, hup⟩
  · exact hne heq
  · rw [hsecond] at habove
    rw [← Option.some.inj habove] at hup
    exact h.not_encloses_parent hfirst hup

/-- What is below a folder is one of its children or below one. -/
theorem WellFormed.below_iff {tree : Tree} (h : tree.WellFormed) {folder id : Int} :
    tree.Below folder id ↔
      ∃ child, tree.above? child = some folder ∧ tree.Encloses child id := by
  constructor
  · rintro ⟨hencloses, hne⟩
    exact hencloses.eq_or_child.resolve_left hne
  · rintro ⟨child, hchild, hencloses⟩
    refine ⟨((Encloses.refl tree folder).of_above? hchild).trans hencloses, ?_⟩
    rintro rfl
    exact h.not_encloses_parent hchild hencloses

/-! ### Some items with all below them -/

/-- Whether an item is one of some items or below one of them. -/
def UnderSome (tree : Tree) (items : List Item) (id : Int) : Prop :=
  ∃ item ∈ items, tree.Encloses item.id id

section UnderSome

variable {tree : Tree} {items : List Item} {item : Item} {folder id : Int}

theorem not_underSome_nil (tree : Tree) (id : Int) : ¬ tree.UnderSome [] id := by
  simp [UnderSome]

theorem underSome_concat :
    tree.UnderSome (items ++ [item]) id ↔ tree.UnderSome items id ∨ tree.Encloses item.id id := by
  simp [UnderSome, or_and_right, exists_or]

theorem downClosed_underSome (tree : Tree) (items : List Item) :
    tree.DownClosed (tree.UnderSome items) := by
  rintro id parent hid ⟨item, hitem, hencloses⟩
  exact ⟨item, hitem, hencloses.of_above? hid⟩

/-- What is below a folder is under its children. -/
theorem WellFormed.underSome_iff (h : tree.WellFormed)
    (hids : ∀ id, id ∈ items.map (·.id) ↔ tree.above? id = some folder) :
    tree.UnderSome items id ↔ tree.Below folder id := by
  rw [h.below_iff]
  constructor
  · rintro ⟨item, hitem, hencloses⟩
    exact ⟨item.id, (hids item.id).mp (List.mem_map_of_mem hitem), hencloses⟩
  · rintro ⟨child, hchild, hencloses⟩
    obtain ⟨item, hitem, rfl⟩ := List.mem_map.mp ((hids child).mpr hchild)
    exact ⟨item, hitem, hencloses⟩

/-- A child of a folder is not under its other children. -/
theorem WellFormed.not_underSome (h : tree.WellFormed)
    (hsiblings : ∀ other ∈ items, tree.above? other.id = some folder)
    (hitem : tree.above? item.id = some folder) (hother : item.id ∉ items.map (·.id)) :
    ¬ tree.UnderSome items item.id := by
  rintro ⟨other, hmem, hencloses⟩
  have hne : other.id ≠ item.id := fun heq => hother (heq ▸ List.mem_map_of_mem hmem)
  exact h.not_encloses_sibling (hsiblings other hmem) hitem hne hencloses

/-- After some items one more goes, each with all below it. -/
theorem Cleared.underSome_concat {next after : Tree} (h : Cleared (tree.UnderSome items) tree next)
    (hafter : Cleared (next.Encloses item.id) next after) :
    Cleared (tree.UnderSome (items ++ [item])) tree after := by
  refine (h.trans hafter).congr ?_
  intro id _ _
  rw [Tree.underSome_concat]
  constructor
  · exact Or.imp_right h.encloses
  · rintro (hgone | hencloses)
    · exact .inl hgone
    · by_cases hgone : tree.UnderSome items id
      · exact .inl hgone
      · exact .inr (h.encloses_of_kept (downClosed_underSome tree items) hgone hencloses)

end UnderSome

end Tree

namespace Places

open SyncedBookmarks.Action SyncedBookmarks.Tree

/-- A single item may go when nothing is below it. -/
theorem leads_deleteLeaf {tree : Tree} (h : tree.WellFormed) {id : Int}
    (hthere : (tree.known? id).isSome) (hleaf : ∀ other, tree.above? other ≠ some id) :
    Leads (deleteRow id) tree fun _ next => Cleared (· = id) tree next := by
  obtain ⟨row, hrow⟩ := Option.isSome_iff_exists.mp ((isSome_known? tree id) ▸ hthere)
  refine (leads_deleteRow h hrow).imp ?_
  rintro - - rfl
  exact cleared_removed h hrow hleaf

/-- Emptying a folder and then removing it. -/
theorem leads_deleteEmptied {tree : Tree} (h : tree.WellFormed) {id : Int}
    (hthere : (tree.known? id).isSome) {empty : TreeAction Unit}
    (hempty : Leads empty tree fun _ next => Cleared (tree.Below id) tree next) :
    Leads (empty >>= fun _ => deleteRow id) tree fun _ next =>
      Cleared (tree.Encloses id) tree next := by
  refine hempty.bind ?_
  intro _ middle hmiddle
  have hkept : ¬ tree.Below id id := fun hbelow => hbelow.2 rfl
  refine (leads_deleteLeaf hmiddle.wellFormed (by rwa [hmiddle.kept id hkept]) ?_).imp ?_
  · intro other habove
    obtain ⟨row, hrow, -⟩ := known?_of_above? habove
    have hbefore := hmiddle.above?_of_some habove
    refine (hmiddle.known?_of_some hrow).1 ⟨(Encloses.refl tree id).of_above? hbefore, ?_⟩
    rintro rfl
    exact h.not_encloses_parent hbefore (Encloses.refl tree other)
  · intro _ next hnext
    refine (hmiddle.trans hnext).congr ?_
    intro place row hrow
    constructor
    · rintro (hbelow | rfl)
      · exact hbelow.1
      · exact Encloses.refl tree place
    · intro hencloses
      by_cases heq : place = id
      · exact .inr heq
      · exact .inl ⟨hencloses, heq⟩

/-- One turn of emptying a folder: a child goes, after all below it. -/
def deleteChild (fuel : Nat) (child : Item) : TreeAction Unit := do
  if child.type = .folder then
    let _ ← check (·.requireItem child.id)
    emptyFolder fuel child.id
  deleteRow child.id

theorem emptyFolder_succ (fuel : Nat) (folder : Int) :
    emptyFolder (fuel + 1) folder = (do
      let children ← check (·.children folder)
      children.reverse.forM (deleteChild fuel)) :=
  rfl

theorem leads_deleteChild {fuel : Nat} {tree : Tree} (h : tree.WellFormed) {child : Item} {row : Row}
    (hrow : tree.known? child.id = some row) (hcode : child.type.code = row.typeCode)
    (hempty : Leads (emptyFolder fuel child.id) tree fun _ next =>
      Cleared (tree.Below child.id) tree next) :
    Leads (deleteChild fuel child) tree fun _ next =>
      Cleared (tree.Encloses child.id) tree next := by
  have hthere : (tree.known? child.id).isSome := by rw [hrow]; rfl
  rw [deleteChild]
  split
  · obtain ⟨found, hfound, -⟩ := Option.map_eq_some_iff.mp hrow
    obtain ⟨item, -, -, hitem⟩ := h.item? hfound
    exact leads_check_bind hitem (leads_deleteEmptied h hthere hempty)
  · rename_i htype
    have hleaf := h.leaf hrow (fun heq => htype (ItemType.code_inj (hcode.trans heq)))
    refine (leads_deleteLeaf h hthere hleaf).imp ?_
    intro _ next hnext
    refine hnext.congr ?_
    rintro id - -
    exact ⟨fun heq => heq ▸ Encloses.refl tree id, fun hup => hup.eq_of_leaf hleaf⟩

/-- Emptying a folder takes away what is below it, given the fuel for its depth. -/
theorem leads_emptyFolder (fuel : Nat) {tree : Tree} (h : tree.WellFormed) (folder : Int)
    (hfuel : ∀ id steps, tree.climb steps id = some folder → steps ≤ fuel) :
    Leads (emptyFolder fuel folder) tree fun _ next => Cleared (tree.Below folder) tree next := by
  induction fuel generalizing tree folder with
  | zero =>
      refine leads_pure ((Cleared.refl h).congr ?_)
      intro id row _
      refine ⟨False.elim, ?_⟩
      rintro ⟨⟨steps, hsteps⟩, hne⟩
      obtain rfl : steps = 0 := Nat.le_zero.mp (hfuel id steps hsteps)
      exact hne (Option.some.inj hsteps)
  | succ fuel ih =>
      obtain ⟨items, hitems, hnodup, hmem⟩ := h.children folder
      have hids := h.ids_children hitems
      have habove : ∀ child ∈ items, tree.above? child.id = some folder :=
        fun child hchild => (hids child.id).mp (List.mem_map_of_mem hchild)
      rw [emptyFolder_succ]
      -- What has been worked off is gone with all below it.
      refine leads_check_bind hitems (Leads.imp (leads_forM (P := fun rest next =>
        ∃ done, items.reverse = done ++ rest ∧ Cleared (tree.UnderSome done) tree next) ?_
        items.reverse ?_) ?_)
      · rintro child rest next ⟨done, hsplit, hdone⟩
        have hall : ∀ other, other ∈ items ↔ other ∈ done ++ child :: rest := by
          intro other
          rw [← hsplit, List.mem_reverse]
        have hchild : child ∈ items := (hall child).mpr (by simp)
        have hother : child.id ∉ done.map (·.id) := by
          rw [← List.nodup_reverse, ← List.map_reverse, hsplit, List.map_append,
            List.map_cons] at hnodup
          exact fun hmem => (List.nodup_append.mp hnodup).2.2 _ hmem _ List.mem_cons_self rfl
        have hnot := h.not_underSome
          (fun other hother => habove other ((hall other).mpr (by simp [hother])))
          (habove child hchild) hother
        obtain ⟨row, hrow, hread, -⟩ := (hmem child).mp hchild
        have hentry : next.known? child.id = some row.unplaced := by
          rw [hdone.kept _ hnot, Tree.known?, hrow]
          rfl
        refine (leads_deleteChild hdone.wellFormed hentry (Row.item_eq_ok_iff.mp hread).2.2.2.2.1
          (ih hdone.wellFormed child.id ?_)).imp ?_
        · -- A way up to the child goes on to the folder.
          intro id steps hsteps
          refine Nat.le_of_succ_le_succ (hfuel id (steps + 1) ?_)
          rw [climb_add, hdone.climb hsteps, Option.bind_some, climb_one, habove child hchild]
        · exact fun _ _ hafter => ⟨done ++ [child], by simp [hsplit], hdone.underSome_concat hafter⟩
      · refine ⟨[], by simp, (Cleared.refl h).congr ?_⟩
        exact fun id _ _ => iff_of_false not_false (not_underSome_nil tree id)
      · rintro - next ⟨done, hsplit, hdone⟩
        rw [List.append_nil] at hsplit
        refine hdone.congr fun id _ _ => h.underSome_iff ?_
        intro child
        rw [← hsplit, List.map_reverse, List.mem_reverse]
        exact hids child

theorem leads_removeChildren {tree : Tree} (h : tree.WellFormed) (folder : Int) :
    Leads (removeChildren folder) tree fun _ next => Cleared (tree.Below folder) tree next :=
  leads_look_bind (leads_emptyFolder _ h folder fun _ _ hsteps => (h.climb_lt hsteps).le)

theorem keeps_removeChildren (folder : Int) : (removeChildren folder).Keeps WellFormed :=
  keeps_of_leads (P := fun tree _ next => Cleared (tree.Below folder) tree next)
    (fun _ h => leads_removeChildren h folder) fun _ _ _ _ hnext => hnext.wellFormed

theorem leads_removeFolder {tree : Tree} (h : tree.WellFormed) {id : Int}
    (hthere : (tree.known? id).isSome) :
    Leads (removeFolder id) tree fun _ next => Cleared (tree.Encloses id) tree next := by
  obtain ⟨row, hrow⟩ := Option.isSome_iff_exists.mp ((isSome_known? tree id) ▸ hthere)
  obtain ⟨item, hread, -, hitem⟩ := h.item? hrow
  have hid : item.id = id := (Row.item_eq_ok_iff.mp hread).1.trans (id_of_row? hrow)
  refine leads_check_bind hitem ?_
  rw [hid]
  exact leads_deleteEmptied h hthere (leads_removeChildren h id)

/-- Removing an item of any type takes away what is below it, which only a folder has. -/
theorem leads_removeItem {tree : Tree} (h : tree.WellFormed) {id : Int}
    (hthere : (tree.known? id).isSome) :
    Leads (removeItem id) tree fun _ next => Cleared (tree.Encloses id) tree next := by
  obtain ⟨row, hrow⟩ := Option.isSome_iff_exists.mp ((isSome_known? tree id) ▸ hthere)
  obtain ⟨item, hread, -, hitem⟩ := h.item? hrow
  refine leads_check_bind hitem ?_
  split
  · exact leads_removeFolder h hthere
  · rename_i htype
    have hcode := (Row.item_eq_ok_iff.mp hread).2.2.2.2.1
    have hentry := Tree.known?_of_row? hrow
    have hleaf := h.leaf hentry (fun heq => htype (ItemType.code_inj (hcode.trans heq)))
    refine (leads_deleteLeaf h hthere hleaf).imp ?_
    intro _ next hnext
    refine hnext.congr ?_
    rintro place - -
    exact ⟨fun heq => heq ▸ Encloses.refl tree place, fun hup => hup.eq_of_leaf hleaf⟩

theorem result_removeFolder_of_none {places : Places} {id : Int}
    (hnone : places.tree.row? id = none) : ((removeFolder id).result places).2 = places := by
  simp only [removeFolder, result_bind, result_checked, (Tree.WellFormed.item?_none hnone).2]

theorem result_removeItem_of_none {places : Places} {id : Int}
    (hnone : places.tree.row? id = none) : ((removeItem id).result places).2 = places := by
  simp only [removeItem, result_bind, result_checked, (Tree.WellFormed.item?_none hnone).2]

section Removal

variable {inv : Places → Prop} {id : Int} (hwell : ∀ places, inv places → places.tree.WellFormed)
  (hcleared : ∀ places next : Places, inv places →
    Cleared (places.tree.Encloses id) places.tree next.tree → inv next)

include hwell hcleared

/-- An operation that takes an item away with all that is below it, and fails at once where there
is no item with the id. -/
theorem keeps_of_there {action : TreeAction Unit}
    (hfail : ∀ places : Places, places.tree.row? id = none → (action.result places).2 = places)
    (hleads : ∀ tree : Tree, tree.WellFormed → (tree.known? id).isSome →
      Leads action tree fun _ next => Cleared (tree.Encloses id) tree next) :
    action.Keeps inv := by
  intro places hinv
  by_cases hthere : (places.tree.known? id).isSome
  · obtain ⟨-, -, hnext⟩ := (hleads _ (hwell places hinv) hthere places rfl).result
    exact hcleared places _ hinv hnext
  · have hnone : places.tree.row? id = none := by
      rw [isSome_known?] at hthere
      simpa using hthere
    rw [hfail places hnone]
    exact hinv

theorem keeps_removeFolder_of_cleared : (removeFolder id).Keeps inv :=
  keeps_of_there hwell hcleared (fun _ => result_removeFolder_of_none)
    fun _ h hthere => leads_removeFolder h hthere

theorem keeps_removeItem_of_cleared : (removeItem id).Keeps inv :=
  keeps_of_there hwell hcleared (fun _ => result_removeItem_of_none)
    fun _ h hthere => leads_removeItem h hthere

end Removal

theorem keeps_removeFolder (id : Int) : (removeFolder id).Keeps WellFormed :=
  keeps_removeFolder_of_cleared (fun _ hwell => hwell) fun _ _ _ hnext => hnext.wellFormed

theorem keeps_removeItem (id : Int) : (removeItem id).Keeps WellFormed :=
  keeps_removeItem_of_cleared (fun _ hwell => hwell) fun _ _ _ hnext => hnext.wellFormed

end Places

end SyncedBookmarks
