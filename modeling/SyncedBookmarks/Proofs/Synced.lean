import SyncedBookmarks.Proofs.Reading
import SyncedBookmarks.Store.Outgoing

namespace SyncedBookmarks

/-! What is synced: the items below the roots for bookmarks, without those in livemarks. -/

namespace Tree

/-- Whether an item is so many steps below a folder, with no livemark on the way. -/
inductive Under (tree : Tree) (folder : Int) : Nat → Int → Prop where
  | child {id : Int} (hopen : tree.isLivemark folder = false)
      (habove : tree.above? id = some folder) : Under tree folder 1 id
  | deeper {steps : Nat} {id parent : Int} (hparent : Under tree folder steps parent)
      (hopen : tree.isLivemark parent = false) (habove : tree.above? id = some parent) :
      Under tree folder (steps + 1) id

/-- Whether a folder is one of the roots whose content is synced. -/
def IsSyncedRoot (tree : Tree) (root : Int) : Prop :=
  ∃ guid ∈ BookmarkStore.syncedRoots, tree.idOfGuid? guid = some root

inductive Synced (tree : Tree) : Int → Prop where
  | child {id root : Int} (hroot : tree.IsSyncedRoot root) (hopen : tree.isLivemark root = false)
      (habove : tree.above? id = some root) : Synced tree id
  | deeper {id parent : Int} (hparent : Synced tree parent) (hopen : tree.isLivemark parent = false)
      (habove : tree.above? id = some parent) : Synced tree id

namespace Under

variable {tree : Tree} {folder id : Int} {steps : Nat}

theorem climb (h : tree.Under folder steps id) : tree.climb steps id = some folder := by
  induction h with
  | child hopen habove => rw [climb_succ, habove, Option.bind_some, climb_zero]
  | deeper hparent hopen habove ih => rw [climb_succ, habove, Option.bind_some, ih]

theorem pos (h : tree.Under folder steps id) : 0 < steps := by
  cases h <;> omega

/-- What is below a folder is its child or below one. -/
theorem head (h : tree.Under folder steps id) : tree.isLivemark folder = false ∧
    ∃ child, tree.above? child = some folder ∧
      ((steps = 1 ∧ child = id) ∨ ∃ rest, steps = rest + 1 ∧ tree.Under child rest id) := by
  induction h with
  | child hopen habove => exact ⟨hopen, _, habove, .inl ⟨rfl, rfl⟩⟩
  | deeper hparent hopen habove ih =>
      obtain ⟨hfolder, child, hchild, ⟨rfl, rfl⟩ | ⟨rest, rfl, hrest⟩⟩ := ih
      · exact ⟨hfolder, child, hchild, .inr ⟨1, rfl, .child hopen habove⟩⟩
      · exact ⟨hfolder, child, hchild, .inr ⟨rest + 1, rfl, hrest.deeper hopen habove⟩⟩

theorem of_child {child : Int} (h : tree.Under child steps id)
    (hopen : tree.isLivemark folder = false) (hchild : tree.above? child = some folder) :
    tree.Under folder (steps + 1) id := by
  induction h with
  | child hopenChild habove => exact (Under.child hopen hchild).deeper hopenChild habove
  | deeper hparent hopenParent habove ih => exact ih.deeper hopenParent habove

end Under

/-- Whether an item with a GUID is under a folder, so many steps down at most. -/
def FoundBelow (tree : Tree) (fuel : Nat) (folder : Int) (guid : String) : Prop :=
  ∃ steps id, steps ≤ fuel ∧ tree.Under folder steps id ∧ tree.guidOf? id = some guid

section FoundBelow

variable {tree : Tree} {fuel : Nat} {folder : Int} {guid : String}

theorem not_foundBelow_zero : ¬ tree.FoundBelow 0 folder guid := by
  rintro ⟨steps, id, hsteps, hunder, -⟩
  have hpos := hunder.pos
  omega

theorem not_foundBelow_of_livemark (hlivemark : tree.isLivemark folder = true) :
    ¬ tree.FoundBelow fuel folder guid := by
  rintro ⟨steps, id, -, hunder, -⟩
  rw [hunder.head.1] at hlivemark
  contradiction

theorem not_foundBelow_of_leaf (hleaf : ∀ other, tree.above? other ≠ some folder) :
    ¬ tree.FoundBelow fuel folder guid := by
  rintro ⟨steps, id, -, hunder, -⟩
  obtain ⟨-, below, hbelow, -⟩ := hunder.head
  exact hleaf below hbelow

/-- One step further down: a child of the folder, or what is below a child. -/
theorem WellFormed.foundBelow_succ_iff (h : tree.WellFormed)
    (hopen : tree.isLivemark folder = false) {items : List Item}
    (hitems : tree.children folder = .ok items) :
    tree.FoundBelow (fuel + 1) folder guid ↔
      ∃ child ∈ items, guid = child.guid ∨ tree.FoundBelow fuel child.id guid := by
  constructor
  · rintro ⟨steps, id, hsteps, hunder, hguid⟩
    obtain ⟨-, child, hchild, hway⟩ := hunder.head
    obtain ⟨row, hrow, hparent⟩ := known?_of_above? hchild
    obtain ⟨item, hitem, rfl, hname, -⟩ := h.exists_mem_children hitems hrow hparent
    refine ⟨item, hitem, ?_⟩
    rcases hway with ⟨-, rfl⟩ | ⟨rest, rfl, hrest⟩
    · rw [guidOf?_eq_known?, hrow, Option.map_some, Option.some.injEq] at hguid
      exact .inl (hguid.symm.trans hname)
    · exact .inr ⟨rest, id, by omega, hrest, hguid⟩
  · rintro ⟨child, hchild, hway⟩
    obtain ⟨row, hrow, hparent, hname, -⟩ := h.of_mem_children hitems hchild
    have habove := (above?_of_known? hrow).trans hparent
    rcases hway with rfl | ⟨steps, id, hsteps, hunder, hguid⟩
    · refine ⟨1, child.id, by omega, .child hopen habove, ?_⟩
      rw [guidOf?_eq_known?, hrow, Option.map_some, hname]
    · exact ⟨steps + 1, id, by omega, hunder.of_child hopen habove, hguid⟩

end FoundBelow

theorem synced_iff {tree : Tree} {id : Int} :
    tree.Synced id ↔ ∃ root steps, tree.IsSyncedRoot root ∧ tree.Under root steps id := by
  constructor
  · intro h
    induction h with
    | child hroot hopen habove => exact ⟨_, 1, hroot, .child hopen habove⟩
    | deeper hparent hopen habove ih =>
        obtain ⟨root, steps, hroot, hunder⟩ := ih
        exact ⟨root, steps + 1, hroot, hunder.deeper hopen habove⟩
  · rintro ⟨root, steps, hroot, hunder⟩
    induction hunder with
    | child hopen habove => exact .child hroot hopen habove
    | deeper hparent hopen habove ih => exact .deeper ih hopen habove

end Tree

/-! ### Going through lists -/

/-- Collects lists made from the members of a list. -/
theorem exists_mapM_flatten {f : α → Except ε (List β)} {Q : α → β → Prop} {xs : List α}
    (h : ∀ x ∈ xs, ∃ part, f x = .ok part ∧ ∀ y, y ∈ part ↔ Q x y) :
    ∃ parts, xs.mapM f = .ok parts ∧ ∀ y, y ∈ parts.flatten ↔ ∃ x ∈ xs, Q x y := by
  obtain ⟨parts, hparts, hall⟩ := Tree.exists_mapM h
  refine ⟨parts, hparts, ?_⟩
  intro y
  clear h hparts
  induction hall with
  | nil => simp
  | cons hpart _ ih =>
      rw [List.flatten_cons, List.mem_append, hpart, ih]
      simp

namespace BookmarkStore

open SyncedBookmarks.Tree

/-- One turn of the walk: a child, and after a folder what is found below it. -/
theorem idsFrom_spec {tree : Tree} (h : tree.WellFormed) {fuel : Nat} {folder : Int}
    {items : List Item} (hitems : tree.children folder = .ok items) {child : Item}
    (hchild : child ∈ items)
    (hbelow : ∃ guids, idsBelow tree fuel child.id = .ok guids ∧
      ∀ guid, guid ∈ guids ↔ tree.FoundBelow fuel child.id guid) :
    ∃ part,
      (do
        if child.type = .folder then pure (child.guid :: (← idsBelow tree fuel child.id))
        else pure [child.guid] : Except TreeError (List String)) = .ok part ∧
      ∀ guid, guid ∈ part ↔ guid = child.guid ∨ tree.FoundBelow fuel child.id guid := by
  split
  · obtain ⟨guids, hguids, hmem⟩ := hbelow
    refine ⟨child.guid :: guids, by rw [hguids]; rfl, ?_⟩
    intro guid
    rw [List.mem_cons, hmem]
  · rename_i hfolder
    obtain ⟨row, hrow, -, -, htype, -⟩ := h.of_mem_children hitems hchild
    have hleaf := h.leaf hrow fun hcode => hfolder (ItemType.code_inj (htype.symm.trans hcode))
    refine ⟨[child.guid], rfl, ?_⟩
    intro guid
    rw [List.mem_singleton, or_iff_left (not_foundBelow_of_leaf hleaf)]

/-- What the walk below a folder finds: all that is under it, as far as its fuel goes. -/
theorem idsBelow_spec {tree : Tree} (h : tree.WellFormed) (fuel : Nat) (folder : Int) :
    ∃ guids, idsBelow tree fuel folder = .ok guids ∧
      ∀ guid, guid ∈ guids ↔ tree.FoundBelow fuel folder guid := by
  induction fuel generalizing folder with
  | zero => exact ⟨[], rfl, fun _ => iff_of_false List.not_mem_nil not_foundBelow_zero⟩
  | succ fuel ih =>
      rw [idsBelow]
      split
      · rename_i hlivemark
        exact ⟨[], rfl, fun _ =>
          iff_of_false List.not_mem_nil (not_foundBelow_of_livemark hlivemark)⟩
      · rename_i hopen
        rw [Bool.not_eq_true] at hopen
        obtain ⟨items, hitems, -, -⟩ := h.children folder
        obtain ⟨parts, hparts, hmem⟩ := exists_mapM_flatten fun child hchild =>
          idsFrom_spec h hitems hchild (ih child.id)
        refine ⟨parts.flatten, ?_, fun guid =>
          (hmem guid).trans (h.foundBelow_succ_iff hopen hitems).symm⟩
        rw [hitems]
        exact congrArg (Except.bind · fun below => .ok below.flatten) hparts

/-- The items that are synced, by their GUIDs. -/
theorem allIds_spec {tree : Tree} (h : tree.WellFormed) :
    ∃ guids, allIds tree = .ok guids ∧
      ∀ guid, guid ∈ guids ↔ ∃ id, tree.Synced id ∧ tree.guidOf? id = some guid := by
  obtain ⟨parts, hparts, hmem⟩ := exists_mapM_flatten
    fun folder (_ : folder ∈ syncedRoots.filterMap tree.idOfGuid?) =>
      idsBelow_spec h tree.walkLength folder
  refine ⟨parts.flatten.eraseDups, by rw [allIds, hparts]; rfl, ?_⟩
  intro guid
  rw [List.mem_eraseDups, hmem]
  constructor
  · rintro ⟨root, hroot, steps, id, -, hunder, hguid⟩
    exact ⟨id, synced_iff.mpr ⟨root, steps, List.mem_filterMap.mp hroot, hunder⟩, hguid⟩
  · rintro ⟨id, hsynced, hguid⟩
    obtain ⟨root, steps, hroot, hunder⟩ := synced_iff.mp hsynced
    exact ⟨root, List.mem_filterMap.mpr hroot, steps, id, (h.climb_lt hunder.climb).le, hunder,
      hguid⟩

end BookmarkStore

end SyncedBookmarks
