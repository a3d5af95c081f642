import Mathlib.Data.List.Nodup
import Mathlib.Data.List.Perm.Subperm
import Mathlib.Data.List.Sort
import SyncedBookmarks.Tree.Basic

namespace SyncedBookmarks

/-! The positions of the children of a folder. -/

/-- The positions `0` to `n - 1`, each once, in some order. -/
structure Contiguous (slots : List Int) : Prop where
  nodup : slots.Nodup
  bounds : ∀ slot ∈ slots, 0 ≤ slot ∧ slot < slots.length

namespace Contiguous

theorem nil : Contiguous [] :=
  ⟨List.nodup_nil, by simp⟩

theorem perm {slots other : List Int} (h : Contiguous slots) (hperm : slots.Perm other) :
    Contiguous other := by
  refine ⟨hperm.nodup h.nodup, ?_⟩
  intro slot hslot
  rw [← hperm.length_eq]
  exact h.bounds slot (hperm.mem_iff.mpr hslot)

theorem perm_range {slots : List Int} (h : Contiguous slots) :
    slots.Perm ((List.range slots.length).map Int.ofNat) := by
  have hsubset : slots ⊆ (List.range slots.length).map Int.ofNat := by
    intro slot hslot
    obtain ⟨hlow, hhigh⟩ := h.bounds slot hslot
    refine List.mem_map.mpr ⟨slot.toNat, ?_, ?_⟩
    · rw [List.mem_range]
      omega
    · exact Int.toNat_of_nonneg hlow
  exact (h.nodup.subperm hsubset).perm_of_length_le (by simp)

theorem foldl_max_range (n : Nat) :
    ((List.range n).map Int.ofNat).foldl max (-1) = (n : Int) - 1 := by
  induction n with
  | zero => rfl
  | succ n ih =>
      rw [List.range_succ, List.map_append, List.foldl_append, ih]
      change max ((n : Int) - 1) (n : Int) = _
      omega

/-- The place after the last one is the number of places taken. -/
theorem foldl_max {slots : List Int} (h : Contiguous slots) :
    slots.foldl max (-1) + 1 = slots.length := by
  rw [h.perm_range.foldl_eq, foldl_max_range]
  omega

/-- Opening a gap and filling it. -/
theorem insert {slots : List Int} {slot : Int} (h : Contiguous slots) (hlow : 0 ≤ slot)
    (hhigh : slot ≤ slots.length) :
    Contiguous (slot :: slots.map fun other => if slot ≤ other then other + 1 else other) := by
  constructor
  · rw [List.nodup_cons]
    constructor
    · intro hmem
      obtain ⟨other, -, hother⟩ := List.mem_map.mp hmem
      split at hother <;> omega
    · refine List.Nodup.map ?_ h.nodup
      intro first second heq
      dsimp only at heq
      split at heq <;> split at heq <;> omega
  · intro place hplace
    rw [List.length_cons, List.length_map]
    rcases List.mem_cons.mp hplace with rfl | hmem
    · omega
    · obtain ⟨other, hother, rfl⟩ := List.mem_map.mp hmem
      have := h.bounds other hother
      split <;> omega

/-- Taking a place out and closing the gap. -/
theorem erase {slots : List Int} {slot : Int} (h : Contiguous (slot :: slots)) :
    Contiguous (slots.map fun other => if slot < other then other - 1 else other) := by
  have hnodup := List.nodup_cons.mp h.nodup
  constructor
  · refine List.Nodup.map_on ?_ hnodup.2
    intro first hfirst second hsecond heq
    have hfirst : first ≠ slot := fun heq => hnodup.1 (heq ▸ hfirst)
    have hsecond : second ≠ slot := fun heq => hnodup.1 (heq ▸ hsecond)
    split at heq <;> split at heq <;> omega
  · intro place hplace
    obtain ⟨other, hother, rfl⟩ := List.mem_map.mp hplace
    have hne : other ≠ slot := fun heq => hnodup.1 (heq ▸ hother)
    have hbounds := h.bounds other (List.mem_cons_of_mem slot hother)
    have hslot := h.bounds slot List.mem_cons_self
    rw [List.length_cons] at hbounds hslot
    rw [List.length_map]
    split <;> omega

end Contiguous

/-- The positions that rows take in a folder. -/
def slotsIn (rows : List Row) (folder : Int) : List Int :=
  (rows.filter (·.parent == some folder)).map (·.position)

@[simp] theorem slotsIn_nil (folder : Int) : slotsIn [] folder = [] := rfl

theorem slotsIn_cons (row : Row) (rows : List Row) (folder : Int) :
    slotsIn (row :: rows) folder =
      if row.parent = some folder then row.position :: slotsIn rows folder
      else slotsIn rows folder := by
  by_cases h : row.parent = some folder <;> simp [slotsIn, h]

theorem slotsIn_perm {rows other : List Row} (h : rows.Perm other) (folder : Int) :
    (slotsIn rows folder).Perm (slotsIn other folder) :=
  (h.filter _).map _

/-- An edit that leaves the parents alone moves the places of a folder. -/
theorem slotsIn_map {change : Row → Row} (hparent : ∀ row, (change row).parent = row.parent)
    {folder : Int} {f : Int → Int}
    (hmove : ∀ row, row.parent = some folder → (change row).position = f row.position)
    (rows : List Row) :
    slotsIn (rows.map change) folder = (slotsIn rows folder).map f := by
  induction rows with
  | nil => rfl
  | cons row rows ih =>
      rw [List.map_cons, slotsIn_cons, slotsIn_cons, hparent]
      by_cases h : row.parent = some folder
      · rw [if_pos h, if_pos h, ih, List.map_cons, hmove row h]
      · rw [if_neg h, if_neg h, ih]

namespace Tree

def slots (tree : Tree) (folder : Int) : List Int :=
  slotsIn tree.rows folder

theorem appendSlot_eq_length {tree : Tree} {folder : Int} (h : Contiguous (tree.slots folder)) :
    tree.appendSlot folder = (tree.slots folder).length := by
  rw [← h.foldl_max]
  rfl

theorem slot_bounds {tree : Tree} {folder : Int} (h : Contiguous (tree.slots folder))
    (index : Int) :
    0 ≤ tree.slot folder index ∧ tree.slot folder index ≤ (tree.slots folder).length := by
  rw [slot, appendSlot_eq_length h]
  split <;> omega

theorem slots_openGap (tree : Tree) (folder position other : Int) :
    (tree.openGap folder position).slots other =
      if other = folder then
        (tree.slots folder).map fun slot => if position ≤ slot then slot + 1 else slot
      else tree.slots other := by
  have hparent : ∀ row : Row, (if row.parent == some folder && decide (position ≤ row.position)
      then { row with position := row.position + 1 } else row).parent = row.parent := by
    intro row
    split <;> rfl
  rw [slots, openGap, mapRows]
  split
  · subst other
    refine slotsIn_map hparent ?_ tree.rows
    intro row hrow
    by_cases hle : position ≤ row.position <;> simp [hrow, hle]
  · rename_i hne
    rw [slotsIn_map hparent (f := id) ?_ tree.rows, List.map_id]
    · rfl
    · intro row hrow
      have : ¬ other = folder := hne
      simp [hrow, this]

theorem slots_closeGap (tree : Tree) (folder position other : Int) :
    (tree.closeGap folder position).slots other =
      if other = folder then
        (tree.slots folder).map fun slot => if position < slot then slot - 1 else slot
      else tree.slots other := by
  have hparent : ∀ row : Row, (if row.parent == some folder && decide (position < row.position)
      then { row with position := row.position - 1 } else row).parent = row.parent := by
    intro row
    split <;> rfl
  rw [slots, closeGap, mapRows]
  split
  · subst other
    refine slotsIn_map hparent ?_ tree.rows
    intro row hrow
    by_cases hlt : position < row.position <;> simp [hrow, hlt]
  · rename_i hne
    rw [slotsIn_map hparent (f := id) ?_ tree.rows, List.map_id]
    · rfl
    · intro row hrow
      have : ¬ other = folder := hne
      simp [hrow, this]

/-- Making a slot free and taking it keeps the positions without a gap. -/
theorem contiguous_reserve {tree : Tree} {folder : Int} (h : Contiguous (tree.slots folder))
    (index : Int) :
    Contiguous (tree.slot folder index :: (tree.reserve folder index).slots folder) := by
  have hbounds := slot_bounds h index
  rw [reserve]
  split
  · rename_i hend
    have hslot : tree.slot folder index = (tree.slots folder).length := by
      rw [slot, ← appendSlot_eq_length h]
      simp [hend]
    have hmap : (tree.slots folder).map
        (fun slot => if tree.slot folder index ≤ slot then slot + 1 else slot) =
          tree.slots folder := by
      rw [List.map_congr_left (g := id), List.map_id]
      intro slot hmem
      have := h.bounds slot hmem
      rw [if_neg (by omega)]
      rfl
    have hinsert := h.insert hbounds.1 hbounds.2
    rwa [hmap] at hinsert
  · rename_i hinside
    have hslot : tree.slot folder index = index := by
      simp [slot, hinside]
    rw [hslot] at hbounds ⊢
    rw [slots_openGap, if_pos rfl]
    exact h.insert hbounds.1 hbounds.2

theorem slots_reserve_of_ne (tree : Tree) {folder other : Int} (index : Int)
    (hne : other ≠ folder) : (tree.reserve folder index).slots other = tree.slots other := by
  rw [reserve]
  split
  · rfl
  · rw [slots_openGap, if_neg hne]

/-- Sorted by position, the children stand at `0`, `1` and so on. -/
theorem positions_childRows {tree : Tree} {folder : Int} (h : Contiguous (tree.slots folder)) :
    (tree.childRows folder).map (·.position) =
      (List.range (tree.childRows folder).length).map Int.ofNat := by
  have hperm : ((tree.childRows folder).map (·.position)).Perm (tree.slots folder) :=
    (List.mergeSort_perm _ _).map _
  have hlength : (tree.childRows folder).length = (tree.slots folder).length := by
    simpa using hperm.length_eq
  have hsorted : ((tree.childRows folder).map (·.position)).Pairwise (· ≤ ·) := by
    rw [List.pairwise_map]
    refine (@List.pairwise_mergeSort Row (fun a b => decide (a.position ≤ b.position))
      ?_ ?_ _).imp ?_
    · intro a b c hab hbc
      simp only [decide_eq_true_eq] at *
      omega
    · intro a b
      simp only [Bool.or_eq_true, decide_eq_true_eq]
      omega
    · intro a b hab
      simpa using hab
  have hrange : ((List.range (tree.childRows folder).length).map Int.ofNat).Pairwise (· ≤ ·) := by
    rw [List.pairwise_map]
    refine List.pairwise_lt_range.imp ?_
    intro a b hab
    exact Int.ofNat_le.mpr hab.le
  refine List.Perm.eq_of_pairwise' hsorted hrange ?_
  rw [hlength]
  exact hperm.trans h.perm_range

end Tree

end SyncedBookmarks
