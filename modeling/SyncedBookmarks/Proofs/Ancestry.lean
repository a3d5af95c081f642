import Mathlib.Data.List.Perm.Subperm
import SyncedBookmarks.Proofs.Lookup

namespace SyncedBookmarks

/-! The way up from an item: how far it leads, and that looking for an ancestor along it is never
cut short. -/

namespace Tree

def climb (tree : Tree) : Nat → Int → Option Int
  | 0, id => some id
  | steps + 1, id => (tree.above? id).bind (tree.climb steps)

/-- Whether the way up from an item, itself included, meets `ancestor`. -/
def Encloses (tree : Tree) (ancestor id : Int) : Prop :=
  ∃ steps, tree.climb steps id = some ancestor

@[simp] theorem climb_zero (tree : Tree) (id : Int) : tree.climb 0 id = some id := rfl

theorem climb_succ (tree : Tree) (steps : Nat) (id : Int) :
    tree.climb (steps + 1) id = (tree.above? id).bind (tree.climb steps) := rfl

theorem climb_one (tree : Tree) (id : Int) : tree.climb 1 id = tree.above? id := by
  rw [climb_succ]
  cases tree.above? id <;> rfl

theorem climb_add (tree : Tree) (first second : Nat) (id : Int) :
    tree.climb (first + second) id = (tree.climb first id).bind (tree.climb second) := by
  induction first generalizing id with
  | zero => simp
  | succ first ih =>
      rw [Nat.succ_add, climb_succ, climb_succ]
      cases tree.above? id with
      | none => rfl
      | some parent => exact ih parent

theorem climb_congr {tree other : Tree} (habove : ∀ id, other.above? id = tree.above? id)
    (steps : Nat) (id : Int) : other.climb steps id = tree.climb steps id := by
  induction steps generalizing id with
  | zero => rfl
  | succ steps ih =>
      rw [climb_succ, climb_succ, habove]
      cases tree.above? id with
      | none => rfl
      | some parent => exact ih parent

namespace Encloses

theorem refl (tree : Tree) (id : Int) : tree.Encloses id id :=
  ⟨0, rfl⟩

theorem of_above? {tree : Tree} {ancestor id parent : Int} (hparent : tree.above? id = some parent)
    (h : tree.Encloses ancestor parent) : tree.Encloses ancestor id := by
  obtain ⟨steps, hsteps⟩ := h
  exact ⟨steps + 1, by rw [climb_succ, hparent]; exact hsteps⟩

theorem trans {tree : Tree} {ancestor middle id : Int} (hfirst : tree.Encloses ancestor middle)
    (hsecond : tree.Encloses middle id) : tree.Encloses ancestor id := by
  obtain ⟨upper, hupper⟩ := hfirst
  obtain ⟨lower, hlower⟩ := hsecond
  exact ⟨lower + upper, by rw [climb_add, hlower]; exact hupper⟩

/-- Of two items above a third one is above the other. -/
theorem total {tree : Tree} {first second id : Int} (hfirst : tree.Encloses first id)
    (hsecond : tree.Encloses second id) :
    tree.Encloses first second ∨ tree.Encloses second first := by
  obtain ⟨low, hlow⟩ := hfirst
  obtain ⟨high, hhigh⟩ := hsecond
  rcases Nat.le_total low high with hle | hle
  · obtain ⟨rest, rfl⟩ := Nat.exists_eq_add_of_le hle
    rw [climb_add, hlow] at hhigh
    exact .inr ⟨rest, hhigh⟩
  · obtain ⟨rest, rfl⟩ := Nat.exists_eq_add_of_le hle
    rw [climb_add, hhigh] at hlow
    exact .inl ⟨rest, hlow⟩

theorem eq_or_above? {tree : Tree} {ancestor id : Int} (h : tree.Encloses ancestor id) :
    ancestor = id ∨ ∃ parent, tree.above? id = some parent ∧ tree.Encloses ancestor parent := by
  obtain ⟨steps, hsteps⟩ := h
  cases steps with
  | zero => exact .inl (Option.some.inj hsteps).symm
  | succ steps =>
      rw [climb_succ] at hsteps
      obtain ⟨parent, hparent, hrest⟩ := Option.bind_eq_some_iff.mp hsteps
      exact .inr ⟨parent, hparent, steps, hrest⟩

theorem congr {tree other : Tree} (habove : ∀ id, other.above? id = tree.above? id)
    {ancestor id : Int} : other.Encloses ancestor id ↔ tree.Encloses ancestor id := by
  simp only [Encloses, climb_congr habove]

/-- A way up comes to its end from a child. -/
theorem eq_or_child {tree : Tree} {ancestor id : Int} (h : tree.Encloses ancestor id) :
    id = ancestor ∨ ∃ child, tree.above? child = some ancestor ∧ tree.Encloses child id := by
  obtain ⟨steps, hsteps⟩ := h
  cases steps with
  | zero => exact .inl (Option.some.inj hsteps)
  | succ steps =>
      rw [climb_add, Option.bind_eq_some_iff] at hsteps
      obtain ⟨child, hchild, hlast⟩ := hsteps
      rw [climb_one] at hlast
      exact .inr ⟨child, hlast, steps, hchild⟩

theorem eq_of_leaf {tree : Tree} {ancestor id : Int}
    (hleaf : ∀ other, tree.above? other ≠ some ancestor) (h : tree.Encloses ancestor id) :
    id = ancestor :=
  h.eq_or_child.resolve_right fun ⟨child, hchild, _⟩ => hleaf child hchild

/-- What is above an item depends on the items on the way up alone. -/
theorem iff_of_kept {tree other : Tree} {kept : Int → Prop}
    (hup : ∀ id parent, kept id → tree.above? id = some parent → kept parent)
    (hsame : ∀ id, kept id → other.above? id = tree.above? id) {ancestor id : Int} (hid : kept id) :
    other.Encloses ancestor id ↔ tree.Encloses ancestor id := by
  constructor
  · rintro ⟨steps, hsteps⟩
    induction steps generalizing id with
    | zero => exact ⟨0, hsteps⟩
    | succ steps ih =>
        rw [climb_succ, hsame id hid, Option.bind_eq_some_iff] at hsteps
        obtain ⟨parent, hparent, hrest⟩ := hsteps
        exact (ih (hup id parent hid hparent) hrest).of_above? hparent
  · rintro ⟨steps, hsteps⟩
    induction steps generalizing id with
    | zero => exact ⟨0, hsteps⟩
    | succ steps ih =>
        rw [climb_succ, Option.bind_eq_some_iff] at hsteps
        obtain ⟨parent, hparent, hrest⟩ := hsteps
        exact (ih (hup id parent hid hparent) hrest).of_above? ((hsame id hid).trans hparent)

/-- Where only `id` may have got another parent, it keeps all that is below it. -/
theorem of_agree_off {tree other : Tree} {id : Int}
    (hagree : ∀ place, place ≠ id → other.above? place = tree.above? place) {place : Int}
    (h : tree.Encloses id place) : other.Encloses id place := by
  obtain ⟨steps, hsteps⟩ := h
  induction steps generalizing place with
  | zero => exact ⟨0, hsteps⟩
  | succ steps ih =>
      by_cases heq : place = id
      · rw [heq]
        exact refl other id
      · rw [climb_succ] at hsteps
        obtain ⟨parent, hparent, hrest⟩ := Option.bind_eq_some_iff.mp hsteps
        exact (ih hrest).of_above? (by rw [hagree place heq, hparent])

/-- Where only `id` may have got another parent, the ways up that do not pass it stay. -/
theorem of_agree_off_of_not {tree other : Tree} {id : Int}
    (hagree : ∀ place, place ≠ id → other.above? place = tree.above? place) {ancestor place : Int}
    (havoid : ¬ tree.Encloses id place) (h : tree.Encloses ancestor place) :
    other.Encloses ancestor place := by
  obtain ⟨steps, hsteps⟩ := h
  induction steps generalizing place with
  | zero => exact ⟨0, hsteps⟩
  | succ steps ih =>
      have hne : place ≠ id := fun heq => havoid (heq ▸ refl tree place)
      rw [climb_succ] at hsteps
      obtain ⟨parent, hparent, hrest⟩ := Option.bind_eq_some_iff.mp hsteps
      have hparentAvoids : ¬ tree.Encloses id parent := fun h => havoid (h.of_above? hparent)
      exact (ih hparentAvoids hrest).of_above? (by rw [hagree place hne, hparent])

end Encloses

/-! ### The length of a way up -/

/-- No way up goes on after a root. -/
theorem climb_le_of_root {tree : Tree} {root id found : Int} {steps other : Nat}
    (hroot : tree.above? root = none) (hsteps : tree.climb steps id = some root)
    (hother : tree.climb other id = some found) : other ≤ steps := by
  by_contra hlonger
  obtain ⟨rest, rfl⟩ : ∃ rest, other = steps + (rest + 1) := ⟨other - steps - 1, by omega⟩
  rw [climb_add, hsteps, Option.bind_some, climb_succ, hroot] at hother
  simp at hother

theorem climb_inj_of_root {tree : Tree} {root id : Int} {steps first second : Nat}
    (hroot : tree.above? root = none) (hsteps : tree.climb steps id = some root)
    (hfirst : first ≤ steps) (hsecond : second ≤ steps)
    (heq : tree.climb first id = tree.climb second id) : first = second := by
  obtain ⟨later, rfl⟩ := Nat.exists_eq_add_of_le hfirst
  obtain ⟨rest, hrest⟩ := Nat.exists_eq_add_of_le hsecond
  have hlater := hsteps
  rw [climb_add] at hlater
  obtain ⟨place, hplace, hup⟩ := Option.bind_eq_some_iff.mp hlater
  rw [hrest, climb_add, ← heq, hplace, Option.bind_some] at hsteps
  have hle := climb_le_of_root hroot hup hsteps
  have hge := climb_le_of_root hroot hsteps hup
  omega

theorem isSome_row?_of_above? {tree : Tree} {id parent : Int}
    (h : tree.above? id = some parent) : (tree.row? id).isSome := by
  obtain ⟨row, hrow, -⟩ := Option.bind_eq_some_iff.mp h
  simp [hrow]

/-- A way up meets no item twice, so it is shorter than the table. -/
theorem climb_lt_length {tree : Tree} {root id : Int} {steps : Nat}
    (hroot : tree.above? root = none) (hthere : (tree.row? root).isSome)
    (hsteps : tree.climb steps id = some root) : steps < tree.rows.length := by
  let place (count : Nat) : Int := (tree.climb count id).getD 0
  have hplace : ∀ count ≤ steps, tree.climb count id = some (place count) := by
    intro count hcount
    obtain ⟨rest, rfl⟩ := Nat.exists_eq_add_of_le hcount
    rw [climb_add] at hsteps
    obtain ⟨found, hfound, -⟩ := Option.bind_eq_some_iff.mp hsteps
    simp [place, hfound]
  have hnodup : ((List.range (steps + 1)).map place).Nodup := by
    refine List.Nodup.map_on ?_ List.nodup_range
    intro first hfirst second hsecond heq
    have hfirst : first ≤ steps := by simpa [Nat.lt_succ_iff] using hfirst
    have hsecond : second ≤ steps := by simpa [Nat.lt_succ_iff] using hsecond
    refine climb_inj_of_root hroot hsteps hfirst hsecond ?_
    rw [hplace first hfirst, hplace second hsecond, heq]
  have hsubset : (List.range (steps + 1)).map place ⊆ tree.rows.map (·.id) := by
    intro found hfound
    obtain ⟨count, hcount, rfl⟩ := List.mem_map.mp hfound
    have hcount : count ≤ steps := by simpa [Nat.lt_succ_iff] using hcount
    have hrow : (tree.row? (place count)).isSome := by
      rcases Nat.lt_or_eq_of_le hcount with hlt | rfl
      · have hnext := hplace (count + 1) hlt
        rw [climb_add, hplace count hcount, Option.bind_some, climb_succ] at hnext
        obtain ⟨parent, hparent, -⟩ := Option.bind_eq_some_iff.mp hnext
        exact isSome_row?_of_above? hparent
      · rw [show place count = root by simp [place, hsteps]]
        exact hthere
    obtain ⟨row, hrow, hid⟩ := isSome_row?_iff.mp hrow
    exact List.mem_map.mpr ⟨row, hrow, hid⟩
  have hle := (hnodup.subperm hsubset).length_le
  simp only [List.length_map, List.length_range] at hle
  omega

/-! ### Looking for an ancestor -/

/-- Every row has a type code with a meaning. -/
def Typed (tree : Tree) : Prop :=
  ∀ row ∈ tree.rows, ∃ type, ItemType.ofCode? row.typeCode = some type

theorem Typed.item? {tree : Tree} (htyped : tree.Typed) (id : Int) :
    ∃ item, tree.item? id = .ok item ∧ item.map (·.id) = (tree.row? id).map (·.id) ∧
      item.bind (·.parent) = tree.above? id := by
  cases hrow : tree.row? id with
  | none => exact ⟨none, by simp [Tree.item?, hrow], by simp, by simp [above?, hrow]⟩
  | some row =>
      obtain ⟨type, htype⟩ := htyped row (mem_of_row? hrow)
      refine ⟨some ?_, ?_, ?_, ?_⟩
      rotate_left
      · simp only [Tree.item?, hrow, Row.item, htype]
        rfl
      · rfl
      · simp [above?, hrow]

theorem Typed.parentOf? {tree : Tree} (htyped : tree.Typed) (id : Int) :
    tree.parentOf? id = .ok (tree.above? id) := by
  obtain ⟨item, hitem, -, habove⟩ := htyped.item? id
  rw [Tree.parentOf?, hitem, ← habove]
  rfl

theorem Typed.climbsTo {tree : Tree} (htyped : tree.Typed) (ancestor : Int) (fuel : Nat) (id : Int) :
    ∃ found, tree.climbsTo ancestor fuel id = .ok found ∧
      (found = true ↔ ∃ steps < fuel, tree.climb steps id = some ancestor) := by
  induction fuel generalizing id with
  | zero => exact ⟨false, rfl, by simp⟩
  | succ fuel ih =>
      rw [Tree.climbsTo]
      by_cases heq : id = ancestor
      · exact ⟨true, by rw [if_pos heq], by simpa using ⟨0, by omega, by simp [heq]⟩⟩
      · rw [if_neg heq, htyped.parentOf?]
        have hlater : (∃ steps < fuel + 1, tree.climb steps id = some ancestor) ↔
            ∃ steps < fuel, (tree.above? id).bind (tree.climb steps) = some ancestor := by
          constructor
          · rintro ⟨steps, hlt, hsteps⟩
            cases steps with
            | zero => exact absurd (Option.some.inj hsteps) heq
            | succ steps => exact ⟨steps, by omega, hsteps⟩
          · rintro ⟨steps, hlt, hsteps⟩
            exact ⟨steps + 1, by omega, hsteps⟩
        rw [hlater]
        cases tree.above? id with
        | none => exact ⟨false, rfl, by simp⟩
        | some parent => exact ih parent

end Tree

end SyncedBookmarks
