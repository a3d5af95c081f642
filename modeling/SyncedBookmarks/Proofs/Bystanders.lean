import Mathlib.Data.Set.Basic
import SyncedBookmarks.Proofs.ItemSteps

namespace SyncedBookmarks

/-! What an operation leaves of the items that it is not about: they stay where they are, as they
are, and nothing comes to stand before them that did not. -/

namespace Row

/-- The parent that an orphan waits for, after a letter. -/
def mark? (row : Row) : Option String :=
  row.annotationOf? AnnotationName.intendedParent

/-- A row after another one has been taken out of its place. -/
def closedUp (gone row : Row) : Row :=
  if row.parent.isSome && row.parent == gone.parent && decide (gone.position < row.position) then
    { row with position := row.position - 1 }
  else row

@[simp] theorem closedUp_parent (gone row : Row) : (gone.closedUp row).parent = row.parent := by
  rw [closedUp]
  split <;> rfl

theorem closedUp_unplaced (gone row : Row) : (gone.closedUp row).unplaced = row.unplaced := by
  rw [closedUp]
  split <;> rfl

theorem closedUp_position (gone row : Row) : (gone.closedUp row).position =
    if row.parent.isSome && row.parent == gone.parent && decide (gone.position < row.position) then
      row.position - 1
    else row.position := by
  rw [closedUp]
  split <;> rfl

theorem closedUp_of_loose (gone : Row) {row : Row} (h : row.parent = none) :
    gone.closedUp row = row := by
  simp [closedUp, h]

theorem position_lt_of_closedUp (gone : Row) {row other : Row} (hparent : row.parent = other.parent)
    (h : (gone.closedUp row).position < (gone.closedUp other).position) :
    row.position < other.position := by
  rw [closedUp_position, closedUp_position, hparent] at h
  cases hplace : other.parent.isSome && other.parent == gone.parent with
  | false => simpa [hplace] using h
  | true =>
      simp only [hplace, Bool.true_and, decide_eq_true_eq] at h
      split at h <;> split at h <;> omega

end Row

namespace Tree

/-- Whether one item stands before another in the same folder. -/
def Precedes (tree : Tree) (first second : Int) : Prop :=
  ∃ row row', tree.row? first = some row ∧ tree.row? second = some row' ∧ row.parent.isSome ∧
    row.parent = row'.parent ∧ row.position < row'.position

/-- The number that an item has which is in no folder. -/
def Loose (tree : Tree) (id : Int) : Set Int :=
  { position | ∃ row, tree.row? id = some row ∧ row.parent = none ∧ row.position = position }

/-- What happens to some items when nothing is done to them, other than to write to those of them
that are `own`: they stay in their folders, and behind no item that was not before them. -/
structure Undisturbed (still own : Int → Prop) (before after : Tree) : Prop where
  there : ∀ id, still id → (after.row? id).isSome
  above? : ∀ id, still id → after.above? id = before.above? id
  known? : ∀ id, still id → ¬ own id → after.known? id = before.known? id
  ahead : ∀ id other, still id → after.Precedes other id → before.Precedes other id
  loose : ∀ id, still id → after.Loose id ⊆ before.Loose id

/-- What an item has come from: one of the same type, of the same name and in the same folder unless
it is `free`, and the same altogether unless it may be written to. -/
structure Stems (own free : Prop) (origin row : Row) : Prop where
  typeCode : row.typeCode = origin.typeCode
  kept : ¬ free → row.guid = origin.guid ∧ row.parent = origin.parent ∧ row.mark? = origin.mark?
  same : ¬ free → ¬ own → row = origin

/-- Where all that there is comes from: every item stems from one that there was, or is new and no
orphan. -/
structure Descends (own free : Int → Prop) (before after : Tree) : Prop where
  nextId_le : before.nextId ≤ after.nextId
  origin : ∀ id row, after.known? id = some row →
    (∃ origin, before.known? id = some origin ∧ Stems (own id) (free id) origin row) ∨
      (before.nextId ≤ id ∧ (¬ free id → row.mark? = none))

variable {still own free : Int → Prop} {tree before middle after : Tree}

theorem Undisturbed.refl (hthere : ∀ id, still id → (tree.row? id).isSome) :
    Undisturbed still own tree tree :=
  ⟨hthere, fun _ _ => rfl, fun _ _ _ => rfl, fun _ _ _ h => h, fun _ _ _ h => h⟩

theorem Undisturbed.trans (hfirst : Undisturbed still own before middle)
    (hsecond : Undisturbed still own middle after) : Undisturbed still own before after where
  there := hsecond.there
  above? := fun id hid => (hsecond.above? id hid).trans (hfirst.above? id hid)
  known? := fun id hid hown => (hsecond.known? id hid hown).trans (hfirst.known? id hid hown)
  ahead := fun id other hid h => hfirst.ahead id other hid (hsecond.ahead id other hid h)
  loose := fun id hid => (hsecond.loose id hid).trans (hfirst.loose id hid)

theorem Stems.refl {own free : Prop} (row : Row) : Stems own free row row :=
  ⟨rfl, fun _ => ⟨rfl, rfl, rfl⟩, fun _ _ => rfl⟩

theorem Stems.trans {own free : Prop} {first second third : Row} (h : Stems own free first second)
    (h' : Stems own free second third) : Stems own free first third where
  typeCode := h'.typeCode.trans h.typeCode
  kept := by
    intro hfree
    obtain ⟨hguid, hparent, hmark⟩ := h.kept hfree
    obtain ⟨hguid', hparent', hmark'⟩ := h'.kept hfree
    exact ⟨hguid'.trans hguid, hparent'.trans hparent, hmark'.trans hmark⟩
  same := fun hfree hown => (h'.same hfree hown).trans (h.same hfree hown)

theorem Descends.refl (tree : Tree) : Descends own free tree tree where
  nextId_le := le_rfl
  origin := fun _ row hrow => .inl ⟨row, hrow, .refl row⟩

theorem Descends.trans (hfirst : Descends own free before middle)
    (hsecond : Descends own free middle after) : Descends own free before after where
  nextId_le := hfirst.nextId_le.trans hsecond.nextId_le
  origin := by
    intro id row hrow
    rcases hsecond.origin id row hrow with ⟨found, hfound, hstems⟩ | ⟨hnew, hmark⟩
    · rcases hfirst.origin id found hfound with ⟨origin, horigin, hstems'⟩ | ⟨hnew, hmark⟩
      · exact .inl ⟨origin, horigin, hstems'.trans hstems⟩
      · exact .inr ⟨hnew, fun hfree => ((hstems.kept hfree).2.2).trans (hmark hfree)⟩
    · exact .inr ⟨hfirst.nextId_le.trans hnew, hmark⟩

/-! ### Siblings -/

namespace WellFormed

theorem eq_of_position (h : tree.WellFormed) {first second : Int} {row row' : Row}
    (hrow : tree.row? first = some row) (hrow' : tree.row? second = some row')
    (hsome : row.parent.isSome) (hparent : row.parent = row'.parent)
    (hposition : row.position = row'.position) : first = second := by
  by_contra hne
  obtain ⟨folder, hfolder⟩ := Option.isSome_iff_exists.mp hsome
  have hslots := ((h.contiguous folder).perm (slots_perm h.ids_nodup hrow folder)).nodup
  rw [if_pos hfolder, List.nodup_cons] at hslots
  refine hslots.1 (List.mem_map.mpr ⟨row', ?_, hposition.symm⟩)
  have hid : row'.id ≠ first := fun heq => hne (heq.symm.trans (id_of_row? hrow'))
  simp [eraseRow, mem_of_row? hrow', hid, ← hparent, hfolder]

theorem precedes_or_precedes (h : tree.WellFormed) {first second folder : Int}
    (hne : first ≠ second) (hfirst : tree.above? first = some folder)
    (hsecond : tree.above? second = some folder) :
    tree.Precedes first second ∨ tree.Precedes second first := by
  obtain ⟨row, hrow, hparent⟩ := Option.bind_eq_some_iff.mp hfirst
  obtain ⟨row', hrow', hparent'⟩ := Option.bind_eq_some_iff.mp hsecond
  have hsome : row.parent.isSome := by rw [hparent]; rfl
  have hsame : row.parent = row'.parent := hparent.trans hparent'.symm
  rcases Int.lt_trichotomy row.position row'.position with hlt | heq | hgt
  · exact .inl ⟨row, row', hrow, hrow', hsome, hsame, hlt⟩
  · exact absurd (h.eq_of_position hrow hrow' hsome hsame heq) hne
  · exact .inr ⟨row', row, hrow', hrow, hsame ▸ hsome, hsame.symm, hgt⟩

theorem position_lt_appendSlot (h : tree.WellFormed) {id folder : Int} {row : Row}
    (hrow : tree.row? id = some row) (hparent : row.parent = some folder) :
    row.position < tree.appendSlot folder := by
  rw [appendSlot_eq_length (h.contiguous folder)]
  refine ((h.contiguous folder).bounds row.position ?_).2
  exact List.mem_map.mpr ⟨row, List.mem_filter.mpr ⟨mem_of_row? hrow, by simp [hparent]⟩, rfl⟩

end WellFormed

theorem Precedes.above?_eq {first second : Int} (h : tree.Precedes first second) :
    tree.above? first = tree.above? second := by
  obtain ⟨row, row', hrow, hrow', -, hparent, -⟩ := h
  rw [Tree.above?, Tree.above?, hrow, hrow', Option.bind_some, Option.bind_some, hparent]

theorem Precedes.asymm {first second : Int} (h : tree.Precedes first second) :
    ¬ tree.Precedes second first := by
  rintro ⟨row, row', hrow, hrow', -, -, hlt⟩
  obtain ⟨found, found', hfound, hfound', -, -, hlt'⟩ := h
  obtain rfl := Option.some.inj (hrow.symm.trans hfound')
  obtain rfl := Option.some.inj (hrow'.symm.trans hfound)
  omega

/-- Two siblings that stay siblings stay in their order, if one of them is still. -/
theorem Undisturbed.precedes_iff (h : Undisturbed still own before after)
    (hafter : after.WellFormed) {id other : Int} (hid : still id)
    (hother : still other) : (after.Precedes other id ↔ before.Precedes other id) := by
  refine ⟨h.ahead id other hid, ?_⟩
  intro hprecedes
  have hne : other ≠ id := by
    rintro rfl
    exact hprecedes.asymm hprecedes
  have hsame := hprecedes.above?_eq
  have ⟨row, _, hrow, _, hsome, _⟩ := hprecedes
  obtain ⟨folder, hfolder⟩ := Option.isSome_iff_exists.mp hsome
  have habove : before.above? other = some folder := by
    rw [Tree.above?, hrow]
    exact hfolder
  rcases hafter.precedes_or_precedes hne ((h.above? other hother).trans habove)
    ((h.above? id hid).trans (hsame.symm.trans habove)) with hforth | hback
  · exact hforth
  · exact absurd (h.ahead other id hother hback) hprecedes.asymm

/-- The places before an item are all taken. -/
theorem WellFormed.exists_at (h : tree.WellFormed) {id folder slot : Int} {row : Row}
    (hrow : tree.row? id = some row) (hparent : row.parent = some folder) (hlow : 0 ≤ slot)
    (hhigh : slot ≤ row.position) :
    ∃ other row', tree.row? other = some row' ∧ row'.parent = some folder ∧
      row'.position = slot := by
  have hslots := h.contiguous folder
  have hbound := (hslots.bounds row.position (List.mem_map.mpr ⟨row, List.mem_filter.mpr
    ⟨mem_of_row? hrow, by simp [hparent]⟩, rfl⟩)).2
  have hmem : slot ∈ tree.slots folder := by
    rw [hslots.perm_range.mem_iff, List.mem_map]
    exact ⟨slot.toNat, List.mem_range.mpr (by omega), Int.toNat_of_nonneg hlow⟩
  obtain ⟨row', hchild, hposition⟩ := List.mem_map.mp hmem
  obtain ⟨hthere, hfolder⟩ := List.mem_filter.mp hchild
  exact ⟨row'.id, row', row?_eq_some_of_mem h.ids_nodup hthere, by simpa using hfolder, hposition⟩

theorem WellFormed.position_nonneg (h : tree.WellFormed) {id folder : Int} {row : Row}
    (hrow : tree.row? id = some row) (hparent : row.parent = some folder) : 0 ≤ row.position :=
  ((h.contiguous folder).bounds row.position (List.mem_map.mpr ⟨row, List.mem_filter.mpr
    ⟨mem_of_row? hrow, by simp [hparent]⟩, rfl⟩)).1

/-- An item keeps its position if those that were before it do. -/
theorem Undisturbed.position_eq_of_earlier (h : Undisturbed still own before after)
    (hbefore : before.WellFormed) (hafter : after.WellFormed) {id folder : Int} {row row' : Row}
    (hid : still id) (hrow : before.row? id = some row) (hrow' : after.row? id = some row')
    (hparent : row.parent = some folder) (hparent' : row'.parent = some folder)
    (hearlier : ∀ other first, before.row? other = some first → first.parent = some folder →
      first.position < row.position →
        still other ∧ ∀ last, after.row? other = some last → last.position = first.position) :
    row'.position = row.position := by
  have hlow := hbefore.position_nonneg hrow hparent
  have hlow' := hafter.position_nonneg hrow' hparent'
  rcases Int.lt_trichotomy row'.position row.position with hlt | heq | hgt
  · -- The item that was in that position is still in it, and is no other.
    obtain ⟨other, first, hfirst, hplace, hposition⟩ :=
      hbefore.exists_at hrow hparent hlow' hlt.le
    obtain ⟨hother, hstays⟩ := hearlier other first hfirst hplace (by omega)
    obtain ⟨last, hlast⟩ := Option.isSome_iff_exists.mp (h.there other hother)
    have hup := h.above? other hother
    rw [Tree.above?, Tree.above?, hfirst, hlast, Option.bind_some, Option.bind_some] at hup
    have hself := hafter.eq_of_position hlast hrow' (by rw [hup, hplace]; rfl)
      (hup.trans (hplace.trans hparent'.symm)) ((hstays last hlast).trans hposition)
    subst hself
    obtain rfl := Option.some.inj (hfirst.symm.trans hrow)
    omega
  · exact heq
  · -- What is in the item's position now was before the item, and so in that position.
    obtain ⟨other, last, hlast, hplace, hposition⟩ :=
      hafter.exists_at hrow' hparent' hlow hgt.le
    have hprecedes := h.ahead id other hid
      ⟨last, row', hlast, hrow', by rw [hplace]; rfl, hplace.trans hparent'.symm, by omega⟩
    obtain ⟨first, found, hfirst, hfound, -, hfirstPlace, hlt⟩ := hprecedes
    obtain rfl := Option.some.inj (hfound.symm.trans hrow)
    have := (hearlier other first hfirst (hfirstPlace.trans hparent) hlt).2 last hlast
    omega

/-- Items that stand in front of all others keep their positions. -/
theorem Undisturbed.position_eq (h : Undisturbed still own before after)
    (hbefore : before.WellFormed) (hafter : after.WellFormed)
    (hfront : ∀ id other, still id → before.Precedes other id → still other) {id : Int}
    {row row' : Row} (hid : still id) (hrow : before.row? id = some row)
    (hrow' : after.row? id = some row') : row'.position = row.position := by
  have habove := h.above? id hid
  rw [Tree.above?, Tree.above?, hrow, hrow', Option.bind_some, Option.bind_some] at habove
  cases hparent : row.parent with
  | none =>
      obtain ⟨found, hfound, -, hposition⟩ :=
        h.loose id hid ⟨row', hrow', habove.trans hparent, rfl⟩
      obtain rfl := Option.some.inj (hrow.symm.trans hfound)
      exact hposition.symm
  | some folder =>
      have hsome : row.parent.isSome := by rw [hparent]; rfl
      -- By induction on the position, since those before an item keep theirs.
      generalize hn : row.position.toNat = n
      induction n using Nat.strong_induction_on generalizing id row row' with
      | h n ih =>
          refine h.position_eq_of_earlier hbefore hafter hid hrow hrow' hparent
            (habove.trans hparent) fun other first hfirst hplace hlt => ?_
          have hplaceSome : first.parent.isSome := by rw [hplace]; rfl
          have hother := hfront id other hid
            ⟨first, row, hfirst, hrow, hplaceSome, hplace.trans hparent.symm, hlt⟩
          refine ⟨hother, fun last hlast => ?_⟩
          have hlow := hbefore.position_nonneg hfirst hplace
          have hsame := h.above? other hother
          rw [Tree.above?, Tree.above?, hfirst, hlast, Option.bind_some,
            Option.bind_some] at hsame
          exact ih first.position.toNat (by omega) hother hfirst hlast hsame hplace hplaceSome rfl

/-! ### Edits -/

@[simp] theorem reserve_atEnd (tree : Tree) (folder : Int) :
    tree.reserve folder Places.atEnd = tree := by
  rw [reserve, if_pos (.inl (by decide))]

@[simp] theorem slot_atEnd (tree : Tree) (folder : Int) :
    tree.slot folder Places.atEnd = tree.appendSlot folder := by
  simp [slot, Places.atEnd]

/-- The tree with the items after one moved up, once that one is out of its place. -/
def closeUp (tree : Tree) (gone : Row) : Tree :=
  match gone.parent with
  | some parent => tree.closeGap parent gone.position
  | none => tree

theorem row?_closeUp (tree : Tree) (gone : Row) (id : Int) :
    (tree.closeUp gone).row? id = (tree.row? id).map gone.closedUp := by
  rw [closeUp]
  split
  · rename_i parent hparent
    rw [row?_closeGap]
    congr 1
    funext row
    rw [Row.closedUp, hparent]
    cases row.parent <;> simp
  · rename_i hparent
    have hsame : gone.closedUp = fun row => row := by
      funext row
      rw [Row.closedUp, hparent, if_neg]
      cases row.parent <;> simp
    rw [hsame, Option.map_id']

theorem removed_eq (tree : Tree) (gone : Row) :
    tree.removed gone = (tree.eraseRow gone.id).closeUp gone := by
  unfold removed closeUp
  cases gone.parent <;> rfl

theorem parked_eq (tree : Tree) (row : Row) :
    tree.parked row = (tree.closeUp row).mapRow row.id Row.detached := by
  unfold parked closeUp
  cases row.parent <;> rfl

theorem row?_removed (tree : Tree) (gone : Row) (id : Int) :
    (tree.removed gone).row? id =
      if id = gone.id then none else (tree.row? id).map gone.closedUp := by
  rw [removed_eq, row?_closeUp, row?_eraseRow]
  split <;> rfl

theorem row?_moved_of_ne (tree : Tree) (row : Row) (newParent : Int) {id : Int}
    (hne : id ≠ row.id) :
    (tree.moved row newParent Places.atEnd).row? id = (tree.row? id).map row.closedUp := by
  rw [moved, reserve_atEnd, row?_mapRow _ _ (Row.placed_id _ _), if_neg hne, parked_eq,
    row?_mapRow _ _ Row.detached_id, if_neg hne, row?_closeUp]

/-- Where the other items close up around one that nothing stands behind, they are undisturbed. -/
theorem undisturbed_of_closedUp {next : Tree} {gone : Row}
    (hthere : ∀ id, still id → (tree.row? id).isSome) (hgone : ¬ still gone.id)
    (hrow : ∀ id, id ≠ gone.id → next.row? id = (tree.row? id).map gone.closedUp)
    (hlast : ∀ id, ¬ next.Precedes gone.id id) : Undisturbed still own tree next := by
  have hne : ∀ id, still id → id ≠ gone.id := by
    rintro id hid rfl
    exact hgone hid
  constructor
  case there =>
    intro id hid
    rw [hrow id (hne id hid), Option.isSome_map]
    exact hthere id hid
  case above? =>
    intro id hid
    rw [Tree.above?, hrow id (hne id hid), Tree.above?, Option.bind_map]
    congr 1
    funext row
    exact gone.closedUp_parent row
  case known? =>
    intro id hid _
    rw [Tree.known?, hrow id (hne id hid), Tree.known?, Option.map_map]
    congr 1
    funext row
    exact gone.closedUp_unplaced row
  case ahead =>
    intro id other hid hprecedes
    have hother : other ≠ gone.id := fun heq => hlast id (heq ▸ hprecedes)
    obtain ⟨row, row', hfound, hfound', hsome, hparent, hlt⟩ := hprecedes
    rw [hrow other hother] at hfound
    rw [hrow id (hne id hid)] at hfound'
    obtain ⟨first, hfirst, rfl⟩ := Option.map_eq_some_iff.mp hfound
    obtain ⟨second, hsecond, rfl⟩ := Option.map_eq_some_iff.mp hfound'
    rw [Row.closedUp_parent] at hsome hparent
    rw [Row.closedUp_parent] at hparent
    exact ⟨first, second, hfirst, hsecond, hsome, hparent, gone.position_lt_of_closedUp hparent hlt⟩
  case loose =>
    rintro id hid position ⟨row, hfound, hparent, hposition⟩
    rw [hrow id (hne id hid)] at hfound
    obtain ⟨first, hfirst, rfl⟩ := Option.map_eq_some_iff.mp hfound
    rw [Row.closedUp_parent] at hparent
    rw [gone.closedUp_of_loose hparent] at hposition
    exact ⟨first, hfirst, hparent, hposition⟩

theorem undisturbed_moved (h : tree.WellFormed) (hthere : ∀ id, still id → (tree.row? id).isSome)
    {id : Int} {row : Row} (hrow : tree.row? id = some row) (hstill : ¬ still id)
    {newParent : Int} (hfolder : tree.IsFolder newParent)
    (houtside : ¬ tree.Encloses id newParent) :
    Undisturbed still own tree (tree.moved row newParent Places.atEnd) := by
  obtain rfl := id_of_row? hrow
  refine undisturbed_of_closedUp hthere hstill (fun other => row?_moved_of_ne tree row newParent) ?_
  -- The position is the last of the folder, which holds the item too.
  rintro other ⟨moved, last, hmoved, hlast, hsome, hparent, hlt⟩
  have hne : other ≠ row.id := by
    rintro rfl
    obtain rfl := Option.some.inj (hmoved.symm.trans hlast)
    omega
  have hwell := h.moved hrow hfolder houtside Places.atEnd
  have hself : moved.parent = some newParent ∧
      moved.position = (tree.parked row).appendSlot newParent := by
    rw [Tree.moved, row?_mapRow _ _ (Row.placed_id _ _), if_pos rfl] at hmoved
    obtain ⟨before, -, rfl⟩ := Option.map_eq_some_iff.mp hmoved
    exact ⟨rfl, slot_atEnd _ _⟩
  have hparked : (tree.parked row).row? other = some last := by
    rw [Tree.moved, reserve_atEnd, row?_mapRow _ _ (Row.placed_id _ _), if_neg hne] at hlast
    exact hlast
  have hslots := contiguous_parked h.ids_nodup hrow h.contiguous newParent
  have hbound := (hslots.bounds last.position (List.mem_map.mpr ⟨last, List.mem_filter.mpr
    ⟨mem_of_row? hparked, by simp [← hparent, hself.1]⟩, rfl⟩)).2
  rw [hself.2, appendSlot_eq_length hslots] at hlt
  exact absurd hlt (not_lt.mpr hbound.le)

theorem undisturbed_inserted (h : tree.WellFormed)
    (hthere : ∀ id, still id → (tree.row? id).isSome) (parent : Int) (type : ItemType)
    (title url : Option String) :
    Undisturbed still own tree (tree.inserted parent Places.atEnd type title url) := by
  have hold : ∀ id, (tree.row? id).isSome →
      (tree.inserted parent Places.atEnd type title url).row? id = tree.row? id := by
    intro id hid
    obtain ⟨row, hrow⟩ := Option.isSome_iff_exists.mp hid
    rw [inserted, reserve_atEnd, row?_append, hrow, Option.some_or]
  constructor
  case there =>
    intro id hid
    rw [hold id (hthere id hid)]
    exact hthere id hid
  case above? =>
    intro id hid
    rw [Tree.above?, hold id (hthere id hid), Tree.above?]
  case known? =>
    intro id hid _
    rw [Tree.known?, hold id (hthere id hid), Tree.known?]
  case ahead =>
    rintro id other hid ⟨row, row', hrow, hrow', hsome, hparent, hlt⟩
    rw [hold id (hthere id hid)] at hrow'
    rw [inserted, reserve_atEnd, row?_append] at hrow
    cases hother : tree.row? other with
    | some found =>
        rw [hother, Option.some_or] at hrow
        obtain rfl := Option.some.inj hrow
        exact ⟨found, row', hother, hrow', hsome, hparent, hlt⟩
    | none =>
        rw [hother, Option.none_or] at hrow
        split at hrow
        · obtain rfl := Option.some.inj hrow
          have hbound := h.position_lt_appendSlot hrow' hparent.symm
          rw [slot_atEnd] at hlt
          exact absurd hlt (not_lt.mpr hbound.le)
        · contradiction
  case loose =>
    rintro id hid position ⟨row, hrow, hparent, hposition⟩
    rw [hold id (hthere id hid)] at hrow
    exact ⟨row, hrow, hparent, hposition⟩

/-- A change to an item that leaves it where it is and of its type. -/
structure Lasting (change : Row → Row) : Prop extends Steady change where
  typeCode : ∀ row, (change row).typeCode = row.typeCode

/-- A change that concerns neither an item's name nor whether it is an orphan either. -/
structure Inward (change : Row → Row) : Prop extends Lasting change where
  guid : ∀ row, (change row).guid = row.guid
  mark? : ∀ row, (change row).mark? = row.mark?

theorem undisturbed_mapRow (hthere : ∀ id, still id → (tree.row? id).isSome) {id : Int}
    {change : Row → Row} (hsteady : Steady change) (hown : still id → own id) :
    Undisturbed still own tree (tree.mapRow id change) := by
  have hrow := row?_mapRow tree id hsteady.id
  have hback : ∀ other row, (tree.mapRow id change).row? other = some row → ∃ before,
      tree.row? other = some before ∧ row.parent = before.parent ∧
        row.position = before.position := by
    intro other row hfound
    rw [hrow] at hfound
    split at hfound
    · rename_i heq
      obtain ⟨before, hbefore, rfl⟩ := Option.map_eq_some_iff.mp hfound
      exact ⟨before, heq ▸ hbefore, hsteady.parent before, hsteady.position before⟩
    · exact ⟨row, hfound, rfl, rfl⟩
  constructor
  case there =>
    intro other hother
    rw [hrow]
    split
    · rename_i heq
      rw [Option.isSome_map, ← heq]
      exact hthere other hother
    · exact hthere other hother
  case above? => exact fun other _ => hsteady.above? tree id other
  case known? =>
    intro other hother hnot
    rw [hsteady.known?, if_neg]
    rintro rfl
    exact hnot (hown hother)
  case ahead =>
    rintro first other - ⟨row, row', hfound, hfound', hsome, hparent, hlt⟩
    obtain ⟨before, hbefore, hup, hplace⟩ := hback other row hfound
    obtain ⟨before', hbefore', hup', hplace'⟩ := hback first row' hfound'
    exact ⟨before, before', hbefore, hbefore', hup ▸ hsome, hup.symm.trans (hparent.trans hup'),
      hplace ▸ hplace' ▸ hlt⟩
  case loose =>
    rintro other - position ⟨row, hfound, hparent, rfl⟩
    obtain ⟨before, hbefore, hup, hplace⟩ := hback other row hfound
    exact ⟨before, hbefore, hup.symm.trans hparent, hplace.symm⟩

theorem descends_mapRow (tree : Tree) {id : Int} {change : Row → Row} (hlasting : Lasting change)
    (hkept : ¬ free id → Inward change) (hown : ¬ free id → own id) :
    Descends own free tree (tree.mapRow id change) where
  nextId_le := le_rfl
  origin := by
    intro other row hrow
    rw [hlasting.known?] at hrow
    split at hrow
    · rename_i heq
      obtain ⟨before, hbefore, rfl⟩ := Option.map_eq_some_iff.mp hrow
      subst heq
      refine .inl ⟨before, hbefore, hlasting.typeCode before, ?_, ?_⟩
      · intro hfree
        have hinward := hkept hfree
        exact ⟨hinward.guid before, hinward.parent before, hinward.mark? before⟩
      · exact fun hfree hnot => absurd (hown hfree) hnot
    · exact .inl ⟨row, hrow, .refl row⟩

theorem descends_inserted (h : tree.WellFormed) (parent index : Int) (type : ItemType)
    (title url : Option String) :
    Descends own free tree (tree.inserted parent index type title url) where
  nextId_le := by
    change tree.nextId ≤ (tree.reserve parent index).nextId + 1
    rw [nextId_reserve]
    omega
  origin := by
    intro id row hrow
    rw [h.known?_inserted] at hrow
    split at hrow
    · rename_i heq
      obtain rfl := Option.some.inj hrow
      exact .inr ⟨heq.ge, fun _ => rfl⟩
    · exact .inl ⟨row, hrow, .refl row⟩

theorem descends_cleared {gone : Int → Prop} (h : Cleared gone before after) :
    Descends own free before after where
  nextId_le := h.nextId.ge
  origin := fun _ row hrow => .inl ⟨row, (h.known?_of_some hrow).2, .refl row⟩

theorem descends_moved {id : Int} {row : Row} (hrow : tree.row? id = some row) (hfree : free id)
    (newParent index : Int) : Descends own free tree (tree.moved row newParent index) where
  nextId_le := (nextId_moved tree row newParent index).ge
  origin := by
    intro other found hfound
    rw [known?_moved hrow] at hfound
    split at hfound
    · rename_i heq
      obtain rfl := Option.some.inj hfound
      subst heq
      exact .inl ⟨row.unplaced, Tree.known?_of_row? hrow, rfl,
        fun hnot => absurd hfree hnot, fun hnot => absurd hfree hnot⟩
    · exact .inl ⟨found, hfound, .refl found⟩

/-! ### What only goes away -/

/-- Whether nothing has come to stand before anything. -/
structure InOrder (before after : Tree) : Prop where
  ahead : ∀ first second, after.Precedes first second → before.Precedes first second
  loose : ∀ id, after.Loose id ⊆ before.Loose id

theorem InOrder.refl (tree : Tree) : InOrder tree tree :=
  ⟨fun _ _ h => h, fun _ _ h => h⟩

theorem InOrder.trans (hfirst : InOrder before middle) (hsecond : InOrder middle after) :
    InOrder before after :=
  ⟨fun first second h => hfirst.ahead first second (hsecond.ahead first second h),
    fun id => (hsecond.loose id).trans (hfirst.loose id)⟩

theorem inOrder_removed (tree : Tree) (gone : Row) : InOrder tree (tree.removed gone) := by
  have hback : ∀ id row, (tree.removed gone).row? id = some row →
      ∃ found, tree.row? id = some found ∧ gone.closedUp found = row := by
    intro id row hrow
    rw [row?_removed] at hrow
    split at hrow
    · contradiction
    · exact Option.map_eq_some_iff.mp hrow
  constructor
  case ahead =>
    rintro first second ⟨row, row', hrow, hrow', hsome, hparent, hlt⟩
    obtain ⟨found, hfound, rfl⟩ := hback first row hrow
    obtain ⟨found', hfound', rfl⟩ := hback second row' hrow'
    rw [Row.closedUp_parent] at hsome hparent
    rw [Row.closedUp_parent] at hparent
    exact ⟨found, found', hfound, hfound', hsome, hparent, gone.position_lt_of_closedUp hparent hlt⟩
  case loose =>
    rintro id position ⟨row, hrow, hparent, hposition⟩
    obtain ⟨found, hfound, rfl⟩ := hback id row hrow
    rw [Row.closedUp_parent] at hparent
    rw [gone.closedUp_of_loose hparent] at hposition
    exact ⟨found, hfound, hparent, hposition⟩

theorem undisturbed_cleared {gone : Int → Prop} (h : Cleared gone before after)
    (horder : InOrder before after) (hthere : ∀ id, still id → (before.row? id).isSome)
    (hgone : ∀ id, still id → ¬ gone id) : Undisturbed still own before after where
  there := by
    intro id hid
    rw [← isSome_known?, h.kept id (hgone id hid), isSome_known?]
    exact hthere id hid
  above? := fun id hid => h.above?_of_kept (hgone id hid)
  known? := fun id hid _ => h.kept id (hgone id hid)
  ahead := fun id other _ hprecedes => horder.ahead other id hprecedes
  loose := fun id _ => horder.loose id

/-- Whether some items have among them all that is above them. -/
def Upward (still : Int → Prop) (tree : Tree) : Prop :=
  ∀ id parent, still id → tree.above? id = some parent → still parent

namespace Upward

theorem of_undisturbed (h : Upward still before) (hnext : Undisturbed still own before after) :
    Upward still after :=
  fun id parent hid habove => h id parent hid ((hnext.above? id hid).symm.trans habove)

theorem of_encloses (h : Upward still tree) {ancestor id : Int} (hid : still id)
    (hencloses : tree.Encloses ancestor id) : still ancestor := by
  obtain ⟨steps, hsteps⟩ := hencloses
  induction steps generalizing id with
  | zero => exact Option.some.inj hsteps ▸ hid
  | succ steps ih =>
      rw [climb_succ, Option.bind_eq_some_iff] at hsteps
      obtain ⟨parent, hparent, hrest⟩ := hsteps
      exact ih (h id parent hid hparent) hrest

/-- The ways up from items that stay are the same. -/
theorem encloses (h : Upward still before) (hnext : Undisturbed still own before after)
    {ancestor id : Int} (hid : still id) (hencloses : after.Encloses ancestor id) :
    before.Encloses ancestor id :=
  (Encloses.iff_of_kept h hnext.above? hid).mp hencloses

end Upward

/-- Items none of which is a tag or the content of one, each with all that is above it. -/
structure Sheltered (still : Int → Prop) (tree : Tree) : Prop where
  upward : Upward still tree
  untagged : ∀ id, still id → tree.above? id ≠ some RootId.tags

namespace Sheltered

theorem of_undisturbed (h : Sheltered still before) (hnext : Undisturbed still own before after) :
    Sheltered still after where
  upward := h.upward.of_undisturbed hnext
  untagged := fun id hid habove => h.untagged id hid ((hnext.above? id hid).symm.trans habove)

theorem not_untagged (h : Sheltered still tree) {id : Int} (hid : still id) (uri : String)
    (picked : Int → Prop) : ¬ tree.Untagged uri picked id := by
  rintro ⟨folder, hfolder, -, ⟨row, hrow, hparent, -⟩ | ⟨rfl, -⟩⟩
  · exact h.untagged folder (h.upward id folder hid ((above?_of_known? hrow).trans hparent)) hfolder
  · exact h.untagged id hid hfolder

end Sheltered

end Tree

end SyncedBookmarks
