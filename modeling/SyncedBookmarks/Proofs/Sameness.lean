import SyncedBookmarks.Proofs.Amending
import SyncedBookmarks.Proofs.Recreating
import SyncedBookmarks.Proofs.TagReplacement

namespace SyncedBookmarks

/-! Trees that are the same to see: outside the tags they have the same items in the same order, and
every URI has the same tags. -/

namespace Tree

structure Same (before after : Tree) : Prop where
  outside : ∀ id, ((after.known? id).isSome ∧ ¬ after.Below RootId.tags id) ↔
    (before.known? id).isSome ∧ ¬ before.Below RootId.tags id
  rows : ∀ id row row', before.known? id = some row → ¬ before.Below RootId.tags id →
    after.known? id = some row' → row.Same row'
  forest : ∀ folder, before.IsFolder folder → ¬ before.Encloses RootId.tags folder →
    after.forest folder = before.forest folder
  tagsOf : ∀ uri, after.tagsOf uri = before.tagsOf uri

variable {tree before middle after : Tree} {id folder : Int} {row last : Row}

theorem Same.refl (tree : Tree) : tree.Same tree where
  outside := fun _ => Iff.rfl
  rows := by
    intro id row row' hrow _ hrow'
    exact Option.some.inj (hrow.symm.trans hrow') ▸ Row.Same.refl row
  forest := fun _ _ _ => rfl
  tagsOf := fun _ => rfl

theorem Same.exists_row (h : before.Same after) (hrow : before.known? id = some row)
    (houtside : ¬ before.Below RootId.tags id) :
    ∃ row', after.known? id = some row' ∧ row.Same row' ∧ ¬ after.Below RootId.tags id := by
  have hthere : (before.known? id).isSome := by rw [hrow, Option.isSome_some]
  obtain ⟨hafter, hplace⟩ := (h.outside id).mpr ⟨hthere, houtside⟩
  obtain ⟨row', hrow'⟩ := Option.isSome_iff_exists.mp hafter
  exact ⟨row', hrow', h.rows id row row' hrow houtside hrow', hplace⟩

theorem Same.trans (h : before.Same middle) (h' : middle.Same after) : before.Same after where
  outside := fun id => (h'.outside id).trans (h.outside id)
  rows := by
    intro id row row' hrow houtside hrow'
    obtain ⟨row₁, hrow₁, hsame, hplace⟩ := h.exists_row hrow houtside
    exact hsame.trans (h'.rows id row₁ row' hrow₁ hplace hrow')
  forest := by
    intro folder hfolder houtside
    obtain ⟨row, hrow, hcode⟩ := hfolder
    obtain ⟨row₁, hrow₁, hsame, hplace⟩ := h.exists_row hrow fun hbelow => houtside hbelow.1
    have hne : folder ≠ RootId.tags := by
      rintro rfl
      exact houtside (Encloses.refl before RootId.tags)
    rw [h'.forest folder ⟨row₁, hrow₁, hsame.typeCode.trans hcode⟩
      fun hencloses => hplace ⟨hencloses, hne⟩, h.forest folder ⟨row, hrow, hcode⟩ houtside]
  tagsOf := fun uri => (h'.tagsOf uri).trans (h.tagsOf uri)

/-- Where a folder has the same children and none has come to stand before another, they are in the
same order. -/
theorem forest_eq_of_ahead (h : before.WellFormed) (hafter : after.WellFormed)
    (habove : ∀ id, after.above? id = some folder ↔ before.above? id = some folder)
    (hahead : ∀ first second, before.above? second = some folder → after.Precedes first second →
      before.Precedes first second) : after.forest folder = before.forest folder := by
  have hsorted : (after.forest folder).Pairwise before.Precedes := by
    apply (hafter.orderly.pairwise_forest folder).imp_of_mem
    intro first second _ hsecond hprecedes
    exact hahead first second ((habove second).mp (hafter.orderly.mem_forest_iff.mp hsecond))
      hprecedes
  refine eq_of_pairwise_precedes hsorted (h.orderly.pairwise_forest folder) fun id => ?_
  rw [hafter.orderly.mem_forest_iff, habove, h.orderly.mem_forest_iff]

/-- An item that looks the same makes no difference. -/
theorem Recast.same (h : Recast id last before after) (hwell : before.WellFormed)
    (hrow : before.known? id = some row) (hsame : row.Same last) : before.Same after where
  outside := by
    intro other
    have hbelow : after.Below RootId.tags other ↔ before.Below RootId.tags other :=
      and_congr (Encloses.congr h.above?) Iff.rfl
    rw [hbelow, h.known?]
    split
    · rename_i heq
      rw [heq, hrow, Option.isSome_some, Option.isSome_some]
    · rfl
  rows := by
    intro other found found' hfound _ hfound'
    rw [h.known?] at hfound'
    split at hfound'
    · rename_i heq
      obtain rfl := Option.some.inj (hrow.symm.trans (heq ▸ hfound))
      exact Option.some.inj hfound' ▸ hsame
    · exact Option.some.inj (hfound.symm.trans hfound') ▸ Row.Same.refl found
  forest := by
    intro folder _ _
    apply forest_eq_of_ahead hwell h.wellFormed
    · intro other
      rw [h.above?]
    · exact fun first second _ hprecedes => (h.precedes first second).mp hprecedes
  tagsOf := by
    intro uri
    exact (h.toRewritten.sameTags hrow hsame.parent hsame.url hsame.title uri).tagsOf_eq hwell
      h.wellFormed

/-- The way up from an item that stays is the same when tags change. -/
theorem Retagged.encloses_iff (h : Retagged before after) (hwell : before.WellFormed)
    (hrow : before.known? id = some row) (hrow' : after.known? id = some row) {ancestor : Int} :
    after.Encloses ancestor id ↔ before.Encloses ancestor id :=
  hwell.encloses_iff h.wellFormed (fun _ _ _ => h.known?_of_old hwell) hrow hrow'

theorem below_of_tagOwned (h : tree.WellFormed) (howned : tree.TagOwned id) :
    tree.Below RootId.tags id := by
  rcases howned with ⟨row, folder, hrow, -, hparent, habove⟩ | ⟨habove, -⟩
  · exact Below.of_above? h ((above?_of_known? hrow).trans hparent)
      ((Encloses.refl tree RootId.tags).of_above? habove)
  · exact Below.of_above? h habove (Encloses.refl tree RootId.tags)

theorem Retagged.known?_of_outside (h : Retagged before after) (hwell : before.WellFormed)
    (hrow : before.known? id = some row) (houtside : ¬ before.Below RootId.tags id) :
    after.known? id = some row :=
  h.kept id row hrow fun howned => houtside (below_of_tagOwned hwell howned)

/-- What is outside the tags stays there when they change, and nothing comes to be there. -/
theorem Retagged.outside_iff (h : Retagged before after) (hwell : before.WellFormed) (id : Int)
    (row : Row) : (after.known? id = some row ∧ ¬ after.Below RootId.tags id) ↔
      before.known? id = some row ∧ ¬ before.Below RootId.tags id := by
  constructor
  · intro hid
    obtain ⟨hrow, houtside⟩ := hid
    rcases h.new id row hrow with hold | hnew
    · exact ⟨hold, fun hbelow =>
        houtside ⟨(h.encloses_iff hwell hold hrow).mpr hbelow.1, hbelow.2⟩⟩
    · exact absurd (hnew.below h.wellFormed hrow) houtside
  · intro hid
    obtain ⟨hrow, houtside⟩ := hid
    have hrow' := h.known?_of_outside hwell hrow houtside
    exact ⟨hrow', fun hbelow =>
      houtside ⟨(h.encloses_iff hwell hrow hrow').mp hbelow.1, hbelow.2⟩⟩

/-- Where tags change and every URI has the same ones in the end, nothing is to be seen. -/
theorem Retagged.same {own : Int → Prop} (h : Retagged before after) (hwell : before.WellFormed)
    (hstill : Undisturbed (fun id => (before.row? id).isSome ∧ ¬ before.Below RootId.tags id) own
      before after) (htags : ∀ uri, after.tagsOf uri = before.tagsOf uri) : before.Same after where
  outside := by
    intro id
    have hiff := h.outside_iff hwell id
    simp only [Option.isSome_iff_exists, ← exists_and_right, hiff]
  rows := by
    intro id row row' hrow houtside hrow'
    obtain rfl := Option.some.inj ((h.known?_of_outside hwell hrow houtside).symm.trans hrow')
    exact Row.Same.refl row
  forest := by
    intro folder hfolder houtside
    obtain ⟨row, hrow, -⟩ := hfolder
    have hplace : ¬ after.Encloses RootId.tags folder := by
      intro hencloses
      have hrow' := h.known?_of_outside hwell hrow fun hbelow => houtside hbelow.1
      exact houtside ((h.encloses_iff hwell hrow hrow').mp hencloses)
    have hback : ∀ id, before.above? id = some folder →
        (before.row? id).isSome ∧ ¬ before.Below RootId.tags id := by
      intro id habove
      exact ⟨isSome_row?_of_above? habove, fun hbelow => houtside (hbelow.above? habove)⟩
    apply forest_eq_of_ahead hwell h.wellFormed
    · intro id
      constructor
      · intro habove
        obtain ⟨found, hfound, hparent⟩ := known?_of_above? habove
        obtain ⟨hold, -⟩ := (h.outside_iff hwell id found).mp
          ⟨hfound, fun hbelow => hplace (hbelow.above? habove)⟩
        exact (above?_of_known? hold).trans hparent
      · intro habove
        rw [hstill.above? id (hback id habove), habove]
    · intro first second hsecond hprecedes
      exact hstill.ahead second first (hback second hsecond) hprecedes
  tagsOf := htags

end Tree

end SyncedBookmarks
