import SyncedBookmarks.Proofs.Confined

namespace SyncedBookmarks

/-! A record concerns its own item. Away from the tags every other item stays what and where it is,
and before and behind the same siblings, the record's own item among them while it is one. -/

namespace Action

theorem holds_of_bind {action : Action σ ε α} {next : α → Action σ ε β} {state : σ} {P : σ → Prop}
    (herror : ∀ cause middle, action.result state = (.error cause, middle) → P middle)
    (hok : ∀ value middle, action.result state = (.ok value, middle) →
      P ((next value).result middle).2) : P ((action >>= next).result state).2 := by
  rw [result_bind]
  cases houtcome : action.result state with
  | mk outcome middle =>
      cases outcome with
      | ok value => exact hok value middle houtcome
      | error cause => exact herror cause middle houtcome

end Action

namespace Tree

variable {tree before middle after : Tree} {record : Record} {id other folder : Int}

/-- Whether an item is none of the record's business: it is not the record's own, nor below that
when the record is a deletion, nor below the tags. -/
structure Apart (tree : Tree) (record : Record) (id : Int) : Prop where
  there : (tree.row? id).isSome
  other : tree.idOfGuid? record.id ≠ some id
  outside : record.deleted = true → ∀ item, tree.idOfGuid? record.id = some item →
    ¬ tree.Below item id
  untagged : ¬ tree.Below RootId.tags id

/-- Whether two items that stay side by side stay in their order. -/
def SameOrder (before after : Tree) (first second : Int) : Prop :=
  before.above? first = before.above? second → after.above? first = after.above? second →
    (after.Precedes first second ↔ before.Precedes first second) ∧
      (after.Precedes second first ↔ before.Precedes second first)

/-! ### What is above and beside -/

theorem Precedes.isSome_above? (h : tree.Precedes id other) : (tree.above? id).isSome := by
  obtain ⟨row, _, hrow, -, hsome, -⟩ := h
  rwa [Tree.above?, hrow]

theorem Below.of_above? (h : tree.WellFormed) {ancestor : Int}
    (habove : tree.above? id = some folder) (hencloses : tree.Encloses ancestor folder) :
    tree.Below ancestor id := by
  refine ⟨hencloses.of_above? habove, ?_⟩
  rintro rfl
  exact h.not_encloses_parent habove hencloses

theorem Below.above? {ancestor : Int} (h : tree.Below ancestor id)
    (habove : tree.above? id = some folder) : tree.Encloses ancestor folder := by
  rcases h.1.eq_or_above? with heq | ⟨parent, hparent, hup⟩
  · exact absurd heq.symm h.2
  · exact Option.some.inj (hparent.symm.trans habove) ▸ hup

namespace Apart

/-- Beside an item that is apart there is no other than such and the record's own. -/
theorem beside (h : tree.WellFormed) (hid : tree.Apart record id)
    (habove : tree.above? id = some folder) (hbeside : tree.above? other = some folder)
    (hother : tree.idOfGuid? record.id ≠ some other) : tree.Apart record other where
  there := isSome_row?_of_above? hbeside
  other := hother
  outside := fun hdeleted item hitem hbelow =>
    hid.outside hdeleted item hitem (.of_above? h habove (hbelow.above? hbeside))
  untagged := fun hbelow => hid.untagged (.of_above? h habove (hbelow.above? hbeside))

/-- The record's own item is outside the tags if it is beside one that is apart. -/
theorem not_below_tags (h : tree.WellFormed) (hid : tree.Apart record id)
    (habove : tree.above? id = some folder) (hbeside : tree.above? other = some folder) :
    ¬ tree.Below RootId.tags other :=
  fun hbelow => hid.untagged (.of_above? h habove (hbelow.above? hbeside))

/-- Unless the record's item is a folder that stays, all above what is apart is apart. -/
theorem sheltered (h : tree.WellFormed)
    (hitem : ∀ item row, tree.known? item = some row → row.guid = record.id →
      record.deleted = true ∨ row.typeCode = ItemType.bookmark.code) :
    Sheltered (tree.Apart record) tree where
  upward := by
    intro _ parent hid habove
    obtain ⟨row, hrow, hcode⟩ := h.parent_folder _ parent habove
    constructor
    case there =>
      rw [← isSome_known?, hrow]
      rfl
    case other =>
      intro hown
      obtain ⟨found, hfound, hguid⟩ := h.idOfGuid?_iff.mp hown
      rcases hitem parent found hfound hguid with hdeleted | hbookmark
      · exact hid.outside hdeleted parent hown (.of_above? h habove (Encloses.refl tree parent))
      · obtain rfl := Option.some.inj (hrow.symm.trans hfound)
        rw [hcode] at hbookmark
        exact absurd hbookmark (by decide)
    case outside =>
      exact fun hdeleted item hown hbelow =>
        hid.outside hdeleted item hown (.of_above? h habove hbelow.1)
    case untagged => exact fun hbelow => hid.untagged (.of_above? h habove hbelow.1)
  untagged := fun _ hid habove =>
    hid.untagged (.of_above? h habove (Encloses.refl tree RootId.tags))

end Apart

theorem bears_apart (h : tree.WellFormed) :
    BookmarkStore.Bears (tree.Apart record) tree record where
  there := fun _ hid => hid.there
  item := fun _ row hrow hguid hid => hid.other (h.idOfGuid?_iff.mpr ⟨row, hrow, hguid⟩)
  sheltered := Apart.sheltered h

/-! ### Taking an item away -/

/-- Whether an item is there in both of two trees, and the same. -/
def Retained (before after : Tree) (id : Int) : Prop :=
  ∃ row, before.known? id = some row ∧ after.known? id = some row

/-- Where an item that is there before and after is the same one, so is the way up from it. -/
theorem WellFormed.encloses_iff (h : before.WellFormed) (hafter : after.WellFormed)
    (hsame : ∀ id row row', before.known? id = some row → after.known? id = some row' → row' = row)
    {ancestor : Int} {row row' : Row} (hrow : before.known? id = some row)
    (hrow' : after.known? id = some row') :
    after.Encloses ancestor id ↔ before.Encloses ancestor id := by
  have hkept : Retained before after id := ⟨row, hrow, hsame id row row' hrow hrow' ▸ hrow'⟩
  apply Encloses.iff_of_kept ?_ ?_ hkept
  · intro id folder hid habove
    obtain ⟨row, hrow, hrow'⟩ := hid
    obtain ⟨found, hfound, -⟩ := h.parent_folder id folder habove
    have habove' : after.above? id = some folder := by
      rw [above?_of_known? hrow', ← above?_of_known? hrow, habove]
    obtain ⟨found', hfound', -⟩ := hafter.parent_folder id folder habove'
    exact ⟨found, hfound, hsame folder found found' hfound hfound' ▸ hfound'⟩
  · intro id hid
    obtain ⟨row, hrow, hrow'⟩ := hid
    rw [above?_of_known? hrow', above?_of_known? hrow]

theorem TagsGrown.encloses_iff (h : TagsGrown before after) (hwell : before.WellFormed)
    {ancestor : Int} {row : Row} (hrow : before.known? id = some row) :
    after.Encloses ancestor id ↔ before.Encloses ancestor id := by
  apply hwell.encloses_iff h.wellFormed ?_ hrow (h.kept id row hrow)
  intro other found found' hfound hfound'
  exact Option.some.inj (hfound'.symm.trans (h.kept other found hfound))

theorem Cleared.encloses_of_some {gone : Int → Prop} (h : Cleared gone before after)
    {ancestor : Int}
    {row : Row} (hrow : after.known? id = some row) (hencloses : before.Encloses ancestor id) :
    after.Encloses ancestor id := by
  obtain ⟨steps, hsteps⟩ := hencloses
  induction steps generalizing id row with
  | zero => exact ⟨0, hsteps⟩
  | succ steps ih =>
      rw [climb_succ, ← h.above?_of_kept (h.known?_of_some hrow).1,
        Option.bind_eq_some_iff] at hsteps
      obtain ⟨parent, hparent, hrest⟩ := hsteps
      obtain ⟨found, hfound, -⟩ := h.wellFormed.parent_folder id parent hparent
      exact (ih hfound hrest).of_above? hparent

theorem NewTagRow.below {row : Row} (h : NewTagRow before after id row) (hwell : after.WellFormed)
    (hrow : after.known? id = some row) : after.Below RootId.tags id := by
  obtain ⟨parent, hparent, hplace⟩ := h.parent
  refine .of_above? hwell ((above?_of_known? hrow).trans hparent) ?_
  rcases hplace with rfl | habove
  · exact Encloses.refl after RootId.tags
  · exact (Encloses.refl after RootId.tags).of_above? habove

/-- What is left outside the tags, after some were added, is what was there but the item and all
below it. -/
theorem known?_parted_iff (h : before.WellFormed) (hgrown : TagsGrown before middle)
    (hparted : BookmarkStore.Parted id middle after) (other : Int) (row : Row) :
    (after.known? other = some row ∧ ¬ after.Below RootId.tags other) ↔
      before.known? other = some row ∧ ¬ before.Below RootId.tags other ∧
        ¬ before.Encloses id other := by
  obtain ⟨shed, hshed, hcleared⟩ := hparted
  constructor
  · rintro ⟨hrow, hplace⟩
    obtain ⟨hkept, hmiddle⟩ := hcleared.known?_of_some hrow
    have hbelow : ¬ middle.Below RootId.tags other :=
      fun hbelow => hplace ⟨hcleared.encloses_of_some hrow hbelow.1, hbelow.2⟩
    rcases hgrown.new other row hmiddle with hbefore | hnew
    · refine ⟨hbefore, fun htags => hbelow ?_, fun hup => hkept (.inr ?_)⟩
      · exact ⟨(hgrown.encloses_iff h hbefore).mpr htags.1, htags.2⟩
      · exact (hgrown.encloses_iff h hbefore).mpr hup
    · exact absurd (hnew.below hgrown.wellFormed hmiddle) hbelow
  · rintro ⟨hrow, hplace, houtside⟩
    have hbelow : ¬ middle.Below RootId.tags other :=
      fun hbelow => hplace ⟨(hgrown.encloses_iff h hrow).mp hbelow.1, hbelow.2⟩
    have hkept : ¬ (shed other ∨ middle.Encloses id other) := by
      rintro (hgone | hup)
      · exact hbelow (hshed other hgone)
      · exact houtside ((hgrown.encloses_iff h hrow).mp hup)
    exact ⟨(hcleared.kept other hkept).trans (hgrown.kept other row hrow),
      fun htags => hbelow ⟨hcleared.encloses htags.1, htags.2⟩⟩

end Tree

namespace Places

theorem tagUri_filter (uri : String) (tags : List String) :
    tagUri uri (tags.filter (!·.isEmpty)) = tagUri uri tags := by
  rw [tagUri, tagUri, List.filter_filter]
  simp only [Bool.and_self]

end Places

namespace BookmarkStore

open SyncedBookmarks.Action SyncedBookmarks.Tree

variable {store : BookmarkStore} {record : Record} {id folder : Int}

/-! ### A deletion -/

/-- Where the tags are in place, making a record local adds to them at most. -/
theorem leads_localized {tree : Tree} (h : tree.WellFormed) (htags : tree.IsFolder RootId.tags)
    (record : Record) : Leads (localized record) tree fun made next =>
      TagsGrown tree next ∧ ∃ bmkUri, made = { record with bmkUri } := by
  have hsame : ∃ bmkUri, record = { record with bmkUri } := ⟨record.bmkUri, rfl⟩
  rw [localized]
  split
  · rw [localizeQuery]
    split
    · rename_i uri tag _ _
      rw [← Places.tagUri_filter]
      have huri : validateUri lookupUri = .ok lookupUri := rfl
      refine (leads_onTree (Places.leads_tagUri h huri ?_ (.inr htags))).bind ?_
      · intro given hgiven
        simpa using (List.mem_filter.mp hgiven).2
      · intro _ next hnext
        obtain ⟨folders, hfolders, -⟩ := hnext.grown.wellFormed.children RootId.tags
        refine leads_check_bind hfolders ?_
        split
        · exact leads_pure ⟨hnext.grown, _, rfl⟩
        · exact leads_pure ⟨hnext.grown, hsame⟩
    · exact leads_pure ⟨TagsGrown.refl h, hsame⟩
  · exact leads_pure ⟨TagsGrown.refl h, hsame⟩

/-- The deletion of an item outside the tags comes through. -/
theorem yields_deletion (h : store.tree.WellFormed) (htags : store.tree.IsFolder RootId.tags)
    (hroot : record.id ∉ RootGuid.all) (hdeleted : record.deleted = true)
    (hid : store.tree.idOfGuid? record.id = some id) (hoff : id ≠ RootId.tags)
    (houtside : ¬ store.tree.Below RootId.tags id) :
    (applyIncoming record).Yields store fun _ next =>
      ∃ middle, TagsGrown store.tree middle ∧ Parted id middle next.tree := by
  have hname : RootGuid.all.contains record.id = false := by simpa using hroot
  rw [applyIncoming_eq hname]
  refine Yields.bind (leads_localized h htags record store rfl) ?_
  rintro _ first ⟨⟨hgrown, bmkUri, rfl⟩, -⟩
  obtain ⟨row, hrow, hguid⟩ := h.idOfGuid?_iff.mp hid
  have hfirst := hgrown.kept id row hrow
  have hwell := hgrown.wellFormed
  have hown : first.tree.idOfGuid? record.id = some id :=
    hwell.idOfGuid?_iff.mpr ⟨row, hfirst, hguid⟩
  have hbelow : ¬ first.tree.Below RootId.tags id :=
    fun hbelow => houtside ⟨(hgrown.encloses_iff h hrow).mp hbelow.1, hbelow.2⟩
  have hplace : first.tree.OutsideTags row.parent := by
    intro parent hparent
    have habove := (above?_of_known? hfirst).trans hparent
    constructor
    · rintro rfl
      exact hbelow (.of_above? hwell habove (Encloses.refl _ _))
    · exact fun hup => hbelow (.of_above? hwell habove ((Encloses.refl _ _).of_above? hup))
  refine (yields_read (P := fun _ state => first = state) rfl).bind ?_
  rintro place _ rfl
  change Yields (bringIn { record with bmkUri } place.1 >>= fun _ =>
    settle record.id place.1 place.2) first _
  rw [bringIn_of_deleted (show ({ record with bmkUri } : Record).deleted = true from hdeleted)]
  have houter : ∀ found row', first.tree.known? found = some row' →
      row'.guid = ({ record with bmkUri } : Record).id → first.tree.OutsideTags row'.parent := by
    intro found row' hrow' hguid'
    obtain rfl := hwell.guid_inj found id row' row hrow' hfirst (hguid'.trans hguid.symm)
    rwa [Option.some.inj (hrow'.symm.trans hfirst)]
  refine Yields.bind (leads_remove hwell houter first rfl) ?_
  rintro - second ⟨⟨-, hparted⟩, -⟩
  have hsettled : (settle record.id place.1 place.2).Yields second
      fun _ next => next.tree = second.tree := by
    -- Nothing has the name any more.
    obtain ⟨shed, -, hcleared⟩ := hparted id hown
    have hnone : second.tree.idOfGuid? record.id = none :=
      free_of_cleared hcleared hwell hown (.inr (Encloses.refl _ _))
    exact ⟨_, _, result_settle_of_none hnone _ _, rfl⟩
  refine hsettled.imp ?_
  rintro - next hnext
  exact ⟨first.tree, hgrown, hnext ▸ hparted id hown⟩

/-! ### The record's own item among its siblings -/

/-- Whether an item has either been left alone, with all that a record is not about, or has left its
folder. -/
def StaysOrStrays (record : Record) (id folder : Int) (before : Tree) (store : BookmarkStore) :
    Prop :=
  Spares (fun other => before.Apart record other ∨ other = id)
      (fun other => ¬ before.Apart record other) (fun other => ¬ before.Apart record other) before
      store ∨ Sits (· ≠ folder) id store.tree

/-- A move to another folder leaves the old one, and where there is none nothing happens. -/
theorem updateParent_unchanged_or_strayed {places : Places} (h : places.tree.WellFormed)
    (habove : places.tree.above? id = some folder) (parent : Int) :
    ((updateParent id parent).result places).2 = places ∨
      Sits (· ≠ folder) id ((updateParent id parent).result places).2.tree := by
  have hread : updateParent id parent = (Places.check (·.parentOf? id) >>= fun above =>
      if above ≠ some parent then Places.moveItem id parent Places.atEnd else pure ()) := rfl
  rw [hread, result_bind, Places.result_checked, h.parentOf?, habove]
  dsimp only
  split
  · rename_i hmoves
    by_cases hnot : ∀ row, places.tree.row? id = some row → places.tree.IsFolder parent →
        places.tree.Encloses id parent
    · obtain ⟨cause, hresult⟩ := Places.result_moveItem_of_not h hnot Places.atEnd
      exact .inl (by rw [hresult])
    · push Not at hnot
      obtain ⟨row, hrow, hfolder, houtside⟩ := hnot
      obtain ⟨-, -, hnext⟩ :=
        (Places.leads_moveItem h hrow hfolder houtside Places.atEnd places rfl).result
      refine .inr ?_
      rw [hnext]
      refine ⟨h.moved hrow hfolder houtside Places.atEnd, ?_, ?_⟩
      · rw [nextId_moved]
        exact (h.id_bounds id row.unplaced (Tree.known?_of_row? hrow)).2
      · rw [above?_moved_self hrow]
        rintro place hplace rfl
        exact hmoves hplace.symm
  · exact .inl rfl

section Siblings

variable {tree : Tree} {other : Int}

/-- An item beside the record's own that the record is not about. -/
structure Siblings (tree : Tree) (record : Record) (id other folder : Int) : Prop where
  wellFormed : tree.WellFormed
  own : tree.idOfGuid? record.id = some id
  apart : tree.Apart record other
  beside : tree.above? other = some folder
  above : tree.above? id = some folder

theorem Siblings.sheltered (h : Siblings tree record id other folder) {row : Row}
    (hrow : tree.known? id = some row) (hcode : row.typeCode = ItemType.bookmark.code) :
    Sheltered (fun item => tree.Apart record item ∨ item = id) tree := by
  have hsheltered : Sheltered (tree.Apart record) tree := by
    refine Apart.sheltered h.wellFormed fun item found hfound hguid => .inr ?_
    obtain rfl : item = id := Option.some.inj
      ((h.wellFormed.idOfGuid?_iff.mpr ⟨found, hfound, hguid⟩).symm.trans h.own)
    rwa [Option.some.inj (hfound.symm.trans hrow)]
  have hfolder : tree.Apart record folder := hsheltered.upward other folder h.apart h.beside
  constructor
  case upward =>
    rintro item parent (hitem | rfl) habove
    · exact .inl (hsheltered.upward item parent hitem habove)
    · exact .inl (Option.some.inj (h.above.symm.trans habove) ▸ hfolder)
  case untagged =>
    rintro item (hitem | rfl) habove
    · exact hsheltered.untagged item hitem habove
    · exact hsheltered.untagged other h.apart
        (h.beside.trans (h.above.symm.trans habove))

theorem Siblings.keeps_updateFields (h : Siblings tree record id other folder) (made : Record) :
    (updateFields id made).Keeps (StaysOrStrays record id folder tree) := by
  rintro store (hstays | hstrayed)
  · refine .inl (keeps_updateFields_spares ?_ ?_ ?_ made store hstays)
    · exact fun hid => hid.other h.own
    · obtain ⟨row, hrow, -⟩ := h.wellFormed.idOfGuid?_iff.mp h.own
      exact (h.wellFormed.id_bounds id row hrow).2
    · exact fun row => h.sheltered
  · exact .inr (hstrayed.of_inherits (inherits_updateFields hstrayed.wellFormed hstrayed.old made))

theorem Siblings.keeps_settle (h : Siblings tree record id other folder) (parent : Option Int)
    (orphanOf : Option String) :
    (settle record.id parent orphanOf).Keeps (StaysOrStrays record id folder tree) := by
  intro store hstore
  cases hitem : store.tree.idOfGuid? record.id with
  | none =>
      rw [result_settle_of_none hitem]
      exact hstore.imp (fun hstays => hstays) fun hstrayed => hstrayed
  | some item =>
      rw [result_settle_of_some hitem]
      rcases hstore with hstays | hstrayed
      · have hwell : store.tree.WellFormed := hstays.wellFormed
        have hnot : ¬ tree.Apart record item := by
          intro hapart
          obtain ⟨row, hrow, hguid⟩ := hwell.idOfGuid?_iff.mp hitem
          refine hapart.other (h.wellFormed.idOfGuid?_iff.mpr ⟨row, ?_, hguid⟩)
          have hkept := hstays.undisturbed.known? item (.inl hapart) fun hnot => hnot hapart
          exact hkept.symm.trans hrow
        exact .inl (keeps_onTree_spares (keeps_markOrphan_spares (fun _ => hnot) hnot parent
          orphanOf) (store.forget record.id) hstays)
      · exact .inr (keeps_sits_of_writes (lasting_markOrphan item parent orphanOf)
          (keeps_markOrphan item parent orphanOf) store.places hstrayed)

theorem Siblings.update (h : Siblings tree record id other folder) (made : Record)
    (hstore : Spares (fun item => tree.Apart record item ∨ item = id)
      (fun item => ¬ tree.Apart record item) (fun item => ¬ tree.Apart record item) tree store)
    (hid : store.tree.idOfGuid? made.id = some id) (parent : Option Int) :
    StaysOrStrays record id folder tree ((BookmarkStore.update made parent).result store).2 := by
  rw [result_update_of_some hid]
  have hmoved : StaysOrStrays record id folder tree
      ((parent.forM fun parent => onTree (updateParent id parent)).result store).2 := by
    cases parent with
    | none => exact .inl hstore
    | some parent =>
        have hwell : store.tree.WellFormed := hstore.wellFormed
        have habove : store.tree.above? id = some folder :=
          (hstore.undisturbed.above? id (.inr rfl)).trans h.above
        rcases updateParent_unchanged_or_strayed hwell habove parent with hsame | hstrayed
        · refine .inl ?_
          change Places.Spares _ _ _ tree ((updateParent id parent).result store.places).2
          rw [hsame]
          exact hstore
        · exact .inr hstrayed
  refine holds_of_bind (fun _ middle hresult => ?_) fun _ middle hresult => ?_
  all_goals rw [hresult] at hmoved
  · exact hmoved
  · exact h.keeps_updateFields made middle hmoved

/-- Whatever comes of a record, its item stays where it stood, or it no longer stands there. -/
theorem Siblings.applyIncoming (h : Siblings store.tree record id other folder)
    (hroots : store.tree.RootsInPlace) :
    StaysOrStrays record id folder store.tree
      ((BookmarkStore.applyIncoming record).result store).2 := by
  have hthere : ∀ item, store.tree.Apart record item ∨ item = id →
      (store.tree.row? item).isSome := by
    rintro item (hitem | rfl)
    · exact hitem.there
    · exact isSome_row?_of_above? h.above
  have hstart : Spares (fun item => store.tree.Apart record item ∨ item = id)
      (fun item => ¬ store.tree.Apart record item) (fun item => ¬ store.tree.Apart record item)
      store.tree store := Places.Spares.refl h.wellFormed hthere
  by_cases hroot : record.id ∈ RootGuid.all
  · rw [BookmarkStore.applyIncoming, if_pos (by simpa using hroot)]
    exact .inl hstart
  obtain ⟨row, hrow, hguid⟩ := h.wellFormed.idOfGuid?_iff.mp h.own
  cases hdeleted : record.deleted with
  | true =>
      have htags := hroots.named.isFolder_of_mem h.wellFormed tags_mem_rootNames
      have hoff := hroots.named.ne_of_guid tags_mem_rootNames hrow (hguid ▸ hroot)
      obtain ⟨-, -, middle, hgrown, shed, -, hcleared⟩ :=
        (yields_deletion h.wellFormed htags hroot hdeleted h.own hoff
          (h.apart.not_below_tags h.wellFormed h.beside h.above)).result
      refine .inr ⟨hcleared.wellFormed, ?_, ?_⟩
      · rw [hcleared.nextId]
        exact (h.wellFormed.id_bounds id row hrow).2.trans_le hgrown.nextId_le
      · rw [above?_eq_known?, hcleared.absent id (.inr (Encloses.refl middle id))]
        exact fun _ hnone => by cases hnone
  | false =>
      have hname : RootGuid.all.contains record.id = false := by simpa using hroot
      obtain ⟨hlocal, hmade⟩ := ensures_localized record store hstart
      have hkept := kept_localized record h.wellFormed hrow
      cases houtcome : (localized record).result store with
      | mk outcome first =>
          rw [houtcome] at hlocal hmade hkept
          cases outcome with
          | error cause =>
              rw [result_applyIncoming_of_error hname houtcome]
              exact .inl hlocal
          | ok made =>
              obtain ⟨bmkUri, rfl⟩ := hmade made rfl
              have hown : first.tree.idOfGuid? record.id = some id :=
                hlocal.wellFormed.idOfGuid?_iff.mpr ⟨row, hkept, hguid⟩
              have hupdated := h.update { record with bmkUri } hlocal hown
                (destination first.tree record.parentid).1
              rw [← result_bringIn_of_some (show ({ record with bmkUri } : Record).deleted = false
                from hdeleted) hown] at hupdated
              rw [result_applyIncoming_of_ok hname houtcome]
              refine holds_of_bind (fun _ second hresult => ?_) fun _ second hresult => ?_
              all_goals rw [hresult] at hupdated
              · exact hupdated
              · exact h.keeps_settle _ _ second hupdated

end Siblings

/-! ### All items -/

/-- An item that a record is not about stays in order with all that are beside it. -/
theorem sameOrder_applyIncoming (h : store.tree.WellFormed) (hroots : store.tree.RootsInPlace)
    (hid : store.tree.Apart record id) (other : Int) :
    SameOrder store.tree ((applyIncoming record).result store).2.tree id other := by
  have hbears : Bears (store.tree.Apart record) store.tree record := bears_apart h
  have hleaves := leaves_applyIncoming h hbears
  have hkept := hleaves.undisturbed.above? id hid
  generalize hnext : ((applyIncoming record).result store).2 = next at hleaves hkept ⊢
  have hwell : next.tree.WellFormed := hleaves.wellFormed
  replace hkept : next.tree.above? id = store.tree.above? id := hkept
  intro hbeside hstill
  cases hfolder : store.tree.above? id with
  | none =>
      -- Without a folder there is no order to keep.
      have hloose : ∀ {tree : Tree}, tree.above? id = none → tree.above? id = tree.above? other →
          ¬ tree.Precedes id other ∧ ¬ tree.Precedes other id := by
        intro tree hnone hsame
        constructor <;> intro hprecedes <;> have hsome := hprecedes.isSome_above?
        · simp [hnone] at hsome
        · simp [← hsame, hnone] at hsome
      obtain ⟨hfirst, hsecond⟩ := hloose hfolder hbeside
      obtain ⟨hfirst', hsecond'⟩ := hloose (hkept.trans hfolder) hstill
      exact ⟨iff_of_false hfirst' hfirst, iff_of_false hsecond' hsecond⟩
  | some folder =>
      have hother := hbeside.symm.trans hfolder
      -- The record's own item may have been written to; it is in order if it is still there.
      by_cases hown : store.tree.idOfGuid? record.id = some other
      · have hplace := Siblings.applyIncoming ⟨h, hown, hid, hfolder, hother⟩ hroots
        rw [hnext] at hplace
        rcases hplace with hstays | hstrayed
        · exact ⟨hstays.undisturbed.precedes_iff hwell (.inr rfl) (.inl hid),
            hstays.undisturbed.precedes_iff hwell (.inl hid) (.inr rfl)⟩
        · exact absurd rfl (hstrayed.above folder (hstill.symm.trans (hkept.trans hfolder)))
      · have hapart := hid.beside h hfolder hother hown
        exact ⟨hleaves.undisturbed.precedes_iff hwell hapart hid,
          hleaves.undisturbed.precedes_iff hwell hid hapart⟩

/-- A record touches its own item and no other outside the tags, whatever comes of it; and the
deletion of an item outside the tags comes through, and takes away the item with all below it and
nothing else. -/
theorem record_touches_own (h : store.Reachable) (hroots : store.tree.RootsInPlace)
    (record : Record) :
    (∀ id, store.tree.Apart record id →
      ((applyIncoming record).result store).2.tree.known? id = store.tree.known? id ∧
        ∀ other, SameOrder store.tree ((applyIncoming record).result store).2.tree id other) ∧
    (record.deleted = true → record.id ∉ RootGuid.all →
      ∀ id, store.tree.idOfGuid? record.id = some id → ¬ store.tree.Below RootId.tags id →
        ((applyIncoming record).result store).1 = .ok () ∧
          ∀ other row,
            (((applyIncoming record).result store).2.tree.known? other = some row ∧
              ¬ ((applyIncoming record).result store).2.tree.Below RootId.tags other) ↔
            store.tree.known? other = some row ∧ ¬ store.tree.Below RootId.tags other ∧
              ¬ store.tree.Encloses id other) := by
  have hwell := h.wellFormed.tree
  constructor
  · intro id hid
    exact ⟨(leaves_applyIncoming hwell (bears_apart hwell)).known? hid,
      sameOrder_applyIncoming hwell hroots hid⟩
  · intro hdeleted hroot id hid houtside
    obtain ⟨row, hrow, hguid⟩ := hwell.idOfGuid?_iff.mp hid
    obtain ⟨_, hok, middle, hgrown, hparted⟩ := (yields_deletion hwell
      (hroots.named.isFolder_of_mem hwell tags_mem_rootNames) hroot hdeleted hid
      (hroots.named.ne_of_guid tags_mem_rootNames hrow (hguid ▸ hroot)) houtside).result
    exact ⟨hok, known?_parted_iff hwell hgrown hparted⟩

theorem apart_nestedStore : nestedStore.tree.Apart (Record.tombstone "b") 6 := by
  have hwell := reachable_nestedStore.wellFormed.tree
  have hother : nestedStore.tree.idOfGuid? "b" = some 7 := by cbv
  constructor
  case there => cbv
  case other => exact fun hown => by cases hother.symm.trans hown
  case outside =>
    rintro - item hown hbelow
    obtain rfl := Option.some.inj (hother.symm.trans hown)
    exact hwell.not_encloses_of_isWithin (by cbv) hbelow.1
  case untagged => exact fun hbelow => hwell.not_encloses_of_isWithin (by cbv) hbelow.1

/-- The deletion of a folder within a folder. -/
theorem inner_folder_deleted :
    nestedStore.Reachable ∧ nestedStore.tree.RootsInPlace ∧
      ((applyIncoming (Record.tombstone "b")).result nestedStore).1 = .ok () ∧
      ((applyIncoming (Record.tombstone "b")).result nestedStore).2.tree.known? 6 =
        nestedStore.tree.known? 6 := by
  have hroots := receives_turnedRecords.roots
  have htouches := record_touches_own reachable_nestedStore hroots (Record.tombstone "b")
  have houtside : ¬ nestedStore.tree.Below RootId.tags 7 := fun hbelow =>
    reachable_nestedStore.wellFormed.tree.not_encloses_of_isWithin (by cbv) hbelow.1
  exact ⟨reachable_nestedStore, hroots, (htouches.2 rfl (by decide) 7 (by cbv) houtside).1,
    (htouches.1 6 apart_nestedStore).1⟩

end BookmarkStore

end SyncedBookmarks
