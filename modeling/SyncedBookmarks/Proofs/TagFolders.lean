import Mathlib.Data.Finset.Sort
import SyncedBookmarks.Proofs.FolderOrder
import SyncedBookmarks.Proofs.Portraits

namespace SyncedBookmarks

/-! The folders of the tags. Of several with one title the first one is the tag's, and it stays the
first while tags are added and others are taken away. -/

namespace Tree

/-- Whether an item is a folder in the root for tags with a tag as its title. -/
def IsTag (tree : Tree) (tag : String) (id : Int) : Prop :=
  ∃ row, tree.known? id = some row ∧ row.parent = some RootId.tags ∧
    row.typeCode = ItemType.folder.code ∧ row.title = some tag

structure FirstTag (tree : Tree) (tag : String) (id : Int) : Prop where
  isTag : tree.IsTag tag id
  first : ∀ other, tree.IsTag tag other → ¬ tree.Precedes other id

/-- Whether something is in everything that is in the root for tags. -/
def NoneEmpty (tree : Tree) : Prop :=
  ∀ folder, tree.above? folder = some RootId.tags → ∃ id, tree.above? id = some folder

/-- Whether nothing but folders is in the root for tags. -/
def OnlyTags (tree : Tree) : Prop :=
  ∀ id row, tree.known? id = some row → row.parent = some RootId.tags →
    row.typeCode = ItemType.folder.code

variable {tree before middle after : Tree} {tag uri : String} {id other folder : Int}

theorem IsTag.above? (h : tree.IsTag tag id) : tree.above? id = some RootId.tags := by
  obtain ⟨row, hrow, hparent, -⟩ := h
  exact (above?_of_known? hrow).trans hparent

theorem IsTag.isFolder (h : tree.IsTag tag id) : tree.IsFolder id := by
  obtain ⟨row, hrow, -, hcode, -⟩ := h
  exact ⟨row, hrow, hcode⟩

theorem IsTag.tagTitle (h : tree.IsTag tag id) : tree.tagTitle id = tag := by
  obtain ⟨row, hrow, -, -, htitle⟩ := h
  rw [Tree.tagTitle, hrow, Option.bind_some, htitle, Option.getD_some]

theorem IsTag.congr (h : tree.IsTag tag id) (hsame : after.known? id = tree.known? id) :
    after.IsTag tag id := by
  obtain ⟨row, hrow, hrest⟩ := h
  exact ⟨row, hsame.trans hrow, hrest⟩

theorem Holds.exists_above? (h : tree.Holds folder uri) : ∃ id, tree.above? id = some folder := by
  obtain ⟨id, row, hrow, hparent, -⟩ := h
  exact ⟨id, (above?_of_known? hrow).trans hparent⟩

theorem FirstTag.unique (h : tree.WellFormed) (hfirst : tree.FirstTag tag id)
    (hother : tree.FirstTag tag other) : id = other := by
  by_contra hne
  rcases h.precedes_or_precedes hne hfirst.isTag.above? hother.isTag.above? with hforth | hback
  · exact hother.first id hfirst.isTag hforth
  · exact hfirst.first other hother.isTag hback

/-- Looking for a tag among the children finds the first one. -/
theorem WellFormed.find?_eq_some_iff (h : tree.WellFormed) {items : List Item}
    (hitems : tree.children RootId.tags = .ok items) {wanted : Item → Bool}
    (hwanted : ∀ item ∈ items, wanted item = true ↔ tree.IsTag tag item.id) :
    (items.find? wanted).map (·.id) = some id ↔ tree.FirstTag tag id := by
  obtain ⟨found, hfound, hids, -⟩ := h.refines RootId.tags
  obtain rfl := Except.ok.inj (hitems.symm.trans hfound)
  have horder : (items.map (·.id)).Pairwise tree.Precedes :=
    hids ▸ h.orderly.pairwise_forest RootId.tags
  have hmem : ∀ other, tree.IsTag tag other → ∃ item ∈ items, item.id = other := by
    intro other hother
    exact List.mem_map.mp ((h.ids_children hitems other).mpr hother.above?)
  have hforth : ∀ item, items.find? wanted = some item → tree.FirstTag tag item.id := by
    intro item hitem
    obtain ⟨hmatch, earlier, later, hsplit, hearlier⟩ := List.find?_eq_some_iff_append.mp hitem
    refine ⟨(hwanted item (List.mem_of_find?_eq_some hitem)).mp hmatch, ?_⟩
    intro other hother hprecedes
    obtain ⟨second, hsecond, rfl⟩ := hmem other hother
    have hagain := (hwanted second hsecond).mpr hother
    rw [hsplit, List.mem_append, List.mem_cons] at hsecond
    rcases hsecond with hsecond | rfl | hsecond
    · have hmissed := hearlier second hsecond
      rw [hagain] at hmissed
      exact absurd hmissed (by decide)
    · exact hprecedes.asymm hprecedes
    · rw [hsplit, List.map_append, List.map_cons] at horder
      have hbehind := (List.pairwise_cons.mp (List.pairwise_append.mp horder).2.1).1 second.id
        (List.mem_map_of_mem hsecond)
      exact hprecedes.asymm hbehind
  constructor
  · intro hfind
    obtain ⟨item, hitem, rfl⟩ := Option.map_eq_some_iff.mp hfind
    exact hforth item hitem
  · intro hfirst
    obtain ⟨item, hitem, rfl⟩ := hmem id hfirst.isTag
    cases hfind : items.find? wanted with
    | none =>
        exact absurd ((hwanted item hitem).mpr hfirst.isTag) (List.find?_eq_none.mp hfind item hitem)
    | some found => rw [Option.map_some, (hforth found hfind).unique h hfirst]

theorem WellFormed.isTag_iff (h : tree.WellFormed) {items : List Item}
    (hitems : tree.children RootId.tags = .ok items) {item : Item} (hitem : item ∈ items) :
    (decide (item.type = .folder) && item.title == some tag) = true ↔ tree.IsTag tag item.id := by
  obtain ⟨row, hrow, hparent, -, hcode, htitle, -⟩ := h.of_mem_children hitems hitem
  rw [Bool.and_eq_true, decide_eq_true_eq, beq_iff_eq]
  constructor
  · rintro ⟨htype, hsame⟩
    exact ⟨row, hrow, hparent, by rw [hcode, htype], htitle.trans hsame⟩
  · rintro ⟨found, hfound, -, hfolder, hsame⟩
    obtain rfl := Option.some.inj (hrow.symm.trans hfound)
    exact ⟨ItemType.code_inj (hcode.symm.trans hfolder), htitle.symm.trans hsame⟩

theorem WellFormed.exists_firstTag (h : tree.WellFormed) (htag : tree.IsTag tag id) :
    ∃ first, tree.FirstTag tag first := by
  obtain ⟨items, hitems, -⟩ := h.children RootId.tags
  obtain ⟨item, hitem, rfl⟩ := List.mem_map.mp ((h.ids_children hitems id).mpr htag.above?)
  have hwanted : ∀ item ∈ items,
      (decide (item.type = .folder) && item.title == some tag) = true ↔ tree.IsTag tag item.id :=
    fun item hitem => h.isTag_iff hitems hitem
  have hfound : (items.find? fun item => item.type = .folder && item.title == some tag).isSome :=
    List.find?_isSome.mpr ⟨item, hitem, (hwanted item hitem).mpr htag⟩
  obtain ⟨first, hfirst⟩ := Option.isSome_iff_exists.mp hfound
  exact ⟨first.id, (h.find?_eq_some_iff hitems hwanted).mp (by rw [hfirst, Option.map_some])⟩

/-! ### A new item behind all others -/

theorem isTag_inserted_iff (h : tree.WellFormed) {parent index : Int} {type : ItemType}
    {title url : Option String} :
    (tree.inserted parent index type title url).IsTag tag id ↔
      tree.IsTag tag id ∨
        (id = tree.nextId ∧ parent = RootId.tags ∧ type = .folder ∧ title = some tag) := by
  constructor
  · rintro ⟨row, hrow, hparent, hcode, htitle⟩
    rw [h.known?_inserted] at hrow
    split at hrow
    · rename_i hnew
      obtain rfl := Option.some.inj hrow
      exact .inr ⟨hnew, Option.some.inj hparent, ItemType.code_inj hcode, htitle⟩
    · exact .inl ⟨row, hrow, hparent, hcode, htitle⟩
  · rintro (hold | ⟨rfl, rfl, rfl, rfl⟩)
    · have ⟨row, hrow, _⟩ := hold
      have hlt := (h.id_bounds id row hrow).2
      exact hold.congr (by rw [h.known?_inserted, if_neg (by omega)])
    · exact ⟨_, by rw [h.known?_inserted, if_pos rfl], rfl, rfl, rfl⟩

theorem FirstTag.inserted (hfirst : tree.FirstTag tag id) (h : tree.WellFormed) (parent : Int)
    (type : ItemType) (title url : Option String) :
    (tree.inserted parent Places.atEnd type title url).FirstTag tag id := by
  have hthere : ∀ place, place = id → (tree.row? place).isSome := by
    rintro place rfl
    exact isSome_row?_of_above? hfirst.isTag.above?
  have hstill : Undisturbed (fun place => place = id) (fun _ => True) tree
      (tree.inserted parent Places.atEnd type title url) :=
    undisturbed_inserted h hthere parent type title url
  refine ⟨(isTag_inserted_iff h).mpr (.inl hfirst.isTag), ?_⟩
  intro other hother hprecedes
  have hbefore := hstill.ahead id other rfl hprecedes
  rcases (isTag_inserted_iff h).mp hother with hold | ⟨rfl, -⟩
  · exact hfirst.first other hold hbefore
  · obtain ⟨row, -, hrow, -⟩ := hbefore
    rw [known?_eq_none_iff.mp h.known?_nextId] at hrow
    cases hrow

theorem firstTag_nextId (h : tree.WellFormed) (hnone : ∀ id, ¬ tree.IsTag tag id) (index : Int) :
    (tree.inserted RootId.tags index .folder (some tag) none).FirstTag tag tree.nextId := by
  refine ⟨(isTag_inserted_iff h).mpr (.inr ⟨rfl, rfl, rfl, rfl⟩), ?_⟩
  intro other hother hprecedes
  rcases (isTag_inserted_iff h).mp hother with hold | ⟨rfl, -⟩
  · exact hnone other hold
  · exact hprecedes.asymm hprecedes

theorem OnlyTags.inserted (honly : tree.OnlyTags) (h : tree.WellFormed) {parent index : Int}
    {type : ItemType} {title url : Option String} (hnew : parent = RootId.tags → type = .folder) :
    (tree.inserted parent index type title url).OnlyTags := by
  intro id row hrow hparent
  rw [h.known?_inserted] at hrow
  split at hrow
  · obtain rfl := Option.some.inj hrow
    rw [← hnew (Option.some.inj hparent)]
    rfl
  · exact honly id row hrow hparent

/-! ### Others taken away -/

theorem OnlyTags.cleared {gone : Int → Prop} (honly : tree.OnlyTags)
    (hcleared : Cleared gone tree after) : after.OnlyTags :=
  fun id row hrow => honly id row (hcleared.known?_of_some hrow).2

theorem FirstTag.cleared {gone : Int → Prop} (hfirst : tree.FirstTag tag id)
    (hcleared : Cleared gone tree after) (horder : InOrder tree after) (hkept : ¬ gone id) :
    after.FirstTag tag id := by
  refine ⟨hfirst.isTag.congr (hcleared.kept id hkept), ?_⟩
  rintro other ⟨row, hrow, hrest⟩ hprecedes
  exact hfirst.first other ⟨row, (hcleared.known?_of_some hrow).2, hrest⟩
    (horder.ahead other id hprecedes)

/-- Something in a tag stays, and the tag with it, unless it is the URI that is taken out of it. -/
theorem WellFormed.not_untagged (h : tree.WellFormed) {picked : Int → Prop}
    (habove : tree.above? folder = some RootId.tags) {row : Row} (hrow : tree.known? id = some row)
    (hparent : row.parent = some folder) (hother : picked folder → row.url ≠ some uri) :
    ¬ tree.Untagged uri picked folder ∧ ¬ tree.Untagged uri picked id := by
  have hid := (above?_of_known? hrow).trans hparent
  constructor <;> rintro ⟨place, hplace, hpicked, ⟨found, hfound, hup, hurl⟩ | ⟨rfl, hall⟩⟩
  · rw [above?_of_known? hfound, hup] at habove
    obtain rfl := Option.some.inj habove
    exact h.not_encloses_parent hplace (Encloses.refl tree _)
  · exact hother hpicked (hall id row hrow hparent)
  · obtain rfl := Option.some.inj (hrow.symm.trans hfound)
    obtain rfl := Option.some.inj (hparent.symm.trans hup)
    exact hother hpicked hurl
  · obtain rfl := Option.some.inj (hid.symm.trans hplace)
    exact h.not_encloses_parent habove (Encloses.refl tree _)

/-- A tag that is left when a URI has been taken out of it is not empty, unless it was before and
is not concerned. -/
theorem Cleared.exists_above? {picked : Int → Prop} (hcleared : Cleared (tree.Untagged uri picked) tree after)
    (h : tree.WellFormed) (habove : after.above? folder = some RootId.tags)
    (hfilled : ¬ picked folder → ∃ id, tree.above? id = some folder) :
    ∃ id, after.above? id = some folder := by
  have hbefore := hcleared.above?_of_some habove
  obtain ⟨row, hrow, -⟩ := known?_of_above? habove
  have hkept := (hcleared.known?_of_some hrow).1
  by_contra hempty
  have hgone : ∀ child childRow, tree.known? child = some childRow →
      childRow.parent = some folder → picked folder ∧ childRow.url = some uri := by
    intro child childRow hchild hparent
    by_contra hother
    have hstays : ¬ tree.Untagged uri picked child :=
      (h.not_untagged hbefore hchild hparent fun hpicked hurl => hother ⟨hpicked, hurl⟩).2
    refine hempty ⟨child, ?_⟩
    rw [hcleared.above?_of_kept hstays, above?_of_known? hchild, hparent]
  have hpicked : picked folder := by
    by_contra hnot
    obtain ⟨child, hchild⟩ := hfilled hnot
    obtain ⟨childRow, hchildRow, hparent⟩ := known?_of_above? hchild
    exact hnot (hgone child childRow hchildRow hparent).1
  exact hkept ⟨folder, hbefore, hpicked, .inr
    ⟨rfl, fun child childRow hchild hparent => (hgone child childRow hchild hparent).2⟩⟩

/-- Where a URI has been taken out of all tags, none is left empty. -/
theorem Cleared.noneEmpty (hcleared : Cleared (tree.Untagged uri (tree.PickedBy none)) tree after)
    (h : tree.WellFormed) : after.NoneEmpty :=
  fun _ habove => hcleared.exists_above? h habove fun hnot => absurd (by simp [PickedBy]) hnot

end Tree

namespace Places

open SyncedBookmarks.Action SyncedBookmarks.Tree

variable {tree before middle after : Tree} {tag uri : String} {folder : Int}

/-- What becomes of a tree when the folder of a tag is asked for. -/
inductive TagMade (tag : String) (tree : Tree) : Int → Tree → Prop where
  | found {folder : Int} (h : tree.FirstTag tag folder) : TagMade tag tree folder tree
  | made (h : ∀ id, ¬ tree.IsTag tag id) : TagMade tag tree tree.nextId
      (tree.inserted RootId.tags atEnd .folder (some tag) none)

/-- What becomes of a tree when a URI is put into a folder. -/
inductive UriEntered (uri : String) (folder : Int) (tree : Tree) : Tree → Prop where
  | there (h : tree.Holds folder uri) : UriEntered uri folder tree tree
  | entered (h : ¬ tree.Holds folder uri) : UriEntered uri folder tree
      (tree.inserted folder atEnd .bookmark none (some uri))

section Steps

theorem TagMade.firstTag (hmade : TagMade tag before folder after) (h : before.WellFormed) :
    after.FirstTag tag folder := by
  cases hmade with
  | found hfirst => exact hfirst
  | made hnone => exact firstTag_nextId h hnone atEnd

theorem TagMade.grown (hmade : TagMade tag before folder after) (h : before.WellFormed)
    (htags : before.IsFolder RootId.tags) : TagsGrown before after := by
  cases hmade with
  | found => exact TagsGrown.refl h
  | made => exact tagsGrown_inserted h htags atEnd (fitting_folder tag) (.inl rfl)

theorem TagMade.firstTag_of_old {other : String} {id : Int} (hmade : TagMade tag before folder after)
    (h : before.WellFormed) (hfirst : before.FirstTag other id) : after.FirstTag other id := by
  cases hmade with
  | found => exact hfirst
  | made => exact hfirst.inserted h _ _ _ _

theorem TagMade.holds_iff {place : Int} {other : String} (hmade : TagMade tag before folder after)
    (h : before.WellFormed) : after.Holds place other ↔ before.Holds place other := by
  cases hmade with
  | found => exact Iff.rfl
  | made =>
      rw [holds_inserted h]
      simp

theorem TagMade.onlyTags (hmade : TagMade tag before folder after) (h : before.WellFormed)
    (honly : before.OnlyTags) : after.OnlyTags := by
  cases hmade with
  | found => exact honly
  | made => exact honly.inserted h fun _ => rfl

theorem UriEntered.grown (hentered : UriEntered uri folder before after) (h : before.WellFormed)
    (htag : before.IsTag tag folder) (huri : validateUri uri = .ok uri) :
    TagsGrown before after := by
  cases hentered with
  | there => exact TagsGrown.refl h
  | entered =>
      exact tagsGrown_inserted h htag.isFolder atEnd (fitting_bookmark huri none) (.inr htag.above?)

theorem UriEntered.onlyTags (hentered : UriEntered uri folder before after) (h : before.WellFormed)
    (htag : before.IsTag tag folder) (honly : before.OnlyTags) : after.OnlyTags := by
  cases hentered with
  | there => exact honly
  | entered =>
      apply honly.inserted h
      rintro rfl
      exact absurd (Encloses.refl before RootId.tags) (h.not_encloses_parent htag.above?)

theorem UriEntered.firstTag_of_old {id : Int} (hentered : UriEntered uri folder before after)
    (h : before.WellFormed) (hfirst : before.FirstTag tag id) : after.FirstTag tag id := by
  cases hentered with
  | there => exact hfirst
  | entered => exact hfirst.inserted h _ _ _ _

theorem UriEntered.holds_iff {place : Int} {other : String}
    (hentered : UriEntered uri folder before after) (h : before.WellFormed) :
    after.Holds place other ↔ before.Holds place other ∨ (place = folder ∧ other = uri) := by
  cases hentered with
  | there hholds =>
      refine ⟨.inl, ?_⟩
      rintro (hold | ⟨rfl, rfl⟩)
      · exact hold
      · exact hholds
  | entered => rw [holds_inserted h, Option.some.injEq, eq_comm (a := uri)]

end Steps

theorem leads_tagFolder? (h : tree.WellFormed) (tag : String) :
    Leads (tagFolder? tag) tree fun found next => next = tree ∧
      ∀ folder, found = some folder ↔ tree.FirstTag tag folder := by
  obtain ⟨items, hitems, -⟩ := h.children RootId.tags
  refine leads_check_bind hitems (leads_pure ⟨rfl, fun folder => ?_⟩)
  exact h.find?_eq_some_iff hitems fun item hitem => h.isTag_iff hitems hitem

theorem firstTag_iff_tagFolder? {places : Places} (h : places.tree.WellFormed) :
    ((tagFolder? tag).result places).1 = .ok (some folder) ↔ places.tree.FirstTag tag folder := by
  obtain ⟨found, _, hresult, -, hfound⟩ := leads_tagFolder? h tag places rfl
  rw [hresult, Except.ok.injEq]
  exact hfound folder

theorem leads_ensureTag_made (h : tree.WellFormed) (htags : tree.IsFolder RootId.tags)
    (tag : String) : Leads (ensureTag tag) tree fun folder next => TagMade tag tree folder next := by
  refine (leads_tagFolder? h tag).bind ?_
  rintro found _ ⟨rfl, hfound⟩
  cases found with
  | some folder => exact leads_pure (.found ((hfound folder).mp rfl))
  | none =>
      refine (leads_insertItem h htags atEnd .folder (some tag) none).imp ?_
      rintro - - ⟨rfl, rfl⟩
      refine .made fun id hid => ?_
      obtain ⟨first, hfirst⟩ := h.exists_firstTag hid
      cases (hfound first).mpr hfirst

/-- Puts a URI into a folder, unless it is there. -/
def enterUri (uri : String) (folder : Int) : TreeAction Unit := do
  if !holdsUrl uri (← check (·.children folder)) then
    let _ ← insertBookmark folder uri atEnd none

theorem leads_enterUri (h : tree.WellFormed) (hfolder : tree.IsFolder folder)
    (huri : validateUri uri = .ok uri) :
    Leads (enterUri uri folder) tree fun _ next => UriEntered uri folder tree next := by
  obtain ⟨items, hitems, -⟩ := h.children folder
  refine leads_check_bind hitems ?_
  split
  · rename_i hmissing
    refine (leads_insertBookmark h hfolder huri atEnd none).bind ?_
    rintro _ _ ⟨-, rfl⟩
    refine leads_pure (.entered fun hholds => ?_)
    rw [(holdsUrl_iff h hitems uri).mpr hholds] at hmissing
    exact absurd hmissing (by decide)
  · rename_i hthere
    exact leads_pure (.there ((holdsUrl_iff h hitems uri).mp (by simpa using hthere)))

theorem leads_addTag_made (h : tree.WellFormed) (htags : tree.IsFolder RootId.tags)
    (huri : validateUri uri = .ok uri) (tag : String) :
    Leads (addTag uri tag) tree fun _ next => ∃ folder middle,
      TagMade tag tree folder middle ∧ UriEntered uri folder middle next := by
  rw [addTag_eq]
  refine (leads_ensureTag_made h htags tag).bind ?_
  intro folder middle hmade
  refine (leads_enterUri (hmade.grown h htags).wellFormed (hmade.firstTag h).isTag.isFolder huri).imp ?_
  intro _ next hentered
  exact ⟨folder, middle, hmade, hentered⟩

/-! ### Several tags -/

/-- What tagging a URI makes of the folders of the tags. -/
structure TagsEntered (uri : String) (tags : List String) (before after : Tree) : Prop where
  grown : TagsGrown before after
  only : before.OnlyTags → after.OnlyTags
  firsts : ∀ tag folder, before.FirstTag tag folder → after.FirstTag tag folder
  holds : ∀ folder other, before.Holds folder other → after.Holds folder other
  given : ∀ tag ∈ tags, ∃ folder, after.FirstTag tag folder ∧ after.Holds folder uri
  source : ∀ folder, after.TagHolds folder uri →
    before.TagHolds folder uri ∨ ∃ tag ∈ tags, after.FirstTag tag folder

theorem TagsEntered.refl (uri : String) (h : tree.WellFormed) : TagsEntered uri [] tree tree where
  grown := TagsGrown.refl h
  only := id
  firsts := fun _ _ hfirst => hfirst
  holds := fun _ _ hholds => hholds
  given := fun _ hgiven => absurd hgiven List.not_mem_nil
  source := fun _ hholds => .inl hholds

theorem TagsEntered.trans {tags more : List String} (hfirst : TagsEntered uri tags before middle)
    (hsecond : TagsEntered uri more middle after) :
    TagsEntered uri (tags ++ more) before after where
  grown := hfirst.grown.trans hsecond.grown
  only := hsecond.only ∘ hfirst.only
  firsts := fun tag folder h => hsecond.firsts tag folder (hfirst.firsts tag folder h)
  holds := fun folder other h => hsecond.holds folder other (hfirst.holds folder other h)
  given := by
    intro tag hgiven
    rcases List.mem_append.mp hgiven with hgiven | hgiven
    · obtain ⟨folder, htag, hholds⟩ := hfirst.given tag hgiven
      exact ⟨folder, hsecond.firsts tag folder htag, hsecond.holds folder uri hholds⟩
    · exact hsecond.given tag hgiven
  source := by
    intro folder hholds
    rcases hsecond.source folder hholds with hmiddle | ⟨tag, hgiven, htag⟩
    · rcases hfirst.source folder hmiddle with hbefore | ⟨tag, hgiven, htag⟩
      · exact .inl hbefore
      · exact .inr ⟨tag, List.mem_append_left more hgiven, hsecond.firsts tag folder htag⟩
    · exact .inr ⟨tag, List.mem_append_right tags hgiven, htag⟩

theorem tagsEntered_of_made (h : before.WellFormed) (htags : before.IsFolder RootId.tags)
    (huri : validateUri uri = .ok uri) (hmade : TagMade tag before folder middle)
    (hentered : UriEntered uri folder middle after) : TagsEntered uri [tag] before after := by
  have hgrown := hmade.grown h htags
  have hwell := hgrown.wellFormed
  have hfolder := hentered.firstTag_of_old hwell (hmade.firstTag h)
  have hwhole := hgrown.trans (hentered.grown hwell (hmade.firstTag h).isTag huri)
  have hholds : ∀ place other,
      after.Holds place other ↔ before.Holds place other ∨ (place = folder ∧ other = uri) := by
    intro place other
    rw [hentered.holds_iff hwell, hmade.holds_iff h]
  constructor
  case grown => exact hwhole
  case only =>
    exact fun honly => hentered.onlyTags hwell (hmade.firstTag h).isTag (hmade.onlyTags h honly)
  case firsts =>
    intro other id hfirst
    exact hentered.firstTag_of_old hwell (hmade.firstTag_of_old h hfirst)
  case holds => exact fun place other hold => (hholds place other).mpr (.inl hold)
  case given =>
    intro given hgiven
    rw [List.mem_singleton.mp hgiven]
    exact ⟨folder, hfolder, (hholds folder uri).mpr (.inr ⟨rfl, rfl⟩)⟩
  case source =>
    rintro place ⟨habove, hafter⟩
    rcases (hholds place uri).mp hafter with hbefore | ⟨rfl, -⟩
    · exact .inl ⟨(hwhole.above?_of_holds h hbefore).symm.trans habove, hbefore⟩
    · exact .inr ⟨tag, List.mem_singleton_self tag, hfolder⟩

theorem leads_tagUri_entered (h : tree.WellFormed) (htags : tree.IsFolder RootId.tags)
    (huri : validateUri uri = .ok uri) (tags : List String) :
    Leads (tagUri uri tags) tree fun _ next =>
      TagsEntered uri (tags.filter (!·.isEmpty)) tree next := by
  refine leads_check_bind huri ?_
  generalize tags.filter (!·.isEmpty) = given
  refine Leads.imp (leads_forM (P := fun rest next => ∃ done, given = done ++ rest ∧
    TagsEntered uri done tree next) ?_ given ?_) ?_
  · rintro tag rest next ⟨done, rfl, hdone⟩
    have hfolder := hdone.grown.isFolder htags
    refine (leads_addTag_made hdone.grown.wellFormed hfolder huri tag).imp ?_
    rintro _ after ⟨folder, middle, hmade, hentered⟩
    exact ⟨done ++ [tag], by simp,
      hdone.trans (tagsEntered_of_made hdone.grown.wellFormed hfolder huri hmade hentered)⟩
  · exact ⟨[], rfl, TagsEntered.refl uri h⟩
  · rintro - next ⟨done, hsplit, hdone⟩
    rw [List.append_nil] at hsplit
    exact hsplit ▸ hdone

/-- Taking a URI out of tags leaves the others in their order. -/
theorem leads_untagUri_inOrder (h : tree.WellFormed) (huri : validateUri uri = .ok uri)
    (tags : Option (List String)) : Leads (untagUri uri tags) tree fun _ next =>
      Cleared (tree.Untagged uri (tree.PickedBy tags)) tree next ∧ InOrder tree next := by
  rintro places rfl
  obtain ⟨value, next, hresult, hcleared⟩ := leads_untagUri h huri tags places rfl
  have horder := keeps_untagUri_of keeps_deleteRow_inOrder uri tags places (.refl places.tree)
  rw [hresult] at horder
  exact ⟨value, next, hresult, hcleared, horder⟩

/-- The tags of a URI that is in one folder for each of some titles, and in no other folder. -/
theorem tagsOf_of_titles (h : tree.WellFormed) (huri : validateUri uri = .ok uri)
    {tags : Finset String}
    (hmem : ∀ tag, tag ∈ tags ↔ ∃ folder, tree.TagHolds folder uri ∧ tree.tagTitle folder = tag)
    (hone : ∀ first second, tree.TagHolds first uri → tree.TagHolds second uri →
      tree.tagTitle first = tree.tagTitle second → first = second) :
    tree.tagsOf uri = .ok (tags.sort (· ≤ ·)) := by
  obtain ⟨_, folders, hnodup, hfolders, -⟩ := h.exists_taggedWith uri
  have htitles : (folders.map tree.tagTitle).Nodup := by
    refine List.Nodup.map_on ?_ hnodup
    intro first hfirst second hsecond heq
    exact hone first second ((hfolders first).mp hfirst) ((hfolders second).mp hsecond) heq
  have hperm : (folders.map tree.tagTitle).Perm (tags.sort (· ≤ ·)) := by
    rw [List.perm_ext_iff_of_nodup htitles (tags.sort_nodup _)]
    intro tag
    rw [Finset.mem_sort, hmem, List.mem_map]
    simp only [hfolders]
  have hsorted : (tags.sort (· ≤ ·)).mergeSort (· ≤ ·) = tags.sort (· ≤ ·) :=
    List.mergeSort_of_pairwise (by simp)
  rw [tagsOf_of_taggedWith h huri ⟨folders, hnodup, hfolders, hperm⟩, hsorted]

end Places

end SyncedBookmarks
