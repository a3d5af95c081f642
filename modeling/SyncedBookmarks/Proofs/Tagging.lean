import SyncedBookmarks.Proofs.Untagging

namespace SyncedBookmarks

/-! Tagging a URI adds tags and bookmarks in them, and touches nothing that was there. -/

namespace Tree

/-- Whether a bookmark in a folder has a URI. -/
def Holds (tree : Tree) (folder : Int) (uri : String) : Prop :=
  ∃ id row, tree.known? id = some row ∧ row.parent = some folder ∧ row.url = some uri

/-- A row that tagging has added: a tag, or a bookmark in a tag. -/
structure NewTagRow (before after : Tree) (id : Int) (row : Row) : Prop where
  nextId_le : before.nextId ≤ id
  guid : ∃ count, row.guid = before.guids.candidate id count
  annotations : row.annotations = []
  parent : ∃ parent, row.parent = some parent ∧
    (parent = RootId.tags ∨ after.above? parent = some RootId.tags)

structure TagsGrown (before after : Tree) : Prop where
  wellFormed : after.WellFormed
  guids : after.guids = before.guids
  nextId_le : before.nextId ≤ after.nextId
  kept : ∀ id row, before.known? id = some row → after.known? id = some row
  new : ∀ id row, after.known? id = some row →
    before.known? id = some row ∨ NewTagRow before after id row

namespace TagsGrown

theorem refl {tree : Tree} (h : tree.WellFormed) : TagsGrown tree tree where
  wellFormed := h
  guids := rfl
  nextId_le := le_rfl
  kept := fun _ _ hrow => hrow
  new := fun _ _ hrow => .inl hrow

theorem above? {before after : Tree} (h : TagsGrown before after) {id parent : Int}
    (habove : before.above? id = some parent) : after.above? id = some parent := by
  obtain ⟨row, hrow, hparent⟩ := known?_of_above? habove
  rw [above?_of_known? (h.kept id row hrow), hparent]

theorem isFolder {before after : Tree} (h : TagsGrown before after) {id : Int}
    (hfolder : before.IsFolder id) : after.IsFolder id := by
  obtain ⟨row, hrow, hcode⟩ := hfolder
  exact ⟨row, h.kept id row hrow, hcode⟩

theorem trans {before middle after : Tree} (hfirst : TagsGrown before middle)
    (hsecond : TagsGrown middle after) : TagsGrown before after where
  wellFormed := hsecond.wellFormed
  guids := hsecond.guids.trans hfirst.guids
  nextId_le := hfirst.nextId_le.trans hsecond.nextId_le
  kept := fun id row hrow => hsecond.kept id row (hfirst.kept id row hrow)
  new := by
    intro id row hrow
    rcases hsecond.new id row hrow with hmiddle | hnew
    · rcases hfirst.new id row hmiddle with hbefore | hnew
      · exact .inl hbefore
      · obtain ⟨parent, hparent, hplace⟩ := hnew.parent
        exact .inr
          { hnew with
            parent := ⟨parent, hparent, hplace.imp_right hsecond.above?⟩ }
    · exact .inr
        { hnew with
          nextId_le := hfirst.nextId_le.trans hnew.nextId_le
          guid := by
            rw [← hfirst.guids]
            exact hnew.guid }

end TagsGrown

theorem NewTagRow.of_inserted {tree : Tree} (h : tree.WellFormed) {parent index : Int}
    {type : ItemType} {title url : Option String}
    (hplace : parent = RootId.tags ∨ tree.above? parent = some RootId.tags) :
    NewTagRow tree (tree.inserted parent index type title url) tree.nextId
      (tree.newRow parent type title url) where
  nextId_le := le_rfl
  guid := tree.exists_freshGuid_eq
  annotations := rfl
  parent := by
    refine ⟨parent, rfl, hplace.imp_right ?_⟩
    intro habove
    obtain ⟨row, hrow, hparent⟩ := known?_of_above? habove
    have hlt := (h.id_bounds parent row hrow).2
    rw [above?_eq_known?, h.known?_inserted, if_neg (by omega), hrow]
    exact hparent

theorem tagsGrown_inserted {tree : Tree} (h : tree.WellFormed) {parent : Int}
    (hparent : tree.IsFolder parent) (index : Int) {type : ItemType} {title url : Option String}
    (hfit : Fitting type title url)
    (hplace : parent = RootId.tags ∨ tree.above? parent = some RootId.tags) :
    TagsGrown tree (tree.inserted parent index type title url) where
  wellFormed := h.inserted hparent index hfit
  guids := guids_reserve tree parent index
  nextId_le := by
    change tree.nextId ≤ (tree.reserve parent index).nextId + 1
    rw [nextId_reserve]
    omega
  kept := by
    intro id row hrow
    have hlt := (h.id_bounds id row hrow).2
    rw [h.known?_inserted, if_neg (by omega), hrow]
  new := by
    intro id row hrow
    rw [h.known?_inserted] at hrow
    split at hrow
    · rename_i heq
      obtain rfl := Option.some.inj hrow
      rw [heq]
      exact .inr (NewTagRow.of_inserted h hplace)
    · exact .inl hrow

/-- A new item puts its URL into its folder and into no other. -/
theorem holds_inserted {tree : Tree} (h : tree.WellFormed) (parent index : Int) (type : ItemType)
    (title url : Option String) (folder : Int) (uri : String) :
    (tree.inserted parent index type title url).Holds folder uri ↔
      tree.Holds folder uri ∨ (folder = parent ∧ url = some uri) := by
  constructor
  · rintro ⟨id, row, hrow, hparent, hurl⟩
    rw [h.known?_inserted] at hrow
    split at hrow
    · obtain rfl := Option.some.inj hrow
      exact .inr ⟨(Option.some.inj hparent).symm, hurl⟩
    · exact .inl ⟨id, row, hrow, hparent, hurl⟩
  · rintro (⟨id, row, hrow, hparent, hurl⟩ | ⟨rfl, hurl⟩)
    · have hlt := (h.id_bounds id row hrow).2
      exact ⟨id, row, by rw [h.known?_inserted, if_neg (by omega), hrow], hparent, hurl⟩
    · exact ⟨tree.nextId, _, by rw [h.known?_inserted, if_pos rfl], rfl, hurl⟩

end Tree

namespace Places

open SyncedBookmarks.Action SyncedBookmarks.Tree

/-- What adding a tag to a URI comes to, with the folder of the tag. -/
structure TagAdded (uri tag : String) (before after : Tree) (folder : Int) : Prop where
  grown : TagsGrown before after
  above : after.above? folder = some RootId.tags
  title : ∃ row, after.known? folder = some row ∧ row.title = some tag
  holds : ∀ place other, after.Holds place other ↔
    before.Holds place other ∨ (place = folder ∧ other = uri)

/-- The folder of a tag, which is made when there is none. -/
def ensureTag (tag : String) : TreeAction Int := do
  match ← tagFolder? tag with
  | some id => pure id
  | none => createFolder RootId.tags tag atEnd

theorem addTag_eq (uri tag : String) :
    addTag uri tag = (do
      let folder ← ensureTag tag
      if !holdsUrl uri (← check (·.children folder)) then
        let _ ← insertBookmark folder uri atEnd none) := by
  rw [addTag, ensureTag, bind_assoc]
  congr 1
  funext found
  cases found <;> rfl

theorem leads_ensureTag {tree : Tree} (h : tree.WellFormed) (htags : tree.IsFolder RootId.tags)
    (tag : String) :
    Leads (ensureTag tag) tree fun folder next =>
        TagsGrown tree next ∧ next.IsFolder folder ∧ next.above? folder = some RootId.tags ∧
          (∃ row, next.known? folder = some row ∧ row.title = some tag) ∧
          ∀ place uri, next.Holds place uri ↔ tree.Holds place uri := by
  obtain ⟨items, hitems, -⟩ := h.children RootId.tags
  have hfind : Leads (tagFolder? tag) tree fun found next => tree = next ∧ found =
      (items.find? fun item => item.type = .folder && item.title == some tag).map (·.id) :=
    leads_check_bind hitems (leads_pure ⟨rfl, rfl⟩)
  refine hfind.bind ?_
  rintro found _ ⟨rfl, rfl⟩
  cases hfound : items.find? fun item => item.type = .folder && item.title == some tag with
  | none =>
      refine (leads_insertItem h htags atEnd .folder (some tag) none).imp ?_
      rintro folder - ⟨rfl, rfl⟩
      have hnew := h.known?_inserted RootId.tags atEnd .folder (some tag) none tree.nextId
      rw [if_pos rfl] at hnew
      refine ⟨tagsGrown_inserted h htags atEnd (fitting_folder tag) (.inl rfl), ⟨_, hnew, rfl⟩,
        above?_of_known? hnew, ⟨_, hnew, rfl⟩, ?_⟩
      intro place uri
      rw [holds_inserted h]
      simp
  | some item =>
      obtain ⟨row, hrow, hparent, -, htype, htitle, -⟩ :=
        h.of_mem_children hitems (List.mem_of_find?_eq_some hfound)
      have hmatch := List.find?_some hfound
      simp only [Bool.and_eq_true, decide_eq_true_eq, beq_iff_eq] at hmatch
      refine leads_pure ⟨TagsGrown.refl h, ⟨row, hrow, by rw [htype, hmatch.1]⟩,
        (above?_of_known? hrow).trans hparent, ⟨row, hrow, htitle.trans hmatch.2⟩, ?_⟩
      exact fun _ _ => Iff.rfl

theorem holdsUrl_iff {tree : Tree} (h : tree.WellFormed) {folder : Int} {items : List Item}
    (hitems : tree.children folder = .ok items) (uri : String) :
    holdsUrl uri items = true ↔ tree.Holds folder uri := by
  rw [holdsUrl, List.any_eq_true]
  constructor
  · rintro ⟨item, hitem, hurl⟩
    obtain ⟨row, hrow, hparent, -, -, -, hrowUrl⟩ := h.of_mem_children hitems hitem
    exact ⟨item.id, row, hrow, hparent, hrowUrl.trans (eq_of_beq hurl)⟩
  · rintro ⟨id, row, hrow, hparent, hurl⟩
    obtain ⟨item, hitem, -, -, -, -, hitemUrl⟩ := h.exists_mem_children hitems hrow hparent
    exact ⟨item, hitem, by rw [← hitemUrl, hurl]; simp⟩

theorem leads_addTag {tree : Tree} (h : tree.WellFormed) (htags : tree.IsFolder RootId.tags)
    {uri : String} (huri : validateUri uri = .ok uri) (tag : String) :
    Leads (addTag uri tag) tree fun _ next => ∃ folder, TagAdded uri tag tree next folder := by
  rw [addTag_eq]
  refine (leads_ensureTag h htags tag).bind ?_
  rintro folder middle ⟨hgrown, hfolder, habove, ⟨row, hrow, htitle⟩, hsame⟩
  have hwell := hgrown.wellFormed
  obtain ⟨items, hitems, -⟩ := hwell.children folder
  refine leads_check_bind hitems ?_
  split
  · rename_i hmissing
    refine (leads_insertBookmark hwell hfolder huri atEnd none).bind ?_
    rintro id next ⟨-, rfl⟩
    have hmore := tagsGrown_inserted hwell hfolder atEnd (fitting_bookmark huri none) (.inr habove)
    refine leads_pure ⟨folder, hgrown.trans hmore, hmore.above? habove,
      ⟨row, hmore.kept folder row hrow, htitle⟩, ?_⟩
    intro place other
    rw [holds_inserted hwell, hsame, Option.some.injEq, eq_comm (a := uri)]
  · rename_i hthere
    refine leads_pure ⟨folder, hgrown, habove, ⟨row, hrow, htitle⟩, ?_⟩
    have hholds : middle.Holds folder uri := by
      rw [← holdsUrl_iff hwell hitems]
      simpa using hthere
    intro place other
    rw [← hsame]
    refine ⟨.inl, ?_⟩
    rintro (hplace | ⟨rfl, rfl⟩)
    · exact hplace
    · exact hholds

end Places

/-! ### The tags of a URI -/

namespace Tree

def tagTitle (tree : Tree) (folder : Int) : String :=
  ((tree.known? folder).bind (·.title)).getD ""

/-- Whether a tag is one of a URI. -/
def TagHolds (tree : Tree) (folder : Int) (uri : String) : Prop :=
  tree.above? folder = some RootId.tags ∧ tree.Holds folder uri

/-- The tags of a URI, in whatever order. -/
def TaggedWith (tree : Tree) (uri : String) (tags : List String) : Prop :=
  ∃ folders : List Int, folders.Nodup ∧ (∀ folder, folder ∈ folders ↔ tree.TagHolds folder uri) ∧
    (folders.map tree.tagTitle).Perm tags

/-- Whether the tags that have a URI are the same in two trees, and are called the same. -/
def SameTags (before after : Tree) (uri : String) : Prop :=
  ∀ folder, (after.TagHolds folder uri ↔ before.TagHolds folder uri) ∧
    (before.TagHolds folder uri → after.tagTitle folder = before.tagTitle folder)

namespace SameTags

theorem refl (tree : Tree) (uri : String) : SameTags tree tree uri :=
  fun _ => ⟨Iff.rfl, fun _ => rfl⟩

theorem trans {before middle after : Tree} {uri : String} (hfirst : SameTags before middle uri)
    (hsecond : SameTags middle after uri) : SameTags before after uri := by
  intro folder
  refine ⟨(hsecond folder).1.trans (hfirst folder).1, ?_⟩
  intro hholds
  rw [(hsecond folder).2 ((hfirst folder).1.mpr hholds), (hfirst folder).2 hholds]

theorem taggedWith {before after : Tree} {uri : String} (h : SameTags before after uri)
    {tags : List String} (htagged : before.TaggedWith uri tags) : after.TaggedWith uri tags := by
  obtain ⟨folders, hnodup, hmem, hperm⟩ := htagged
  refine ⟨folders, hnodup, fun folder => (hmem folder).trans (h folder).1.symm, ?_⟩
  have hsame : folders.map after.tagTitle = folders.map before.tagTitle :=
    List.map_congr_left fun folder hfolder => (h folder).2 ((hmem folder).mp hfolder)
  rw [hsame]
  exact hperm

end SameTags

theorem TaggedWith.perm {tree : Tree} {uri : String} {tags other : List String}
    (h : tree.TaggedWith uri tags) (hperm : tags.Perm other) : tree.TaggedWith uri other := by
  obtain ⟨folders, hnodup, hmem, htitles⟩ := h
  exact ⟨folders, hnodup, hmem, htitles.trans hperm⟩

theorem taggedWith_nil {tree : Tree} {uri : String} (h : ∀ folder, ¬ tree.TagHolds folder uri) :
    tree.TaggedWith uri [] :=
  ⟨[], List.nodup_nil, fun folder => ⟨by simp, fun hholds => absurd hholds (h folder)⟩, .nil⟩

/-- A folder in which something is has its place in the grown tree too. -/
theorem TagsGrown.above?_of_holds {before after : Tree} (h : TagsGrown before after)
    (hwell : before.WellFormed) {folder : Int} {uri : String} (hholds : before.Holds folder uri) :
    after.above? folder = before.above? folder := by
  obtain ⟨id, row, hrow, hparent, -⟩ := hholds
  obtain ⟨found, hfound, -⟩ := hwell.parent_folder id folder ((above?_of_known? hrow).trans hparent)
  rw [above?_of_known? (h.kept folder found hfound), above?_of_known? hfound]

theorem TagsGrown.tagTitle {before after : Tree} (h : TagsGrown before after) {folder parent : Int}
    (habove : before.above? folder = some parent) :
    after.tagTitle folder = before.tagTitle folder := by
  obtain ⟨row, hrow, -⟩ := known?_of_above? habove
  rw [Tree.tagTitle, h.kept folder row hrow, Tree.tagTitle, hrow]

end Tree

namespace Places

open SyncedBookmarks.Action SyncedBookmarks.Tree

/-- A tag that is added concerns its URI alone. -/
theorem TagAdded.sameTags {uri tag other : String} {before after : Tree} {folder : Int}
    (hwell : before.WellFormed) (h : TagAdded uri tag before after folder) (hne : other ≠ uri) :
    SameTags before after other := by
  intro place
  have hholds : after.Holds place other ↔ before.Holds place other := by
    rw [h.holds]
    simp [hne]
  refine ⟨?_, fun hplace => h.grown.tagTitle hplace.1⟩
  constructor
  · rintro ⟨habove, hafter⟩
    have hbefore := hholds.mp hafter
    exact ⟨(h.grown.above?_of_holds hwell hbefore).symm.trans habove, hbefore⟩
  · rintro ⟨habove, hbefore⟩
    exact ⟨h.grown.above? habove, hholds.mpr hbefore⟩

/-- A tag that a URI does not have yet is one more. -/
theorem TagAdded.taggedWith {uri tag : String} {before after : Tree} {folder : Int}
    (hwell : before.WellFormed) (h : TagAdded uri tag before after folder) {tags : List String}
    (htagged : before.TaggedWith uri tags) (hnew : tag ∉ tags) :
    after.TaggedWith uri (tag :: tags) := by
  obtain ⟨folders, hnodup, hmem, hperm⟩ := htagged
  obtain ⟨row, hrow, htitle⟩ := h.title
  have hkept : ∀ place ∈ folders, after.tagTitle place = before.tagTitle place :=
    fun place hplace => h.grown.tagTitle ((hmem place).mp hplace).1
  have hfolder : after.tagTitle folder = tag := by
    rw [tagTitle, hrow, Option.bind_some, htitle]
    rfl
  have hnot : folder ∉ folders := by
    intro hold
    refine hnew (hperm.mem_iff.mp (List.mem_map.mpr ⟨folder, hold, ?_⟩))
    rw [← hkept folder hold, hfolder]
  refine ⟨folder :: folders, List.nodup_cons.mpr ⟨hnot, hnodup⟩, ?_, ?_⟩
  · intro place
    rw [List.mem_cons, hmem, TagHolds, TagHolds, h.holds]
    constructor
    · rintro (rfl | ⟨habove, hbefore⟩)
      · exact ⟨h.above, .inr ⟨rfl, rfl⟩⟩
      · exact ⟨h.grown.above? habove, .inl hbefore⟩
    · rintro ⟨habove, hbefore | ⟨rfl, -⟩⟩
      · exact .inr ⟨(h.grown.above?_of_holds hwell hbefore).symm.trans habove, hbefore⟩
      · exact .inl rfl
  · rw [List.map_cons, hfolder, List.map_congr_left hkept]
    exact hperm.cons tag

/-- What tagging a URI comes to. -/
structure Tagged (uri : String) (tags : List String) (before after : Tree) : Prop where
  grown : TagsGrown before after
  same : ∀ other, other ≠ uri → SameTags before after other
  tagged : before.TaggedWith uri [] → tags.Nodup → after.TaggedWith uri tags

theorem leads_tagUri {tree : Tree} (h : tree.WellFormed) {uri : String}
    (huri : validateUri uri = .ok uri) {tags : List String} (hgiven : ∀ tag ∈ tags, tag ≠ "")
    (htags : tags = [] ∨ tree.IsFolder RootId.tags) :
    Leads (tagUri uri tags) tree fun _ next => Tagged uri tags tree next := by
  have hfilter : tags.filter (!·.isEmpty) = tags := by
    rw [List.filter_eq_self]
    intro tag htag
    simpa using hgiven tag htag
  refine leads_check_bind huri ?_
  rw [hfilter]
  rcases htags with rfl | hfolder
  · exact leads_pure ⟨TagsGrown.refl h, fun other _ => SameTags.refl tree other, fun hnone _ => hnone⟩
  refine Leads.imp (leads_forM (P := fun rest next => ∃ done, tags = done ++ rest ∧
    TagsGrown tree next ∧ (∀ other, other ≠ uri → SameTags tree next other) ∧
    (tree.TaggedWith uri [] → tags.Nodup → next.TaggedWith uri done)) ?_ tags ?_) ?_
  · rintro tag rest next ⟨done, rfl, hgrown, hsame, htagged⟩
    refine (leads_addTag hgrown.wellFormed (hgrown.isFolder hfolder) huri tag).imp ?_
    rintro _ after ⟨folder, hadded⟩
    refine ⟨done ++ [tag], by simp, hgrown.trans hadded.grown, ?_, ?_⟩
    · intro other hne
      exact (hsame other hne).trans (hadded.sameTags hgrown.wellFormed hne)
    · intro hnone hnodup
      refine (hadded.taggedWith hgrown.wellFormed (htagged hnone hnodup) ?_).perm
        (List.perm_append_singleton tag done).symm
      intro hmem
      exact (List.nodup_append.mp hnodup).2.2 tag hmem tag List.mem_cons_self rfl
  · exact ⟨[], rfl, TagsGrown.refl h, fun other _ => SameTags.refl tree other, fun hnone _ => hnone⟩
  · rintro - next ⟨done, hsplit, hgrown, hsame, htagged⟩
    rw [List.append_nil] at hsplit
    subst hsplit
    exact ⟨hgrown, hsame, htagged⟩

theorem keeps_addTag (uri tag : String) : (addTag uri tag).Keeps WellFormed := by
  have hfind : (tagFolder? tag).Keeps WellFormed :=
    (keeps_checked _).bind fun _ => keeps_pure _ _
  have hensure : (ensureTag tag).Keeps WellFormed := by
    refine hfind.bind ?_
    intro found
    cases found with
    | some id => exact keeps_pure _ _
    | none => exact keeps_createFolder _ _ _
  rw [addTag_eq]
  refine hensure.bind fun folder => (keeps_checked _).bind fun items => ?_
  split
  · exact (keeps_insertBookmark _ _ _ _).bind fun _ => keeps_pure _ _
  · exact keeps_pure _ _

theorem keeps_tagUri (uri : String) (tags : List String) : (tagUri uri tags).Keeps WellFormed :=
  (keeps_checked _).bind fun checked => keeps_forM _ fun tag _ => keeps_addTag checked tag

/-! ### Reading the tags -/

theorem filterM_of_ok {step : α → Except ε Bool} {keep : α → Bool} {xs : List α}
    (hstep : ∀ x ∈ xs, step x = .ok (keep x)) : xs.filterM step = .ok (xs.filter keep) := by
  have haux : ∀ kept, List.filterAuxM step xs kept =
      .ok ((xs.filter keep).reverse ++ kept) := by
    induction xs with
    | nil => exact fun kept => rfl
    | cons x xs ih =>
        intro kept
        rw [List.filterAuxM, hstep x (by simp)]
        change List.filterAuxM step xs (cond (keep x) (x :: kept) kept) = _
        rw [ih fun y hy => hstep y (by simp [hy])]
        cases hkeep : keep x <;> simp [hkeep]
  rw [List.filterM, haux []]
  simp [bind, Except.bind, pure, Except.pure]

theorem bind_ok {value : α} {next : α → Except ε β} : (Except.ok value >>= next) = next value :=
  rfl

theorem sorted_of_perm {first second : List String} (h : first.Perm second) :
    first.mergeSort (· ≤ ·) = second.mergeSort (· ≤ ·) := by
  have hsorted : ∀ xs : List String, (xs.mergeSort (· ≤ ·)).Pairwise (· ≤ ·) := by
    intro xs
    refine (@List.pairwise_mergeSort String (fun a b => decide (a ≤ b)) ?_ ?_ xs).imp ?_
    · intro a b c hab hbc
      simp only [decide_eq_true_eq] at *
      exact String.le_trans hab hbc
    · intro a b
      simpa using String.le_total a b
    · intro a b hab
      simpa using hab
  refine List.Perm.eq_of_pairwise' (hsorted first) (hsorted second) ?_
  exact (List.mergeSort_perm first _).trans (h.trans (List.mergeSort_perm second _).symm)

/-- The tags of a URI are read in their order. -/
theorem tagsOf_of_taggedWith {tree : Tree} (h : tree.WellFormed) {uri : String}
    (huri : validateUri uri = .ok uri) {tags : List String} (htagged : tree.TaggedWith uri tags) :
    tree.tagsOf uri = .ok (tags.mergeSort (· ≤ ·)) := by
  obtain ⟨folders, hfolders, hmem, htitles⟩ := htagged
  obtain ⟨items, hitems, hnodup, -⟩ := h.children RootId.tags
  let holds (item : Item) : Bool :=
    match tree.children item.id with
    | .ok children => holdsUrl uri children
    | .error _ => false
  have hstep : ∀ item ∈ items, (do pure (holdsUrl uri (← tree.children item.id)) :
      Except TreeError Bool) = .ok (holds item) := by
    intro item _
    obtain ⟨children, hchildren, -⟩ := h.children item.id
    simp only [holds, hchildren]
    rfl
  have hholds : ∀ item, holds item = true ↔ tree.Holds item.id uri := by
    intro item
    obtain ⟨children, hchildren, -⟩ := h.children item.id
    simp only [holds, hchildren]
    exact holdsUrl_iff h hchildren uri
  have hids : ((items.filter holds).map (·.id)).Perm folders := by
    refine (List.perm_ext_iff_of_nodup (hnodup.sublist (List.filter_sublist.map _)) hfolders).mpr ?_
    intro id
    rw [hmem, TagHolds, ← h.ids_children hitems, List.mem_map, List.mem_map]
    constructor
    · rintro ⟨item, hitem, rfl⟩
      obtain ⟨hitem, hkeep⟩ := List.mem_filter.mp hitem
      exact ⟨⟨item, hitem, rfl⟩, (hholds item).mp hkeep⟩
    · rintro ⟨⟨item, hitem, rfl⟩, hkeep⟩
      exact ⟨item, List.mem_filter.mpr ⟨hitem, (hholds item).mpr hkeep⟩, rfl⟩
  have htitle : (items.filter holds).map (·.title.getD "") =
      ((items.filter holds).map (·.id)).map tree.tagTitle := by
    rw [List.map_map]
    refine List.map_congr_left ?_
    intro item hitem
    obtain ⟨row, hrow, -, -, -, hrowTitle, -⟩ :=
      h.of_mem_children hitems (List.mem_filter.mp hitem).1
    rw [Function.comp, tagTitle, hrow, Option.bind_some, hrowTitle]
  have hfilter := filterM_of_ok hstep
  rw [Tree.tagsOf, huri]
  simp only [bind_ok, hitems, hfilter]
  change Except.ok (((items.filter holds).map (·.title.getD "")).mergeSort (· ≤ ·)) = _
  rw [htitle, sorted_of_perm ((hids.map tree.tagTitle).trans htitles)]

end Places

end SyncedBookmarks
