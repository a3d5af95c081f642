import SyncedBookmarks.Proofs.Tagging

namespace SyncedBookmarks

/-! Every run of operations on a fresh tree, whatever their arguments and whether they succeed or
not, leaves a well-formed tree. -/

namespace Places

open SyncedBookmarks.Action

/-! ### Batches and livemarks -/

@[simp] theorem tree_beginBatch (places : Places) : places.beginBatch.tree = places.tree := by
  rw [beginBatch]
  split <;> rfl

@[simp] theorem tree_endBatch (places : Places) : places.endBatch.tree = places.tree := by
  rw [endBatch]
  dsimp only
  split <;> rfl

theorem ensures_createLivemark {inv : Places → Prop} {fresh : Int → Prop} {parent index : Int}
    {title : String} (site : Option String) (feed : String)
    (hfolder : (createFolder parent title index).Ensures inv fresh)
    (hannotate : ∀ id, fresh id → ∀ name value, name ≠ AnnotationName.intendedParent →
      (annotate id name value).Keeps inv) :
    (createLivemark parent title site feed index).Ensures inv fresh := by
  refine (keeps_check _ _).ensures.bind fun feed _ => (keeps_check _ _).ensures.bind fun site _ =>
    hfolder.bind fun id hfresh => ?_
  refine (hannotate id hfresh _ feed (by decide)).ensures.bind fun _ _ => ?_
  cases site with
  | none => exact ensures_pure hfresh
  | some site =>
      exact (hannotate id hfresh _ site (by decide)).ensures.bind fun _ _ => ensures_pure hfresh

theorem keeps_createLivemark (parent : Int) (title : String) (site : Option String) (feed : String)
    (index : Int) : (createLivemark parent title site feed index).Keeps WellFormed :=
  (ensures_createLivemark site feed (keeps_createFolder parent title index).ensures
    fun id _ name value _ => keeps_annotate id name value).keeps

theorem keeps_setSite (id : Int) (uri : String) : (setSite id uri).Keeps WellFormed :=
  (keeps_checked _).bind fun checked => keeps_annotate id _ checked

theorem keeps_setFeed (id : Int) (uri : String) : (setFeed id uri).Keeps WellFormed :=
  (keeps_checked _).bind fun checked => keeps_annotate id _ checked

end Places

/-- A call of one of the operations that change the tree. -/
inductive Mutation where
  | insertBookmark (parent : Int) (uri : String) (index : Int) (title : Option String)
  | createFolder (parent : Int) (title : String) (index : Int)
  | insertSeparator (parent index : Int)
  | setTitle (id : Int) (title : String)
  | setUrl (id : Int) (uri : String)
  | setKeyword (id : Int) (keyword : Option String)
  | setGuid (id : Int) (guid : String)
  | moveItem (id newParent index : Int)
  | removeItem (id : Int)
  | removeFolder (id : Int)
  | removeChildren (folder : Int)
  | annotate (id : Int) (name value : String)
  | unannotate (id : Int) (name : String)
  | tagUri (uri : String) (tags : List String)
  | untagUri (uri : String) (tags : Option (List String))
  | createLivemark (parent : Int) (title : String) (site : Option String) (feed : String)
      (index : Int)
  | setSite (id : Int) (uri : String)
  | setFeed (id : Int) (uri : String)
  | beginBatch
  | endBatch

namespace Mutation

/-- The operation, for its effect alone. -/
def action : Mutation → TreeAction Unit
  | insertBookmark parent uri index title =>
      (fun _ => ()) <$> Places.insertBookmark parent uri index title
  | createFolder parent title index => (fun _ => ()) <$> Places.createFolder parent title index
  | insertSeparator parent index => (fun _ => ()) <$> Places.insertSeparator parent index
  | setTitle id title => Places.setTitle id title
  | setUrl id uri => Places.setUrl id uri
  | setKeyword id keyword => Places.setKeyword id keyword
  | setGuid id guid => Places.setGuid id guid
  | moveItem id newParent index => Places.moveItem id newParent index
  | removeItem id => Places.removeItem id
  | removeFolder id => Places.removeFolder id
  | removeChildren folder => Places.removeChildren folder
  | annotate id name value => Places.annotate id name value
  | unannotate id name => Places.unannotate id name
  | tagUri uri tags => Places.tagUri uri tags
  | untagUri uri tags => Places.untagUri uri tags
  | createLivemark parent title site feed index =>
      (fun _ => ()) <$> Places.createLivemark parent title site feed index
  | setSite id uri => Places.setSite id uri
  | setFeed id uri => Places.setFeed id uri
  | beginBatch => Action.change Places.beginBatch
  | endBatch => Action.change Places.endBatch

theorem keeps_action (mutation : Mutation) : mutation.action.Keeps Places.WellFormed := by
  cases mutation with
  | insertBookmark parent uri index title =>
      exact (Places.keeps_insertBookmark parent uri index title).map _
  | createFolder parent title index => exact (Places.keeps_createFolder parent title index).map _
  | insertSeparator parent index => exact (Places.keeps_insertSeparator parent index).map _
  | setTitle id title => exact Places.keeps_setTitle id title
  | setUrl id uri => exact Places.keeps_setUrl id uri
  | setKeyword id keyword => exact Places.keeps_setKeyword id keyword
  | setGuid id guid => exact Places.keeps_setGuid id guid
  | moveItem id newParent index => exact Places.keeps_moveItem id newParent index
  | removeItem id => exact Places.keeps_removeItem id
  | removeFolder id => exact Places.keeps_removeFolder id
  | removeChildren folder => exact Places.keeps_removeChildren folder
  | annotate id name value => exact Places.keeps_annotate id name value
  | unannotate id name => exact Places.keeps_unannotate id name
  | tagUri uri tags => exact Places.keeps_tagUri uri tags
  | untagUri uri tags => exact Places.keeps_untagUri uri tags
  | createLivemark parent title site feed index =>
      exact (Places.keeps_createLivemark parent title site feed index).map _
  | setSite id uri => exact Places.keeps_setSite id uri
  | setFeed id uri => exact Places.keeps_setFeed id uri
  | beginBatch =>
      intro places hwell
      change Tree.WellFormed (places.beginBatch).tree
      rw [Places.tree_beginBatch]
      exact hwell
  | endBatch =>
      intro places hwell
      change Tree.WellFormed (places.endBatch).tree
      rw [Places.tree_endBatch]
      exact hwell

/-- What a call leaves, also where it fails. -/
def run (places : Places) (mutation : Mutation) : Places :=
  (mutation.action.result places).2

def runAll (places : Places) (mutations : List Mutation) : Places :=
  mutations.foldl run places

end Mutation

/-! ### The fresh tree -/

namespace Tree

theorem mem_fresh_iff {guids : GuidSource} {row : Row} :
    row ∈ (fresh guids).rows ↔
      row = root RootId.places RootGuid.places none 0 "" ∨
      row = root RootId.menu RootGuid.menu (some RootId.places) 0 "Bookmarks Menu" ∨
      row = root RootId.toolbar RootGuid.toolbar (some RootId.places) 1 "Bookmarks Toolbar" ∨
      row = root RootId.tags RootGuid.tags (some RootId.places) 2 "Tags" ∨
      row = root RootId.unfiled RootGuid.unfiled (some RootId.places) 3 "Other Bookmarks" := by
  simp [fresh]

theorem sound_root {id : Int} {guid : String} {parent : Option Int} {position : Int}
    {title : String} : (root id guid parent position title).unplaced.Sound where
  typed := ⟨.folder, rfl⟩
  url_iff := by simp [root, ItemType.code]
  url_valid := by simp [root]
  folder_titled := fun _ => rfl
  keyword_ne := by simp [root]
  root_folder := fun _ => rfl

theorem slots_fresh (guids : GuidSource) (folder : Int) :
    (fresh guids).slots folder = if folder = RootId.places then [0, 1, 2, 3] else [] := by
  by_cases heq : folder = RootId.places
  · subst heq
    rfl
  · have hne : ¬ RootId.places = folder := fun h => heq h.symm
    simp [slots, slotsIn, fresh, root, heq, hne]

theorem wellFormed_fresh (guids : GuidSource) : (fresh guids).WellFormed := by
  have hplaces : (fresh guids).known? RootId.places =
      some (root RootId.places RootGuid.places none 0 "") := rfl
  have hrow : ∀ id row, (fresh guids).known? id = some row →
      ∃ found ∈ (fresh guids).rows, found.id = id ∧ found.unplaced = row :=
    fun id row h => exists_mem_of_known? h
  have hparent : ∀ id parent, (fresh guids).above? id = some parent → parent = RootId.places := by
    intro id parent habove
    obtain ⟨row, hentry, hup⟩ := known?_of_above? habove
    obtain ⟨found, hmem, -, rfl⟩ := hrow id row hentry
    rcases mem_fresh_iff.mp hmem with rfl | rfl | rfl | rfl | rfl <;> simp_all [root]
  constructor
  case ids_nodup =>
    change ([1, 2, 3, 4, 5] : List Int).Nodup
    decide
  case id_bounds =>
    intro id row hentry
    obtain ⟨found, hmem, rfl, -⟩ := hrow id row hentry
    change 0 < found.id ∧ found.id < 6
    rcases mem_fresh_iff.mp hmem with rfl | rfl | rfl | rfl | rfl <;> decide
  case roots_given =>
    change RootId.unfiled < 6
    decide
  case sound =>
    intro id row hentry
    obtain ⟨found, hmem, -, rfl⟩ := hrow id row hentry
    rcases mem_fresh_iff.mp hmem with rfl | rfl | rfl | rfl | rfl <;> exact sound_root
  case guid_inj =>
    intro first second row row' hentry hentry' hguid
    obtain ⟨found, hmem, rfl, rfl⟩ := hrow first row hentry
    obtain ⟨found', hmem', rfl, rfl⟩ := hrow second row' hentry'
    rcases mem_fresh_iff.mp hmem with rfl | rfl | rfl | rfl | rfl <;>
      rcases mem_fresh_iff.mp hmem' with rfl | rfl | rfl | rfl | rfl <;>
      first | rfl | exact absurd hguid (by decide)
  case parent_iff =>
    intro id row hentry
    obtain ⟨found, hmem, rfl, rfl⟩ := hrow id row hentry
    rcases mem_fresh_iff.mp hmem with rfl | rfl | rfl | rfl | rfl <;> decide
  case parent_folder =>
    intro id parent habove
    rw [hparent id parent habove]
    exact ⟨_, hplaces, rfl⟩
  case rooted =>
    intro id row hentry
    obtain ⟨found, hmem, rfl, -⟩ := hrow id row hentry
    rcases mem_fresh_iff.mp hmem with rfl | rfl | rfl | rfl | rfl
    · exact Encloses.refl _ _
    all_goals exact ⟨1, rfl⟩
  case contiguous =>
    intro folder
    rw [slots_fresh]
    split
    · exact ⟨by decide, by decide⟩
    · exact Contiguous.nil

end Tree

theorem Mutation.wellFormed_runAll {places : Places} (h : places.WellFormed)
    (mutations : List Mutation) : (runAll places mutations).WellFormed := by
  induction mutations generalizing places with
  | nil => exact h
  | cons mutation mutations ih => exact ih (mutation.keeps_action places h)

/-- What is promised of the table of items, in terms of its rows. -/
structure Tree.Intact (tree : Tree) : Prop where
  ids_nodup : (tree.rows.map (·.id)).Nodup
  guids_nodup : (tree.rows.map (·.guid)).Nodup
  parent_folder : ∀ row ∈ tree.rows, row.id ≠ RootId.places →
    ∃ folder ∈ tree.rows, row.parent = some folder.id ∧ folder.typeCode = ItemType.folder.code
  /-- The way up leads to the root, in fewer steps than walks are given. -/
  rooted : ∀ row ∈ tree.rows, ∃ steps < tree.walkLength,
    tree.climb steps row.id = some RootId.places
  /-- So looking for an ancestor comes to the right answer. -/
  within : ∀ id ancestor, ∃ found, tree.isWithin id ancestor = .ok found ∧
    (found = true ↔ ∃ steps, tree.climb steps id = some ancestor)
  positions : ∀ folder, (tree.childRows folder).map (·.position) =
    (List.range (tree.childRows folder).length).map Int.ofNat
  url_iff : ∀ row ∈ tree.rows, row.url.isSome ↔ row.typeCode = ItemType.bookmark.code
  url_valid : ∀ row ∈ tree.rows, ∀ uri, row.url = some uri → validateUri uri = .ok uri
  annotated : ∀ name id value, (id, value) ∈ tree.annotated name → (tree.row? id).isSome

theorem Tree.WellFormed.intact {tree : Tree} (h : tree.WellFormed) : tree.Intact := by
  have hentry : ∀ row ∈ tree.rows, tree.known? row.id = some row.unplaced :=
    fun row hrow => Tree.known?_eq_some_of_mem h.ids_nodup hrow
  constructor
  case ids_nodup => exact h.ids_nodup
  case guids_nodup => exact h.guids_nodup
  case parent_folder =>
    intro row hrow hne
    cases hparent : row.parent with
    | none => exact absurd ((h.parent_iff _ _ (hentry row hrow)).mp hparent) hne
    | some parent =>
        obtain ⟨folder, hfolder, hcode⟩ := h.parent_folder row.id parent
          ((Tree.above?_of_known? (hentry row hrow)).trans hparent)
        obtain ⟨found, hfound, hid, rfl⟩ := Tree.exists_mem_of_known? hfolder
        exact ⟨found, hfound, by rw [hid], hcode⟩
  case rooted =>
    intro row hrow
    obtain ⟨steps, hsteps⟩ := h.rooted _ _ (hentry row hrow)
    exact ⟨steps, h.climb_lt hsteps, hsteps⟩
  case within => exact h.isWithin
  case positions => exact fun folder => Tree.positions_childRows (h.contiguous folder)
  case url_iff => exact fun row hrow => (h.sound _ _ (hentry row hrow)).url_iff
  case url_valid => exact fun row hrow => (h.sound _ _ (hentry row hrow)).url_valid
  case annotated =>
    intro name id value hmem
    obtain ⟨row, hrow, heq⟩ := List.mem_filterMap.mp hmem
    obtain ⟨found, -, hpair⟩ := Option.map_eq_some_iff.mp heq
    rw [Tree.isSome_row?_iff]
    exact ⟨row, hrow, congrArg Prod.fst hpair⟩

/-- Whatever is done to a fresh tree, and whether it succeeds or not, the tree stays intact. -/
theorem Mutation.intact_runAll (guids : GuidSource) (mutations : List Mutation) :
    (runAll { tree := Tree.fresh guids } mutations).tree.Intact := by
  have hfresh : Places.WellFormed { tree := Tree.fresh guids } := Tree.wellFormed_fresh guids
  exact Tree.WellFormed.intact (wellFormed_runAll hfresh mutations)

end SyncedBookmarks
