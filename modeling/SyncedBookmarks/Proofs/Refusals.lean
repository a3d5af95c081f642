import SyncedBookmarks.Proofs.Atomicity
import SyncedBookmarks.Proofs.TagFolders

namespace SyncedBookmarks

/-! Operations that fail. Each one checks all that it may fail at before it changes or tells
anything, also where it makes several changes one after the other. -/

namespace Places

open SyncedBookmarks.Action SyncedBookmarks.Tree

variable {α β : Type}

/-- From every well-formed tree the operation gets through, or it fails and leaves the tree, the
open batches and what has been told as they were. -/
def Atomic (action : TreeAction α) : Prop :=
  ∀ places : Places, places.WellFormed → action.Tries places fun _ _ => True

theorem Atomic.map {action : TreeAction α} (h : Atomic action) (f : α → β) :
    Atomic (f <$> action) :=
  fun places hwell => (h places hwell).map f

theorem atomic_of_leads {action : TreeAction α} {post : Tree → α → Tree → Prop}
    (h : ∀ tree : Tree, tree.WellFormed → Leads action tree (post tree)) : Atomic action :=
  fun places hwell => .inr ((h places.tree hwell places rfl).imp fun _ _ _ => trivial)

theorem atomic_check_bind {view : Tree → Except TreeError α} {next : α → TreeAction β}
    (h : ∀ value, Atomic (next value)) : Atomic (check view >>= next) :=
  fun places hwell => tries_check_bind fun value _ => h value places hwell

theorem refuses_check_bind {view : Tree → Except TreeError α} {places : Places} {cause : TreeError}
    (hview : view places.tree = .error cause) (next : α → TreeAction β) :
    (check view >>= next).Refuses places :=
  Refuses.bind ⟨cause, by rw [result_checked, hview]⟩ next

/-- An operation on one item, which fails at once where no item has the id. -/
theorem atomic_of_there {action : TreeAction α} {post : Tree → α → Tree → Prop} (id : Int)
    (hmissing : ∀ places : Places, places.tree.row? id = none → action.Refuses places)
    (hthere : ∀ tree : Tree, tree.WellFormed → (tree.row? id).isSome →
      Leads action tree (post tree)) : Atomic action := by
  intro places hwell
  cases hrow : places.tree.row? id with
  | none => exact .inl (hmissing places hrow)
  | some row =>
      have hleads := hthere places.tree hwell (by rw [hrow]; rfl)
      exact .inr ((hleads places rfl).imp fun _ _ _ => trivial)

theorem refuses_requireItem_bind {places : Places} {id : Int}
    (hmissing : places.tree.row? id = none) (next : Item → TreeAction α) :
    (check (·.requireItem id) >>= next).Refuses places :=
  refuses_check_bind (WellFormed.item?_none hmissing).2 next

/-! ### Insertion -/

theorem atomic_insertItem (parent index : Int) (type : ItemType) (title url : Option String) :
    Atomic (insertItem parent index type title url) :=
  fun _ hwell => (BookmarkStore.tries_insertItem hwell parent index type title url).imp
    fun _ _ _ => trivial

theorem atomic_insertBookmark (parent : Int) (uri : String) (index : Int) (title : Option String) :
    Atomic (insertBookmark parent uri index title) :=
  atomic_check_bind fun uri => atomic_insertItem parent index .bookmark title (some uri)

theorem atomic_createFolder (parent : Int) (title : String) (index : Int) :
    Atomic (createFolder parent title index) :=
  atomic_insertItem parent index .folder (some title) none

/-- The annotations of a livemark go to the folder just made, which is there to take them. -/
theorem atomic_createLivemark (parent : Int) (title : String) (site : Option String)
    (feed : String) (index : Int) : Atomic (createLivemark parent title site feed index) := by
  refine atomic_check_bind fun feed => atomic_check_bind fun site => ?_
  intro places hwell
  refine (BookmarkStore.tries_insertItem hwell parent index .folder (some title) none).bind ?_
  rintro id middle ⟨hfolder, rfl, hmiddle⟩
  have hmade := hwell.inserted hfolder index (fitting_folder title)
  have hknown := hwell.known?_inserted_self parent index .folder (some title) none
  rw [← hmiddle] at hmade hknown
  have hfeed := rewrites_annotate hmade hknown AnnotationName.feedUri feed
  refine (hfeed.bind fun _ fed hfed => ?_ : Leads _ middle.tree fun _ _ => True) middle rfl
  cases site with
  | none => exact leads_pure trivial
  | some site =>
      exact (rewrites_annotate hfed.wellFormed hfed.self AnnotationName.siteUri site).bind
        fun _ _ _ => leads_pure trivial

/-! ### Changes to one item -/

theorem atomic_setGuid (id : Int) (guid : String) : Atomic (setGuid id guid) := by
  intro places hwell
  cases howner : places.tree.idOfGuid? guid with
  | some owner =>
      have hresult : (setGuid id guid).result places =
          (if owner = id then pure () else throw (.guidInUse guid) : TreeAction Unit).result
            places := by
        simp only [setGuid, result_bind, result_look, howner]
      rw [Tries, Refuses, Yields, hresult]
      split
      · exact .inr (yields_pure trivial)
      · exact .inl (refuses_throw _ places)
  | none =>
      cases hrow : places.tree.row? id with
      | none =>
          refine .inl ⟨.itemNotFound id, ?_⟩
          simp only [setGuid, result_bind, result_look, howner, hrow]
          rfl
      | some row =>
          have hleads := leads_setGuid (by rw [hrow]; rfl) howner
          exact .inr ((hleads places rfl).imp fun _ _ _ => trivial)

theorem atomic_setTitle (id : Int) (title : String) : Atomic (setTitle id title) := by
  refine atomic_of_there id ?_ fun _ _ hthere => leads_setTitle hthere title
  intro places hmissing
  refine ⟨.itemNotFound id, ?_⟩
  simp only [setTitle, result_bind, result_look, hmissing]
  rfl

theorem atomic_setUrl (id : Int) (uri : String) : Atomic (setUrl id uri) := by
  intro places hwell
  cases huri : validateUri uri with
  | error cause => exact .inl (refuses_check_bind huri _)
  | ok checked =>
      obtain rfl := eq_of_validateUri huri
      by_cases hbookmark : ∃ row, places.tree.known? id = some row ∧
          row.typeCode = ItemType.bookmark.code
      · obtain ⟨row, hrow, htype⟩ := hbookmark
        exact .inr ((leads_setUrl hrow htype huri places rfl).imp fun _ _ _ => trivial)
      · refine .inl ⟨.itemNotFound id, ?_⟩
        have hnot : (places.tree.row? id).any isBookmarkRow = false := by
          rw [← Bool.not_eq_true, Option.any_eq_true]
          rintro ⟨row, hrow, htype⟩
          refine hbookmark ⟨row.unplaced, Tree.known?_of_row? hrow, ?_⟩
          simpa [isBookmarkRow] using htype
        simp only [setUrl, result_bind, result_checked, huri, result_look, hnot]
        rfl

theorem atomic_setKeyword (id : Int) (keyword : Option String) :
    Atomic (setKeyword id keyword) := by
  refine atomic_of_there id ?_ fun _ _ hthere => leads_setKeyword hthere keyword
  intro places hmissing
  refine ⟨.itemNotFound id, ?_⟩
  simp only [setKeyword, result_bind, result_look, hmissing]
  rfl

theorem atomic_annotate (id : Int) (name value : String) : Atomic (annotate id name value) :=
  atomic_of_there id (fun _ hmissing => refuses_requireItem_bind hmissing _)
    fun _ hwell hthere => leads_annotate hwell hthere name value

theorem atomic_moveItem (id newParent index : Int) : Atomic (moveItem id newParent index) := by
  intro places hwell
  by_cases hnot : ∀ row, places.tree.row? id = some row → places.tree.IsFolder newParent →
      places.tree.Encloses id newParent
  · exact .inl (result_moveItem_of_not hwell hnot index)
  · push Not at hnot
    obtain ⟨row, hrow, hfolder, houtside⟩ := hnot
    exact .inr ⟨_, _, result_moveItem hwell hrow hfolder houtside index, trivial⟩

/-! ### Removal -/

theorem atomic_removeFolder (id : Int) : Atomic (removeFolder id) :=
  atomic_of_there id (fun _ hmissing => refuses_requireItem_bind hmissing _)
    fun tree hwell hthere => leads_removeFolder hwell (isSome_known? tree id ▸ hthere)

theorem atomic_removeItem (id : Int) : Atomic (removeItem id) :=
  atomic_of_there id (fun _ hmissing => refuses_requireItem_bind hmissing _)
    fun tree hwell hthere => leads_removeItem hwell (isSome_known? tree id ▸ hthere)

/-! ### Tags -/

/-- Without a root for tags there is no tag to be found, and none can be made. -/
theorem refuses_addTag {places : Places} (h : places.WellFormed)
    (hroot : ¬ places.tree.IsFolder RootId.tags) (uri tag : String) :
    (addTag uri tag).Refuses places := by
  obtain ⟨items, hitems, -, hmem⟩ := WellFormed.children h RootId.tags
  have hempty : items = [] := by
    rw [List.eq_nil_iff_forall_not_mem]
    intro item hitem
    have habove := (WellFormed.ids_children h hitems item.id).mp (List.mem_map_of_mem hitem)
    exact hroot (h.parent_folder item.id RootId.tags habove)
  have hfolder : ∃ cause, places.tree.requireFolder RootId.tags = .error cause := by
    cases hread : places.tree.requireFolder RootId.tags with
    | error cause => exact ⟨cause, rfl⟩
    | ok done => exact absurd ((WellFormed.requireFolder_iff h RootId.tags).mp hread) hroot
  obtain ⟨cause, hcause⟩ := hfolder
  rw [addTag_eq]
  refine Refuses.bind ⟨cause, ?_⟩ _
  simp only [ensureTag, tagFolder?, result_bind, result_checked, hitems, hempty, result_pure,
    List.find?_nil, Option.map_none, createFolder, insertItem, hcause]

/-- Only the first tag may be refused: once there is a root for tags, every tag finds it. -/
theorem atomic_tagUri (uri : String) (tags : List String) : Atomic (tagUri uri tags) := by
  intro places hwell
  cases huri : validateUri uri with
  | error cause => exact .inl (refuses_check_bind huri _)
  | ok checked =>
      obtain rfl := eq_of_validateUri huri
      by_cases hroot : places.tree.IsFolder RootId.tags
      · exact .inr ((leads_tagUri_entered hwell hroot huri tags places rfl).imp
          fun _ _ _ => trivial)
      · refine tries_check_bind fun checked _ => ?_
        cases tags.filter (!·.isEmpty) with
        | nil => exact .inr (yields_pure trivial)
        | cons tag rest => exact .inl ((refuses_addTag hwell hroot checked tag).bind _)

theorem atomic_untagUri (uri : String) (tags : Option (List String)) :
    Atomic (untagUri uri tags) := by
  intro places hwell
  cases huri : validateUri uri with
  | error cause => exact .inl (refuses_check_bind huri _)
  | ok checked =>
      obtain rfl := eq_of_validateUri huri
      exact .inr ((leads_untagUri hwell huri tags places rfl).imp fun _ _ _ => trivial)

end Places

namespace Mutation

open SyncedBookmarks.Places

theorem atomic_action (mutation : Mutation) : Atomic mutation.action := by
  cases mutation with
  | insertBookmark parent uri index title =>
      exact (atomic_insertBookmark parent uri index title).map _
  | createFolder parent title index => exact (atomic_createFolder parent title index).map _
  | insertSeparator parent index =>
      exact (atomic_insertItem parent index .separator none none).map _
  | setTitle id title => exact atomic_setTitle id title
  | setUrl id uri => exact atomic_setUrl id uri
  | setKeyword id keyword => exact atomic_setKeyword id keyword
  | setGuid id guid => exact atomic_setGuid id guid
  | moveItem id newParent index => exact atomic_moveItem id newParent index
  | removeItem id => exact atomic_removeItem id
  | removeFolder id => exact atomic_removeFolder id
  | removeChildren folder => exact atomic_of_leads fun _ hwell => leads_removeChildren hwell folder
  | annotate id name value => exact atomic_annotate id name value
  | unannotate id name => exact atomic_of_leads fun tree _ => leads_unannotate tree id name
  | tagUri uri tags => exact atomic_tagUri uri tags
  | untagUri uri tags => exact atomic_untagUri uri tags
  | createLivemark parent title site feed index =>
      exact (atomic_createLivemark parent title site feed index).map _
  | setSite id uri =>
      exact atomic_check_bind fun uri => atomic_annotate id AnnotationName.siteUri uri
  | setFeed id uri =>
      exact atomic_check_bind fun uri => atomic_annotate id AnnotationName.feedUri uri
  | beginBatch => exact fun places _ => .inr ⟨(), places.beginBatch, rfl, trivial⟩
  | endBatch => exact fun places _ => .inr ⟨(), places.endBatch, rfl, trivial⟩

end Mutation

namespace BookmarkStore

/-- A call that fails leaves every item with its annotations as it was, and no one has been told of
anything. -/
theorem unchanged_of_mutation {store : BookmarkStore} (h : store.Reachable) (mutation : Mutation)
    {cause : TreeError} (herror : (mutation.action.result store.places).1 = .error cause) :
    (mutation.action.result store.places).2 = store.places :=
  (mutation.atomic_action store.places h.wellFormed.tree).unchanged herror

/-- A store that has lost the root for tags. -/
def taglessStore : BookmarkStore :=
  StoreCall.runAll (fresh .numbered none) [.mutate (.removeItem RootId.tags)]

theorem reachable_taglessStore : taglessStore.Reachable :=
  ⟨.numbered, none, _, rfl⟩

theorem tags_refused_without_root :
    taglessStore.Reachable ∧
      ((Mutation.tagUri "about:blank" ["a", "b"]).action.result taglessStore.places).1 =
        .error (.invalidParent RootId.tags) ∧
      ((Mutation.tagUri "about:blank" ["a", "b"]).action.result taglessStore.places).2 =
        taglessStore.places := by
  have herror : ((Mutation.tagUri "about:blank" ["a", "b"]).action.result taglessStore.places).1 =
      .error (.invalidParent RootId.tags) := by
    cbv
  exact ⟨reachable_taglessStore, herror, unchanged_of_mutation reachable_taglessStore _ herror⟩

end BookmarkStore

end SyncedBookmarks
