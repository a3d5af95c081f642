import SyncedBookmarks.Proofs.Counterparts
import SyncedBookmarks.Proofs.Mutations

namespace SyncedBookmarks

/-! Every operation on an item, done to two trees that are the same but for the numbers of their
items, comes through in both or fails in both and leaves them so. -/

namespace Places

open SyncedBookmarks.Action SyncedBookmarks.Tree

def Counterpart (shift : Nat) (places other : Places) : Prop :=
  places.tree.Counterpart shift other.tree

/-- Whether two well-formed trees are the same but for the numbers. -/
def InStep (shift : Nat) (places other : Places) : Prop :=
  Counterpart shift places other ∧ places.WellFormed ∧ other.WellFormed

variable {shift : Nat}

theorem inStep {action : TreeAction α} {other : TreeAction β} {R : α → β → Prop}
    (h : action.Mimics (Counterpart shift) R other) (hkept : action.Keeps WellFormed)
    (hkept' : other.Keeps WellFormed) : action.Mimics (InStep shift) R other :=
  h.and_keeps hkept hkept'

/-! ### Steps -/

theorem mimics_look {view : Tree → α} {view' : Tree → β} {R : α → β → Prop}
    (h : ∀ tree other, tree.Counterpart shift other → R (view tree) (view' other)) :
    (look view).Mimics (Counterpart shift) R (look view') :=
  mimics_read fun _ _ hboth => h _ _ hboth

/-- A look at two things of which the one can be told from the other. -/
theorem mimics_lookAt {view : Tree → α} {view' : Tree → β} {f : α → β}
    (h : ∀ tree other, tree.Counterpart shift other → view' other = f (view tree)) :
    (look view).Mimics (Counterpart shift) (fun value value' => value' = f value) (look view') :=
  mimics_look h

theorem mimics_checked {view : Tree → Except TreeError α} {view' : Tree → Except TreeError β}
    {R : α → β → Prop}
    (h : ∀ tree other, tree.Counterpart shift other → SameOutcome R (view tree) (view' other)) :
    (check view).Mimics (Counterpart shift) R (check view') :=
  mimics_check fun _ _ hboth => h _ _ hboth

theorem mimics_edit {change change' : Tree → Tree}
    (h : ∀ tree other, tree.Counterpart shift other →
      (change tree).Counterpart shift (change' other)) :
    (edit change).Mimics (Counterpart shift) Eq (edit change') :=
  mimics_change fun _ _ hboth => h _ _ hboth

theorem mimics_tell (event event' : Event) :
    (tell event).Mimics (Counterpart shift) Eq (tell event') :=
  mimics_change fun _ _ hboth => hboth

/-- What does not depend on the tree. -/
theorem mimics_outcome {S : Places → Places → Prop} (outcome : Except TreeError α) :
    (check fun _ => outcome).Mimics S Eq (check fun _ => outcome) :=
  mimics_check fun _ _ _ => .eq_of_eq rfl

theorem mimics_validateUri {uri : String} (hquery : BookmarkStore.isQuery uri = false) :
    (check fun _ => validateUri uri).Mimics (Counterpart shift)
      (fun found found' => found = found' ∧ BookmarkStore.isQuery found = false)
      (check fun _ => validateUri uri) := by
  refine mimics_checked fun _ _ _ => ?_
  cases huri : validateUri uri with
  | error cause => exact .error _ _
  | ok checked => exact .ok ⟨rfl, eq_of_validateUri huri ▸ hquery⟩

/-! ### Insertion -/

theorem mimics_insertItem (parent : Int) {type : ItemType} {title url : Option String}
    (hfit : Fitting type title url)
    (hquery : NoQuery url) :
    (insertItem parent atEnd type title url).Mimics (InStep shift) (Twins shift)
      (insertItem (renumber shift parent) atEnd type title url) := by
  rintro places other ⟨hboth, hwell, hwell'⟩
  have hfolder := hboth.requireFolder parent
  cases hread : places.tree.requireFolder parent with
  | error cause =>
      rw [hread] at hfolder
      cases hread' : other.tree.requireFolder (renumber shift parent) with
      | ok value => rw [hread'] at hfolder; cases hfolder
      | error cause' =>
          simp only [insertItem, result_bind, result_checked, hread, hread']
          exact ⟨.error _ _, hboth, hwell, hwell'⟩
  | ok value =>
      rw [hread] at hfolder
      cases hread' : other.tree.requireFolder (renumber shift parent) with
      | error cause' => rw [hread'] at hfolder; cases hfolder
      | ok value' =>
          have hparent := (hwell.requireFolder_iff parent).mp hread
          have hparent' := (hwell'.requireFolder_iff _).mp hread'
          rw [result_insertItem hread, result_insertItem hread']
          refine ⟨.ok ⟨hboth.given, ?_⟩, ?_, hwell.inserted hparent atEnd hfit,
            hwell'.inserted hparent' atEnd hfit⟩
          · rw [hboth.nextId, renumber_of_lt hboth.given]
          · exact hboth.inserted hwell hwell' parent type title hquery

theorem mimics_insertBookmark (parent : Int) {uri : String}
    (hquery : BookmarkStore.isQuery uri = false) (title : Option String) :
    (insertBookmark parent uri atEnd title).Mimics (InStep shift) (Twins shift)
      (insertBookmark (renumber shift parent) uri atEnd title) := by
  intro places other hboth
  rw [insertBookmark, insertBookmark, result_bind, result_bind, result_checked, result_checked]
  cases huri : validateUri uri with
  | error cause => exact ⟨.error _ _, hboth⟩
  | ok checked =>
      obtain rfl := eq_of_validateUri huri
      refine mimics_insertItem parent (fitting_bookmark huri title) ?_ places other hboth
      rintro _ ⟨⟩
      exact hquery

theorem mimics_createFolder (parent : Int) (title : String) :
    (createFolder parent title atEnd).Mimics (InStep shift) (Twins shift)
      (createFolder (renumber shift parent) title atEnd) :=
  mimics_insertItem parent (fitting_folder title) fun _ huri => by cases huri

theorem mimics_insertSeparator (parent : Int) :
    (insertSeparator parent atEnd).Mimics (InStep shift) (Twins shift)
      (insertSeparator (renumber shift parent) atEnd) :=
  mimics_insertItem parent fitting_separator fun _ huri => by cases huri

/-! ### Changes to one item -/

section Item

variable {id id' : Int} (hid : Twins shift id id')

include hid

/-- A change to an item that is told. -/
theorem mimics_edited {change : Row → Row} (hchange : ∀ row, row.Ordinary →
      (change row).Counterpart shift (change (row.renumbered shift))) (event event' : Event) :
    (edit (·.mapRow id change) >>= fun _ => tell event).Mimics (Counterpart shift) Eq
      (edit (·.mapRow id' change) >>= fun _ => tell event') :=
  (mimics_edit fun _ _ hboth => hboth.mapRow hid hchange).bind fun _ _ _ => mimics_tell event event'

theorem mimics_setGuid (guid : String) :
    (setGuid id guid).Mimics (InStep shift) Eq (setGuid id' guid) := by
  refine inStep ?_ (keeps_setGuid id guid) (keeps_setGuid id' guid)
  refine (mimics_lookAt fun _ _ hboth => hboth.idOfGuid? guid).bind ?_
  rintro owner _ rfl
  cases owner with
  | some owner =>
      refine Mimics.ite ?_ (fun _ => mimics_pure rfl) fun _ => mimics_throw _ _
      rw [hid.2, renumber_inj]
  | none =>
      refine (mimics_lookAt fun _ _ hboth => hboth.row?_of_twins hid).bind ?_
      rintro row _ rfl
      refine Mimics.ite (by simp) (fun _ => mimics_throw _ _) fun _ => ?_
      exact mimics_edit fun _ _ hboth => hboth.mapRow hid fun row hrow =>
        @Row.Counterpart.item shift { row with guid } ⟨hrow.notRoot, hrow.noQuery⟩

theorem mimics_setTitle (title : String) :
    (setTitle id title).Mimics (InStep shift) Eq (setTitle id' title) := by
  refine inStep ?_ (keeps_setTitle id title) (keeps_setTitle id' title)
  refine (mimics_lookAt fun _ _ hboth => hboth.row?_of_twins hid).bind ?_
  rintro row _ rfl
  refine Mimics.ite (by simp) (fun _ => mimics_throw _ _) fun _ => ?_
  exact mimics_edited hid (fun row hrow =>
    @Row.Counterpart.item shift { row with title := some title } ⟨hrow.notRoot, hrow.noQuery⟩) _ _

theorem mimics_setUrl {uri : String} (huri : BookmarkStore.isQuery uri = false) :
    (setUrl id uri).Mimics (InStep shift) Eq (setUrl id' uri) := by
  refine inStep ?_ (keeps_setUrl id uri) (keeps_setUrl id' uri)
  refine (mimics_validateUri huri).bind ?_
  rintro uri _ ⟨rfl, huri⟩
  refine (mimics_lookAt fun _ _ hboth => hboth.row?_of_twins hid).bind ?_
  rintro row _ rfl
  refine Mimics.ite ?_ (fun _ => mimics_throw _ _) fun _ => ?_
  · cases row <;> rfl
  · refine mimics_edited hid (fun row hrow =>
      @Row.Counterpart.item shift { row with url := some uri } ⟨hrow.notRoot, ?_⟩) _ _
    rintro _ ⟨⟩
    exact huri

theorem mimics_setKeyword (keyword : Option String) :
    (setKeyword id keyword).Mimics (InStep shift) Eq (setKeyword id' keyword) := by
  refine inStep ?_ (keeps_setKeyword id keyword) (keeps_setKeyword id' keyword)
  refine (mimics_lookAt fun _ _ hboth => hboth.row?_of_twins hid).bind ?_
  rintro row _ rfl
  refine Mimics.ite (by simp) (fun _ => mimics_throw _ _) fun _ => ?_
  exact mimics_edited hid (fun row hrow => @Row.Counterpart.item shift
    { row with keyword := keyword.filter (!·.isEmpty) } ⟨hrow.notRoot, hrow.noQuery⟩) _ _

theorem mimics_annotate (name value : String) :
    (annotate id name value).Mimics (InStep shift) Eq (annotate id' name value) := by
  refine inStep ?_ (keeps_annotate id name value) (keeps_annotate id' name value)
  refine (mimics_checked fun _ _ hboth => hboth.requireItem hid).bind fun _ _ _ => ?_
  exact mimics_edited hid (fun row hrow =>
    @Row.Counterpart.item shift (row.annotate name value) ⟨hrow.notRoot, hrow.noQuery⟩) _ _

theorem mimics_unannotate (name : String) :
    (unannotate id name).Mimics (InStep shift) Eq (unannotate id' name) := by
  refine inStep ?_ (keeps_unannotate id name) (keeps_unannotate id' name)
  refine (mimics_look (R := Eq) fun tree other hboth => ?_).bind ?_
  · rw [isAnnotated, isAnnotated, hid.2, hboth.annotationOf?]
  · rintro there _ rfl
    refine Mimics.ite Iff.rfl (fun _ => ?_) fun _ => mimics_pure rfl
    exact mimics_edited hid (fun row hrow =>
      @Row.Counterpart.item shift (row.unannotate name) ⟨hrow.notRoot, hrow.noQuery⟩) _ _

theorem mimics_setSite (uri : String) :
    (setSite id uri).Mimics (InStep shift) Eq (setSite id' uri) := by
  refine (mimics_outcome (validateUri uri)).bind ?_
  rintro checked _ rfl
  exact mimics_annotate hid _ checked

theorem mimics_setFeed (uri : String) :
    (setFeed id uri).Mimics (InStep shift) Eq (setFeed id' uri) := by
  refine (mimics_outcome (validateUri uri)).bind ?_
  rintro checked _ rfl
  exact mimics_annotate hid _ checked

/-- A move goes on in both trees or is refused in both. -/
theorem mimics_moveItem (parent : Int) :
    (moveItem id parent atEnd).Mimics (InStep shift) Eq
      (moveItem id' (renumber shift parent) atEnd) := by
  obtain ⟨hitem, rfl⟩ := hid
  rintro places other ⟨hboth, hwell, hwell'⟩
  have hread := hboth.row?_of_twins ⟨hitem, rfl⟩
  by_cases hmoves : ∃ row, places.tree.row? id = some row ∧ places.tree.IsFolder parent ∧
      ¬ places.tree.Encloses id parent
  · obtain ⟨row, hrow, hfolder, houtside⟩ := hmoves
    obtain rfl := id_of_row? hrow
    rw [hrow, Option.map_some] at hread
    have hfolder' := (hboth.isFolder_iff hwell hwell' parent).mpr hfolder
    have houtside' := fun hencloses => houtside (hboth.encloses_iff.mp hencloses)
    rw [result_moveItem hwell hrow hfolder houtside,
      result_moveItem hwell' hread hfolder' houtside']
    exact ⟨.ok rfl, hboth.moved hwell hwell' hitem hrow hread parent,
      hwell.moved hrow hfolder houtside atEnd, hwell'.moved hread hfolder' houtside' atEnd⟩
  · push Not at hmoves
    have hmoves' : ∀ row', other.tree.row? (renumber shift id) = some row' →
        other.tree.IsFolder (renumber shift parent) →
          other.tree.Encloses (renumber shift id) (renumber shift parent) := by
      intro row' hrow' hfolder'
      obtain ⟨row, hrow, -⟩ := Option.map_eq_some_iff.mp (hread.symm.trans hrow')
      exact hboth.encloses_iff.mpr
        (hmoves row hrow ((hboth.isFolder_iff hwell hwell' parent).mp hfolder'))
    obtain ⟨cause, hrefused⟩ := result_moveItem_of_not hwell hmoves atEnd
    obtain ⟨cause', hrefused'⟩ := result_moveItem_of_not hwell' hmoves' atEnd
    rw [hrefused, hrefused']
    exact ⟨.error _ _, hboth, hwell, hwell'⟩

/-! ### Removal -/

theorem mimics_deleteRow :
    (deleteRow id).Mimics (Counterpart shift) Eq (deleteRow id') := by
  refine (mimics_look (R := fun _ _ => True) fun _ _ _ => trivial).bind fun _ _ _ =>
    (mimics_tell _ _).bind fun _ _ _ => ?_
  refine (mimics_checked fun _ _ hboth => hboth.requireItem hid).bind ?_
  rintro item _ ⟨hitem, rfl⟩
  refine (mimics_edit fun _ _ hboth => hboth.eraseRow item.id).bind fun _ _ _ => ?_
  simp only [Item.renumbered]
  cases item.parent with
  | none => exact mimics_pure rfl
  | some parent => exact mimics_edit fun _ _ hboth => hboth.closeGap parent item.position

end Item

theorem mimics_emptyFolder (fuel : Nat) {folder : Int} (hfolder : folder ≠ RootId.places) :
    (emptyFolder fuel folder).Mimics (Counterpart shift) Eq
      (emptyFolder fuel (renumber shift folder)) := by
  induction fuel generalizing folder with
  | zero => exact mimics_pure rfl
  | succ fuel ih =>
      refine (mimics_checked fun _ _ hboth => hboth.children hfolder).bind fun items items' hall =>
        mimics_forM (List.rel_reverse hall) ?_
      intro item item' hitem
      have hid := hitem.twins
      have hempty := ih hid.ne_places
      rw [← hid.2] at hempty
      refine Mimics.ite (by rw [hitem.type]) (fun _ => ?_) fun _ => mimics_deleteRow hid
      exact (mimics_checked fun _ _ hboth => hboth.requireItem hid).bind fun _ _ _ =>
        hempty.bind fun _ _ _ => mimics_deleteRow hid

section Item

variable {id id' : Int} (hid : Twins shift id id')

include hid

theorem mimics_removeFolder :
    (removeFolder id).Mimics (Counterpart shift) Eq (removeFolder id') := by
  refine (mimics_checked fun _ _ hboth => hboth.requireItem hid).bind ?_
  intro item item' hitem
  have hempty : (removeChildren id).Mimics (Counterpart shift) Eq (removeChildren id') := by
    refine (mimics_look (R := Eq) fun _ _ hboth => hboth.walkLength.symm).bind ?_
    rintro fuel _ rfl
    rw [hid.2]
    exact mimics_emptyFolder fuel hid.ne_places
  exact hempty.bind fun _ _ _ => mimics_deleteRow hitem.twins

theorem mimics_removeItem :
    (removeItem id).Mimics (Counterpart shift) Eq (removeItem id') := by
  refine (mimics_checked fun _ _ hboth => hboth.requireItem hid).bind ?_
  rintro item _ ⟨-, rfl⟩
  exact Mimics.ite Iff.rfl (fun _ => mimics_removeFolder hid) fun _ => mimics_deleteRow hid

end Item

/-! ### Tags -/

theorem mimics_children {folder folder' : Int} (hfolder : folder ≠ RootId.places)
    (hsame : folder' = renumber shift folder) :
    (check (·.children folder)).Mimics (Counterpart shift) (List.Forall₂ (Item.Counterpart shift))
      (check (·.children folder')) := by
  subst hsame
  exact mimics_checked fun _ _ hboth => hboth.children hfolder

theorem inStep_children {folder folder' : Int} (hfolder : folder ≠ RootId.places)
    (hsame : folder' = renumber shift folder) :
    (check (·.children folder)).Mimics (InStep shift) (List.Forall₂ (Item.Counterpart shift))
      (check (·.children folder')) :=
  inStep (mimics_children hfolder hsame) (keeps_checked _) (keeps_checked _)

theorem mimics_tagFolder? (tag : String) :
    (tagFolder? tag).Mimics (InStep shift) (Option.Rel (Twins shift)) (tagFolder? tag) := by
  refine (inStep_children (by decide) renumber_tags.symm).bind fun folders folders' hall =>
    mimics_pure (rel_map (find?_forall₂ hall ?_) ?_)
  · rintro item _ ⟨-, rfl⟩
    rfl
  · exact fun _ _ hitem => hitem.twins

theorem mimics_addTag {uri : String} (hquery : BookmarkStore.isQuery uri = false) (tag : String) :
    (addTag uri tag).Mimics (InStep shift) Eq (addTag uri tag) := by
  have hfill : ∀ folder folder', Twins shift folder folder' → (do
      if !holdsUrl uri (← check (·.children folder)) then
        let _ ← insertBookmark folder uri atEnd none : TreeAction Unit).Mimics (InStep shift) Eq (do
      if !holdsUrl uri (← check (·.children folder')) then
        let _ ← insertBookmark folder' uri atEnd none : TreeAction Unit) := by
    rintro folder _ hfolder
    refine (inStep_children hfolder.ne_places hfolder.2).bind fun items items' hall => ?_
    rw [Tree.Counterpart.holdsUrl hall]
    refine Mimics.ite Iff.rfl (fun _ => ?_) fun _ => mimics_pure rfl
    rw [hfolder.2]
    exact (mimics_insertBookmark folder hquery none).bind fun _ _ _ => mimics_pure rfl
  refine (mimics_tagFolder? tag).bind ?_
  rintro _ _ (hfolder | _)
  · exact hfill _ _ hfolder
  · have hmade : (createFolder RootId.tags tag atEnd).Mimics (InStep shift) (Twins shift)
        (createFolder (renumber shift RootId.tags) tag atEnd) := mimics_createFolder _ tag
    rw [renumber_tags] at hmade
    exact hmade.bind hfill

theorem mimics_tagUri {uri : String} (hquery : BookmarkStore.isQuery uri = false)
    (tags : List String) : (tagUri uri tags).Mimics (InStep shift) Eq (tagUri uri tags) := by
  refine (inStep (mimics_validateUri hquery) (keeps_checked _) (keeps_checked _)).bind ?_
  rintro uri _ ⟨rfl, hquery⟩
  refine mimics_forM (List.forall₂_same.mpr fun _ _ => rfl) ?_
  rintro tag _ rfl
  exact mimics_addTag hquery tag

theorem mimics_clearTag (uri : String) {folder folder' : Int}
    (hfolder : Twins shift folder folder') :
    (clearTag uri folder).Mimics (Counterpart shift) Eq (clearTag uri folder') := by
  refine (mimics_children hfolder.ne_places hfolder.2).bind fun items items' hall => ?_
  have hfiltered : ∀ p : Option String → Bool, List.Forall₂ (Item.Counterpart shift)
      (items.filter (p ·.url)) (items'.filter (p ·.url)) := by
    refine fun p => List.rel_filter (R := Item.Counterpart shift) ?_ hall
    rintro item _ ⟨-, rfl⟩
    exact Iff.rfl
  refine (mimics_forM (hfiltered (· == some uri)) ?_).bind fun _ _ _ => ?_
  · exact fun _ _ hitem => mimics_deleteRow hitem.twins
  · refine Mimics.ite ?_ (fun _ => mimics_deleteRow hfolder) fun _ => mimics_pure rfl
    have hlength := (hfiltered (· != some uri)).length_eq
    rw [List.isEmpty_iff_length_eq_zero, List.isEmpty_iff_length_eq_zero, hlength]

theorem mimics_untagUri (uri : String) (tags : Option (List String)) :
    (untagUri uri tags).Mimics (InStep shift) Eq (untagUri uri tags) := by
  refine inStep ?_ (keeps_untagUri uri tags) (keeps_untagUri uri tags)
  refine (mimics_outcome (validateUri uri)).bind ?_
  rintro uri _ rfl
  refine (mimics_children (by decide) renumber_tags.symm).bind fun folders folders' hall =>
    mimics_forM (List.rel_filter (R := Item.Counterpart shift) ?_ hall) ?_
  · rintro item _ ⟨-, rfl⟩
    exact Iff.rfl
  · exact fun _ _ hitem => mimics_clearTag uri hitem.twins

/-! ### Livemarks -/

theorem mimics_createLivemark (parent : Int) (title : String) (site : Option String)
    (feed : String) : (createLivemark parent title site feed atEnd).Mimics (InStep shift)
      (Twins shift) (createLivemark (renumber shift parent) title site feed atEnd) := by
  refine (mimics_outcome (validateUri feed)).bind ?_
  rintro feed _ rfl
  refine (mimics_outcome (site.mapM validateUri)).bind ?_
  rintro site _ rfl
  refine (mimics_createFolder parent title).bind fun id id' hid =>
    (mimics_annotate hid _ feed).bind fun _ _ _ => ?_
  cases site with
  | none => exact mimics_pure hid
  | some site => exact (mimics_annotate hid _ site).bind fun _ _ _ => mimics_pure hid

end Places

end SyncedBookmarks
