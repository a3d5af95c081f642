import SyncedBookmarks.Proofs.Bystanders

namespace SyncedBookmarks

/-! Operations on the tree, with the items that each of them leaves alone whatever its outcome. -/

namespace Places

open SyncedBookmarks.Action SyncedBookmarks.Tree

/-- A well-formed tree in which some items are undisturbed since an earlier one, and in which
nothing comes from elsewhere. -/
structure Spares (still own free : Int → Prop) (tree : Tree) (places : Places) : Prop where
  wellFormed : places.tree.WellFormed
  undisturbed : Undisturbed still own tree places.tree
  descends : Descends own free tree places.tree

theorem Spares.refl {still own free : Int → Prop} {places : Places}
    (h : places.tree.WellFormed) (hthere : ∀ id, still id → (places.tree.row? id).isSome) :
    Spares still own free places.tree places :=
  ⟨h, .refl hthere, .refl _⟩

theorem Spares.step {still own free : Int → Prop} {tree : Tree} {places next : Places}
    (h : Spares still own free tree places) (hwell : next.tree.WellFormed)
    (hundisturbed : Undisturbed still own places.tree next.tree)
    (hdescends : Descends own free places.tree next.tree) : Spares still own free tree next :=
  ⟨hwell, h.undisturbed.trans hundisturbed, h.descends.trans hdescends⟩

/-! ### Writing to one item -/

/-- An operation that at most makes one change to one item, of a certain sort. -/
def Writes (sort : (Row → Row) → Prop) (id : Int) (action : TreeAction α) : Prop :=
  ∀ places, (action.result places).2.tree = places.tree ∨
    ∃ change, sort change ∧ (action.result places).2.tree = places.tree.mapRow id change

theorem lasting_guid (guid : String) : Lasting fun row => { row with guid } :=
  { steady_guid guid with typeCode := fun _ => rfl }

theorem lasting_annotate (name value : String) : Lasting (·.annotate name value) :=
  { steady_annotate name value with typeCode := fun _ => rfl }

theorem lasting_unannotate (name : String) : Lasting (·.unannotate name) :=
  { steady_unannotate name with typeCode := fun _ => rfl }

theorem inward_title (title : Option String) : Inward fun row => { row with title } :=
  { steady_title title with
    typeCode := fun _ => rfl
    guid := fun _ => rfl
    mark? := fun _ => rfl }

theorem inward_url (url : Option String) : Inward fun row => { row with url } :=
  { steady_url url with
    typeCode := fun _ => rfl
    guid := fun _ => rfl
    mark? := fun _ => rfl }

theorem inward_keyword (keyword : Option String) : Inward fun row => { row with keyword } :=
  { steady_keyword keyword with
    typeCode := fun _ => rfl
    guid := fun _ => rfl
    mark? := fun _ => rfl }

theorem inward_annotate {name : String} (hname : name ≠ AnnotationName.intendedParent)
    (value : String) : Inward (·.annotate name value) :=
  { lasting_annotate name value with
    guid := fun _ => rfl
    mark? := fun row => by
      rw [Row.mark?, Row.annotationOf?_annotate, if_neg hname.symm, Row.mark?] }

theorem inward_unannotate {name : String} (hname : name ≠ AnnotationName.intendedParent) :
    Inward (·.unannotate name) :=
  { lasting_unannotate name with
    guid := fun _ => rfl
    mark? := fun row => by
      rw [Row.mark?, Row.annotationOf?_unannotate, if_neg hname.symm, Row.mark?] }

theorem writes_setGuid {sort : (Row → Row) → Prop} (id : Int) {guid : String}
    (hsort : sort fun row => { row with guid }) : Writes sort id (setGuid id guid) := by
  intro places
  simp only [setGuid, result_bind, result_look]
  cases places.tree.idOfGuid? guid with
  | some owner =>
      dsimp only
      split <;> exact .inl rfl
  | none =>
      simp only [result_bind, result_look]
      split
      · exact .inl rfl
      · exact .inr ⟨_, hsort, rfl⟩

theorem writes_setTitle {sort : (Row → Row) → Prop} (id : Int) {title : String}
    (hsort : sort fun row => { row with title := some title }) :
    Writes sort id (setTitle id title) := by
  intro places
  simp only [setTitle, result_bind, result_look]
  split
  · exact .inl rfl
  · exact .inr ⟨_, hsort, rfl⟩

theorem writes_setUrl {sort : (Row → Row) → Prop} (id : Int) {uri : String}
    (hsort : sort fun row => { row with url := some uri }) : Writes sort id (setUrl id uri) := by
  intro places
  rw [setUrl, result_bind, result_checked]
  cases huri : validateUri uri with
  | error cause => exact .inl rfl
  | ok checked =>
      obtain rfl := eq_of_validateUri huri
      simp only [result_bind, result_look]
      split
      · exact .inl rfl
      · exact .inr ⟨_, hsort, rfl⟩

theorem writes_setKeyword {sort : (Row → Row) → Prop} (id : Int) {keyword : Option String}
    (hsort : sort fun row => { row with keyword := keyword.filter (!·.isEmpty) }) :
    Writes sort id (setKeyword id keyword) := by
  intro places
  simp only [setKeyword, result_bind, result_look]
  split
  · exact .inl rfl
  · exact .inr ⟨_, hsort, rfl⟩

theorem writes_annotate {sort : (Row → Row) → Prop} (id : Int) {name value : String}
    (hsort : sort (·.annotate name value)) : Writes sort id (annotate id name value) := by
  intro places
  rw [annotate, result_bind, result_checked]
  cases places.tree.requireItem id with
  | error cause => exact .inl rfl
  | ok item => exact .inr ⟨_, hsort, rfl⟩

theorem writes_unannotate {sort : (Row → Row) → Prop} (id : Int) {name : String}
    (hsort : sort (·.unannotate name)) : Writes sort id (unannotate id name) := by
  intro places
  simp only [unannotate, result_bind, result_look]
  split
  · exact .inr ⟨_, hsort, rfl⟩
  · exact .inl rfl

theorem writes_setSite {sort : (Row → Row) → Prop} (id : Int) {uri : String}
    (hsort : sort (·.annotate AnnotationName.siteUri uri)) : Writes sort id (setSite id uri) := by
  intro places
  rw [setSite, result_bind, result_checked]
  cases huri : validateUri uri with
  | error cause => exact .inl rfl
  | ok checked => exact writes_annotate id (eq_of_validateUri huri ▸ hsort) places

theorem writes_setFeed {sort : (Row → Row) → Prop} (id : Int) {uri : String}
    (hsort : sort (·.annotate AnnotationName.feedUri uri)) : Writes sort id (setFeed id uri) := by
  intro places
  rw [setFeed, result_bind, result_checked]
  cases huri : validateUri uri with
  | error cause => exact .inl rfl
  | ok checked => exact writes_annotate id (eq_of_validateUri huri ▸ hsort) places

section Spares

variable {still own free : Int → Prop} {tree : Tree}

theorem Writes.keeps_spares {sort : (Row → Row) → Prop} {action : TreeAction α} {id : Int}
    (h : Writes sort id action) (hwell : action.Keeps WellFormed)
    (hsort : ∀ change, sort change → Lasting change ∧ (¬ free id → Inward change))
    (hown : still id → own id) (hfree : ¬ free id → own id) :
    action.Keeps (Spares still own free tree) := by
  intro places hspares
  have hnext := hwell places hspares.wellFormed
  rcases h places with hsame | ⟨change, hchange, hsame⟩
  · refine hspares.step hnext ?_ ?_ <;> rw [hsame]
    · exact .refl hspares.undisturbed.there
    · exact .refl _
  · obtain ⟨hlasting, hinward⟩ := hsort change hchange
    refine hspares.step hnext ?_ ?_ <;> rw [hsame]
    · exact undisturbed_mapRow hspares.undisturbed.there hlasting.toSteady hown
    · exact descends_mapRow _ hlasting hinward hfree

/-- What is written to an item that may be written to is its own matter. -/
theorem Writes.keeps {action : TreeAction α} {id : Int} (h : Writes Inward id action)
    (hwell : action.Keeps WellFormed) (hown : own id) :
    action.Keeps (Spares still own free tree) :=
  h.keeps_spares hwell (fun _ hinward => ⟨hinward.toLasting, fun _ => hinward⟩) (fun _ => hown)
    fun _ => hown

/-- An item that is free may get another name, and wait for another parent. -/
theorem Writes.keeps_of_free {action : TreeAction α} {id : Int} (h : Writes Lasting id action)
    (hwell : action.Keeps WellFormed) (hown : still id → own id) (hfree : free id) :
    action.Keeps (Spares still own free tree) :=
  h.keeps_spares hwell (fun _ hlasting => ⟨hlasting, fun hnot => absurd hfree hnot⟩) hown
    fun hnot => absurd hfree hnot

/-! ### Insertion -/

/-- A new item is none of those that are to stay. -/
theorem ensures_insertItem (parent : Int) {type : ItemType} {title url : Option String}
    (hfit : Fitting type title url) :
    (insertItem parent atEnd type title url).Ensures (Spares still own free tree)
      fun id => ¬ still id ∧ tree.nextId ≤ id := by
  intro places hspares
  have hwell := hspares.wellFormed
  cases hfolder : places.tree.requireFolder parent with
  | error cause =>
      simp only [insertItem, result_bind, result_checked, hfolder]
      exact ⟨hspares, fun _ hvalue => by cases hvalue⟩
  | ok value =>
      have hparent := (hwell.requireFolder_iff parent).mp hfolder
      obtain ⟨id, hid, rfl, hnext⟩ :=
        (leads_insertItem hwell hparent atEnd type title url places rfl).result
      constructor
      · refine hspares.step ?_ ?_ ?_ <;> rw [hnext]
        · exact hwell.inserted hparent atEnd hfit
        · exact undisturbed_inserted hwell hspares.undisturbed.there parent type title url
        · exact descends_inserted hwell parent atEnd type title url
      · intro found hfound
        obtain rfl := Except.ok.inj (hid.symm.trans hfound)
        refine ⟨?_, hspares.descends.nextId_le⟩
        intro hstill
        have hthere := hspares.undisturbed.there _ hstill
        rw [← isSome_known?, hwell.known?_nextId] at hthere
        contradiction

theorem ensures_insertBookmark (parent : Int) (uri : String) (title : Option String) :
    (insertBookmark parent uri atEnd title).Ensures (Spares still own free tree)
      fun id => ¬ still id ∧ tree.nextId ≤ id := by
  rw [insertBookmark]
  have hcheck : (check fun _ => validateUri uri).Ensures (Spares still own free tree)
      fun checked => validateUri uri = .ok checked := ensures_check fun _ _ _ hchecked => hchecked
  refine hcheck.bind ?_
  intro checked hchecked
  obtain rfl := eq_of_validateUri hchecked
  exact ensures_insertItem parent (fitting_bookmark hchecked title)

/-! ### Tags -/

/-- Tagging keeps what the insertion of tags and of bookmarks keeps. -/
theorem keeps_tagUri_of {inv : Places → Prop}
    (htag : ∀ tag, (createFolder RootId.tags tag atEnd).Keeps inv)
    {uri : String} (hentry : ∀ folder, (insertBookmark folder uri atEnd none).Keeps inv)
    (tags : List String) : (tagUri uri tags).Keeps inv := by
  have hadd : ∀ tag, (addTag uri tag).Keeps inv := by
    intro tag
    have hfind : (tagFolder? tag).Keeps inv :=
      (keeps_check _ _).bind fun _ => keeps_pure _ _
    have hensure : (ensureTag tag).Keeps inv := by
      refine hfind.bind fun found => ?_
      cases found with
      | some id => exact keeps_pure _ _
      | none => exact htag tag
    rw [addTag_eq]
    refine hensure.bind fun folder => (keeps_check _ _).bind fun items => ?_
    split
    · exact (hentry folder).bind fun _ => keeps_pure _ _
    · exact keeps_pure _ _
  have hcheck : (check fun _ => validateUri uri).Ensures inv fun checked => checked = uri :=
    ensures_check fun _ _ _ hchecked => eq_of_validateUri hchecked
  exact hcheck.bind_keeps fun _ hchecked => keeps_forM _ fun tag _ => hchecked ▸ hadd tag

theorem keeps_tagUri_spares (uri : String) (tags : List String) :
    (tagUri uri tags).Keeps (Spares still own free tree) :=
  keeps_tagUri_of (fun tag => (ensures_insertItem RootId.tags (fitting_folder tag)).keeps)
    (fun folder => (ensures_insertBookmark folder uri none).keeps) tags

/-! ### Removal -/

theorem exists_row_of_requireItem {id : Int} {item : Item} (h : tree.requireItem id = .ok item) :
    ∃ row, tree.row? id = some row ∧ row.item = .ok item := by
  cases hrow : tree.row? id with
  | none =>
      rw [(Tree.WellFormed.item?_none hrow).2] at h
      cases h
  | some row =>
      have hread : tree.item? id = row.item.map some := by rw [Tree.item?, hrow]
      cases hitem : row.item with
      | error cause =>
          rw [Tree.requireItem, hread, hitem] at h
          cases h
      | ok found =>
          rw [Tree.requireItem, hread, hitem] at h
          exact ⟨row, rfl, hitem.trans h⟩

theorem keeps_deleteRow_inOrder (id : Int) :
    (deleteRow id).Keeps fun places => InOrder tree places.tree := by
  intro places horder
  simp only [deleteRow, tell, result_bind, result_look, result_change, result_checked]
  cases hitem : places.tree.requireItem id with
  | error cause => exact horder
  | ok item =>
      obtain ⟨row, -, hread⟩ := exists_row_of_requireItem hitem
      obtain ⟨hid, -, hparent, hposition, -⟩ := Row.item_eq_ok_iff.mp hread
      have hremoved := inOrder_removed places.tree row
      rw [removed, ← hparent, ← hposition, ← hid] at hremoved
      simp only [edit, result_change]
      cases hup : item.parent with
      | none =>
          rw [hup] at hremoved
          exact horder.trans hremoved
      | some parent =>
          rw [hup] at hremoved
          exact horder.trans hremoved

section Deletions

variable {inv : Places → Prop} (hdelete : ∀ id, (deleteRow id).Keeps inv)

include hdelete

/-! What single deletions keep, every removal keeps. -/

theorem keeps_emptyFolder_of (fuel : Nat) (folder : Int) : (emptyFolder fuel folder).Keeps inv := by
  induction fuel generalizing folder with
  | zero => exact keeps_pure _ _
  | succ fuel ih =>
      refine (keeps_check _ _).bind fun children => keeps_forM _ fun child _ => ?_
      split
      · exact (keeps_check _ _).bind fun _ => (ih child.id).bind fun _ => hdelete _
      · exact hdelete _

theorem keeps_removeChildren_of (folder : Int) : (removeChildren folder).Keeps inv :=
  (keeps_read _ _).bind fun fuel => keeps_emptyFolder_of hdelete fuel folder

theorem keeps_removeFolder_of (id : Int) : (removeFolder id).Keeps inv :=
  (keeps_check _ _).bind fun _ => (keeps_removeChildren_of hdelete id).bind fun _ => hdelete _

theorem keeps_removeItem_of (id : Int) : (removeItem id).Keeps inv := by
  refine (keeps_check _ _).bind fun item => ?_
  split
  · exact keeps_removeFolder_of hdelete id
  · exact hdelete id

theorem keeps_untagUri_of (uri : String) (tags : Option (List String)) :
    (untagUri uri tags).Keeps inv := by
  refine (keeps_check _ _).bind fun _ => (keeps_check _ _).bind fun _ => keeps_forM _ fun _ _ =>
    (keeps_check _ _).bind fun _ => (keeps_forM _ fun _ _ => hdelete _).bind fun _ => ?_
  split
  · exact hdelete _
  · exact keeps_pure _ _

end Deletions

/-- Where an operation only takes items away, and none of those that are to stay. -/
theorem Spares.cleared {places : Places} (h : Spares still own free tree places)
    {action : TreeAction α} {gone : Int → Prop}
    (hleads : Leads action places.tree fun _ next => Cleared gone places.tree next)
    (horder : action.Keeps fun next => InOrder places.tree next.tree)
    (hgone : ∀ id, still id → ¬ gone id) : Spares still own free tree (action.result places).2 := by
  obtain ⟨-, -, hcleared⟩ := (hleads places rfl).result
  have hinOrder := horder places (InOrder.refl places.tree)
  exact h.step hcleared.wellFormed
    (undisturbed_cleared hcleared hinOrder h.undisturbed.there hgone) (descends_cleared hcleared)

theorem keeps_untagUri_spares (hsheltered : Sheltered still tree) (uri : String)
    (tags : Option (List String)) : (untagUri uri tags).Keeps (Spares still own free tree) := by
  intro places h
  cases huri : validateUri uri with
  | error cause =>
      rw [untagUri, result_bind, result_checked, huri]
      exact h
  | ok checked =>
      obtain rfl := eq_of_validateUri huri
      exact h.cleared (leads_untagUri h.wellFormed huri tags)
        (keeps_untagUri_of keeps_deleteRow_inOrder checked tags)
        fun id hid => (hsheltered.of_undisturbed h.undisturbed).not_untagged hid checked _

/-- An operation that takes an item away with all that is below it. -/
theorem keeps_spares_of_there {action : TreeAction Unit} {id : Int} (hid : ¬ still id)
    (hupward : Upward still tree)
    (hfail : ∀ places : Places, places.tree.row? id = none → (action.result places).2 = places)
    (hleads : ∀ tree : Tree, tree.WellFormed → (tree.known? id).isSome →
      Leads action tree fun _ next => Cleared (tree.Encloses id) tree next)
    (horder : ∀ tree, action.Keeps fun places => InOrder tree places.tree) :
    action.Keeps (Spares still own free tree) := by
  intro places h
  by_cases hthere : (places.tree.known? id).isSome
  · refine h.cleared (hleads _ h.wellFormed hthere) (horder places.tree) ?_
    exact fun place hplace hencloses =>
      hid ((hupward.of_undisturbed h.undisturbed).of_encloses hplace hencloses)
  · have hnone : places.tree.row? id = none := by
      rw [isSome_known?] at hthere
      simpa using hthere
    rw [hfail places hnone]
    exact h

theorem keeps_removeFolder_spares (hupward : Upward still tree) {id : Int} (hid : ¬ still id) :
    (removeFolder id).Keeps (Spares still own free tree) := by
  exact keeps_spares_of_there hid hupward (fun _ => result_removeFolder_of_none)
    (fun _ h hthere => leads_removeFolder h hthere)
    fun _ => keeps_removeFolder_of keeps_deleteRow_inOrder id

theorem keeps_removeItem_spares (hupward : Upward still tree) {id : Int} (hid : ¬ still id) :
    (removeItem id).Keeps (Spares still own free tree) := by
  exact keeps_spares_of_there hid hupward (fun _ => result_removeItem_of_none)
    (fun _ h hthere => leads_removeItem h hthere)
    fun _ => keeps_removeItem_of keeps_deleteRow_inOrder id

theorem keeps_removeChildren_spares (hupward : Upward still tree) {folder : Int}
    (hbelow : ∀ id, still id → ¬ tree.Below folder id) :
    (removeChildren folder).Keeps (Spares still own free tree) := by
  intro places h
  refine h.cleared (leads_removeChildren h.wellFormed folder)
    (keeps_removeChildren_of keeps_deleteRow_inOrder folder) ?_
  exact fun id hid hgone =>
    hbelow id hid ⟨hupward.encloses h.undisturbed hid hgone.1, hgone.2⟩

/-! ### An item that may go elsewhere -/

theorem keeps_moveItem_spares {id : Int} (hid : ¬ still id) (hfree : free id) (newParent : Int) :
    (moveItem id newParent atEnd).Keeps (Spares still own free tree) := by
  intro places h
  by_cases hnot : ∀ row, places.tree.row? id = some row → places.tree.IsFolder newParent →
      places.tree.Encloses id newParent
  · obtain ⟨cause, hresult⟩ := result_moveItem_of_not h.wellFormed hnot atEnd
    rw [hresult]
    exact h
  · push Not at hnot
    obtain ⟨row, hrow, hfolder, houtside⟩ := hnot
    obtain ⟨-, -, hnext⟩ :=
      (leads_moveItem h.wellFormed hrow hfolder houtside atEnd places rfl).result
    refine h.step ?_ ?_ ?_ <;> rw [hnext]
    · exact h.wellFormed.moved hrow hfolder houtside atEnd
    · exact undisturbed_moved h.wellFormed h.undisturbed.there hrow hid hfolder houtside
    · exact descends_moved hrow hfree newParent atEnd

end Spares

end Places

end SyncedBookmarks
