import SyncedBookmarks.Proofs.Changes
import SyncedBookmarks.Proofs.Reading
import SyncedBookmarks.Proofs.Steps
import SyncedBookmarks.Tree.Places

namespace SyncedBookmarks

/-! The operations that touch one item: what each makes of a well-formed tree when its arguments
fit, and that it keeps the tree well-formed whatever they are. -/

namespace Places

open SyncedBookmarks.Action

/-- What an operation on a tree leads to, whatever has been told so far. -/
def Leads (action : TreeAction α) (tree : Tree) (post : α → Tree → Prop) : Prop :=
  ∀ places : Places, places.tree = tree →
    action.Yields places fun value next => post value next.tree

def WellFormed (places : Places) : Prop :=
  places.tree.WellFormed

/-! ### Steps -/

theorem result_look (view : Tree → α) (places : Places) :
    (look view).result places = (.ok (view places.tree), places) := rfl

theorem result_checked (view : Tree → Except TreeError α) (places : Places) :
    (check view).result places = (view places.tree, places) := rfl

@[simp] theorem tree_told (places : Places) (event : Event) :
    (places.told event).tree = places.tree := rfl

theorem leads_pure {value : α} {tree : Tree} {post : α → Tree → Prop} (h : post value tree) :
    Leads (pure value) tree post := by
  rintro places rfl
  exact yields_pure h

theorem Leads.bind {action : TreeAction α} {next : α → TreeAction β} {tree : Tree}
    {middle : α → Tree → Prop} {post : β → Tree → Prop} (haction : Leads action tree middle)
    (hnext : ∀ value tree, middle value tree → Leads (next value) tree post) :
    Leads (action >>= next) tree post := by
  intro places htree
  exact (haction places htree).bind fun value state hmiddle => hnext value _ hmiddle state rfl

theorem leads_look_bind {view : Tree → α} {next : α → TreeAction β} {tree : Tree}
    {post : β → Tree → Prop} (h : Leads (next (view tree)) tree post) :
    Leads (look view >>= next) tree post := by
  rintro places rfl
  exact (yields_read (P := fun value state => value = view places.tree ∧ state = places)
    ⟨rfl, rfl⟩).bind fun value state hread => by rw [hread.1, hread.2]; exact h places rfl

theorem leads_check_bind {view : Tree → Except TreeError α} {next : α → TreeAction β} {tree : Tree}
    {post : β → Tree → Prop} {value : α} (hview : view tree = .ok value)
    (h : Leads (next value) tree post) : Leads (check view >>= next) tree post := by
  rintro places rfl
  exact (yields_check (P := fun found state => found = value ∧ state = places) hview
    ⟨rfl, rfl⟩).bind fun found state hread => by rw [hread.1, hread.2]; exact h places rfl

theorem leads_edit_bind {change : Tree → Tree} {next : Unit → TreeAction β} {tree : Tree}
    {post : β → Tree → Prop} (h : Leads (next ()) (change tree) post) :
    Leads (edit change >>= next) tree post := by
  rintro places rfl
  exact (yields_change (P := fun _ state => state.tree = change places.tree) rfl).bind
    fun _ state hstate => h state hstate

theorem leads_tell_bind (event : Event) {next : Unit → TreeAction β} {tree : Tree}
    {post : β → Tree → Prop} (h : Leads (next ()) tree post) :
    Leads (tell event >>= next) tree post := by
  rintro places rfl
  exact (yields_change (P := fun _ state => state.tree = places.tree) rfl).bind
    fun _ state hstate => h state hstate

theorem leads_edit {change : Tree → Tree} {tree : Tree} {post : Unit → Tree → Prop}
    (h : post () (change tree)) : Leads (edit change) tree post := by
  rintro places rfl
  exact yields_change h

theorem leads_tell (event : Event) {tree : Tree} {post : Unit → Tree → Prop} (h : post () tree) :
    Leads (tell event) tree post := by
  rintro places rfl
  exact yields_change h

theorem Leads.imp {action : TreeAction α} {tree : Tree} {post post' : α → Tree → Prop}
    (haction : Leads action tree post) (h : ∀ value tree, post value tree → post' value tree) :
    Leads action tree post' :=
  fun places htree => (haction places htree).imp fun value _ hpost => h value _ hpost

theorem leads_forM {step : α → TreeAction PUnit} {P : List α → Tree → Prop}
    (hstep : ∀ x xs tree, P (x :: xs) tree → Leads (step x) tree fun _ next => P xs next)
    (xs : List α) {tree : Tree} (h : P xs tree) :
    Leads (xs.forM step) tree fun _ next => P [] next := by
  rintro places rfl
  exact yields_forM (P := fun xs places => P xs places.tree)
    (fun x xs state hinv => hstep x xs _ hinv state rfl) xs places h

theorem keeps_checked (view : Tree → Except TreeError α) : (check view).Keeps WellFormed :=
  keeps_check _ _

/-- An operation that gets through every well-formed tree to a well-formed one. -/
theorem keeps_of_leads {action : TreeAction α} {P : Tree → α → Tree → Prop}
    (h : ∀ tree, tree.WellFormed → Leads action tree (P tree))
    (hnext : ∀ tree value next, tree.WellFormed → P tree value next → next.WellFormed) :
    action.Keeps WellFormed := by
  intro places hwell
  obtain ⟨value, -, hafter⟩ := (h places.tree hwell places rfl).result
  exact hnext _ _ _ hwell hafter

/-! ### Insertion -/

theorem result_insertItem {places : Places} {parent : Int}
    (hfolder : places.tree.requireFolder parent = .ok ()) (index : Int) (type : ItemType)
    (title url : Option String) :
    (insertItem parent index type title url).result places =
      (.ok places.tree.nextId,
        ({ places with tree := places.tree.inserted parent index type title url } : Places).told
          (.added places.tree.nextId parent (places.tree.slot parent index))) := by
  have hid := Tree.nextId_reserve places.tree parent index
  simp only [insertItem, result_bind, result_checked, hfolder]
  rw [← hid]
  rfl

theorem leads_insertItem {tree : Tree} (h : tree.WellFormed) {parent : Int}
    (hparent : tree.IsFolder parent) (index : Int) (type : ItemType) (title url : Option String) :
    Leads (insertItem parent index type title url) tree fun id next =>
      id = tree.nextId ∧ next = tree.inserted parent index type title url := by
  rintro places rfl
  exact ⟨_, _, result_insertItem (h.requireFolder hparent) index type title url, rfl, rfl⟩

theorem keeps_insertItem (parent index : Int) {type : ItemType} {title url : Option String}
    (hfit : Tree.Fitting type title url) :
    (insertItem parent index type title url).Keeps WellFormed := by
  intro places hwell
  cases hfolder : places.tree.requireFolder parent with
  | error cause =>
      simp only [insertItem, result_bind, result_checked, hfolder]
      exact hwell
  | ok value =>
      rw [result_insertItem hfolder]
      exact hwell.inserted ((hwell.requireFolder_iff parent).mp hfolder) index hfit

theorem fitting_bookmark {uri : String} (huri : validateUri uri = .ok uri) (title : Option String) :
    Tree.Fitting .bookmark title (some uri) where
  url_iff := by simp
  url_valid := by
    intro other hother
    rw [← Option.some.inj hother]
    exact huri
  titled := by simp

theorem fitting_folder (title : String) : Tree.Fitting .folder (some title) none where
  url_iff := by simp
  url_valid := by simp
  titled := by simp

theorem fitting_separator : Tree.Fitting .separator none none where
  url_iff := by simp
  url_valid := by simp
  titled := by simp

theorem leads_insertBookmark {tree : Tree} (h : tree.WellFormed) {parent : Int}
    (hparent : tree.IsFolder parent) {uri : String} (huri : validateUri uri = .ok uri) (index : Int)
    (title : Option String) :
    Leads (insertBookmark parent uri index title) tree fun id next =>
      id = tree.nextId ∧ next = tree.inserted parent index .bookmark title (some uri) := by
  exact leads_check_bind huri (leads_insertItem h hparent index .bookmark title (some uri))

theorem keeps_insertBookmark (parent : Int) (uri : String) (index : Int) (title : Option String) :
    (insertBookmark parent uri index title).Keeps WellFormed := by
  intro places hwell
  rw [insertBookmark, result_bind, result_checked]
  cases huri : validateUri uri with
  | error cause => exact hwell
  | ok checked =>
      obtain rfl := eq_of_validateUri huri
      exact keeps_insertItem parent index (fitting_bookmark huri title) places hwell

theorem keeps_createFolder (parent : Int) (title : String) (index : Int) :
    (createFolder parent title index).Keeps WellFormed :=
  keeps_insertItem parent index (fitting_folder title)

theorem keeps_insertSeparator (parent index : Int) :
    (insertSeparator parent index).Keeps WellFormed :=
  keeps_insertItem parent index fitting_separator

/-! ### Changes to one item -/

theorem filter_isEmpty_ne (keyword : Option String) :
    keyword.filter (!·.isEmpty) ≠ some "" := by
  rw [ne_eq, Option.filter_eq_some_iff]
  simp

theorem leads_setGuid {tree : Tree} {id : Int} {guid : String} (hrow : (tree.row? id).isSome)
    (hfree : tree.idOfGuid? guid = none) :
    Leads (setGuid id guid) tree fun _ next => next = tree.mapRow id ({ · with guid }) := by
  rw [setGuid]
  refine leads_look_bind ?_
  rw [hfree]
  refine leads_look_bind ?_
  rw [if_neg (by simpa [Option.isSome_iff_ne_none] using hrow)]
  exact leads_edit rfl

theorem keeps_setGuid (id : Int) (guid : String) : (setGuid id guid).Keeps WellFormed := by
  intro places hwell
  simp only [setGuid, result_bind, result_look]
  cases howner : places.tree.idOfGuid? guid with
  | some owner =>
      dsimp only
      split <;> exact hwell
  | none =>
      simp only [result_bind, result_look]
      split
      · exact hwell
      · exact Tree.WellFormed.setGuid hwell howner id

theorem leads_setTitle {tree : Tree} {id : Int} (hrow : (tree.row? id).isSome) (title : String) :
    Leads (setTitle id title) tree fun _ next =>
      next = tree.mapRow id ({ · with title := some title }) := by
  refine leads_look_bind ?_
  rw [if_neg (by simpa [Option.isSome_iff_ne_none] using hrow)]
  exact leads_edit_bind (leads_tell _ rfl)

theorem keeps_setTitle (id : Int) (title : String) : (setTitle id title).Keeps WellFormed := by
  intro places hwell
  simp only [setTitle, result_bind, result_look]
  split
  · exact hwell
  · exact Tree.WellFormed.setTitle hwell id title

theorem leads_setUrl {tree : Tree} {id : Int} {row : Row} (hrow : tree.known? id = some row)
    (hbookmark : row.typeCode = ItemType.bookmark.code) {uri : String}
    (huri : validateUri uri = .ok uri) :
    Leads (setUrl id uri) tree fun _ next =>
      next = tree.mapRow id ({ · with url := some uri }) := by
  obtain ⟨found, hfound, rfl⟩ := Option.map_eq_some_iff.mp hrow
  refine leads_check_bind huri (leads_look_bind ?_)
  rw [if_neg]
  · exact leads_edit_bind (leads_tell _ rfl)
  · simpa [hfound, isBookmarkRow] using hbookmark

theorem keeps_setUrl (id : Int) (uri : String) : (setUrl id uri).Keeps WellFormed := by
  intro places hwell
  rw [setUrl, result_bind, result_checked]
  cases huri : validateUri uri with
  | error cause => exact hwell
  | ok checked =>
      obtain rfl := eq_of_validateUri huri
      simp only [result_bind, result_look]
      split
      · exact hwell
      · rename_i hany
        obtain ⟨row, hrow, hbookmark⟩ : ∃ row, places.tree.row? id = some row ∧
            isBookmarkRow row = true := by
          simpa [Option.any_eq_true] using hany
        have hentry := Tree.known?_of_row? hrow
        exact Tree.WellFormed.setUrl hwell hentry
          (by simpa [isBookmarkRow] using hbookmark) huri

theorem leads_setKeyword {tree : Tree} {id : Int} (hrow : (tree.row? id).isSome)
    (keyword : Option String) :
    Leads (setKeyword id keyword) tree fun _ next =>
      next = tree.mapRow id ({ · with keyword := keyword.filter (!·.isEmpty) }) := by
  refine leads_look_bind ?_
  rw [if_neg (by simpa [Option.isSome_iff_ne_none] using hrow)]
  exact leads_edit_bind (leads_tell _ rfl)

theorem keeps_setKeyword (id : Int) (keyword : Option String) :
    (setKeyword id keyword).Keeps WellFormed := by
  intro places hwell
  simp only [setKeyword, result_bind, result_look]
  split
  · exact hwell
  · exact Tree.WellFormed.setKeyword hwell id (filter_isEmpty_ne keyword)

/-! ### Annotations -/

theorem leads_annotate {tree : Tree} (h : tree.WellFormed) {id : Int} (hrow : (tree.row? id).isSome)
    (name value : String) :
    Leads (annotate id name value) tree fun _ next =>
      next = tree.mapRow id (·.annotate name value) := by
  obtain ⟨row, hrow⟩ := Option.isSome_iff_exists.mp hrow
  obtain ⟨item, -, -, hitem⟩ := h.item? hrow
  exact leads_check_bind hitem (leads_edit_bind (leads_tell _ rfl))

theorem keeps_annotate (id : Int) (name value : String) :
    (annotate id name value).Keeps WellFormed := by
  intro places hwell
  rw [annotate, result_bind, result_checked]
  cases places.tree.requireItem id with
  | error cause => exact hwell
  | ok item => exact Tree.WellFormed.annotate hwell id name value

theorem leads_unannotate (tree : Tree) (id : Int) (name : String) :
    Leads (unannotate id name) tree fun _ next =>
      next = if tree.isAnnotated id name then tree.mapRow id (·.unannotate name) else tree := by
  refine leads_look_bind ?_
  split
  · exact leads_edit_bind (leads_tell _ rfl)
  · exact leads_pure rfl

theorem keeps_unannotate (id : Int) (name : String) : (unannotate id name).Keeps WellFormed := by
  intro places hwell
  simp only [unannotate, result_bind, result_look]
  split
  · exact Tree.WellFormed.unannotate hwell id name
  · exact hwell

/-! ### Moves -/

/-- Moving an item into a folder outside of it. -/
theorem result_moveItem {places : Places} (h : places.tree.WellFormed) {id : Int} {row : Row}
    (hrow : places.tree.row? id = some row) {newParent : Int}
    (hfolder : places.tree.IsFolder newParent) (houtside : ¬ places.tree.Encloses id newParent)
    (index : Int) : (moveItem id newParent index).result places =
      (.ok (), ({ places with tree := places.tree.moved row newParent index } : Places).told
        (.moved id (row.parent.getD (-1)) row.position newParent
          ((places.tree.parked row).slot newParent index))) := by
  obtain rfl := Tree.id_of_row? hrow
  obtain ⟨item, hread, -, hitem⟩ := h.item? hrow
  obtain ⟨-, -, hparent, hposition, -⟩ := Row.item_eq_ok_iff.mp hread
  obtain ⟨found, hwithin, hiff⟩ := h.isWithin newParent row.id
  have hnot : found = false := by
    cases found with
    | false => rfl
    | true => exact absurd (hiff.mp rfl) houtside
  subst hnot
  simp only [moveItem, result_bind, result_checked, hitem, h.requireFolder hfolder, hwithin,
    hparent, hposition, Tree.moved, Tree.parked]
  cases habove : row.parent with
  | none => rfl
  | some parent =>
      have hup : places.tree.above? row.id = some parent := by
        rw [Tree.above?, hrow]
        exact habove
      have hpos : 0 ≤ parent := (h.pos_of_above? hup).le
      simp only [Option.getD_some, if_pos hpos]
      rfl

theorem leads_moveItem {tree : Tree} (h : tree.WellFormed) {id : Int} {row : Row}
    (hrow : tree.row? id = some row) {newParent : Int} (hfolder : tree.IsFolder newParent)
    (houtside : ¬ tree.Encloses id newParent) (index : Int) :
    Leads (moveItem id newParent index) tree fun _ next => next = tree.moved row newParent index := by
  rintro places rfl
  exact ⟨_, _, result_moveItem h hrow hfolder houtside index, rfl⟩

/-- A move of no item, to no folder or into the item itself changes nothing. -/
theorem result_moveItem_of_not {places : Places} (h : places.tree.WellFormed) {id newParent : Int}
    (hnot : ∀ row, places.tree.row? id = some row → places.tree.IsFolder newParent →
      places.tree.Encloses id newParent) (index : Int) :
    ∃ cause, (moveItem id newParent index).result places = (.error cause, places) := by
  cases hrow : places.tree.row? id with
  | none =>
      simp only [moveItem, result_bind, result_checked, (Tree.WellFormed.item?_none hrow).2]
      exact ⟨_, rfl⟩
  | some row =>
      obtain ⟨item, -, -, hitem⟩ := h.item? hrow
      cases hfolder : places.tree.requireFolder newParent with
      | error cause =>
          simp only [moveItem, result_bind, result_checked, hitem, hfolder]
          exact ⟨_, rfl⟩
      | ok value =>
          have hinside := hnot row hrow ((h.requireFolder_iff newParent).mp hfolder)
          obtain ⟨found, hwithin, hiff⟩ := h.isWithin newParent id
          obtain rfl : found = true := hiff.mpr hinside
          simp only [moveItem, result_bind, result_checked, hitem, hfolder, hwithin]
          exact ⟨_, rfl⟩

theorem keeps_moveItem (id newParent index : Int) :
    (moveItem id newParent index).Keeps WellFormed := by
  intro places hwell
  by_cases hnot : ∀ row, places.tree.row? id = some row → places.tree.IsFolder newParent →
      places.tree.Encloses id newParent
  · obtain ⟨cause, hresult⟩ := result_moveItem_of_not hwell hnot index
    rw [hresult]
    exact hwell
  · push Not at hnot
    obtain ⟨row, hrow, hfolder, houtside⟩ := hnot
    rw [result_moveItem hwell hrow hfolder houtside index]
    exact hwell.moved hrow hfolder houtside index

theorem leads_deleteRow {tree : Tree} (h : tree.WellFormed) {id : Int} {row : Row}
    (hrow : tree.row? id = some row) :
    Leads (deleteRow id) tree fun _ next => next = tree.removed row := by
  obtain rfl := Tree.id_of_row? hrow
  obtain ⟨item, hread, -, hitem⟩ := h.item? hrow
  obtain ⟨hid, -, hparent, hposition, -⟩ := Row.item_eq_ok_iff.mp hread
  refine leads_look_bind (leads_tell_bind _ (leads_check_bind hitem (leads_edit_bind ?_)))
  rw [hparent, hposition, hid, Tree.removed]
  cases row.parent with
  | some parent => exact leads_edit rfl
  | none => exact leads_pure rfl

end Places

end SyncedBookmarks
