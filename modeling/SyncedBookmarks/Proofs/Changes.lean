import SyncedBookmarks.Proofs.Edits

namespace SyncedBookmarks

/-! Changes to what an item is called, refers to or is annotated with keep a tree well-formed. -/

namespace Row.Sound

theorem withTitle {row : Row} (h : row.Sound) (title : String) :
    ({ row with title := some title } : Row).unplaced.Sound :=
  ⟨h.typed, h.url_iff, h.url_valid, fun _ => rfl, h.keyword_ne, h.root_folder⟩

theorem withUrl {row : Row} (h : row.Sound) (hbookmark : row.typeCode = ItemType.bookmark.code)
    {uri : String} (huri : validateUri uri = .ok uri) :
    ({ row with url := some uri } : Row).unplaced.Sound where
  typed := h.typed
  url_iff := by simpa using hbookmark
  url_valid := by
    intro other hother
    rw [← Option.some.inj hother]
    exact huri
  folder_titled := h.folder_titled
  keyword_ne := h.keyword_ne
  root_folder := h.root_folder

theorem withKeyword {row : Row} (h : row.Sound) {keyword : Option String} (hne : keyword ≠ some "") :
    ({ row with keyword } : Row).unplaced.Sound :=
  ⟨h.typed, h.url_iff, h.url_valid, h.folder_titled, hne, h.root_folder⟩

theorem withGuid {row : Row} (h : row.Sound) (guid : String) :
    ({ row with guid } : Row).unplaced.Sound :=
  ⟨h.typed, h.url_iff, h.url_valid, h.folder_titled, h.keyword_ne, h.root_folder⟩

theorem withAnnotations {row : Row} (h : row.Sound) (annotations : List (String × String)) :
    ({ row with annotations } : Row).unplaced.Sound :=
  ⟨h.typed, h.url_iff, h.url_valid, h.folder_titled, h.keyword_ne, h.root_folder⟩

end Row.Sound

namespace Tree

theorem steady_guid (guid : String) : Steady fun row => { row with guid } :=
  ⟨fun _ => rfl, fun _ => rfl, fun _ => rfl, fun _ => rfl⟩

theorem steady_title (title : Option String) : Steady fun row => { row with title } :=
  ⟨fun _ => rfl, fun _ => rfl, fun _ => rfl, fun _ => rfl⟩

theorem steady_url (url : Option String) : Steady fun row => { row with url } :=
  ⟨fun _ => rfl, fun _ => rfl, fun _ => rfl, fun _ => rfl⟩

theorem steady_keyword (keyword : Option String) : Steady fun row => { row with keyword } :=
  ⟨fun _ => rfl, fun _ => rfl, fun _ => rfl, fun _ => rfl⟩

theorem steady_annotate (name value : String) : Steady (·.annotate name value) :=
  ⟨fun _ => rfl, fun _ => rfl, fun _ => rfl, fun _ => rfl⟩

theorem steady_unannotate (name : String) : Steady (·.unannotate name) :=
  ⟨fun _ => rfl, fun _ => rfl, fun _ => rfl, fun _ => rfl⟩

/-- A change that concerns neither what an item is nor what it is known by. -/
theorem WellFormed.mapRow_of_same {tree : Tree} (h : tree.WellFormed) {id : Int}
    {change : Row → Row} (hsteady : Steady change)
    (htype : ∀ row, (change row).typeCode = row.typeCode)
    (hguid : ∀ row, (change row).guid = row.guid)
    (hsound : ∀ row, tree.known? id = some row → row.Sound → (change row).unplaced.Sound) :
    (tree.mapRow id change).WellFormed := by
  refine h.mapRow hsteady (fun row hrow => hsound row hrow (h.sound id row hrow)) htype ?_
  intro row hrow other row' hne hrow' heq
  rw [hguid] at heq
  exact hne (h.guid_inj other id row' row hrow' hrow heq)

namespace WellFormed

theorem setGuid {tree : Tree} (h : tree.WellFormed) {guid : String}
    (hfree : tree.idOfGuid? guid = none) (id : Int) :
    (tree.mapRow id ({ · with guid })).WellFormed := by
  refine h.mapRow (steady_guid guid) (fun row hrow => (h.sound id row hrow).withGuid guid)
    (fun _ => rfl) ?_
  intro row _ other row' _ hrow'
  exact h.idOfGuid?_eq_none_iff.mp hfree other row' hrow'

theorem setTitle {tree : Tree} (h : tree.WellFormed) (id : Int) (title : String) :
    (tree.mapRow id ({ · with title := some title })).WellFormed :=
  h.mapRow_of_same (steady_title _) (fun _ => rfl) (fun _ => rfl)
    fun _ _ hsound => hsound.withTitle title

theorem setUrl {tree : Tree} (h : tree.WellFormed) {id : Int} {row : Row}
    (hrow : tree.known? id = some row) (hbookmark : row.typeCode = ItemType.bookmark.code)
    {uri : String} (huri : validateUri uri = .ok uri) :
    (tree.mapRow id ({ · with url := some uri })).WellFormed := by
  refine h.mapRow_of_same (steady_url _) (fun _ => rfl) (fun _ => rfl) ?_
  intro found hfound hsound
  rw [hrow] at hfound
  obtain rfl := Option.some.inj hfound
  exact hsound.withUrl hbookmark huri

theorem setKeyword {tree : Tree} (h : tree.WellFormed) (id : Int) {keyword : Option String}
    (hne : keyword ≠ some "") : (tree.mapRow id ({ · with keyword })).WellFormed :=
  h.mapRow_of_same (steady_keyword _) (fun _ => rfl) (fun _ => rfl)
    fun _ _ hsound => hsound.withKeyword hne

theorem annotate {tree : Tree} (h : tree.WellFormed) (id : Int) (name value : String) :
    (tree.mapRow id (·.annotate name value)).WellFormed :=
  h.mapRow_of_same (steady_annotate name value) (fun _ => rfl) (fun _ => rfl)
    fun _ _ hsound => hsound.withAnnotations _

theorem unannotate {tree : Tree} (h : tree.WellFormed) (id : Int) (name : String) :
    (tree.mapRow id (·.unannotate name)).WellFormed :=
  h.mapRow_of_same (steady_unannotate name) (fun _ => rfl) (fun _ => rfl)
    fun _ _ hsound => hsound.withAnnotations _

end WellFormed

end Tree

end SyncedBookmarks
