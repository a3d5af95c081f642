import SyncedBookmarks.Proofs.WellFormed

namespace SyncedBookmarks

/-! The edits that the operations are made of keep a tree well-formed: a new item, a change to one
item, a move, and the removal of an item without children. -/

namespace Tree

/-! ### Taking one row out of the table -/

private theorem filter_id_ne {rows : List Row} {id : Int} (h : id ∉ rows.map (·.id)) :
    rows.filter (·.id != id) = rows := by
  rw [List.filter_eq_self]
  intro row hrow
  simp only [bne_iff_ne]
  rintro rfl
  exact h (List.mem_map_of_mem hrow)

private theorem map_select_of_not_mem {rows : List Row} {id : Int} (change : Row → Row)
    (h : id ∉ rows.map (·.id)) :
    (rows.map fun row => if row.id == id then change row else row) = rows := by
  rw [List.map_congr_left (g := fun row => row), List.map_id']
  intro row hrow
  rw [if_neg]
  simp only [beq_iff_eq]
  rintro rfl
  exact h (List.mem_map_of_mem hrow)

/-- A row and all the others, whatever is made of the row. -/
theorem rows_mapRow_perm {tree : Tree} (hids : (tree.rows.map (·.id)).Nodup) {id : Int} {row : Row}
    (hrow : tree.row? id = some row) (change : Row → Row) :
    (tree.mapRow id change).rows.Perm (change row :: (tree.eraseRow id).rows) := by
  have hmem := mem_of_row? hrow
  have hid := id_of_row? hrow
  change (tree.rows.map fun row => if row.id == id then change row else row).Perm
    (change row :: tree.rows.filter (·.id != id))
  generalize tree.rows = rows at hids hmem
  induction rows with
  | nil => simp at hmem
  | cons head tail ih =>
      rw [List.map_cons, List.nodup_cons] at hids
      by_cases hhead : head.id = id
      · have hsame : row = head := by
          rcases List.mem_cons.mp hmem with heq | htail
          · exact heq
          · exact absurd (List.mem_map.mpr ⟨row, htail, hid.trans hhead.symm⟩) hids.1
        have hrest : id ∉ tail.map (·.id) := hhead ▸ hids.1
        rw [List.map_cons, List.filter_cons_of_neg (by simp [hhead]), filter_id_ne hrest,
          map_select_of_not_mem change hrest, hsame]
        simp [hhead]
      · have htail : row ∈ tail := by
          rcases List.mem_cons.mp hmem with rfl | htail
          · exact absurd hid hhead
          · exact htail
        rw [List.map_cons, List.filter_cons_of_pos (by simp [hhead]), if_neg (by simp [hhead])]
        exact ((ih hids.2 htail).cons head).trans (List.Perm.swap _ _ _)

theorem rows_perm {tree : Tree} (hids : (tree.rows.map (·.id)).Nodup) {id : Int} {row : Row}
    (hrow : tree.row? id = some row) : tree.rows.Perm (row :: (tree.eraseRow id).rows) := by
  simpa [mapRow, mapRows] using rows_mapRow_perm hids hrow fun row => row

theorem slots_perm {tree : Tree} (hids : (tree.rows.map (·.id)).Nodup) {id : Int} {row : Row}
    (hrow : tree.row? id = some row) (folder : Int) :
    (tree.slots folder).Perm
      (if row.parent = some folder then row.position :: (tree.eraseRow id).slots folder
        else (tree.eraseRow id).slots folder) := by
  have hperm := slotsIn_perm (rows_perm hids hrow) folder
  rwa [slotsIn_cons] at hperm

theorem slots_mapRow_perm {tree : Tree} (hids : (tree.rows.map (·.id)).Nodup) {id : Int} {row : Row}
    (hrow : tree.row? id = some row) (change : Row → Row) (folder : Int) :
    ((tree.mapRow id change).slots folder).Perm
      (if (change row).parent = some folder then
        (change row).position :: (tree.eraseRow id).slots folder
        else (tree.eraseRow id).slots folder) := by
  have hperm := slotsIn_perm (rows_mapRow_perm hids hrow change) folder
  rwa [slotsIn_cons] at hperm

@[simp] theorem ids_mapRows (tree : Tree) (select : Row → Bool) {change : Row → Row}
    (hid : ∀ row, (change row).id = row.id) :
    (tree.mapRows select change).rows.map (·.id) = tree.rows.map (·.id) := by
  rw [mapRows, List.map_map]
  refine List.map_congr_left ?_
  intro row _
  simp only [Function.comp]
  split
  · exact hid row
  · rfl

theorem ids_closeGap (tree : Tree) (folder position : Int) :
    (tree.closeGap folder position).rows.map (·.id) = tree.rows.map (·.id) :=
  ids_mapRows tree _ fun _ => rfl

theorem ids_reserve (tree : Tree) (folder index : Int) :
    (tree.reserve folder index).rows.map (·.id) = tree.rows.map (·.id) := by
  rw [reserve]
  split
  · rfl
  · exact ids_mapRows tree _ fun _ => rfl

theorem eraseRow_closeGap (tree : Tree) (folder position id : Int) :
    ((tree.closeGap folder position).eraseRow id).rows =
      ((tree.eraseRow id).closeGap folder position).rows := by
  simp only [eraseRow, closeGap, mapRows, List.filter_map]
  congr 2
  funext row
  simp only [Function.comp]
  split <;> rfl

/-! ### A change to one item -/

/-- A change that leaves an item where it is and what it is. -/
structure Steady (change : Row → Row) : Prop where
  id : ∀ row, (change row).id = row.id
  parent : ∀ row, (change row).parent = row.parent
  position : ∀ row, (change row).position = row.position
  unplaced : ∀ row, (change row).unplaced = (change row.unplaced).unplaced

theorem Steady.known? {change : Row → Row} (hsteady : Steady change) (tree : Tree) (id other : Int) :
    (tree.mapRow id change).known? other =
      if other = id then (tree.known? id).map fun row => (change row).unplaced
      else tree.known? other :=
  known?_mapRow tree id hsteady.id hsteady.unplaced other

theorem Steady.above? {change : Row → Row} (hsteady : Steady change) (tree : Tree)
    (id other : Int) : (tree.mapRow id change).above? other = tree.above? other := by
  rw [Tree.above?, row?_mapRow tree id hsteady.id, Tree.above?]
  split
  · rename_i heq
    subst heq
    cases tree.row? other with
    | none => rfl
    | some row => exact hsteady.parent row
  · rfl

theorem Steady.slots {change : Row → Row} (hsteady : Steady change) (tree : Tree)
    (id folder : Int) : (tree.mapRow id change).slots folder = tree.slots folder := by
  have hparent : ∀ row : Row,
      (if row.id == id then change row else row).parent = row.parent := by
    intro row
    split
    · exact hsteady.parent row
    · rfl
  rw [Tree.slots, mapRow, mapRows, slotsIn_map hparent (f := fun slot => slot) ?_, List.map_id']
  · rfl
  · intro row _
    split
    · exact hsteady.position row
    · rfl

/-- Where an item of the changed tree comes from. -/
theorem Steady.cases {change : Row → Row} (hsteady : Steady change) {tree : Tree} {id place : Int}
    {row : Row} (hrow : (tree.mapRow id change).known? place = some row) :
    (place = id ∧ ∃ old, tree.known? id = some old ∧ row = (change old).unplaced) ∨
      (place ≠ id ∧ tree.known? place = some row) := by
  rw [hsteady.known?] at hrow
  split at hrow
  · rename_i heq
    obtain ⟨old, hold, rfl⟩ := Option.map_eq_some_iff.mp hrow
    exact .inl ⟨heq, old, hold, rfl⟩
  · exact .inr ⟨by assumption, hrow⟩

theorem Steady.isFolder {change : Row → Row} (hsteady : Steady change)
    (htype : ∀ row, (change row).typeCode = row.typeCode) {tree : Tree} {place : Int}
    (hfolder : tree.IsFolder place) (id : Int) : (tree.mapRow id change).IsFolder place := by
  obtain ⟨row, hrow, hcode⟩ := hfolder
  by_cases heq : place = id
  · subst heq
    exact ⟨(change row).unplaced, by rw [hsteady.known?, if_pos rfl, hrow]; rfl,
      by simp [htype, hcode]⟩
  · exact ⟨row, by rw [hsteady.known?, if_neg heq, hrow], hcode⟩

theorem WellFormed.mapRow {tree : Tree} (h : tree.WellFormed) {id : Int} {change : Row → Row}
    (hsteady : Steady change)
    (hsound : ∀ row, tree.known? id = some row → (change row).unplaced.Sound)
    (htype : ∀ row, (change row).typeCode = row.typeCode)
    (hguid : ∀ row, tree.known? id = some row → ∀ other row', other ≠ id →
      tree.known? other = some row' → row'.guid ≠ (change row).guid) :
    (tree.mapRow id change).WellFormed := by
  constructor
  case ids_nodup =>
    rw [Tree.mapRow, ids_mapRows tree _ hsteady.id]
    exact h.ids_nodup
  case id_bounds =>
    intro place row hrow
    rcases hsteady.cases hrow with ⟨rfl, old, hold, -⟩ | ⟨-, hold⟩
    · exact h.id_bounds place old hold
    · exact h.id_bounds place row hold
  case roots_given => exact h.roots_given
  case sound =>
    intro place row hrow
    rcases hsteady.cases hrow with ⟨rfl, old, hold, rfl⟩ | ⟨-, hold⟩
    · exact hsound old hold
    · exact h.sound place row hold
  case guid_inj =>
    intro first second row row' hrow hrow' hguids
    rcases hsteady.cases hrow with ⟨rfl, old, hold, rfl⟩ | ⟨hfirst, hold⟩ <;>
      rcases hsteady.cases hrow' with ⟨rfl, old', hold', rfl⟩ | ⟨hsecond, hold'⟩
    · rfl
    · exact absurd hguids.symm (hguid old hold second row' hsecond hold')
    · exact absurd hguids (hguid old' hold' first row hfirst hold)
    · exact h.guid_inj first second row row' hold hold' hguids
  case parent_iff =>
    intro place row hrow
    rcases hsteady.cases hrow with ⟨rfl, old, hold, rfl⟩ | ⟨-, hold⟩
    · rw [Row.unplaced_parent, hsteady.parent]
      exact h.parent_iff place old hold
    · exact h.parent_iff place row hold
  case parent_folder =>
    intro place parent hparent
    rw [hsteady.above?] at hparent
    exact hsteady.isFolder htype (h.parent_folder place parent hparent) id
  case rooted =>
    intro place row hrow
    have hencloses : tree.Encloses RootId.places place := by
      rcases hsteady.cases hrow with ⟨rfl, old, hold, -⟩ | ⟨-, hold⟩
      · exact h.rooted place old hold
      · exact h.rooted place row hold
    exact (Encloses.congr (hsteady.above? tree id)).mpr hencloses
  case contiguous =>
    intro folder
    rw [hsteady.slots]
    exact h.contiguous folder

/-! ### A new item -/

/-- The tree with a new item at the place that an index asks for. -/
def inserted (tree : Tree) (parent index : Int) (type : ItemType) (title url : Option String) :
    Tree :=
  (tree.reserve parent index).append parent (tree.slot parent index) type title url

/-- A new item but for its place. -/
def newRow (tree : Tree) (parent : Int) (type : ItemType) (title url : Option String) : Row where
  id := tree.nextId
  guid := tree.freshGuid
  parent := some parent
  position := 0
  typeCode := type.code
  title := title
  url := url

/-- What the title and the URL of a new item have to be. -/
structure Fitting (type : ItemType) (title url : Option String) : Prop where
  url_iff : url.isSome ↔ type = .bookmark
  url_valid : ∀ uri, url = some uri → validateUri uri = .ok uri
  titled : type = .folder → title.isSome

theorem row?_append (tree : Tree) (parent position : Int) (type : ItemType)
    (title url : Option String) (id : Int) :
    (tree.append parent position type title url).row? id =
      (tree.row? id).or (if id = tree.nextId then
        some { tree.newRow parent type title url with position } else none) := by
  rw [row?, append, List.find?_append]
  congr 1
  by_cases heq : id = tree.nextId
  · simp [heq, newRow]
  · have hne : ¬ tree.nextId = id := fun h => heq h.symm
    simp [heq, hne]

theorem idOfGuid?_reserve (tree : Tree) (folder index : Int) (guid : String) :
    (tree.reserve folder index).idOfGuid? guid = tree.idOfGuid? guid := by
  rw [reserve]
  split
  · rfl
  · rw [idOfGuid?, openGap, mapRows, List.find?_map, Option.map_map, idOfGuid?]
    have hguid : ((fun row : Row => row.guid == guid) ∘ fun row =>
        if row.parent == some folder && decide (index ≤ row.position) then
          { row with position := row.position + 1 } else row) = fun row => row.guid == guid := by
      funext row
      simp only [Function.comp]
      split <;> rfl
    rw [hguid]
    congr 1
    funext row
    simp only [Function.comp]
    split <;> rfl

theorem freshGuid_reserve (tree : Tree) (folder index : Int) :
    (tree.reserve folder index).freshGuid = tree.freshGuid := by
  have hlength : (tree.reserve folder index).rows.length = tree.rows.length := by
    simpa using congrArg List.length (ids_reserve tree folder index)
  simp only [freshGuid, guidCandidate, idOfGuid?_reserve, hlength, guids_reserve, nextId_reserve]

/-- A made-up GUID is one that the source has for the next item. -/
theorem exists_freshGuid_eq (tree : Tree) :
    ∃ count, tree.freshGuid = tree.guids.candidate tree.nextId count :=
  ⟨_, rfl⟩

/-- Of more candidates than there are items, one is free. -/
theorem idOfGuid?_freshGuid (tree : Tree) : tree.idOfGuid? tree.freshGuid = none := by
  have hfree : ∃ count ∈ List.range (tree.rows.length + 1),
      (tree.idOfGuid? (tree.guidCandidate count)).isNone := by
    by_contra hall
    push Not at hall
    have hnodup : ((List.range (tree.rows.length + 1)).map tree.guidCandidate).Nodup :=
      List.nodup_range.map fun first second heq => tree.guids.distinct _ first second heq
    have hsubset : (List.range (tree.rows.length + 1)).map tree.guidCandidate ⊆
        tree.rows.map (·.guid) := by
      intro guid hguid
      obtain ⟨count, hcount, rfl⟩ := List.mem_map.mp hguid
      have hused : ¬ tree.idOfGuid? (tree.guidCandidate count) = none :=
        fun hnone => hall count hcount (by rw [hnone]; rfl)
      rw [idOfGuid?, Option.map_eq_none_iff, List.find?_eq_none] at hused
      push Not at hused
      obtain ⟨row, hrow, heq⟩ := hused
      exact List.mem_map.mpr ⟨row, hrow, by simpa using heq⟩
    have hle := (hnodup.subperm hsubset).length_le
    simp only [List.length_map, List.length_range] at hle
    omega
  obtain ⟨found, hfound⟩ := Option.isSome_iff_exists.mp (List.find?_isSome.mpr hfree)
  rw [freshGuid, hfound]
  simpa using List.find?_some hfound

section Inserted

variable {tree : Tree} {id folder : Int} {row : Row} {parent index : Int} {type : ItemType}
  {title url : Option String}

namespace WellFormed

theorem known?_inserted (h : tree.WellFormed) (parent index : Int)
    (type : ItemType) (title url : Option String) (id : Int) :
    (tree.inserted parent index type title url).known? id =
      if id = tree.nextId then some (tree.newRow parent type title url) else tree.known? id := by
  rw [known?, Tree.inserted, row?_append, nextId_reserve, Option.map_or]
  change ((tree.reserve parent index).known? id).or _ = _
  rw [known?_reserve]
  split
  · rename_i heq
    rw [heq, h.known?_nextId]
    simp [newRow, Row.unplaced, freshGuid_reserve]
  · simp

/-- The new row, as it stands before the tags of its URL are changed. -/
theorem known?_inserted_self (h : tree.WellFormed) (parent index : Int) (type : ItemType)
    (title url : Option String) :
    (tree.inserted parent index type title url).known? tree.nextId =
      some (tree.newRow parent type title url) := by
  rw [h.known?_inserted, if_pos rfl]

/-- Where an item of the tree with a new item comes from. -/
theorem cases_inserted (h : tree.WellFormed)
    (hrow : (tree.inserted parent index type title url).known? id = some row) :
    (id = tree.nextId ∧ row = tree.newRow parent type title url) ∨ tree.known? id = some row := by
  rw [h.known?_inserted] at hrow
  split at hrow
  · exact .inl ⟨by assumption, (Option.some.inj hrow).symm⟩
  · exact .inr hrow

theorem isFolder_inserted (h : tree.WellFormed) (parent index : Int) (type : ItemType)
    (title url : Option String) (hfolder : tree.IsFolder folder) :
    (tree.inserted parent index type title url).IsFolder folder := by
  obtain ⟨found, hfound, hcode⟩ := hfolder
  have hlt := (h.id_bounds folder found hfound).2
  exact ⟨found, by rw [h.known?_inserted, if_neg (by omega), hfound], hcode⟩

theorem above?_inserted_of_ne (h : tree.WellFormed) (parent index : Int) (type : ItemType)
    (title url : Option String) (hne : id ≠ tree.nextId) :
    (tree.inserted parent index type title url).above? id = tree.above? id := by
  rw [above?_eq_known?, h.known?_inserted, if_neg hne, above?_eq_known?]

theorem above?_inserted (h : tree.WellFormed) (parent index : Int) (type : ItemType)
    (title url : Option String) (hfolder : tree.IsFolder folder) :
    (tree.inserted parent index type title url).above? folder = tree.above? folder := by
  obtain ⟨found, hfound, -⟩ := hfolder
  have hlt := (h.id_bounds folder found hfound).2
  exact h.above?_inserted_of_ne parent index type title url (by omega)

/-- Nothing is in a folder that is not there yet. -/
theorem above?_ne_nextId (h : tree.WellFormed) (id : Int) : tree.above? id ≠ some tree.nextId := by
  intro habove
  obtain ⟨row, hrow, -⟩ := h.parent_folder id tree.nextId habove
  rw [h.known?_nextId] at hrow
  cases hrow

/-- No way up leads over an id that is not given yet, so all of them stay. -/
theorem rooted_inserted (h : tree.WellFormed) (parent index : Int) (type : ItemType)
    (title url : Option String) (hrow : tree.known? id = some row) :
    (tree.inserted parent index type title url).Encloses RootId.places id := by
  have hlt := (h.id_bounds id row hrow).2
  have havoid : ¬ tree.Encloses tree.nextId id := by
    intro hup
    have heq := hup.eq_of_leaf h.above?_ne_nextId
    omega
  exact (h.rooted id row hrow).of_agree_off_of_not
    (fun _ => h.above?_inserted_of_ne parent index type title url) havoid

theorem sound_newRow (h : tree.WellFormed) (parent : Int) (hfit : Fitting type title url) :
    (tree.newRow parent type title url).Sound where
  typed := ⟨type, ItemType.ofCode?_code type⟩
  url_iff := by
    rw [show (tree.newRow parent type title url).url = url from rfl, hfit.url_iff]
    cases type <;> simp [newRow, ItemType.code]
  url_valid := hfit.url_valid
  folder_titled := by
    intro hcode
    refine hfit.titled ?_
    cases type <;> simp_all [newRow, ItemType.code]
  keyword_ne := by simp [newRow]
  root_folder := by
    intro hle
    have hgiven := h.roots_given
    change tree.nextId ≤ RootId.unfiled at hle
    omega

theorem ids_nodup_inserted (h : tree.WellFormed) (parent index : Int) (type : ItemType)
    (title url : Option String) :
    ((tree.inserted parent index type title url).rows.map (·.id)).Nodup := by
  change (List.map (fun row : Row => row.id) ((tree.reserve parent index).rows ++ [_])).Nodup
  rw [List.map_append, ids_reserve, List.nodup_append]
  refine ⟨h.ids_nodup, by simp, ?_⟩
  intro first hfirst second hsecond heq
  obtain ⟨row, hrow, rfl⟩ := List.mem_map.mp hfirst
  have := (h.id_bounds _ _ (known?_eq_some_of_mem h.ids_nodup hrow)).2
  simp only [nextId_reserve, List.map_cons, List.map_nil, List.mem_singleton] at hsecond
  omega

end WellFormed

theorem slots_inserted (tree : Tree) (parent index : Int) (type : ItemType)
    (title url : Option String) (folder : Int) :
    (tree.inserted parent index type title url).slots folder =
      (tree.reserve parent index).slots folder ++
        if parent = folder then [tree.slot parent index] else [] := by
  have hsplit : (tree.inserted parent index type title url).slots folder =
      (tree.reserve parent index).slots folder ++
        slotsIn [{ tree.newRow parent type title url with
          position := tree.slot parent index }] folder := by
    simp [Tree.slots, Tree.inserted, append, slotsIn, newRow, List.filter_cons]
    split <;> simp
  rw [hsplit, slotsIn_cons]
  simp only [newRow, Option.some.injEq, slotsIn_nil]

/-- The new item takes the place that was made free for it. -/
theorem contiguous_inserted (hcontiguous : ∀ folder, Contiguous (tree.slots folder))
    (parent index : Int) (type : ItemType) (title url : Option String) (folder : Int) :
    Contiguous ((tree.inserted parent index type title url).slots folder) := by
  rw [slots_inserted]
  by_cases heq : parent = folder
  · subst heq
    rw [if_pos rfl]
    exact (contiguous_reserve (hcontiguous parent) index).perm (List.perm_append_singleton _ _).symm
  · rw [if_neg heq, List.append_nil, slots_reserve_of_ne tree index (Ne.symm heq)]
    exact hcontiguous folder

theorem WellFormed.inserted (h : tree.WellFormed) (hparent : tree.IsFolder parent) (index : Int)
    (hfit : Fitting type title url) : (tree.inserted parent index type title url).WellFormed := by
  have hgiven := h.roots_given
  have hfreshGuid := (h.idOfGuid?_eq_none_iff).mp (idOfGuid?_freshGuid tree)
  constructor
  case ids_nodup => exact h.ids_nodup_inserted parent index type title url
  case id_bounds =>
    change ∀ id row, _ → 0 < id ∧ id < (tree.reserve parent index).nextId + 1
    rw [nextId_reserve]
    intro id row hrow
    rcases h.cases_inserted hrow with ⟨rfl, -⟩ | hold
    · simp only [RootId.unfiled] at hgiven
      omega
    · have := h.id_bounds id row hold
      omega
  case roots_given =>
    change RootId.unfiled < (tree.reserve parent index).nextId + 1
    rw [nextId_reserve]
    omega
  case sound =>
    intro id row hrow
    rcases h.cases_inserted hrow with ⟨-, rfl⟩ | hold
    · exact h.sound_newRow parent hfit
    · exact h.sound id row hold
  case guid_inj =>
    intro first second row row' hrow hrow' hguids
    rcases h.cases_inserted hrow with ⟨rfl, rfl⟩ | hold <;>
      rcases h.cases_inserted hrow' with ⟨rfl, rfl⟩ | hold'
    · rfl
    · exact absurd hguids.symm (hfreshGuid second row' hold')
    · exact absurd hguids (hfreshGuid first row hold)
    · exact h.guid_inj first second row row' hold hold' hguids
  case parent_iff =>
    intro id row hrow
    rcases h.cases_inserted hrow with ⟨rfl, rfl⟩ | hold
    · simp only [RootId.unfiled] at hgiven
      simp only [newRow, RootId.places, reduceCtorEq, false_iff]
      omega
    · exact h.parent_iff id row hold
  case parent_folder =>
    intro id above hid
    obtain ⟨row, hrow, hrowParent⟩ := known?_of_above? hid
    refine h.isFolder_inserted parent index type title url ?_
    rcases h.cases_inserted hrow with ⟨rfl, rfl⟩ | hold
    · obtain rfl : parent = above := Option.some.inj hrowParent
      exact hparent
    · exact h.parent_folder id above ((above?_of_known? hold).trans hrowParent)
  case rooted =>
    intro id row hrow
    rcases h.cases_inserted hrow with ⟨rfl, rfl⟩ | hold
    · obtain ⟨found, hfound, -⟩ := hparent
      have hup := h.rooted_inserted parent index type title url hfound
      exact hup.of_above? (above?_of_known? hrow)
    · exact h.rooted_inserted parent index type title url hold
  case contiguous => exact contiguous_inserted h.contiguous parent index type title url

end Inserted

/-! ### Removal -/

/-- The tree without an item, the items after it moved up. -/
def removed (tree : Tree) (row : Row) : Tree :=
  match row.parent with
  | some parent => (tree.eraseRow row.id).closeGap parent row.position
  | none => tree.eraseRow row.id

@[simp] theorem nextId_removed (tree : Tree) (row : Row) :
    (tree.removed row).nextId = tree.nextId := by
  rw [removed]
  split <;> rfl

@[simp] theorem guids_removed (tree : Tree) (row : Row) :
    (tree.removed row).guids = tree.guids := by
  rw [removed]
  split <;> rfl

theorem known?_removed (tree : Tree) (row : Row) (id : Int) :
    (tree.removed row).known? id = if id = row.id then none else tree.known? id := by
  rw [removed]
  split
  · rw [known?_closeGap, known?_eraseRow]
  · exact known?_eraseRow tree row.id id

theorem ids_removed (tree : Tree) (row : Row) :
    (tree.removed row).rows.map (·.id) = (tree.eraseRow row.id).rows.map (·.id) := by
  rw [removed]
  split
  · exact ids_closeGap _ _ _
  · rfl

/-- What is left of a folder's places when one is taken out and the gap closed. -/
theorem contiguous_eraseRow_closeGap {tree : Tree} (hids : (tree.rows.map (·.id)).Nodup) {id : Int}
    {row : Row} (hrow : tree.row? id = some row) {parent : Int} (hparent : row.parent = some parent)
    (hcontiguous : ∀ folder, Contiguous (tree.slots folder)) (folder : Int) :
    Contiguous (((tree.eraseRow id).closeGap parent row.position).slots folder) := by
  have hperm := slots_perm hids hrow folder
  rw [hparent] at hperm
  rw [slots_closeGap]
  by_cases heq : folder = parent
  · subst heq
    rw [if_pos rfl] at hperm ⊢
    exact ((hcontiguous folder).perm hperm).erase
  · rw [if_neg (by simpa using Ne.symm heq)] at hperm
    rw [if_neg heq]
    exact (hcontiguous folder).perm hperm

theorem known?_of_removed {tree : Tree} {row kept : Row} {place : Int}
    (hkept : (tree.removed row).known? place = some kept) :
    place ≠ row.id ∧ tree.known? place = some kept := by
  rw [known?_removed] at hkept
  split at hkept
  · contradiction
  · exact ⟨by assumption, hkept⟩

theorem above?_removed_of_ne (tree : Tree) {row : Row} {place : Int} (hne : place ≠ row.id) :
    (tree.removed row).above? place = tree.above? place := by
  rw [above?_eq_known?, known?_removed, if_neg hne, above?_eq_known?]

theorem contiguous_removed {tree : Tree} (hids : (tree.rows.map (·.id)).Nodup) {row : Row}
    (hrow : tree.row? row.id = some row) (hcontiguous : ∀ folder, Contiguous (tree.slots folder))
    (folder : Int) : Contiguous ((tree.removed row).slots folder) := by
  rw [removed]
  split
  · rename_i parent hparent
    exact contiguous_eraseRow_closeGap hids hrow hparent hcontiguous folder
  · rename_i hparent
    have hperm := slots_perm hids hrow folder
    rw [hparent, if_neg (by simp)] at hperm
    exact (hcontiguous folder).perm hperm

theorem WellFormed.removed {tree : Tree} (h : tree.WellFormed) {id : Int} {row : Row}
    (hrow : tree.row? id = some row) (hleaf : ∀ other, tree.above? other ≠ some id) :
    (tree.removed row).WellFormed := by
  obtain rfl := id_of_row? hrow
  constructor
  case ids_nodup =>
    rw [ids_removed]
    exact h.ids_nodup.sublist (List.filter_sublist.map _)
  case id_bounds =>
    intro place kept hkept
    rw [nextId_removed]
    exact h.id_bounds place kept (known?_of_removed hkept).2
  case roots_given =>
    rw [nextId_removed]
    exact h.roots_given
  case sound => exact fun place kept hkept => h.sound place kept (known?_of_removed hkept).2
  case guid_inj =>
    intro first second kept kept' hkept hkept' hguids
    exact h.guid_inj first second kept kept' (known?_of_removed hkept).2
      (known?_of_removed hkept').2 hguids
  case parent_iff =>
    exact fun place kept hkept => h.parent_iff place kept (known?_of_removed hkept).2
  case parent_folder =>
    intro place parent hparent
    obtain ⟨kept, hkept, hkeptParent⟩ := known?_of_above? hparent
    have hbefore := (above?_of_known? (known?_of_removed hkept).2).trans hkeptParent
    obtain ⟨folder, hfolder, hcode⟩ := h.parent_folder place parent hbefore
    have hne : parent ≠ row.id := fun heq => hleaf place (heq ▸ hbefore)
    exact ⟨folder, by rw [known?_removed, if_neg hne, hfolder], hcode⟩
  case rooted =>
    intro place kept hkept
    obtain ⟨hne, hbefore⟩ := known?_of_removed hkept
    exact (h.rooted place kept hbefore).of_agree_off_of_not
      (fun _ => above?_removed_of_ne tree) fun hup => hne (hup.eq_of_leaf hleaf)
  case contiguous => exact contiguous_removed h.ids_nodup hrow h.contiguous

/-! ### A move -/

end Tree

namespace Row

def detached (row : Row) : Row :=
  { row with parent := none }

def placed (parent position : Int) (row : Row) : Row :=
  { row with parent := some parent, position }

@[simp] theorem detached_id (row : Row) : row.detached.id = row.id := rfl
@[simp] theorem detached_parent (row : Row) : row.detached.parent = none := rfl

theorem detached_unplaced (row : Row) :
    row.detached.unplaced = row.unplaced.detached.unplaced := rfl

@[simp] theorem placed_id (parent position : Int) (row : Row) :
    (row.placed parent position).id = row.id := rfl

@[simp] theorem placed_parent (parent position : Int) (row : Row) :
    (row.placed parent position).parent = some parent := rfl

@[simp] theorem placed_position (parent position : Int) (row : Row) :
    (row.placed parent position).position = position := rfl

theorem placed_unplaced (parent position : Int) (row : Row) :
    (row.placed parent position).unplaced = (row.unplaced.placed parent position).unplaced := rfl

end Row

namespace Tree

/-- The tree with an item out of its place, the items after it moved up. -/
def parked (tree : Tree) (row : Row) : Tree :=
  (match row.parent with
    | some parent => tree.closeGap parent row.position
    | none => tree).mapRow row.id Row.detached

/-- The tree with an item at another place. -/
def moved (tree : Tree) (row : Row) (newParent index : Int) : Tree :=
  ((tree.parked row).reserve newParent index).mapRow row.id
    (Row.placed newParent ((tree.parked row).slot newParent index))

@[simp] theorem nextId_moved (tree : Tree) (row : Row) (newParent index : Int) :
    (tree.moved row newParent index).nextId = tree.nextId := by
  rw [moved, mapRow, nextId_mapRows, nextId_reserve, parked, mapRow, nextId_mapRows]
  split <;> rfl

@[simp] theorem guids_moved (tree : Tree) (row : Row) (newParent index : Int) :
    (tree.moved row newParent index).guids = tree.guids := by
  rw [moved, mapRow, guids_mapRows, guids_reserve, parked, mapRow, guids_mapRows]
  split <;> rfl

theorem known?_parked (tree : Tree) (row : Row) (id : Int) :
    (tree.parked row).known? id =
      if id = row.id then (tree.known? row.id).map Row.detached else tree.known? id := by
  rw [parked, known?_mapRow _ _ Row.detached_id Row.detached_unplaced]
  have hgap : ∀ place, (match row.parent with
      | some parent => tree.closeGap parent row.position
      | none => tree).known? place = tree.known? place := by
    intro place
    split <;> simp
  rw [hgap, hgap]
  split
  · cases hrow : tree.known? row.id with
    | none => rfl
    | some found =>
        obtain ⟨before, -, -, rfl⟩ := exists_mem_of_known? hrow
        rfl
  · rfl

theorem ids_parked (tree : Tree) (row : Row) :
    (tree.parked row).rows.map (·.id) = tree.rows.map (·.id) := by
  rw [parked, mapRow, ids_mapRows _ _ Row.detached_id]
  split
  · exact ids_closeGap _ _ _
  · rfl

theorem known?_moved {tree : Tree} {id : Int} {row : Row} (hrow : tree.row? id = some row)
    (newParent index other : Int) :
    (tree.moved row newParent index).known? other =
      if other = id then some { row.unplaced with parent := some newParent }
      else tree.known? other := by
  obtain rfl := id_of_row? hrow
  rw [moved, known?_mapRow _ _ (Row.placed_id _ _) (Row.placed_unplaced _ _), known?_reserve,
    known?_reserve, known?_parked, known?_parked, if_pos rfl]
  split
  · rw [known?_of_row? hrow]
    rfl
  · rfl

/-- An item that has no place takes one without disturbing the others. -/
theorem slots_mapRow_place {tree : Tree} (hids : (tree.rows.map (·.id)).Nodup) {id : Int}
    {row : Row} (hrow : tree.row? id = some row) (hparent : row.parent = none)
    (newParent position folder : Int) :
    ((tree.mapRow id (Row.placed newParent position)).slots folder).Perm
      (if folder = newParent then position :: tree.slots folder else tree.slots folder) := by
  have hrest := slots_perm hids hrow folder
  rw [hparent, if_neg (by simp)] at hrest
  have hplaced := slots_mapRow_perm hids hrow (Row.placed newParent position) folder
  simp only [Row.placed_parent, Row.placed_position, Option.some.injEq] at hplaced
  by_cases heq : folder = newParent
  · rw [if_pos heq.symm] at hplaced
    rw [if_pos heq]
    exact hplaced.trans (hrest.symm.cons position)
  · rw [if_neg (Ne.symm heq)] at hplaced
    rw [if_neg heq]
    exact hplaced.trans hrest.symm

theorem contiguous_parked {tree : Tree} (hids : (tree.rows.map (·.id)).Nodup) {id : Int} {row : Row}
    (hrow : tree.row? id = some row) (hcontiguous : ∀ folder, Contiguous (tree.slots folder))
    (folder : Int) : Contiguous ((tree.parked row).slots folder) := by
  obtain rfl := id_of_row? hrow
  rw [parked]
  split
  · rename_i parent hparent
    have hshifted : (tree.closeGap parent row.position).row? row.id = some row := by
      rw [row?_closeGap, hrow]
      simp
    have hids' : ((tree.closeGap parent row.position).rows.map (·.id)).Nodup := by
      rw [ids_closeGap]
      exact hids
    have hperm := slots_mapRow_perm hids' hshifted Row.detached folder
    rw [if_neg (by simp)] at hperm
    refine Contiguous.perm ?_ hperm.symm
    rw [Tree.slots, eraseRow_closeGap]
    exact contiguous_eraseRow_closeGap hids hrow hparent hcontiguous folder
  · rename_i hparent
    have hperm := slots_mapRow_perm hids hrow Row.detached folder
    have hrest := slots_perm hids hrow folder
    rw [if_neg (by simp)] at hperm
    rw [hparent, if_neg (by simp)] at hrest
    exact (hcontiguous folder).perm (hrest.trans hperm.symm)

section Moved

variable {tree : Tree} {id place newParent : Int} {row : Row} (hrow : tree.row? id = some row)

include hrow

/-- Where an item of the tree after a move comes from. -/
theorem cases_moved {kept : Row} {index : Int}
    (hkept : (tree.moved row newParent index).known? place = some kept) :
    (place = id ∧ kept = { row.unplaced with parent := some newParent }) ∨
      (place ≠ id ∧ tree.known? place = some kept) := by
  rw [known?_moved hrow] at hkept
  split at hkept
  · exact .inl ⟨by assumption, (Option.some.inj hkept).symm⟩
  · exact .inr ⟨by assumption, hkept⟩

theorem above?_moved_self (newParent index : Int) :
    (tree.moved row newParent index).above? id = some newParent := by
  rw [above?_eq_known?, known?_moved hrow, if_pos rfl]
  rfl

theorem above?_moved_of_ne (newParent index place : Int) (hne : place ≠ id) :
    (tree.moved row newParent index).above? place = tree.above? place := by
  rw [above?_eq_known?, known?_moved hrow, if_neg hne, above?_eq_known?]

theorem isFolder_moved (newParent index : Int) (hfolder : tree.IsFolder place) :
    (tree.moved row newParent index).IsFolder place := by
  obtain ⟨folder, hfolder, hcode⟩ := hfolder
  by_cases heq : place = id
  · refine ⟨_, by rw [known?_moved hrow, if_pos heq], ?_⟩
    rw [heq, known?, hrow] at hfolder
    obtain rfl := Option.some.inj hfolder
    exact hcode
  · exact ⟨folder, by rw [known?_moved hrow, if_neg heq, hfolder], hcode⟩

/-- An item out of its place stays so while the place it goes to is made free. -/
theorem exists_waiting (newParent index : Int) :
    ∃ waiting, ((tree.parked row).reserve newParent index).row? row.id = some waiting ∧
      waiting.parent = none := by
  have hwaiting : ((tree.parked row).reserve newParent index).known? row.id =
      some { row.unplaced with parent := none } := by
    rw [known?_reserve, known?_parked, if_pos rfl, known?, id_of_row? hrow, hrow]
    rfl
  obtain ⟨waiting, hwaiting, heq⟩ := Option.map_eq_some_iff.mp hwaiting
  exact ⟨waiting, hwaiting, congrArg Row.parent heq⟩

theorem contiguous_moved (hids : (tree.rows.map (·.id)).Nodup)
    (hcontiguous : ∀ folder, Contiguous (tree.slots folder)) (newParent index folder : Int) :
    Contiguous ((tree.moved row newParent index).slots folder) := by
  have hparked := contiguous_parked hids hrow hcontiguous
  have hreserved : (((tree.parked row).reserve newParent index).rows.map (·.id)).Nodup := by
    rw [ids_reserve, ids_parked]
    exact hids
  obtain ⟨waiting, hwaiting, hnone⟩ := exists_waiting hrow newParent index
  have hperm := slots_mapRow_place hreserved hwaiting hnone newParent
    ((tree.parked row).slot newParent index) folder
  refine Contiguous.perm ?_ hperm.symm
  by_cases heq : folder = newParent
  · subst heq
    rw [if_pos rfl]
    exact contiguous_reserve (hparked folder) index
  · rw [if_neg heq, slots_reserve_of_ne _ index heq]
    exact hparked folder

theorem WellFormed.moved (h : tree.WellFormed) (hfolder : tree.IsFolder newParent)
    (houtside : ¬ tree.Encloses id newParent) (index : Int) :
    (tree.moved row newParent index).WellFormed := by
  have hthere := known?_of_row? hrow
  have hagree := above?_moved_of_ne hrow newParent index
  constructor
  case ids_nodup =>
    rw [Tree.moved, Tree.mapRow, ids_mapRows _ _ (Row.placed_id _ _), ids_reserve, ids_parked]
    exact h.ids_nodup
  case id_bounds =>
    intro place kept hkept
    rw [nextId_moved]
    rcases cases_moved hrow hkept with ⟨rfl, -⟩ | ⟨-, hbefore⟩
    · exact h.id_bounds place _ hthere
    · exact h.id_bounds place kept hbefore
  case roots_given =>
    rw [nextId_moved]
    exact h.roots_given
  case sound =>
    intro place kept hkept
    rcases cases_moved hrow hkept with ⟨rfl, rfl⟩ | ⟨-, hbefore⟩
    · have hsound := h.sound place _ hthere
      exact ⟨hsound.typed, hsound.url_iff, hsound.url_valid, hsound.folder_titled,
        hsound.keyword_ne, hsound.root_folder⟩
    · exact h.sound place kept hbefore
  case guid_inj =>
    intro first second kept kept' hkept hkept' hguids
    rcases cases_moved hrow hkept with ⟨rfl, rfl⟩ | ⟨-, hbefore⟩ <;>
      rcases cases_moved hrow hkept' with ⟨rfl, rfl⟩ | ⟨-, hbefore'⟩
    · rfl
    · exact h.guid_inj _ _ _ _ hthere hbefore' hguids
    · exact h.guid_inj _ _ _ _ hbefore hthere hguids
    · exact h.guid_inj _ _ _ _ hbefore hbefore' hguids
  case parent_iff =>
    intro place kept hkept
    rcases cases_moved hrow hkept with ⟨rfl, rfl⟩ | ⟨-, hbefore⟩
    · -- Everything is below the root, so an item that is not above its new folder is not the root.
      have hplaces : place ≠ RootId.places := by
        rintro rfl
        obtain ⟨folder, hthere, -⟩ := hfolder
        exact houtside (h.rooted newParent folder hthere)
      simpa using hplaces
    · exact h.parent_iff place kept hbefore
  case parent_folder =>
    intro place parent hparent
    refine isFolder_moved hrow newParent index ?_
    by_cases heq : place = id
    · rw [heq, above?_moved_self hrow] at hparent
      obtain rfl := Option.some.inj hparent
      exact hfolder
    · rw [hagree place heq] at hparent
      exact h.parent_folder place parent hparent
  case rooted =>
    -- Below the item the ways up are as before up to it, and go on from its new folder; the
    -- others do not pass it.
    intro place kept hkept
    by_cases hbelow : tree.Encloses id place
    · obtain ⟨folder, hthere, -⟩ := hfolder
      have hnew := (h.rooted newParent folder hthere).of_agree_off_of_not hagree houtside
      exact (hnew.of_above? (above?_moved_self hrow newParent index)).trans
        (hbelow.of_agree_off hagree)
    · rcases cases_moved hrow hkept with ⟨rfl, -⟩ | ⟨-, hbefore⟩
      · exact absurd (Encloses.refl tree place) hbelow
      · exact (h.rooted place kept hbefore).of_agree_off_of_not hagree hbelow
  case contiguous => exact contiguous_moved hrow h.ids_nodup h.contiguous newParent index

end Moved

end Tree

end SyncedBookmarks
