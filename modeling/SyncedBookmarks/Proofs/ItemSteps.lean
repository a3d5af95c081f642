import SyncedBookmarks.Proofs.StoreRuns

namespace SyncedBookmarks

/-! Operations that change what is known of one item and of no other. -/

namespace Row

theorem annotationOf?_annotate (row : Row) (name value other : String) :
    (row.annotate name value).annotationOf? other =
      if other = name then some value else row.annotationOf? other := by
  rw [annotationOf?, annotate, List.find?_append]
  by_cases heq : other = name
  · subst heq
    have hnone : (row.annotations.filter (·.1 != other)).find? (·.1 == other) = none := by
      simp [List.find?_eq_none]
    rw [hnone]
    simp
  · have hkeep : (row.annotations.filter (·.1 != name)).find? (·.1 == other) =
        row.annotations.find? (·.1 == other) := by
      rw [List.find?_filter]
      congr 1
      funext entry
      by_cases hentry : entry.1 = other <;> simp [hentry, heq]
    have hname : ¬ name = other := fun h => heq h.symm
    rw [hkeep, if_neg heq, annotationOf?]
    simp [hname]

theorem annotationOf?_unannotate (row : Row) (name other : String) :
    (row.unannotate name).annotationOf? other =
      if other = name then none else row.annotationOf? other := by
  rw [annotationOf?, unannotate, List.find?_filter]
  by_cases heq : other = name
  · subst heq
    simp
  · rw [if_neg heq, annotationOf?]
    congr 2
    funext entry
    by_cases hentry : entry.1 = other <;> simp [hentry, heq]

theorem unannotate_of_none {row : Row} {name : String} (h : row.annotationOf? name = none) :
    row.unannotate name = row := by
  have hkeep : row.annotations.filter (·.1 != name) = row.annotations := by
    rw [annotationOf?, Option.map_eq_none_iff, List.find?_eq_none] at h
    rw [List.filter_eq_self]
    intro entry hentry
    simpa using h entry hentry
  rw [unannotate, hkeep]

end Row

namespace Tree

theorem unplaced_of_known? {tree : Tree} {id : Int} {row : Row} (h : tree.known? id = some row) :
    row.unplaced = row := by
  obtain ⟨found, -, rfl⟩ := Option.map_eq_some_iff.mp h
  rfl

/-- What a tree comes to when one item gets another row. -/
structure Rewritten (id : Int) (row : Row) (before after : Tree) : Prop where
  wellFormed : after.WellFormed
  known? : ∀ other, after.known? other = if other = id then some row else before.known? other
  nextId : after.nextId = before.nextId
  guids : after.guids = before.guids

namespace Rewritten

theorem refl {tree : Tree} (h : tree.WellFormed) {id : Int} {row : Row}
    (hrow : tree.known? id = some row) : Rewritten id row tree tree where
  wellFormed := h
  known? := by
    intro other
    split
    · rename_i heq
      rw [heq, hrow]
    · rfl
  nextId := rfl
  guids := rfl

theorem trans {id : Int} {first second : Row} {before middle after : Tree}
    (hfirst : Rewritten id first before middle) (hsecond : Rewritten id second middle after) :
    Rewritten id second before after where
  wellFormed := hsecond.wellFormed
  known? := by
    intro other
    rw [hsecond.known?, hfirst.known?]
    split <;> rfl
  nextId := hsecond.nextId.trans hfirst.nextId
  guids := hsecond.guids.trans hfirst.guids

theorem self {id : Int} {row : Row} {before after : Tree} (h : Rewritten id row before after) :
    after.known? id = some row := by
  rw [h.known?, if_pos rfl]

theorem of_ne {id other : Int} {row : Row} {before after : Tree}
    (h : Rewritten id row before after) (hne : other ≠ id) :
    after.known? other = before.known? other := by
  rw [h.known?, if_neg hne]

theorem isFolder {id : Int} {row old : Row} {before after : Tree}
    (h : Rewritten id row before after) (hold : before.known? id = some old)
    (htype : row.typeCode = old.typeCode) {place : Int} (hfolder : before.IsFolder place) :
    after.IsFolder place := by
  obtain ⟨found, hfound, hcode⟩ := hfolder
  by_cases heq : place = id
  · rw [heq, hold] at hfound
    obtain rfl := Option.some.inj hfound
    exact ⟨row, heq ▸ h.self, htype.trans hcode⟩
  · exact ⟨found, (h.of_ne heq).trans hfound, hcode⟩

theorem idOfGuid? {id : Int} {row last : Row} {before after : Tree}
    (h : Rewritten id last before after) (hwell : before.WellFormed)
    (hrow : before.known? id = some row) (hguid : last.guid = row.guid) (guid : String) :
    after.idOfGuid? guid = before.idOfGuid? guid := by
  apply Option.ext
  intro other
  rw [h.wellFormed.idOfGuid?_iff, hwell.idOfGuid?_iff, h.known?]
  split
  · rename_i hsame
    subst hsame
    rw [hrow]
    simp [hguid]
  · rfl

theorem free {id : Int} {row last : Row} {guid : String} {before after : Tree}
    (h : Rewritten id last before after) (hwell : before.WellFormed)
    (hrow : before.known? id = some row) (hguid : last.guid = row.guid)
    (hfree : before.idOfGuid? guid = none) : after.idOfGuid? guid = none :=
  (h.idOfGuid? hwell hrow hguid guid).trans hfree

theorem of_mapRow {tree : Tree} {id : Int} {row : Row} {change : Row → Row}
    (hsteady : Steady change) (hrow : tree.known? id = some row)
    (hwell : (tree.mapRow id change).WellFormed) (hunplaced : (change row).unplaced = change row) :
    Rewritten id (change row) tree (tree.mapRow id change) where
  wellFormed := hwell
  known? := by
    intro other
    rw [hsteady.known?, hrow, Option.map_some, hunplaced]
  nextId := rfl
  guids := rfl

/-- A change that leaves parent, URL and title alone leaves the tags alone. -/
theorem sameTags {id : Int} {row old : Row} {before after : Tree}
    (h : Rewritten id row before after) (hold : before.known? id = some old)
    (hparent : row.parent = old.parent) (hurl : row.url = old.url) (htitle : row.title = old.title)
    (uri : String) : SameTags before after uri := by
  have habove : ∀ place, after.above? place = before.above? place := by
    intro place
    rw [above?_eq_known?, h.known?, above?_eq_known?]
    split
    · rename_i heq
      rw [heq, hold]
      exact hparent
    · rfl
  have hholds : ∀ folder, after.Holds folder uri ↔ before.Holds folder uri := by
    intro folder
    constructor
    · rintro ⟨place, found, hfound, hfoundParent, hfoundUrl⟩
      rw [h.known?] at hfound
      split at hfound
      · obtain rfl := Option.some.inj hfound
        exact ⟨id, old, hold, hparent ▸ hfoundParent, hurl ▸ hfoundUrl⟩
      · exact ⟨place, found, hfound, hfoundParent, hfoundUrl⟩
    · rintro ⟨place, found, hfound, hfoundParent, hfoundUrl⟩
      by_cases heq : place = id
      · rw [heq, hold] at hfound
        obtain rfl := Option.some.inj hfound
        exact ⟨id, row, h.self, hparent.trans hfoundParent, hurl.trans hfoundUrl⟩
      · exact ⟨place, found, (h.of_ne heq).trans hfound, hfoundParent, hfoundUrl⟩
  intro folder
  refine ⟨?_, fun _ => ?_⟩
  · rw [TagHolds, TagHolds, habove, hholds]
  · rw [tagTitle, h.known?, tagTitle]
    split
    · rename_i heq
      rw [heq, hold, Option.bind_some, Option.bind_some, htitle]
    · rfl

end Rewritten

end Tree

namespace Places

open SyncedBookmarks.Tree

variable {tree : Tree} {id : Int} {row : Row}

theorem isSome_row?_of_known? (hrow : tree.known? id = some row) : (tree.row? id).isSome := by
  rw [← isSome_known?, hrow]
  rfl

theorem rewrites_setTitle (h : tree.WellFormed) (hrow : tree.known? id = some row)
    (title : String) :
    Leads (setTitle id title) tree fun _ next =>
      Rewritten id { row with title := some title } tree next := by
  refine (leads_setTitle (isSome_row?_of_known? hrow) title).imp ?_
  rintro - - rfl
  refine Rewritten.of_mapRow (steady_title _) hrow (h.setTitle id title) ?_
  rw [← unplaced_of_known? hrow]
  rfl

theorem rewrites_setUrl (h : tree.WellFormed) (hrow : tree.known? id = some row)
    (hbookmark : row.typeCode = ItemType.bookmark.code) {uri : String}
    (huri : validateUri uri = .ok uri) :
    Leads (setUrl id uri) tree fun _ next =>
      Rewritten id { row with url := some uri } tree next := by
  refine (leads_setUrl hrow hbookmark huri).imp ?_
  rintro - - rfl
  refine Rewritten.of_mapRow (steady_url _) hrow (h.setUrl hrow hbookmark huri) ?_
  rw [← unplaced_of_known? hrow]
  rfl

theorem rewrites_setKeyword (h : tree.WellFormed) (hrow : tree.known? id = some row)
    (keyword : Option String) :
    Leads (setKeyword id keyword) tree fun _ next =>
      Rewritten id { row with keyword := keyword.filter (!·.isEmpty) } tree next := by
  refine (leads_setKeyword (isSome_row?_of_known? hrow) keyword).imp ?_
  rintro - - rfl
  refine Rewritten.of_mapRow (steady_keyword _) hrow
    (h.setKeyword id (filter_isEmpty_ne keyword)) ?_
  rw [← unplaced_of_known? hrow]
  rfl

theorem rewrites_annotate (h : tree.WellFormed) (hrow : tree.known? id = some row)
    (name value : String) :
    Leads (annotate id name value) tree fun _ next =>
      Rewritten id (row.annotate name value) tree next := by
  refine (leads_annotate h (isSome_row?_of_known? hrow) name value).imp ?_
  rintro - - rfl
  refine Rewritten.of_mapRow (steady_annotate name value) hrow (h.annotate id name value) ?_
  rw [← unplaced_of_known? hrow]
  rfl

theorem rewrites_unannotate (h : tree.WellFormed) (hrow : tree.known? id = some row)
    (name : String) :
    Leads (unannotate id name) tree fun _ next =>
      Rewritten id (row.unannotate name) tree next := by
  refine (leads_unannotate tree id name).imp ?_
  rintro - next rfl
  split
  · refine Rewritten.of_mapRow (steady_unannotate name) hrow (h.unannotate id name) ?_
    rw [← unplaced_of_known? hrow]
    rfl
  · rename_i hnot
    have hnone : row.annotationOf? name = none := by
      simpa [isAnnotated, annotationOf?_eq_known?, hrow] using hnot
    rw [Row.unannotate_of_none hnone]
    exact Rewritten.refl h hrow

theorem rewrites_setGuid (h : tree.WellFormed) (hrow : tree.known? id = some row) {guid : String}
    (hfree : tree.idOfGuid? guid = none) :
    Leads (setGuid id guid) tree fun _ next => Rewritten id { row with guid } tree next := by
  refine (leads_setGuid (isSome_row?_of_known? hrow) hfree).imp ?_
  rintro - - rfl
  refine Rewritten.of_mapRow (steady_guid guid) hrow (h.setGuid hfree id) ?_
  rw [← unplaced_of_known? hrow]
  rfl

theorem rewrites_moveItem (h : tree.WellFormed) (hrow : tree.known? id = some row) {parent : Int}
    (hfolder : tree.IsFolder parent) (houtside : ¬ tree.Encloses id parent) (index : Int) :
    Leads (moveItem id parent index) tree fun _ next =>
      Rewritten id { row with parent := some parent } tree next := by
  obtain ⟨found, hfound, rfl⟩ := Option.map_eq_some_iff.mp hrow
  refine (leads_moveItem h hfound hfolder houtside index).imp ?_
  rintro - - rfl
  exact
    { wellFormed := h.moved hfound hfolder houtside index
      known? := known?_moved hfound parent index
      nextId := nextId_moved tree found parent index
      guids := guids_moved tree found parent index }

end Places

end SyncedBookmarks
