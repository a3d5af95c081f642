import SyncedBookmarks.Proofs.Recording
import SyncedBookmarks.Proofs.Sparing
import SyncedBookmarks.Proofs.Tracking

namespace SyncedBookmarks

/-! What a tracker gets to know of: whatever an operation has made of a tree, the items that have
changed are on the tracker's list, except those that it passes over. -/

namespace Row

/-- Whether the records of two rows tell the same of their items alone. -/
structure Alike (row other : Row) : Prop where
  parent : other.parent = row.parent
  gist : ∀ generators parent, other.gist generators parent = row.gist generators parent

theorem Alike.refl (row : Row) : row.Alike row :=
  ⟨rfl, fun _ _ => rfl⟩

/-- Other annotations than those that are synced do not count. -/
theorem alike_annotations {row : Row} {annotations : List (String × String)}
    (h : ∀ name ∈ AnnotationName.synced,
      ({ row with annotations } : Row).annotationOf? name = row.annotationOf? name) :
    row.Alike { row with annotations } := by
  refine ⟨rfl, fun generators parent => ?_⟩
  simp only [AnnotationName.synced, List.forall_mem_cons, List.not_mem_nil, false_implies,
    forall_const, and_true] at h
  obtain ⟨hdescription, hsidebar, htitle, hfeed, hsite, hgenerator⟩ := h
  simp only [gist, ownGist, ownRecord, kindGist, generator?, hdescription, hsidebar, htitle, hfeed,
    hsite, hgenerator]

end Row

namespace Tree

/-- Whether an item is neither a tag nor directly in a tag or in a livemark, so that the tracker
listens to what is told of it. -/
def Watched (tree : Tree) (id : Int) : Prop :=
  ∀ folder, tree.above? id = some folder → Tracker.isUnsyncedFolder tree folder = false

variable {tree part whole : Tree} {id : Int} {row : Row}

theorem parentIn_eq_known? (tree : Tree) (id : Int) : Tracker.parentIn tree id =
    (tree.known? id).bind fun row =>
      if (ItemType.ofCode? row.typeCode).isSome then row.parent else none := by
  cases hrow : tree.row? id with
  | none =>
      rw [Tracker.parentIn, parentOf?, item?, known?, hrow]
      rfl
  | some row =>
      rw [Tracker.parentIn, parentOf?, item?, known?, hrow, Option.map_some, Option.bind_some,
        Row.unplaced_typeCode, Row.unplaced_parent]
      dsimp only
      rw [Row.item]
      cases ItemType.ofCode? row.typeCode <;> rfl

theorem above?_of_parentIn {parent : Int} (h : Tracker.parentIn tree id = some parent) :
    tree.above? id = some parent := by
  rw [parentIn_eq_known?] at h
  obtain ⟨row, hrow, hparent⟩ := Option.bind_eq_some_iff.mp h
  rw [above?_of_known? hrow]
  split at hparent
  · exact hparent
  · cases hparent

theorem isUnsyncedFolder_of_part
    (hpart : ∀ row, part.known? id = some row → whole.known? id = some row)
    (h : Tracker.isUnsyncedFolder part id = true) : Tracker.isUnsyncedFolder whole id = true := by
  simp only [Tracker.isUnsyncedFolder, isLivemark, isAnnotated, Bool.or_eq_true, beq_iff_eq,
    Option.isSome_iff_exists, annotationOf?_eq_known?, parentIn_eq_known?,
    Option.bind_eq_some_iff] at h ⊢
  rcases h with (hid | ⟨row, hrow, hparent⟩) | ⟨value, row, hrow, hvalue⟩
  · exact .inl (.inl hid)
  · exact .inl (.inr ⟨row, hpart row hrow, hparent⟩)
  · exact .inr ⟨value, row, hpart row hrow, hvalue⟩

theorem Watched.of_part (h : whole.Watched id)
    (hpart : ∀ other row, part.known? other = some row → whole.known? other = some row)
    (hrow : part.known? id = some row) : part.Watched id := by
  intro folder habove
  rw [above?_of_known? hrow] at habove
  have hlisted := h folder ((above?_of_known? (hpart id row hrow)).trans habove)
  by_contra hunsynced
  rw [Bool.not_eq_false] at hunsynced
  rw [isUnsyncedFolder_of_part (hpart folder) hunsynced] at hlisted
  cases hlisted

end Tree

namespace Event

/-- Whether what is told is about an item, and nothing that is passed over. -/
def About (tree : Tree) (id : Int) : Event → Prop
  | .batchBegun => False
  | .batchEnded => False
  | .added other folder _ => other = id ∧ tree.above? id = some folder
  | .removing other _ => other = id
  | .changed other property annotated _ =>
      other = id ∧ (annotated = true → property ∈ AnnotationName.synced)
  | .moved other _ _ _ _ => other = id

end Event

namespace Tracker

variable {tracker : Tracker} {tree : Tree} {id : Int} {guid : String}

theorem passesOver_of_watched (hlistens : tracker.suppressed = false) (hwatched : tree.Watched id)
    {given : Option Int} (hgiven : ∀ folder, given = some folder → tree.above? id = some folder) :
    tracker.passesOver tree id given = false := by
  rw [passesOver, hlistens, Bool.false_or]
  split
  · rename_i folder hfolder
    refine hwatched folder ?_
    cases given with
    | some other => exact hgiven folder hfolder
    | none => exact Tree.above?_of_parentIn hfolder
  · rfl

theorem mem_changed_touch_self (hguid : tree.guidOf? id = some guid) (tracker : Tracker) :
    guid ∈ tracker.ignored ∨ guid ∈ (tracker.touch tree id).changed := by
  obtain ⟨score, htouch⟩ := touch_eq hguid tracker
  rw [htouch, or_iff_not_imp_left]
  exact fun hignored => (tracker.mem_changed_add guid guid).mpr (.inr ⟨rfl, hignored⟩)

/-- What is told of a watched item marks it. -/
theorem mem_changed_hear_about {event : Event} (habout : event.About tree id)
    (hguid : tree.guidOf? id = some guid) (hwatched : tree.Watched id)
    (hlistens : tracker.suppressed = false) :
    guid ∈ tracker.ignored ∨ guid ∈ (tracker.hear ⟨event, tree⟩).changed := by
  have hopen : tracker.passesOver tree id none = false :=
    passesOver_of_watched hlistens hwatched fun _ hnone => by cases hnone
  have htouch := mem_changed_touch_self hguid tracker
  cases event with
  | batchBegun => cases habout
  | batchEnded => cases habout
  | added other folder index =>
      obtain ⟨rfl, hfolder⟩ := habout
      have hgiven : tracker.passesOver tree other (some folder) = false :=
        passesOver_of_watched hlistens hwatched fun _ hsome => Option.some.inj hsome ▸ hfolder
      simpa [hear, hgiven] using htouch
  | removing other name =>
      obtain rfl := habout
      simpa [hear, hopen] using htouch
  | changed other property annotated value =>
      obtain ⟨rfl, hproperty⟩ := habout
      have hheard : (annotated && !AnnotationName.synced.contains property) = false := by
        cases annotated with
        | false => rfl
        | true => simpa using hproperty rfl
      simp only [hear, hopen, hheard, Bool.or_self, Bool.false_eq_true, if_false]
      exact htouch
  | moved other oldParent oldIndex newParent newIndex =>
      obtain rfl := habout
      simpa [hear, hopen] using htouch

end Tracker

namespace Places

open SyncedBookmarks.Action SyncedBookmarks.Tree

/-- Whether a tracker that has heard what a tree tells has marked a GUID, unless it ignores it. -/
def Heard (tracker : Tracker) (places : Places) (guid : String) : Prop :=
  guid ∈ tracker.ignored ∨ guid ∈ (tracker.hearAll places.notices).changed

variable {tracker : Tracker} {places next : Places} {before : Tree} {id : Int} {guid : String}

theorem Heard.mono (h : Heard tracker places guid) {more : List Notice}
    (hnotices : next.notices = places.notices ++ more) : Heard tracker next guid := by
  rw [Heard, hnotices, Tracker.hearAll, List.foldl_append]
  exact h.imp id fun hmem => Tracker.mem_changed_hearAll hmem more

theorem heard_of_about (hlistens : tracker.suppressed = false) {event : Event} {tree : Tree}
    (hnotices : next.notices = places.notices ++ [⟨event, tree⟩]) (habout : event.About tree id)
    (hguid : tree.guidOf? id = some guid) (hwatched : tree.Watched id) :
    Heard tracker next guid := by
  have hmarks := tracker.marks_hearAll places.notices
  rw [Heard, hnotices, Tracker.hearAll, List.foldl_append, ← hmarks.ignored]
  exact Tracker.mem_changed_hear_about habout hguid hwatched (hmarks.suppressed.trans hlistens)

/-- Whether a tracker knows of all that has changed since an earlier tree: of the items that tell
something else, of those that are new and of those that are gone; as far as they are watched. -/
structure Noted (tracker : Tracker) (before : Tree) (places : Places) : Prop where
  named : ∀ id row row', before.known? id = some row → places.tree.known? id = some row' →
    row'.guid = row.guid
  altered : ∀ id row row', before.known? id = some row → places.tree.known? id = some row' →
    ¬ row.Alike row' → places.tree.Watched id → Heard tracker places row.guid
  made : ∀ id row, before.known? id = none → places.tree.known? id = some row →
    places.tree.Watched id → Heard tracker places row.guid
  gone : ∀ id row, before.known? id = some row → places.tree.known? id = none →
    before.Watched id → Heard tracker places row.guid

/-- An item changes, and the others stay. -/
theorem noted_of_edit {row row' : Row} (hrow : before.known? id = some row)
    (hrow' : next.tree.known? id = some row')
    (hother : ∀ other, other ≠ id → next.tree.known? other = before.known? other)
    (hguid : row'.guid = row.guid)
    (hheard : ¬ row.Alike row' → next.tree.Watched id → Heard tracker next row.guid) :
    Noted tracker before next := by
  constructor
  case named =>
    intro other found found' hfound hfound'
    by_cases heq : other = id
    · subst heq
      obtain rfl := Option.some.inj (hrow.symm.trans hfound)
      obtain rfl := Option.some.inj (hrow'.symm.trans hfound')
      exact hguid
    · rw [hother other heq, hfound] at hfound'
      rw [Option.some.inj hfound']
  case altered =>
    intro other found found' hfound hfound' hunlike hwatched
    by_cases heq : other = id
    · subst heq
      obtain rfl := Option.some.inj (hrow.symm.trans hfound)
      obtain rfl := Option.some.inj (hrow'.symm.trans hfound')
      exact hheard hunlike hwatched
    · rw [hother other heq, hfound] at hfound'
      exact absurd (Option.some.inj hfound' ▸ Row.Alike.refl found) hunlike
  case made =>
    intro other found hnone hfound
    by_cases heq : other = id
    · subst heq
      cases hrow.symm.trans hnone
    · rw [hother other heq, hnone] at hfound
      cases hfound
  case gone =>
    intro other found hfound hnone
    by_cases heq : other = id
    · subst heq
      cases hrow'.symm.trans hnone
    · rw [hother other heq, hfound] at hnone
      cases hnone

/-! ### What only grows -/

/-- Whether a tree has grown only, and the tracker knows of the new items. -/
structure Grown (tracker : Tracker) (before : Tree) (places : Places) : Prop where
  wellFormed : places.tree.WellFormed
  kept : ∀ id row, before.known? id = some row → places.tree.known? id = some row
  made : ∀ id row, before.known? id = none → places.tree.known? id = some row →
    places.tree.Watched id → Heard tracker places row.guid

theorem Grown.refl (h : places.tree.WellFormed) : Grown tracker places.tree places where
  wellFormed := h
  kept := fun _ _ hrow => hrow
  made := fun _ _ hnone hrow => by cases hnone.symm.trans hrow

theorem Grown.noted (h : Grown tracker before places) : Noted tracker before places where
  named := by
    intro id row row' hrow hrow'
    rw [Option.some.inj ((h.kept id row hrow).symm.trans hrow')]
  altered := by
    intro id row row' hrow hrow' hunlike
    obtain rfl := Option.some.inj ((h.kept id row hrow).symm.trans hrow')
    exact absurd (Row.Alike.refl row) hunlike
  made := h.made
  gone := fun id row hrow hnone => by cases (h.kept id row hrow).symm.trans hnone

/-! ### What only shrinks -/

/-- Whether a tree has lost items only, and the tracker knows of them. -/
structure Shrunk (tracker : Tracker) (before : Tree) (places : Places) : Prop where
  kept : ∀ id row, places.tree.known? id = some row → before.known? id = some row
  gone : ∀ id row, before.known? id = some row → places.tree.known? id = none →
    before.Watched id → Heard tracker places row.guid

theorem Shrunk.refl (places : Places) : Shrunk tracker places.tree places where
  kept := fun _ _ hrow => hrow
  gone := fun _ _ hrow hnone => by cases hrow.symm.trans hnone

theorem Shrunk.noted (h : Shrunk tracker before places) : Noted tracker before places where
  named := by
    intro id row row' hrow hrow'
    rw [Option.some.inj ((h.kept id row' hrow').symm.trans hrow)]
  altered := by
    intro id row row' hrow hrow' hunlike
    obtain rfl := Option.some.inj ((h.kept id row' hrow').symm.trans hrow)
    exact absurd (Row.Alike.refl _) hunlike
  made := fun id row hnone hrow => by cases hnone.symm.trans (h.kept id row hrow)
  gone := h.gone

end Places

end SyncedBookmarks
