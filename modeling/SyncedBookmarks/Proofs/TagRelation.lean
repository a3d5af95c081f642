import Mathlib.Data.Finset.Prod
import SyncedBookmarks.Proofs.TagReplacement

namespace SyncedBookmarks

/-! While only tagging and untagging touch them, the tags are a finite relation between URIs and
tags: a folder for each tag, with a bookmark for each URI that has the tag. -/

namespace Tree

/-- Whether an item is what puts a URI into a folder. -/
def Files (tree : Tree) (folder : Int) (uri : String) (id : Int) : Prop :=
  ∃ row, tree.known? id = some row ∧ row.parent = some folder ∧ row.url = some uri

/-- What the folders of the tags are for a relation between URIs and tags, if some may be empty. -/
structure Shelves (pairs : Finset (String × String)) (tree : Tree) : Prop where
  wellFormed : tree.WellFormed
  root : tree.IsFolder RootId.tags
  tag : ∀ folder, tree.above? folder = some RootId.tags → ∃ tag, tree.IsTag tag folder
  one : ∀ tag first second, tree.IsTag tag first → tree.IsTag tag second → first = second
  entry : ∀ folder id, tree.above? folder = some RootId.tags → tree.above? id = some folder →
    ∃ uri, tree.Files folder uri id
  once : ∀ folder uri first second, tree.above? folder = some RootId.tags →
    tree.Files folder uri first → tree.Files folder uri second → first = second
  pairs : ∀ uri tag, (uri, tag) ∈ pairs ↔ ∃ folder, tree.IsTag tag folder ∧ tree.Holds folder uri

/-- Whether the root for tags is still there and nothing below it has changed. -/
structure TagsUntouched (before after : Tree) : Prop where
  root : after.IsFolder RootId.tags
  same : ∀ id, before.Below RootId.tags id ∨ after.Below RootId.tags id →
    after.known? id = before.known? id

variable {tree before middle after : Tree} {pairs : Finset (String × String)}
variable {tag uri : String} {folder id : Int}

theorem Files.above? (h : tree.Files folder uri id) : tree.above? id = some folder := by
  obtain ⟨row, hrow, hparent, -⟩ := h
  exact (above?_of_known? hrow).trans hparent

theorem WellFormed.ne_tags (h : tree.WellFormed) (habove : tree.above? folder = some RootId.tags) :
    folder ≠ RootId.tags := by
  rintro rfl
  exact h.not_encloses_parent habove (Encloses.refl tree RootId.tags)

/-- Each tag has one folder, so that the first one is the only one. -/
theorem Shelves.firstTag (h : tree.Shelves pairs) (htag : tree.IsTag tag folder) :
    tree.FirstTag tag folder := by
  refine ⟨htag, ?_⟩
  intro other hother hprecedes
  rw [h.one tag other folder hother htag] at hprecedes
  exact hprecedes.asymm hprecedes

/-! ### A tag and a URI that are added -/

theorem files_inserted_iff (h : tree.WellFormed) {parent index : Int} {type : ItemType}
    {title url : Option String} :
    (tree.inserted parent index type title url).Files folder uri id ↔
      tree.Files folder uri id ∨ (id = tree.nextId ∧ folder = parent ∧ url = some uri) := by
  constructor
  · rintro ⟨row, hrow, hparent, hurl⟩
    rw [h.known?_inserted] at hrow
    split at hrow
    · rename_i hnew
      obtain rfl := Option.some.inj hrow
      exact .inr ⟨hnew, (Option.some.inj hparent).symm, hurl⟩
    · exact .inl ⟨row, hrow, hparent, hurl⟩
  · rintro (⟨row, hrow, hparent, hurl⟩ | ⟨rfl, rfl, rfl⟩)
    · have hlt := (h.id_bounds id row hrow).2
      exact ⟨row, by rw [h.known?_inserted, if_neg (by omega), hrow], hparent, hurl⟩
    · exact ⟨_, by rw [h.known?_inserted, if_pos rfl], rfl, rfl⟩

theorem above?_inserted_iff (h : tree.WellFormed) {parent index : Int} {type : ItemType}
    {title url : Option String} :
    (tree.inserted parent index type title url).above? id = some folder ↔
      tree.above? id = some folder ∨ (id = tree.nextId ∧ folder = parent) := by
  rw [above?_eq_known?, h.known?_inserted]
  split
  · rename_i hnew
    subst hnew
    have hnone : tree.above? tree.nextId = none := by
      rw [above?_eq_known?, h.known?_nextId, Option.bind_none]
    rw [hnone]
    simp [newRow, eq_comm]
  · rename_i hne
    rw [← above?_eq_known?]
    simp [hne]

/-- A folder that something was in is where it was. -/
theorem above?_of_inserted (h : tree.WellFormed) {parent index place : Int} {type : ItemType}
    {title url : Option String} (hid : tree.above? id = some place)
    (habove : (tree.inserted parent index type title url).above? place = some folder) :
    tree.above? place = some folder := by
  rcases (above?_inserted_iff h).mp habove with hold | hnew
  · exact hold
  · exact absurd (hnew.1 ▸ hid) (h.above?_ne_nextId id)

theorem Shelves.tagMade (h : before.Shelves pairs)
    (hmade : Places.TagMade tag before folder after) : after.Shelves pairs := by
  have hgrown := hmade.grown h.wellFormed h.root
  cases hmade with
  | found => exact h
  | made hnone =>
      have hwell := h.wellFormed
      have hfiles : ∀ {place : Int} {uri : String} {id : Int},
          (before.inserted RootId.tags Places.atEnd .folder (some tag) none).Files place uri id ↔
            before.Files place uri id := by
        intro place uri id
        rw [files_inserted_iff hwell]
        simp
      constructor
      case wellFormed => exact hgrown.wellFormed
      case root => exact hgrown.isFolder h.root
      case tag =>
        intro place habove
        rcases (above?_inserted_iff hwell).mp habove with hold | ⟨rfl, -⟩
        · obtain ⟨title, htitle⟩ := h.tag place hold
          exact ⟨title, (isTag_inserted_iff hwell).mpr (.inl htitle)⟩
        · exact ⟨tag, (isTag_inserted_iff hwell).mpr (.inr ⟨rfl, rfl, rfl, rfl⟩)⟩
      case one =>
        intro title first second hfirst hsecond
        rcases (isTag_inserted_iff hwell).mp hfirst with hold | ⟨rfl, -, -, htitle⟩
        · rcases (isTag_inserted_iff hwell).mp hsecond with hold' | ⟨rfl, -, -, htitle⟩
          · exact h.one title first second hold hold'
          · exact absurd (Option.some.inj htitle ▸ hold) (hnone first)
        · rcases (isTag_inserted_iff hwell).mp hsecond with hold | ⟨rfl, -, -, -⟩
          · exact absurd (Option.some.inj htitle ▸ hold) (hnone second)
          · rfl
      case entry =>
        intro place id habove hid
        rcases (above?_inserted_iff hwell).mp hid with hold | ⟨rfl, rfl⟩
        · obtain ⟨uri, huri⟩ := h.entry place id (above?_of_inserted hwell hold habove) hold
          exact ⟨uri, hfiles.mpr huri⟩
        · exact absurd rfl (hgrown.wellFormed.ne_tags habove)
      case once =>
        intro place uri first second habove hfirst hsecond
        have hfirst := hfiles.mp hfirst
        exact h.once place uri first second (above?_of_inserted hwell hfirst.above? habove) hfirst
          (hfiles.mp hsecond)
      case pairs =>
        intro uri title
        rw [h.pairs]
        constructor
        · rintro ⟨place, htitle, id, hid⟩
          exact ⟨place, (isTag_inserted_iff hwell).mpr (.inl htitle), id, hfiles.mpr hid⟩
        · rintro ⟨place, htitle, id, hid⟩
          have hid := hfiles.mp hid
          rcases (isTag_inserted_iff hwell).mp htitle with hold | ⟨rfl, -⟩
          · exact ⟨place, hold, id, hid⟩
          · exact absurd hid.above? (hwell.above?_ne_nextId _)

theorem Shelves.uriEntered (h : before.Shelves pairs) (htag : before.IsTag tag folder)
    (huri : validateUri uri = .ok uri) (hentered : Places.UriEntered uri folder before after) :
    after.Shelves (insert (uri, tag) pairs) := by
  have hgrown := hentered.grown h.wellFormed htag huri
  have hholds : ∀ place other,
      after.Holds place other ↔ before.Holds place other ∨ (place = folder ∧ other = uri) :=
    fun _ _ => hentered.holds_iff h.wellFormed
  have hpairs : ∀ other title, (other, title) ∈ insert (uri, tag) pairs ↔
      ∃ place, before.IsTag title place ∧ after.Holds place other := by
    intro other title
    rw [Finset.mem_insert, h.pairs, Prod.mk.injEq]
    constructor
    · rintro (⟨rfl, rfl⟩ | ⟨place, htitle, hother⟩)
      · exact ⟨folder, htag, (hholds folder other).mpr (.inr ⟨rfl, rfl⟩)⟩
      · exact ⟨place, htitle, (hholds place other).mpr (.inl hother)⟩
    · rintro ⟨place, htitle, hother⟩
      rcases (hholds place other).mp hother with hold | ⟨rfl, rfl⟩
      · exact .inr ⟨place, htitle, hold⟩
      · exact .inl ⟨rfl, htitle.tagTitle.symm.trans htag.tagTitle⟩
  cases hentered with
  | there => exact { h with pairs := hpairs }
  | entered hmissing =>
      have hwell := h.wellFormed
      have hne := hwell.ne_tags htag.above?
      have htitles : ∀ {title : String} {place : Int},
          (before.inserted folder Places.atEnd .bookmark none (some uri)).IsTag title place ↔
            before.IsTag title place := by
        intro title place
        rw [isTag_inserted_iff hwell]
        simp
      constructor
      case wellFormed => exact hgrown.wellFormed
      case root => exact hgrown.isFolder h.root
      case tag =>
        intro place habove
        rcases (above?_inserted_iff hwell).mp habove with hold | ⟨-, heq⟩
        · obtain ⟨title, htitle⟩ := h.tag place hold
          exact ⟨title, htitles.mpr htitle⟩
        · exact absurd heq.symm hne
      case one =>
        intro title first second hfirst hsecond
        exact h.one title first second (htitles.mp hfirst) (htitles.mp hsecond)
      case entry =>
        intro place id habove hid
        rcases (above?_inserted_iff hwell).mp hid with hold | ⟨rfl, rfl⟩
        · obtain ⟨other, hother⟩ := h.entry place id (above?_of_inserted hwell hold habove) hold
          exact ⟨other, (files_inserted_iff hwell).mpr (.inl hother)⟩
        · exact ⟨uri, (files_inserted_iff hwell).mpr (.inr ⟨rfl, rfl, rfl⟩)⟩
      case once =>
        intro place other first second habove hfirst hsecond
        rcases (files_inserted_iff hwell).mp hfirst with hold | ⟨rfl, rfl, hurl⟩
        · rcases (files_inserted_iff hwell).mp hsecond with hold' | ⟨rfl, rfl, hurl⟩
          · exact h.once place other first second (above?_of_inserted hwell hold.above? habove) hold
              hold'
          · exact absurd ⟨first, Option.some.inj hurl ▸ hold⟩ hmissing
        · rcases (files_inserted_iff hwell).mp hsecond with hold | ⟨rfl, -, -⟩
          · exact absurd ⟨second, Option.some.inj hurl ▸ hold⟩ hmissing
          · rfl
      case pairs =>
        intro other title
        rw [hpairs]
        simp only [htitles]

/-! ### A URI that is taken out of tags -/

/-- The relation without the pairs of a URI with some tags; without a list, with any. -/
def without (pairs : Finset (String × String)) (uri : String) :
    Option (List String) → Finset (String × String)
  | some tags => pairs \ {uri} ×ˢ tags.toFinset
  | none => pairs.filter (·.1 ≠ uri)

theorem mem_without_iff {tags : Option (List String)} {other : String} :
    (other, tag) ∈ without pairs uri tags ↔
      (other, tag) ∈ pairs ∧ ¬ ((∀ wanted, tags = some wanted → tag ∈ wanted) ∧ other = uri) := by
  cases tags with
  | none => simp [without]
  | some wanted =>
      simp only [without, Finset.mem_sdiff, Finset.mem_product, Finset.mem_singleton,
        List.mem_toFinset, Option.some.injEq, forall_eq']
      rw [and_comm (a := tag ∈ wanted)]

theorem IsTag.pickedBy_iff (h : tree.IsTag tag folder) (tags : Option (List String)) :
    tree.PickedBy tags folder ↔ ∀ wanted, tags = some wanted → tag ∈ wanted := by
  obtain ⟨row, hrow, -, -, htitle⟩ := h
  simp [PickedBy, hrow, htitle]

theorem Shelves.cleared (h : before.Shelves pairs) {tags : Option (List String)}
    (hcleared : Cleared (before.Untagged uri (before.PickedBy tags)) before after) :
    after.Shelves (without pairs uri tags) := by
  have hwell := h.wellFormed
  have htitle : ∀ {title : String} {place : Int}, after.IsTag title place →
      before.IsTag title place := by
    rintro title place ⟨row, hrow, hrest⟩
    exact ⟨row, (hcleared.known?_of_some hrow).2, hrest⟩
  have hfiles : ∀ {place : Int} {other : String} {id : Int}, after.Files place other id →
      before.Files place other id := by
    rintro place other id ⟨row, hrow, hrest⟩
    exact ⟨row, (hcleared.known?_of_some hrow).2, hrest⟩
  constructor
  case wellFormed => exact hcleared.wellFormed
  case root =>
    exact BookmarkStore.isFolder_tags_of_retagged hwell (Retagged.of_untagged hcleared) h.root
  case tag =>
    intro place habove
    obtain ⟨row, hrow, -⟩ := known?_of_above? habove
    obtain ⟨title, hbefore⟩ := h.tag place (hcleared.above?_of_some habove)
    exact ⟨title, hbefore.congr (hcleared.kept place (hcleared.known?_of_some hrow).1)⟩
  case one =>
    intro title first second hfirst hsecond
    exact h.one title first second (htitle hfirst) (htitle hsecond)
  case entry =>
    intro place id habove hid
    obtain ⟨row, hrow, -⟩ := known?_of_above? hid
    obtain ⟨hkept, hentry⟩ := hcleared.known?_of_some hrow
    obtain ⟨other, found, hfound, hrest⟩ :=
      h.entry place id (hcleared.above?_of_some habove) (hcleared.above?_of_some hid)
    exact ⟨other, found, (hcleared.kept id hkept).trans hfound, hrest⟩
  case once =>
    intro place other first second habove hfirst hsecond
    exact h.once place other first second (hcleared.above?_of_some habove) (hfiles hfirst)
      (hfiles hsecond)
  case pairs =>
    intro other title
    rw [mem_without_iff, h.pairs]
    constructor
    · rintro ⟨⟨place, hbefore, id, row, hrow, hparent, hurl⟩, hother⟩
      rw [← hbefore.pickedBy_iff] at hother
      obtain ⟨hkept, hentry⟩ := hwell.not_untagged hbefore.above? hrow hparent
        fun hpicked heq => hother ⟨hpicked, Option.some.inj (hurl.symm.trans heq)⟩
      exact ⟨place, hbefore.congr (hcleared.kept place hkept), id, row,
        (hcleared.kept id hentry).trans hrow, hparent, hurl⟩
    · rintro ⟨place, hafter, id, row, hrow, hparent, hurl⟩
      obtain ⟨hkept, hentry⟩ := hcleared.known?_of_some hrow
      have hbefore := htitle hafter
      refine ⟨⟨place, hbefore, id, row, hentry, hparent, hurl⟩, ?_⟩
      rw [← hbefore.pickedBy_iff]
      rintro ⟨hpicked, rfl⟩
      exact hkept ⟨place, hbefore.above?, hpicked, .inl ⟨row, hentry, hparent, hurl⟩⟩

/-! ### Changes elsewhere -/

section Elsewhere

variable (huntouched : TagsUntouched before after) (hbefore : before.WellFormed)
  (hafter : after.WellFormed)

include huntouched hbefore hafter

theorem TagsUntouched.above?_iff :
    after.above? folder = some RootId.tags ↔ before.above? folder = some RootId.tags := by
  constructor
  · intro habove
    have hbelow := hafter.below_iff.mpr ⟨folder, habove, Encloses.refl after folder⟩
    rwa [above?_eq_known?, ← huntouched.same folder (.inr hbelow), ← above?_eq_known?]
  · intro habove
    have hbelow := hbefore.below_iff.mpr ⟨folder, habove, Encloses.refl before folder⟩
    rwa [above?_eq_known?, huntouched.same folder (.inl hbelow), ← above?_eq_known?]

theorem TagsUntouched.isTag_iff : after.IsTag tag folder ↔ before.IsTag tag folder := by
  constructor
  · intro htag
    have hbelow := hafter.below_iff.mpr ⟨folder, htag.above?, Encloses.refl after folder⟩
    exact htag.congr (huntouched.same folder (.inr hbelow)).symm
  · intro htag
    have hbelow := hbefore.below_iff.mpr ⟨folder, htag.above?, Encloses.refl before folder⟩
    exact htag.congr (huntouched.same folder (.inl hbelow))

/-- What is in a tag is the same as before. -/
theorem TagsUntouched.known?_iff (habove : before.above? folder = some RootId.tags) {row : Row}
    (hparent : row.parent = some folder) :
    after.known? id = some row ↔ before.known? id = some row := by
  have habove' := (huntouched.above?_iff hbefore hafter).mpr habove
  constructor <;> intro hrow <;> have hid := (above?_of_known? hrow).trans hparent
  · have hbelow := hafter.below_iff.mpr ⟨folder, habove', (Encloses.refl after folder).of_above? hid⟩
    rwa [← huntouched.same id (.inr hbelow)]
  · have hbelow := hbefore.below_iff.mpr ⟨folder, habove, (Encloses.refl before folder).of_above? hid⟩
    rwa [huntouched.same id (.inl hbelow)]

theorem TagsUntouched.files_iff (habove : before.above? folder = some RootId.tags) :
    after.Files folder uri id ↔ before.Files folder uri id := by
  constructor <;> rintro ⟨row, hrow, hparent, hurl⟩
  · exact ⟨row, (huntouched.known?_iff hbefore hafter habove hparent).mp hrow, hparent, hurl⟩
  · exact ⟨row, (huntouched.known?_iff hbefore hafter habove hparent).mpr hrow, hparent, hurl⟩

theorem TagsUntouched.child_iff (habove : before.above? folder = some RootId.tags) :
    after.above? id = some folder ↔ before.above? id = some folder := by
  constructor <;> intro hid <;> obtain ⟨row, hrow, hparent⟩ := known?_of_above? hid
  · have hsame := (huntouched.known?_iff hbefore hafter habove hparent).mp hrow
    exact (above?_of_known? hsame).trans hparent
  · have hsame := (huntouched.known?_iff hbefore hafter habove hparent).mpr hrow
    exact (above?_of_known? hsame).trans hparent

end Elsewhere

theorem Shelves.untouched (h : before.Shelves pairs) (huntouched : TagsUntouched before after)
    (hafter : after.WellFormed) : after.Shelves pairs := by
  have hwell := h.wellFormed
  have habove : ∀ {place : Int}, after.above? place = some RootId.tags →
      before.above? place = some RootId.tags := (huntouched.above?_iff hwell hafter).mp
  have htitle : ∀ {title : String} {place : Int}, after.IsTag title place ↔
      before.IsTag title place := huntouched.isTag_iff hwell hafter
  constructor
  case wellFormed => exact hafter
  case root => exact huntouched.root
  case tag =>
    intro place hplace
    obtain ⟨title, hbefore⟩ := h.tag place (habove hplace)
    exact ⟨title, htitle.mpr hbefore⟩
  case one =>
    intro title first second hfirst hsecond
    exact h.one title first second (htitle.mp hfirst) (htitle.mp hsecond)
  case entry =>
    intro place id hplace hid
    have hbefore := habove hplace
    obtain ⟨other, hother⟩ :=
      h.entry place id hbefore ((huntouched.child_iff hwell hafter hbefore).mp hid)
    exact ⟨other, (huntouched.files_iff hwell hafter hbefore).mpr hother⟩
  case once =>
    intro place other first second hplace hfirst hsecond
    have hbefore := habove hplace
    exact h.once place other first second hbefore
      ((huntouched.files_iff hwell hafter hbefore).mp hfirst)
      ((huntouched.files_iff hwell hafter hbefore).mp hsecond)
  case pairs =>
    intro other title
    rw [h.pairs]
    constructor
    · rintro ⟨place, hbefore, id, hid⟩
      exact ⟨place, htitle.mpr hbefore, id,
        (huntouched.files_iff hwell hafter hbefore.above?).mpr hid⟩
    · rintro ⟨place, hplace, id, hid⟩
      have hbefore := htitle.mp hplace
      exact ⟨place, hbefore, id, (huntouched.files_iff hwell hafter hbefore.above?).mp hid⟩

theorem TagsUntouched.refl (hroot : tree.IsFolder RootId.tags) : TagsUntouched tree tree :=
  ⟨hroot, fun _ _ => rfl⟩

theorem encloses_of_inserted (h : tree.WellFormed) {parent index : Int} {type : ItemType}
    {title url : Option String} {ancestor : Int} (hold : id ≠ tree.nextId)
    (hencloses : (tree.inserted parent index type title url).Encloses ancestor id) :
    tree.Encloses ancestor id := by
  obtain ⟨steps, hsteps⟩ := hencloses
  induction steps generalizing id with
  | zero => exact ⟨0, hsteps⟩
  | succ steps ih =>
      rw [climb_succ, Option.bind_eq_some_iff] at hsteps
      obtain ⟨place, hplace, hrest⟩ := hsteps
      have habove : tree.above? id = some place :=
        ((above?_inserted_iff h).mp hplace).resolve_right fun hnew => hold hnew.1
      have hne : place ≠ tree.nextId := fun heq => h.above?_ne_nextId _ (heq ▸ habove)
      exact (ih hne hrest).of_above? habove

theorem tagsUntouched_inserted (h : tree.WellFormed) (hroot : tree.IsFolder RootId.tags)
    {parent : Int} (hparent : tree.IsFolder parent)
    (houtside : ¬ tree.Encloses RootId.tags parent) (index : Int) (type : ItemType)
    (title url : Option String) :
    TagsUntouched tree (tree.inserted parent index type title url) where
  root := h.isFolder_inserted _ _ _ _ _ hroot
  same := by
    intro id hbelow
    rw [h.known?_inserted]
    split
    · rename_i hnew
      subst hnew
      have hnone : ∀ place, tree.above? tree.nextId ≠ some place := by
        intro place hplace
        rw [above?_eq_known?, h.known?_nextId] at hplace
        cases hplace
      exfalso
      rcases hbelow with hbelow | hbelow <;>
        rcases hbelow.1.eq_or_above? with heq | ⟨place, hplace, hup⟩
      · exact hbelow.2 heq.symm
      · exact hnone place hplace
      · exact hbelow.2 heq.symm
      · obtain ⟨-, rfl⟩ := ((above?_inserted_iff h).mp hplace).resolve_left (hnone place)
        obtain ⟨row, hrow, -⟩ := hparent
        have hlt := (h.id_bounds place row hrow).2
        exact houtside (encloses_of_inserted h (by omega) hup)
    · rfl

/-! ### No empty folders -/

/-- Whether the folders of the tags stand for a relation. -/
structure Represents (tree : Tree) (pairs : Finset (String × String)) : Prop extends
    Shelves pairs tree where
  filled : tree.NoneEmpty

theorem Represents.added (h : before.Represents pairs) (huri : validateUri uri = .ok uri)
    (hmade : Places.TagMade tag before folder middle)
    (hentered : Places.UriEntered uri folder middle after) :
    after.Represents (insert (uri, tag) pairs) := by
  have hwell := h.wellFormed
  have hshelves := h.toShelves.tagMade hmade
  have hfolder := (hmade.firstTag hwell).isTag
  have hgrown := (hmade.grown hwell h.root).trans
    (hentered.grown hshelves.wellFormed hfolder huri)
  refine ⟨hshelves.uriEntered hfolder huri hentered, ?_⟩
  intro place habove
  have hplace : place = folder ∨ before.above? place = some RootId.tags := by
    have hmiddle : middle.above? place = some RootId.tags := by
      cases hentered with
      | there => exact habove
      | entered =>
          refine ((above?_inserted_iff hshelves.wellFormed).mp habove).resolve_right ?_
          rintro ⟨-, heq⟩
          exact hshelves.wellFormed.ne_tags hfolder.above? heq.symm
    cases hmade with
    | found => exact .inr hmiddle
    | made => exact ((above?_inserted_iff hwell).mp hmiddle).symm.imp_left And.left
  rcases hplace with rfl | hold
  · exact ((hentered.holds_iff hshelves.wellFormed).mpr (.inr ⟨rfl, rfl⟩)).exists_above?
  · obtain ⟨id, hid⟩ := h.filled place hold
    exact ⟨id, hgrown.above? hid⟩

theorem Represents.cleared (h : before.Represents pairs) {tags : Option (List String)}
    (hcleared : Cleared (before.Untagged uri (before.PickedBy tags)) before after) :
    after.Represents (without pairs uri tags) where
  toShelves := h.toShelves.cleared hcleared
  filled := fun place habove => hcleared.exists_above? h.wellFormed habove fun _ =>
    h.filled place (hcleared.above?_of_some habove)

theorem Represents.untouched (h : before.Represents pairs) (huntouched : TagsUntouched before after)
    (hafter : after.WellFormed) : after.Represents pairs where
  toShelves := h.toShelves.untouched huntouched hafter
  filled := by
    intro place habove
    have hbefore := (huntouched.above?_iff h.wellFormed hafter).mp habove
    obtain ⟨id, hid⟩ := h.filled place hbefore
    exact ⟨id, (huntouched.child_iff h.wellFormed hafter hbefore).mpr hid⟩

end Tree

namespace Places

open SyncedBookmarks.Action SyncedBookmarks.Tree

variable {tree : Tree} {pairs : Finset (String × String)} {uri : String}

theorem leads_tagUri_represents (h : tree.Represents pairs) (huri : validateUri uri = .ok uri)
    (tags : List String) : Leads (tagUri uri tags) tree fun _ next =>
      next.Represents (pairs ∪ {uri} ×ˢ (tags.filter (!·.isEmpty)).toFinset) := by
  refine leads_check_bind huri ?_
  generalize tags.filter (!·.isEmpty) = given
  refine Leads.imp (leads_forM (P := fun rest next => ∃ done, given = done ++ rest ∧
    next.Represents (pairs ∪ {uri} ×ˢ done.toFinset)) ?_ given ?_) ?_
  · rintro tag rest next ⟨done, rfl, hdone⟩
    refine (leads_addTag_made hdone.wellFormed hdone.root huri tag).imp ?_
    rintro _ after ⟨folder, middle, hmade, hentered⟩
    refine ⟨done ++ [tag], by simp, ?_⟩
    have hadded := hdone.added huri hmade hentered
    convert hadded using 1
    ext ⟨other, title⟩
    simp only [Finset.mem_union, Finset.mem_product, Finset.mem_singleton, List.mem_toFinset,
      List.mem_append, List.mem_singleton, Finset.mem_insert, Prod.mk.injEq]
    tauto
  · exact ⟨[], rfl, by simpa using h⟩
  · rintro - next ⟨done, hsplit, hdone⟩
    rw [List.append_nil] at hsplit
    exact hsplit ▸ hdone

theorem leads_untagUri_represents (h : tree.Represents pairs) (huri : validateUri uri = .ok uri)
    (tags : Option (List String)) : Leads (untagUri uri tags) tree fun _ next =>
      next.Represents (without pairs uri tags) :=
  (leads_untagUri h.wellFormed huri tags).imp fun _ _ hcleared => h.cleared hcleared

end Places

namespace Tree

/-! ### Reading the relation -/

section Reading

variable {tree : Tree} {pairs : Finset (String × String)} {folder : Int} (h : tree.Represents pairs)

include h

theorem Represents.tagsOf_eq (uri : String) : tree.tagsOf uri = (validateUri uri).map fun uri =>
    ((pairs.filter (·.1 = uri)).image (·.2)).sort (· ≤ ·) := by
  cases huri : validateUri uri with
  | error cause =>
      rw [tagsOf, huri]
      rfl
  | ok checked =>
      obtain rfl := eq_of_validateUri huri
      have hfolder : ∀ folder, tree.TagHolds folder checked →
          tree.IsTag (tree.tagTitle folder) folder := by
        intro folder hholds
        obtain ⟨tag, htag⟩ := h.tag folder hholds.1
        rwa [htag.tagTitle]
      refine Places.tagsOf_of_titles h.wellFormed huri ?_ ?_
      · intro tag
        have hpaired : tag ∈ (pairs.filter (·.1 = checked)).image (·.2) ↔ (checked, tag) ∈ pairs := by
          simp
        rw [hpaired, h.pairs]
        constructor
        · rintro ⟨folder, htag, hholds⟩
          exact ⟨folder, ⟨htag.above?, hholds⟩, htag.tagTitle⟩
        · rintro ⟨folder, hholds, rfl⟩
          exact ⟨folder, hfolder folder hholds, hholds.2⟩
      · intro first second hfirst hsecond htitle
        exact h.one _ first second (hfolder first hfirst) (htitle ▸ hfolder second hsecond)

/-- An item in the root for tags is a tag. -/
theorem Represents.isTag_of_mem {folders : List Item}
    (hfolders : tree.children RootId.tags = .ok folders) {folder : Item}
    (hfolder : folder ∈ folders) :
    ∃ tag, tree.IsTag tag folder.id ∧ folder.type = .folder ∧ folder.title = some tag := by
  obtain ⟨row, hrow, hparent, -, hcode, htitle, -⟩ :=
    h.wellFormed.of_mem_children hfolders hfolder
  obtain ⟨tag, htag⟩ := h.tag folder.id ((above?_of_known? hrow).trans hparent)
  have ⟨found, hfound, _, hfolderCode, hname⟩ := htag
  obtain rfl := Option.some.inj (hrow.symm.trans hfound)
  exact ⟨tag, htag, ItemType.code_inj (hcode.symm.trans hfolderCode), htitle.symm.trans hname⟩

/-- An item in a tag is a bookmark that files a URI there. -/
theorem Represents.files_of_mem (habove : tree.above? folder = some RootId.tags)
    {entries : List Item} (hentries : tree.children folder = .ok entries) {entry : Item}
    (hentry : entry ∈ entries) :
    ∃ uri, entry.type = .bookmark ∧ entry.url = some uri ∧ tree.Files folder uri entry.id := by
  obtain ⟨row, hrow, hup, -, hcode, -, hurl⟩ := h.wellFormed.of_mem_children hentries hentry
  obtain ⟨uri, huri⟩ := h.entry folder entry.id habove ((above?_of_known? hrow).trans hup)
  have ⟨found, hfound, _, hfiled⟩ := huri
  obtain rfl := Option.some.inj (hrow.symm.trans hfound)
  have hbookmark := (h.wellFormed.sound _ row hrow).url_iff.mp (by rw [hfiled]; rfl)
  exact ⟨uri, ItemType.code_inj (hcode.symm.trans hbookmark), hurl.symm.trans hfiled, huri⟩

omit h in
/-- No two children of a folder have what is different for different items. -/
theorem WellFormed.nodup_children (hwell : tree.WellFormed) {items : List Item}
    (hitems : tree.children folder = .ok items) {α : Type} {view : Item → α}
    (hview : ∀ first ∈ items, ∀ second ∈ items, view first = view second → first.id = second.id) :
    (items.map view).Nodup := by
  obtain ⟨found, hfound, hids, -⟩ := hwell.refines folder
  obtain rfl := Except.ok.inj (hitems.symm.trans hfound)
  have hnodup : (items.map (·.id)).Nodup := hids ▸ hwell.orderly.nodup_forest folder
  refine List.Nodup.map_on ?_ hnodup.of_map
  intro first hfirst second hsecond heq
  exact List.inj_on_of_nodup_map hnodup hfirst hsecond (hview first hfirst second hsecond heq)

/-- The folders of the tags are those of the relation, each with a title of its own. -/
theorem Represents.folders {folders : List Item}
    (hfolders : tree.children RootId.tags = .ok folders) :
    (∀ folder ∈ folders, folder.type = .folder) ∧ (folders.map (·.title)).Nodup ∧
      ∀ title, title ∈ folders.map (·.title) ↔ ∃ tag ∈ pairs.image (·.2), title = some tag := by
  refine ⟨?_, ?_, ?_⟩
  · intro folder hfolder
    obtain ⟨tag, -, htype, -⟩ := h.isTag_of_mem hfolders hfolder
    exact htype
  · apply h.wellFormed.nodup_children hfolders
    intro first hfirst second hsecond heq
    obtain ⟨tag, htag, -, hname⟩ := h.isTag_of_mem hfolders hfirst
    obtain ⟨tag', htag', -, hname'⟩ := h.isTag_of_mem hfolders hsecond
    obtain rfl := Option.some.inj (hname.symm.trans (heq.trans hname'))
    exact h.one tag _ _ htag htag'
  · intro title
    rw [List.mem_map]
    constructor
    · -- No tag is without a bookmark, so every title is in some pair.
      rintro ⟨folder, hfolder, rfl⟩
      obtain ⟨tag, htag, -, hname⟩ := h.isTag_of_mem hfolders hfolder
      obtain ⟨id, hid⟩ := h.filled folder.id htag.above?
      obtain ⟨uri, huri⟩ := h.entry folder.id id htag.above? hid
      have hpair := (h.pairs uri tag).mpr ⟨folder.id, htag, id, huri⟩
      exact ⟨tag, Finset.mem_image_of_mem Prod.snd hpair, hname⟩
    · rintro ⟨tag, hpair, rfl⟩
      obtain ⟨⟨uri, tag⟩, hmem, rfl⟩ := Finset.mem_image.mp hpair
      obtain ⟨folder, hfolder, -⟩ := (h.pairs uri tag).mp hmem
      obtain ⟨row, hrow, hparent, -, hname⟩ := hfolder
      obtain ⟨item, hitem, -, -, -, htitle, -⟩ :=
        h.wellFormed.exists_mem_children hfolders hrow hparent
      exact ⟨item, hitem, htitle.symm.trans hname⟩

/-- A tag's folder holds a bookmark for each URI that has the tag, and nothing else. -/
theorem Represents.entries {folders : List Item}
    (hfolders : tree.children RootId.tags = .ok folders) {folder : Item}
    (hfolder : folder ∈ folders) :
    ∃ entries, tree.children folder.id = .ok entries ∧ entries ≠ [] ∧
      (∀ entry ∈ entries, entry.type = .bookmark) ∧ (entries.map (·.url)).Nodup ∧
      ∀ url, url ∈ entries.map (·.url) ↔
        ∃ uri tag, url = some uri ∧ folder.title = some tag ∧ (uri, tag) ∈ pairs := by
  have hwell := h.wellFormed
  obtain ⟨tag, htag, -, hname⟩ := h.isTag_of_mem hfolders hfolder
  have habove := htag.above?
  obtain ⟨entries, hentries, -⟩ := hwell.children folder.id
  refine ⟨entries, hentries, ?_, ?_, ?_, ?_⟩
  · rintro rfl
    obtain ⟨id, hid⟩ := h.filled folder.id habove
    exact absurd ((hwell.ids_children hentries id).mpr hid) List.not_mem_nil
  · intro entry hentry
    obtain ⟨uri, htype, -⟩ := h.files_of_mem habove hentries hentry
    exact htype
  · apply hwell.nodup_children hentries
    intro first hfirst second hsecond heq
    obtain ⟨uri, -, hurl, hfiled⟩ := h.files_of_mem habove hentries hfirst
    obtain ⟨uri', -, hurl', hfiled'⟩ := h.files_of_mem habove hentries hsecond
    obtain rfl := Option.some.inj (hurl.symm.trans (heq.trans hurl'))
    exact h.once folder.id uri _ _ habove hfiled hfiled'
  · intro url
    rw [List.mem_map]
    constructor
    · rintro ⟨entry, hentry, rfl⟩
      obtain ⟨uri, -, hurl, hfiled⟩ := h.files_of_mem habove hentries hentry
      exact ⟨uri, tag, hurl, hname, (h.pairs uri tag).mpr ⟨folder.id, htag, entry.id, hfiled⟩⟩
    · rintro ⟨uri, title, rfl, hsame, hpair⟩
      obtain rfl := Option.some.inj (hname.symm.trans hsame)
      obtain ⟨place, hplace, id, found, hfound, hup, hurl⟩ := (h.pairs uri tag).mp hpair
      -- There is one folder with the title, so the pair is filed in this one.
      rw [h.one tag place folder.id hplace htag] at hup
      obtain ⟨entry, hentry, -, -, -, -, hread⟩ := hwell.exists_mem_children hentries hfound hup
      exact ⟨entry, hentry, hread.symm.trans hurl⟩

end Reading

/-! ### Runs -/

theorem represents_fresh (guids : GuidSource) : (fresh guids).Represents ∅ := by
  have hwell := wellFormed_fresh guids
  have hnone : ∀ id, (fresh guids).above? id ≠ some RootId.tags := by
    intro id habove
    obtain ⟨row, hrow, hparent⟩ := known?_of_above? habove
    obtain ⟨found, hmem, -, rfl⟩ := exists_mem_of_known? hrow
    rcases mem_fresh_iff.mp hmem with rfl | rfl | rfl | rfl | rfl <;>
      exact absurd hparent (by decide)
  have htag : ∀ tag folder, ¬ (fresh guids).IsTag tag folder :=
    fun tag folder hfolder => hnone folder hfolder.above?
  constructor
  case toShelves =>
    constructor
    case wellFormed => exact hwell
    case root => exact hwell.isFolder_tags rfl
    case tag => exact fun folder habove => absurd habove (hnone folder)
    case one => exact fun tag first _ hfirst => absurd hfirst (htag tag first)
    case entry => exact fun folder _ habove => absurd habove (hnone folder)
    case once => exact fun folder _ _ _ habove => absurd habove (hnone folder)
    case pairs =>
      intro uri tag
      simp [htag]
  case filled => exact fun folder habove => absurd habove (hnone folder)

end Tree

namespace StoreCall

open SyncedBookmarks.Action SyncedBookmarks.Tree

/-- Whether a call tags a URI or takes it out of tags. -/
def IsTagging : StoreCall → Prop
  | mutate (.tagUri _ _) => True
  | mutate (.untagUri _ _) => True
  | _ => False

/-- The pairs of URIs and tags after a call. -/
def paired (store : BookmarkStore) (pairs : Finset (String × String)) (call : StoreCall) :
    Finset (String × String) :=
  match call, (call.action.result store).1 with
  | mutate (.tagUri uri tags), .ok () => pairs ∪ {uri} ×ˢ (tags.filter (!·.isEmpty)).toFinset
  | mutate (.untagUri uri tags), .ok () => without pairs uri tags
  | _, _ => pairs

def pairedAll (store : BookmarkStore) (pairs : Finset (String × String)) :
    List StoreCall → Finset (String × String)
  | [] => pairs
  | call :: calls => pairedAll (run store call) (paired store pairs call) calls

/-- Whether each call of a run tags, takes out of tags or leaves all tags alone. -/
def OnlyTags (store : BookmarkStore) : List StoreCall → Prop
  | [] => True
  | call :: calls =>
      (call.IsTagging ∨ TagsUntouched store.tree (run store call).tree) ∧
        OnlyTags (run store call) calls

variable {store : BookmarkStore} {pairs : Finset (String × String)} {uri : String}

section Outcomes

variable {call : StoreCall} {next : BookmarkStore} {cause : StoreError}

theorem represents_of_ok (hok : call.action.result store = (.ok (), next))
    (hnext : next.tree.Represents (paired store pairs call)) :
    (run store call).tree.Represents (paired store pairs call) := by
  rw [run, hok]
  exact hnext

/-- A call that fails pairs nothing. -/
theorem paired_of_error (hfail : (call.action.result store).1 = .error cause) :
    paired store pairs call = pairs := by
  unfold paired
  split
  · rename_i hok
    cases hfail.symm.trans hok
  · rename_i hok
    cases hfail.symm.trans hok
  · rfl

theorem paired_of_not_isTagging (hcall : ¬ call.IsTagging) : paired store pairs call = pairs := by
  unfold paired
  split
  · exact absurd trivial hcall
  · exact absurd trivial hcall
  · rfl

end Outcomes

/-- A call that checks its URI first pairs nothing when it is refused. -/
theorem represents_of_checked (h : store.tree.Represents pairs) {call : StoreCall}
    {step : String → TreeAction Unit} {after : Finset (String × String)}
    (hcall : call.action =
      BookmarkStore.onTree (Places.check (fun _ => validateUri uri) >>= step))
    (hleads : validateUri uri = .ok uri → Places.Leads
      (Places.check (fun _ => validateUri uri) >>= step) store.tree
        fun _ next => next.Represents after)
    (hpaired : ∀ next, call.action.result store = (.ok (), next) →
      paired store pairs call = after) :
    (run store call).tree.Represents (paired store pairs call) := by
  cases huri : validateUri uri with
  | error cause =>
      have hfail : call.action.result store = (.error (.tree cause), store) := by
        rw [hcall]
        simp only [BookmarkStore.onTree, result_within, result_bind, Places.result_checked, huri]
        rfl
      rw [run, paired_of_error (by rw [hfail]), hfail]
      exact h
  | ok checked =>
      obtain rfl := eq_of_validateUri huri
      obtain ⟨_, next, hresult, hnext, -⟩ := BookmarkStore.leads_onTree (hleads huri) store rfl
      rw [← hcall] at hresult
      apply represents_of_ok hresult
      rw [hpaired next hresult]
      exact hnext

theorem represents_tagUri (h : store.tree.Represents pairs) (uri : String) (tags : List String) :
    (run store (.mutate (.tagUri uri tags))).tree.Represents
      (paired store pairs (.mutate (.tagUri uri tags))) := by
  apply represents_of_checked h rfl (fun huri => Places.leads_tagUri_represents h huri tags)
  intro next hok
  simp only [paired, hok]

theorem represents_untagUri (h : store.tree.Represents pairs) (uri : String)
    (tags : Option (List String)) :
    (run store (.mutate (.untagUri uri tags))).tree.Represents
      (paired store pairs (.mutate (.untagUri uri tags))) := by
  apply represents_of_checked h rfl (fun huri => Places.leads_untagUri_represents h huri tags)
  intro next hok
  simp only [paired, hok]

theorem represents_run (h : store.tree.Represents pairs) {call : StoreCall}
    (hcall : call.IsTagging ∨ TagsUntouched store.tree (run store call).tree)
    (hwell : (run store call).tree.WellFormed) :
    (run store call).tree.Represents (paired store pairs call) := by
  by_cases htagging : call.IsTagging
  · cases call with
    | mutate mutation =>
        cases mutation with
        | tagUri uri tags => exact represents_tagUri h uri tags
        | untagUri uri tags => exact represents_untagUri h uri tags
        | _ => exact htagging.elim
    | _ => exact htagging.elim
  · rw [paired_of_not_isTagging htagging]
    exact h.untouched (hcall.resolve_left htagging) hwell

theorem represents_runAll (hwell : store.WellFormed) (h : store.tree.Represents pairs)
    {calls : List StoreCall} (hcalls : OnlyTags store calls) :
    (runAll store calls).tree.Represents (pairedAll store pairs calls) := by
  induction calls generalizing store pairs with
  | nil => exact h
  | cons call calls ih =>
      have hnext : (run store call).WellFormed := call.keeps_action store hwell
      exact ih hnext (represents_run h hcalls.1 hnext.tree) hcalls.2

/-- What is put elsewhere is not among the tags. -/
theorem tagsUntouched_insertBookmark (h : store.tree.WellFormed)
    (hroot : store.tree.IsFolder RootId.tags) {parent : Int}
    (houtside : ¬ store.tree.Encloses RootId.tags parent) (uri : String) (index : Int)
    (title : Option String) : TagsUntouched store.tree
      (run store (.mutate (.insertBookmark parent uri index title))).tree := by
  change TagsUntouched store.tree
    ((Mutation.insertBookmark parent uri index title).action.result store.places).2.tree
  simp only [Mutation.action, map_eq_pure_bind, Places.insertBookmark, result_bind,
    Places.result_checked]
  cases validateUri uri with
  | error cause => exact .refl hroot
  | ok checked =>
      cases hfolder : store.places.tree.requireFolder parent with
      | error cause =>
          simp only [Places.insertItem, result_bind, Places.result_checked, hfolder]
          exact .refl hroot
      | ok value =>
          simp only [Places.result_insertItem hfolder]
          exact tagsUntouched_inserted h hroot ((h.requireFolder_iff parent).mp hfolder) houtside
            _ _ _ _

/-- While nothing but tagging changes the tags, they are a finite relation. -/
theorem tags_form_relation (guids : GuidSource) (generators : Option (List String))
    {calls : List StoreCall} (hcalls : OnlyTags (.fresh guids generators) calls) :
    (∀ uri, (runAll (.fresh guids generators) calls).tree.tagsOf uri =
      (validateUri uri).map fun uri =>
        (((pairedAll (.fresh guids generators) ∅ calls).filter (·.1 = uri)).image (·.2)).sort
          (· ≤ ·)) ∧
    ∃ folders, (runAll (.fresh guids generators) calls).tree.children RootId.tags = .ok folders ∧
      (∀ folder ∈ folders, folder.type = .folder) ∧ (folders.map (·.title)).Nodup ∧
      (∀ title, title ∈ folders.map (·.title) ↔
        ∃ tag ∈ (pairedAll (.fresh guids generators) ∅ calls).image (·.2), title = some tag) ∧
      ∀ folder ∈ folders, ∃ entries,
        (runAll (.fresh guids generators) calls).tree.children folder.id = .ok entries ∧
          entries ≠ [] ∧ (∀ entry ∈ entries, entry.type = .bookmark) ∧
          (entries.map (·.url)).Nodup ∧
          ∀ url, url ∈ entries.map (·.url) ↔ ∃ uri tag, url = some uri ∧
            folder.title = some tag ∧
              (uri, tag) ∈ pairedAll (.fresh guids generators) ∅ calls := by
  have hstart : (BookmarkStore.fresh guids generators).Reachable := ⟨guids, generators, [], rfl⟩
  have hrepresents := represents_runAll hstart.wellFormed (represents_fresh guids) hcalls
  generalize runAll (.fresh guids generators) calls = store at hrepresents
  generalize pairedAll (.fresh guids generators) ∅ calls = pairs at hrepresents
  obtain ⟨folders, hfolders, -⟩ := hrepresents.wellFormed.children RootId.tags
  obtain ⟨htypes, htitles, hnames⟩ := hrepresents.folders hfolders
  exact ⟨hrepresents.tagsOf_eq, folders, hfolders, htypes, htitles, hnames,
    fun _ hfolder => hrepresents.entries hfolders hfolder⟩

/-- Two tags, of which one is taken back after a bookmark has been put into the menu. -/
def taggingCalls : List StoreCall :=
  [.mutate (.tagUri "about:a" ["y", "x", "", "y"]),
    .mutate (.insertBookmark RootId.menu "about:a" Places.atEnd none),
    .mutate (.tagUri "nowhere" ["x"]), .mutate (.untagUri "about:a" (some ["x"]))]

theorem onlyTags_taggingCalls : OnlyTags (.fresh .numbered none) taggingCalls := by
  have htagged : (runAll (.fresh .numbered none) (taggingCalls.take 1)).Reachable :=
    ⟨.numbered, none, _, rfl⟩
  have hwell := htagged.wellFormed.tree
  refine ⟨.inl trivial, .inr ?_, .inl trivial, .inl trivial, trivial⟩
  exact tagsUntouched_insertBookmark hwell (hwell.isFolder_tags (by cbv))
    (hwell.not_encloses_of_isWithin (by cbv)) _ _ _

theorem one_tag_left :
    OnlyTags (.fresh .numbered none) taggingCalls ∧
      pairedAll (.fresh .numbered none) ∅ taggingCalls = {("about:a", "y")} ∧
      (runAll (.fresh .numbered none) taggingCalls).tree.tagsOf "about:a" = .ok ["y"] := by
  have hpairs : pairedAll (.fresh .numbered none) ∅ taggingCalls = {("about:a", "y")} := by
    cbv
  have huri : validateUri "about:a" = .ok "about:a" := by cbv
  have hrelation := (tags_form_relation .numbered none onlyTags_taggingCalls).1 "about:a"
  rw [hpairs, huri] at hrelation
  refine ⟨onlyTags_taggingCalls, hpairs, hrelation.trans ?_⟩
  simp [Except.map, Finset.filter_singleton]

end StoreCall

end SyncedBookmarks
