import SyncedBookmarks.Proofs.Departures
import SyncedBookmarks.Proofs.Gathering
import SyncedBookmarks.Proofs.OwnItem
import SyncedBookmarks.Proofs.RootSafety

namespace SyncedBookmarks

/-! A wipe takes away all that is below the roots for bookmarks and the root for tags, with its
annotations, and leaves the rest just as it is. -/

/-- Where nothing is synced nothing is listed. -/
theorem BookmarkStore.allIds_eq_nil {tree : Tree} (h : tree.WellFormed)
    (hnone : ∀ id, ¬ tree.Synced id) : allIds tree = .ok [] := by
  obtain ⟨guids, hguids, hlists⟩ := allIds_spec h
  obtain rfl : guids = [] := by
    refine List.eq_nil_iff_forall_not_mem.mpr fun guid hguid => ?_
    obtain ⟨id, hsynced, -⟩ := (hlists guid).mp hguid
    exact hnone id hsynced
  exact hguids

namespace Tree

/-- The roots that a wipe empties, in the order in which it does. -/
def sweptRoots : List (Int × String) :=
  [(RootId.menu, RootGuid.menu), (RootId.toolbar, RootGuid.toolbar),
    (RootId.unfiled, RootGuid.unfiled), (RootId.tags, RootGuid.tags)]

/-- Whether an item is below one of some roots. -/
def BelowAny (tree : Tree) (roots : List (Int × String)) (id : Int) : Prop :=
  ∃ root ∈ roots, tree.Below root.1 id

/-- What a tree comes to when some items are taken away and the others keep their places too. -/
structure Stripped (gone : Int → Prop) (before after : Tree) : Prop extends
    Cleared gone before after where
  row? : ∀ id, ¬ gone id → after.row? id = before.row? id

variable {tree before after : Tree} {gone : Int → Prop}

theorem Stripped.refl (h : tree.WellFormed) : Stripped (fun _ => False) tree tree :=
  ⟨Cleared.refl h, fun _ _ => rfl⟩

theorem Stripped.trans {more : Int → Prop} {middle : Tree} (hfirst : Stripped gone before middle)
    (hsecond : Stripped more middle after) :
    Stripped (fun id => gone id ∨ more id) before after where
  toCleared := hfirst.toCleared.trans hsecond.toCleared
  row? := fun id hkept => (hsecond.row? id fun hmore => hkept (.inr hmore)).trans
    (hfirst.row? id fun hgone => hkept (.inl hgone))

theorem Stripped.congr {same : Int → Prop} (h : Stripped gone before after)
    (hiff : ∀ id row, before.known? id = some row → (gone id ↔ same id)) :
    Stripped same before after where
  toCleared := h.toCleared.congr hiff
  row? := by
    intro id hkept
    by_cases hgone : gone id
    · cases hrow : before.known? id with
      | none => rw [known?_eq_none_iff.mp hrow, known?_eq_none_iff.mp (h.absent id hgone)]
      | some row => exact absurd ((hiff id row hrow).mp hgone) hkept
    · exact h.row? id hgone

/-- The annotations that are left are those of the items that are left. -/
theorem Stripped.mem_annotated_iff (h : Stripped gone before after) (hbefore : before.WellFormed)
    {name : String} {entry : Int × String} : entry ∈ after.annotated name ↔
      entry ∈ before.annotated name ∧ ¬ gone entry.1 := by
  obtain ⟨id, value⟩ := entry
  rw [BookmarkStore.mem_annotated_iff h.wellFormed, BookmarkStore.mem_annotated_iff hbefore]
  constructor
  · rintro ⟨row, hrow, hvalue⟩
    obtain ⟨hkept, hrow⟩ := h.known?_of_some hrow
    exact ⟨⟨row, hrow, hvalue⟩, hkept⟩
  · rintro ⟨⟨row, hrow, hvalue⟩, hkept⟩
    exact ⟨row, (h.kept id hkept).trans hrow, hvalue⟩

theorem WellFormed.downClosed_below (h : tree.WellFormed) (folder : Int) :
    tree.DownClosed (tree.Below folder) := by
  rintro id parent habove ⟨hencloses, -⟩
  refine ⟨hencloses.of_above? habove, ?_⟩
  rintro rfl
  exact h.not_encloses_parent habove hencloses

/-- A root that has its name is found by it. -/
theorem RootsNamed.idOfGuid?_eq (h : tree.RootsNamed) (hwell : tree.WellFormed) {id : Int}
    {guid : String} (hmem : (id, guid) ∈ rootNames) : tree.idOfGuid? guid = some id := by
  have hname := h id guid hmem
  rw [guidOf?_eq_known?, Option.map_eq_some_iff] at hname
  exact hwell.idOfGuid?_iff.mpr hname

/-- No root is below a root other than the topmost. -/
theorem RootsInPlace.not_below (h : tree.RootsInPlace) (hwell : tree.WellFormed) {folder id : Int}
    (hfolder : folder ≠ RootId.places) (hroot : IsRoot id) : ¬ tree.Below folder id := by
  rintro ⟨hencloses, hne⟩
  rcases hencloses.eq_or_above? with heq | ⟨parent, habove, hup⟩
  · exact hne heq.symm
  · obtain rfl := h.above?_of_isRoot hwell hroot habove
    exact hwell.not_encloses_places hfolder hup

theorem ne_places_of_mem_sweptRoots : ∀ root ∈ sweptRoots, root.1 ≠ RootId.places := by decide

theorem sweptRoots_subset : ∀ root ∈ sweptRoots, root ∈ rootNames := by decide

theorem RootsInPlace.swept {folder : Int} (h : tree.RootsInPlace) (hwell : tree.WellFormed)
    (hfolder : folder ≠ RootId.places) (hswept : Stripped (tree.Below folder) tree after) :
    after.RootsInPlace :=
  h.of_known? fun id hroot => hswept.kept id (h.not_below hwell hfolder hroot)

theorem mem_sweptRoots_of_syncedRoots :
    ∀ guid ∈ BookmarkStore.syncedRoots, ∃ root ∈ sweptRoots, root.2 = guid := by decide

section Emptied

variable (h : before.WellFormed) (hswept : Stripped (before.BelowAny sweptRoots) before after)

include h hswept

/-- Nothing is left in a root that is emptied. -/
theorem Stripped.above?_ne {root : Int × String} (hroot : root ∈ sweptRoots) (id : Int) :
    after.above? id ≠ some root.1 := by
  intro habove
  obtain ⟨row, hrow, hparent⟩ := known?_of_above? habove
  obtain ⟨hkept, hold⟩ := hswept.known?_of_some hrow
  have hup : before.above? id = some root.1 := (above?_of_known? hold).trans hparent
  exact hkept ⟨root, hroot, .of_above? h hup (.refl before root.1)⟩

theorem Stripped.children_eq_nil {root : Int × String} (hroot : root ∈ sweptRoots) :
    after.children root.1 = .ok [] := by
  have hnone : after.childRows root.1 = [] := by
    refine List.eq_nil_iff_forall_not_mem.mpr fun row hrow => ?_
    obtain ⟨hmem, hparent⟩ := mem_childRows_iff.mp hrow
    refine hswept.above?_ne h hroot row.id ?_
    rw [above?_of_known? (known?_eq_some_of_mem hswept.wellFormed.ids_nodup hmem)]
    exact hparent
  rw [children, hnone]
  rfl

theorem RootsInPlace.sweptAll (hroots : before.RootsInPlace) : after.RootsInPlace := by
  refine hroots.of_known? fun id hroot => hswept.kept id ?_
  rintro ⟨root, hmem, hbelow⟩
  exact hroots.not_below h (ne_places_of_mem_sweptRoots root hmem) hroot hbelow

theorem Stripped.allIds_eq_nil (hroots : before.RootsInPlace) :
    BookmarkStore.allIds after = .ok [] := by
  refine BookmarkStore.allIds_eq_nil hswept.wellFormed fun id hsynced => ?_
  induction hsynced with
  | child hroot _ habove =>
      obtain ⟨guid, hguid, hroot⟩ := hroot
      obtain ⟨root, hmem, rfl⟩ := mem_sweptRoots_of_syncedRoots guid hguid
      have hfound := (hroots.sweptAll h hswept).named.idOfGuid?_eq hswept.wellFormed
        (sweptRoots_subset root hmem)
      rw [Option.some.inj (hroot.symm.trans hfound)] at habove
      exact hswept.above?_ne h hmem _ habove
  | deeper _ _ _ ih => exact ih

end Emptied

/-- What is left of a tree has the same above it. -/
theorem Stripped.below_iff (h : Stripped gone before after) (hclosed : before.DownClosed gone)
    {folder id : Int} (hkept : ¬ gone id) : after.Below folder id ↔ before.Below folder id :=
  and_congr_left fun _ => ⟨h.encloses, h.encloses_of_kept hclosed hkept⟩

end Tree

namespace Places

open SyncedBookmarks.Tree

theorem leads_sweep {tree : Tree} (h : tree.WellFormed) (folder : Int) :
    Leads (removeChildren folder) tree fun _ next => Stripped (tree.Below folder) tree next := by
  rintro places rfl
  obtain ⟨_, next, hnext, hcleared⟩ := leads_removeChildren h folder places rfl
  refine ⟨_, next, hnext, hcleared, ?_⟩
  intro id hkept
  have hresult := result_emptyFolder places.tree.walkLength h folder
    fun _ _ hsteps => (h.climb_lt hsteps).le
  have hsame : (removeChildren folder).result places =
      (emptyFolder places.tree.walkLength folder).result places := rfl
  rw [hsame, hresult] at hnext
  rw [← (Prod.mk.inj hnext).2, row?_partedAll, if_neg]
  rw [List.mem_reverse]
  exact fun hmem => hkept (h.encloses_of_mem_descendants hmem)

end Places

namespace BookmarkStore

open SyncedBookmarks.Action SyncedBookmarks.Tree

/-- A root that is in place is found by its name and emptied. -/
theorem leads_sweepRoot {tree : Tree} (h : tree.WellFormed) (hroots : tree.RootsInPlace)
    {root : Int × String} (hroot : root ∈ sweptRoots) :
    Leads (do
      match ← look (·.idOfGuid? root.2) with
      | some root => onTree (Places.removeChildren root)
      | none => pure ()) tree fun _ next => Stripped (tree.Below root.1) tree next := by
  refine leads_look_bind ?_
  rw [hroots.named.idOfGuid?_eq h (sweptRoots_subset root hroot)]
  exact leads_onTree (Places.leads_sweep h root.1)

/-- Emptying one root after the other. -/
theorem leads_sweepAll {tree : Tree} (h : tree.WellFormed) (hroots : tree.RootsInPlace)
    {roots : List (Int × String)} (hmem : ∀ root ∈ roots, root ∈ sweptRoots) :
    Leads ((roots.map (·.2)).forM fun guid => do
      match ← look (·.idOfGuid? guid) with
      | some root => onTree (Places.removeChildren root)
      | none => pure ()) tree fun _ next => Stripped (tree.BelowAny roots) tree next := by
  induction roots generalizing tree with
  | nil => exact leads_pure ((Stripped.refl h).congr fun _ _ _ => by simp [BelowAny])
  | cons root roots ih =>
      have hroot := hmem root List.mem_cons_self
      refine (leads_sweepRoot h hroots hroot).bind ?_
      intro _ middle hmiddle
      have hroots' := hroots.swept h (ne_places_of_mem_sweptRoots root hroot) hmiddle
      refine (ih hmiddle.wellFormed hroots'
        fun other hother => hmem other (List.mem_cons_of_mem root hother)).imp ?_
      intro _ last hlast
      refine (hmiddle.trans hlast).congr ?_
      intro id _ _
      by_cases hgone : tree.Below root.1 id
      · simp [BelowAny, hgone]
      · have hiff : ∀ folder, middle.Below folder id ↔ tree.Below folder id :=
          fun _ => hmiddle.below_iff (h.downClosed_below root.1) hgone
        simp [BelowAny, hgone, hiff]

/-- A wipe comes through, takes away what is below the four roots and empties the cache. -/
theorem yields_wipe {store : BookmarkStore} (h : store.tree.WellFormed)
    (hroots : store.tree.RootsInPlace) :
    wipe.Yields store fun _ next => Stripped (store.tree.BelowAny sweptRoots) store.tree next.tree ∧
      next.cache = [] ∧ next.generators = store.generators :=
  (leads_sweepAll h hroots (fun _ hroot => hroot) store rfl).bind fun _ _ hswept =>
    yields_change ⟨hswept.1, rfl, hswept.2.2⟩

end BookmarkStore

end SyncedBookmarks
