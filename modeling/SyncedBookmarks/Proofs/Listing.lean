import SyncedBookmarks.Proofs.StoreRuns
import SyncedBookmarks.Proofs.Synced

namespace SyncedBookmarks

/-! The walk down from the roots against the way up from an item: what is listed is what has one of
the three roots above it and no livemark on the way there. -/

namespace Tree

/-- Whether the way up from an item, so many steps long, ends at a folder, and no folder that it
comes by, that one included, is a livemark. -/
structure OpenWay (tree : Tree) (id : Int) (steps : Nat) (folder : Int) : Prop where
  pos : 0 < steps
  climb : tree.climb steps id = some folder
  isLivemark : ∀ step, 0 < step → step ≤ steps → ∀ above, tree.climb step id = some above →
    tree.isLivemark above = false

variable {tree : Tree} {folder id : Int} {steps : Nat}

theorem Under.openWay (h : tree.Under folder steps id) : tree.OpenWay id steps folder := by
  refine ⟨h.pos, h.climb, ?_⟩
  induction h with
  | child hopen habove =>
      intro step hpos hle above hstep
      obtain rfl : step = 1 := by omega
      rw [climb_succ, habove, Option.bind_some, climb_zero] at hstep
      rw [← Option.some.inj hstep, hopen]
  | deeper hparent hopen habove ih =>
      intro step hpos hle above hstep
      obtain ⟨step, rfl⟩ := Nat.exists_eq_succ_of_ne_zero hpos.ne'
      rw [climb_succ, habove, Option.bind_some] at hstep
      rcases Nat.eq_zero_or_pos step with rfl | hlater
      · rw [← Option.some.inj hstep, hopen]
      · exact ih step hlater (by omega) above hstep

theorem OpenWay.under (h : tree.OpenWay id steps folder) : tree.Under folder steps id := by
  induction steps generalizing id with
  | zero => exact absurd h.pos (lt_irrefl 0)
  | succ steps ih =>
      have hclimb := h.climb
      rw [climb_succ, Option.bind_eq_some_iff] at hclimb
      obtain ⟨parent, habove, hrest⟩ := hclimb
      have hopen : tree.isLivemark parent = false :=
        h.isLivemark 1 one_pos (by omega) parent (by rw [climb_succ, habove]; rfl)
      rcases Nat.eq_zero_or_pos steps with rfl | hpos
      · obtain rfl := Option.some.inj hrest
        exact .child hopen habove
      · refine (ih ⟨hpos, hrest, ?_⟩).deeper hopen habove
        intro step hstep hle above hup
        exact h.isLivemark (step + 1) (by omega) (by omega) above
          (by rw [climb_succ, habove]; exact hup)

end Tree

namespace BookmarkStore

open SyncedBookmarks.Tree

theorem mapM_congr {f g : α → Except ε β} {xs : List α} (h : ∀ x ∈ xs, f x = g x) :
    xs.mapM f = xs.mapM g := by
  induction xs with
  | nil => rfl
  | cons x xs ih =>
      rw [List.mapM_cons, List.mapM_cons, h x List.mem_cons_self,
        ih fun other hother => h other (List.mem_cons_of_mem x hother)]

theorem nodup_eraseDups (guids : List String) : guids.eraseDups.Nodup := by
  induction hlength : guids.length using Nat.strong_induction_on generalizing guids with
  | _ length ih =>
      cases guids with
      | nil => exact List.nodup_nil
      | cons guid guids =>
          subst hlength
          rw [List.eraseDups_cons, List.nodup_cons]
          refine ⟨?_, ih _ ?_ _ rfl⟩
          · rw [List.mem_eraseDups, List.mem_filter]
            simp
          · exact Nat.lt_succ_of_le (List.length_filter_le _ _)

/-- A walk that may go deeper than there is anything goes no further. -/
theorem idsBelow_add {tree : Tree} (h : tree.WellFormed) {fuel : Nat} {folder : Int}
    (hdepth : ∀ id steps, tree.climb steps id = some folder → steps < fuel) (more : Nat) :
    idsBelow tree (fuel + more) folder = idsBelow tree fuel folder := by
  induction fuel generalizing folder with
  | zero => exact absurd (hdepth folder 0 rfl) (lt_irrefl 0)
  | succ fuel ih =>
      obtain ⟨items, hitems, -, -⟩ := h.children folder
      have hchild : ∀ child ∈ items,
          idsBelow tree (fuel + more) child.id = idsBelow tree fuel child.id := by
        intro child hmem
        refine ih fun id steps hsteps => ?_
        have habove := (h.ids_children hitems child.id).mp (List.mem_map_of_mem hmem)
        have hlonger : tree.climb (steps + 1) id = some folder := by
          rw [climb_add, hsteps, Option.bind_some, climb_succ, habove]
          rfl
        exact Nat.lt_of_succ_lt_succ (hdepth id (steps + 1) hlonger)
      rw [Nat.succ_add, idsBelow, idsBelow, hitems]
      split
      · rfl
      · refine congrArg (Except.bind · fun below => .ok below.flatten) (mapM_congr ?_)
        intro child hmem
        rw [hchild child hmem]

/-- What is listed, each once: the GUIDs of the items with an open way up to one of the three
roots. The walk comes to its end by itself, whatever depth it is allowed. -/
theorem allIds_iff {store : BookmarkStore} (h : store.Reachable) :
    ∃ guids, (check allIds).result store = (.ok guids, store) ∧ guids.Nodup ∧
      (∀ guid, guid ∈ guids ↔ ∃ id steps root name, store.tree.guidOf? id = some guid ∧
        store.tree.OpenWay id steps root ∧ store.tree.guidOf? root = some name ∧
        name ∈ syncedRoots) ∧
      ∀ folder more, idsBelow store.tree (store.tree.walkLength + more) folder =
        idsBelow store.tree store.tree.walkLength folder := by
  have hwell := h.wellFormed.tree
  obtain ⟨guids, hids, hlist⟩ := allIds_spec hwell
  have hresult : (check allIds).result store = (.ok guids, store) := by
    rw [check, onTree, Action.result_within, Places.result_checked]
    exact congrArg (fun found : Except TreeError (List String) =>
      (found.mapError StoreError.tree, store)) hids
  have hnodup : guids.Nodup := by
    rw [allIds] at hids
    obtain ⟨found, -, hfound⟩ := Action.exists_of_bind_ok hids
    rw [← Except.ok.inj hfound]
    exact nodup_eraseDups _
  refine ⟨guids, hresult, hnodup, ?_, fun folder more =>
    idsBelow_add hwell (fun _ _ hsteps => hwell.climb_lt hsteps) more⟩
  intro guid
  rw [hlist]
  constructor
  · rintro ⟨id, hsynced, hguid⟩
    obtain ⟨root, steps, ⟨name, hname, hroot⟩, hunder⟩ := synced_iff.mp hsynced
    obtain ⟨row, hrow, rfl⟩ := hwell.idOfGuid?_iff.mp hroot
    exact ⟨id, steps, root, row.guid, hguid, hunder.openWay,
      by rw [guidOf?_eq_known?, hrow]; rfl, hname⟩
  · rintro ⟨id, steps, root, name, hguid, hway, hroot, hname⟩
    rw [guidOf?_eq_known?, Option.map_eq_some_iff] at hroot
    obtain ⟨row, hrow, rfl⟩ := hroot
    have hfound : store.tree.IsSyncedRoot root :=
      ⟨row.guid, hname, hwell.idOfGuid?_iff.mpr ⟨row, hrow, rfl⟩⟩
    exact ⟨id, synced_iff.mpr ⟨root, steps, hfound, hway.under⟩, hguid⟩

/-- A folder in the menu with the toolbar in it, and a livemark with a bookmark. -/
def entangledStore : BookmarkStore :=
  StoreCall.runAll (fresh .numbered none)
    [.mutate (.createFolder RootId.menu "A" Places.atEnd),
      .mutate (.createLivemark 6 "News" none "about:blank" Places.atEnd),
      .mutate (.insertBookmark 7 "about:blank" Places.atEnd none),
      .mutate (.moveItem RootId.toolbar 6 Places.atEnd)]

/-- The toolbar is listed as an item of the menu; what the livemark holds is not. -/
theorem toolbar_listed : entangledStore.Reachable ∧
    ∃ guids, (check allIds).result entangledStore = (.ok guids, entangledStore) ∧
      RootGuid.toolbar ∈ guids ∧
      ∀ guid, entangledStore.tree.guidOf? 8 = some guid → guid ∉ guids := by
  have hreachable : entangledStore.Reachable := ⟨.numbered, none, _, rfl⟩
  obtain ⟨guids, hresult, -, hlist, -⟩ := allIds_iff hreachable
  refine ⟨hreachable, guids, hresult, (hlist RootGuid.toolbar).mpr ?_, ?_⟩
  · refine ⟨RootId.toolbar, 2, RootId.menu, RootGuid.menu, by decide +kernel, ?_,
      by decide +kernel, by decide⟩
    have hfirst : entangledStore.tree.climb 1 RootId.toolbar = some 6 := by decide +kernel
    have hsecond : entangledStore.tree.climb 2 RootId.toolbar = some RootId.menu := by
      decide +kernel
    refine ⟨by decide, hsecond, ?_⟩
    intro step hpos hle above hstep
    obtain rfl | rfl : step = 1 ∨ step = 2 := by omega
    · rw [← Option.some.inj (hfirst.symm.trans hstep)]
      decide +kernel
    · rw [← Option.some.inj (hsecond.symm.trans hstep)]
      decide +kernel
  · intro guid hguid hmem
    obtain ⟨id, steps, root, name, hsame, hway, -⟩ := (hlist guid).mp hmem
    have hwell := hreachable.wellFormed.tree
    rw [guidOf?_eq_known?, Option.map_eq_some_iff] at hguid hsame
    obtain ⟨row, hrow, rfl⟩ := hguid
    obtain ⟨other, hother, heq⟩ := hsame
    obtain rfl := hwell.guid_inj id 8 other row hother hrow heq
    have habove : entangledStore.tree.climb 1 8 = some 7 := by decide +kernel
    have hlivemark : entangledStore.tree.isLivemark 7 = true := by decide +kernel
    have hopen := hway.isLivemark 1 one_pos hway.pos 7 habove
    rw [hlivemark] at hopen
    cases hopen

end BookmarkStore

end SyncedBookmarks
