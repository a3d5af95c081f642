import SyncedBookmarks.Proofs.Recreating
import SyncedBookmarks.Proofs.RootSafety
import SyncedBookmarks.Proofs.Vigilance

namespace SyncedBookmarks

/-! What the tracker passes over and what is synced. The tracker looks two folders up, the walk over
what is synced goes down from three roots; where neither reaches, the tracker listens to what is
not synced. -/

namespace Tree

/-- The items that are out of the reach of both: those in the first root that are no roots
themselves, those in an entry of a tag, those in what a livemark holds, and all that is in
these. -/
inductive Remote (tree : Tree) : Int → Prop where
  | outermost {id : Int} (hroot : ¬ IsRoot id) (habove : tree.above? id = some RootId.places) :
      Remote tree id
  | underEntry {id entry tag : Int} (habove : tree.above? id = some entry)
      (hentry : tree.above? entry = some tag) (htag : tree.above? tag = some RootId.tags) :
      Remote tree id
  | underLivemark {id child livemark : Int} (habove : tree.above? id = some child)
      (hchild : tree.above? child = some livemark) (hplaces : livemark ≠ RootId.places)
      (hlivemark : tree.isLivemark livemark = true) : Remote tree id
  | deeper {id parent : Int} (hparent : Remote tree parent)
      (habove : tree.above? id = some parent) : Remote tree id

variable {tree : Tree} {id : Int}

theorem isUnsyncedFolder_iff (h : tree.WellFormed) {folder : Int} :
    Tracker.isUnsyncedFolder tree folder = true ↔ folder = RootId.tags ∨
      tree.above? folder = some RootId.tags ∨ tree.isLivemark folder = true := by
  have hparent : Tracker.parentIn tree folder = tree.above? folder := by
    rw [Tracker.parentIn, h.typed.parentOf?]
  rw [Tracker.isUnsyncedFolder, hparent]
  simp [or_assoc]

theorem not_isUnsyncedFolder_iff (h : tree.WellFormed) {folder : Int} :
    Tracker.isUnsyncedFolder tree folder = false ↔ folder ≠ RootId.tags ∧
      tree.above? folder ≠ some RootId.tags ∧ tree.isLivemark folder = false := by
  rw [← Bool.not_eq_true, isUnsyncedFolder_iff h]
  simp

section Roots

variable (h : tree.WellFormed) (hroots : tree.RootsInPlace)

include h hroots

theorem isSyncedRoot_of_isRoot (hroot : IsRoot id) (hplaces : id ≠ RootId.places)
    (htags : id ≠ RootId.tags) : tree.IsSyncedRoot id := by
  obtain ⟨guid, hmem⟩ := hroot
  have hguid := hroots.named id guid hmem
  rw [guidOf?_eq_known?, Option.map_eq_some_iff] at hguid
  have hsynced : guid ∈ BookmarkStore.syncedRoots := by
    revert hmem
    simp only [rootNames, BookmarkStore.syncedRoots, List.mem_cons, Prod.mk.injEq, List.not_mem_nil,
      or_false]
    tauto
  exact ⟨guid, hsynced, h.idOfGuid?_iff.mpr hguid⟩

theorem Remote.not_isRoot (hremote : tree.Remote id) : ¬ IsRoot id := by
  intro hroot
  have hnone := h.above?_places
  cases hremote with
  | outermost hnot _ => exact hnot hroot
  | underEntry habove hentry _ =>
      obtain rfl := hroots.above?_of_isRoot h hroot habove
      cases hnone.symm.trans hentry
  | underLivemark habove hchild _ _ =>
      obtain rfl := hroots.above?_of_isRoot h hroot habove
      cases hnone.symm.trans hchild
  | deeper hparent habove =>
      obtain rfl := hroots.above?_of_isRoot h hroot habove
      cases hparent with
      | outermost _ hup => cases hnone.symm.trans hup
      | underEntry hup _ _ => cases hnone.symm.trans hup
      | underLivemark hup _ _ _ => cases hnone.symm.trans hup
      | deeper _ hup => cases hnone.symm.trans hup

/-- The walk over what is synced does not get to what is remote: it would have to pass through a
tag's folder, a livemark or the first root. -/
theorem Remote.not_synced (hremote : tree.Remote id) : ¬ tree.Synced id := by
  have hopen : ∀ {folder parent : Int}, tree.Synced folder → tree.above? folder = some parent →
      tree.above? parent ≠ some RootId.tags ∧ tree.isLivemark parent = false := by
    intro folder parent hsynced habove
    have hwatched := watched_of_synced h hroots hsynced parent habove
    exact ((not_isUnsyncedFolder_iff h).mp hwatched).2
  have hplaces : ∀ {root : Int}, tree.IsSyncedRoot root → IsRoot root ∧ root ≠ RootId.places := by
    intro root hroot
    have hmem := mem_of_isSyncedRoot h hroots hroot
    simp only [isRoot_iff, List.mem_cons, List.not_mem_nil, or_false] at hmem ⊢
    rcases hmem with rfl | rfl | rfl <;> exact ⟨by simp, by decide⟩
  induction hremote with
  | outermost _ habove =>
      intro hsynced
      cases hsynced with
      | child hroot _ hup =>
          obtain rfl := Option.some.inj (habove.symm.trans hup)
          exact (hplaces hroot).2 rfl
      | deeper hparent _ hup =>
          obtain rfl := Option.some.inj (habove.symm.trans hup)
          cases hparent with
          | child _ _ hup => cases h.above?_places.symm.trans hup
          | deeper _ _ hup => cases h.above?_places.symm.trans hup
  | underEntry habove hentry htag =>
      intro hsynced
      cases hsynced with
      | child hroot _ hup =>
          obtain rfl := Option.some.inj (habove.symm.trans hup)
          obtain rfl := hroots.above?_of_isRoot h (hplaces hroot).1 hentry
          cases h.above?_places.symm.trans htag
      | deeper hparent _ hup =>
          obtain rfl := Option.some.inj (habove.symm.trans hup)
          exact (hopen hparent hentry).1 htag
  | underLivemark habove hchild hne hlivemark =>
      intro hsynced
      cases hsynced with
      | child hroot _ hup =>
          obtain rfl := Option.some.inj (habove.symm.trans hup)
          exact hne (hroots.above?_of_isRoot h (hplaces hroot).1 hchild)
      | deeper hparent _ hup =>
          obtain rfl := Option.some.inj (habove.symm.trans hup)
          rw [(hopen hparent hchild).2] at hlivemark
          cases hlivemark
  | deeper hparent habove ih =>
      intro hsynced
      cases hsynced with
      | child hroot _ hup =>
          obtain rfl := Option.some.inj (habove.symm.trans hup)
          exact hparent.not_isRoot h hroots (hplaces hroot).1
      | deeper hsynced _ hup =>
          obtain rfl := Option.some.inj (habove.symm.trans hup)
          exact ih hsynced

/-- On the way down from the first root, an item that the tracker listens to is synced until the
walk would have to stop. -/
theorem synced_or_remote (steps : Nat) (hsteps : tree.climb steps id = some RootId.places)
    (hroot : ¬ IsRoot id) (hwatched : tree.Watched id) : tree.Synced id ∨ tree.Remote id := by
  induction steps generalizing id with
  | zero => exact absurd ⟨_, Option.some.inj hsteps ▸ places_mem_rootNames⟩ hroot
  | succ steps ih =>
      rw [climb_succ, Option.bind_eq_some_iff] at hsteps
      obtain ⟨parent, habove, hsteps⟩ := hsteps
      obtain ⟨htags, htag, hlivemark⟩ := (not_isUnsyncedFolder_iff h).mp (hwatched parent habove)
      by_cases hparent : IsRoot parent
      · by_cases hplaces : parent = RootId.places
        · exact .inr (.outermost hroot (hplaces ▸ habove))
        · have hsynced := isSyncedRoot_of_isRoot h hroots hparent hplaces htags
          exact .inl (.child hsynced hlivemark habove)
      by_cases hup : tree.Watched parent
      · exact (ih hsteps hparent hup).imp (.deeper · hlivemark habove) (.deeper · habove)
      simp only [Watched, not_forall, Bool.not_eq_false] at hup
      obtain ⟨folder, hfolder, hunsynced⟩ := hup
      obtain rfl | hin | hlive := (isUnsyncedFolder_iff h).mp hunsynced
      · exact absurd hfolder htag
      · exact .inr (.underEntry habove hfolder hin)
      · by_cases hplaces : folder = RootId.places
        · exact .inr (.deeper (.outermost hparent (hplaces ▸ hfolder)) habove)
        · exact .inr (.underLivemark habove hfolder hplaces hlive)

theorem not_synced_iff (hthere : (tree.known? id).isSome) (hroot : ¬ IsRoot id) :
    ¬ tree.Synced id ↔ ¬ tree.Watched id ∨ tree.Remote id := by
  constructor
  · intro hnot
    obtain ⟨row, hrow⟩ := Option.isSome_iff_exists.mp hthere
    obtain ⟨steps, hsteps⟩ := h.rooted id row hrow
    rw [or_iff_not_imp_left, not_not]
    exact fun hwatched => (synced_or_remote h hroots steps hsteps hroot hwatched).resolve_left hnot
  · rintro (hunwatched | hremote)
    · exact fun hsynced => hunwatched (watched_of_synced h hroots hsynced)
    · exact hremote.not_synced h hroots

end Roots

end Tree

namespace Tracker

/-- A tracker that listens passes over what is not watched, whether it is told the folder or
not. -/
theorem passesOver_iff {tracker : Tracker} {tree : Tree} {id : Int} (h : tree.WellFormed)
    (hlistens : tracker.suppressed = false) {folder : Int} (habove : tree.above? id = some folder)
    {given : Option Int} (hgiven : given = none ∨ given = some folder) :
    tracker.passesOver tree id given = true ↔ ¬ tree.Watched id := by
  have hfound : (given <|> parentIn tree id) = some folder := by
    rw [parentIn, h.typed.parentOf?, habove]
    rcases hgiven with rfl | rfl <;> rfl
  rw [passesOver, hfound, hlistens, Bool.false_or, Tree.Watched, habove]
  simp

end Tracker

namespace Client

/-- What a client's tracker passes over is not synced, and what is not synced it passes over,
unless it is remote. -/
theorem unlisted_iff {client : Client} (h : client.Reachable) (hroots : client.tree.RootsInPlace)
    (hlistens : client.tracker.suppressed = false) {id : Int} {row : Row}
    (hrow : client.tree.known? id = some row) (hroot : ¬ Tree.IsRoot id) {given : Option Int}
    (hgiven : given = none ∨ given = row.parent) :
    ∃ guids, BookmarkStore.allIds client.tree = .ok guids ∧
      (row.guid ∉ guids ↔
        client.tracker.passesOver client.tree id given = true ∨ client.tree.Remote id) := by
  have hwell : client.tree.WellFormed := h.wellFormed.store.tree
  obtain ⟨guids, hids, hlist⟩ := BookmarkStore.allIds_spec hwell
  refine ⟨guids, hids, ?_⟩
  have hsynced : row.guid ∈ guids ↔ client.tree.Synced id := by
    rw [hlist]
    constructor
    · rintro ⟨other, hother, hguid⟩
      rw [Tree.guidOf?_eq_known?, Option.map_eq_some_iff] at hguid
      obtain ⟨found, hfound, hsame⟩ := hguid
      exact hwell.guid_inj id other row found hrow hfound hsame.symm ▸ hother
    · intro hid
      exact ⟨id, hid, by rw [Tree.guidOf?_eq_known?, hrow]; rfl⟩
  have hplaces : id ≠ RootId.places := fun heq => hroot (heq ▸ ⟨_, Tree.places_mem_rootNames⟩)
  obtain ⟨folder, hparent⟩ := Option.ne_none_iff_exists'.mp
    fun hnone => hplaces ((hwell.parent_iff id row hrow).mp hnone)
  rw [hsynced, Tree.not_synced_iff hwell hroots (by rw [hrow]; rfl) hroot,
    Tracker.passesOver_iff hwell hlistens ((Tree.above?_of_known? hrow).trans hparent)
      (hparent ▸ hgiven)]

/-- A livemark with a folder in it, and a bookmark in that. -/
def nestingClient : Client :=
  ClientCall.runAll (Client.fresh "bookmarks" none false .numbered)
    [.locally (.store (.mutate
        (.createLivemark RootId.menu "News" none "about:blank" Places.atEnd))),
      .locally (.store (.mutate (.createFolder 6 "F" Places.atEnd))),
      .locally (.store (.mutate (.insertBookmark 7 "about:blank" Places.atEnd none)))]

theorem rootsInPlace_nestingClient : nestingClient.tree.RootsInPlace :=
  Tree.rootsInPlace_of_all (by decide +kernel) (by decide +kernel)

/-- Neither is synced; but the tracker passes over the folder only. -/
theorem nested_items_unlisted :
    nestingClient.Reachable ∧ nestingClient.tree.RootsInPlace ∧
      nestingClient.tracker.passesOver nestingClient.tree 7 none = true ∧
      nestingClient.tracker.passesOver nestingClient.tree 8 none = false ∧
      ∃ guids, BookmarkStore.allIds nestingClient.tree = .ok guids ∧
        ∀ id ∈ [7, 8], ∀ row, nestingClient.tree.known? id = some row → row.guid ∉ guids := by
  have hreachable : nestingClient.Reachable := ⟨"bookmarks", none, false, .numbered, _, rfl⟩
  have hlistens : nestingClient.tracker.suppressed = false := by decide +kernel
  have hpassed : nestingClient.tracker.passesOver nestingClient.tree 7 none = true := by
    decide +kernel
  have habove : nestingClient.tree.above? 8 = some 7 := by decide +kernel
  have hchild : nestingClient.tree.above? 7 = some 6 := by decide +kernel
  have hremote : nestingClient.tree.Remote 8 :=
    .underLivemark habove hchild (by decide) (by decide +kernel)
  have hids : (BookmarkStore.allIds nestingClient.tree).isOk := by decide +kernel
  cases hguids : BookmarkStore.allIds nestingClient.tree with
  | error cause =>
      rw [hguids] at hids
      cases hids
  | ok guids =>
      refine ⟨hreachable, rootsInPlace_nestingClient, hpassed, by decide +kernel, guids, rfl, ?_⟩
      intro id hmem row hrow
      have hroot : ¬ Tree.IsRoot id := by
        rw [Tree.isRoot_iff]
        clear hrow
        revert id
        decide
      obtain ⟨found, hfound, hiff⟩ := unlisted_iff hreachable rootsInPlace_nestingClient hlistens
        hrow hroot (.inl rfl)
      obtain rfl := Except.ok.inj (hguids.symm.trans hfound)
      rw [hiff]
      simp only [List.mem_cons, List.not_mem_nil, or_false] at hmem
      rcases hmem with rfl | rfl
      · exact .inl hpassed
      · exact .inr hremote

/-- A bookmark in the first root. -/
def outermostClient : Client :=
  ClientCall.runAll (Client.fresh "bookmarks" none false .numbered)
    [.locally (.store (.mutate (.insertBookmark RootId.places "about:blank" Places.atEnd none)))]

/-- The tracker listens to a bookmark in the first root, though it is not synced. -/
theorem outermost_bookmark_overheard :
    ¬ ∀ (client : Client) (id : Int) (row : Row) (guids : List String), client.Reachable →
      client.tree.RootsInPlace → client.tracker.suppressed = false →
        client.tree.known? id = some row → ¬ Tree.IsRoot id →
          BookmarkStore.allIds client.tree = .ok guids →
            (client.tracker.passesOver client.tree id row.parent = true ↔ row.guid ∉ guids) := by
  intro hagree
  have hids : BookmarkStore.allIds outermostClient.tree = .ok [] := by decide +kernel
  have hparent : (outermostClient.tree.known? 6).map (·.parent) = some (some RootId.places) := by
    decide +kernel
  obtain ⟨row, hrow, hplaces⟩ := Option.map_eq_some_iff.mp hparent
  have hroots : outermostClient.tree.RootsInPlace :=
    Tree.rootsInPlace_of_all (by decide +kernel) (by decide +kernel)
  have hroot : ¬ Tree.IsRoot 6 := by
    rw [Tree.isRoot_iff]
    decide
  have hpassed := (hagree outermostClient 6 row [] ⟨"bookmarks", none, false, .numbered, _, rfl⟩
    hroots (by decide +kernel) hrow hroot hids).mpr List.not_mem_nil
  rw [hplaces] at hpassed
  have hheard : outermostClient.tracker.passesOver outermostClient.tree 6
      (some RootId.places) = false := by
    decide +kernel
  rw [hheard] at hpassed
  cases hpassed

end Client

end SyncedBookmarks
