import SyncedBookmarks.Proofs.Repeating
import SyncedBookmarks.Proofs.TagRelation

namespace SyncedBookmarks

/-! What taking a URI out of its tags takes away: its entries and the tags that lose their last
entry with it, but also whatever in the root for tags had nothing in it to begin with. -/

namespace Tree

/-- A folder with nothing in it but entries for a URI, and at least one of them. -/
structure LastHeld (tree : Tree) (uri : String) (folder : Int) : Prop where
  held : ∃ id, tree.Files folder uri id
  last : ∀ id, tree.above? id = some folder → tree.Files folder uri id

/-- What is in the root for tags and picked. -/
structure PickedTag (tree : Tree) (tags : Option (List String)) (id : Int) : Prop where
  above : tree.above? id = some RootId.tags
  picked : tree.PickedBy tags id

/-- What goes with a URI that is taken out of tags. -/
def Withdrawn (tree : Tree) (uri : String) (tags : Option (List String)) (id : Int) : Prop :=
  (∃ folder, tree.PickedTag tags folder ∧ tree.Files folder uri id) ∨
    tree.PickedTag tags id ∧ tree.LastHeld uri id

/-- What is taken for a tag that has lost its last entry, though it never had one. -/
structure Swept (tree : Tree) (tags : Option (List String)) (id : Int) : Prop where
  tag : tree.PickedTag tags id
  bare : ∀ child, tree.above? child ≠ some id

variable {tree : Tree} {uri : String} {tags : Option (List String)} {folder id : Int}

theorem clearedFrom_iff : tree.ClearedFrom uri folder id ↔
    tree.Files folder uri id ∨ id = folder ∧
      (tree.LastHeld uri folder ∨ ∀ child, tree.above? child ≠ some folder) := by
  refine or_congr_right (and_congr_right fun _ => ?_)
  have hentry : (∀ child row, tree.known? child = some row → row.parent = some folder →
      row.url = some uri) ↔
        ∀ child, tree.above? child = some folder → tree.Files folder uri child := by
    constructor
    · intro hall child habove
      obtain ⟨row, hrow, hparent⟩ := known?_of_above? habove
      exact ⟨row, hrow, hparent, hall child row hrow hparent⟩
    · intro hall child row hrow hparent
      obtain ⟨found, hfound, -, hurl⟩ := hall child ((above?_of_known? hrow).trans hparent)
      obtain rfl := Option.some.inj (hrow.symm.trans hfound)
      exact hurl
  rw [hentry]
  constructor
  · intro hlast
    by_cases hbare : ∀ child, tree.above? child ≠ some folder
    · exact .inr hbare
    · push Not at hbare
      obtain ⟨child, hchild⟩ := hbare
      exact .inl ⟨⟨child, hlast child hchild⟩, hlast⟩
  · rintro (hheld | hbare)
    · exact hheld.last
    · exact fun child habove => absurd habove (hbare child)

theorem untagged_iff : tree.Untagged uri (tree.PickedBy tags) id ↔
    tree.Withdrawn uri tags id ∨ tree.Swept tags id := by
  constructor
  · rintro ⟨folder, habove, hpicked, hgone⟩
    rcases clearedFrom_iff.mp hgone with hentry | ⟨rfl, hheld | hbare⟩
    · exact .inl (.inl ⟨folder, ⟨habove, hpicked⟩, hentry⟩)
    · exact .inl (.inr ⟨⟨habove, hpicked⟩, hheld⟩)
    · exact .inr ⟨⟨habove, hpicked⟩, hbare⟩
  · rintro ((⟨folder, htag, hentry⟩ | ⟨htag, hheld⟩) | ⟨htag, hbare⟩)
    · exact ⟨folder, htag.above, htag.picked, clearedFrom_iff.mpr (.inl hentry)⟩
    · exact ⟨id, htag.above, htag.picked, clearedFrom_iff.mpr (.inr ⟨rfl, .inl hheld⟩)⟩
    · exact ⟨id, htag.above, htag.picked, clearedFrom_iff.mpr (.inr ⟨rfl, .inr hbare⟩)⟩

end Tree

namespace BookmarkStore

open SyncedBookmarks.Action SyncedBookmarks.Tree

/-- Taking a URI out of tags takes away what goes with it and what is swept out along with it.
Every other item stays as it is but for its position, and none is added. -/
theorem untagUri_exact {store : BookmarkStore} (h : store.Reachable) {uri : String}
    (huri : validateUri uri = .ok uri) (tags : Option (List String)) :
    ∃ next, (Places.untagUri uri tags).result store.places = (.ok (), next) ∧
      (∀ id, store.tree.Withdrawn uri tags id ∨ store.tree.Swept tags id →
        next.tree.known? id = none) ∧
      ∀ id, ¬ store.tree.Withdrawn uri tags id → ¬ store.tree.Swept tags id →
        next.tree.known? id = store.tree.known? id := by
  obtain ⟨_, next, hresult, hnext⟩ :=
    Places.leads_untagUri h.wellFormed.tree huri tags store.places rfl
  refine ⟨next, hresult, ?_, ?_⟩
  · intro id hgone
    exact hnext.absent id (untagged_iff.mpr hgone)
  · intro id hnot hkept
    exact hnext.kept id fun hgone => (untagged_iff.mp hgone).elim hnot hkept

/-- Two URIs, each with a tag of its own. -/
def pairedStore : BookmarkStore :=
  StoreCall.runAll (fresh .numbered none)
    [.mutate (.tagUri "about:blank" ["a"]), .mutate (.tagUri "about:config" ["b"])]

/-- The first tag goes with its only entry, and the second stays. -/
theorem first_tag_withdrawn :
    pairedStore.Reachable ∧ validateUri "about:blank" = .ok "about:blank" ∧
      ∃ next, (Places.untagUri "about:blank" none).result pairedStore.places = (.ok (), next) ∧
        next.tree.known? 6 = none ∧ next.tree.known? 7 = none ∧
          next.tree.known? 8 = pairedStore.tree.known? 8 := by
  have hreachable : pairedStore.Reachable := ⟨.numbered, none, _, rfl⟩
  have huri : validateUri "about:blank" = .ok "about:blank" := by cbv
  obtain ⟨next, hresult, hgone, hkept⟩ := untagUri_exact hreachable huri none
  have hfirst : pairedStore.tree.PickedTag none 6 := ⟨by cbv, by rintro _ ⟨⟩⟩
  have hentry : pairedStore.tree.Files 6 "about:blank" 7 := ⟨_, by cbv, rfl, rfl⟩
  have hrows : ∀ id row, pairedStore.tree.known? id = some row →
      (row.parent = some 6 ↔ row.url = some "about:blank") := by
    intro id row hrow
    have hall := known?_of_all pairedStore.tree (p := fun row =>
      (row.parent == some 6) == (row.url == some "about:blank")) (by cbv) hrow
    rw [← beq_iff_eq (a := row.parent), ← beq_iff_eq (a := row.url), eq_of_beq hall]
  have hlast : pairedStore.tree.LastHeld "about:blank" 6 := by
    refine ⟨⟨7, hentry⟩, fun id habove => ?_⟩
    obtain ⟨row, hrow, hparent⟩ := known?_of_above? habove
    exact ⟨row, hrow, hparent, (hrows id row hrow).mp hparent⟩
  have hsixth : ∀ folder id, pairedStore.tree.Files folder "about:blank" id → folder = 6 := by
    rintro folder id ⟨row, hrow, hparent, hurl⟩
    exact Option.some.inj (hparent.symm.trans ((hrows id row hrow).mpr hurl))
  refine ⟨hreachable, huri, next, hresult, hgone 6 (.inl (.inr ⟨hfirst, hlast⟩)),
    hgone 7 (.inl (.inl ⟨6, hfirst, hentry⟩)), hkept 8 ?_ ?_⟩
  · have habove : pairedStore.tree.above? 8 = some RootId.tags := by cbv
    rintro (⟨folder, -, hother⟩ | ⟨-, hheld⟩)
    · obtain rfl := hsixth folder 8 hother
      cases hother.above?.symm.trans habove
    · obtain ⟨id, hother⟩ := hheld.held
      cases hsixth 8 id hother
  · intro hswept
    exact hswept.bare 9 (by cbv)

/-- A bookmark that came with the root for tags as its folder. -/
def strayStore : BookmarkStore :=
  StoreCall.runAll (fresh .numbered none)
    [.applyIncoming { id := "a", parentid := some RootGuid.tags, kind := .bookmark
                      bmkUri := some "about:blank" }]

/-- A bookmark in the root for tags goes when another URI, which has no tags, is untagged. -/
theorem stray_bookmark_swept :
    ¬ ∀ (store : BookmarkStore) (uri : String) (tags : Option (List String)) (next : Places),
      store.Reachable → validateUri uri = .ok uri →
        (Places.untagUri uri tags).result store.places = (.ok (), next) →
          ∀ id, ¬ store.tree.Withdrawn uri tags id →
            next.tree.known? id = store.tree.known? id := by
  intro hexact
  have hresult : ((Places.untagUri "about:config" none).result strayStore.places).1 = .ok () := by
    cbv
  have hthere : (strayStore.tree.known? 6).map (·.guid) = some "a" := by cbv
  have hgone : ((Places.untagUri "about:config" none).result strayStore.places).2.tree.known? 6 =
      none := by
    cbv
  have hnone : ∀ folder id, ¬ strayStore.tree.Files folder "about:config" id := by
    rintro folder id ⟨row, hrow, -, hurl⟩
    have hall := known?_of_all strayStore.tree (p := (·.url != some "about:config")) (by cbv) hrow
    simp [hurl] at hall
  have hsame := hexact strayStore "about:config" none
    ((Places.untagUri "about:config" none).result strayStore.places).2
    ⟨.numbered, none, _, rfl⟩ (by cbv) (Prod.ext hresult rfl) 6 (by
      rintro (⟨folder, -, hentry⟩ | ⟨-, hheld⟩)
      · exact hnone folder 6 hentry
      · obtain ⟨id, hentry⟩ := hheld.held
        exact hnone 6 id hentry)
  rw [← hsame, hgone] at hthere
  cases hthere

end BookmarkStore

end SyncedBookmarks
