import SyncedBookmarks.Proofs.Removal

namespace SyncedBookmarks

/-! Taking a URI out of the tags: its bookmarks below the root for tags go, and with them the
folders that held nothing else. -/

namespace Tree

/-- What taking a URI out of a folder takes away. -/
def ClearedFrom (tree : Tree) (uri : String) (folder id : Int) : Prop :=
  (∃ row, tree.known? id = some row ∧ row.parent = some folder ∧ row.url = some uri) ∨
    (id = folder ∧ ∀ child row, tree.known? child = some row → row.parent = some folder →
      row.url = some uri)

/-- Whether a tag is among those with some titles; without a list all are. -/
def PickedBy (tree : Tree) (tags : Option (List String)) (folder : Int) : Prop :=
  ∀ wanted, tags = some wanted →
    ∃ row, tree.known? folder = some row ∧ row.title.getD "" ∈ wanted

/-- What taking a URI out of the tags that are picked takes away. -/
def Untagged (tree : Tree) (uri : String) (picked : Int → Prop) (id : Int) : Prop :=
  ∃ folder, tree.above? folder = some RootId.tags ∧ picked folder ∧ tree.ClearedFrom uri folder id

/-- In one folder of several that stand side by side, clearing does not reach into the others. -/
theorem ClearedFrom.iff_of_cleared {tree next : Tree} {gone : Int → Prop}
    (hnext : Cleared gone tree next) {uri : String} {folder : Int}
    (hchildren : ∀ child, tree.above? child = some folder → ¬ gone child) {id : Int} :
    next.ClearedFrom uri folder id ↔ tree.ClearedFrom uri folder id := by
  have hkept : ∀ child row, row.parent = some folder →
      (next.known? child = some row ↔ tree.known? child = some row) := by
    intro child row hparent
    constructor
    · intro hrow
      exact (hnext.known?_of_some hrow).2
    · intro hrow
      rw [hnext.kept child (hchildren child ((above?_of_known? hrow).trans hparent)), hrow]
  constructor
  · rintro (⟨row, hrow, hparent, hurl⟩ | ⟨heq, hall⟩)
    · exact .inl ⟨row, (hkept id row hparent).mp hrow, hparent, hurl⟩
    · refine .inr ⟨heq, fun child row hrow hparent => ?_⟩
      exact hall child row ((hkept child row hparent).mpr hrow) hparent
  · rintro (⟨row, hrow, hparent, hurl⟩ | ⟨heq, hall⟩)
    · exact .inl ⟨row, (hkept id row hparent).mpr hrow, hparent, hurl⟩
    · refine .inr ⟨heq, fun child row hrow hparent => ?_⟩
      exact hall child row ((hkept child row hparent).mp hrow) hparent

section Carrying

variable {tree : Tree} {folder : Int} {items : List Item}

/-- The children of a folder that have a URI, by what is read of them and by their rows. -/
theorem WellFormed.exists_mem_carrying_iff (h : tree.WellFormed)
    (hitems : tree.children folder = .ok items) (uri : String) (id : Int) :
    (∃ item ∈ items.filter (·.url == some uri), item.id = id) ↔
      ∃ row, tree.known? id = some row ∧ row.parent = some folder ∧ row.url = some uri := by
  constructor
  · rintro ⟨item, hitem, rfl⟩
    obtain ⟨hitem, hurl⟩ := List.mem_filter.mp hitem
    obtain ⟨row, hrow, hparent, -, -, -, hrowUrl⟩ := h.of_mem_children hitems hitem
    exact ⟨row, hrow, hparent, hrowUrl.trans (eq_of_beq hurl)⟩
  · rintro ⟨row, hrow, hparent, hurl⟩
    obtain ⟨item, hitem, hid, -, -, -, hitemUrl⟩ := h.exists_mem_children hitems hrow hparent
    exact ⟨item, List.mem_filter.mpr ⟨hitem, by rw [← hitemUrl, hurl]; simp⟩, hid⟩

/-- Whether a folder has children without a URI. -/
theorem WellFormed.isEmpty_others_iff (h : tree.WellFormed)
    (hitems : tree.children folder = .ok items) (uri : String) :
    (items.filter (·.url != some uri)).isEmpty = true ↔
      ∀ child row, tree.known? child = some row → row.parent = some folder →
        row.url = some uri := by
  rw [List.isEmpty_iff, List.filter_eq_nil_iff]
  constructor
  · intro hall child row hrow hparent
    obtain ⟨item, hitem, -, -, -, -, hurl⟩ := h.exists_mem_children hitems hrow hparent
    simpa [hurl] using hall item hitem
  · intro hall item hitem
    obtain ⟨row, hrow, hparent, -, -, -, hurl⟩ := h.of_mem_children hitems hitem
    simpa [← hurl] using hall item.id row hrow hparent

end Carrying

end Tree

namespace Places

open SyncedBookmarks.Action SyncedBookmarks.Tree

/-- Deleting several items without children, one after the other. -/
theorem leads_deleteLeaves {tree : Tree} (h : tree.WellFormed) {items : List Item}
    (hnodup : (items.map (·.id)).Nodup) (hthere : ∀ item ∈ items, (tree.known? item.id).isSome)
    (hleaf : ∀ item ∈ items, ∀ other, tree.above? other ≠ some item.id) :
    Leads (items.forM fun child => deleteRow child.id) tree fun _ next =>
      Cleared (fun id => ∃ item ∈ items, item.id = id) tree next := by
  refine Leads.imp (leads_forM (P := fun rest next => ∃ done, items = done ++ rest ∧
    Cleared (fun id => ∃ item ∈ done, item.id = id) tree next) ?_ items ?_) ?_
  · rintro child rest next ⟨done, rfl, hdone⟩
    have hkept : ¬ ∃ item ∈ done, item.id = child.id := by
      rintro ⟨other, hother, heq⟩
      rw [List.map_append, List.map_cons] at hnodup
      exact (List.nodup_append.mp hnodup).2.2 _ (List.mem_map_of_mem hother) _
        List.mem_cons_self heq
    refine (leads_deleteLeaf hdone.wellFormed ?_ ?_).imp ?_
    · rw [hdone.kept _ hkept]
      exact hthere child (by simp)
    · intro other habove
      exact hleaf child (by simp) other (hdone.above?_of_some habove)
    · intro _ after hafter
      refine ⟨done ++ [child], by simp, (hdone.trans hafter).congr ?_⟩
      intro id _ _
      simp [or_and_right, exists_or, eq_comm]
  · exact ⟨[], rfl, (Cleared.refl h).congr (by simp)⟩
  · rintro - next ⟨done, hsplit, hdone⟩
    rw [List.append_nil] at hsplit
    exact hsplit ▸ hdone

theorem leads_clearTag {tree : Tree} (h : tree.WellFormed) (uri : String) {folder : Int}
    (hthere : (tree.known? folder).isSome) :
    Leads (clearTag uri folder) tree fun _ next =>
      Cleared (tree.ClearedFrom uri folder) tree next := by
  obtain ⟨items, hitems, hnodup, -⟩ := h.children folder
  have hpart := h.exists_mem_carrying_iff hitems uri
  have hempty := h.isEmpty_others_iff hitems uri
  refine leads_check_bind hitems ((leads_deleteLeaves h
    (hnodup.sublist (List.filter_sublist.map _)) ?_ ?_).bind ?_)
  · intro item hitem
    obtain ⟨row, hrow, -⟩ := (hpart item.id).mp ⟨item, hitem, rfl⟩
    rw [hrow]
    rfl
  · intro item hitem
    obtain ⟨row, hrow, -, hurl⟩ := (hpart item.id).mp ⟨item, hitem, rfl⟩
    refine h.leaf hrow ?_
    rw [(h.sound _ row hrow).url_iff.mp (by rw [hurl]; rfl)]
    decide
  intro _ middle hmiddle
  split
  · rename_i hlast
    have hnone : ¬ ∃ item ∈ items.filter (·.url == some uri), item.id = folder := by
      rw [hpart]
      rintro ⟨row, hrow, hparent, -⟩
      exact h.not_encloses_parent ((above?_of_known? hrow).trans hparent) (Encloses.refl tree folder)
    refine (leads_deleteLeaf hmiddle.wellFormed (by rwa [hmiddle.kept _ hnone]) ?_).imp ?_
    · intro other habove
      obtain ⟨row, hrow, hparent⟩ := known?_of_above? habove
      obtain ⟨hkept, hrow⟩ := hmiddle.known?_of_some hrow
      exact hkept ((hpart other).mpr ⟨row, hrow, hparent, hempty.mp hlast other row hrow hparent⟩)
    · intro _ next hnext
      refine (hmiddle.trans hnext).congr ?_
      intro id _ _
      rw [hpart]
      exact or_congr_right ⟨fun heq => ⟨heq, hempty.mp hlast⟩, And.left⟩
  · rename_i hmore
    refine leads_pure (hmiddle.congr ?_)
    intro id _ _
    rw [hpart]
    exact ⟨.inl, fun hgone => hgone.resolve_right fun hall => hmore (hempty.mpr hall.2)⟩

theorem untagged_cleared {tree next : Tree} (h : tree.WellFormed) {uri : String} {done : List Item}
    (hdone : ∀ item ∈ done, tree.above? item.id = some RootId.tags)
    (hnext : Cleared (fun id => ∃ item ∈ done, tree.ClearedFrom uri item.id id) tree next)
    {folder : Int} (hfolder : tree.above? folder = some RootId.tags)
    (hnew : ∀ item ∈ done, item.id ≠ folder) :
    (¬ ∃ item ∈ done, tree.ClearedFrom uri item.id folder) ∧
      ∀ id, next.ClearedFrom uri folder id ↔ tree.ClearedFrom uri folder id := by
  have hne : ∀ place, tree.above? place = some RootId.tags → place ≠ RootId.tags := by
    rintro place habove rfl
    exact h.not_encloses_parent habove (Encloses.refl tree _)
  constructor
  · rintro ⟨item, hitem, ⟨row, hrow, hparent, -⟩ | ⟨heq, -⟩⟩
    · rw [above?_of_known? hrow, hparent] at hfolder
      exact hne item.id (hdone item hitem) (Option.some.inj hfolder)
    · exact hnew item hitem heq.symm
  · intro id
    refine ClearedFrom.iff_of_cleared hnext ?_
    rintro child hchild ⟨item, hitem, ⟨row, hrow, hparent, -⟩ | ⟨rfl, -⟩⟩
    · rw [above?_of_known? hrow, hparent] at hchild
      exact hnew item hitem (Option.some.inj hchild)
    · rw [hdone item hitem] at hchild
      exact hne folder hfolder (Option.some.inj hchild).symm

theorem leads_untagUri {tree : Tree} (h : tree.WellFormed) {uri : String}
    (huri : validateUri uri = .ok uri) (tags : Option (List String)) :
    Leads (untagUri uri tags) tree fun _ next =>
      Cleared (tree.Untagged uri (tree.PickedBy tags)) tree next := by
  obtain ⟨items, hitems, hnodup, -⟩ := h.children RootId.tags
  have habove : ∀ item ∈ items, tree.above? item.id = some RootId.tags :=
    fun item hitem => (h.ids_children hitems item.id).mp (List.mem_map_of_mem hitem)
  have hwanted : ∀ item ∈ items, (isWanted tags item = true ↔ tree.PickedBy tags item.id) := by
    intro item hitem
    obtain ⟨row, hrow, -, -, -, htitle, -⟩ := h.of_mem_children hitems hitem
    cases tags with
    | none => simp [isWanted, PickedBy]
    | some wanted => simp [isWanted, PickedBy, hrow, htitle]
  refine leads_check_bind huri (leads_check_bind hitems ?_)
  have hnodup : ((items.filter (isWanted tags)).map (·.id)).Nodup :=
    hnodup.sublist (List.filter_sublist.map _)
  refine Leads.imp (leads_forM (P := fun rest next =>
    ∃ done, items.filter (isWanted tags) = done ++ rest ∧
      Cleared (fun id => ∃ item ∈ done, tree.ClearedFrom uri item.id id) tree next) ?_ _ ?_) ?_
  · rintro folder rest next ⟨done, hsplit, hdone⟩
    have hmem : ∀ item, item ∈ done ++ folder :: rest → item ∈ items := by
      intro item hitem
      rw [← hsplit] at hitem
      exact (List.mem_filter.mp hitem).1
    rw [hsplit, List.map_append, List.map_cons] at hnodup
    obtain ⟨hnot, hsame⟩ := untagged_cleared h
      (fun item hitem => habove item (hmem item (by simp [hitem]))) hdone
      (habove folder (hmem folder (by simp)))
      (fun item hitem => (List.nodup_append.mp hnodup).2.2 _ (List.mem_map_of_mem hitem) _
        List.mem_cons_self)
    obtain ⟨row, hrow, -⟩ := h.of_mem_children hitems (hmem folder (by simp))
    refine (leads_clearTag hdone.wellFormed uri (by rw [hdone.kept _ hnot, hrow]; rfl)).imp ?_
    intro _ after hafter
    refine ⟨done ++ [folder], by simp [hsplit], (hdone.trans hafter).congr ?_⟩
    intro id _ _
    rw [hsame]
    simp [or_and_right, exists_or]
  · exact ⟨[], rfl, (Cleared.refl h).congr (by simp)⟩
  · rintro - next ⟨done, hsplit, hdone⟩
    rw [List.append_nil] at hsplit
    subst hsplit
    refine hdone.congr ?_
    intro id _ _
    constructor
    · rintro ⟨item, hitem, hgone⟩
      obtain ⟨hitem, hpick⟩ := List.mem_filter.mp hitem
      exact ⟨item.id, habove item hitem, (hwanted item hitem).mp hpick, hgone⟩
    · rintro ⟨folder, hfolder, hpick, hgone⟩
      obtain ⟨item, hitem, rfl⟩ := List.mem_map.mp ((h.ids_children hitems folder).mpr hfolder)
      exact ⟨item, List.mem_filter.mpr ⟨hitem, (hwanted item hitem).mpr hpick⟩, hgone⟩

theorem keeps_untagUri (uri : String) (tags : Option (List String)) :
    (untagUri uri tags).Keeps WellFormed := by
  intro places hwell
  cases huri : validateUri uri with
  | error cause =>
      rw [untagUri, result_bind, result_checked, huri]
      exact hwell
  | ok checked =>
      obtain rfl := eq_of_validateUri huri
      obtain ⟨-, -, hnext⟩ := (leads_untagUri hwell huri tags places rfl).result
      exact hnext.wellFormed

end Places

end SyncedBookmarks
