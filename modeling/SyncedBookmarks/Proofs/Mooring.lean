import SyncedBookmarks.Proofs.RootSafety
import SyncedBookmarks.Proofs.TagRelation

namespace SyncedBookmarks

/-! The entry that is put into a tag when a query is pointed at it keeps the tag's folder there.
Taking in a record, whether it comes through or not, does not take the entry away, as long as
the record's item is not in the tags and has another URI. -/

/-- An entry in the folder of a tag, and the items that may be written to while it is there: all
that are yet to be made, and of the others neither the folder nor a root. -/
structure Mooring where
  own : Int → Prop
  least : Int
  tag : String
  folder : Int
  entry : Int
  new : ∀ id, least ≤ id → own id
  apart : ¬ own folder
  roots : ∀ id, own id → ¬ Tree.IsRoot id

namespace Tree

/-- A tree in which an entry keeps the folder of its tag, and none of the items that may be
written to has the entry's URI. -/
structure Moored (mooring : Mooring) (tree : Tree) : Prop where
  wellFormed : tree.WellFormed
  least_le : mooring.least ≤ tree.nextId
  root : tree.above? RootId.tags = some RootId.places
  isTag : tree.IsTag mooring.tag mooring.folder
  filed : tree.Files mooring.folder BookmarkStore.lookupUri mooring.entry
  clear : ∀ id row, mooring.own id → tree.known? id = some row →
    row.url ≠ some BookmarkStore.lookupUri

variable {mooring : Mooring} {before after : Tree} {id : Int} {row : Row}

namespace Moored

theorem not_own_entry (h : before.Moored mooring) : ¬ mooring.own mooring.entry := by
  intro hown
  obtain ⟨row, hrow, -, hurl⟩ := h.filed
  exact h.clear mooring.entry row hown hrow hurl

/-- Nothing that may be written to is above the entry. -/
theorem not_encloses (h : before.Moored mooring) (hown : mooring.own id) :
    ¬ before.Encloses id mooring.entry := by
  intro hencloses
  rcases hencloses.eq_or_above? with rfl | ⟨folder, habove, hup⟩
  · exact h.not_own_entry hown
  obtain rfl := Option.some.inj (habove.symm.trans h.filed.above?)
  rcases hup.eq_or_above? with rfl | ⟨tags, habove, hup⟩
  · exact mooring.apart hown
  obtain rfl := Option.some.inj (habove.symm.trans h.isTag.above?)
  rcases hup.eq_or_above? with rfl | ⟨places, habove, hup⟩
  · exact mooring.roots _ hown isRoot_tags
  obtain rfl := Option.some.inj (habove.symm.trans h.root)
  rcases hup.eq_or_above? with rfl | ⟨none, habove, -⟩
  · exact mooring.roots _ hown isRoot_places
  · cases h.wellFormed.above?_places.symm.trans habove

/-- It is enough that the entry, the folder and the root for tags are as they were. -/
theorem of_kept (h : before.Moored mooring) (hwell : after.WellFormed)
    (hle : before.nextId ≤ after.nextId)
    (hkept : ∀ id ∈ [mooring.entry, mooring.folder, RootId.tags],
      after.known? id = before.known? id)
    (hclear : ∀ id row, mooring.own id → after.known? id = some row →
      row.url ≠ some BookmarkStore.lookupUri) : after.Moored mooring where
  wellFormed := hwell
  least_le := h.least_le.trans hle
  root := by
    rw [above?_eq_known?, hkept RootId.tags (by simp), ← above?_eq_known?]
    exact h.root
  isTag := h.isTag.congr (hkept mooring.folder (by simp))
  filed := by
    obtain ⟨row, hrow, hentry⟩ := h.filed
    exact ⟨row, (hkept mooring.entry (by simp)).trans hrow, hentry⟩
  clear := hclear

/-- None of what keeps the tag may be written to. -/
theorem ne_of_own (h : before.Moored mooring) (hown : mooring.own id) :
    ∀ kept ∈ [mooring.entry, mooring.folder, RootId.tags], kept ≠ id := by
  simp only [List.forall_mem_cons, List.not_mem_nil, false_implies, implies_true, and_true]
  refine ⟨?_, ?_, ?_⟩ <;> rintro rfl
  · exact h.not_own_entry hown
  · exact mooring.apart hown
  · exact mooring.roots _ hown isRoot_tags

theorem rewritten (h : before.Moored mooring) (hown : mooring.own id)
    (hurl : row.url ≠ some BookmarkStore.lookupUri) (hnext : Rewritten id row before after) :
    after.Moored mooring := by
  apply h.of_kept hnext.wellFormed hnext.nextId.ge
  · intro kept hkept
    rw [hnext.known?, if_neg (h.ne_of_own hown kept hkept)]
  · intro other found hother hfound
    rw [hnext.known?] at hfound
    split at hfound
    · exact Option.some.inj hfound ▸ hurl
    · exact h.clear other found hother hfound

theorem inserted (h : before.Moored mooring) {parent index : Int} {type : ItemType}
    {title url : Option String}
    (hwell : (before.inserted parent index type title url).WellFormed)
    (hurl : url ≠ some BookmarkStore.lookupUri) :
    (before.inserted parent index type title url).Moored mooring := by
  apply h.of_kept hwell (by simp [Tree.inserted, append])
  · intro kept hkept
    rw [h.wellFormed.known?_inserted,
      if_neg (h.ne_of_own (mooring.new _ h.least_le) kept hkept)]
  · intro other found hother hfound
    rw [h.wellFormed.known?_inserted] at hfound
    split at hfound
    · obtain rfl := Option.some.inj hfound
      exact hurl
    · exact h.clear other found hother hfound

end Moored

theorem Cleared.not_gone_above {gone : Int → Prop} (h : Cleared gone before after) {parent : Int}
    (hkept : ¬ gone id) (habove : before.above? id = some parent) : ¬ gone parent := by
  intro hgone
  obtain ⟨row, hrow, -⟩ :=
    h.wellFormed.parent_folder id parent ((h.above?_of_kept hkept).trans habove)
  cases (h.absent parent hgone).symm.trans hrow

/-- With the entry all stays that is above it. -/
theorem Moored.cleared {gone : Int → Prop} (h : before.Moored mooring)
    (hnext : Cleared gone before after) (hentry : ¬ gone mooring.entry) :
    after.Moored mooring := by
  have hfolder := hnext.not_gone_above hentry h.filed.above?
  have htags := hnext.not_gone_above hfolder h.isTag.above?
  apply h.of_kept hnext.wellFormed hnext.nextId.ge
  · simp only [List.forall_mem_cons, List.not_mem_nil, false_implies, implies_true, and_true]
    exact ⟨hnext.kept _ hentry, hnext.kept _ hfolder, hnext.kept _ htags⟩
  · exact fun other row hown hrow => h.clear other row hown (hnext.known?_of_some hrow).2

/-- A change to an item that does not give it the entry's URI. -/
structure Clean (change : Row → Row) : Prop extends Steady change where
  url : ∀ row, row.url ≠ some BookmarkStore.lookupUri →
    (change row).url ≠ some BookmarkStore.lookupUri

theorem Moored.mapRow (h : before.Moored mooring) (hown : mooring.own id) {change : Row → Row}
    (hclean : Clean change) (hwell : (before.mapRow id change).WellFormed) :
    (before.mapRow id change).Moored mooring := by
  apply h.of_kept hwell le_rfl
  · intro kept hkept
    rw [hclean.known?, if_neg (h.ne_of_own hown kept hkept)]
  · intro other found hother hfound
    rw [hclean.known?] at hfound
    split at hfound
    · obtain ⟨row, hrow, rfl⟩ := Option.map_eq_some_iff.mp hfound
      exact hclean.url row (h.clear id row hown hrow)
    · exact h.clear other found hother hfound

end Tree

namespace Places

open SyncedBookmarks.Action SyncedBookmarks.Tree

def Moored (mooring : Mooring) (places : Places) : Prop :=
  places.tree.Moored mooring

variable {mooring : Mooring} {id : Int} {uri : String}

theorem clean_of_url {change : Row → Row} (hsteady : Steady change)
    (hurl : ∀ row, (change row).url = row.url) : Clean change :=
  { hsteady with url := fun row hrow => (hurl row).symm ▸ hrow }

theorem clean_annotate (name value : String) : Clean (·.annotate name value) :=
  clean_of_url (steady_annotate name value) fun _ => rfl

theorem clean_unannotate (name : String) : Clean (·.unannotate name) :=
  clean_of_url (steady_unannotate name) fun _ => rfl

theorem clean_url (hne : uri ≠ BookmarkStore.lookupUri) :
    Clean fun row => { row with url := some uri } :=
  { steady_url (some uri) with url := fun _ _ heq => hne (Option.some.inj heq) }

theorem Writes.keeps_moored {action : TreeAction α} (h : Writes Clean id action)
    (hwell : action.Keeps WellFormed) (hown : mooring.own id) : action.Keeps (Moored mooring) := by
  intro places hmoored
  have hnext := hwell places hmoored.wellFormed
  unfold Moored
  unfold WellFormed at hnext
  rcases h places with hsame | ⟨change, hclean, hsame⟩ <;> rw [hsame] at hnext ⊢
  · exact hmoored
  · exact Tree.Moored.mapRow hmoored hown hclean hnext

theorem ensures_insertItem_moored (parent : Int) {type : ItemType} {title url : Option String}
    (hfit : Fitting type title url) (hurl : url ≠ some BookmarkStore.lookupUri) :
    (insertItem parent atEnd type title url).Ensures (Moored mooring) mooring.own := by
  intro places hmoored
  have hwell : places.tree.WellFormed := hmoored.wellFormed
  rcases BookmarkStore.tries_insertItem hwell parent atEnd type title url with
    ⟨cause, hresult⟩ | ⟨made, next, hresult, hparent, rfl, hnext⟩
  · rw [hresult]
    exact ⟨hmoored, fun _ hvalue => by cases hvalue⟩
  · rw [hresult]
    refine ⟨?_, fun _ hvalue => Except.ok.inj hvalue ▸ mooring.new _ hmoored.least_le⟩
    unfold Moored
    rw [hnext]
    exact Tree.Moored.inserted hmoored (hwell.inserted hparent atEnd hfit) hurl

theorem ensures_insertBookmark_moored (parent : Int) (hne : uri ≠ BookmarkStore.lookupUri)
    (title : Option String) :
    (insertBookmark parent uri atEnd title).Ensures (Moored mooring) mooring.own := by
  rw [insertBookmark]
  have hcheck : (check fun _ => validateUri uri).Ensures (Moored mooring)
      fun checked => validateUri uri = .ok checked := ensures_check fun _ _ _ hchecked => hchecked
  refine hcheck.bind fun checked hchecked => ?_
  obtain rfl := eq_of_validateUri hchecked
  exact ensures_insertItem_moored parent (fitting_bookmark hchecked title)
    fun heq => hne (Option.some.inj heq)

theorem keeps_tagUri_moored (hne : uri ≠ BookmarkStore.lookupUri) (tags : List String) :
    (tagUri uri tags).Keeps (Moored mooring) :=
  keeps_tagUri_of
    (fun tag => (ensures_insertItem_moored RootId.tags (fitting_folder tag) (by simp)).keeps)
    (fun folder => (ensures_insertBookmark_moored folder hne none).keeps) tags

/-- Another URI is taken out of the tags without the entry. -/
theorem keeps_untagUri_moored (hne : uri ≠ BookmarkStore.lookupUri) (tags : Option (List String)) :
    (untagUri uri tags).Keeps (Moored mooring) := by
  intro places hmoored
  have hwell : places.tree.WellFormed := hmoored.wellFormed
  cases huri : validateUri uri with
  | error cause =>
      rw [untagUri, result_bind, result_checked, huri]
      exact hmoored
  | ok checked =>
      obtain rfl := eq_of_validateUri huri
      obtain ⟨-, -, hcleared⟩ := (leads_untagUri hwell huri tags places rfl).result
      obtain ⟨row, hrow, hparent, hurl⟩ := hmoored.filed
      have hkept : ¬ places.tree.Untagged _ (places.tree.PickedBy tags) _ :=
        (hwell.not_untagged hmoored.isTag.above? hrow hparent fun _ heq =>
          hne (Option.some.inj (heq.symm.trans hurl))).2
      exact Tree.Moored.cleared hmoored hcleared hkept

theorem keeps_removeFolder_moored (hown : mooring.own id) :
    (removeFolder id).Keeps (Moored mooring) :=
  keeps_removeFolder_of_cleared (fun _ hmoored => hmoored.wellFormed)
    fun _ _ hmoored hcleared => Tree.Moored.cleared hmoored hcleared (hmoored.not_encloses hown)

theorem keeps_removeItem_moored (hown : mooring.own id) :
    (removeItem id).Keeps (Moored mooring) :=
  keeps_removeItem_of_cleared (fun _ hmoored => hmoored.wellFormed)
    fun _ _ hmoored hcleared => Tree.Moored.cleared hmoored hcleared (hmoored.not_encloses hown)

theorem keeps_moveItem_moored (hown : mooring.own id) (parent : Int) :
    (moveItem id parent atEnd).Keeps (Moored mooring) := by
  intro places hmoored
  have hwell : places.tree.WellFormed := hmoored.wellFormed
  by_cases hnot : ∀ row, places.tree.row? id = some row → places.tree.IsFolder parent →
      places.tree.Encloses id parent
  · obtain ⟨cause, hresult⟩ := result_moveItem_of_not hwell hnot atEnd
    rw [hresult]
    exact hmoored
  · push Not at hnot
    obtain ⟨row, hrow, hfolder, houtside⟩ := hnot
    have hknown := known?_of_row? hrow
    obtain ⟨-, -, hnext⟩ :=
      (rewrites_moveItem hwell hknown hfolder houtside atEnd places rfl).result
    refine Tree.Moored.rewritten hmoored hown ?_ hnext
    exact hmoored.clear id row.unplaced hown hknown

end Places

namespace BookmarkStore

open SyncedBookmarks.Action SyncedBookmarks.Tree

def Moored (mooring : Mooring) (store : BookmarkStore) : Prop :=
  store.tree.Moored mooring

variable {mooring : Mooring} {id : Int} {uri : String}

theorem keeps_onTree_moored {action : TreeAction α} (h : action.Keeps (Places.Moored mooring)) :
    (onTree action).Keeps (Moored mooring) :=
  h.within (fun _ hstore => hstore) fun _ _ _ hplaces => hplaces

theorem ensures_onTree_moored {action : TreeAction α} {post : α → Prop}
    (h : action.Ensures (Places.Moored mooring) post) :
    (onTree action).Ensures (Moored mooring) post :=
  h.within (fun _ hstore => hstore) fun _ _ _ hplaces => hplaces

theorem keeps_clean {action : TreeAction α} (h : Places.Writes Clean id action)
    (hwell : action.Keeps Places.WellFormed) (hown : mooring.own id) :
    (onTree action).Keeps (Moored mooring) :=
  keeps_onTree_moored (h.keeps_moored hwell hown)

theorem endures_moored (hown : mooring.own id) : Endures (Moored mooring) id :=
  endures_of_writes (fun hwrites hwell => keeps_clean hwrites hwell hown)
    (fun title => Places.clean_of_url (steady_title title) fun _ => rfl)
    (fun keyword => Places.clean_of_url (steady_keyword keyword) fun _ => rfl)
    (fun name value _ => Places.clean_annotate name value)
    fun name _ => Places.clean_unannotate name

theorem keeps_replaceTags_moored (hne : uri ≠ lookupUri) (tags : List String) :
    (replaceTags uri tags).Keeps (Moored mooring) := by
  have hholding : holdingUri ≠ lookupUri := by decide
  exact (keeps_onTree_moored (Places.keeps_tagUri_moored hholding _)).bind fun _ =>
    (keeps_onTree_moored (Places.keeps_untagUri_moored hne _)).bind fun _ =>
      (keeps_onTree_moored (Places.keeps_tagUri_moored hne _)).bind fun _ =>
        keeps_onTree_moored (Places.keeps_untagUri_moored hholding _)

/-! ### Creation -/

theorem ensures_createBookmark_moored (parent : Int) {record : Record}
    (hne : record.bmkUri ≠ some lookupUri) :
    (createBookmark record parent).Ensures (Moored mooring) mooring.own := by
  have hother : ∀ uri, record.bmkUri = some uri → uri ≠ lookupUri :=
    fun uri huri heq => hne (huri.trans (congrArg some heq))
  refine ensures_createBookmark (fun uri huri => ?_) fun id uri hown huri => ?_
  · exact ensures_onTree_moored
      (Places.ensures_insertBookmark_moored parent (hother uri huri) record.title)
  · exact (endures_moored hown).fillBookmark record (keeps_replaceTags_moored (hother uri huri))

theorem keeps_create_moored (place : Option Int) {record : Record}
    (hne : record.bmkUri ≠ some lookupUri) : (create record place).Keeps (Moored mooring) := by
  have hfolder : ∀ parent title, (Places.createFolder parent title Places.atEnd).Ensures
      (Places.Moored mooring) mooring.own :=
    fun parent title =>
      Places.ensures_insertItem_moored parent (Places.fitting_folder title) (by simp)
  refine keeps_create (fun parent => ensures_createItem (ensures_createBookmark_moored parent hne)
    (fun title => ensures_onTree_moored (hfolder parent title)) (fun title feed => ?_) ?_)
    fun id hown => ?_
  · refine ensures_onTree_moored (Places.ensures_createLivemark record.siteUri feed
      (hfolder parent title) fun id hown name value _ => ?_)
    exact (Places.writes_annotate id (Places.clean_annotate name value)).keeps_moored
      (Places.keeps_annotate id name value) hown
  · exact ensures_onTree_moored
      (Places.ensures_insertItem_moored parent Places.fitting_separator (by simp))
  · exact keeps_clean (Places.writes_setGuid id
      (Places.clean_of_url (steady_guid _) fun _ => rfl)) (Places.keeps_setGuid id record.id) hown

/-! ### Update -/

/-- The URI of an item that may be written to is not the entry's. -/
theorem ensures_url (hown : mooring.own id) :
    (Places.check (·.url? id)).Ensures (Places.Moored mooring) (· ≠ some lookupUri) := by
  apply ensures_check
  intro places url hmoored hurl
  change places.tree.url? id = .ok url at hurl
  have hwell : places.tree.WellFormed := hmoored.wellFormed
  cases hrow : places.tree.known? id with
  | none =>
      rw [Tree.url?, (Tree.WellFormed.item?_none (known?_eq_none_iff.mp hrow)).2] at hurl
      cases hurl
  | some row =>
      rw [hwell.url? hrow] at hurl
      exact Except.ok.inj hurl ▸ hmoored.clear id row hown hrow

theorem keeps_updateTags_moored (hown : mooring.own id) (tags : List String) :
    (updateTags id tags).Keeps (Moored mooring) := by
  have hread : (check (·.url? id)).Ensures (Moored mooring) (· ≠ some lookupUri) :=
    ensures_onTree_moored (ensures_url hown)
  refine hread.bind_keeps fun url hurl => ?_
  cases url with
  | none => exact keeps_pure _ _
  | some uri => exact keeps_replaceTags_moored (fun heq => hurl (congrArg some heq)) tags

theorem keeps_updateFields_moored (hown : mooring.own id) {record : Record}
    (hne : record.bmkUri ≠ some lookupUri) : (updateFields id record).Keeps (Moored mooring) := by
  refine (endures_moored hown).updateFields (fun uri huri => ?_) (keeps_updateTags_moored hown)
  exact keeps_clean (Places.writes_setUrl id (Places.clean_url fun heq =>
    hne (huri.trans (congrArg some heq)))) (Places.keeps_setUrl id uri) hown

theorem keeps_updateParent_moored (hown : mooring.own id) (parent : Int) :
    (onTree (updateParent id parent)).Keeps (Moored mooring) := by
  refine keeps_onTree_moored ((keeps_check _ _).bind fun above => ?_)
  split
  · exact Places.keeps_moveItem_moored hown parent
  · exact keeps_pure _ _

/-! ### Removal -/

theorem keeps_removeBookmark_moored (hown : mooring.own id) :
    (removeBookmark id).Keeps (Places.Moored mooring) := by
  refine (ensures_url hown).bind_keeps fun url hurl => ?_
  refine Keeps.bind ?_ fun _ => Places.keeps_removeItem_moored hown
  cases url with
  | none => exact keeps_pure _ _
  | some uri => exact Places.keeps_untagUri_moored (fun heq => hurl (congrArg some heq)) none

/-! ### Taking in -/

variable {store : BookmarkStore} {record : Record}

theorem moored_remove (howns : Owns mooring.own store.tree record.id) (h : Moored mooring store) :
    Moored mooring ((remove record).result store).2 := by
  have hown : ∀ id, store.tree.idOfGuid? record.id = some id → mooring.own id :=
    fun _ hid => howns.own_of_idOfGuid? h.wellFormed hid
  exact holds_remove h
    (fun id hid => keeps_onTree_moored (keeps_removeBookmark_moored (hown id hid)))
    (fun id hid => keeps_onTree_moored (Places.keeps_removeFolder_moored (hown id hid)))
    fun id hid => keeps_onTree_moored (Places.keeps_removeItem_moored (hown id hid))

theorem moored_bringIn (howns : Owns mooring.own store.tree record.id)
    (hne : record.bmkUri ≠ some lookupUri) (h : Moored mooring store) (place : Option Int) :
    Moored mooring ((bringIn record place).result store).2 := by
  cases hdeleted : record.deleted with
  | true =>
      rw [bringIn_of_deleted hdeleted]
      exact moored_remove howns h
  | false =>
      cases hid : store.tree.idOfGuid? record.id with
      | none =>
          rw [result_bringIn_of_none hdeleted hid]
          exact keeps_create_moored place hne store h
      | some id =>
          have hown : ∀ id, store.tree.idOfGuid? record.id = some id → mooring.own id :=
            fun _ hid => howns.own_of_idOfGuid? h.wellFormed hid
          rw [result_bringIn_of_some hdeleted hid]
          exact holds_update h (fun id hid => keeps_updateParent_moored (hown id hid))
            fun id hid => keeps_updateFields_moored (hown id hid) hne

theorem moored_settle {guid : String} (howns : Owns mooring.own store.tree guid)
    (h : Moored mooring store) (parent : Option Int) (orphanOf : Option String) :
    Moored mooring ((settle guid parent orphanOf).result store).2 := by
  cases hid : store.tree.idOfGuid? guid with
  | none =>
      rw [result_settle_of_none hid]
      exact h
  | some id =>
      have hown := howns.own_of_idOfGuid? h.wellFormed hid
      rw [result_settle_of_some hid]
      have hmark := keeps_clean (writes_markOrphan id parent orphanOf
        (fun value => Places.clean_annotate _ value) (Places.clean_unannotate _))
        (keeps_markOrphan id parent orphanOf) hown
      exact hmark (store.forget guid) h

/-- A record that is taken in, whatever comes of it, leaves the entry in its folder. -/
theorem moored_takeIn (howns : Owns mooring.own store.tree record.id)
    (hne : record.bmkUri ≠ some lookupUri) (h : Moored mooring store) :
    Moored mooring ((takeIn record).result store).2 := by
  have hbears : Bears (fun _ => False) store.tree record :=
    ⟨fun _ hnone => hnone.elim, fun _ _ _ _ hnone => hnone, fun _ => sheltered_none store.tree⟩
  have hspares := spares_bringIn h.wellFormed hbears howns
    (destination store.tree record.parentid).1
  have hbring := moored_bringIn howns hne h (destination store.tree record.parentid).1
  have hnext := howns.of_spares hspares
  rw [result_takeIn, result_bind]
  cases hbrought : (bringIn record (destination store.tree record.parentid).1).result store with
  | mk outcome middle =>
      rw [hbrought] at hbring hnext
      cases outcome with
      | error cause => exact hbring
      | ok value => exact moored_settle hnext hbring _ _

end BookmarkStore

/-! ### One record after another -/

namespace Tree

/-- Whether an item has a certain GUID or is yet to be made. -/
def Writable (tree : Tree) (guid : String) (id : Int) : Prop :=
  (∃ row, tree.known? id = some row ∧ row.guid = guid) ∨ tree.nextId ≤ id

/-- Whether a record is about an item outside the tags and does not give it the URI of entries. -/
structure Outlying (tree : Tree) (record : Record) : Prop where
  notRoot : record.id ∉ RootGuid.all
  outside : ∀ id, tree.idOfGuid? record.id = some id → ¬ tree.Below RootId.tags id
  url : record.bmkUri ≠ some BookmarkStore.lookupUri

/-- A tree in which an entry keeps the folder of a tag, and the URI of entries is nowhere but in the
tags. -/
structure Anchored (tag : String) (folder : Int) (tree : Tree) : Prop where
  wellFormed : tree.WellFormed
  roots : tree.RootsInPlace
  isTag : tree.IsTag tag folder
  held : tree.Holds folder BookmarkStore.lookupUri
  clear : ∀ id row, tree.known? id = some row → ¬ tree.Below RootId.tags id →
    row.url ≠ some BookmarkStore.lookupUri

variable {tree after : Tree} {record : Record} {tag guid : String} {folder id : Int}

theorem owns_writable (tree : Tree) (guid : String) :
    BookmarkStore.Owns (tree.Writable guid) tree guid where
  item := fun _ row hrow hguid => .inl ⟨row, hrow, hguid⟩
  new := fun _ hle => .inr hle

theorem RootsInPlace.not_writable (h : tree.RootsInPlace) (hwell : tree.WellFormed)
    (hguid : guid ∉ RootGuid.all) (hwritable : tree.Writable guid id) : ¬ IsRoot id := by
  rintro ⟨name, hmem⟩
  rcases hwritable with ⟨row, hrow, rfl⟩ | hle
  · exact h.named.ne_of_guid hmem hrow hguid rfl
  · obtain ⟨row, hrow, -⟩ := h.named.isFolder_of_mem hwell hmem
    exact (hwell.id_bounds id row hrow).2.not_ge hle

/-- What a record outside the tags may write to is not in them. -/
theorem Outlying.not_writable (hrecord : tree.Outlying record) (h : tree.WellFormed)
    (hroots : tree.RootsInPlace) (hencloses : tree.Encloses RootId.tags id) :
    ¬ tree.Writable record.id id := by
  intro hwritable
  have hne : id ≠ RootId.tags := by
    rintro rfl
    exact hroots.not_writable h hrecord.notRoot hwritable isRoot_tags
  rcases hwritable with ⟨row, hrow, hguid⟩ | hle
  · exact hrecord.outside id (h.idOfGuid?_iff.mpr ⟨row, hrow, hguid⟩) ⟨hencloses, hne⟩
  · rcases hencloses.eq_or_above? with heq | ⟨parent, habove, -⟩
    · exact hne heq.symm
    · obtain ⟨row, hrow, -⟩ := known?_of_above? habove
      exact (h.id_bounds id row hrow).2.not_ge hle

theorem RootsInPlace.of_undisturbed {own : Int → Prop} (h : tree.RootsInPlace)
    (hnext : Undisturbed IsRoot own tree after) (hapart : ∀ id, own id → ¬ IsRoot id) :
    after.RootsInPlace :=
  h.of_known? fun id hroot => hnext.known? id hroot fun hown => hapart id hown hroot

theorem Anchored.encloses_folder (h : tree.Anchored tag folder) :
    tree.Encloses RootId.tags folder :=
  (Encloses.refl _ _).of_above? h.isTag.above?

/-- What keeps the tag's folder while a record is being taken in. -/
def Anchored.mooring (h : tree.Anchored tag folder) (hrecord : tree.Outlying record)
    (entry : Int) : Mooring where
  own := tree.Writable record.id
  least := tree.nextId
  tag := tag
  folder := folder
  entry := entry
  new := fun _ hle => .inr hle
  apart := hrecord.not_writable h.wellFormed h.roots h.encloses_folder
  roots := fun _ hwritable => h.roots.not_writable h.wellFormed hrecord.notRoot hwritable

theorem Anchored.exists_moored (h : tree.Anchored tag folder) (hrecord : tree.Outlying record) :
    ∃ entry, tree.Moored (h.mooring hrecord entry) := by
  obtain ⟨entry, row, hrow, hentry⟩ := h.held
  refine ⟨entry, ?_⟩
  constructor
  case wellFormed => exact h.wellFormed
  case least_le => exact le_rfl
  case root => exact h.roots.above RootId.tags (by decide)
  case isTag => exact h.isTag
  case filed => exact ⟨row, hrow, hentry⟩
  case clear =>
    rintro id found (⟨row, hrow, hguid⟩ | hle) hfound
    · exact h.clear id found hfound
        (hrecord.outside id (h.wellFormed.idOfGuid?_iff.mpr ⟨row, hrow, hguid⟩))
    · exact absurd hle (h.wellFormed.id_bounds id found hfound).2.not_ge

end Tree

namespace BookmarkStore

open SyncedBookmarks.Action SyncedBookmarks.Tree

variable {store next : BookmarkStore} {record : Record} {tag : String} {folder id : Int}

theorem spares_takeIn_of_outlying (hrecord : store.tree.Outlying record) (h : store.tree.WellFormed)
    (hroots : store.tree.RootsInPlace) :
    Spares IsRoot (store.tree.Writable record.id) (store.tree.Writable record.id) store.tree
      ((takeIn record).result store).2 := by
  have hapart : ∀ id, store.tree.Writable record.id id → ¬ IsRoot id :=
    fun _ hwritable => hroots.not_writable h hrecord.notRoot hwritable
  apply spares_takeIn h _ (store.tree.owns_writable record.id) hapart
  constructor
  case there =>
    rintro id ⟨guid, hmem⟩
    obtain ⟨row, hrow, -⟩ := hroots.named.isFolder_of_mem h hmem
    exact Places.isSome_row?_of_known? hrow
  case item => exact fun id row hrow hguid => hapart id (.inl ⟨row, hrow, hguid⟩)
  case sheltered => exact fun _ => hroots.sheltered h

/-- What is in the tags and not written to is in the tags still. -/
theorem encloses_of_spares (h : store.tree.WellFormed) (hroots : store.tree.RootsInPlace)
    (hrecord : store.tree.Outlying record)
    (hspares : Spares IsRoot (store.tree.Writable record.id) (store.tree.Writable record.id)
      store.tree next) {row : Row} (hrow : next.tree.known? id = some row)
    (hencloses : store.tree.Encloses RootId.tags id) :
    next.tree.Encloses RootId.tags id := by
  have hsame : ∀ place, (next.tree.known? place).isSome ∧
      (store.tree.Encloses RootId.tags place ∨ IsRoot place) →
        next.tree.above? place = store.tree.above? place := by
    rintro place ⟨hthere, hplace⟩
    obtain ⟨found, hfound⟩ := Option.isSome_iff_exists.mp hthere
    have hnot : ¬ store.tree.Writable record.id place := by
      rcases hplace with hinside | hroot
      · exact hrecord.not_writable h hroots hinside
      · exact fun hwritable => hroots.not_writable h hrecord.notRoot hwritable hroot
    have hbefore := hspares.known?_of_not_own (fun _ hle => .inr hle) hnot hfound
    rw [above?_of_known? hfound, above?_of_known? hbefore]
  refine (Encloses.iff_of_kept ?_ hsame ⟨?_, .inl hencloses⟩).mpr hencloses
  · rintro place parent ⟨hthere, hplace⟩ habove
    obtain ⟨found, hfound, -⟩ :=
      hspares.wellFormed.parent_folder place parent ((hsame place ⟨hthere, hplace⟩).trans habove)
    refine ⟨Option.isSome_iff_exists.mpr ⟨found, hfound⟩, ?_⟩
    rcases hplace with hinside | hroot
    · rcases hinside.eq_or_above? with rfl | ⟨other, hother, hup⟩
      · exact .inr (hroots.above?_of_isRoot h isRoot_tags habove ▸ isRoot_places)
      · exact .inl (Option.some.inj (habove.symm.trans hother) ▸ hup)
    · exact .inr (hroots.above?_of_isRoot h hroot habove ▸ isRoot_places)
  · exact Option.isSome_iff_exists.mpr ⟨row, hrow⟩

/-- A record that is about an item outside the tags, whatever comes of it, leaves the tag's folder
anchored. -/
theorem anchored_takeIn (h : store.tree.Anchored tag folder)
    (hrecord : store.tree.Outlying record) :
    ((takeIn record).result store).2.tree.Anchored tag folder := by
  have hspares := spares_takeIn_of_outlying hrecord h.wellFormed h.roots
  obtain ⟨entry, hmoored⟩ := h.exists_moored hrecord
  have hnext : ((takeIn record).result store).2.tree.Moored (h.mooring hrecord entry) :=
    moored_takeIn (store.tree.owns_writable record.id) hrecord.url hmoored
  constructor
  case wellFormed => exact hnext.wellFormed
  case roots =>
    exact h.roots.of_undisturbed hspares.undisturbed fun _ hwritable =>
      h.roots.not_writable h.wellFormed hrecord.notRoot hwritable
  case isTag => exact hnext.isTag
  case held => exact ⟨entry, hnext.filed⟩
  case clear =>
    intro id row hrow houtside
    by_cases hwritable : store.tree.Writable record.id id
    · exact hnext.clear id row hwritable hrow
    · have hbefore := hspares.known?_of_not_own (fun _ hle => .inr hle) hwritable hrow
      refine h.clear id row hbefore fun hbelow => houtside ⟨?_, hbelow.2⟩
      exact encloses_of_spares h.wellFormed h.roots hrecord hspares hrow hbelow.1

end BookmarkStore

end SyncedBookmarks
