import SyncedBookmarks.Proofs.Atomicity
import SyncedBookmarks.Proofs.Sparing

namespace SyncedBookmarks

/-! What applying a record leaves alone, whatever its outcome: all but the item that it is about,
the tags, and for a deletion what is below the item. -/

namespace BookmarkStore

open SyncedBookmarks.Action SyncedBookmarks.Tree

def Spares (still own free : Int → Prop) (tree : Tree) (store : BookmarkStore) : Prop :=
  Places.Spares still own free tree store.places

section Spares

variable {still own free : Int → Prop} {tree : Tree} {id : Int}

theorem keeps_onTree_spares {action : TreeAction α}
    (h : action.Keeps (Places.Spares still own free tree)) :
    (onTree action).Keeps (Spares still own free tree) :=
  h.within (fun _ hstore => hstore) fun _ _ _ hplaces => hplaces

theorem ensures_onTree_spares {action : TreeAction α} {post : α → Prop}
    (h : action.Ensures (Places.Spares still own free tree) post) :
    (onTree action).Ensures (Spares still own free tree) post :=
  h.within (fun _ hstore => hstore) fun _ _ _ hplaces => hplaces

theorem keeps_writes {action : TreeAction α} (h : Places.Writes Inward id action)
    (hwell : action.Keeps Places.WellFormed) (hown : own id) :
    (onTree action).Keeps (Spares still own free tree) :=
  keeps_onTree_spares (h.keeps hwell hown)

/-- What endures the changes of a sort endures changes to the fields, if these are of that sort. -/
theorem endures_of_writes {inv : BookmarkStore → Prop} {sort : (Row → Row) → Prop}
    (hwrites : ∀ {action : TreeAction Unit}, Places.Writes sort id action →
      action.Keeps Places.WellFormed → (onTree action).Keeps inv)
    (htitle : ∀ title, sort fun row => { row with title })
    (hkeyword : ∀ keyword, sort fun row => { row with keyword })
    (hannotate : ∀ name value, name ≠ AnnotationName.intendedParent → sort (·.annotate name value))
    (hunannotate : ∀ name, name ≠ AnnotationName.intendedParent → sort (·.unannotate name)) :
    Endures inv id where
  title := fun title =>
    hwrites (Places.writes_setTitle id (htitle _)) (Places.keeps_setTitle id title)
  keyword := fun keyword =>
    hwrites (Places.writes_setKeyword id (hkeyword _)) (Places.keeps_setKeyword id keyword)
  annotate := fun name value hname =>
    hwrites (Places.writes_annotate id (hannotate name value hname))
      (Places.keeps_annotate id name value)
  unannotate := fun name hname =>
    hwrites (Places.writes_unannotate id (hunannotate name hname)) (Places.keeps_unannotate id name)
  site := fun uri =>
    hwrites (Places.writes_setSite id (hannotate _ uri (by decide))) (Places.keeps_setSite id uri)
  feed := fun uri =>
    hwrites (Places.writes_setFeed id (hannotate _ uri (by decide))) (Places.keeps_setFeed id uri)

theorem endures_spares (hown : own id) : Endures (Spares still own free tree) id :=
  endures_of_writes (fun hwrites hwell => keeps_writes hwrites hwell hown)
    Places.inward_title Places.inward_keyword
    (fun _ value hname => Places.inward_annotate hname value)
    fun _ hname => Places.inward_unannotate hname

theorem keeps_replaceTags_spares (hsheltered : Sheltered still tree) (uri : String)
    (tags : List String) : (replaceTags uri tags).Keeps (Spares still own free tree) :=
  (keeps_onTree_spares (Places.keeps_tagUri_spares _ _)).bind fun _ =>
    (keeps_onTree_spares (Places.keeps_untagUri_spares hsheltered _ _)).bind fun _ =>
      (keeps_onTree_spares (Places.keeps_tagUri_spares _ _)).bind fun _ =>
        keeps_onTree_spares (Places.keeps_untagUri_spares hsheltered _ _)

/-! ### Creation -/

theorem keeps_fillBookmark_spares (hsheltered : Sheltered still tree) (hown : own id)
    (record : Record) (uri : String) :
    (fillBookmark id record uri).Keeps (Spares still own free tree) :=
  (endures_spares hown).fillBookmark record (keeps_replaceTags_spares hsheltered uri)

theorem ensures_createItem_spares (hsheltered : Sheltered still tree)
    (hnew : ∀ id, ¬ still id → tree.nextId ≤ id → own id) (record : Record) (parent : Int) :
    (createItem record parent).Ensures (Spares still own free tree)
      fun made => ∀ id, made = some id → ¬ still id ∧ tree.nextId ≤ id := by
  have hfolder : ∀ title, (Places.createFolder parent title Places.atEnd).Ensures
      (Places.Spares still own free tree) fun id => ¬ still id ∧ tree.nextId ≤ id :=
    fun title => Places.ensures_insertItem parent (Places.fitting_folder title)
  refine ensures_createItem (ensures_createBookmark (fun uri _ => ?_) ?_)
    (fun title => ensures_onTree_spares (hfolder title)) (fun title feed => ?_) ?_
  · exact ensures_onTree_spares (Places.ensures_insertBookmark parent uri record.title)
  · exact fun id uri hfresh _ =>
      keeps_fillBookmark_spares hsheltered (hnew id hfresh.1 hfresh.2) record uri
  · refine ensures_onTree_spares
      (Places.ensures_createLivemark record.siteUri feed (hfolder title) ?_)
    exact fun id hfresh name value hname =>
      (Places.writes_annotate id (Places.inward_annotate hname value)).keeps
        (Places.keeps_annotate id name value) (hnew id hfresh.1 hfresh.2)
  · exact ensures_onTree_spares (Places.ensures_insertItem parent Places.fitting_separator)

theorem keeps_create_spares (hsheltered : Sheltered still tree)
    (hnew : ∀ id, ¬ still id → tree.nextId ≤ id → own id ∧ free id) (record : Record)
    (place : Option Int) : (create record place).Keeps (Spares still own free tree) := by
  refine keeps_create (ensures_createItem_spares hsheltered
    (fun id hstill hle => (hnew id hstill hle).1) record) ?_
  rintro id ⟨hstill, hle⟩
  exact keeps_onTree_spares ((Places.writes_setGuid id (Places.lasting_guid _)).keeps_of_free
    (Places.keeps_setGuid id record.id) (fun hid => absurd hid hstill) (hnew id hstill hle).2)

/-! ### Update -/

/-- Only what has a URL, and so is a bookmark, has its tags replaced. -/
theorem keeps_updateTags_spares (hthere : id < tree.nextId)
    (hsheltered : ∀ row, tree.known? id = some row → row.typeCode = ItemType.bookmark.code →
      Sheltered still tree) (tags : List String) :
    (updateTags id tags).Keeps (Spares still own free tree) := by
  intro store hstore
  have hwell : store.tree.WellFormed := hstore.wellFormed
  have hread : (check (·.url? id)).result store =
      ((store.tree.url? id).mapError .tree, store) := rfl
  rw [updateTags, result_bind, hread]
  cases hurl : store.tree.url? id with
  | error cause => exact hstore
  | ok url =>
      cases url with
      | none => exact hstore
      | some uri =>
          refine keeps_replaceTags_spares ?_ uri tags store hstore
          have hrow : ∃ row, store.tree.known? id = some row := by
            rw [← Option.isSome_iff_exists, Option.isSome_iff_ne_none]
            intro hnone
            rw [Tree.url?, (Tree.WellFormed.item?_none (known?_eq_none_iff.mp hnone)).2] at hurl
            cases hurl
          obtain ⟨row, hrow⟩ := hrow
          rw [hwell.url? hrow] at hurl
          have hbookmark := (hwell.sound id row hrow).url_iff.mp
            (by rw [Except.ok.inj hurl]; rfl)
          rcases hstore.descends.origin id row hrow with ⟨origin, horigin, hstems⟩ | ⟨hle, -⟩
          · exact hsheltered origin horigin (hstems.typeCode.symm.trans hbookmark)
          · omega

theorem keeps_updateFields_spares (hown : own id) (hthere : id < tree.nextId)
    (hsheltered : ∀ row, tree.known? id = some row → row.typeCode = ItemType.bookmark.code →
      Sheltered still tree) (record : Record) :
    (updateFields id record).Keeps (Spares still own free tree) :=
  (endures_spares hown).updateFields
    (fun uri _ => keeps_writes (Places.writes_setUrl id (Places.inward_url _))
      (Places.keeps_setUrl id uri) hown)
    (keeps_updateTags_spares hthere hsheltered)

theorem keeps_updateParent_spares (hid : ¬ still id) (hfree : free id) (parent : Int) :
    (onTree (updateParent id parent)).Keeps (Spares still own free tree) := by
  refine keeps_onTree_spares ((keeps_check _ _).bind fun above => ?_)
  split
  · exact Places.keeps_moveItem_spares hid hfree parent
  · exact keeps_pure _ _

/-! ### Removal -/

theorem keeps_removeBookmark_spares (hsheltered : Sheltered still tree) (hid : ¬ still id) :
    (removeBookmark id).Keeps (Places.Spares still own free tree) :=
  (keeps_check _ _).bind fun _ =>
    (keeps_optionForM _ fun uri => Places.keeps_untagUri_spares hsheltered uri none).bind
      fun _ => Places.keeps_removeItem_spares hsheltered.upward hid

theorem spares_remove {store : BookmarkStore} (record : Record) (hsheltered : Sheltered still tree)
    (hitem : ∀ id, store.tree.idOfGuid? record.id = some id → ¬ still id)
    (h : Spares still own free tree store) :
    Spares still own free tree ((remove record).result store).2 :=
  holds_remove h
    (fun id hid => keeps_onTree_spares (keeps_removeBookmark_spares hsheltered (hitem id hid)))
    (fun id hid => keeps_onTree_spares
      (Places.keeps_removeFolder_spares hsheltered.upward (hitem id hid)))
    fun id hid => keeps_onTree_spares
      (Places.keeps_removeItem_spares hsheltered.upward (hitem id hid))

/-! ### Marks -/

theorem writes_markOrphan {sort : (Row → Row) → Prop} (id : Int) (parent : Option Int)
    (orphanOf : Option String)
    (hannotate : ∀ value, sort (·.annotate AnnotationName.intendedParent value))
    (hunannotate : sort (·.unannotate AnnotationName.intendedParent)) :
    Places.Writes sort id (markOrphan id parent orphanOf) := by
  cases orphanOf with
  | some guid => exact Places.writes_annotate id (hannotate _)
  | none =>
      rw [markOrphan]
      split
      · exact Places.writes_unannotate id hunannotate
      · exact fun _ => .inl rfl

theorem lasting_markOrphan (id : Int) (parent : Option Int) (orphanOf : Option String) :
    Places.Writes Lasting id (markOrphan id parent orphanOf) :=
  writes_markOrphan id parent orphanOf (Places.lasting_annotate _) (Places.lasting_unannotate _)

theorem keeps_markOrphan_spares (hown : still id → own id) (hfree : free id) (parent : Option Int)
    (orphanOf : Option String) :
    (markOrphan id parent orphanOf).Keeps (Places.Spares still own free tree) :=
  (lasting_markOrphan id parent orphanOf).keeps_of_free (keeps_markOrphan id parent orphanOf) hown
    hfree

/-! ### Any record -/

theorem ensures_localized (record : Record) :
    (localized record).Ensures (Spares still own free tree) fun made =>
      ∃ bmkUri, made = { record with bmkUri } := by
  have hsame : ∃ bmkUri, record = { record with bmkUri } := ⟨record.bmkUri, rfl⟩
  rw [localized]
  split
  · rw [localizeQuery]
    split
    · refine (keeps_onTree_spares (Places.keeps_tagUri_spares _ _)).ensures.bind fun _ _ =>
        (keeps_onTree_spares (keeps_check _ _)).ensures.bind fun folders _ => ?_
      split
      · exact ensures_pure ⟨_, rfl⟩
      · exact ensures_pure hsame
    · exact ensures_pure hsame
  · exact ensures_pure hsame

/-- Items that a record is not about: they are no tags and no contents of tags, each is there with
all above it, and none of them is the record's own. Only above the content of a folder that stays
may there be the item. -/
structure Bears (still : Int → Prop) (tree : Tree) (record : Record) : Prop where
  there : ∀ id, still id → (tree.row? id).isSome
  item : ∀ id row, tree.known? id = some row → row.guid = record.id → ¬ still id
  sheltered : (∀ id row, tree.known? id = some row → row.guid = record.id →
    record.deleted = true ∨ row.typeCode = ItemType.bookmark.code) → Sheltered still tree

/-- Items among which are the one with a GUID and every one that is still to be made. -/
structure Owns (own : Int → Prop) (tree : Tree) (guid : String) : Prop where
  item : ∀ id row, tree.known? id = some row → row.guid = guid → own id
  new : ∀ id, tree.nextId ≤ id → own id

/-- A tree in which nothing but some items need be as it was. -/
def Leaves (still : Int → Prop) (tree : Tree) (store : BookmarkStore) : Prop :=
  Spares still (fun id => ¬ still id) (fun id => ¬ still id) tree store

theorem Spares.trans {store next : BookmarkStore} (h : Spares still own free tree store)
    (hnext : Spares still own free store.tree next) : Spares still own free tree next :=
  Places.Spares.step h hnext.wellFormed hnext.undisturbed hnext.descends

theorem Leaves.trans {store next : BookmarkStore} (h : Leaves still tree store)
    (hnext : Leaves still store.tree next) : Leaves still tree next :=
  Spares.trans h hnext

theorem Leaves.refl {store : BookmarkStore} (h : store.tree.WellFormed)
    (hthere : ∀ id, still id → (store.tree.row? id).isSome) : Leaves still store.tree store :=
  Places.Spares.refl h hthere

section Record

variable {store : BookmarkStore} {record : Record}

/-- What is not written to is what it was. -/
theorem Spares.known?_of_not_own (h : Spares still own own tree store)
    (hnew : ∀ id, tree.nextId ≤ id → own id) {row : Row} (hnot : ¬ own id)
    (hrow : store.tree.known? id = some row) : tree.known? id = some row := by
  rcases h.descends.origin id row hrow with ⟨origin, horigin, hstems⟩ | ⟨hle, -⟩
  · exact hstems.same hnot hnot ▸ horigin
  · exact absurd (hnew id hle) hnot

theorem Owns.own_of_idOfGuid? {guid : String} (h : Owns own tree guid) (hwell : tree.WellFormed)
    (hid : tree.idOfGuid? guid = some id) : own id := by
  obtain ⟨row, hrow, hguid⟩ := hwell.idOfGuid?_iff.mp hid
  exact h.item id row hrow hguid

theorem Owns.of_spares {guid : String} (h : Owns own tree guid)
    (hstore : Spares still own own tree store) : Owns own store.tree guid where
  item := by
    intro id row hrow hguid
    by_contra hnot
    exact hnot (h.item id row (hstore.known?_of_not_own h.new hnot hrow) hguid)
  new := fun id hle => h.new id (hstore.descends.nextId_le.trans hle)

theorem Bears.owns (h : Bears still tree record) (hwell : tree.WellFormed) :
    Owns (fun id => ¬ still id) tree record.id where
  item := h.item
  new := by
    intro id hle hstill
    obtain ⟨row, hrow⟩ := Option.isSome_iff_exists.mp (h.there id hstill)
    exact absurd (hwell.id_bounds id row.unplaced (known?_of_row? hrow)).2 hle.not_gt

theorem spares_update (h : store.tree.WellFormed) (hbears : Bears still store.tree record)
    (howns : Owns own store.tree record.id) (parent : Option Int) :
    Spares still own own store.tree ((update record parent).result store).2 := by
  have hstart : Spares still own own store.tree store := Places.Spares.refl h hbears.there
  cases hid : store.tree.idOfGuid? record.id with
  | none => rwa [result_update_of_none hid]
  | some id =>
      rw [result_update_of_some hid]
      obtain ⟨row, hrow, hguid⟩ := h.idOfGuid?_iff.mp hid
      have hstill := hbears.item id row hrow hguid
      have hown := howns.item id row hrow hguid
      refine Keeps.bind (keeps_optionForM parent fun parent =>
        keeps_updateParent_spares hstill hown parent) (fun _ =>
          keeps_updateFields_spares hown (h.id_bounds id row hrow).2 ?_ record) store hstart
      intro found hfound hbookmark
      refine hbears.sheltered fun other row' hrow' hguid' => .inr ?_
      obtain rfl := h.guid_inj id other row row' hrow hrow' (hguid.trans hguid'.symm)
      rw [Option.some.inj (hrow'.symm.trans hfound)]
      exact hbookmark

theorem spares_bringIn (h : store.tree.WellFormed) (hbears : Bears still store.tree record)
    (howns : Owns own store.tree record.id) (parent : Option Int) :
    Spares still own own store.tree ((bringIn record parent).result store).2 := by
  have hstart : Spares still own own store.tree store := Places.Spares.refl h hbears.there
  cases hdeleted : record.deleted with
  | true =>
      rw [bringIn_of_deleted hdeleted]
      refine spares_remove record (hbears.sheltered fun _ _ _ _ => .inl hdeleted) ?_ hstart
      intro id hid
      obtain ⟨row, hrow, hguid⟩ := h.idOfGuid?_iff.mp hid
      exact hbears.item id row hrow hguid
  | false =>
      cases hid : store.tree.idOfGuid? record.id with
      | some id =>
          rw [result_bringIn_of_some hdeleted hid]
          exact spares_update h hbears howns parent
      | none =>
          rw [result_bringIn_of_none hdeleted hid]
          refine keeps_create_spares (hbears.sheltered ?_)
            (fun id _ hle => ⟨howns.new id hle, howns.new id hle⟩) record parent store hstart
          exact fun id row hrow hguid => absurd hguid (h.idOfGuid?_eq_none_iff.mp hid id row hrow)

theorem spares_settle (h : store.tree.WellFormed)
    (hthere : ∀ id, still id → (store.tree.row? id).isSome)
    (hitem : ∀ id row, store.tree.known? id = some row → row.guid = record.id → ¬ still id)
    (howns : Owns own store.tree record.id) (parent : Option Int) (orphanOf : Option String) :
    Spares still own own store.tree ((settle record.id parent orphanOf).result store).2 := by
  have hstart : Spares still own own store.tree store := Places.Spares.refl h hthere
  cases hid : store.tree.idOfGuid? record.id with
  | none =>
      rw [result_settle_of_none hid]
      exact hstart
  | some id =>
      rw [result_settle_of_some hid]
      obtain ⟨row, hrow, hguid⟩ := h.idOfGuid?_iff.mp hid
      have hstill := hitem id row hrow hguid
      exact keeps_onTree_spares (keeps_markOrphan_spares (fun hid => absurd hid hstill)
        (howns.item id row hrow hguid) parent orphanOf) (store.forget record.id) hstart

theorem spares_takeIn (h : store.tree.WellFormed) (hbears : Bears still store.tree record)
    (howns : Owns own store.tree record.id) (hapart : ∀ id, own id → ¬ still id) :
    Spares still own own store.tree ((takeIn record).result store).2 := by
  have hbring := spares_bringIn h hbears howns (destination store.tree record.parentid).1
  have hnext := howns.of_spares hbring
  rw [result_takeIn, result_bind]
  cases hbrought : (bringIn record (destination store.tree record.parentid).1).result store with
  | mk outcome middle =>
      rw [hbrought] at hbring hnext
      cases outcome with
      | error cause => exact hbring
      | ok value =>
          exact hbring.trans (spares_settle hbring.wellFormed hbring.undisturbed.there
            (fun id row hrow hguid => hapart id (hnext.item id row hrow hguid)) hnext _ _)

theorem kept_localized (record : Record) (h : store.tree.WellFormed) {id : Int} {row : Row}
    (hrow : store.tree.known? id = some row) :
    ((localized record).result store).2.tree.known? id = some row := by
  have hstart : Leaves (fun id => (store.tree.row? id).isSome) store.tree store :=
    Leaves.refl h fun _ hid => hid
  have hkept := (ensures_localized record store hstart).1
  have hthere : (store.tree.row? id).isSome := by
    rw [← isSome_known?, hrow]
    rfl
  exact (hkept.undisturbed.known? id hthere fun hnot => hnot hthere).trans hrow

theorem Leaves.known? {tree : Tree} (h : Leaves still tree store) {id : Int} (hid : still id) :
    store.tree.known? id = tree.known? id :=
  h.undisturbed.known? id hid fun hnot => hnot hid

/-- Applying a record, whatever comes of it, writes to the record's own item and to new ones. -/
theorem spares_applyIncoming (h : store.tree.WellFormed) (hbears : Bears still store.tree record)
    (howns : Owns own store.tree record.id) (hapart : ∀ id, own id → ¬ still id) :
    Spares still own own store.tree ((applyIncoming record).result store).2 := by
  have hstart : Spares still own own store.tree store := Places.Spares.refl h hbears.there
  cases hroot : RootGuid.all.contains record.id with
  | true =>
      rw [applyIncoming, if_pos hroot]
      exact hstart
  | false =>
      obtain ⟨hlocal, hmade⟩ := ensures_localized record store hstart
      have hkept : ∀ id row, store.tree.known? id = some row →
          ((localized record).result store).2.tree.known? id = some row :=
        fun _ _ => kept_localized record h
      -- What stays has kept its name, so none of it has got the record's.
      have hname : ∀ next : BookmarkStore, Spares still own own store.tree next → ∀ id row,
          next.tree.known? id = some row → row.guid = record.id → ¬ still id :=
        fun _ hnext id row hrow hguid => hapart id ((howns.of_spares hnext).item id row hrow hguid)
      cases houtcome : (localized record).result store with
      | mk outcome first =>
          rw [houtcome] at hlocal hmade hkept
          replace hlocal : Spares still own own store.tree first := hlocal
          cases outcome with
          | error cause =>
              rw [result_applyIncoming_of_error hroot houtcome]
              exact hlocal
          | ok made =>
              obtain ⟨bmkUri, rfl⟩ := hmade made rfl
              have hfirst : Bears still first.tree { record with bmkUri } :=
                { there := hlocal.undisturbed.there
                  item := hname first hlocal
                  sheltered := fun hitem => (hbears.sheltered fun id row hrow =>
                    hitem id row (hkept id row hrow)).of_undisturbed hlocal.undisturbed }
              rw [result_applyIncoming_of_ok hroot houtcome, ← result_takeIn]
              exact hlocal.trans (spares_takeIn hlocal.wellFormed hfirst
                (howns.of_spares hlocal) hapart)

theorem leaves_bringIn (h : store.tree.WellFormed) (hbears : Bears still store.tree record)
    (parent : Option Int) : Leaves still store.tree ((bringIn record parent).result store).2 :=
  spares_bringIn h hbears (hbears.owns h) parent

/-- Applying a record, whatever comes of it, leaves alone what the record is not about. -/
theorem leaves_applyIncoming (h : store.tree.WellFormed) (hbears : Bears still store.tree record) :
    Leaves still store.tree ((applyIncoming record).result store).2 :=
  spares_applyIncoming h hbears (hbears.owns h) fun _ hown => hown

end Record

/-! ### Names, folders and marks -/

/-- A tree in which every item has its name, its folder and its mark from the one it was in another
tree, or is new and no orphan. -/
abbrev Inherits (tree : Tree) (store : BookmarkStore) : Prop :=
  Spares (fun _ => False) (fun _ => True) (fun _ => False) tree store

theorem sheltered_none (tree : Tree) : Sheltered (fun _ => False) tree where
  upward := fun _ _ hnone => hnone.elim
  untagged := fun _ hnone => hnone.elim

theorem Inherits.refl {store : BookmarkStore} (h : store.tree.WellFormed) :
    Inherits store.tree store :=
  Places.Spares.refl h fun _ hnone => False.elim hnone

theorem inherits_updateFields {store : BookmarkStore} (h : store.tree.WellFormed)
    (hold : id < store.tree.nextId) (record : Record) :
    Inherits store.tree ((updateFields id record).result store).2 :=
  keeps_updateFields_spares trivial hold (fun _ _ _ => sheltered_none store.tree) record store
    (Inherits.refl h)

/-- Where an item is, as long as it is there. -/
structure Sits (place : Int → Prop) (id : Int) (tree : Tree) : Prop where
  wellFormed : tree.WellFormed
  old : id < tree.nextId
  above : ∀ folder, tree.above? id = some folder → place folder

theorem Sits.of_inherits {place : Int → Prop} {store : BookmarkStore} (h : Sits place id tree)
    (hstore : Inherits tree store) : Sits place id store.tree where
  wellFormed := hstore.wellFormed
  old := h.old.trans_le hstore.descends.nextId_le
  above := by
    intro folder habove
    obtain ⟨row, hrow, hparent⟩ := known?_of_above? habove
    rcases hstore.descends.origin id row hrow with ⟨origin, horigin, hstems⟩ | ⟨hle, -⟩
    · refine h.above folder ((above?_of_known? horigin).trans ?_)
      rw [← (hstems.kept fun hnone => hnone).2.1]
      exact hparent
    · exact absurd h.old hle.not_gt

/-- What writes to an item moves none. -/
theorem keeps_sits_of_writes {place : Int → Prop} {action : TreeAction α} {other : Int}
    (h : Places.Writes Lasting other action) (hwell : action.Keeps Places.WellFormed) :
    action.Keeps fun places => Sits place id places.tree := by
  intro places hsits
  refine ⟨hwell places hsits.wellFormed, ?_, ?_⟩
  · rcases h places with hsame | ⟨change, -, hsame⟩ <;> rw [hsame]
    · exact hsits.old
    · exact hsits.old
  · rcases h places with hsame | ⟨change, hlasting, hsame⟩ <;> rw [hsame]
    · exact hsits.above
    · intro folder habove
      rw [hlasting.toSteady.above?] at habove
      exact hsits.above folder habove

end Spares

end BookmarkStore

end SyncedBookmarks
