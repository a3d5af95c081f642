import SyncedBookmarks.Proofs.Completing
import SyncedBookmarks.Proofs.OrphanMarks

namespace SyncedBookmarks

/-! Applying a record a second time is not to be seen: what the first time has made of the record's
item, or of the tag that a query names, is found as it should be. -/

namespace Tree

variable {tree : Tree} {guid : String} {id : Int} {row : Row}

theorem known?_of_all (tree : Tree) {p : Row → Bool} (hall : tree.rows.all (p ·.unplaced) = true)
    (hrow : tree.known? id = some row) : p row = true := by
  obtain ⟨found, hfound, rfl⟩ := Option.map_eq_some_iff.mp hrow
  exact List.all_eq_true.mp hall found (List.mem_of_find?_eq_some hfound)

/-- Whether an item is there, outside the tags and not below the one with a GUID. -/
structure Elsewhere (tree : Tree) (guid : String) (id : Int) : Prop where
  there : (tree.row? id).isSome
  untagged : ¬ tree.Below RootId.tags id
  apart : ∀ item, tree.idOfGuid? guid = some item → ¬ tree.Encloses item id

theorem sheltered_elsewhere (h : tree.WellFormed) (guid : String) :
    Sheltered (tree.Elsewhere guid) tree where
  upward := by
    intro id parent hid habove
    have hparent := h.sheltered_outside.upward id parent ⟨hid.there, hid.untagged⟩ habove
    exact ⟨hparent.1, hparent.2, fun item hitem hencloses =>
      hid.apart item hitem (hencloses.of_above? habove)⟩
  untagged := fun id hid => h.sheltered_outside.untagged id ⟨hid.there, hid.untagged⟩

theorem bears_elsewhere (h : tree.WellFormed) (record : Record) :
    BookmarkStore.Bears (tree.Elsewhere record.id) tree record where
  there := fun _ hid => hid.there
  item := fun id row hrow hguid hid =>
    hid.apart id (h.idOfGuid?_iff.mpr ⟨row, hrow, hguid⟩) (Encloses.refl tree id)
  sheltered := fun _ => sheltered_elsewhere h record.id

theorem RootsInPlace.elsewhere (h : tree.RootsInPlace) (hwell : tree.WellFormed)
    (hguid : guid ∉ RootGuid.all) : tree.Elsewhere guid RootId.tags where
  there := by
    obtain ⟨row, hrow, -⟩ := h.named.isFolder_of_mem hwell tags_mem_rootNames
    exact Places.isSome_row?_of_known? hrow
  untagged := fun hbelow => hbelow.2 rfl
  apart := by
    intro item hitem
    obtain ⟨row, hrow, rfl⟩ := hwell.idOfGuid?_iff.mp hitem
    exact h.named.not_encloses hwell tags_mem_rootNames (h.above RootId.tags (by decide)) hrow hguid

theorem RootsInPlace.grown {after : Tree} (h : tree.RootsInPlace) (hgrown : TagsGrown tree after) :
    after.RootsInPlace where
  named := by
    intro id guid hmem
    obtain ⟨row, hrow, hguid⟩ := Option.map_eq_some_iff.mp
      ((guidOf?_eq_known? tree id).symm.trans (h.named id guid hmem))
    rw [guidOf?_eq_known?, hgrown.kept id row hrow, Option.map_some, hguid]
  above := fun id hmem => hgrown.above? (h.above id hmem)

/-- What has a name that is not given to new tags was there before them. -/
theorem TagsGrown.known?_of_never {after : Tree} (h : TagsGrown tree after)
    (hnever : tree.NeverMakes guid) (hrow : after.known? id = some row) (hguid : row.guid = guid) :
    tree.known? id = some row := by
  apply (h.new id row hrow).resolve_right
  intro hnew
  obtain ⟨count, hcount⟩ := hnew.guid
  exact hnever id hnew.nextId_le count (hcount.symm.trans hguid)

/-- An item in a folder that has stayed where it was, outside the tags, is outside them. -/
theorem not_below_of_elsewhere {store : BookmarkStore} (h : tree.WellFormed)
    (hleaves : BookmarkStore.Leaves (tree.Elsewhere guid) tree store)
    (hrow : store.tree.known? id = some row) (houtside : store.tree.OutsideTags row.parent)
    (hparent : ∀ parent, row.parent = some parent → tree.Elsewhere guid parent) :
    ¬ store.tree.Below RootId.tags id := by
  intro hbelow
  rcases hbelow.1.eq_or_above? with heq | ⟨parent, habove, hup⟩
  · exact hbelow.2 heq.symm
  · -- The way up goes through the parent, and from there it is the one that there was.
    have hplace := (above?_of_known? hrow).symm.trans habove
    have hstill := hparent parent hplace
    have hencloses := (sheltered_elsewhere h guid).upward.encloses hleaves.undisturbed hstill hup
    exact hstill.untagged ⟨hencloses, (houtside parent hplace).1⟩

end Tree

namespace Places

open SyncedBookmarks.Action SyncedBookmarks.Tree

variable {places next : Places} {id : Int} {row : Row} {name : String}

theorem onward_of_removeItem (h : places.tree.WellFormed)
    (houtside : ¬ places.tree.Below RootId.tags id) (hroot : ¬ places.tree.Encloses id RootId.tags)
    (hok : (removeItem id).result places = (.ok (), next)) :
    Onward name places.tree next.tree := by
  have horder := keeps_removeItem_of keeps_deleteRow_inOrder id places (.refl places.tree)
  rw [hok] at horder
  exact (cleared_of_removeItem h hok).onward_of_encloses h houtside hroot horder

theorem onward_of_removeFolder (h : places.tree.WellFormed)
    (houtside : ¬ places.tree.Below RootId.tags id) (hroot : ¬ places.tree.Encloses id RootId.tags)
    (hok : (removeFolder id).result places = (.ok (), next)) :
    Onward name places.tree next.tree := by
  have horder := keeps_removeFolder_of keeps_deleteRow_inOrder id places (.refl places.tree)
  rw [hok] at horder
  exact (cleared_of_removeFolder h hok).onward_of_encloses h houtside hroot horder

theorem onward_of_removeBookmark (h : places.tree.WellFormed)
    (hrow : places.tree.known? id = some row) (hurl : row.url ≠ some BookmarkStore.lookupUri)
    (houtside : ¬ places.tree.Below RootId.tags id) (hroot : ¬ places.tree.Encloses id RootId.tags)
    (hok : (BookmarkStore.removeBookmark id).result places = (.ok (), next)) :
    Onward name places.tree next.tree := by
  rw [BookmarkStore.removeBookmark, result_bind, result_checked, h.url? hrow] at hok
  cases hgiven : row.url with
  | none =>
      rw [hgiven] at hok
      exact onward_of_removeItem h houtside hroot hok
  | some uri =>
      rw [hgiven] at hok hurl
      obtain ⟨_, untagged, huntag, hlast⟩ := exists_of_result_bind hok
      have hvalid := (h.sound id row hrow).url_valid uri hgiven
      obtain ⟨hcleared, horder⟩ := (leads_untagUri_inOrder h hvalid none places rfl).of_result huntag
      -- Were it the URI for looking up, folders that queries are pointed at could go with it.
      have hne : uri ≠ BookmarkStore.lookupUri := fun heq => hurl (congrArg some heq)
      apply (hcleared.onward_of_untagged h hne horder).trans
      apply onward_of_removeItem hcleared.wellFormed _ _ hlast
      · exact fun hbelow => houtside ⟨hcleared.encloses hbelow.1, hbelow.2⟩
      · exact fun hencloses => hroot (hcleared.encloses hencloses)

end Places

namespace BookmarkStore

open SyncedBookmarks.Action SyncedBookmarks.Tree

variable {store middle next : BookmarkStore} {tree : Tree} {record made : Record} {id : Int} {row : Row}
  {name : String} {place : Option Int} {orphanOf : Option String}

/-- What a tree and a record have to be for nothing to be seen of the record's being applied again.
The GUIDs of the record and its parent are those of items of the tree or of none, not ones that the
tree is yet to give. -/
structure Repeatable (tree : Tree) (record : Record) : Prop where
  roots : tree.RootsInPlace
  only : tree.OnlyTags
  fields : record.OfKind
  durable : Durable record.bmkUri
  never : tree.NeverMakes record.id
  own : ∀ id row, tree.known? id = some row → row.guid = record.id →
    ¬ tree.Below RootId.tags id ∧ Durable row.url
  parent : ∀ guid, record.parentid = some guid → guid ≠ record.id ∧ tree.NeverMakes guid ∧
    ∀ id, tree.idOfGuid? guid = some id → ¬ tree.Encloses RootId.tags id

theorem Repeatable.of_destination (h : Repeatable tree record) (hwell : tree.WellFormed) {parent : Int}
    (hplace : (destination tree record.parentid).1 = some parent) :
    (tree.row? parent).isSome ∧ ¬ tree.Encloses RootId.tags parent := by
  unfold destination at hplace
  split at hplace
  · rename_i guid hguid
    split at hplace
    · rename_i id hid
      obtain rfl := Option.some.inj hplace
      obtain ⟨row, hrow, -⟩ := hwell.idOfGuid?_iff.mp hid
      exact ⟨Places.isSome_row?_of_known? hrow, (h.parent guid hguid).2.2 id hid⟩
    · obtain rfl := Option.some.inj hplace
      have habove := h.roots.above RootId.unfiled (by decide)
      refine ⟨isSome_row?_of_above? habove, fun hencloses => ?_⟩
      rcases hencloses.eq_or_above? with heq | ⟨place, hup, hplaces⟩
      · exact absurd heq (by decide)
      · obtain rfl := Option.some.inj (habove.symm.trans hup)
        exact hwell.not_encloses_places (by decide) hplaces
  · cases hplace

/-! ### Removal -/

theorem onward_of_remove (h : store.tree.WellFormed) (hrecord : Repeatable store.tree record)
    (hroot : record.id ∉ RootGuid.all) (hok : (remove record).result store = (.ok (), next)) :
    Onward name store.tree next.tree := by
  rw [remove, result_look_bind] at hok
  cases hid : store.tree.idOfGuid? record.id with
  | none =>
      rw [hid] at hok
      obtain ⟨-, rfl⟩ := Prod.mk.inj hok
      exact .refl h
  | some id =>
      rw [hid] at hok
      obtain ⟨row, hrow, hguid⟩ := h.idOfGuid?_iff.mp hid
      obtain ⟨houtside, hdurable⟩ := hrecord.own id row hrow hguid
      have htags := (hrecord.roots.elsewhere h hroot).apart id hid
      obtain ⟨type, _, hlook, hrest⟩ := exists_of_result_bind hok
      obtain ⟨-, rfl⟩ := Prod.mk.inj hlook
      split at hrest
      · exact Places.onward_of_removeBookmark h hrow hdurable.1 houtside htags
          (exists_of_result_onTree hrest)
      · exact Places.onward_of_removeFolder h houtside htags (exists_of_result_onTree hrest)
      · exact Places.onward_of_removeItem h houtside htags (exists_of_result_onTree hrest)
      · obtain ⟨-, rfl⟩ := Prod.mk.inj hrest
        exact .refl h

/-! ### A record that has been made local -/

theorem Pointed.ofKind (h : Pointed record tree made) (hfields : record.OfKind) : made.OfKind := by
  cases h with
  | plain => exact hfields
  | @tag uri _ folder hkind =>
      unfold Record.pointedAt
      cases Query.withFolder? uri folder with
      | none => exact hfields
      | some localized =>
          exact
            { hfields with
              bookmark := fun hother => absurd (by simp [hkind]) hother }

theorem Pointed.durable (h : Pointed record tree made) (hdurable : Durable record.bmkUri) :
    Durable made.bmkUri :=
  ⟨h.bmkUri_ne (by decide) hdurable.1, h.bmkUri_ne (by decide) hdurable.2⟩

/-- Making a record local adds to the tags at most, and so it can still be applied again. -/
theorem Repeatable.localized {after : Tree} (h : Repeatable tree record) (hwell : tree.WellFormed)
    (hgrown : TagsGrown tree after) (honly : after.OnlyTags) (hmade : Pointed record after made) :
    Repeatable after made := by
  have hfields := hmade.ofKind h.fields
  have hdurable := hmade.durable h.durable
  obtain ⟨bmkUri, rfl⟩ := hmade.exists_bmkUri
  constructor
  case roots => exact h.roots.grown hgrown
  case only => exact honly
  case fields => exact hfields
  case durable => exact hdurable
  case never => exact h.never.mono hgrown.guids hgrown.nextId_le
  case own =>
    intro id row hrow hguid
    have hbefore := hgrown.known?_of_never h.never hrow hguid
    obtain ⟨houtside, hurl⟩ := h.own id row hbefore hguid
    exact ⟨fun hbelow => houtside ⟨(hgrown.encloses_iff hwell hbefore).mp hbelow.1, hbelow.2⟩, hurl⟩
  case parent =>
    intro guid hguid
    obtain ⟨hne, hnever, houtside⟩ := h.parent guid hguid
    refine ⟨hne, hnever.mono hgrown.guids hgrown.nextId_le, fun id hid hencloses => ?_⟩
    obtain ⟨row, hrow, hname⟩ := hgrown.wellFormed.idOfGuid?_iff.mp hid
    have hbefore := hgrown.known?_of_never hnever hrow hname
    exact houtside id (hwell.idOfGuid?_iff.mpr ⟨row, hbefore, hname⟩)
      ((hgrown.encloses_iff hwell hbefore).mp hencloses)

/-! ### Bringing in -/

theorem not_encloses_of_update (h : store.tree.WellFormed) (hrow : store.tree.known? id = some row)
    (hguid : row.guid = record.id) {parent : Int}
    (hok : (update record (some parent)).result store = (.ok (), next)) :
    ¬ store.tree.Encloses id parent := by
  obtain ⟨middle, -, hmoved, -⟩ := moved_of_update h hrow hguid hok
  exact ((tries_updateParent h hrow parent).of_result hmoved).1

/-- An item that a record has been brought into is in a folder that is elsewhere. -/
theorem elsewhere_of_update (h : store.tree.WellFormed) (hrow : store.tree.known? id = some row)
    (hguid : row.guid = record.id) (houtside : ¬ store.tree.Below RootId.tags id)
    (hplace : ∀ parent, place = some parent →
      (store.tree.row? parent).isSome ∧ ¬ store.tree.Encloses RootId.tags parent)
    (hok : (update record place).result store = (.ok (), next)) {parent : Int}
    (hparent : (place <|> store.tree.above? id) = some parent) :
    store.tree.Elsewhere record.id parent := by
  have hid : store.tree.idOfGuid? record.id = some id := h.idOfGuid?_iff.mpr ⟨row, hrow, hguid⟩
  have hapart : ¬ store.tree.Encloses id parent → ∀ item,
      store.tree.idOfGuid? record.id = some item → ¬ store.tree.Encloses item parent :=
    fun hnot item hitem => Option.some.inj (hid.symm.trans hitem) ▸ hnot
  cases place with
  | none =>
      obtain ⟨folder, hfolder, -⟩ := h.parent_folder id parent hparent
      exact ⟨Places.isSome_row?_of_known? hfolder,
        fun hbelow => houtside (.of_above? h hparent hbelow.1),
        hapart (h.not_encloses_parent hparent)⟩
  | some given =>
      obtain rfl := Option.some.inj hparent
      obtain ⟨hthere, hencloses⟩ := hplace given rfl
      exact ⟨hthere, fun hbelow => hencloses hbelow.1,
        hapart (not_encloses_of_update h hrow hguid hok)⟩

theorem exists_brought (h : store.tree.WellFormed) (hrecord : Repeatable store.tree record)
    (hdeleted : record.deleted = false) (hplace : ∀ parent, place = some parent →
      (store.tree.row? parent).isSome ∧ ¬ store.tree.Encloses RootId.tags parent)
    (hok : (bringIn record place).result store = (.ok (), next)) :
    (record.kind = .item ∧ store.tree.idOfGuid? record.id = none ∧ next = store) ∨
      ∃ id row, Brought store record place id row next ∧ row.guid = record.id ∧
        ∀ parent, row.parent = some parent → store.tree.Elsewhere record.id parent := by
  have hroot := hrecord.roots.named.isFolder_of_mem h tags_mem_rootNames
  have houter : ∀ parent, place = some parent → store.tree.OutsideTags (some parent) :=
    fun parent hgiven => outsideTags_of_not_encloses (hplace parent hgiven).2
  rcases updated_or_created h hdeleted hok with ⟨id, row, hrow, hguid, hupdated⟩ | ⟨hfree, hcreated⟩
  · obtain ⟨houtside, hurl⟩ := hrecord.own id row hrow hguid
    obtain ⟨last, hbrought, hname⟩ := brought_of_update h hroot hrow hguid
      (above?_of_known? hrow ▸ h.outsideTags houtside) houter hurl hrecord.durable hupdated
    refine .inr ⟨id, last, hbrought, hname, fun parent hparent => ?_⟩
    exact elsewhere_of_update h hrow hguid houtside hplace hupdated (hbrought.placed ▸ hparent)
  · rcases brought_of_create h hroot houter hrecord.fields hrecord.durable hcreated with
      ⟨hkind, hsame⟩ | ⟨id, row, hbrought, hname⟩
    · exact .inl ⟨hkind, hfree, hsame⟩
    · refine .inr ⟨id, row, hbrought, hname, fun parent hparent => ?_⟩
      obtain ⟨given, _, hrequire, -⟩ := exists_of_result_bind hcreated
      obtain ⟨rfl, -⟩ := eq_of_result_require hrequire
      obtain rfl := Option.some.inj (hbrought.placed.symm.trans hparent)
      obtain ⟨hthere, hencloses⟩ := hplace given rfl
      refine ⟨hthere, fun hbelow => hencloses hbelow.1, fun item hitem => ?_⟩
      rw [hfree] at hitem
      cases hitem

theorem leaves_settle (hleaves : Leaves (store.tree.Elsewhere record.id) store.tree middle)
    (h : store.tree.WellFormed) (hok : (settle record.id place orphanOf).result middle = (.ok (), next)) :
    Leaves (store.tree.Elsewhere record.id) store.tree next := by
  have howns := ((bears_elsewhere h record).owns h).of_spares hleaves
  have hsettled : Leaves (store.tree.Elsewhere record.id) middle.tree
      ((settle record.id place orphanOf).result middle).2 :=
    spares_settle hleaves.wellFormed hleaves.undisturbed.there howns.item howns place orphanOf
  rw [hok] at hsettled
  exact hleaves.trans hsettled

/-! ### Taking in -/

theorem yields_takeIn_of_deleted (hdeleted : record.deleted = true)
    (hfree : store.tree.idOfGuid? record.id = none) :
    (takeIn record).Yields store fun _ next => next.tree = store.tree := by
  refine ⟨(), store.forget record.id, ?_, rfl⟩
  have hremove : (remove record).result store = (.ok (), store) := by
    rw [remove, result_look_bind, hfree]
    rfl
  rw [result_takeIn, bringIn_of_deleted hdeleted, result_bind, hremove]
  exact result_settle_of_none hfree _ _

/-- Of a record without a kind nothing is made. -/
theorem yields_takeIn_of_item (hkind : record.kind = .item) (hdeleted : record.deleted = false)
    (hfree : store.tree.idOfGuid? record.id = none) {parent : Int}
    (hplace : (destination store.tree record.parentid).1 = some parent) :
    (takeIn record).Yields store fun _ next => next.tree = store.tree := by
  refine ⟨(), store.forget record.id, ?_, rfl⟩
  have hcreate : (create record (some parent)).result store = (.ok (), store) := by
    simp only [create, createItem, hkind, require, result_bind, result_pure]
  rw [result_takeIn, hplace, result_bind, result_bringIn_of_none hdeleted hfree, hcreate]
  exact result_settle_of_none hfree _ _

/-- What a record that has been taken in leaves for the next time. -/
structure Taken (record : Record) (store next : BookmarkStore) : Prop where
  onward : Onward record.id store.tree next.tree
  root : next.tree.IsFolder RootId.tags
  again : ∀ other : BookmarkStore, other.tree = next.tree → other.generators = next.generators →
    (takeIn record).Yields other fun _ last => next.tree.Same last.tree

theorem Repeatable.destination_eq (hrecord : Repeatable store.tree record)
    (h : store.tree.WellFormed) (honward : Onward record.id store.tree next.tree)
    (hleaves : Leaves (store.tree.Elsewhere record.id) store.tree next)
    (hplace : ∀ parent, (destination store.tree record.parentid).1 = some parent →
      store.tree.Elsewhere record.id parent) :
    destination next.tree record.parentid = destination store.tree record.parentid := by
  cases hparent : record.parentid with
  | none => rfl
  | some guid =>
      obtain ⟨hne, hnever, -⟩ := hrecord.parent guid hparent
      rw [hparent] at hplace
      cases hid : store.tree.idOfGuid? guid with
      | none => simp only [destination, hid, honward.free guid hne hnever hid]
      | some parent =>
          obtain ⟨row, hrow, hname⟩ := h.idOfGuid?_iff.mp hid
          have hstill := hplace parent (by rw [destination_of_known hid])
          have hkept : next.tree.idOfGuid? guid = some parent :=
            honward.wellFormed.idOfGuid?_iff.mpr ⟨row, (hleaves.known? hstill).trans hrow, hname⟩
          rw [destination_of_known hid, destination_of_known hkept]

theorem Settled.congr (h : store.Settled record place orphanOf id row)
    (htree : next.tree = store.tree) (hgenerators : next.generators = store.generators) :
    next.Settled record place orphanOf id row := by
  constructor
  case wellFormed => exact htree ▸ h.wellFormed
  case root => exact htree ▸ h.root
  case known => exact htree ▸ h.known
  case guid => exact h.guid
  case outside => exact htree ▸ h.outside
  case placed => exact h.placed
  case suits => exact h.suits
  case shows => exact hgenerators ▸ h.shows
  case waits => exact h.waits
  case tagged => exact htree ▸ h.tagged

/-! ### What is left for the next time -/

theorem Repeatable.taken_of_deleted (hrecord : Repeatable store.tree record)
    (h : store.tree.WellFormed) (hroot : record.id ∉ RootGuid.all) (hdeleted : record.deleted = true)
    (htags : next.tree.IsFolder RootId.tags)
    (hbring : (bringIn record place).result store = (.ok (), middle))
    (hsettle : (settle record.id place orphanOf).result middle = (.ok (), next)) :
    Taken record store next := by
  rw [bringIn_of_deleted hdeleted] at hbring
  have hfree := free_of_remove h hbring
  have honward : Onward record.id store.tree middle.tree :=
    onward_of_remove h hrecord hroot hbring
  rw [result_settle_of_none hfree] at hsettle
  obtain ⟨-, rfl⟩ := Prod.mk.inj hsettle
  refine ⟨honward, htags, fun other htree _ => ?_⟩
  -- With its GUID free, the record has nothing to delete, wherever it says the item was.
  apply (yields_takeIn_of_deleted hdeleted (htree ▸ hfree)).imp
  intro _ last hlast
  exact (hlast.trans htree) ▸ Same.refl _

theorem taken_of_item (h : store.tree.WellFormed) (hkind : record.kind = .item)
    (hdeleted : record.deleted = false) (hfree : store.tree.idOfGuid? record.id = none)
    (htags : next.tree.IsFolder RootId.tags)
    (hbring : (bringIn record (destination store.tree record.parentid).1).result store =
      (.ok (), middle))
    (hsettle : (settle record.id place orphanOf).result store = (.ok (), next)) :
    Taken record store next := by
  rw [result_settle_of_none hfree] at hsettle
  obtain ⟨-, rfl⟩ := Prod.mk.inj hsettle
  rw [result_bringIn_of_none hdeleted hfree] at hbring
  obtain ⟨parent, _, hrequire, -⟩ := exists_of_result_bind hbring
  obtain ⟨hplace, -⟩ := eq_of_result_require hrequire
  refine ⟨.refl h, htags, fun other htree _ => ?_⟩
  apply (yields_takeIn_of_item hkind hdeleted (htree ▸ hfree) (htree ▸ hplace)).imp
  intro _ last hlast
  exact (hlast.trans htree) ▸ Same.refl _

theorem Repeatable.taken_of_brought (hrecord : Repeatable store.tree record)
    (h : store.tree.WellFormed) (hdeleted : record.deleted = false)
    (hleaves : Leaves (store.tree.Elsewhere record.id) store.tree next)
    (htags : next.tree.IsFolder RootId.tags)
    (hbrought : Brought store record (destination store.tree record.parentid).1 id row middle)
    (hname : row.guid = record.id)
    (helsewhere : ∀ parent, row.parent = some parent → store.tree.Elsewhere record.id parent)
    (hsettle : (settle record.id (destination store.tree record.parentid).1
      (destination store.tree record.parentid).2).result middle = (.ok (), next)) :
    Taken record store next := by
  obtain ⟨hunderway, -, hsettled⟩ := hbrought.settled hname hsettle
  have hparent : (row.settledBy (destination store.tree record.parentid).1
      (destination store.tree record.parentid).2).parent = row.parent := by
    rw [Row.reannotated_settledBy]
  have houtside := not_below_of_elsewhere h hleaves hunderway.known hunderway.outside
    (hparent ▸ helsewhere)
  have hsame := hrecord.destination_eq h hunderway.onward hleaves fun parent hplace =>
    helsewhere parent (by rw [hbrought.placed, hplace]; rfl)
  refine ⟨hunderway.onward, htags, fun other htree hgenerators => ?_⟩
  -- Whether the item was new or not, this time it is updated, with what it has already.
  unfold Yields
  rw [result_takeIn, htree, hsame, ← htree]
  exact ((hsettled houtside).congr htree hgenerators).yields_again hdeleted

theorem Repeatable.taken (hrecord : Repeatable store.tree record) (h : store.tree.WellFormed)
    (hroot : record.id ∉ RootGuid.all) (hok : (takeIn record).result store = (.ok (), next)) :
    Taken record store next := by
  rw [result_takeIn] at hok
  obtain ⟨_, middle, hbring, hsettle⟩ := exists_of_result_bind hok
  have hmiddle := leaves_bringIn h (bears_elsewhere h record)
    (destination store.tree record.parentid).1
  rw [hbring] at hmiddle
  have hleaves := leaves_settle hmiddle h hsettle
  have htags : next.tree.IsFolder RootId.tags := by
    obtain ⟨row, hrow, hcode⟩ := hrecord.roots.named.isFolder_of_mem h tags_mem_rootNames
    exact ⟨row, (hleaves.known? (hrecord.roots.elsewhere h hroot)).trans hrow, hcode⟩
  cases hdeleted : record.deleted with
  | true => exact hrecord.taken_of_deleted h hroot hdeleted htags hbring hsettle
  | false =>
      rcases exists_brought h hrecord hdeleted (fun parent => hrecord.of_destination h) hbring with
        ⟨hkind, hfree, rfl⟩ | ⟨id, row, hbrought, hname, helsewhere⟩
      · exact taken_of_item h hkind hdeleted hfree htags hbring hsettle
      · exact hrecord.taken_of_brought h hdeleted hleaves htags hbrought hname helsewhere hsettle

/-- Applying a record that comes through once more comes through, and nothing is to be seen of it. -/
theorem applyIncoming_idempotent (h : store.Reachable) (hrecord : Repeatable store.tree record)
    (hnamed : record.kind = .query → record.folderName ≠ some "")
    (hok : (applyIncoming record).result store = (.ok (), next)) :
    ∃ last, (applyIncoming record).result next = (.ok (), last) ∧ next.tree.Same last.tree := by
  have hwell := h.wellFormed.tree
  cases hroot : RootGuid.all.contains record.id with
  | true =>
      have hnothing : applyIncoming record = pure () := by rw [applyIncoming, if_pos hroot]
      rw [hnothing]
      exact ⟨next, rfl, Same.refl next.tree⟩
  | false =>
      have hname : record.id ∉ RootGuid.all := by simpa using hroot
      have heq : applyIncoming record = (localized record >>= takeIn) := applyIncoming_eq hroot
      rw [heq] at hok ⊢
      obtain ⟨made, first, hlocal, htaken⟩ := exists_of_result_bind hok
      have htags := hrecord.roots.named.isFolder_of_mem hwell tags_mem_rootNames
      obtain ⟨⟨⟨hgrown, honly⟩, hpointed⟩, -⟩ := (leads_localized_pointed hwell htags hrecord.only
        hnamed store rfl).of_result hlocal
      have hmade := hrecord.localized hwell hgrown honly hpointed
      have hid : made.id = record.id := by
        obtain ⟨bmkUri, rfl⟩ := hpointed.exists_bmkUri
        rfl
      have hnext := hmade.taken hgrown.wellFormed (hid ▸ hname) htaken
      -- The folder of the tag is there still, so the query is pointed at it again.
      have hagain := (hpointed.onward hnext.onward).leads_again hnext.onward.wellFormed hnext.root
        (hnext.onward.only honly)
      have hyields : (localized record >>= takeIn).Yields next fun _ last =>
          next.tree.Same last.tree := by
        apply Yields.bind (hagain next rfl)
        intro found other hother
        obtain ⟨⟨rfl, htree⟩, -, hgenerators⟩ := hother
        exact hnext.again other htree hgenerators
      obtain ⟨_, last, hresult, hlast⟩ := hyields
      exact ⟨last, hresult, hlast⟩

/-- A query for the bookmarks with a tag. -/
def taggedQuery (tag : String) (tags : Option (List String)) : Record :=
  { id := "q", parentid := some "menu", kind := .query, bmkUri := some "place:folder=42", tags
    folderName := some tag }

theorem reachable_untitledStore : untitledStore.Reachable :=
  ⟨.numbered, none, _, rfl⟩

theorem free_untitledStore : untitledStore.tree.idOfGuid? "q" = none := by cbv

theorem repeatable_taggedQuery (tag : String) (tags : Option (List String)) :
    Repeatable untitledStore.tree (taggedQuery tag tags) := by
  have hwell := reachable_untitledStore.wellFormed.tree
  constructor
  case roots => exact rootsInPlace_of_all (by cbv) (by cbv)
  case only =>
    intro id row hrow hparent
    have hcode := known?_of_all untitledStore.tree (p := fun row =>
      row.parent != some RootId.tags || row.typeCode == ItemType.folder.code) (by cbv) hrow
    simpa [hparent] using hcode
  case fields => constructor <;> simp [taggedQuery]
  case durable => constructor <;> simp [taggedQuery, lookupUri, holdingUri]
  case never => exact neverMakes_of_numbered (by cbv) (by simp [taggedQuery])
  case own =>
    intro id row hrow hguid
    exact absurd hguid (hwell.idOfGuid?_eq_none_iff.mp free_untitledStore id row hrow)
  case parent =>
    intro guid hguid
    obtain rfl := Option.some.inj hguid
    have hmenu : untitledStore.tree.idOfGuid? "menu" = some RootId.menu := by cbv
    refine ⟨by simp [taggedQuery], neverMakes_of_numbered (by cbv) (by decide), fun id hid => ?_⟩
    obtain rfl := Option.some.inj (hmenu.symm.trans hid)
    exact hwell.not_encloses_of_isWithin (by cbv)

theorem query_applied_again : ∃ next last,
    (applyIncoming (taggedQuery "x" none)).result untitledStore = (.ok (), next) ∧
      (applyIncoming (taggedQuery "x" none)).result next = (.ok (), last) ∧
      next.tree.Same last.tree := by
  have hok : ((applyIncoming (taggedQuery "x" none)).result untitledStore).1 = .ok () := by cbv
  cases hresult : (applyIncoming (taggedQuery "x" none)).result untitledStore with
  | mk outcome next =>
      rw [hresult] at hok
      subst hok
      obtain ⟨last, hagain, hlast⟩ := applyIncoming_idempotent reachable_untitledStore
        (repeatable_taggedQuery "x" none) (by simp [taggedQuery]) hresult
      exact ⟨next, last, rfl, hagain, hlast⟩

/-- A query that names no tag is pointed at a folder without a title, which goes as an empty one as
soon as the query has its tags. -/
theorem nameless_query_differs :
    ¬ ∀ (store next : BookmarkStore) (record : Record), store.Reachable →
      Repeatable store.tree record → store.tree.idOfGuid? record.id = none →
      (∀ id row, store.tree.known? id = some row → Durable row.url) →
        (applyIncoming record).result store = (.ok (), next) →
          ∃ last, (applyIncoming record).result next = (.ok (), last) ∧
            next.tree.Same last.tree := by
  intro hsame
  have hdurable : ∀ id row, untitledStore.tree.known? id = some row → Durable row.url := by
    intro id row hrow
    have hurl := known?_of_all untitledStore.tree (p := (·.url == none)) (by cbv) hrow
    rw [eq_of_beq hurl]
    constructor <;> simp
  have hok : ((applyIncoming (taggedQuery "" (some []))).result untitledStore).1 = .ok () := by cbv
  have hurl : (((applyIncoming (taggedQuery "" (some []))).result untitledStore).2.tree.known?
      7).map (·.url) = some (some "place:folder=6") := by cbv
  have hagain : (((applyIncoming (taggedQuery "" (some []))).result
      ((applyIncoming (taggedQuery "" (some []))).result untitledStore).2).2.tree.known? 7).map
        (·.url) = some (some "place:folder=42") := by cbv
  have hwithin : ((applyIncoming (taggedQuery "" (some []))).result
      untitledStore).2.tree.isWithin 7 RootId.tags = .ok false := by cbv
  have hwell := keeps_applyIncoming (taggedQuery "" (some [])) untitledStore
    reachable_untitledStore.wellFormed
  cases hresult : (applyIncoming (taggedQuery "" (some []))).result untitledStore with
  | mk outcome next =>
      rw [hresult] at hok hurl hagain hwithin hwell
      subst hok
      obtain ⟨last, hlast, hlook⟩ := hsame untitledStore next _ reachable_untitledStore
        (repeatable_taggedQuery "" (some [])) free_untitledStore hdurable hresult
      rw [hlast] at hagain
      obtain ⟨row, hrow, hfirst⟩ := Option.map_eq_some_iff.mp hurl
      obtain ⟨row', hrow', hsecond⟩ := Option.map_eq_some_iff.mp hagain
      have houtside : ¬ next.tree.Below RootId.tags 7 := fun hbelow =>
        hwell.tree.not_encloses_of_isWithin hwithin hbelow.1
      have heq := (hlook.rows 7 row row' hrow houtside hrow').url
      rw [hfirst, hsecond] at heq
      exact absurd heq (by decide)

end BookmarkStore

end SyncedBookmarks
