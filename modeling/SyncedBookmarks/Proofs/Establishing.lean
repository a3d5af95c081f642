import SyncedBookmarks.Proofs.Anchoring

namespace SyncedBookmarks

/-! An update that comes through leaves its item with all that the record gives it, in the place and
with the tags that it is to have. -/

namespace Action

variable {action : Action σ ε α} {state next : σ} {value : α} {post : α → σ → Prop}

theorem Yields.of_result (h : action.Yields state post)
    (hok : action.result state = (.ok value, next)) : post value next := by
  obtain ⟨found, last, hresult, hpost⟩ := h
  obtain ⟨hvalue, rfl⟩ := Prod.mk.inj (hresult.symm.trans hok)
  exact Except.ok.inj hvalue ▸ hpost

theorem Tries.of_result (h : action.Tries state post)
    (hok : action.result state = (.ok value, next)) : post value next := by
  rcases h with ⟨cause, hresult⟩ | hyields
  · rw [hok] at hresult
    cases hresult
  · exact hyields.of_result hok

end Action

namespace Tree

variable {tree before middle after : Tree} {name uri : String} {id parent : Int} {row last : Row}

theorem WellFormed.outsideTags (h : tree.WellFormed) (houtside : ¬ tree.Below RootId.tags id) :
    tree.OutsideTags (tree.above? id) := by
  intro parent habove
  constructor
  · rintro rfl
    exact houtside (.of_above? h habove (Encloses.refl tree RootId.tags))
  · intro hup
    exact houtside (.of_above? h habove ((Encloses.refl tree RootId.tags).of_above? hup))

theorem outsideTags_of_not_encloses (houtside : ¬ tree.Encloses RootId.tags parent) :
    tree.OutsideTags (some parent) := by
  intro place hplace
  obtain rfl := Option.some.inj hplace
  constructor
  · rintro rfl
    exact houtside (Encloses.refl tree RootId.tags)
  · exact fun hup => houtside ((Encloses.refl tree RootId.tags).of_above? hup)

/-- What a tree has come to while an item that stands in no tag is being written. -/
structure Underway (name : String) (before : Tree) (id : Int) (row : Row) (after : Tree) : Prop where
  onward : Onward name before after
  root : after.IsFolder RootId.tags
  known : after.known? id = some row
  outside : after.OutsideTags row.parent

theorem Underway.wellFormed (h : Underway name before id row after) : after.WellFormed :=
  h.onward.wellFormed

theorem Underway.trans (h : Underway name before id row middle)
    (h' : Underway name middle id last after) : Underway name before id last after :=
  { h' with onward := h.onward.trans h'.onward }

theorem underway_of_beside (h : before.WellFormed) (hbeside : Beside id before after)
    (hroot : after.IsFolder RootId.tags) (hrow : after.known? id = some last)
    (hold : before.OutsideTags (before.above? id)) (hplace : before.OutsideTags last.parent)
    (hname : last.guid = name ∨ (∃ old, before.known? id = some old ∧ old.guid = last.guid) ∨
      (before.nextId ≤ id ∧ ∃ count, last.guid = before.guids.candidate id count)) :
    Underway name before id last after where
  onward := by
    apply hbeside.onward h hold
    · rwa [above?_of_known? hrow]
    · intro row hfound
      exact Option.some.inj (hrow.symm.trans hfound) ▸ hname
  root := hroot
  known := hrow
  outside := by
    intro parent hparent
    obtain ⟨hne, hup⟩ := hplace parent hparent
    have hself : parent ≠ id := by
      rintro rfl
      exact hbeside.wellFormed.not_encloses_parent ((above?_of_known? hrow).trans hparent)
        (Encloses.refl after parent)
    rw [above?_eq_known?, hbeside.known? parent hself, ← above?_eq_known?]
    exact ⟨hne, hup⟩

theorem Underway.recast (h : Underway name before id row middle)
    (hrecast : Recast id last middle after) (hparent : last.parent = row.parent)
    (htype : last.typeCode = row.typeCode) (hguid : last.guid = name ∨ last.guid = row.guid) :
    Underway name before id last after := by
  apply h.trans
  apply underway_of_beside h.wellFormed (.of_recast hrecast) _ hrecast.self
  · rw [above?_of_known? h.known]
    exact h.outside
  · exact hparent ▸ h.outside
  · exact hguid.imp_right fun hsame => .inl ⟨row, h.known, hsame.symm⟩
  · exact hrecast.toRewritten.isFolder h.known htype h.root

/-- No tag has anything to do with such an item. -/
theorem Underway.sameTags (h : Underway name before id row middle)
    (hrecast : Recast id last middle after) (hparent : last.parent = row.parent) (uri : String) :
    SameTags middle after uri := by
  apply sameTags_of_outside hrecast.known?
  · rw [above?_of_known? h.known]
    exact h.outside
  · exact hparent ▸ h.outside

theorem Underway.hasTags (h : Underway name before id row middle)
    (hrecast : Recast id last middle after) (hparent : last.parent = row.parent)
    {tags : List String} (hhas : middle.HasTags uri tags) : after.HasTags uri tags := by
  have hsame := fun uri => (h.sameTags hrecast hparent uri).tagsOf_eq h.wellFormed
    hrecast.wellFormed
  exact ⟨(hsame uri).trans hhas.given, (hsame _).trans hhas.held⟩

theorem underway_of_exchanged (h : before.WellFormed) (hroot : before.IsFolder RootId.tags)
    (hrow : before.known? id = some row) (houtside : before.OutsideTags row.parent)
    (hne : uri ≠ BookmarkStore.lookupUri) {tags : List String}
    (hnext : BookmarkStore.TagsExchanged uri tags before after) :
    Underway name before id row after where
  onward := onward_of_exchanged h hne hnext
  root := BookmarkStore.isFolder_tags_of_retagged h hnext.retagged hroot
  known := hnext.retagged.kept id row hrow (houtside.not_tagOwned hrow)
  outside := by
    intro parent hparent
    obtain ⟨hplace, hup⟩ := houtside parent hparent
    refine ⟨hplace, fun habove => hup ?_⟩
    obtain ⟨found, hfound, -⟩ :=
      h.parent_folder id parent ((above?_of_known? hrow).trans hparent)
    obtain ⟨found', hfound', hparent'⟩ := known?_of_above? habove
    obtain rfl := hnext.retagged.known?_of_old h hfound hfound'
    exact (above?_of_known? hfound).trans hparent'

end Tree

namespace BookmarkStore

open SyncedBookmarks.Action SyncedBookmarks.Tree

/-- Whether a URI is neither of those that are thrown away. -/
def Durable (url : Option String) : Prop :=
  url ≠ some lookupUri ∧ url ≠ some holdingUri

/-- What has come of an item that a record has been brought into, but for its name. -/
structure Brought (store : BookmarkStore) (record : Record) (place : Option Int) (id : Int)
    (row : Row) (next : BookmarkStore) : Prop where
  underway : Underway record.id store.tree id row next.tree
  generators : next.generators = store.generators
  placed : row.parent = (place <|> store.tree.above? id)
  suits : Suits record row.typeCode
  shows : row.Shows store.generators record
  tagged : ∀ uri tags, row.url = some uri → record.tags = some tags →
    uri ≠ holdingUri ∧ next.tree.HasTags uri tags
  generator : record.generatorUri = none → ∀ generator,
    row.annotationOf? AnnotationName.generatorUri = some generator →
      ∃ old, store.tree.known? id = some old ∧ old.guid = record.id ∧
        old.annotationOf? AnnotationName.generatorUri = some generator

variable {store next : BookmarkStore} {record : Record} {place : Option Int} {id : Int} {row : Row}
  {name uri : String} {tags : List String}

theorem generators_of_onTree {action : TreeAction α} {outcome : Except StoreError α}
    (hresult : (onTree action).result store = (outcome, next)) :
    next.generators = store.generators := by
  obtain ⟨-, rfl⟩ := Prod.mk.inj hresult
  rfl

/-- The tags of a URI, if any are given, are replaced while an item is being written. -/
theorem underway_of_replaceTags {before : Tree} (h : Underway name before id row store.tree)
    (huri : validateUri uri = .ok uri) (hdurable : Durable (some uri)) {given : Option (List String)}
    (hok : (given.forM (replaceTags uri)).result store = (.ok (), next)) :
    Underway name before id row next.tree ∧ next.generators = store.generators ∧
      ∀ tags, given = some tags → next.tree.HasTags uri tags := by
  cases given with
  | none =>
      obtain ⟨-, rfl⟩ := Prod.mk.inj hok
      exact ⟨h, rfl, fun _ hgiven => by cases hgiven⟩
  | some tags =>
      have hholding : uri ≠ holdingUri := fun heq => hdurable.2 (congrArg some heq)
      have hlookup : uri ≠ lookupUri := fun heq => hdurable.1 (congrArg some heq)
      obtain ⟨hnext, -, hgenerators⟩ := (leads_replaceTags_exchanged h.wellFormed h.root huri
        hholding tags store rfl).of_result hok
      refine ⟨h.trans (underway_of_exchanged h.wellFormed h.root h.known h.outside hlookup hnext),
        hgenerators, fun other hother => ?_⟩
      exact Option.some.inj hother ▸ hnext.hasTags huri

/-! ### Update -/

theorem underway_of_updateParent (h : store.tree.WellFormed)
    (hroot : store.tree.IsFolder RootId.tags) (hrow : store.tree.known? id = some row)
    (houtside : store.tree.OutsideTags row.parent) {parent : Int}
    (hplace : store.tree.OutsideTags (some parent))
    (hok : (onTree (updateParent id parent)).result store = (.ok (), next)) :
    Underway name store.tree id { row with parent := some parent } next.tree := by
  obtain ⟨-, hmoved⟩ := (tries_updateParent h hrow parent).of_result hok
  have hstill : Spares (fun other => other ≠ id ∧ (store.tree.row? other).isSome) (fun _ => True)
      (fun _ => True) store.tree ((onTree (updateParent id parent)).result store).2 :=
    keeps_updateParent_spares (fun hself => hself.1 rfl) trivial parent store
      (Places.Spares.refl h fun _ hother => hother.2)
  rw [hok] at hstill
  apply underway_of_beside h (.of_undisturbed hmoved hstill.undisturbed)
    (hmoved.isFolder hrow rfl hroot) hmoved.self _ hplace (.inr (.inl ⟨row, hrow, rfl⟩))
  rw [above?_of_known? hrow]
  exact houtside

/-- The item goes to the place that it is told, if any. -/
theorem underway_of_place (h : store.tree.WellFormed)
    (hroot : store.tree.IsFolder RootId.tags) (hrow : store.tree.known? id = some row)
    (houtside : store.tree.OutsideTags row.parent)
    (hplace : ∀ parent, place = some parent → store.tree.OutsideTags (some parent))
    (hok : (place.forM fun parent => onTree (updateParent id parent)).result store =
      (.ok (), next)) :
    Underway name store.tree id { row with parent := place <|> row.parent } next.tree ∧
      next.generators = store.generators := by
  cases place with
  | none =>
      obtain ⟨-, rfl⟩ := Prod.mk.inj hok
      exact ⟨⟨.refl h, hroot, hrow, houtside⟩, rfl⟩
  | some parent =>
      exact ⟨underway_of_updateParent h hroot hrow houtside (hplace parent rfl) hok,
        generators_of_onTree hok⟩

/-- The tags go to the URL that the item has. -/
theorem underway_of_updateTags {before : Tree} (h : Underway name before id row store.tree)
    (hdurable : Durable row.url) {given : Option (List String)}
    (hok : (given.forM (updateTags id)).result store = (.ok (), next)) :
    Underway name before id row next.tree ∧ next.generators = store.generators ∧
      ∀ uri tags, row.url = some uri → given = some tags → next.tree.HasTags uri tags := by
  cases given with
  | none =>
      obtain ⟨-, rfl⟩ := Prod.mk.inj hok
      exact ⟨h, rfl, fun _ _ _ hgiven => by cases hgiven⟩
  | some tags =>
      obtain ⟨url, _, hread, hreplace⟩ := exists_of_result_bind hok
      obtain ⟨hvalue, rfl⟩ := Prod.mk.inj hread
      have hurl : row.url = url := by
        change (store.tree.url? id).mapError _ = _ at hvalue
        rw [h.wellFormed.url? h.known] at hvalue
        exact Except.ok.inj hvalue
      cases url with
      | none =>
          obtain ⟨-, rfl⟩ := Prod.mk.inj hreplace
          exact ⟨h, rfl, fun uri _ huri => by rw [hurl] at huri; cases huri⟩
      | some uri =>
          have hreplaced : ((some tags).forM (replaceTags uri)).result store = (.ok (), next) :=
            hreplace
          obtain ⟨hnext, hgenerators, hhas⟩ := underway_of_replaceTags h
            ((h.wellFormed.sound id row h.known).url_valid uri hurl) (hurl ▸ hdurable) hreplaced
          refine ⟨hnext, hgenerators, fun other tags' hother hgiven => ?_⟩
          obtain rfl := Option.some.inj (hurl.symm.trans hother)
          exact hhas tags' hgiven

/-- What an update has made of an item. -/
theorem brought_of_update (h : store.tree.WellFormed) (hroot : store.tree.IsFolder RootId.tags)
    (hrow : store.tree.known? id = some row) (hguid : row.guid = record.id)
    (houtside : store.tree.OutsideTags row.parent)
    (hplace : ∀ parent, place = some parent → store.tree.OutsideTags (some parent))
    (hurl : Durable row.url) (huri : Durable record.bmkUri)
    (hok : (update record place).result store = (.ok (), next)) :
    ∃ last, Brought store record place id last next ∧ last.guid = record.id := by
  rw [result_update_of_some (h.idOfGuid?_iff.mpr ⟨row, hrow, hguid⟩)] at hok
  obtain ⟨_, moved, hmove, hfields⟩ := exists_of_result_bind hok
  have hmoved : Underway record.id store.tree id _ moved.tree ∧ _ :=
    underway_of_place h hroot hrow houtside hplace hmove
  obtain ⟨hmoved, hmovedSame⟩ := hmoved
  rw [updateFields_eq] at hfields
  obtain ⟨_, inscribed, hinscribe, hrest⟩ := exists_of_result_bind hfields
  obtain ⟨hsuits, hinscribed, hinscribedSame⟩ :=
    (acts_inscribe record).result hmoved.wellFormed hmoved.known hmovedSame hinscribe
  have hwritten := hmoved.recast hinscribed (by simp) (by simp) (.inr (by simp))
  have hdurable : Durable (Row.inscribedBy { row with parent := place <|> row.parent } record).url := by
    rw [Row.inscribedBy_url]
    cases hgiven : record.bmkUri with
    | none => exact hurl
    | some uri => rwa [hgiven] at huri
  obtain ⟨_, tagged, htag, hfurnish⟩ := exists_of_result_bind hrest
  obtain ⟨hreached, htaggedSame, hhas⟩ := underway_of_updateTags hwritten hdurable htag
  obtain ⟨hchecked, hfurnished, hfurnishedSame⟩ := (acts_furnish record).result
    hreached.wellFormed hreached.known (htaggedSame.trans hinscribedSame) hfurnish
  refine ⟨_, ⟨hreached.recast hfurnished (by simp) (by simp) (.inr (by simp)), hfurnishedSame, ?_,
    ?_, Row.shows_furnishedBy _ _ _, ?_, ?_⟩, by simpa using hguid⟩
  · rw [Row.furnishedBy_parent, Row.inscribedBy_parent, above?_of_known? hrow]
  · simp only [Row.furnishedBy_typeCode, Row.inscribedBy_typeCode]
    exact ⟨hsuits, hchecked.1, hchecked.2⟩
  · intro uri tags huri' htags
    rw [Row.furnishedBy_url] at huri'
    refine ⟨fun heq => hdurable.2 (huri'.trans (congrArg some heq)), ?_⟩
    exact hreached.hasTags hfurnished (by simp) (hhas uri tags huri' htags)
  · intro hnone generator hgenerator
    rw [Row.generator_furnishedBy _ _ _ hnone, Row.inscribedBy_annotationOf?] at hgenerator
    exact ⟨row, hrow, hguid, hgenerator⟩

/-! ### The mark of an orphan -/

theorem Brought.settled (h : Brought store record place id row next) (hname : row.guid = record.id)
    {orphanOf : Option String} {last : BookmarkStore}
    (hok : (settle record.id place orphanOf).result next = (.ok (), last)) :
    Underway record.id store.tree id (row.settledBy place orphanOf) last.tree ∧
      last.generators = store.generators ∧ (¬ last.tree.Below RootId.tags id →
        last.Settled record place orphanOf id (row.settledBy place orphanOf)) := by
  have hwell := h.underway.wellFormed
  have hid : next.tree.idOfGuid? record.id = some id :=
    hwell.idOfGuid?_iff.mpr ⟨row, h.underway.known, hname⟩
  rw [result_settle_of_some hid] at hok
  have hforgotten : (next.forget record.id).tree.WellFormed := hwell
  obtain ⟨-, hrecast, hgenerators⟩ := (acts_markOrphan place orphanOf).result hforgotten
    h.underway.known h.generators hok
  have hfields := Row.reannotated_settledBy row place orphanOf
  have hguid : (row.settledBy place orphanOf).guid = row.guid := by rw [hfields]
  have hparent : (row.settledBy place orphanOf).parent = row.parent := by rw [hfields]
  have htype : (row.settledBy place orphanOf).typeCode = row.typeCode := by rw [hfields]
  have hlast := h.underway.recast hrecast hparent htype (.inr hguid)
  refine ⟨hlast, hgenerators, fun houtside => ?_⟩
  constructor
  case wellFormed => exact hlast.wellFormed
  case root => exact hlast.root
  case known => exact hlast.known
  case guid => exact hguid.trans hname
  case outside => exact houtside
  case placed =>
    intro parent hplace
    rw [hparent, h.placed, hplace]
    rfl
  case suits => exact htype ▸ h.suits
  case shows => exact hgenerators ▸ h.shows.settledBy place orphanOf
  case waits => exact Row.waits_settledBy row place orphanOf
  case tagged =>
    intro uri tags huri htags
    rw [hfields.url] at huri
    obtain ⟨hne, hhas⟩ := h.tagged uri tags huri htags
    exact ⟨hne, h.underway.hasTags hrecast hparent hhas⟩

end BookmarkStore

end SyncedBookmarks
