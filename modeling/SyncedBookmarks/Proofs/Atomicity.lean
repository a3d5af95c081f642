import SyncedBookmarks.Proofs.Gathering

namespace SyncedBookmarks

/-! A record that cannot be applied. The steps that may fail are checks that stand before every
change, as long as the record's fields fit its item; a field that does not fit fails after others
have been written, and those stay. -/

namespace Action

variable {σ τ ε ε' α β : Type}

/-- A step that fails before it has changed anything. -/
def Refuses (action : Action σ ε α) (state : σ) : Prop :=
  ∃ cause, action.result state = (.error cause, state)

/-- A step that gets through, or fails before it has changed anything. -/
def Tries (action : Action σ ε α) (state : σ) (post : α → σ → Prop) : Prop :=
  action.Refuses state ∨ action.Yields state post

theorem refuses_throw (cause : ε) (state : σ) : (throw cause : Action σ ε α).Refuses state :=
  ⟨cause, rfl⟩

theorem Refuses.bind {action : Action σ ε α} {state : σ} (h : action.Refuses state)
    (next : α → Action σ ε β) : (action >>= next).Refuses state := by
  obtain ⟨cause, hresult⟩ := h
  exact ⟨cause, by rw [result_bind, hresult]⟩

theorem Refuses.within {part : τ → σ} {put : σ → τ → τ} {wrap : ε → ε'} {action : Action σ ε α}
    {state : τ} (h : action.Refuses (part state)) (hput : put (part state) state = state) :
    (action.within part put wrap).Refuses state := by
  obtain ⟨cause, hresult⟩ := h
  exact ⟨wrap cause, by rw [result_within, hresult, hput]; rfl⟩

section Tries

variable {action : Action σ ε α} {state : σ} {post : α → σ → Prop}

/-- After its first change, nothing that a step does may fail. -/
theorem Tries.bind {next : α → Action σ ε β} {last : β → σ → Prop} (h : action.Tries state post)
    (hnext : ∀ value state, post value state → (next value).Yields state last) :
    (action >>= next).Tries state last :=
  Or.imp (·.bind next) (·.bind hnext) h

theorem Tries.imp {post' : α → σ → Prop} (h : action.Tries state post)
    (himp : ∀ value state, post value state → post' value state) : action.Tries state post' :=
  Or.imp_right (·.imp himp) h

theorem Tries.map {post : β → σ → Prop} (f : α → β)
    (h : action.Tries state fun value next => post (f value) next) :
    (f <$> action).Tries state post := by
  rw [show f <$> action = action >>= fun value => pure (f value) from map_eq_pure_bind f action]
  exact h.bind fun _ _ hpost => yields_pure hpost

theorem tries_check_bind {view : σ → Except ε α} {next : α → Action σ ε β} {post : β → σ → Prop}
    (h : ∀ value, view state = .ok value → (next value).Tries state post) :
    (check view >>= next).Tries state post := by
  cases hview : view state with
  | error cause => exact .inl ⟨cause, by rw [result_bind, result_check, hview]⟩
  | ok value =>
      have hresult : (check view >>= next).result state = (next value).result state := by
        rw [result_bind, result_check, hview]
      rw [Tries, Refuses, Yields, hresult]
      exact h value hview

theorem Tries.within {part : τ → σ} {put : σ → τ → τ} {wrap : ε → ε'} {state : τ}
    {last : α → τ → Prop} (h : action.Tries (part state) post)
    (hput : put (part state) state = state)
    (hlast : ∀ value next, post value next → last value (put next state)) :
    (action.within part put wrap).Tries state last :=
  Or.imp (·.within hput) (·.within hlast) h

theorem Tries.unchanged (h : action.Tries state post) {cause : ε}
    (herror : (action.result state).1 = .error cause) : (action.result state).2 = state := by
  obtain ⟨cause, hresult⟩ | ⟨value, next, hresult, -⟩ := h
  · rw [hresult]
  · rw [hresult] at herror
    cases herror

end Tries

end Action

namespace Tree

section Free

variable {before after : Tree} {guid : String}

theorem free_inserted (h : before.WellFormed) {parent index : Int} {type : ItemType}
    {title url : Option String}
    (hwell : (before.inserted parent index type title url).WellFormed)
    (hfree : before.idOfGuid? guid = none) (hnever : before.NeverMakes guid) :
    (before.inserted parent index type title url).idOfGuid? guid = none := by
  rw [hwell.idOfGuid?_eq_none_iff]
  intro id row hrow
  rw [h.known?_inserted] at hrow
  split at hrow
  · obtain rfl := Option.some.inj hrow
    obtain ⟨count, hcount⟩ := before.exists_freshGuid_eq
    exact fun heq => hnever before.nextId le_rfl count (hcount.symm.trans heq)
  · exact h.idOfGuid?_eq_none_iff.mp hfree id row hrow

theorem Retagged.free (h : Retagged before after) (hwell : before.WellFormed)
    (hfree : before.idOfGuid? guid = none) (hnever : before.NeverMakes guid) :
    after.idOfGuid? guid = none := by
  rw [h.wellFormed.idOfGuid?_eq_none_iff]
  intro id row hrow
  rcases h.new id row hrow with hold | hnew
  · exact hwell.idOfGuid?_eq_none_iff.mp hfree id row hold
  · obtain ⟨count, hcount⟩ := hnew.guid
    exact fun heq => hnever id hnew.nextId_le count (hcount.symm.trans heq)

end Free

end Tree

namespace BookmarkStore

open SyncedBookmarks.Action SyncedBookmarks.Tree

variable {store : BookmarkStore} {id : Int} {row : Row}

theorem tries_onTree {action : TreeAction α} {post : α → Places → Prop}
    {last : α → BookmarkStore → Prop} (h : action.Tries store.places post)
    (hlast : ∀ value next, post value next → last value { store with places := next }) :
    (onTree action).Tries store last :=
  h.within rfl hlast

theorem tries_look_bind {view : Tree → α} {next : α → StoreAction β} {post : β → BookmarkStore → Prop}
    (h : (next (view store.tree)).Tries store post) : (look view >>= next).Tries store post :=
  h

theorem Leads.tries {action : StoreAction α} {post : α → Tree → Prop}
    (h : Leads action store.tree post) : action.Tries store fun value next => post value next.tree :=
  .inr ((h store rfl).imp fun _ _ hpost => hpost.1)

/-! ### Steps on one item -/

/-- A step that writes to one item and cannot fail. GUID, type and parent of the item stay. -/
def Touches (id : Int) (action : StoreAction Unit) : Prop :=
  ∀ (tree : Tree) (row : Row), tree.WellFormed → tree.known? id = some row →
    Leads action tree fun _ next => ∃ last : Row, Rewritten id last tree next ∧
      last.guid = row.guid ∧ last.typeCode = row.typeCode ∧ last.parent = row.parent

theorem touches_pure (id : Int) : Touches id (pure ()) :=
  fun _ row hwell hrow => leads_pure ⟨row, Rewritten.refl hwell hrow, rfl, rfl, rfl⟩

theorem Touches.bind {action next : StoreAction Unit} (haction : Touches id action)
    (hnext : Touches id next) : Touches id (action >>= fun _ => next) := by
  intro tree row hwell hrow
  refine (haction tree row hwell hrow).bind ?_
  rintro - after ⟨middle, hafter, hguid, htype, hparent⟩
  refine (hnext after middle hafter.wellFormed hafter.self).imp ?_
  rintro - last ⟨final, hlast, hguid', htype', hparent'⟩
  exact ⟨final, hafter.trans hlast, hguid'.trans hguid, htype'.trans htype, hparent'.trans hparent⟩

theorem touches_forM {step : α → StoreAction Unit} (value : Option α)
    (hstep : ∀ x, value = some x → Touches id (step x)) : Touches id (value.forM step) := by
  cases value with
  | none => exact touches_pure id
  | some x => exact hstep x rfl

theorem touches_setTitle (id : Int) (title : String) :
    Touches id (onTree (Places.setTitle id title)) :=
  fun _ _ hwell hrow => (leads_onTree (Places.rewrites_setTitle hwell hrow title)).imp
    fun _ _ hnext => ⟨_, hnext, rfl, rfl, rfl⟩

theorem touches_setKeyword (id : Int) (keyword : Option String) :
    Touches id (onTree (Places.setKeyword id keyword)) :=
  fun _ _ hwell hrow => (leads_onTree (Places.rewrites_setKeyword hwell hrow keyword)).imp
    fun _ _ hnext => ⟨_, hnext, rfl, rfl, rfl⟩

theorem touches_annotate (id : Int) (name value : String) :
    Touches id (onTree (Places.annotate id name value)) :=
  fun _ _ hwell hrow => (leads_onTree (Places.rewrites_annotate hwell hrow name value)).imp
    fun _ _ hnext => ⟨_, hnext, rfl, rfl, rfl⟩

theorem touches_unannotate (id : Int) (name : String) :
    Touches id (onTree (Places.unannotate id name)) :=
  fun _ _ hwell hrow => (leads_onTree (Places.rewrites_unannotate hwell hrow name)).imp
    fun _ _ hnext => ⟨_, hnext, rfl, rfl, rfl⟩

theorem touches_updateDescription (id : Int) (description : String) :
    Touches id (onTree (updateDescription id description)) := by
  rw [updateDescription]
  split
  · exact touches_unannotate id _
  · exact touches_annotate id _ _

theorem touches_updateSidebar (id : Int) (load : Bool) :
    Touches id (onTree (updateSidebar id load)) := by
  rw [updateSidebar]
  split
  · exact touches_annotate id _ _
  · exact touches_unannotate id _

theorem touches_setSite (id : Int) {uri : String} (huri : validateUri uri = .ok uri) :
    Touches id (onTree (Places.setSite id uri)) :=
  fun _ _ hwell hrow => (leads_onTree (Places.leads_check_bind huri
    (Places.rewrites_annotate hwell hrow _ uri))).imp fun _ _ hnext => ⟨_, hnext, rfl, rfl, rfl⟩

theorem touches_setFeed (id : Int) {uri : String} (huri : validateUri uri = .ok uri) :
    Touches id (onTree (Places.setFeed id uri)) :=
  fun _ _ hwell hrow => (leads_onTree (Places.leads_check_bind huri
    (Places.rewrites_annotate hwell hrow _ uri))).imp fun _ _ hnext => ⟨_, hnext, rfl, rfl, rfl⟩

/-- A generator that is not installed is no failure. -/
theorem touches_tryGenerator (id : Int) (generator : String) :
    Touches id (tryGenerator id generator) := by
  rintro tree row hwell hrow store rfl
  have hsame : ∃ last : Row, Rewritten id last store.tree store.tree ∧ last.guid = row.guid ∧
      last.typeCode = row.typeCode ∧ last.parent = row.parent :=
    ⟨row, Rewritten.refl hwell hrow, rfl, rfl, rfl⟩
  cases hinstalled : store.generators with
  | none =>
      refine ⟨(), store, ?_, hsame, rfl, hinstalled⟩
      simp only [tryGenerator, bindGenerator, result_bind, result_attempt, result_read, hinstalled,
        result_pure]
  | some installed =>
      by_cases hmem : installed.contains generator = true
      · obtain ⟨value, next, hresult, htouched, hcache, hgenerators⟩ :=
          touches_annotate id AnnotationName.generatorUri generator store.tree row hwell hrow store
            rfl
        refine ⟨(), next, ?_, htouched, hcache, hgenerators.trans hinstalled⟩
        simp only [tryGenerator, bindGenerator, result_bind, result_attempt, result_read,
          hinstalled, if_pos hmem, hresult, result_pure]
      · refine ⟨(), store, ?_, hsame, rfl, hinstalled⟩
        simp only [tryGenerator, bindGenerator, result_bind, result_attempt, result_read,
          hinstalled, if_neg hmem, result_throw, result_pure]

theorem touches_updateGenerator (id : Int) (generator : String) :
    Touches id (updateGenerator id generator) := by
  intro tree row hwell hrow
  refine leads_look_bind ?_
  split
  · exact touches_tryGenerator id generator tree row hwell hrow
  · exact touches_pure id tree row hwell hrow

theorem touches_fillSummary (id : Int) (record : Record) : Touches id (fillSummary id record) := by
  rw [fillSummary]
  split
  · exact (touches_annotate id _ _).bind
      (touches_forM _ fun generator _ => touches_tryGenerator id generator)
  · exact touches_pure id

/-! ### Update -/

/-- What keeps the update of an item from failing halfway, with the place where the item then
lies. -/
structure Takes (tree : Tree) (row : Row) (record : Record) (place : Option Int) : Prop where
  uri : ∀ uri, record.bmkUri = some uri →
    row.typeCode = ItemType.bookmark.code ∧ validateUri uri = .ok uri
  tags : ∀ tags, record.tags = some tags →
    (tags.filter (!·.isEmpty) = [] ∨ tree.IsFolder RootId.tags) ∧ tree.OutsideTags place
  site : ∀ uri, record.siteUri = some uri → validateUri uri = .ok uri
  feed : ∀ uri, record.feedUri = some uri → validateUri uri = .ok uri

/-- A move that is not possible is refused at once. -/
theorem tries_updateParent (h : store.tree.WellFormed) (hrow : store.tree.known? id = some row)
    (parent : Int) : (onTree (updateParent id parent)).Tries store fun _ next =>
      ¬ store.tree.Encloses id parent ∧
        Rewritten id { row with parent := some parent } store.tree next.tree := by
  by_cases hplace : store.tree.IsFolder parent ∧ ¬ store.tree.Encloses id parent
  · exact (leads_onTree (rewrites_updateParent h hrow hplace.1 hplace.2)).tries.imp
      fun _ _ hnext => ⟨hplace.2, hnext⟩
  have hmoves : row.parent ≠ some parent := by
    intro heq
    have habove := (above?_of_known? hrow).trans heq
    exact hplace ⟨h.parent_folder id parent habove, h.not_encloses_parent habove⟩
  have hnot : ∀ found, store.places.tree.row? id = some found →
      store.places.tree.IsFolder parent → store.places.tree.Encloses id parent :=
    fun _ _ hfolder => by_contra fun houtside => hplace ⟨hfolder, houtside⟩
  obtain ⟨cause, hmove⟩ := Places.result_moveItem_of_not h hnot Places.atEnd
  have hparent : store.places.tree.parentOf? id = .ok row.parent :=
    (h.parentOf? id).trans (congrArg Except.ok (above?_of_known? hrow))
  refine .inl (Refuses.within ⟨cause, ?_⟩ rfl)
  rw [updateParent, result_bind, Places.result_checked, hparent]
  dsimp only
  rw [if_pos hmoves]
  exact hmove

/-- What an update does once the item is in its place. -/
theorem leads_updateFields {tree : Tree} (h : tree.WellFormed) (hrow : tree.known? id = some row)
    {record : Record} (htakes : Takes tree row record row.parent) :
    Leads (do
      record.title.forM fun title => onTree (Places.setTitle id title)
      record.bmkUri.forM fun uri => onTree (Places.setUrl id uri)
      record.tags.forM (updateTags id)
      record.keyword.forM fun keyword => onTree (Places.setKeyword id (some keyword))
      record.description.forM fun description => onTree (updateDescription id description)
      record.loadInSidebar.forM fun load => onTree (updateSidebar id load)
      record.generatorUri.forM (updateGenerator id)
      record.siteUri.forM fun site => onTree (Places.setSite id site)
      record.feedUri.forM fun feed => onTree (Places.setFeed id feed)) tree fun _ next =>
        next.WellFormed := by
  refine (touches_forM record.title (fun title _ => touches_setTitle id title) tree row h
    hrow).bind ?_
  rintro - titled ⟨named, htitled, -, hnamedType, hnamedParent⟩
  have hurl : Leads (record.bmkUri.forM fun uri => onTree (Places.setUrl id uri)) titled
      fun _ next => ∃ last : Row, Rewritten id last tree next ∧ last.typeCode = row.typeCode ∧
        last.parent = row.parent := by
    cases huri : record.bmkUri with
    | none => exact leads_pure ⟨named, htitled, hnamedType, hnamedParent⟩
    | some uri =>
        obtain ⟨hbookmark, hvalid⟩ := htakes.uri uri huri
        refine (leads_onTree (Places.rewrites_setUrl htitled.wellFormed htitled.self
          (hnamedType.trans hbookmark) hvalid)).imp ?_
        exact fun _ next hnext => ⟨_, htitled.trans hnext, hnamedType, hnamedParent⟩
  refine hurl.bind ?_
  rintro - placed ⟨last, hplaced, htype, hparent⟩
  refine (leads_updateTags hplaced.wellFormed hplaced.self record.tags fun tags htags _ =>
    (htakes.tags tags htags).1.imp_right (hplaced.isFolder hrow htype)).bind ?_
  intro _ tagged htagged
  have hkept : tagged.known? id = some last := by
    refine htagged.kept hplaced.self fun _ hsome => ?_
    obtain ⟨tags, htags⟩ := Option.isSome_iff_exists.mp hsome
    refine OutsideTags.not_tagOwned ?_ hplaced.self
    rw [hparent]
    intro parent hup
    obtain ⟨hne, habove⟩ := (htakes.tags tags htags).2 parent hup
    have hnself : parent ≠ id := by
      rintro rfl
      exact h.not_encloses_parent ((above?_of_known? hrow).trans hup) (Encloses.refl tree _)
    exact ⟨hne, by rwa [above?_eq_known?, hplaced.of_ne hnself, ← above?_eq_known?]⟩
  have hdetails := (touches_forM record.keyword fun keyword _ =>
      touches_setKeyword id (some keyword)).bind <|
    (touches_forM record.description fun description _ =>
      touches_updateDescription id description).bind <|
    (touches_forM record.loadInSidebar fun load _ => touches_updateSidebar id load).bind <|
    (touches_forM record.generatorUri fun generator _ =>
      touches_updateGenerator id generator).bind <|
    (touches_forM record.siteUri fun site hsite =>
      touches_setSite id (htakes.site site hsite)).bind
    (touches_forM record.feedUri fun feed hfeed => touches_setFeed id (htakes.feed feed hfeed))
  refine (hdetails tagged last (htagged.retagged hplaced.wellFormed).wellFormed hkept).imp ?_
  rintro - next ⟨_, hnext, -⟩
  exact hnext.wellFormed

theorem tries_update (h : store.tree.WellFormed) (hrow : store.tree.known? id = some row)
    {record : Record} (hguid : row.guid = record.id) (parent : Option Int)
    (htakes : Takes store.tree row record (parent <|> row.parent)) :
    (update record parent).Tries store fun _ next => next.tree.WellFormed := by
  refine tries_look_bind ?_
  rw [h.idOfGuid?_iff.mpr ⟨row, hrow, hguid⟩]
  cases parent with
  | none => exact (leads_updateFields h hrow htakes).tries
  | some parent =>
      refine (tries_updateParent h hrow parent).bind ?_
      rintro - moved ⟨houtside, hmoved⟩
      have hne : parent ≠ id := by
        rintro rfl
        exact houtside (Encloses.refl _ _)
      refine (leads_updateFields hmoved.wellFormed hmoved.self
        { htakes with tags := ?_ } moved rfl).imp fun _ _ hnext => hnext.1
      intro tags htags
      obtain ⟨hfolder, hplace⟩ := htakes.tags tags htags
      refine ⟨hfolder.imp_right (hmoved.isFolder hrow rfl), ?_⟩
      intro place hup
      obtain rfl : parent = place := Option.some.inj hup
      rw [above?_eq_known?, hmoved.of_ne hne, ← above?_eq_known?]
      exact hplace parent rfl

/-! ### Removal -/

/-- What removing an item comes to, what goes of the tags included. -/
def Parted (id : Int) (before after : Tree) : Prop :=
  ∃ shed : Int → Prop, (∀ other, shed other → before.Below RootId.tags other) ∧
    Cleared (fun other => shed other ∨ before.Encloses id other) before after

theorem Parted.wellFormed {before after : Tree} (h : Parted id before after) : after.WellFormed := by
  obtain ⟨_, -, hcleared⟩ := h
  exact hcleared.wellFormed

theorem parted_of_cleared {before after : Tree} (h : Cleared (before.Encloses id) before after) :
    Parted id before after :=
  ⟨fun _ => False, fun _ hshed => hshed.elim, h.congr fun _ _ _ => by rw [false_or]⟩

/-- With its item, a name is gone. -/
theorem free_of_cleared {gone : Int → Prop} {before after : Tree} (h : Cleared gone before after)
    (hwell : before.WellFormed) {guid : String} (hid : before.idOfGuid? guid = some id)
    (hgone : gone id) : after.idOfGuid? guid = none := by
  obtain ⟨row, hrow, hguid⟩ := hwell.idOfGuid?_iff.mp hid
  rw [h.wellFormed.idOfGuid?_eq_none_iff]
  intro found row' hrow' hguid'
  obtain ⟨hkept, hbefore⟩ := h.known?_of_some hrow'
  obtain rfl := hwell.guid_inj found id row' row hbefore hrow (hguid'.trans hguid.symm)
  exact hkept hgone

/-- Untagging reaches nothing outside the tags. -/
theorem below_of_untagged {tree : Tree} (h : tree.WellFormed) {uri : String} {picked : Int → Prop}
    (huntagged : tree.Untagged uri picked id) : tree.Below RootId.tags id := by
  rw [h.below_iff]
  obtain ⟨folder, hfolder, -, ⟨found, hfound, hparent, -⟩ | ⟨rfl, -⟩⟩ := huntagged
  · refine ⟨folder, hfolder, (Encloses.refl tree folder).of_above? ?_⟩
    exact (above?_of_known? hfound).trans hparent
  · exact ⟨id, hfolder, Encloses.refl tree id⟩

theorem leads_removeBookmark {tree : Tree} (h : tree.WellFormed) (hrow : tree.known? id = some row)
    (htype : row.typeCode = ItemType.bookmark.code) (houtside : tree.OutsideTags row.parent) :
    Places.Leads (removeBookmark id) tree fun _ next => Parted id tree next := by
  refine Places.leads_check_bind (h.url? hrow) ?_
  cases hurl : row.url with
  | none =>
      exact (Places.leads_removeItem h (by rw [hrow]; rfl)).imp fun _ _ => parted_of_cleared
  | some uri =>
      refine (Places.leads_untagUri h ((h.sound id row hrow).url_valid uri hurl) none).bind ?_
      intro _ untagged huntagged
      have hkept := (Retagged.of_untagged huntagged).kept id row hrow
        (houtside.not_tagOwned hrow)
      refine (Places.leads_removeItem huntagged.wellFormed (by rw [hkept]; rfl)).imp ?_
      intro _ next hnext
      refine ⟨tree.Untagged uri (tree.PickedBy none), fun other => below_of_untagged h,
        (huntagged.trans hnext).congr ?_⟩
      -- A bookmark has nothing below it, before the tags are gone and after.
      have hcode : row.typeCode ≠ ItemType.folder.code := by
        rw [htype]
        decide
      have hself : ∀ {place : Tree}, place.WellFormed → place.known? id = some row → ∀ other,
          place.Encloses id other ↔ other = id := fun hplace hfound other =>
        ⟨fun hup => hup.eq_of_leaf (hplace.leaf hfound hcode), fun heq => heq ▸ Encloses.refl _ _⟩
      rintro other - -
      rw [hself h hrow, hself huntagged.wellFormed hkept]

theorem leads_remove {tree : Tree} (h : tree.WellFormed) {record : Record}
    (houtside : ∀ id row, tree.known? id = some row → row.guid = record.id →
      tree.OutsideTags row.parent) :
    Leads (remove record) tree fun _ next => next.WellFormed ∧
      ∀ id, tree.idOfGuid? record.id = some id → Parted id tree next := by
  refine leads_look_bind ?_
  cases hid : tree.idOfGuid? record.id with
  | none => exact leads_pure ⟨h, fun _ hsome => by cases hsome⟩
  | some id =>
      obtain ⟨row, hrow, hguid⟩ := h.idOfGuid?_iff.mp hid
      obtain ⟨type, hcode, htype⟩ := h.typeOf? hrow
      have hthere : (tree.known? id).isSome := by rw [hrow]; rfl
      have hparts : ∀ {action : TreeAction Unit},
          Places.Leads action tree (fun _ next => Parted id tree next) →
          Leads (onTree action) tree fun _ next => next.WellFormed ∧
            ∀ other, some id = some other → Parted other tree next := fun haction =>
        (leads_onTree haction).imp fun _ _ hnext =>
          ⟨hnext.wellFormed, fun _ hsame => Option.some.inj hsame ▸ hnext⟩
      refine leads_check_bind htype ?_
      cases type with
      | bookmark => exact hparts (leads_removeBookmark h hrow hcode.symm (houtside id row hrow hguid))
      | folder =>
          exact hparts ((Places.leads_removeFolder h hthere).imp fun _ _ => parted_of_cleared)
      | separator =>
          exact hparts ((Places.leads_removeItem h hthere).imp fun _ _ => parted_of_cleared)

/-! ### Creation -/

/-- What keeps the creation of an item from failing halfway. -/
structure Makes (tree : Tree) (record : Record) (place : Option Int) : Prop where
  free : tree.idOfGuid? record.id = none
  never : tree.NeverMakes record.id
  tags : ∀ tags, record.tags = some tags →
    (tags.filter (!·.isEmpty) = [] ∨ tree.IsFolder RootId.tags) ∧ tree.OutsideTags place

/-- An item that is there to be given a GUID. -/
structure Nameable (tree : Tree) (id : Int) (guid : String) : Prop where
  wellFormed : tree.WellFormed
  known : ∃ row, tree.known? id = some row
  free : tree.idOfGuid? guid = none

/-- Of what an insertion may fail at, all is checked before anything is written. -/
theorem tries_insertItem {places : Places} (h : places.tree.WellFormed) (parent index : Int)
    (type : ItemType) (title url : Option String) :
    (Places.insertItem parent index type title url).Tries places fun made next =>
      places.tree.IsFolder parent ∧ made = places.tree.nextId ∧
        next.tree = places.tree.inserted parent index type title url := by
  by_cases hfolder : places.tree.IsFolder parent
  · exact .inr ((Places.leads_insertItem h hfolder index type title url places rfl).imp
      fun _ _ hnext => ⟨hfolder, hnext⟩)
  · exact tries_check_bind fun value hread => absurd ((h.requireFolder_iff parent).mp hread) hfolder

theorem nameable_inserted {tree : Tree} (h : tree.WellFormed) {record : Record} {place : Option Int}
    (hmakes : Makes tree record place) {parent : Int} (hfolder : tree.IsFolder parent)
    (index : Int) {type : ItemType} {title url : Option String} (hfit : Fitting type title url) :
    Nameable (tree.inserted parent index type title url) tree.nextId record.id where
  wellFormed := h.inserted hfolder index hfit
  known := ⟨_, h.known?_inserted_self parent index type title url⟩
  free := free_inserted h (h.inserted hfolder index hfit) hmakes.free hmakes.never

theorem Nameable.rewritten {tree next : Tree} {guid : String} (h : Nameable tree id guid)
    {last : Row} (hrow : tree.known? id = some row) (hnext : Rewritten id last tree next)
    (hguid : last.guid = row.guid) : Nameable next id guid where
  wellFormed := hnext.wellFormed
  known := ⟨last, hnext.self⟩
  free := hnext.free h.wellFormed hrow hguid h.free

theorem nameable_touched {tree : Tree} {guid : String} (h : Nameable tree id guid)
    {action : StoreAction Unit} (haction : Touches id action) :
    Leads action tree fun _ next => Nameable next id guid := by
  obtain ⟨row, hrow⟩ := h.known
  refine (haction tree row h.wellFormed hrow).imp ?_
  rintro - next ⟨last, hnext, hguid, -⟩
  exact h.rewritten hrow hnext hguid

theorem nameable_annotated {tree : Tree} {guid : String} (h : Nameable tree id guid)
    (name value : String) :
    Places.Leads (Places.annotate id name value) tree fun _ next => Nameable next id guid := by
  obtain ⟨row, hrow⟩ := h.known
  exact (Places.rewrites_annotate h.wellFormed hrow name value).imp
    fun _ _ hnext => h.rewritten hrow hnext rfl

theorem leads_fillBookmark_nameable {tree : Tree} {record : Record}
    (h : Nameable tree id record.id) (hrow : tree.known? id = some row)
    (hnever : tree.NeverMakes record.id) {uri : String} (huri : validateUri uri = .ok uri)
    (htags : ∀ tags, record.tags = some tags →
      (tags.filter (!·.isEmpty) = [] ∨ tree.IsFolder RootId.tags) ∧ ¬ tree.TagOwned id) :
    Leads (fillBookmark id record uri) tree fun _ next => Nameable next id record.id := by
  have hreplace : Leads (record.tags.forM (replaceTags uri)) tree fun _ next =>
      Nameable next id record.id := by
    cases hgiven : record.tags with
    | none => exact leads_pure h
    | some tags =>
        obtain ⟨hroot, hkept⟩ := htags tags hgiven
        refine (leads_replaceTags h.wellFormed huri hroot).imp ?_
        intro _ next hnext
        exact ⟨hnext.retagged.wellFormed, ⟨row, hnext.retagged.kept id row hrow hkept⟩,
          hnext.retagged.free h.wellFormed h.free hnever⟩
  rw [fillBookmark_eq]
  refine hreplace.bind fun _ tagged htagged => nameable_touched htagged ?_
  have hsidebar : Touches id (do
      if record.loadInSidebar = some true then
        onTree (Places.annotate id AnnotationName.loadInSidebar "true")
      fillSummary id record) := by
    split
    · exact (touches_annotate id _ _).bind (touches_fillSummary id record)
    · exact touches_fillSummary id record
  exact (touches_setKeyword id record.keyword).bind ((touches_forM _ fun description _ =>
    touches_annotate id AnnotationName.description description).bind hsidebar)

theorem tries_createBookmark (h : store.tree.WellFormed) {record : Record} {parent : Int}
    (hmakes : Makes store.tree record (some parent)) :
    (createBookmark record parent).Tries store fun made next =>
      Nameable next.tree made record.id := by
  cases huri : record.bmkUri with
  | none =>
      rw [createBookmark, huri]
      exact .inl ((refuses_throw _ store).bind _)
  | some uri =>
      rw [createBookmark, huri, require, pure_bind]
      have hinsert : (onTree (Places.insertBookmark parent uri Places.atEnd record.title)).Tries
          store fun made next => validateUri uri = .ok uri ∧ store.tree.IsFolder parent ∧
            made = store.tree.nextId ∧ next.tree =
              store.tree.inserted parent Places.atEnd .bookmark record.title (some uri) := by
        refine tries_onTree (tries_check_bind fun checked hvalid => ?_) fun _ _ hnext => hnext
        obtain rfl := eq_of_validateUri hvalid
        exact (tries_insertItem h parent Places.atEnd .bookmark record.title (some checked)).imp
          fun _ _ hnext => ⟨hvalid, hnext⟩
      refine hinsert.bind ?_
      rintro _ inserted ⟨hvalid, hfolder, rfl, hinserted⟩
      have hself := h.known?_inserted_self parent Places.atEnd .bookmark record.title (some uri)
      have hnameable := nameable_inserted h hmakes hfolder Places.atEnd
        (Places.fitting_bookmark hvalid record.title)
      have hnever := hmakes.never.mono (guids_inserted store.tree parent Places.atEnd .bookmark
        record.title (some uri)) (by rw [nextId_inserted]; omega)
      have hfill := leads_fillBookmark_nameable hnameable hself hnever hvalid fun tags htags => by
        obtain ⟨hroot, hplace⟩ := hmakes.tags tags htags
        refine ⟨hroot.imp_right (h.isFolder_inserted parent _ _ _ _),
          OutsideTags.not_tagOwned ?_ hself⟩
        intro place hup
        obtain rfl : parent = place := Option.some.inj hup
        rw [h.above?_inserted parent _ _ _ _ hfolder]
        exact hplace parent rfl
      rw [← hinserted] at hfill
      refine Yields.bind (hfill inserted rfl) ?_
      rintro - next ⟨hnext, -⟩
      exact yields_pure hnext

theorem tries_createFolder (h : store.tree.WellFormed) {record : Record} {place : Option Int}
    (hmakes : Makes store.tree record place) (parent : Int) (title : String) :
    (Places.createFolder parent title Places.atEnd).Tries store.places fun made next =>
      Nameable next.tree made record.id := by
  refine (tries_insertItem h parent Places.atEnd .folder (some title) none).imp ?_
  rintro _ next ⟨hfolder, rfl, hnext⟩
  rw [hnext]
  exact nameable_inserted h hmakes hfolder Places.atEnd (Places.fitting_folder title)

theorem tries_createLivemark (h : store.tree.WellFormed) {record : Record} {place : Option Int}
    (hmakes : Makes store.tree record place) (parent : Int) (title : String) (site : Option String)
    (feed : String) :
    (Places.createLivemark parent title site feed Places.atEnd).Tries store.places fun made next =>
      Nameable next.tree made record.id := by
  refine tries_check_bind fun feed _ => tries_check_bind fun site _ => ?_
  refine (tries_createFolder h hmakes parent title).bind fun made inserted hinserted => ?_
  refine (nameable_annotated hinserted AnnotationName.feedUri feed inserted rfl).bind
    fun _ fed hfed => ?_
  cases site with
  | none => exact yields_pure hfed
  | some site =>
      exact (nameable_annotated hfed AnnotationName.siteUri site fed rfl).bind
        fun _ _ hlast => yields_pure hlast

theorem tries_createItem (h : store.tree.WellFormed) {record : Record} {parent : Int}
    (hmakes : Makes store.tree record (some parent)) :
    (createItem record parent).Tries store fun made next =>
      next.tree.WellFormed ∧ ∀ id, made = some id → Nameable next.tree id record.id := by
  have hnamed : ∀ {action : StoreAction Int}, (action.Tries store fun made next =>
      Nameable next.tree made record.id) → ((some <$> action).Tries store fun made next =>
        next.tree.WellFormed ∧ ∀ id, made = some id → Nameable next.tree id record.id) := by
    intro action haction
    refine (haction.imp ?_).map some
    intro made next hnext
    exact ⟨hnext.wellFormed, fun id heq => Option.some.inj heq ▸ hnext⟩
  rw [createItem]
  cases record.kind with
  | bookmark => exact hnamed (tries_createBookmark h hmakes)
  | query => exact hnamed (tries_createBookmark h hmakes)
  | microsummary => exact hnamed (tries_createBookmark h hmakes)
  | folder => exact hnamed (tries_onTree (tries_createFolder h hmakes parent _) fun _ _ hnext => hnext)
  | livemark =>
      cases record.feedUri with
      | none => exact .inl ((refuses_throw _ store).bind _)
      | some feed =>
          exact hnamed (tries_onTree (tries_createLivemark h hmakes parent _ record.siteUri feed)
            fun _ _ hnext => hnext)
  | separator =>
      refine hnamed (tries_onTree (tries_insertItem h parent Places.atEnd .separator none none) ?_)
      rintro _ next ⟨hfolder, rfl, hnext⟩
      change Nameable next.tree _ _
      rw [hnext]
      exact nameable_inserted h hmakes hfolder Places.atEnd Places.fitting_separator
  | item => exact .inr (yields_pure ⟨h, fun id heq => by cases heq⟩)
  | unknown => exact .inl (refuses_throw _ store)

theorem tries_create (h : store.tree.WellFormed) {record : Record} {parent : Option Int}
    (hmakes : Makes store.tree record parent) :
    (create record parent).Tries store fun _ next => next.tree.WellFormed := by
  cases parent with
  | none => exact .inl ((refuses_throw _ store).bind _)
  | some parent =>
      rw [create, require, pure_bind]
      refine (tries_createItem h hmakes).bind ?_
      rintro (_ | id) next ⟨hwell, hnext⟩
      · exact yields_pure hwell
      · obtain ⟨row, hrow⟩ := (hnext id rfl).known
        have hguid : Leads (do
            if (← look (·.guidOf? id)) ≠ some record.id then
              onTree (Places.setGuid id record.id)) next.tree fun _ last => last.WellFormed := by
          refine leads_look_bind ?_
          split
          · exact (leads_onTree (Places.rewrites_setGuid hwell hrow (hnext id rfl).free)).imp
              fun _ _ hlast => hlast.wellFormed
          · exact leads_pure hwell
        exact (hguid next rfl).imp fun _ _ hlast => hlast.1

/-! ### Any record -/

/-- What keeps a record from failing halfway: a query names no tag, of an item that goes and of
the place of an item with tags none is in the tags, and the URIs for an item are valid and meant
for one of its type. -/
structure Timely (tree : Tree) (record : Record) : Prop where
  query : record.kind = .query → record.bmkUri = none ∨ record.folderName = none
  removal : record.deleted = true → ∀ id row, tree.known? id = some row → row.guid = record.id →
    tree.OutsideTags row.parent
  update : record.deleted = false → ∀ id row, tree.known? id = some row → row.guid = record.id →
    Takes tree row record ((destination tree record.parentid).1 <|> row.parent)
  creation : record.deleted = false → tree.idOfGuid? record.id = none →
    Makes tree record (destination tree record.parentid).1

theorem localized_of_timely {tree : Tree} {record : Record} (h : Timely tree record) :
    localized record = pure record := by
  rw [localized]
  split
  · rename_i hquery
    rw [localizeQuery]
    rcases h.query hquery with hnone | hnone
    · rw [hnone]
    · rw [hnone]
      cases record.bmkUri <;> rfl
  · rfl

theorem tries_bringIn (h : store.tree.WellFormed) {record : Record}
    (htimely : Timely store.tree record) :
    (bringIn record (destination store.tree record.parentid).1).Tries store fun _ next =>
      next.tree.WellFormed := by
  rw [bringIn]
  split
  · rename_i hdeleted
    exact ((leads_remove h (htimely.removal hdeleted)).imp fun _ _ hnext => hnext.1).tries
  · rename_i hdeleted
    have hstays : record.deleted = false := by simpa using hdeleted
    refine tries_look_bind ?_
    cases hid : store.tree.idOfGuid? record.id with
    | none => exact tries_create h (htimely.creation hstays hid)
    | some id =>
        obtain ⟨row, hrow, hguid⟩ := h.idOfGuid?_iff.mp hid
        exact tries_update h hrow hguid _ (htimely.update hstays id row hrow hguid)

/-- Marking the item of a record with the parent that it waits for never fails. -/
theorem yields_settled (h : store.tree.WellFormed) (guid : String) (parent : Option Int)
    (orphanOf : Option String) : (settle guid parent orphanOf).Yields store fun _ _ => True := by
  refine (yields_change (P := fun _ next => next = store.forget guid) rfl).bind ?_
  rintro - - rfl
  have hmark : ∀ action : StoreAction Unit, Leads action store.tree (fun _ _ => True) →
      action.Yields (store.forget guid) fun _ _ => True :=
    fun _ hleads => (hleads (store.forget guid) rfl).imp fun _ _ _ => trivial
  refine hmark _ (leads_look_bind ?_)
  cases hid : store.tree.idOfGuid? guid with
  | none => exact leads_pure trivial
  | some id =>
      obtain ⟨row, hrow, -⟩ := h.idOfGuid?_iff.mp hid
      cases orphanOf with
      | some intended =>
          exact (leads_onTree (Places.rewrites_annotate h hrow _ _)).imp fun _ _ _ => trivial
      | none =>
          cases parent with
          | some parent =>
              exact (leads_onTree (rewrites_markOrphan h hrow parent none)).imp
                fun _ _ _ => trivial
          | none => exact leads_onTree (Places.leads_pure trivial)

/-- A record that cannot be applied changes nothing, as long as it fits. -/
theorem unchanged_of_applyIncoming {store : BookmarkStore} (h : store.Reachable) {record : Record}
    (htimely : Timely store.tree record) {cause : StoreError}
    (herror : ((applyIncoming record).result store).1 = .error cause) :
    ((applyIncoming record).result store).2 = store := by
  suffices htries : (applyIncoming record).Tries store fun _ _ => True from
    htries.unchanged herror
  cases hroot : RootGuid.all.contains record.id with
  | true =>
      rw [applyIncoming, if_pos hroot]
      exact .inr (yields_pure trivial)
  | false =>
      rw [applyIncoming_eq hroot, localized_of_timely htimely, pure_bind]
      refine tries_look_bind ((tries_bringIn h.wellFormed.tree htimely).bind ?_)
      exact fun _ next hnext => yields_settled hnext record.id _ _

theorem timely_folderNamed : Timely nestedStore.tree (folderNamed "a" "b") where
  query := fun hquery => by cases hquery
  removal := fun hdeleted => by cases hdeleted
  update := by
    intro _ id row _ _
    constructor <;> intro _ hgiven <;> cases hgiven
  creation := by
    intro _ hfree
    have hid : nestedStore.tree.idOfGuid? "a" = some 6 := by cbv
    cases hid.symm.trans hfree

/-- A folder that is to move below itself stays, with its title. -/
theorem folder_below_itself_refused :
    ((applyIncoming (folderNamed "a" "b")).result nestedStore).1 =
        .error (.tree (.invalidParent 7)) ∧
      ((applyIncoming (folderNamed "a" "b")).result nestedStore).2 = nestedStore := by
  have herror : ((applyIncoming (folderNamed "a" "b")).result nestedStore).1 =
      .error (.tree (.invalidParent 7)) := by
    cbv
  exact ⟨herror, unchanged_of_applyIncoming reachable_nestedStore timely_folderNamed herror⟩

/-- A bookmark's record for what is a folder here. -/
def retypedRecord : Record :=
  { id := "b", parentid := some RootGuid.menu, kind := .bookmark, title := some "C"
    bmkUri := some "about:blank" }

/-- The record fails at its URL, but by then the folder has been moved and has another title. -/
theorem folder_changed_halfway :
    nestedStore.Reachable ∧
      ((applyIncoming retypedRecord).result nestedStore).1 = .error (.tree (.itemNotFound 7)) ∧
      (nestedStore.tree.row? 7).map (fun row => (row.parent, row.title)) =
        some (some 6, some "B") ∧
      (((applyIncoming retypedRecord).result nestedStore).2.tree.row? 7).map
        (fun row => (row.parent, row.title)) = some (some RootId.menu, some "C") := by
  refine ⟨reachable_nestedStore, ?_, ?_, ?_⟩ <;> cbv

end BookmarkStore

end SyncedBookmarks
