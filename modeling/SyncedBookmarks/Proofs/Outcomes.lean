import SyncedBookmarks.Proofs.RootSafety

namespace SyncedBookmarks

/-! What a step has done that came through: the item that it made is in its folder, the item that it
removed is gone, and the item that it moved is there. -/

namespace Action

theorem exists_of_result_bind {action : Action σ ε α} {next : α → Action σ ε β} {state last : σ}
    {value : β} (h : (action >>= next).result state = (.ok value, last)) :
    ∃ first middle, action.result state = (.ok first, middle) ∧
      (next first).result middle = (.ok value, last) := by
  rw [result_bind] at h
  cases houtcome : action.result state with
  | mk outcome middle =>
      rw [houtcome] at h
      cases outcome with
      | ok first => exact ⟨first, middle, rfl, h⟩
      | error cause => cases h

theorem exists_of_result_map {action : Action σ ε α} {f : α → β} {state last : σ} {value : β}
    (h : (f <$> action).result state = (.ok value, last)) :
    ∃ first, action.result state = (.ok first, last) ∧ f first = value := by
  rw [map_eq_pure_bind] at h
  obtain ⟨first, middle, hfirst, hlast⟩ := exists_of_result_bind h
  obtain ⟨hvalue, rfl⟩ := Prod.mk.inj hlast
  exact ⟨first, hfirst, Except.ok.inj hvalue⟩

end Action

namespace Places

open SyncedBookmarks.Action SyncedBookmarks.Tree SyncedBookmarks.BookmarkStore

variable {places next : Places} {id parent : Int}

theorem sits_insertItem (h : places.tree.WellFormed) {type : ItemType} {title url : Option String}
    (hfit : Fitting type title url)
    (hok : (insertItem parent atEnd type title url).result places = (.ok id, next)) :
    Sits (· = parent) id next.tree := by
  cases hfolder : places.tree.requireFolder parent with
  | error cause =>
      simp only [insertItem, result_bind, result_checked, hfolder] at hok
      cases hok
  | ok value =>
      have hparent := (h.requireFolder_iff parent).mp hfolder
      obtain ⟨found, hfound, rfl, hnext⟩ :=
        (leads_insertItem h hparent atEnd type title url places rfl).result
      rw [hok] at hfound hnext
      obtain rfl := Except.ok.inj hfound
      rw [hnext]
      refine ⟨h.inserted hparent atEnd hfit, ?_, ?_⟩
      · change places.tree.nextId < (places.tree.reserve parent atEnd).nextId + 1
        rw [nextId_reserve]
        omega
      · intro folder habove
        rw [above?_eq_known?, h.known?_inserted, if_pos rfl] at habove
        exact (Option.some.inj habove).symm

theorem named_of_setGuid (h : places.tree.WellFormed) {guid : String}
    (hok : (setGuid id guid).result places = (.ok (), next)) :
    next.tree.idOfGuid? guid = some id ∧ (next.tree = places.tree ∨
      ∃ row, places.tree.known? id = some row ∧
        Rewritten id { row with guid } places.tree next.tree) := by
  rw [setGuid, result_bind, result_look] at hok
  cases howner : places.tree.idOfGuid? guid with
  | some owner =>
      rw [howner] at hok
      dsimp only at hok
      split at hok
      · rename_i heq
        obtain rfl := (Prod.mk.inj hok).2
        exact ⟨heq ▸ howner, .inl rfl⟩
      · cases hok
  | none =>
      cases hrow : places.tree.known? id with
      | none =>
          rw [howner] at hok
          simp only [result_bind, result_look, known?_eq_none_iff.mp hrow] at hok
          cases hok
      | some row =>
          obtain ⟨-, -, hnext⟩ := (rewrites_setGuid h hrow howner places rfl).result
          rw [setGuid, result_bind, result_look, hok] at hnext
          refine ⟨hnext.wellFormed.idOfGuid?_iff.mpr ⟨_, hnext.self, rfl⟩, .inr ⟨row, rfl, hnext⟩⟩

theorem cleared_of_ok {action : TreeAction Unit}
    (hfail : places.tree.row? id = none → ∃ cause, (action.result places).1 = .error cause)
    (hleads : (places.tree.known? id).isSome →
      Leads action places.tree fun _ next => Cleared (places.tree.Encloses id) places.tree next)
    (hok : action.result places = (.ok (), next)) :
    Cleared (places.tree.Encloses id) places.tree next.tree := by
  by_cases hthere : (places.tree.known? id).isSome
  · obtain ⟨-, -, hcleared⟩ := (hleads hthere places rfl).result
    rwa [hok] at hcleared
  · rw [isSome_known?, Option.not_isSome_iff_eq_none] at hthere
    obtain ⟨cause, hcause⟩ := hfail hthere
    rw [hok] at hcause
    cases hcause

theorem cleared_of_removeItem (h : places.tree.WellFormed)
    (hok : (removeItem id).result places = (.ok (), next)) :
    Cleared (places.tree.Encloses id) places.tree next.tree := by
  refine cleared_of_ok (fun hnone => ⟨.itemNotFound id, ?_⟩) (leads_removeItem h) hok
  simp only [removeItem, result_bind, result_checked, (Tree.WellFormed.item?_none hnone).2]

theorem cleared_of_removeFolder (h : places.tree.WellFormed)
    (hok : (removeFolder id).result places = (.ok (), next)) :
    Cleared (places.tree.Encloses id) places.tree next.tree := by
  refine cleared_of_ok (fun hnone => ⟨.itemNotFound id, ?_⟩) (leads_removeFolder h) hok
  simp only [removeFolder, result_bind, result_checked, (Tree.WellFormed.item?_none hnone).2]

/-- A bookmark that has been removed is gone, with its tags or with no more than itself. -/
theorem cleared_of_removeBookmark (h : places.tree.WellFormed) {row : Row}
    (hrow : places.tree.known? id = some row)
    (hok : (removeBookmark id).result places = (.ok (), next)) :
    ∃ gone : Int → Prop, Cleared gone places.tree next.tree ∧ gone id := by
  rw [removeBookmark, result_bind, result_checked, h.url? hrow] at hok
  cases hurl : row.url with
  | none =>
      rw [hurl] at hok
      exact ⟨_, cleared_of_removeItem h hok, Encloses.refl _ _⟩
  | some uri =>
      rw [hurl] at hok
      obtain ⟨_, untagged, huntag, hlast⟩ := exists_of_result_bind hok
      have hleads := leads_untagUri h ((h.sound id row hrow).url_valid uri hurl) none
      obtain ⟨-, -, huntagged⟩ := (hleads places rfl).result
      change (untagUri uri none).result places = _ at huntag
      rw [huntag] at huntagged
      have hremoved := cleared_of_removeItem huntagged.wellFormed hlast
      exact ⟨_, huntagged.trans hremoved, .inr (Encloses.refl _ _)⟩

end Places

namespace BookmarkStore

open SyncedBookmarks.Action SyncedBookmarks.Tree

theorem exists_of_result_onTree {action : TreeAction α} {store next : BookmarkStore} {value : α}
    (h : (onTree action).result store = (.ok value, next)) :
    action.result store.places = (.ok value, next.places) := by
  rw [onTree, result_within] at h
  cases houtcome : action.result store.places with
  | mk outcome places =>
      rw [houtcome] at h
      obtain ⟨hvalue, rfl⟩ := Prod.mk.inj h
      cases outcome with
      | ok found => rw [Except.ok.inj hvalue]
      | error cause => cases hvalue

variable {store next : BookmarkStore} {record : Record} {id parent : Int}

/-! ### Creation -/

theorem eq_of_result_require {name : String} {given : Option α} {value : α}
    (hok : (require name given).result store = (.ok value, next)) :
    given = some value ∧ store = next := by
  cases given with
  | none => cases hok
  | some found =>
      obtain ⟨hvalue, rfl⟩ := Prod.mk.inj hok
      exact ⟨congrArg some (Except.ok.inj hvalue), rfl⟩

theorem sits_createBookmark (h : store.tree.WellFormed)
    (hok : (createBookmark record parent).result store = (.ok id, next)) :
    Sits (· = parent) id next.tree := by
  rw [createBookmark] at hok
  obtain ⟨uri, _, huri, hmade⟩ := exists_of_result_bind hok
  obtain ⟨-, rfl⟩ := eq_of_result_require huri
  obtain ⟨made, inserted, hinsert, hrest⟩ := exists_of_result_bind hmade
  obtain ⟨_, last, hfill, hlast⟩ := exists_of_result_bind hrest
  obtain ⟨hid, rfl⟩ := Prod.mk.inj hlast
  obtain rfl := Except.ok.inj hid
  replace hinsert := exists_of_result_onTree hinsert
  rw [Places.insertBookmark] at hinsert
  obtain ⟨checked, places, hcheck, hplaced⟩ := exists_of_result_bind hinsert
  obtain ⟨hvalid, rfl⟩ := Prod.mk.inj hcheck
  obtain rfl := eq_of_validateUri hvalid
  have hsits := Places.sits_insertItem h (Places.fitting_bookmark hvalid record.title) hplaced
  have hfilled : Inherits inserted.tree ((fillBookmark made record checked).result inserted).2 :=
    keeps_fillBookmark_spares (sheltered_none inserted.tree) trivial record checked inserted
      (Inherits.refl hsits.wellFormed)
  rw [hfill] at hfilled
  exact hsits.of_inherits hfilled

theorem sits_createLivemark {places next : Places} (h : places.tree.WellFormed)
    {title feed : String} {site : Option String}
    (hok : (Places.createLivemark parent title site feed Places.atEnd).result places =
      (.ok id, next)) : Sits (· = parent) id next.tree := by
  rw [Places.createLivemark] at hok
  obtain ⟨feed, _, hfeed, hmade⟩ := exists_of_result_bind hok
  obtain rfl := (Prod.mk.inj hfeed).2
  obtain ⟨site, _, hsite, hplaced⟩ := exists_of_result_bind hmade
  obtain rfl := (Prod.mk.inj hsite).2
  obtain ⟨made, inserted, hinsert, hrest⟩ := exists_of_result_bind hplaced
  have hsits := Places.sits_insertItem h (Places.fitting_folder title) hinsert
  have hannotate : ∀ name value : String,
      (Places.annotate made name value).Keeps fun places => Sits (· = parent) made places.tree :=
    fun name value => keeps_sits_of_writes
      (Places.writes_annotate made (Places.lasting_annotate name value))
      (Places.keeps_annotate made name value)
  obtain ⟨_, fed, hfed, hlast⟩ := exists_of_result_bind hrest
  have hfedSits := hannotate AnnotationName.feedUri feed inserted hsits
  rw [hfed] at hfedSits
  cases site with
  | none =>
      obtain ⟨hid, rfl⟩ := Prod.mk.inj hlast
      exact Except.ok.inj hid ▸ hfedSits
  | some site =>
      obtain ⟨_, last, hsited, hend⟩ := exists_of_result_bind hlast
      obtain ⟨hid, rfl⟩ := Prod.mk.inj hend
      have hsitedSits := hannotate AnnotationName.siteUri site fed hfedSits
      rw [hsited] at hsitedSits
      exact Except.ok.inj hid ▸ hsitedSits

theorem sits_createItem (h : store.tree.WellFormed)
    (hok : (createItem record parent).result store = (.ok (some id), next)) :
    Sits (· = parent) id next.tree := by
  have hbookmark : (some <$> createBookmark record parent).result store = (.ok (some id), next) →
      Sits (· = parent) id next.tree := by
    intro hmade
    obtain ⟨made, hcreated, heq⟩ := exists_of_result_map hmade
    obtain rfl := Option.some.inj heq
    exact sits_createBookmark h hcreated
  rw [createItem] at hok
  cases hkind : record.kind with
  | bookmark => exact hbookmark (by rwa [hkind] at hok)
  | query => exact hbookmark (by rwa [hkind] at hok)
  | microsummary => exact hbookmark (by rwa [hkind] at hok)
  | folder =>
      rw [hkind] at hok
      obtain ⟨made, hmade, heq⟩ := exists_of_result_map hok
      obtain rfl := Option.some.inj heq
      exact Places.sits_insertItem h (Places.fitting_folder _) (exists_of_result_onTree hmade)
  | livemark =>
      rw [hkind] at hok
      obtain ⟨feed, _, hfeed, hrest⟩ := exists_of_result_bind hok
      obtain ⟨-, rfl⟩ := eq_of_result_require hfeed
      obtain ⟨made, hmade, heq⟩ := exists_of_result_map hrest
      obtain rfl := Option.some.inj heq
      exact sits_createLivemark h (exists_of_result_onTree hmade)
  | separator =>
      rw [hkind] at hok
      obtain ⟨made, hmade, heq⟩ := exists_of_result_map hok
      obtain rfl := Option.some.inj heq
      exact Places.sits_insertItem h Places.fitting_separator (exists_of_result_onTree hmade)
  | item =>
      rw [hkind] at hok
      cases hok
  | unknown =>
      rw [hkind] at hok
      cases hok

/-- Where no item is made, nothing is. -/
theorem eq_of_createItem_none (hok : (createItem record parent).result store = (.ok none, next)) :
    next = store := by
  have hsome : ∀ {action : StoreAction Int} {before : BookmarkStore},
      (some <$> action).result before = (.ok none, next) → next = store := by
    intro action before hmade
    obtain ⟨made, -, heq⟩ := exists_of_result_map hmade
    cases heq
  rw [createItem] at hok
  cases hkind : record.kind with
  | item =>
      rw [hkind] at hok
      exact (Prod.mk.inj hok).2.symm
  | unknown =>
      rw [hkind] at hok
      cases hok
  | livemark =>
      rw [hkind] at hok
      obtain ⟨feed, middle, -, hmade⟩ := exists_of_result_bind hok
      exact hsome hmade
  | _ =>
      rw [hkind] at hok
      exact hsome hok

/-- What has come of the creation of an item: it has the record's name and is in its folder, or
nothing has been made. -/
theorem made_of_create (h : store.tree.WellFormed)
    (hok : (create record (some parent)).result store = (.ok (), next)) :
    next = store ∨ ∃ (middle : BookmarkStore) (id : Int), Inherits store.tree middle ∧
      Sits (· = parent) id middle.tree ∧ next.tree.idOfGuid? record.id = some id ∧
      (next.tree = middle.tree ∨ ∃ row, middle.tree.known? id = some row ∧
        Rewritten id { row with guid := record.id } middle.tree next.tree) := by
  rw [create] at hok
  obtain ⟨place, _, hrequired, hmade⟩ := exists_of_result_bind hok
  obtain ⟨hplace, rfl⟩ := eq_of_result_require hrequired
  obtain rfl := Option.some.inj hplace
  obtain ⟨made, middle, hcreated, hnamed⟩ := exists_of_result_bind hmade
  cases made with
  | none =>
      obtain rfl := (Prod.mk.inj hnamed).2
      exact .inl (eq_of_createItem_none hcreated)
  | some id =>
      have hsits := sits_createItem h hcreated
      have hkept : (createItem record parent).Keeps (Inherits store.tree) :=
        (ensures_createItem_spares (sheltered_none store.tree) (fun _ _ _ => trivial) record
          parent).keeps
      have hmiddle := hkept _ (Inherits.refl h)
      rw [hcreated] at hmiddle
      refine .inr ⟨middle, id, hmiddle, hsits, ?_⟩
      obtain ⟨guid, _, hlook, hlast⟩ := exists_of_result_bind hnamed
      obtain ⟨hguid, rfl⟩ := Prod.mk.inj hlook
      split at hlast
      · exact Places.named_of_setGuid hsits.wellFormed (exists_of_result_onTree hlast)
      · rename_i hsame
        obtain rfl := (Prod.mk.inj hlast).2
        have hname : middle.tree.guidOf? id = some record.id :=
          (Except.ok.inj hguid).trans (not_not.mp hsame)
        rw [guidOf?_eq_known?, Option.map_eq_some_iff] at hname
        exact ⟨hsits.wellFormed.idOfGuid?_iff.mpr hname, .inl rfl⟩

/-! ### Update -/

/-- What has come of an update: the item has moved, if it had to, and then kept its name. -/
theorem moved_of_update (h : store.tree.WellFormed) {row : Row}
    (hrow : store.tree.known? id = some row) (hguid : row.guid = record.id) {place : Option Int}
    (hok : (update record place).result store = (.ok (), next)) :
    ∃ middle : BookmarkStore, (updateFields id record).result middle = (.ok (), next) ∧
      (place.forM fun parent => onTree (updateParent id parent)).result store = (.ok (), middle) ∧
      ((place = none ∧ middle = store) ∨ ∃ parent, place = some parent ∧
        Rewritten id { row with parent := some parent } store.tree middle.tree) := by
  rw [result_update_of_some (h.idOfGuid?_iff.mpr ⟨row, hrow, hguid⟩)] at hok
  obtain ⟨_, middle, hmoved, hlast⟩ := exists_of_result_bind hok
  refine ⟨middle, hlast, hmoved, ?_⟩
  cases place with
  | none => exact .inl ⟨rfl, (Prod.mk.inj hmoved).2.symm⟩
  | some parent =>
      refine .inr ⟨parent, rfl, ?_⟩
      change (onTree (updateParent id parent)).result _ = _ at hmoved
      obtain ⟨cause, hfail⟩ | ⟨_, last, hdone, -, hrewritten⟩ := tries_updateParent h hrow parent
      · rw [hfail] at hmoved
        cases hmoved
      · rw [hdone] at hmoved
        exact (Prod.mk.inj hmoved).2 ▸ hrewritten

/-! ### Removal -/

theorem free_of_remove (h : store.tree.WellFormed)
    (hok : (remove record).result store = (.ok (), next)) :
    next.tree.idOfGuid? record.id = none := by
  rw [remove] at hok
  obtain ⟨found, _, hlook, hrest⟩ := exists_of_result_bind hok
  obtain ⟨hfound, rfl⟩ := Prod.mk.inj hlook
  have hid : store.tree.idOfGuid? record.id = found := Except.ok.inj hfound
  cases found with
  | none => exact (Prod.mk.inj hrest).2 ▸ hid
  | some id =>
      obtain ⟨row, hrow, -⟩ := h.idOfGuid?_iff.mp hid
      obtain ⟨type, -, htype⟩ := h.typeOf? hrow
      have hread : (check (·.typeOf? id)).result store = (.ok (some type), store) := by
        change (Except.mapError _ (store.tree.typeOf? id), store) = _
        rw [htype]
        rfl
      rw [result_bind, hread] at hrest
      have hgone : ∀ {action : TreeAction Unit}, (onTree action).result store = (.ok (), next) →
          (action.result store.places = (.ok (), next.places) →
            ∃ gone : Int → Prop, Cleared gone store.tree next.tree ∧ gone id) →
          next.tree.idOfGuid? record.id = none := by
        intro action hdone hcleared
        obtain ⟨gone, hcleared, hself⟩ := hcleared (exists_of_result_onTree hdone)
        exact free_of_cleared hcleared h hid hself
      cases type with
      | bookmark => exact hgone hrest fun hdone => Places.cleared_of_removeBookmark h hrow hdone
      | folder =>
          exact hgone hrest fun hdone =>
            ⟨_, Places.cleared_of_removeFolder h hdone, Encloses.refl _ _⟩
      | separator =>
          exact hgone hrest fun hdone =>
            ⟨_, Places.cleared_of_removeItem h hdone, Encloses.refl _ _⟩

end BookmarkStore

end SyncedBookmarks
