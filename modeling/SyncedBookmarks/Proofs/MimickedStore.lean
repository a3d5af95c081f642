import SyncedBookmarks.Proofs.MimickedSteps
import SyncedBookmarks.Proofs.StoreRuns

namespace SyncedBookmarks

/-! Two stores whose trees differ only in the numbers of their items take a record in alike, and
make the same records from their items. -/

/-- Whether a record is not one of a query and does not carry the URI of one. -/
structure Record.Plain (record : Record) : Prop where
  kind : record.kind ≠ .query
  url : NoQuery record.bmkUri

namespace BookmarkStore

open SyncedBookmarks.Action SyncedBookmarks.Tree

/-- Whether two stores are the same but for the numbers of their items. -/
structure InStep (shift : Nat) (store other : BookmarkStore) : Prop where
  places : Places.InStep shift store.places other.places
  cache : other.cache = store.cache
  generators : other.generators = store.generators

variable {shift : Nat}

theorem InStep.tree {store other : BookmarkStore} (h : InStep shift store other) :
    store.tree.Counterpart shift other.tree :=
  h.places.1

/-! ### Steps -/

theorem mimics_onTree {action : TreeAction α} {action' : TreeAction β} {R : α → β → Prop}
    (h : action.Mimics (Places.InStep shift) R action') :
    (onTree action).Mimics (InStep shift) R (onTree action') :=
  h.within (fun _ _ hboth => hboth.places) fun _ _ _ _ hboth hnext =>
    ⟨hnext, hboth.cache, hboth.generators⟩

theorem mimics_look {view : Tree → α} {view' : Tree → β} {R : α → β → Prop}
    (h : ∀ tree other, tree.Counterpart shift other → R (view tree) (view' other)) :
    (look view).Mimics (InStep shift) R (look view') :=
  mimics_read fun _ _ hboth => h _ _ hboth.tree

/-- A look at what is the same in both trees. -/
theorem mimics_lookSame {view view' : Tree → α}
    (h : ∀ tree other, tree.Counterpart shift other → view' other = view tree) :
    (look view).Mimics (InStep shift) Eq (look view') :=
  mimics_look fun tree other hboth => (h tree other hboth).symm

/-- A look at two things of which the one can be told from the other. -/
theorem mimics_lookAt {view : Tree → α} {view' : Tree → β} {f : α → β}
    (h : ∀ tree other, tree.Counterpart shift other → view' other = f (view tree)) :
    (look view).Mimics (InStep shift) (fun value value' => value' = f value) (look view') :=
  mimics_look h

theorem mimics_checked {view : Tree → Except TreeError α} {view' : Tree → Except TreeError β}
    {R : α → β → Prop}
    (h : ∀ tree other, tree.Counterpart shift other → SameOutcome R (view tree) (view' other)) :
    (check view).Mimics (InStep shift) R (check view') :=
  mimics_onTree (Places.inStep (Places.mimics_checked h) (Places.keeps_checked _)
    (Places.keeps_checked _))

theorem mimics_require (name : String) (value : Option α) :
    (require name value).Mimics (InStep shift) (fun found found' => found = found' ∧
      value = some found) (require name value) := by
  cases value with
  | none => exact mimics_throw _ _
  | some value => exact mimics_pure ⟨rfl, rfl⟩

theorem mimics_forget (guid : String) :
    (Action.change (·.forget guid) : StoreAction Unit).Mimics (InStep shift) Eq
      (Action.change (·.forget guid) : StoreAction Unit) :=
  mimics_change fun _ _ hboth => ⟨hboth.places, congrArg (List.filter _) hboth.cache,
    hboth.generators⟩

theorem mimics_remember (guid : String) (record : Record) :
    (Action.change (·.remember guid record) : StoreAction Unit).Mimics (InStep shift) Eq
      (Action.change (·.remember guid record) : StoreAction Unit) :=
  mimics_change fun _ _ hboth => ⟨hboth.places,
    congrArg (fun cache => List.filter _ cache ++ [(guid, record)]) hboth.cache, hboth.generators⟩

theorem mimics_generators :
    (Action.read generators : StoreAction _).Mimics (InStep shift) Eq
      (Action.read generators : StoreAction _) :=
  mimics_read fun _ _ hboth => hboth.generators.symm

theorem mimics_replaceTags {uri : String} (hquery : isQuery uri = false) (tags : List String) :
    (replaceTags uri tags).Mimics (InStep shift) Eq (replaceTags uri tags) :=
  (mimics_onTree (Places.mimics_tagUri (by decide +kernel) _)).bind fun _ _ _ =>
    (mimics_onTree (Places.mimics_untagUri _ _)).bind fun _ _ _ =>
    (mimics_onTree (Places.mimics_tagUri hquery _)).bind fun _ _ _ =>
    mimics_onTree (Places.mimics_untagUri _ _)

section Item

variable {id id' : Int} (hid : Twins shift id id') {record : Record}

include hid

/-! ### The fields of an item -/

theorem mimics_tryGenerator (generator : String) :
    (tryGenerator id generator).Mimics (InStep shift) Eq (tryGenerator id' generator) := by
  have hbind : (bindGenerator id generator).Mimics (InStep shift) Eq
      (bindGenerator id' generator) := by
    refine mimics_generators.bind ?_
    rintro installed _ rfl
    cases installed with
    | none => exact mimics_pure rfl
    | some installed =>
        exact Mimics.ite Iff.rfl (fun _ => mimics_onTree (Places.mimics_annotate hid _ _))
          fun _ => mimics_throw _ _
  exact hbind.attempt.bind fun _ _ _ => mimics_pure rfl

theorem mimics_fillBookmark (record : Record) {uri : String} (hquery : isQuery uri = false) :
    (fillBookmark id record uri).Mimics (InStep shift) Eq (fillBookmark id' record uri) := by
  have hannotate : ∀ name value, (onTree (Places.annotate id name value)).Mimics (InStep shift) Eq
      (onTree (Places.annotate id' name value)) :=
    fun name value => mimics_onTree (Places.mimics_annotate hid name value)
  have hsummary : (fillSummary id record).Mimics (InStep shift) Eq (fillSummary id' record) :=
    Mimics.ite Iff.rfl (fun _ => (hannotate _ _).bind fun _ _ _ =>
      mimics_optionForM _ (mimics_tryGenerator hid)) fun _ => mimics_pure rfl
  rw [fillBookmark_eq, fillBookmark_eq]
  refine (mimics_optionForM _ (mimics_replaceTags hquery)).bind fun _ _ _ =>
    (mimics_onTree (Places.mimics_setKeyword hid _)).bind fun _ _ _ =>
    (mimics_optionForM _ fun _ => hannotate _ _).bind fun _ _ _ => ?_
  exact Mimics.ite Iff.rfl (fun _ => (hannotate _ _).bind fun _ _ _ => hsummary) fun _ => hsummary

theorem mimics_updateParent (parent : Int) :
    (updateParent id parent).Mimics (Places.InStep shift) Eq
      (updateParent id' (renumber shift parent)) := by
  refine (Places.inStep (Places.mimics_checked fun _ _ hboth => hboth.parentOf? hid)
    (Places.keeps_checked _) (Places.keeps_checked _)).bind ?_
  rintro above _ rfl
  refine Mimics.ite ?_ (fun _ => Places.mimics_moveItem hid parent) fun _ => mimics_pure rfl
  cases above <;> simp

theorem mimics_updateTags (tags : List String) :
    (updateTags id tags).Mimics (InStep shift) Eq (updateTags id' tags) := by
  refine (mimics_checked fun _ _ hboth => hboth.url? hid).bind ?_
  rintro url _ ⟨rfl, hquery⟩
  cases url with
  | none => exact mimics_pure rfl
  | some uri => exact mimics_replaceTags (hquery uri rfl) tags

theorem mimics_updateDescription (description : String) :
    (onTree (updateDescription id description)).Mimics (InStep shift) Eq
      (onTree (updateDescription id' description)) :=
  mimics_onTree (Mimics.ite Iff.rfl (fun _ => Places.mimics_unannotate hid _)
    fun _ => Places.mimics_annotate hid _ _)

theorem mimics_updateSidebar (load : Bool) :
    (onTree (updateSidebar id load)).Mimics (InStep shift) Eq
      (onTree (updateSidebar id' load)) :=
  mimics_onTree (Mimics.ite Iff.rfl (fun _ => Places.mimics_annotate hid _ _)
    fun _ => Places.mimics_unannotate hid _)

theorem mimics_updateGenerator (generator : String) :
    (updateGenerator id generator).Mimics (InStep shift) Eq (updateGenerator id' generator) := by
  refine (mimics_look fun _ _ hboth => hboth.url? hid).bind ?_
  rintro _ _ (⟨rfl, -⟩ | _)
  · rename_i url
    cases url with
    | none => exact mimics_pure rfl
    | some uri => exact mimics_tryGenerator hid generator
  · exact mimics_pure rfl

theorem mimics_updateFields (hplain : record.Plain) :
    (updateFields id record).Mimics (InStep shift) Eq (updateFields id' record) := by
  have hgiven : (record.bmkUri.forM fun uri => onTree (Places.setUrl id uri)).Mimics (InStep shift)
      Eq (record.bmkUri.forM fun uri => onTree (Places.setUrl id' uri)) := by
    cases huri : record.bmkUri with
    | none => exact mimics_pure rfl
    | some uri => exact mimics_onTree (Places.mimics_setUrl hid (hplain.url uri huri))
  exact (mimics_optionForM _ fun _ => mimics_onTree (Places.mimics_setTitle hid _)).bind
    fun _ _ _ => hgiven.bind
    fun _ _ _ => (mimics_optionForM _ (mimics_updateTags hid)).bind
    fun _ _ _ => (mimics_optionForM _ fun _ => mimics_onTree (Places.mimics_setKeyword hid _)).bind
    fun _ _ _ => (mimics_optionForM _ (mimics_updateDescription hid)).bind
    fun _ _ _ => (mimics_optionForM _ (mimics_updateSidebar hid)).bind
    fun _ _ _ => (mimics_optionForM _ (mimics_updateGenerator hid)).bind
    fun _ _ _ => (mimics_optionForM _ fun _ => mimics_onTree (Places.mimics_setSite hid _)).bind
    fun _ _ _ => mimics_optionForM _ fun _ => mimics_onTree (Places.mimics_setFeed hid _)

theorem mimics_removeBookmark :
    (removeBookmark id).Mimics (Places.InStep shift) Eq (removeBookmark id') := by
  refine (Places.inStep (Places.mimics_checked fun _ _ hboth => hboth.url? hid)
    (Places.keeps_checked _) (Places.keeps_checked _)).bind ?_
  rintro url _ ⟨rfl, -⟩
  exact (mimics_optionForM _ fun _ => Places.mimics_untagUri _ _).bind fun _ _ _ =>
    Places.inStep (Places.mimics_removeItem hid) (Places.keeps_removeItem id)
      (Places.keeps_removeItem id')

theorem mimics_markOrphan (parent : Option Int) (orphanOf : Option String) :
    (markOrphan id parent orphanOf).Mimics (Places.InStep shift) Eq
      (markOrphan id' (parent.map (renumber shift)) orphanOf) := by
  cases orphanOf with
  | some guid => exact Places.mimics_annotate hid _ _
  | none =>
      exact Mimics.ite (by simp) (fun _ => Places.mimics_unannotate hid _) fun _ => mimics_pure rfl

end Item

/-! ### Incoming records -/

section Record

variable {record : Record} (hroot : record.id ∉ RootGuid.all)

theorem mimics_createBookmark (hplain : record.Plain) (parent : Int) :
    (createBookmark record parent).Mimics (InStep shift) (Twins shift)
      (createBookmark record (renumber shift parent)) := by
  refine (mimics_require "bmkUri" record.bmkUri).bind ?_
  rintro uri _ ⟨rfl, huri⟩
  have hquery := hplain.url uri huri
  exact (mimics_onTree (Places.mimics_insertBookmark parent hquery record.title)).bind
    fun id id' hid => (mimics_fillBookmark hid record hquery).bind fun _ _ _ => mimics_pure hid

theorem mimics_createItem (hplain : record.Plain) (parent : Int) :
    (createItem record parent).Mimics (InStep shift) (Option.Rel (Twins shift))
      (createItem record (renumber shift parent)) := by
  have hsome : ∀ {action other : StoreAction Int},
      action.Mimics (InStep shift) (Twins shift) other →
        (some <$> action).Mimics (InStep shift) (Option.Rel (Twins shift)) (some <$> other) :=
    fun hboth => hboth.map fun _ _ hid => .some hid
  rw [createItem, createItem]
  cases hkind : record.kind with
  | bookmark => exact hsome (mimics_createBookmark hplain parent)
  | query => exact absurd hkind hplain.kind
  | microsummary => exact hsome (mimics_createBookmark hplain parent)
  | folder => exact hsome (mimics_onTree (Places.mimics_createFolder parent _))
  | livemark =>
      refine (mimics_require "feedUri" record.feedUri).bind ?_
      rintro feed _ ⟨rfl, -⟩
      exact hsome (mimics_onTree (Places.mimics_createLivemark parent _ _ feed))
  | separator => exact hsome (mimics_onTree (Places.mimics_insertSeparator parent))
  | item => exact mimics_pure .none
  | unknown => exact mimics_throw _ _

theorem mimics_create (hplain : record.Plain) (parent : Option Int) :
    (create record parent).Mimics (InStep shift) Eq
      (create record (parent.map (renumber shift))) := by
  cases parent with
  | none => exact mimics_throw _ _
  | some parent =>
      refine (mimics_createItem hplain parent).bind ?_
      rintro _ _ (hid | _)
      · refine (mimics_lookSame fun _ _ hboth => ?_).bind ?_
        · rw [hid.2]
          exact hboth.guidOf? _
        · rintro guid _ rfl
          exact Mimics.ite Iff.rfl (fun _ => mimics_onTree (Places.mimics_setGuid hid record.id))
            fun _ => mimics_pure rfl
      · exact mimics_pure rfl

include hroot

theorem mimics_update (hplain : record.Plain) (parent : Option Int) :
    (update record parent).Mimics (InStep shift) Eq
      (update record (parent.map (renumber shift))) := by
  refine (mimics_look fun _ _ hboth => hboth.twins_of_idOfGuid? hroot).bind ?_
  rintro _ _ (@⟨id, id', hid⟩ | _)
  · have hplace : (parent.forM fun parent => onTree (updateParent id parent)).Mimics (InStep shift)
        Eq ((parent.map (renumber shift)).forM fun parent => onTree (updateParent id' parent)) := by
      cases parent with
      | none => exact mimics_pure rfl
      | some parent => exact mimics_onTree (mimics_updateParent hid parent)
    exact hplace.bind fun _ _ _ => mimics_updateFields hid hplain
  · exact mimics_pure rfl

theorem mimics_remove : (remove record).Mimics (InStep shift) Eq (remove record) := by
  refine (mimics_look fun _ _ hboth => hboth.twins_of_idOfGuid? hroot).bind ?_
  rintro _ _ (hid | _)
  · refine (mimics_checked (R := Eq) fun _ _ hboth => ?_).bind ?_
    · rw [hid.2]
      exact hboth.typeOf? _
    · rintro type _ rfl
      split
      · exact mimics_onTree (mimics_removeBookmark hid)
      · exact mimics_onTree (Places.inStep (Places.mimics_removeFolder hid)
          (Places.keeps_removeFolder _) (Places.keeps_removeFolder _))
      · exact mimics_onTree (Places.inStep (Places.mimics_removeItem hid)
          (Places.keeps_removeItem _) (Places.keeps_removeItem _))
      · exact mimics_pure rfl
  · exact mimics_pure rfl

theorem mimics_bringIn (hplain : record.Plain) (parent : Option Int) :
    (bringIn record parent).Mimics (InStep shift) Eq
      (bringIn record (parent.map (renumber shift))) := by
  refine Mimics.ite Iff.rfl (fun _ => mimics_remove hroot) fun _ => ?_
  refine (mimics_lookSame fun _ _ hboth => ?_).bind ?_
  · rw [hboth.idOfGuid?, Option.isSome_map]
  · rintro there _ rfl
    exact Mimics.ite Iff.rfl (fun _ => mimics_update hroot hplain parent)
      fun _ => mimics_create hplain parent

omit hroot in
theorem mimics_settle {guid : String} (hroot : guid ∉ RootGuid.all) (parent : Option Int)
    (orphanOf : Option String) : (settle guid parent orphanOf).Mimics (InStep shift) Eq
      (settle guid (parent.map (renumber shift)) orphanOf) := by
  refine (mimics_forget guid).bind fun _ _ _ =>
    (mimics_look fun _ _ hboth => hboth.twins_of_idOfGuid? hroot).bind ?_
  rintro _ _ (hid | _)
  · exact mimics_onTree (mimics_markOrphan hid parent orphanOf)
  · exact mimics_pure rfl

omit hroot in
theorem destination_counterpart {tree other : Tree} (h : tree.Counterpart shift other)
    (parentid : Option String) : destination other parentid =
      ((destination tree parentid).1.map (renumber shift), (destination tree parentid).2) := by
  cases parentid with
  | none => rfl
  | some guid =>
      simp only [destination, h.idOfGuid? guid]
      cases tree.idOfGuid? guid with
      | none => simp
      | some id => rfl

omit hroot in
/-- An incoming record, of whatever item but a query, is taken in alike. -/
theorem mimics_applyIncoming (hplain : record.Plain) :
    (applyIncoming record).Mimics (InStep shift) Eq (applyIncoming record) := by
  by_cases hroot : record.id ∈ RootGuid.all
  · rw [applyIncoming, if_pos (List.contains_iff_mem.mpr hroot)]
    exact mimics_pure rfl
  · rw [applyIncoming_eq (by simpa using hroot), localized, if_neg hplain.kind, pure_bind]
    refine (mimics_lookAt (f := fun place => (place.1.map (renumber shift), place.2))
      fun _ _ hboth => destination_counterpart hboth record.parentid).bind ?_
    rintro ⟨parent, orphanOf⟩ _ rfl
    exact (mimics_bringIn hroot hplain parent).bind fun _ _ _ => mimics_settle hroot parent orphanOf

end Record

/-! ### Orphans -/

theorem mimics_reparent {id id' : Int} (hid : Twins shift id id') (mark : String) :
    (reparent id mark).Mimics (InStep shift) Eq (reparent id' mark) := by
  refine (mimics_lookAt fun _ _ hboth => hboth.idOfGuid? (intendedParent mark)).bind ?_
  rintro parent _ rfl
  cases parent with
  | none => exact mimics_pure rfl
  | some parent =>
      refine (mimics_onTree (Places.mimics_moveItem hid parent)).attempt.bind ?_
      rintro _ _ (_ | _)
      · refine (mimics_onTree (Places.mimics_unannotate hid _)).bind fun _ _ _ =>
          (mimics_lookSame fun _ _ hboth => ?_).bind ?_
        · rw [hid.2]
          exact hboth.guidOf? _
        · rintro guid _ rfl
          cases guid with
          | none => exact mimics_pure rfl
          | some guid => exact (mimics_forget guid).bind fun _ _ _ => mimics_pure rfl
      · exact mimics_pure rfl

theorem mimics_reparentAll {orphans orphans' : List (Int × String)}
    (hall : List.Forall₂ (fun entry entry' : Int × String =>
      Twins shift entry.1 entry'.1 ∧ entry'.2 = entry.2) orphans orphans') :
    (reparentAll orphans).Mimics (InStep shift) Eq (reparentAll orphans') := by
  induction hall with
  | nil => exact mimics_pure rfl
  | @cons entry entry' _ _ hentry _ ih =>
      obtain ⟨id, mark⟩ := entry
      obtain ⟨id', mark'⟩ := entry'
      obtain ⟨hid, rfl⟩ : Twins shift id id' ∧ mark' = mark := hentry
      refine (mimics_reparent hid mark').bind ?_
      rintro moved _ rfl
      refine ih.bind ?_
      rintro more _ rfl
      exact mimics_pure rfl

theorem mimics_reparentOrphans :
    reparentOrphans.Mimics (InStep shift) Eq reparentOrphans :=
  (mimics_look fun _ _ hboth => hboth.annotated AnnotationName.intendedParent).bind
    fun _ _ hall => mimics_reparentAll hall

/-! ### Records of items -/

section Item

variable {item item' : Item} (hitem : item.Counterpart shift item')

include hitem

theorem mimics_annotationOf? (name : String) :
    (look (·.annotationOf? item.id name)).Mimics (InStep shift) Eq
      (look (·.annotationOf? item'.id name)) :=
  mimics_lookSame fun _ _ hboth => by rw [hitem.twins.2, hboth.annotationOf?]

theorem mimics_generatorOf? :
    (generatorOf? item.id).Mimics (InStep shift) Eq (generatorOf? item'.id) := by
  refine mimics_generators.bind ?_
  rintro installed _ rfl
  exact Mimics.ite Iff.rfl (fun _ => mimics_annotationOf? hitem _) fun _ => mimics_pure rfl

theorem mimics_bookmarkKind :
    (bookmarkKind item).Mimics (InStep shift) Eq (bookmarkKind item') := by
  have hquery : isQuery (item.url.getD "") = false := by
    cases huri : item.url with
    | none => decide
    | some uri => exact hitem.1.noQuery uri huri
  refine (mimics_generatorOf? hitem).bind ?_
  rintro generator _ rfl
  cases generator with
  | some generator =>
      refine (mimics_annotationOf? hitem AnnotationName.staticTitle).bind ?_
      rintro title _ rfl
      exact mimics_pure (by rw [hitem.guid])
  | none =>
      dsimp only
      rw [hitem.url, if_neg (by simp [hquery]), if_neg (by simp [hquery])]
      exact mimics_pure (by rw [hitem.guid])

theorem mimics_bookmarkRecord :
    (bookmarkRecord item).Mimics (InStep shift) Eq (bookmarkRecord item') := by
  rw [bookmarkRecord_eq, bookmarkRecord_eq, hitem.url, hitem.title]
  refine (mimics_bookmarkKind hitem).bind ?_
  rintro record _ rfl
  refine (mimics_checked fun _ _ hboth => hboth.tagsOf _).bind ?_
  rintro tags _ rfl
  refine (mimics_checked fun _ _ hboth => hboth.keyword? hitem.twins).bind ?_
  rintro keyword _ rfl
  refine (mimics_annotationOf? hitem AnnotationName.description).bind ?_
  rintro description _ rfl
  refine (mimics_lookSame fun _ _ hboth => ?_).bind ?_
  · rw [isAnnotated, isAnnotated, hitem.twins.2, hboth.annotationOf?]
  · rintro loadInSidebar _ rfl
    exact mimics_pure rfl

theorem folderRecord_counterpart {tree other : Tree} (h : tree.Counterpart shift other) :
    folderRecord other item' = folderRecord tree item := by
  obtain ⟨-, rfl⟩ := hitem
  simp only [folderRecord, Item.renumbered, h.isLivemark, h.annotationOf?]

theorem mimics_ownRecord : (ownRecord item).Mimics (InStep shift) Eq (ownRecord item') := by
  rw [ownRecord, ownRecord, hitem.type, hitem.guid]
  cases item.type with
  | bookmark => exact mimics_bookmarkRecord hitem
  | folder => exact mimics_lookSame fun _ _ hboth => folderRecord_counterpart hitem hboth
  | separator => exact mimics_pure rfl

theorem mimics_parentGuid : (parentGuid item).Mimics (InStep shift) Eq (parentGuid item') := by
  refine (mimics_lookSame fun tree other hboth => ?_).bind ?_
  · rw [hitem.2, Item.renumbered]
    cases item.parent with
    | none => rfl
    | some parent => exact hboth.guidOf? parent
  · rintro guid _ rfl
    cases guid with
    | some guid => exact mimics_pure rfl
    | none =>
        have hmove := Places.mimics_moveItem hitem.twins RootId.unfiled
        rw [renumber_unfiled] at hmove
        exact (mimics_onTree hmove).bind fun _ _ _ => mimics_pure rfl

theorem mimics_recordOf : (recordOf item).Mimics (InStep shift) Eq (recordOf item') := by
  rw [recordOf_eq, recordOf_eq]
  refine (mimics_ownRecord hitem).bind ?_
  rintro record _ rfl
  refine (mimics_parentGuid hitem).bind ?_
  rintro parent _ rfl
  exact mimics_pure rfl

end Item

/-- The record of an item, and not of a root, is made alike. -/
theorem mimics_createRecord {guid : String} (hroot : guid ∉ RootGuid.all) :
    (createRecord guid).Mimics (InStep shift) Eq (createRecord guid) := by
  have hcached : (Action.read (cached? · guid) : StoreAction _).Mimics (InStep shift) Eq
      (Action.read (cached? · guid) : StoreAction _) :=
    mimics_read fun _ _ hboth => by rw [cached?, cached?, hboth.cache]
  have hfound : (check (itemOfGuid? · guid)).Mimics (InStep shift)
      (Option.Rel (Item.Counterpart shift)) (check (itemOfGuid? · guid)) := by
    refine mimics_checked fun tree other hboth => ?_
    have hid := hboth.twins_of_idOfGuid? hroot
    rw [itemOfGuid?, itemOfGuid?]
    generalize tree.idOfGuid? guid = id at hid
    generalize other.idOfGuid? guid = id' at hid
    cases hid with
    | none => exact .ok .none
    | some hid => exact hboth.item? hid
  have hkeep : ∀ record, (do
      Action.change (·.remember guid record)
      pure record : StoreAction Record).Mimics (InStep shift) Eq (do
        Action.change (·.remember guid record)
        pure record) :=
    fun record => (mimics_remember guid record).bind fun _ _ _ => mimics_pure rfl
  refine hcached.bind ?_
  rintro cached _ rfl
  cases cached with
  | some record => exact mimics_pure rfl
  | none =>
      refine hfound.bind ?_
      rintro _ _ (hitem | _)
      · refine (mimics_recordOf hitem).bind ?_
        rintro record _ rfl
        exact hkeep record
      · exact hkeep _

end BookmarkStore

end SyncedBookmarks
