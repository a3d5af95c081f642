import SyncedBookmarks.Proofs.ClientRuns
import SyncedBookmarks.Proofs.Watching

namespace SyncedBookmarks

/-! The tracker hears of every change that a local operation makes, as far as it listens. -/

namespace Row

theorem Alike.unplaced {row other : Row} (h : row.Alike other) : row.Alike other.unplaced :=
  ⟨h.parent, h.gist⟩

theorem alike_annotate {name : String} (hname : name ∉ AnnotationName.synced) (row : Row)
    (value : String) : row.Alike (row.annotate name value) := by
  refine alike_annotations fun other hother => ?_
  have hne : other ≠ name := fun heq => hname (heq ▸ hother)
  exact (row.annotationOf?_annotate name value other).trans (if_neg hne)

theorem alike_unannotate {name : String} (hname : name ∉ AnnotationName.synced) (row : Row) :
    row.Alike (row.unannotate name) := by
  refine alike_annotations fun other hother => ?_
  have hne : other ≠ name := fun heq => hname (heq ▸ hother)
  exact (row.annotationOf?_unannotate name other).trans (if_neg hne)

end Row

namespace Tree

theorem parentIn_mapRow {change : Row → Row} (h : Lasting change) (tree : Tree) (id other : Int) :
    Tracker.parentIn (tree.mapRow id change) other = Tracker.parentIn tree other := by
  rw [parentIn_eq_known?, parentIn_eq_known?, h.known?]
  split
  · rename_i heq
    subst heq
    cases tree.known? other with
    | none => rfl
    | some row =>
        simp only [Option.map_some, Option.bind_some, Row.unplaced_typeCode, Row.unplaced_parent,
          h.typeCode, h.parent]
  · rfl

theorem isLivemark_annotate {tree : Tree} {other : Int} (h : tree.isLivemark other = true)
    (id : Int) (name value : String) :
    (tree.mapRow id (·.annotate name value)).isLivemark other = true := by
  rw [isLivemark, isAnnotated, annotationOf?_eq_known?] at h ⊢
  rw [(steady_annotate name value).known?]
  split
  · rename_i heq
    subst heq
    obtain ⟨feed, hfeed⟩ := Option.isSome_iff_exists.mp h
    obtain ⟨row, hrow, hvalue⟩ := Option.bind_eq_some_iff.mp hfeed
    rw [hrow, Option.map_some, Option.bind_some, Row.unplaced_annotationOf?,
      Row.annotationOf?_annotate]
    split
    · rfl
    · rw [hvalue]
      rfl
  · exact h

/-- What a further annotation leaves watched was watched before. -/
theorem Watched.of_annotate {tree : Tree} {id other : Int} {name value : String}
    (h : (tree.mapRow id (·.annotate name value)).Watched other) : tree.Watched other := by
  have hlasting := Places.lasting_annotate name value
  intro folder habove
  have hlisted := h folder ((hlasting.above? tree id other).trans habove)
  rw [Tracker.isUnsyncedFolder, parentIn_mapRow hlasting, Bool.or_eq_false_iff] at hlisted
  rw [Tracker.isUnsyncedFolder, hlisted.1, Bool.false_or]
  by_contra hlive
  rw [Bool.not_eq_false] at hlive
  cases (isLivemark_annotate hlive id name value).symm.trans hlisted.2

end Tree

namespace Places

open SyncedBookmarks.Action SyncedBookmarks.Tree

variable {tracker : Tracker} {places next : Places} {before : Tree} {id : Int}

/-! ### Writing to one item -/

/-- What an operation leaves that at most changes one item, and tells of it if that counts. -/
inductive Retold (id : Int) (places : Places) : Places → Prop
  | same : Retold id places places
  | told (change : Row → Row) (event : Event) (hsteady : Steady change)
      (hguid : ∀ row, (change row).guid = row.guid)
      (htold : (∀ tree : Tree, event.About tree id) ∨ ∀ row : Row, row.Alike (change row)) :
      Retold id places
        (({ places with tree := places.tree.mapRow id change } : Places).told event)

theorem noted_of_same (h : ∀ other, next.tree.known? other = before.known? other) :
    Noted tracker before next := by
  refine Shrunk.noted ⟨fun other row hrow => (h other).symm.trans hrow, ?_⟩
  intro other row hrow hnone
  cases hrow.symm.trans ((h other).symm.trans hnone)

theorem Retold.noted (h : Retold id places next) (hlistens : tracker.suppressed = false) :
    Noted tracker places.tree next := by
  cases h with
  | same => exact noted_of_same fun _ => rfl
  | told change event hsteady hguid htold =>
      have hknown := hsteady.known? places.tree id
      cases hrow : places.tree.known? id with
      | none =>
          refine noted_of_same fun other => (hknown other).trans ?_
          split
          · rename_i heq
            rw [heq, hrow]
            rfl
          · rfl
      | some row =>
          have hrow' : (places.tree.mapRow id change).known? id = some (change row).unplaced := by
            rw [hknown, if_pos rfl, hrow, Option.map_some]
          refine noted_of_edit hrow hrow' ?_ (hguid row) ?_
          · exact fun other hne => (hknown other).trans (if_neg hne)
          · intro hunlike hwatched
            rcases htold with habout | halike
            · refine heard_of_about hlistens rfl (habout _) ?_ hwatched
              rw [guidOf?_eq_known?, hrow', Option.map_some, Row.unplaced_guid, hguid]
            · exact absurd (halike row).unplaced hunlike

theorem retold_setTitle (id : Int) (title : String) (places : Places) :
    Retold id places ((setTitle id title).result places).2 := by
  simp only [setTitle, result_bind, result_look]
  split
  · exact .same
  · exact .told _ (.changed id "title" false title) (steady_title _) (fun _ => rfl)
      (.inl fun _ => ⟨rfl, fun hfalse => by cases hfalse⟩)

theorem retold_setUrl (id : Int) (uri : String) (places : Places) :
    Retold id places ((setUrl id uri).result places).2 := by
  rw [setUrl, result_bind, result_checked]
  cases validateUri uri with
  | error cause => exact .same
  | ok checked =>
      simp only [result_bind, result_look]
      split
      · exact .same
      · exact .told _ (.changed id "uri" false checked) (steady_url _) (fun _ => rfl)
          (.inl fun _ => ⟨rfl, fun hfalse => by cases hfalse⟩)

theorem retold_setKeyword (id : Int) (keyword : Option String) (places : Places) :
    Retold id places ((setKeyword id keyword).result places).2 := by
  simp only [setKeyword, result_bind, result_look]
  split
  · exact .same
  · exact .told _ (.changed id "keyword" false _) (steady_keyword _) (fun _ => rfl)
      (.inl fun _ => ⟨rfl, fun hfalse => by cases hfalse⟩)

theorem retold_annotate (id : Int) (name value : String) (places : Places) :
    Retold id places ((annotate id name value).result places).2 := by
  rw [annotate, result_bind, result_checked]
  cases places.tree.requireItem id with
  | error cause => exact .same
  | ok item =>
      refine .told _ (.changed id name true value) (steady_annotate name value) (fun _ => rfl) ?_
      by_cases hname : name ∈ AnnotationName.synced
      · exact .inl fun _ => ⟨rfl, fun _ => hname⟩
      · exact .inr fun row => Row.alike_annotate hname row value

theorem retold_unannotate (id : Int) (name : String) (places : Places) :
    Retold id places ((unannotate id name).result places).2 := by
  simp only [unannotate, result_bind, result_look]
  split
  · refine .told _ (.changed id name true "") (steady_unannotate name) (fun _ => rfl) ?_
    by_cases hname : name ∈ AnnotationName.synced
    · exact .inl fun _ => ⟨rfl, fun _ => hname⟩
    · exact .inr (Row.alike_unannotate hname)
  · exact .same

theorem retold_setSite (id : Int) (uri : String) (places : Places) :
    Retold id places ((setSite id uri).result places).2 := by
  rw [setSite, result_bind, result_checked]
  cases validateUri uri with
  | error cause => exact .same
  | ok checked => exact retold_annotate id _ checked places

theorem retold_setFeed (id : Int) (uri : String) (places : Places) :
    Retold id places ((setFeed id uri).result places).2 := by
  rw [setFeed, result_bind, result_checked]
  cases validateUri uri with
  | error cause => exact .same
  | ok checked => exact retold_annotate id _ checked places

/-! ### Moves -/

theorem noted_moveItem (h : places.tree.WellFormed) (hlistens : tracker.suppressed = false)
    (id newParent index : Int) :
    Noted tracker places.tree ((moveItem id newParent index).result places).2 := by
  by_cases hnot : ∀ row, places.tree.row? id = some row → places.tree.IsFolder newParent →
      places.tree.Encloses id newParent
  · obtain ⟨cause, hresult⟩ := result_moveItem_of_not h hnot index
    rw [hresult]
    exact noted_of_same fun _ => rfl
  · push Not at hnot
    obtain ⟨row, hrow, hfolder, houtside⟩ := hnot
    have hknown := known?_moved hrow newParent index
    have hself := (hknown id).trans (if_pos rfl)
    rw [result_moveItem h hrow hfolder houtside index]
    have hbefore := Tree.known?_of_row? hrow
    refine noted_of_edit hbefore hself ?_ rfl ?_
    · exact fun other hne => (hknown other).trans (if_neg hne)
    · intro _ hwatched
      refine heard_of_about hlistens rfl rfl ?_ hwatched
      rw [guidOf?_eq_known?]
      exact congrArg (Option.map (·.guid)) hself

/-! ### Insertion -/

/-- The tracker knows of a new item if it watches it. -/
theorem ensures_insertItem_grown (hlistens : tracker.suppressed = false) (parent index : Int)
    {type : ItemType} {title url : Option String} (hfit : Fitting type title url) :
    (insertItem parent index type title url).Ensures (Grown tracker before)
      fun id => before.known? id = none := by
  intro places h
  have hwell := h.wellFormed
  cases hfolder : places.tree.requireFolder parent with
  | error cause =>
      simp only [insertItem, result_bind, result_checked, hfolder]
      exact ⟨h, fun _ hvalue => by cases hvalue⟩
  | ok value =>
      have hparent := (hwell.requireFolder_iff parent).mp hfolder
      rw [result_insertItem hfolder]
      -- The tracker looks at the tree with the item in it, where no folder is any less listed.
      have hknown := hwell.known?_inserted parent index type title url
      have hpart : ∀ id row, places.tree.known? id = some row →
          (places.tree.inserted parent index type title url).known? id = some row := by
        intro id row hrow
        rw [hknown, if_neg]
        · exact hrow
        · rintro rfl
          cases hwell.known?_nextId.symm.trans hrow
      constructor
      · constructor
        case wellFormed => exact hwell.inserted hparent index hfit
        case kept => exact fun id row hrow => hpart id row (h.kept id row hrow)
        case made =>
          intro id row hnone hrow hwatched
          have hfound := hrow
          change (places.tree.inserted parent index type title url).known? id = some row at hfound
          rw [hknown] at hfound
          split at hfound
          · rename_i heq
            subst heq
            refine heard_of_about hlistens rfl ⟨rfl, ?_⟩ ?_ hwatched
            · refine (above?_of_known? hrow).trans ?_
              rw [← Option.some.inj hfound]
              rfl
            · exact (guidOf?_eq_known? _ _).trans (congrArg (Option.map (·.guid)) hrow)
          · exact (h.made id row hnone hfound (hwatched.of_part hpart hfound)).mono rfl
      · intro id hid
        obtain rfl := Except.ok.inj hid
        by_contra hthere
        obtain ⟨row, hrow⟩ := Option.ne_none_iff_exists'.mp hthere
        cases hwell.known?_nextId.symm.trans (h.kept _ row hrow)

theorem ensures_createFolder_grown (hlistens : tracker.suppressed = false) (parent : Int)
    (title : String) (index : Int) : (createFolder parent title index).Ensures
      (Grown tracker before) fun id => before.known? id = none :=
  ensures_insertItem_grown hlistens parent index (fitting_folder title)

theorem keeps_insertBookmark_grown (hlistens : tracker.suppressed = false) (parent : Int)
    (uri : String) (index : Int) (title : Option String) :
    (insertBookmark parent uri index title).Keeps (Grown tracker before) := by
  intro places h
  rw [insertBookmark, result_bind, result_checked]
  cases huri : validateUri uri with
  | error cause => exact h
  | ok checked =>
      obtain rfl := eq_of_validateUri huri
      exact (ensures_insertItem_grown hlistens parent index
        (fitting_bookmark huri title)).keeps places h

theorem keeps_annotate_grown (hnew : before.known? id = none) (name value : String) :
    (annotate id name value).Keeps (Grown tracker before) := by
  intro places h
  have hwell := keeps_annotate id name value places h.wellFormed
  revert hwell
  rw [annotate, result_bind, result_checked]
  cases places.tree.requireItem id with
  | error cause => exact fun _ => h
  | ok item =>
      intro hwell
      have hknown := (steady_annotate name value).known? places.tree id
      constructor
      case wellFormed => exact hwell
      case kept =>
        intro other row hrow
        have hne : other ≠ id := by
          rintro rfl
          cases hnew.symm.trans hrow
        exact (hknown other).trans ((if_neg hne).trans (h.kept other row hrow))
      case made =>
        intro other row hnone hrow hwatched
        have hfound := (hknown other).symm.trans hrow
        have hbefore := hwatched.of_annotate
        split at hfound
        · rename_i heq
          subst heq
          obtain ⟨found, hold, rfl⟩ := Option.map_eq_some_iff.mp hfound
          exact (h.made other found hnone hold hbefore).mono rfl
        · exact (h.made other row hnone hfound hbefore).mono rfl

theorem keeps_createLivemark_grown (hlistens : tracker.suppressed = false) (parent : Int)
    (title : String) (site : Option String) (feed : String) (index : Int) :
    (createLivemark parent title site feed index).Keeps (Grown tracker before) :=
  (ensures_createLivemark site feed (ensures_createFolder_grown hlistens parent title index)
    fun _ hnew name value _ => keeps_annotate_grown hnew name value).keeps

theorem keeps_tagUri_grown (hlistens : tracker.suppressed = false) (uri : String)
    (tags : List String) : (tagUri uri tags).Keeps (Grown tracker before) :=
  keeps_tagUri_of
    (fun tag => (ensures_createFolder_grown hlistens RootId.tags tag atEnd).keeps)
    (fun folder => keeps_insertBookmark_grown hlistens folder uri atEnd none) tags

/-! ### Removal -/

/-- A deletion is told first, and then at most the item goes. -/
theorem deleteRow_cases (places : Places) (id : Int) :
    ∃ told tree, ((deleteRow id).result places).2 =
        { places with tree, notices := places.notices ++ [⟨.removing id told, places.tree⟩] } ∧
      (tree = places.tree ∨
        ∃ row, places.tree.row? id = some row ∧ tree = places.tree.removed row) := by
  refine ⟨(places.tree.guidOf? id).getD "", ?_⟩
  simp only [deleteRow, tell, result_bind, result_look, result_change, result_checked]
  cases hitem : places.tree.requireItem id with
  | error cause => exact ⟨places.tree, rfl, .inl rfl⟩
  | ok item =>
      obtain ⟨row, hrow, hread⟩ := exists_row_of_requireItem hitem
      obtain ⟨hid, -, hparent, hposition, -⟩ := Row.item_eq_ok_iff.mp hread
      refine ⟨places.tree.removed row, ?_, .inr ⟨row, hrow, rfl⟩⟩
      rw [removed, ← hparent, ← hposition, ← hid]
      simp only [edit, result_change]
      cases item.parent <;> rfl

/-- The tracker knows of a deleted item if it watched it. -/
theorem keeps_deleteRow_shrunk (hlistens : tracker.suppressed = false) (id : Int) :
    (deleteRow id).Keeps (Shrunk tracker before) := by
  intro places h
  obtain ⟨told, tree, hnext, rfl | ⟨row, hrow, rfl⟩⟩ := deleteRow_cases places id
  · rw [hnext]
    exact ⟨h.kept, fun other found hfound hnone hwatched =>
      (h.gone other found hfound hnone hwatched).mono rfl⟩
  · rw [hnext]
    have hid := id_of_row? hrow
    have hknown := known?_removed places.tree row
    rw [hid] at hknown
    constructor
    case kept =>
      intro other found hfound
      have hbefore := (hknown other).symm.trans hfound
      split at hbefore
      · cases hbefore
      · exact h.kept other found hbefore
    case gone =>
      intro other found hfound hnone hwatched
      have hafter := (hknown other).symm.trans hnone
      split at hafter
      · rename_i heq
        subst heq
        -- It was told before the item went, on the tree in which it still was.
        have hthere := Tree.known?_of_row? hrow
        obtain rfl := Option.some.inj (hfound.symm.trans (h.kept other _ hthere))
        refine heard_of_about hlistens rfl rfl ?_ (hwatched.of_part h.kept hthere)
        rw [guidOf?_eq_known?, hthere, Option.map_some]
      · exact (h.gone other found hfound hafter hwatched).mono rfl

end Places

/-! ### Any operation -/

namespace Mutation

open SyncedBookmarks.Places

/-- Of whatever a call changes, but for the name of an item, the tracker knows. -/
theorem noted_run {tracker : Tracker} (hlistens : tracker.suppressed = false) {places : Places}
    (h : places.tree.WellFormed) {mutation : Mutation}
    (hmutation : ∀ id guid, mutation ≠ .setGuid id guid) :
    Noted tracker places.tree (mutation.run places) := by
  have hgrown : Grown tracker places.tree places := .refl h
  have hshrunk : Shrunk tracker places.tree places := .refl places
  have hdelete : ∀ id, (deleteRow id).Keeps (Shrunk tracker places.tree) :=
    keeps_deleteRow_shrunk hlistens
  cases mutation with
  | insertBookmark parent uri index title =>
      exact (((keeps_insertBookmark_grown hlistens parent uri index title).map _) places
        hgrown).noted
  | createFolder parent title index =>
      exact (((ensures_createFolder_grown hlistens parent title index).keeps.map _) places
        hgrown).noted
  | insertSeparator parent index =>
      exact (((ensures_insertItem_grown hlistens parent index fitting_separator).keeps.map _) places
        hgrown).noted
  | setTitle id title => exact (retold_setTitle id title places).noted hlistens
  | setUrl id uri => exact (retold_setUrl id uri places).noted hlistens
  | setKeyword id keyword => exact (retold_setKeyword id keyword places).noted hlistens
  | setGuid id guid => exact absurd rfl (hmutation id guid)
  | moveItem id newParent index => exact noted_moveItem h hlistens id newParent index
  | removeItem id => exact (keeps_removeItem_of hdelete id places hshrunk).noted
  | removeFolder id => exact (keeps_removeFolder_of hdelete id places hshrunk).noted
  | removeChildren folder => exact (keeps_removeChildren_of hdelete folder places hshrunk).noted
  | annotate id name value => exact (retold_annotate id name value places).noted hlistens
  | unannotate id name => exact (retold_unannotate id name places).noted hlistens
  | tagUri uri tags => exact (keeps_tagUri_grown hlistens uri tags places hgrown).noted
  | untagUri uri tags => exact (keeps_untagUri_of hdelete uri tags places hshrunk).noted
  | createLivemark parent title site feed index =>
      exact (((keeps_createLivemark_grown hlistens parent title site feed index).map _) places
        hgrown).noted
  | setSite id uri => exact (retold_setSite id uri places).noted hlistens
  | setFeed id uri => exact (retold_setFeed id uri places).noted hlistens
  | beginBatch =>
      exact noted_of_same fun other => congrArg (Tree.known? · other) (tree_beginBatch places)
  | endBatch =>
      exact noted_of_same fun other => congrArg (Tree.known? · other) (tree_endBatch places)

end Mutation

end SyncedBookmarks
