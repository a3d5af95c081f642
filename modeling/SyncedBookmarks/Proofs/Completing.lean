import SyncedBookmarks.Proofs.Establishing

namespace SyncedBookmarks

/-! An item that is made of a record has all that the record gives it, so that applying the record
again, to what is then an item that there is, has nothing left to do. -/

/-- Whether a record has no fields but those of its kind. -/
structure Record.OfKind (record : Record) : Prop where
  bookmark : record.kind ∉ [RecordKind.bookmark, .query, .microsummary] →
    record.bmkUri = none ∧ record.tags = none ∧ record.keyword = none ∧
      record.description = none ∧ record.loadInSidebar = none ∧ record.folderName = none
  microsummary : record.kind ≠ .microsummary →
    record.staticTitle = none ∧ record.generatorUri = none
  livemark : record.kind ≠ .livemark → record.siteUri = none ∧ record.feedUri = none
  separator : record.kind = .separator → record.title = none

namespace Row

variable {record : Record} {installed : Option (List String)}

/-- A new row with what a microsummary has beside what every bookmark has. -/
def summarizedBy (row : Row) (installed : Option (List String)) (record : Record) : Row :=
  if record.kind = .microsummary then
    let row := row.annotate AnnotationName.staticTitle (record.staticTitle.getD "")
    record.generatorUri.elim row (row.boundTo installed)
  else row

theorem filledBy_of_bookmark (row : Row) (htype : record.itemType = .bookmark) :
    row.filledBy record =
      let row := { row with keyword := record.keyword.filter (!·.isEmpty) }
      let row := (record.description.filter (!·.isEmpty)).elim row
        (row.annotate AnnotationName.description)
      if record.loadInSidebar = some true then row.annotate AnnotationName.loadInSidebar "true"
      else row := by
  unfold Record.itemType at htype
  unfold filledBy
  cases hkind : record.kind with
  | folder => rw [hkind] at htype; cases htype
  | livemark => rw [hkind] at htype; cases htype
  | separator => rw [hkind] at htype; cases htype
  | _ => rfl

theorem reannotated_summarizedBy (row : Row) (installed : Option (List String)) (record : Record) :
    row.Reannotated (row.summarizedBy installed record) := by
  unfold summarizedBy
  split
  · have hstatic : row.Reannotated
        (row.annotate AnnotationName.staticTitle (record.staticTitle.getD "")) := rfl
    exact hstatic.trans (reannotated_elim _ record.generatorUri (·.boundTo installed)
      (reannotated_boundTo · installed))
  · rfl

theorem annotationOf?_summarizedBy (row : Row) (installed : Option (List String)) (record : Record)
    {name : String} (hstatic : name ≠ AnnotationName.staticTitle)
    (hgenerator : name ≠ AnnotationName.generatorUri) :
    (row.summarizedBy installed record).annotationOf? name = row.annotationOf? name := by
  unfold summarizedBy
  split
  · cases record.generatorUri with
    | none => exact (annotationOf?_annotate row _ _ name).trans (if_neg hstatic)
    | some generator =>
        simp only [Option.elim_some, annotationOf?_boundTo, annotationOf?_annotate, hstatic,
          hgenerator, false_and, if_false]
  · rfl

theorem annotationOf?_filledBy (row : Row) (htype : record.itemType = .bookmark) (name : String) :
    (row.filledBy record).annotationOf? name =
      if name = AnnotationName.loadInSidebar ∧ record.loadInSidebar = some true then some "true"
      else (record.description.filter (!·.isEmpty)).elim (row.annotationOf? name) fun description =>
        if name = AnnotationName.description then some description else row.annotationOf? name := by
  rw [filledBy_of_bookmark row htype]
  have hdescribed : ∀ row : Row, ((record.description.filter (!·.isEmpty)).elim row
      (row.annotate AnnotationName.description)).annotationOf? name =
        (record.description.filter (!·.isEmpty)).elim (row.annotationOf? name) fun description =>
          if name = AnnotationName.description then some description
          else row.annotationOf? name := by
    intro row
    simp only [annotationOf?_elim, annotationOf?_annotate]
  dsimp only
  split
  · rw [annotationOf?_annotate, hdescribed]
    simp only [*, and_true]
    rfl
  · rw [hdescribed]
    simp only [*, and_false, if_false]
    rfl

/-- Without a generator in the record, a new item has none. -/
theorem generator_summarizedBy (hnone : record.generatorUri = none) (row : Row)
    (hannotations : row.annotations = []) (installed : Option (List String)) :
    ((row.filledBy record).summarizedBy installed record).annotationOf?
      AnnotationName.generatorUri = none := by
  have hbare : row.annotationOf? AnnotationName.generatorUri = none := by
    rw [annotationOf?, hannotations]
    rfl
  have hwritten : ∀ (row : Row) (name value : String), name ≠ AnnotationName.generatorUri →
      row.annotationOf? AnnotationName.generatorUri = none →
        (row.annotate name value).annotationOf? AnnotationName.generatorUri = none :=
    fun row name value hne hrow => (annotationOf?_annotate row _ _ _).trans
      ((if_neg hne.symm).trans hrow)
  have hgiven : ∀ (row : Row) (value : Option String) (name : String),
      name ≠ AnnotationName.generatorUri → row.annotationOf? AnnotationName.generatorUri = none →
        (value.elim row (row.annotate name)).annotationOf? AnnotationName.generatorUri = none := by
    intro row value name hne hrow
    cases value with
    | none => exact hrow
    | some value => exact hwritten row name value hne hrow
  have hfilled : (row.filledBy record).annotationOf? AnnotationName.generatorUri = none := by
    unfold filledBy
    split
    · exact hgiven _ _ _ (by decide) (hgiven _ _ _ (by decide) hbare)
    · exact hbare
    · exact hbare
    · dsimp only
      have hdescribed := hgiven { row with keyword := record.keyword.filter (!·.isEmpty) }
        (record.description.filter (!·.isEmpty)) AnnotationName.description (by decide) hbare
      split
      · exact hwritten _ _ _ (by decide) hdescribed
      · exact hdescribed
  unfold summarizedBy
  split
  · rw [hnone]
    exact hwritten _ _ _ (by decide) hfilled
  · exact hfilled

theorem filled_of_livemark (row : Row) (installed : Option (List String))
    (hkind : record.kind = .livemark) {feed : String} (hfeed : record.feedUri = some feed) :
    (row.filledBy record).summarizedBy installed record =
      record.siteUri.elim (row.annotate AnnotationName.feedUri feed)
        ((row.annotate AnnotationName.feedUri feed).annotate AnnotationName.siteUri) := by
  unfold summarizedBy filledBy
  simp [hkind, hfeed]

end Row

theorem Record.OfKind.itemType {record : Record} (h : record.OfKind)
    (hgiven : ¬ (record.bmkUri = none ∧ record.tags = none ∧ record.keyword = none ∧
      record.description = none ∧ record.loadInSidebar = none ∧ record.folderName = none)) :
    record.itemType = .bookmark := by
  have hkind := not_imp_comm.mp h.bookmark hgiven
  simp only [List.mem_cons, List.not_mem_nil, or_false] at hkind
  unfold Record.itemType
  rcases hkind with hkind | hkind | hkind <;> rw [hkind]

theorem Record.OfKind.newTitle_eq {record : Record} (h : record.OfKind) {title : String}
    (hgiven : record.title = some title) : record.newTitle = some title := by
  unfold Record.newTitle
  cases htype : record.itemType with
  | bookmark => exact hgiven
  | folder =>
      simp only
      rw [hgiven, Option.getD_some]
  | separator =>
      have hkind : record.kind = .separator := by
        unfold Record.itemType at htype
        cases hkind : record.kind <;> rw [hkind] at htype <;> first | rfl | cases htype
      rw [h.separator hkind] at hgiven
      cases hgiven

theorem Record.OfKind.newUrl_eq {record : Record} (h : record.OfKind) {uri : String}
    (hgiven : record.bmkUri = some uri) : record.newUrl = some uri := by
  have htype := h.itemType fun hnone => by simp [hgiven] at hnone
  rw [Record.newUrl, htype, hgiven]

namespace Row

variable {record : Record} {installed : Option (List String)}

section Wanting

variable (h : record.OfKind) {row : Row}

include h

/-- Only a livemark has an address of a feed or of a site. -/
theorem livemark_of_given {given : Option String}
    (hgiven : given = record.siteUri ∨ given = record.feedUri) (hsome : given.isSome) :
    record.kind = .livemark := by
  by_contra hother
  obtain ⟨hsite, hfeed⟩ := h.livemark hother
  rcases hgiven with rfl | rfl
  · simp [hsite] at hsome
  · simp [hfeed] at hsome

theorem annotationOf?_description_of_given
    (hnone : row.annotationOf? AnnotationName.description = none) {description : String}
    (hgiven : record.description = some description) :
    ((row.filledBy record).summarizedBy installed record).annotationOf?
      AnnotationName.description = (some description).filter (!·.isEmpty) := by
  have htype := h.itemType fun hnone => by simp [hgiven] at hnone
  rw [annotationOf?_summarizedBy _ _ _ (by decide) (by decide), annotationOf?_filledBy _ htype,
    hgiven, hnone, if_neg fun hother => absurd hother.1 (by decide)]
  cases (some description).filter (!·.isEmpty) with
  | none => rfl
  | some given => rw [Option.elim_some, if_pos rfl]

theorem annotationOf?_sidebar_of_given
    (hnone : row.annotationOf? AnnotationName.loadInSidebar = none) {load : Bool}
    (hgiven : record.loadInSidebar = some load) :
    ((row.filledBy record).summarizedBy installed record).annotationOf?
      AnnotationName.loadInSidebar = if load then some "true" else none := by
  have htype := h.itemType fun hnone => by simp [hgiven] at hnone
  rw [annotationOf?_summarizedBy _ _ _ (by decide) (by decide), annotationOf?_filledBy _ htype,
    hgiven, hnone]
  cases load with
  | true => rfl
  | false => cases record.description.filter (!·.isEmpty) <;> rfl

theorem annotationOf?_generator_of_given {generator : String}
    (hgiven : record.generatorUri = some generator)
    (hinstalled : installed.any (·.contains generator) = true) :
    ((row.filledBy record).summarizedBy installed record).annotationOf?
      AnnotationName.generatorUri = some generator := by
  have hkind : record.kind = .microsummary := by
    by_contra hother
    rw [(h.microsummary hother).2] at hgiven
    cases hgiven
  unfold summarizedBy
  rw [if_pos hkind, hgiven, Option.elim_some, annotationOf?_boundTo]
  exact if_pos ⟨rfl, hinstalled⟩

theorem annotationOf?_site_of_given {site : String} (hgiven : record.siteUri = some site) :
    ((row.filledBy record).summarizedBy installed record).annotationOf?
      AnnotationName.siteUri = some site := by
  have hkind := livemark_of_given h (.inl rfl) (by rw [hgiven, Option.isSome_some])
  rw [annotationOf?_summarizedBy _ _ _ (by decide) (by decide)]
  unfold filledBy
  rw [hkind, hgiven]
  exact (annotationOf?_annotate _ _ _ _).trans (if_pos rfl)

theorem annotationOf?_feed_of_given {feed : String} (hgiven : record.feedUri = some feed) :
    ((row.filledBy record).summarizedBy installed record).annotationOf?
      AnnotationName.feedUri = some feed := by
  have hkind := livemark_of_given h (.inr rfl) (by rw [hgiven, Option.isSome_some])
  rw [annotationOf?_summarizedBy _ _ _ (by decide) (by decide)]
  unfold filledBy
  rw [hkind, hgiven]
  have hfed : (row.annotate AnnotationName.feedUri feed).annotationOf? AnnotationName.feedUri =
      some feed := (annotationOf?_annotate row _ _ _).trans (if_pos rfl)
  -- The address of the site is written after that of the feed, under another name.
  cases record.siteUri with
  | none => exact hfed
  | some site => exact ((annotationOf?_annotate _ _ _ _).trans (if_neg (by decide))).trans hfed

/-- The annotations that are made of a record are those that it wants. -/
theorem annotationOf?_of_wants (hannotations : row.annotations = [])
    {url : Option String} {name : String} {value : Option String}
    (hvalue : record.wants installed url name = some value) :
    ((row.filledBy record).summarizedBy installed record).annotationOf? name = value := by
  have hnone : ∀ name, row.annotationOf? name = none := by
    intro name
    rw [annotationOf?, hannotations]
    rfl
  unfold Record.wants at hvalue
  split at hvalue
  · subst name
    obtain ⟨description, hgiven, rfl⟩ := Option.map_eq_some_iff.mp hvalue
    exact annotationOf?_description_of_given h (hnone _) hgiven
  split at hvalue
  · subst name
    obtain ⟨load, hgiven, rfl⟩ := Option.map_eq_some_iff.mp hvalue
    exact annotationOf?_sidebar_of_given h (hnone _) hgiven
  split at hvalue
  · subst name
    obtain ⟨generator, hgiven, rfl⟩ := Option.map_eq_some_iff.mp hvalue
    obtain ⟨hgiven, hinstalled⟩ := Option.filter_eq_some_iff.mp hgiven
    exact annotationOf?_generator_of_given h hgiven (Bool.and_eq_true_iff.mp hinstalled).2
  split at hvalue
  · subst name
    obtain ⟨site, hgiven, rfl⟩ := Option.map_eq_some_iff.mp hvalue
    exact annotationOf?_site_of_given h hgiven
  split at hvalue
  · subst name
    obtain ⟨feed, hgiven, rfl⟩ := Option.map_eq_some_iff.mp hvalue
    exact annotationOf?_feed_of_given h hgiven
  · cases hvalue

end Wanting

/-- What is made of a record shows it. -/
theorem shows_summarizedBy (h : record.OfKind) {row : Row} (hannotations : row.annotations = [])
    (htitle : ∀ title, record.title = some title → row.title = some title)
    (hurl : ∀ uri, record.bmkUri = some uri → row.url = some uri) :
    ((row.filledBy record).summarizedBy installed record).Shows installed record := by
  obtain ⟨keyword, annotations, hfilled⟩ := row.exists_filledBy_eq record
  have hfields := reannotated_summarizedBy (row.filledBy record) installed record
  constructor
  case title =>
    intro title hgiven
    rw [hfields, hfilled]
    exact htitle title hgiven
  case url =>
    intro uri hgiven
    rw [hfields, hfilled]
    exact hurl uri hgiven
  case keyword =>
    intro keyword hgiven
    have htype := h.itemType fun hnone => by simp [hgiven] at hnone
    rw [hfields, filledBy_of_bookmark row htype, hgiven]
    dsimp only
    cases record.description.filter (!·.isEmpty) <;> split <;> rfl
  case wanted => exact fun name value hvalue => annotationOf?_of_wants h hannotations hvalue

end Row

namespace Places

open SyncedBookmarks.Action SyncedBookmarks.Tree

theorem recast_of_annotate {places next : Places} (h : places.tree.WellFormed) {id : Int} {row : Row}
    (hrow : places.tree.known? id = some row) {name value : String}
    (hok : (annotate id name value).result places = (.ok (), next)) :
    Recast id (row.annotate name value) places.tree next.tree :=
  (recasts_of_writes (writes_annotate id (lasting_annotate name value))
    (fun _ hlasting => hlasting.toSteady) (rewrites_annotate h hrow name value) places
    rfl).of_result hok

theorem recast_of_setGuid {places next : Places} (h : places.tree.WellFormed) {id : Int} {row : Row}
    (hrow : places.tree.known? id = some row) {guid : String}
    (hok : (setGuid id guid).result places = (.ok (), next)) :
    Recast id { row with guid } places.tree next.tree := by
  cases howner : places.tree.idOfGuid? guid with
  | none =>
      exact (recasts_of_writes (writes_setGuid id (lasting_guid guid))
        (fun _ hlasting => hlasting.toSteady) (rewrites_setGuid h hrow howner) places rfl).of_result hok
  | some owner =>
      rw [setGuid, result_bind, result_look, howner] at hok
      dsimp only at hok
      split at hok
      · rename_i hself
        obtain ⟨-, rfl⟩ := Prod.mk.inj hok
        obtain ⟨found, hfound, hguid⟩ := h.idOfGuid?_iff.mp (hself ▸ howner)
        obtain rfl := Option.some.inj (hrow.symm.trans hfound)
        exact hguid ▸ Recast.refl h hrow
      · cases hok

end Places

namespace BookmarkStore

open SyncedBookmarks.Action SyncedBookmarks.Tree

variable {installed : Option (List String)} {store next : BookmarkStore} {record : Record}
  {parent id : Int} {row : Row} {name : String}

theorem acts_fillSummary (id : Int) (record : Record) :
    Acts installed id (fun _ => True) (·.summarizedBy installed record) (fillSummary id record) := by
  unfold fillSummary Row.summarizedBy
  split
  · apply ((acts_annotate _ _).bind (acts_forM record.generatorUri acts_tryGenerator)).congr
    · simp only [implies_true, and_self]
    · exact fun row => rfl
  · exact acts_pure

theorem acts_fill (id : Int) (htype : record.itemType = .bookmark) : Acts installed id (fun _ => True)
    (fun row => (row.filledBy record).summarizedBy installed record) (do
      onTree (Places.setKeyword id record.keyword)
      (record.description.filter (!·.isEmpty)).forM fun description =>
        onTree (Places.annotate id AnnotationName.description description)
      if record.loadInSidebar = some true then
        onTree (Places.annotate id AnnotationName.loadInSidebar "true")
      fillSummary id record) := by
  have hsidebar : Acts installed id (fun _ => True)
      (fun row => ((if record.loadInSidebar = some true then
        row.annotate AnnotationName.loadInSidebar "true" else row).summarizedBy installed record)) (do
      if record.loadInSidebar = some true then
        onTree (Places.annotate id AnnotationName.loadInSidebar "true")
      fillSummary id record) := by
    split
    · apply ((acts_annotate _ _).bind (acts_fillSummary id record)).congr
      · simp only [and_self, implies_true]
      · exact fun row => rfl
    · exact acts_fillSummary id record
  have hdescription : Acts installed id _ _ ((record.description.filter (!·.isEmpty)).forM
      fun description => onTree (Places.annotate id AnnotationName.description description)) :=
    acts_forM _ fun description => acts_annotate AnnotationName.description description
  apply ((acts_setKeyword record.keyword).bind (hdescription.bind hsidebar)).congr
  · simp only [implies_true, and_self]
  · intro row
    rw [Row.filledBy_of_bookmark row htype]

theorem underway_of_insertItem (h : store.tree.WellFormed) (hroot : store.tree.IsFolder RootId.tags)
    (hplace : store.tree.OutsideTags (some parent)) {type : ItemType} {title url : Option String}
    (hfit : Fitting type title url) {places : Places}
    (hok : (Places.insertItem parent Places.atEnd type title url).result store.places =
      (.ok id, places)) :
    Underway name store.tree id (store.tree.newRow parent type title url) places.tree := by
  have hwell : store.places.tree.WellFormed := h
  obtain ⟨hparent, rfl, htree⟩ :=
    (tries_insertItem hwell parent Places.atEnd type title url).of_result hok
  change store.tree.IsFolder parent at hparent
  change places.tree = store.tree.inserted parent Places.atEnd type title url at htree
  rw [htree]
  apply underway_of_beside h (.of_inserted h hparent hfit)
    (h.isFolder_inserted parent Places.atEnd type title url hroot)
    (h.known?_inserted_self parent Places.atEnd type title url) _ hplace
  · exact .inr (.inr ⟨le_rfl, store.tree.exists_freshGuid_eq⟩)
  · rw [above?_eq_known?]
    intro place habove
    change (store.tree.known? store.tree.nextId).bind _ = _ at habove
    rw [h.known?_nextId] at habove
    cases habove

/-- The row of a new item once it is filled. -/
def filledRow (store : BookmarkStore) (record : Record) (parent : Int) : Row :=
  ((store.tree.newRow parent record.itemType record.newTitle record.newUrl).filledBy
    record).summarizedBy store.generators record

theorem exists_filledRow_eq (store : BookmarkStore) (record : Record) (parent : Int) :
    ∃ keyword annotations, store.filledRow record parent =
      { store.tree.newRow parent record.itemType record.newTitle record.newUrl with
        keyword, annotations } := by
  obtain ⟨keyword, annotations, hfilled⟩ := (store.tree.newRow parent record.itemType
    record.newTitle record.newUrl).exists_filledBy_eq record
  have hfields := Row.reannotated_summarizedBy ((store.tree.newRow parent record.itemType
    record.newTitle record.newUrl).filledBy record) store.generators record
  refine ⟨keyword, (store.filledRow record parent).annotations, ?_⟩
  unfold filledRow
  rw [hfilled] at hfields ⊢
  exact hfields

/-- A new item that has been filled has all but the record's name. -/
theorem brought_of_filled (hfields : record.OfKind)
    (hnext : Underway record.id store.tree id (store.filledRow record parent) next.tree)
    (hgenerators : next.generators = store.generators)
    (hsuits : Suits record record.itemType.code)
    (htagged : ∀ uri tags, record.newUrl = some uri → record.tags = some tags →
      uri ≠ holdingUri ∧ next.tree.HasTags uri tags) :
    Brought store record (some parent) id (store.filledRow record parent) next := by
  obtain ⟨keyword, annotations, hrow⟩ := store.exists_filledRow_eq record parent
  constructor
  case underway => exact hnext
  case generators => exact hgenerators
  case placed =>
    rw [hrow]
    rfl
  case suits =>
    rw [hrow]
    exact hsuits
  case shows =>
    apply Row.shows_summarizedBy hfields rfl
    · exact fun title hgiven => hfields.newTitle_eq hgiven
    · exact fun uri hgiven => hfields.newUrl_eq hgiven
  case tagged =>
    intro uri tags huri
    rw [hrow] at huri
    exact htagged uri tags huri
  case generator =>
    intro hnone generator hgenerator
    have hbare := Row.generator_summarizedBy hnone
      (store.tree.newRow parent record.itemType record.newTitle record.newUrl) rfl
      store.generators
    exact absurd (hbare.symm.trans hgenerator) (by simp)

theorem brought_of_createBookmark (h : store.tree.WellFormed)
    (hroot : store.tree.IsFolder RootId.tags) (hplace : store.tree.OutsideTags (some parent))
    (hfields : record.OfKind) (htype : record.itemType = .bookmark)
    (hdurable : Durable record.bmkUri)
    (hok : (createBookmark record parent).result store = (.ok id, next)) :
    ∃ row, Brought store record (some parent) id row next := by
  unfold createBookmark at hok
  obtain ⟨uri, _, hrequire, hmade⟩ := exists_of_result_bind hok
  obtain ⟨huri, rfl⟩ := eq_of_result_require hrequire
  obtain ⟨made, inserted, hinsert, hrest⟩ := exists_of_result_bind hmade
  obtain ⟨_, filled, hfill, hlast⟩ := exists_of_result_bind hrest
  obtain ⟨hid, rfl⟩ := Prod.mk.inj hlast
  obtain rfl := Except.ok.inj hid
  have hinsertedSame := generators_of_onTree hinsert
  obtain ⟨checked, places, hcheck, hplaced⟩ :=
    exists_of_result_bind (exists_of_result_onTree hinsert)
  obtain ⟨hvalid, rfl⟩ := Prod.mk.inj hcheck
  obtain rfl := eq_of_validateUri hvalid
  have hinserted : Underway record.id store.tree made
      (store.tree.newRow parent record.itemType record.newTitle record.newUrl) inserted.tree := by
    rw [Record.newTitle, Record.newUrl, htype, huri]
    exact underway_of_insertItem h hroot hplace (Places.fitting_bookmark hvalid record.title) hplaced
  rw [fillBookmark_eq] at hfill
  obtain ⟨_, tagged, htag, hdetails⟩ := exists_of_result_bind hfill
  obtain ⟨htagged, htaggedSame, hhas⟩ :=
    underway_of_replaceTags hinserted hvalid (huri ▸ hdurable) htag
  obtain ⟨-, hfilled, hfilledSame⟩ := (acts_fill made htype).result htagged.wellFormed htagged.known
    (htaggedSame.trans hinsertedSame) hdetails
  obtain ⟨keyword, annotations, hrow⟩ := store.exists_filledRow_eq record parent
  change Recast made (store.filledRow record parent) _ _ at hfilled
  have hparent : (store.filledRow record parent).parent = some parent := by rw [hrow]; rfl
  refine ⟨_, brought_of_filled hfields
    (htagged.recast hfilled hparent (by rw [hrow]) (.inr (by rw [hrow]))) hfilledSame ?_ ?_⟩
  · have hlivemark := hfields.livemark fun hkind => by simp [Record.itemType, hkind] at htype
    refine ⟨?_, fun _ hsite => ?_, fun _ hfeed => ?_⟩
    · intro other hother
      obtain rfl := Option.some.inj (huri.symm.trans hother)
      exact ⟨by rw [htype], hvalid⟩
    · rw [hlivemark.1] at hsite
      cases hsite
    · rw [hlivemark.2] at hfeed
      cases hfeed
  · intro other tags hother hgiven
    obtain rfl : checked = other :=
      Option.some.inj ((hfields.newUrl_eq huri).symm.trans hother)
    exact ⟨fun heq => hdurable.2 (huri.trans (congrArg some heq)),
      htagged.hasTags hfilled hparent (hhas tags hgiven)⟩

theorem suits_of_kind (h : record.OfKind) (hkind : record.kind ≠ .livemark)
    (huri : ∀ uri, record.bmkUri = some uri →
      record.itemType = .bookmark ∧ validateUri uri = .ok uri) :
    Suits record record.itemType.code where
  uri := fun uri hgiven => (huri uri hgiven).imp_left fun htype => by rw [htype]
  site := fun uri hgiven => by rw [(h.livemark hkind).1] at hgiven; cases hgiven
  feed := fun uri hgiven => by rw [(h.livemark hkind).2] at hgiven; cases hgiven

/-- A folder or a separator is filled when it is made. -/
theorem brought_of_insertItem (h : store.tree.WellFormed) (hroot : store.tree.IsFolder RootId.tags)
    (hplace : store.tree.OutsideTags (some parent)) (hfields : record.OfKind)
    (hkind : record.kind = .folder ∨ record.kind = .separator)
    (hok : (onTree (Places.insertItem parent Places.atEnd record.itemType record.newTitle
      record.newUrl)).result store = (.ok id, next)) :
    ∃ row, Brought store record (some parent) id row next := by
  have huri : record.bmkUri = none := by
    refine (hfields.bookmark ?_).1
    rcases hkind with hkind | hkind <;> rw [hkind] <;> decide
  have hfit : Fitting record.itemType record.newTitle record.newUrl := by
    rcases hkind with hkind | hkind
    all_goals unfold Record.newTitle Record.newUrl Record.itemType; rw [hkind]
    · exact Places.fitting_folder _
    · exact Places.fitting_separator
  have hnone : record.newUrl = none := by
    unfold Record.newUrl
    rw [huri]
    split <;> rfl
  have hrow : store.filledRow record parent =
      store.tree.newRow parent record.itemType record.newTitle record.newUrl := by
    unfold filledRow Row.summarizedBy Row.filledBy
    rcases hkind with hkind | hkind <;> simp [hkind]
  refine ⟨_, brought_of_filled hfields ?_ (generators_of_onTree hok) ?_ ?_⟩
  · rw [hrow]
    exact underway_of_insertItem h hroot hplace hfit (exists_of_result_onTree hok)
  · apply suits_of_kind hfields
    · rcases hkind with hkind | hkind <;> rw [hkind] <;> decide
    · intro uri hgiven
      rw [huri] at hgiven
      cases hgiven
  · intro uri tags hgiven
    rw [hnone] at hgiven
    cases hgiven

theorem checked_of_mapM {uri : String} {site : Option String}
    (h : (some uri).mapM validateUri = .ok site) : site = some uri ∧ validateUri uri = .ok uri := by
  rw [Option.mapM_some] at h
  cases hvalid : validateUri uri with
  | error cause =>
      rw [hvalid] at h
      cases h
  | ok checked =>
      rw [hvalid] at h
      obtain rfl := Except.ok.inj h
      obtain rfl := eq_of_validateUri hvalid
      exact ⟨rfl, rfl⟩

theorem brought_of_createLivemark (h : store.tree.WellFormed)
    (hroot : store.tree.IsFolder RootId.tags) (hplace : store.tree.OutsideTags (some parent))
    (hfields : record.OfKind) (hkind : record.kind = .livemark) {feed : String}
    (hfeed : record.feedUri = some feed)
    (hok : (onTree (Places.createLivemark parent (record.title.getD "") record.siteUri feed
      Places.atEnd)).result store = (.ok id, next)) :
    ∃ row, Brought store record (some parent) id row next := by
  have hgenerators := generators_of_onTree hok
  have htype : record.itemType = .folder := by rw [Record.itemType, hkind]
  have hnone : record.newUrl = none := by rw [Record.newUrl, htype]
  replace hok := exists_of_result_onTree hok
  obtain ⟨checked, _, hcheck, hmade⟩ := exists_of_result_bind hok
  obtain ⟨hvalid, rfl⟩ := Prod.mk.inj hcheck
  obtain rfl := eq_of_validateUri hvalid
  obtain ⟨site, _, hsite, hplaced⟩ := exists_of_result_bind hmade
  obtain ⟨hsites, rfl⟩ := Prod.mk.inj hsite
  obtain ⟨made, inserted, hinsert, hrest⟩ := exists_of_result_bind hplaced
  obtain ⟨_, fed, hfed, hlast⟩ := exists_of_result_bind hrest
  have hinserted : Underway record.id store.tree made
      (store.tree.newRow parent record.itemType record.newTitle record.newUrl) inserted.tree := by
    rw [hnone, Record.newTitle, htype]
    exact underway_of_insertItem h hroot hplace (Places.fitting_folder _) hinsert
  have hwritten := hinserted.recast
    (Places.recast_of_annotate hinserted.wellFormed hinserted.known hfed) rfl rfl (.inr rfl)
  have hsuits : Suits record record.itemType.code := by
    refine ⟨fun uri hgiven => ?_, fun uri hgiven => ?_, fun uri hgiven => ?_⟩
    · rw [(hfields.bookmark (by rw [hkind]; decide)).1] at hgiven
      cases hgiven
    · rw [hgiven] at hsites
      exact (checked_of_mapM hsites).2
    · exact Option.some.inj (hfeed.symm.trans hgiven) ▸ hvalid
  have htagged : ∀ uri tags, record.newUrl = some uri → record.tags = some tags →
      uri ≠ holdingUri ∧ next.tree.HasTags uri tags := by
    intro uri tags hgiven
    rw [hnone] at hgiven
    cases hgiven
  refine ⟨_, brought_of_filled hfields ?_ hgenerators hsuits htagged⟩
  rw [filledRow, Row.filled_of_livemark _ _ hkind hfeed]
  cases hgiven : record.siteUri with
  | none =>
      rw [hgiven] at hsites
      obtain rfl := Except.ok.inj hsites
      obtain ⟨hid, rfl⟩ := Prod.mk.inj hlast
      exact Except.ok.inj hid ▸ hwritten
  | some uri =>
      rw [hgiven] at hsites
      obtain ⟨rfl, -⟩ := checked_of_mapM hsites
      obtain ⟨_, sited, hsited, hend⟩ := exists_of_result_bind hlast
      obtain ⟨hid, rfl⟩ := Prod.mk.inj hend
      exact Except.ok.inj hid ▸ hwritten.recast
        (Places.recast_of_annotate hwritten.wellFormed hwritten.known hsited) rfl rfl (.inr rfl)

theorem brought_of_createItem (h : store.tree.WellFormed) (hroot : store.tree.IsFolder RootId.tags)
    (hplace : store.tree.OutsideTags (some parent)) (hfields : record.OfKind)
    (hdurable : Durable record.bmkUri)
    (hok : (createItem record parent).result store = (.ok (some id), next)) :
    ∃ row, Brought store record (some parent) id row next := by
  have hbookmark : record.itemType = .bookmark →
      (some <$> createBookmark record parent).result store = (.ok (some id), next) →
        ∃ row, Brought store record (some parent) id row next := by
    intro htype hmade
    obtain ⟨made, hcreated, heq⟩ := exists_of_result_map hmade
    exact Option.some.inj heq ▸
      brought_of_createBookmark h hroot hplace hfields htype hdurable hcreated
  unfold createItem at hok
  cases hkind : record.kind with
  | bookmark => exact hbookmark (by rw [Record.itemType, hkind]) (by rwa [hkind] at hok)
  | query => exact hbookmark (by rw [Record.itemType, hkind]) (by rwa [hkind] at hok)
  | microsummary => exact hbookmark (by rw [Record.itemType, hkind]) (by rwa [hkind] at hok)
  | folder =>
      rw [hkind] at hok
      obtain ⟨made, hmade, heq⟩ := exists_of_result_map hok
      obtain rfl := Option.some.inj heq
      apply brought_of_insertItem h hroot hplace hfields (.inl hkind)
      rw [Record.newTitle, Record.newUrl, Record.itemType, hkind]
      exact hmade
  | livemark =>
      rw [hkind] at hok
      obtain ⟨feed, _, hrequire, hrest⟩ := exists_of_result_bind hok
      obtain ⟨hfeed, rfl⟩ := eq_of_result_require hrequire
      obtain ⟨made, hmade, heq⟩ := exists_of_result_map hrest
      obtain rfl := Option.some.inj heq
      exact brought_of_createLivemark h hroot hplace hfields hkind hfeed hmade
  | separator =>
      rw [hkind] at hok
      obtain ⟨made, hmade, heq⟩ := exists_of_result_map hok
      obtain rfl := Option.some.inj heq
      apply brought_of_insertItem h hroot hplace hfields (.inr hkind)
      rw [Record.newTitle, Record.newUrl, Record.itemType, hkind]
      exact hmade
  | item =>
      rw [hkind] at hok
      cases hok
  | unknown =>
      rw [hkind] at hok
      cases hok

theorem kind_of_createItem_none
    (hok : (createItem record parent).result store = (.ok none, next)) : record.kind = .item := by
  have hsome : ∀ {action : StoreAction Int} {before : BookmarkStore},
      (some <$> action).result before ≠ (.ok none, next) := by
    intro action before hmade
    obtain ⟨made, -, heq⟩ := exists_of_result_map hmade
    cases heq
  unfold createItem at hok
  cases hkind : record.kind with
  | item => rfl
  | unknown =>
      rw [hkind] at hok
      cases hok
  | livemark =>
      rw [hkind] at hok
      obtain ⟨feed, middle, -, hmade⟩ := exists_of_result_bind hok
      exact absurd hmade hsome
  | _ =>
      rw [hkind] at hok
      exact absurd hok hsome

/-- What a creation has made: an item with the record's name, or nothing. -/
theorem brought_of_create (h : store.tree.WellFormed) (hroot : store.tree.IsFolder RootId.tags)
    {place : Option Int}
    (hplace : ∀ parent, place = some parent → store.tree.OutsideTags (some parent))
    (hfields : record.OfKind) (hdurable : Durable record.bmkUri)
    (hok : (create record place).result store = (.ok (), next)) :
    (record.kind = .item ∧ next = store) ∨
      ∃ id row, Brought store record place id row next ∧ row.guid = record.id := by
  unfold create at hok
  obtain ⟨parent, _, hrequire, hmade⟩ := exists_of_result_bind hok
  obtain ⟨rfl, rfl⟩ := eq_of_result_require hrequire
  obtain ⟨made, middle, hcreated, hnamed⟩ := exists_of_result_bind hmade
  cases made with
  | none =>
      obtain ⟨-, rfl⟩ := Prod.mk.inj hnamed
      exact .inl ⟨kind_of_createItem_none hcreated, eq_of_createItem_none hcreated⟩
  | some id =>
      obtain ⟨row, hbrought⟩ :=
        brought_of_createItem h hroot (hplace parent rfl) hfields hdurable hcreated
      obtain ⟨guid, _, hlook, hlast⟩ := exists_of_result_bind hnamed
      obtain ⟨hguid, rfl⟩ := Prod.mk.inj hlook
      have hname : middle.tree.guidOf? id = guid := Except.ok.inj hguid
      rw [guidOf?_eq_known?, hbrought.underway.known, Option.map_some] at hname
      split at hlast
      · have hwell : middle.places.tree.WellFormed := hbrought.underway.wellFormed
        have hrecast := Places.recast_of_setGuid hwell hbrought.underway.known
          (exists_of_result_onTree hlast)
        refine .inr ⟨id, { row with guid := record.id }, ?_, rfl⟩
        exact
          { hbrought with
            underway := hbrought.underway.recast hrecast rfl rfl (.inl rfl)
            generators := (generators_of_onTree hlast).trans hbrought.generators
            shows := ⟨hbrought.shows.title, hbrought.shows.url, hbrought.shows.keyword,
              hbrought.shows.wanted⟩
            generator := hbrought.generator
            tagged := fun uri tags huri htags => (hbrought.tagged uri tags huri htags).imp_right
              (hbrought.underway.hasTags hrecast rfl) }
      · rename_i hsame
        obtain ⟨-, rfl⟩ := Prod.mk.inj hlast
        exact .inr ⟨id, row, hbrought, Option.some.inj (hname.trans (not_not.mp hsame))⟩

end BookmarkStore

end SyncedBookmarks
