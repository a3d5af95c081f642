import SyncedBookmarks.Proofs.Outcomes
import SyncedBookmarks.Proofs.Redrawing

namespace SyncedBookmarks

/-! Steps on one item: what each needs to get through, and what it then makes of the item's row.
None of them moves anything. -/

namespace Row

/-- The row with a generator of live titles, if that is installed. -/
def boundTo (row : Row) (installed : Option (List String)) (generator : String) : Row :=
  if installed.any (·.contains generator) then
    row.annotate AnnotationName.generatorUri generator
  else row

/-- The row with such a generator, if it is one of a bookmark. -/
def generatedBy (row : Row) (installed : Option (List String)) (generator : String) : Row :=
  if row.url.isSome then row.boundTo installed generator else row

/-- The row with the title and the URL of a record. -/
def inscribedBy (row : Row) (record : Record) : Row :=
  let row := record.title.elim row fun title => { row with title := some title }
  record.bmkUri.elim row fun url => { row with url := some url }

/-- The row with all that a record says beside title, URL and tags. -/
def furnishedBy (row : Row) (installed : Option (List String)) (record : Record) : Row :=
  let row := record.keyword.elim row fun keyword =>
    { row with keyword := (some keyword).filter (!·.isEmpty) }
  let row := record.description.elim row row.describedBy
  let row := record.loadInSidebar.elim row row.sidebarBy
  let row := record.generatorUri.elim row (row.generatedBy installed)
  let row := record.siteUri.elim row (row.annotate AnnotationName.siteUri)
  record.feedUri.elim row (row.annotate AnnotationName.feedUri)

/-- The row with the mark that an item gets in the place where a record puts it. -/
def settledBy (row : Row) (place : Option Int) : Option String → Row
  | some guid => row.markedBy (some guid)
  | none => if place.isSome then row.markedBy none else row

end Row

/-! ### What a record wants of a row -/

namespace Record

/-- What a record wants an annotation of an item with some URL to be, if it has a field for it. -/
def wants (record : Record) (installed : Option (List String)) (url : Option String)
    (name : String) : Option (Option String) :=
  if name = AnnotationName.description then
    record.description.map fun description => (some description).filter (!·.isEmpty)
  else if name = AnnotationName.loadInSidebar then
    record.loadInSidebar.map fun load => if load then some "true" else none
  else if name = AnnotationName.generatorUri then
    (record.generatorUri.filter fun generator =>
      url.isSome && installed.any (·.contains generator)).map some
  else if name = AnnotationName.siteUri then record.siteUri.map some
  else if name = AnnotationName.feedUri then record.feedUri.map some
  else none

theorem wants_intendedParent (record : Record) (installed : Option (List String))
    (url : Option String) : record.wants installed url AnnotationName.intendedParent = none := by
  simp [wants, AnnotationName.intendedParent, AnnotationName.description,
    AnnotationName.loadInSidebar, AnnotationName.generatorUri, AnnotationName.siteUri,
    AnnotationName.feedUri]

end Record

namespace Row

/-- Whether a row is another one but for the order of its annotations. -/
structure Same (row other : Row) : Prop where
  fields : row.Reannotated other
  annotationOf? : ∀ name, other.annotationOf? name = row.annotationOf? name

/-- Whether a row has all that a record has fields for. -/
structure Shows (row : Row) (installed : Option (List String)) (record : Record) : Prop where
  title : ∀ title, record.title = some title → row.title = some title
  url : ∀ uri, record.bmkUri = some uri → row.url = some uri
  keyword : ∀ keyword, record.keyword = some keyword →
    row.keyword = (some keyword).filter (!·.isEmpty)
  wanted : ∀ name value, record.wants installed row.url name = some value →
    row.annotationOf? name = value

/-- Whether a row has the mark that an item gets in the place where a record puts it. -/
def Waits (row : Row) (place : Option Int) : Option String → Prop
  | some guid => row.annotationOf? AnnotationName.intendedParent =
      some (BookmarkStore.orphanMark ++ guid)
  | none => place.isSome → row.annotationOf? AnnotationName.intendedParent = none

variable {row other last : Row} {installed : Option (List String)} {record : Record}
  {place : Option Int} {orphanOf : Option String}

theorem Same.refl (row : Row) : row.Same row :=
  ⟨rfl, fun _ => rfl⟩

theorem Same.trans (h : row.Same other) (h' : other.Same last) : row.Same last := by
  constructor
  · exact h.fields.trans h'.fields
  · intro name
    rw [h'.annotationOf?, h.annotationOf?]

theorem Same.guid (h : row.Same other) : other.guid = row.guid := by rw [h.fields]

theorem Same.parent (h : row.Same other) : other.parent = row.parent := by rw [h.fields]

theorem Same.typeCode (h : row.Same other) : other.typeCode = row.typeCode := by rw [h.fields]

theorem Same.title (h : row.Same other) : other.title = row.title := by rw [h.fields]

theorem Same.url (h : row.Same other) : other.url = row.url := by rw [h.fields]

theorem Same.waits (h : row.Same other) (hwaits : row.Waits place orphanOf) :
    other.Waits place orphanOf := by
  cases orphanOf with
  | some guid => exact (h.annotationOf? _).trans hwaits
  | none => exact fun hplace => (h.annotationOf? _).trans (hwaits hplace)

theorem annotationOf?_boundTo (row : Row) (installed : Option (List String))
    (generator name : String) : (row.boundTo installed generator).annotationOf? name =
      if name = AnnotationName.generatorUri ∧ installed.any (·.contains generator) then
        some generator
      else row.annotationOf? name := by
  unfold boundTo
  split
  · simp only [annotationOf?_annotate, *, and_true]
  · simp only [*, and_false, if_false, Bool.false_eq_true]

theorem annotationOf?_generatedBy (row : Row) (installed : Option (List String))
    (generator name : String) : (row.generatedBy installed generator).annotationOf? name =
      if name = AnnotationName.generatorUri ∧
          (row.url.isSome && installed.any (·.contains generator)) then some generator
      else row.annotationOf? name := by
  unfold generatedBy
  cases row.url.isSome with
  | false => simp
  | true =>
      rw [if_pos rfl, annotationOf?_boundTo, Bool.true_and]

section Furnished

variable (row : Row) (installed : Option (List String)) (record : Record)

theorem reannotated_boundTo (generator : String) :
    row.Reannotated (row.boundTo installed generator) := by
  unfold boundTo
  split <;> rfl

theorem reannotated_generatedBy (generator : String) :
    row.Reannotated (row.generatedBy installed generator) := by
  unfold generatedBy
  split
  · exact reannotated_boundTo row installed generator
  · rfl

theorem Reannotated.url {row other : Row} (h : row.Reannotated other) : other.url = row.url := by
  rw [h]

/-- What furnishes a row concerns its keyword and its annotations alone. -/
theorem reannotated_furnishedBy : Reannotated
    { row with keyword := record.keyword.elim row.keyword fun keyword =>
        (some keyword).filter (!·.isEmpty) } (row.furnishedBy installed record) := by
  simp only [furnishedBy]
  rw [elim_keyword]
  apply (reannotated_elim _ record.description describedBy reannotated_describedBy).trans
  apply (reannotated_elim _ record.loadInSidebar sidebarBy reannotated_sidebarBy).trans
  apply (reannotated_elim _ record.generatorUri (·.generatedBy installed)
    (reannotated_generatedBy · installed)).trans
  apply (reannotated_elim _ record.siteUri (·.annotate AnnotationName.siteUri)
    fun _ _ => rfl).trans
  exact reannotated_elim _ record.feedUri (·.annotate AnnotationName.feedUri) fun _ _ => rfl

theorem annotationOf?_furnishedBy (name : String) :
    (row.furnishedBy installed record).annotationOf? name =
      (record.wants installed row.url name).getD (row.annotationOf? name) := by
  have hkeyword : ∀ keyword, { row with keyword }.annotationOf? name = row.annotationOf? name :=
    fun _ => rfl
  have hsidebar : ∀ (row : Row) (value : Option Bool),
      (value.elim row row.sidebarBy).url = row.url :=
    fun row value => (reannotated_elim row value sidebarBy reannotated_sidebarBy).url
  have hdescribed : ∀ (row : Row) (value : Option String),
      (value.elim row row.describedBy).url = row.url :=
    fun row value => (reannotated_elim row value describedBy reannotated_describedBy).url
  simp only [furnishedBy, elim_keyword, annotationOf?_elim, annotationOf?_annotate,
    annotationOf?_generatedBy, annotationOf?_sidebarBy, annotationOf?_describedBy, hkeyword,
    hsidebar, hdescribed]
  by_cases hother : name ∉ [AnnotationName.description, AnnotationName.loadInSidebar,
      AnnotationName.generatorUri, AnnotationName.siteUri, AnnotationName.feedUri]
  · simp only [List.mem_cons, List.not_mem_nil, or_false, not_or] at hother
    simp [Record.wants, elim_const, hother]
  simp only [List.mem_cons, List.not_mem_nil, or_false, not_not] at hother
  rcases hother with rfl | rfl | rfl | rfl | rfl
  all_goals simp [Record.wants, elim_const, AnnotationName.description,
    AnnotationName.loadInSidebar, AnnotationName.generatorUri, AnnotationName.siteUri,
    AnnotationName.feedUri]
  · cases record.description <;> rfl
  · cases record.loadInSidebar <;> rfl
  · cases record.generatorUri with
    | none => rfl
    | some generator =>
        simp only [Option.elim, Option.filter]
        split <;> simp [*]
  · cases record.siteUri <;> rfl
  · cases record.feedUri <;> rfl

/-- Without a generator in the record, an item keeps the one that it has. -/
theorem generator_furnishedBy (hnone : record.generatorUri = none) :
    (row.furnishedBy installed record).annotationOf? AnnotationName.generatorUri =
      row.annotationOf? AnnotationName.generatorUri := by
  have hwants : (record.wants installed row.url AnnotationName.generatorUri).getD
      (row.annotationOf? AnnotationName.generatorUri) =
        row.annotationOf? AnnotationName.generatorUri := by
    simp [Record.wants, hnone, AnnotationName.description, AnnotationName.loadInSidebar,
      AnnotationName.generatorUri]
  rw [annotationOf?_furnishedBy, hwants]

@[simp] theorem furnishedBy_guid : (row.furnishedBy installed record).guid = row.guid := by
  rw [reannotated_furnishedBy row installed record]

@[simp] theorem furnishedBy_parent : (row.furnishedBy installed record).parent = row.parent := by
  rw [reannotated_furnishedBy row installed record]

@[simp] theorem furnishedBy_typeCode :
    (row.furnishedBy installed record).typeCode = row.typeCode := by
  rw [reannotated_furnishedBy row installed record]

@[simp] theorem furnishedBy_title : (row.furnishedBy installed record).title = row.title := by
  rw [reannotated_furnishedBy row installed record]

@[simp] theorem furnishedBy_url : (row.furnishedBy installed record).url = row.url := by
  rw [reannotated_furnishedBy row installed record]

@[simp] theorem furnishedBy_keyword : (row.furnishedBy installed record).keyword =
    record.keyword.elim row.keyword fun keyword => (some keyword).filter (!·.isEmpty) := by
  rw [reannotated_furnishedBy row installed record]

end Furnished

section Inscribed

variable (row : Row) (record : Record)

@[simp] theorem inscribedBy_guid : (row.inscribedBy record).guid = row.guid := by
  unfold inscribedBy
  cases record.title <;> cases record.bmkUri <;> rfl

@[simp] theorem inscribedBy_parent : (row.inscribedBy record).parent = row.parent := by
  unfold inscribedBy
  cases record.title <;> cases record.bmkUri <;> rfl

@[simp] theorem inscribedBy_typeCode : (row.inscribedBy record).typeCode = row.typeCode := by
  unfold inscribedBy
  cases record.title <;> cases record.bmkUri <;> rfl

@[simp] theorem inscribedBy_title :
    (row.inscribedBy record).title = (record.title <|> row.title) := by
  unfold inscribedBy
  cases record.title <;> cases record.bmkUri <;> rfl

@[simp] theorem inscribedBy_url : (row.inscribedBy record).url = (record.bmkUri <|> row.url) := by
  unfold inscribedBy
  cases record.title <;> cases record.bmkUri <;> rfl

@[simp] theorem inscribedBy_annotationOf? (name : String) :
    (row.inscribedBy record).annotationOf? name = row.annotationOf? name := by
  unfold inscribedBy
  cases record.title <;> cases record.bmkUri <;> rfl

end Inscribed

theorem reannotated_settledBy (row : Row) (place : Option Int) (orphanOf : Option String) :
    row.Reannotated (row.settledBy place orphanOf) := by
  unfold settledBy
  split
  · rfl
  · split <;> rfl

theorem annotationOf?_settledBy (row : Row) (place : Option Int) (orphanOf : Option String)
    {name : String} (hne : name ≠ AnnotationName.intendedParent) :
    (row.settledBy place orphanOf).annotationOf? name = row.annotationOf? name := by
  unfold settledBy
  split
  · exact BookmarkStore.annotationOf?_markedBy row _ hne
  · split
    · exact BookmarkStore.annotationOf?_markedBy row _ hne
    · rfl

/-- What an item shows in the end of an update. -/
theorem shows_furnishedBy (row : Row) (installed : Option (List String)) (record : Record) :
    ((row.inscribedBy record).furnishedBy installed record).Shows installed record where
  title := by
    intro title htitle
    simp [htitle]
  url := by
    intro uri huri
    simp [huri]
  keyword := by
    intro keyword hkeyword
    simp [hkeyword]
  wanted := by
    intro name value hvalue
    rw [furnishedBy_url] at hvalue
    rw [annotationOf?_furnishedBy, hvalue, Option.getD_some]

theorem Shows.settledBy (h : row.Shows installed record) (place : Option Int)
    (orphanOf : Option String) : (row.settledBy place orphanOf).Shows installed record := by
  have hfields := reannotated_settledBy row place orphanOf
  constructor
  case title => rw [hfields]; exact h.title
  case url => rw [hfields]; exact h.url
  case keyword => rw [hfields]; exact h.keyword
  case wanted =>
    intro name value hvalue
    rw [hfields.url] at hvalue
    rw [annotationOf?_settledBy]
    · exact h.wanted name value hvalue
    · rintro rfl
      rw [record.wants_intendedParent] at hvalue
      cases hvalue

/-! Where a row has what a record says already, applying the record makes no difference. -/

theorem Shows.inscribedBy (h : row.Shows installed record) : row.inscribedBy record = row := by
  have htitle : (record.title.elim row fun title => { row with title := some title }) = row := by
    cases hgiven : record.title with
    | none => rfl
    | some title =>
        change { row with title := some title } = row
        rw [← h.title title hgiven]
  unfold Row.inscribedBy
  rw [htitle]
  cases hgiven : record.bmkUri with
  | none => rfl
  | some uri =>
      change { row with url := some uri } = row
      rw [← h.url uri hgiven]

theorem Shows.furnishedBy (h : row.Shows installed record) :
    row.Same (row.furnishedBy installed record) where
  fields := by
    have hkeyword : (record.keyword.elim row.keyword fun keyword =>
        (some keyword).filter (!·.isEmpty)) = row.keyword := by
      cases hgiven : record.keyword with
      | none => rfl
      | some keyword => exact (h.keyword keyword hgiven).symm
    have hfields := reannotated_furnishedBy row installed record
    rwa [hkeyword] at hfields
  annotationOf? := by
    intro name
    rw [annotationOf?_furnishedBy]
    cases hwanted : record.wants installed row.url name with
    | none => rfl
    | some value => exact (h.wanted name value hwanted).symm

theorem waits_settledBy (row : Row) (place : Option Int) (orphanOf : Option String) :
    (row.settledBy place orphanOf).Waits place orphanOf := by
  cases orphanOf with
  | some guid => exact BookmarkStore.mark_of_markedBy row (some guid)
  | none =>
      intro hplace
      unfold settledBy
      rw [if_pos hplace]
      exact BookmarkStore.mark_of_markedBy row none

theorem Waits.settledBy (h : row.Waits place orphanOf) : row.Same (row.settledBy place orphanOf) where
  fields := reannotated_settledBy row place orphanOf
  annotationOf? := by
    intro name
    by_cases hname : name = AnnotationName.intendedParent
    · subst hname
      have hsettled := waits_settledBy row place orphanOf
      cases orphanOf with
      | some guid => exact hsettled.trans h.symm
      | none =>
          by_cases hplace : place.isSome
          · exact (hsettled hplace).trans (h hplace).symm
          · unfold Row.settledBy
            rw [if_neg hplace]
    · exact annotationOf?_settledBy row place orphanOf hname

end Row

namespace Tree

/-- One item has got another row, and all stand where they stood. -/
structure Recast (id : Int) (row : Row) (before after : Tree) : Prop
    extends Rewritten id row before after where
  above? : ∀ other, after.above? other = before.above? other
  precedes : ∀ first second, after.Precedes first second ↔ before.Precedes first second

variable {tree before middle after : Tree} {id : Int} {row last : Row}

theorem Recast.refl (h : tree.WellFormed) (hrow : tree.known? id = some row) :
    Recast id row tree tree where
  toRewritten := .refl h hrow
  above? := fun _ => rfl
  precedes := fun _ _ => Iff.rfl

theorem Recast.trans (hfirst : Recast id row before middle) (hsecond : Recast id last middle after) :
    Recast id last before after where
  toRewritten := hfirst.toRewritten.trans hsecond.toRewritten
  above? := fun other => (hsecond.above? other).trans (hfirst.above? other)
  precedes := fun first second => (hsecond.precedes first second).trans (hfirst.precedes first second)

theorem precedes_mapRow_iff {change : Row → Row} (hsteady : Steady change) (id first second : Int) :
    (tree.mapRow id change).Precedes first second ↔ tree.Precedes first second := by
  have hrow : ∀ place found, (tree.mapRow id change).row? place = some found ↔
      ∃ old, tree.row? place = some old ∧ (if place = id then change old else old) = found := by
    intro place found
    rw [row?_mapRow tree id hsteady.id]
    split
    · rename_i heq
      rw [← heq, Option.map_eq_some_iff]
    · simp
  have hplace : ∀ (place : Int) (old : Row),
      (if place = id then change old else old).parent = old.parent ∧
        (if place = id then change old else old).position = old.position := by
    intro place old
    split
    · exact ⟨hsteady.parent old, hsteady.position old⟩
    · exact ⟨rfl, rfl⟩
  constructor
  · intro hprecedes
    obtain ⟨_, _, hfirst, hsecond, hsome, hparent, hlt⟩ := hprecedes
    obtain ⟨row, hrow₁, rfl⟩ := (hrow _ _).mp hfirst
    obtain ⟨row', hrow₂, rfl⟩ := (hrow _ _).mp hsecond
    rw [(hplace _ _).1] at hsome
    rw [(hplace _ _).1, (hplace _ _).1] at hparent
    rw [(hplace _ _).2, (hplace _ _).2] at hlt
    exact ⟨row, row', hrow₁, hrow₂, hsome, hparent, hlt⟩
  · intro hprecedes
    obtain ⟨row, row', hfirst, hsecond, hsome, hparent, hlt⟩ := hprecedes
    refine ⟨_, _, (hrow _ _).mpr ⟨row, hfirst, rfl⟩, (hrow _ _).mpr ⟨row', hsecond, rfl⟩, ?_⟩
    rw [(hplace _ _).1, (hplace _ _).1, (hplace _ _).2, (hplace _ _).2]
    exact ⟨hsome, hparent, hlt⟩

end Tree

namespace Places

open SyncedBookmarks.Action SyncedBookmarks.Tree

variable {tree : Tree} {id : Int} {row : Row}

/-- What is written to an item moves nothing. -/
theorem recasts_of_writes {sort : (Row → Row) → Prop} {action : TreeAction α}
    (hwrites : Writes sort id action) (hsort : ∀ change, sort change → Steady change)
    (hleads : Leads action tree fun _ next => Rewritten id row tree next) :
    Leads action tree fun _ next => Recast id row tree next := by
  intro places htree
  obtain ⟨value, next, hresult, hnext⟩ := hleads places htree
  refine ⟨value, next, hresult, hnext, ?_, ?_⟩
  all_goals
    have hsame := hwrites places
    rw [hresult, htree] at hsame
    obtain hsame | ⟨change, hchange, hsame⟩ := hsame
  · intro other
    rw [hsame]
  · intro other
    rw [hsame]
    exact (hsort change hchange).above? tree id other
  · intro first second
    rw [hsame]
  · intro first second
    rw [hsame]
    exact precedes_mapRow_iff (hsort change hchange) id first second

end Places

namespace BookmarkStore

open SyncedBookmarks.Action SyncedBookmarks.Tree

variable {installed : Option (List String)} {id : Int} {action : StoreAction Unit}
  {needs needs' : Row → Prop} {change change' : Row → Row}

/-- What a step on an item needs of the item's row to get through, and what it makes of the row. -/
structure Acts (installed : Option (List String)) (id : Int) (needs : Row → Prop)
    (change : Row → Row) (action : StoreAction Unit) : Prop where
  needed : ∀ {store next : BookmarkStore} {row : Row}, store.tree.WellFormed →
    store.tree.known? id = some row → store.generators = installed →
    action.result store = (.ok (), next) → needs row
  done : ∀ {store : BookmarkStore} {row : Row}, store.tree.WellFormed →
    store.tree.known? id = some row → store.generators = installed → needs row →
    action.Yields store fun _ next =>
      Recast id (change row) store.tree next.tree ∧ next.generators = installed

theorem Acts.result (h : Acts installed id needs change action) {store next : BookmarkStore}
    {row : Row} (hwell : store.tree.WellFormed) (hrow : store.tree.known? id = some row)
    (hgenerators : store.generators = installed) (hok : action.result store = (.ok (), next)) :
    needs row ∧ Recast id (change row) store.tree next.tree ∧ next.generators = installed := by
  have hneeds := h.needed hwell hrow hgenerators hok
  obtain ⟨_, last, hresult, hdone⟩ := h.done hwell hrow hgenerators hneeds
  rw [hok] at hresult
  obtain rfl := (Prod.mk.inj hresult).2
  exact ⟨hneeds, hdone⟩

theorem acts_of_leads (hdone : ∀ {tree : Tree} {row : Row}, tree.WellFormed →
      tree.known? id = some row → Leads action tree fun _ next => Recast id (change row) tree next) :
    Acts installed id (fun _ => True) change action where
  needed := fun _ _ _ _ => trivial
  done := by
    intro store row hwell hrow hgenerators _
    apply (hdone hwell hrow store rfl).imp
    intro _ next hnext
    exact ⟨hnext.1, hnext.2.2.trans hgenerators⟩

theorem acts_pure : Acts installed id (fun _ => True) (fun row => row) (pure ()) :=
  acts_of_leads fun hwell hrow => leads_pure (Recast.refl hwell hrow)

theorem Acts.bind {next : StoreAction Unit} (h : Acts installed id needs change action)
    (hnext : Acts installed id needs' change' next) :
    Acts installed id (fun row => needs row ∧ needs' (change row)) (fun row => change' (change row))
      (action >>= fun _ => next) where
  needed := by
    intro store last row hwell hrow hgenerators hok
    obtain ⟨_, middle, hfirst, hsecond⟩ := exists_of_result_bind hok
    obtain ⟨hneeds, hrecast, hsame⟩ := h.result hwell hrow hgenerators hfirst
    exact ⟨hneeds, hnext.needed hrecast.wellFormed hrecast.self hsame hsecond⟩
  done := by
    intro store row hwell hrow hgenerators hneeds
    apply (h.done hwell hrow hgenerators hneeds.1).bind
    intro _ middle hmiddle
    obtain ⟨hrecast, hsame⟩ := hmiddle
    apply (hnext.done hrecast.wellFormed hrecast.self hsame hneeds.2).imp
    intro _ last hlast
    exact ⟨hrecast.trans hlast.1, hlast.2⟩

theorem acts_forM {step : α → StoreAction Unit} {needs : α → Row → Prop} {change : Row → α → Row}
    (value : Option α) (hstep : ∀ x, Acts installed id (needs x) (change · x) (step x)) :
    Acts installed id (fun row => ∀ x, value = some x → needs x row)
      (fun row => value.elim row (change row)) (value.forM step) := by
  cases value with
  | none =>
      constructor
      · intro _ _ _ _ _ _ _ x hx
        cases hx
      · intro _ _ hwell hrow hgenerators _
        exact acts_pure.done hwell hrow hgenerators trivial
  | some x =>
      constructor
      · intro store next row hwell hrow hgenerators hok y hy
        exact Option.some.inj hy ▸ (hstep x).needed hwell hrow hgenerators hok
      · intro store row hwell hrow hgenerators hneeds
        exact (hstep x).done hwell hrow hgenerators (hneeds x rfl)

theorem Acts.congr (h : Acts installed id needs change action)
    (hneeds : ∀ row, needs row ↔ needs' row) (hchange : ∀ row, change row = change' row) :
    Acts installed id needs' change' action := by
  obtain rfl : needs = needs' := funext fun row => propext (hneeds row)
  obtain rfl : change = change' := funext hchange
  exact h

/-! ### The steps -/

section Steps

theorem leads_recast {sort : (Row → Row) → Prop} {action : TreeAction Unit} {tree : Tree} {row : Row}
    (hwrites : Places.Writes sort id action) (hsort : ∀ change, sort change → Steady change)
    (hleads : Places.Leads action tree fun _ next => Rewritten id row tree next) :
    Leads (onTree action) tree fun _ next => Recast id row tree next :=
  leads_onTree (Places.recasts_of_writes hwrites hsort hleads)

theorem acts_setTitle (title : String) : Acts installed id (fun _ => True)
    (fun row => { row with title := some title }) (onTree (Places.setTitle id title)) :=
  acts_of_leads fun hwell hrow => leads_recast (Places.writes_setTitle id (Places.inward_title _))
    (fun _ hinward => hinward.toSteady) (Places.rewrites_setTitle hwell hrow title)

theorem acts_setKeyword (keyword : Option String) : Acts installed id (fun _ => True)
    (fun row => { row with keyword := keyword.filter (!·.isEmpty) })
    (onTree (Places.setKeyword id keyword)) :=
  acts_of_leads fun hwell hrow => leads_recast
    (Places.writes_setKeyword id (Places.inward_keyword _)) (fun _ hinward => hinward.toSteady)
    (Places.rewrites_setKeyword hwell hrow keyword)

theorem acts_annotate (name value : String) : Acts installed id (fun _ => True)
    (·.annotate name value) (onTree (Places.annotate id name value)) :=
  acts_of_leads fun hwell hrow => leads_recast
    (Places.writes_annotate id (Places.lasting_annotate name value))
    (fun _ hlasting => hlasting.toSteady) (Places.rewrites_annotate hwell hrow name value)

theorem acts_unannotate (name : String) : Acts installed id (fun _ => True)
    (·.unannotate name) (onTree (Places.unannotate id name)) :=
  acts_of_leads fun hwell hrow => leads_recast
    (Places.writes_unannotate id (Places.lasting_unannotate name))
    (fun _ hlasting => hlasting.toSteady) (Places.rewrites_unannotate hwell hrow name)

theorem acts_updateDescription (description : String) : Acts installed id (fun _ => True)
    (·.describedBy description) (onTree (updateDescription id description)) := by
  unfold updateDescription Row.describedBy
  split
  · exact acts_unannotate _
  · exact acts_annotate _ _

theorem acts_updateSidebar (load : Bool) : Acts installed id (fun _ => True)
    (·.sidebarBy load) (onTree (updateSidebar id load)) := by
  unfold updateSidebar Row.sidebarBy
  split
  · exact acts_annotate _ _
  · exact acts_unannotate _

theorem acts_markOrphan (place : Option Int) (orphanOf : Option String) :
    Acts installed id (fun _ => True) (·.settledBy place orphanOf)
      (onTree (markOrphan id place orphanOf)) := by
  unfold markOrphan
  cases orphanOf with
  | some guid => exact acts_annotate _ _
  | none =>
      simp only [Row.settledBy]
      split
      · exact acts_unannotate _
      · exact acts_of_leads fun hwell hrow =>
          leads_onTree (Places.leads_pure (Recast.refl hwell hrow))

theorem acts_setUrl (uri : String) : Acts installed id
    (fun row => row.typeCode = ItemType.bookmark.code ∧ validateUri uri = .ok uri)
    (fun row => { row with url := some uri }) (onTree (Places.setUrl id uri)) where
  needed := by
    intro store next row hwell hrow _ hok
    have hset := exists_of_result_onTree hok
    unfold Places.setUrl at hset
    obtain ⟨checked, places, hcheck, hrest⟩ := exists_of_result_bind hset
    obtain ⟨hvalid, rfl⟩ := Prod.mk.inj hcheck
    obtain rfl := eq_of_validateUri hvalid
    refine ⟨?_, hvalid⟩
    by_contra hcode
    obtain ⟨found, hfound, rfl⟩ := Option.map_eq_some_iff.mp hrow
    have hother : ((store.places.tree.row? id).any Places.isBookmarkRow) = false := by
      change store.places.tree.row? id = some found at hfound
      rw [hfound]
      simpa [Places.isBookmarkRow] using hcode
    rw [result_bind, Places.result_look] at hrest
    simp only [hother] at hrest
    cases hrest
  done := by
    intro store row hwell hrow hgenerators hneeds
    apply (leads_recast (Places.writes_setUrl id (Places.inward_url _))
      (fun _ hinward => hinward.toSteady)
      (Places.rewrites_setUrl hwell hrow hneeds.1 hneeds.2) store rfl).imp
    intro _ next hnext
    exact ⟨hnext.1, hnext.2.2.trans hgenerators⟩

/-- An address is checked before it is put down. -/
theorem acts_checkedAnnotate (name uri : String) :
    Acts installed id (fun _ => validateUri uri = .ok uri) (·.annotate name uri)
      (onTree (Places.check (fun _ => validateUri uri) >>= Places.annotate id name)) where
  needed := by
    intro store next row hwell hrow _ hok
    obtain ⟨checked, places, hcheck, -⟩ := exists_of_result_bind (exists_of_result_onTree hok)
    obtain ⟨hvalid, -⟩ := Prod.mk.inj hcheck
    exact eq_of_validateUri hvalid ▸ hvalid
  done := by
    intro store row hwell hrow hgenerators hvalid
    have hannotated := Places.recasts_of_writes
      (Places.writes_annotate id (Places.lasting_annotate name uri))
      (fun _ hlasting => hlasting.toSteady) (Places.rewrites_annotate hwell hrow name uri)
    apply (leads_onTree (Places.leads_check_bind hvalid hannotated) store rfl).imp
    intro _ next hnext
    exact ⟨hnext.1, hnext.2.2.trans hgenerators⟩

theorem acts_setSite (uri : String) : Acts installed id (fun _ => validateUri uri = .ok uri)
    (·.annotate AnnotationName.siteUri uri) (onTree (Places.setSite id uri)) :=
  acts_checkedAnnotate AnnotationName.siteUri uri

theorem acts_setFeed (uri : String) : Acts installed id (fun _ => validateUri uri = .ok uri)
    (·.annotate AnnotationName.feedUri uri) (onTree (Places.setFeed id uri)) :=
  acts_checkedAnnotate AnnotationName.feedUri uri

/-- A generator is bound if it is installed, and is no failure otherwise. -/
theorem acts_tryGenerator (generator : String) : Acts installed id (fun _ => True)
    (·.boundTo installed generator) (tryGenerator id generator) where
  needed := fun _ _ _ _ => trivial
  done := by
    intro store row hwell hrow hgenerators _
    have hsame : Recast id row store.tree store.tree := Recast.refl hwell hrow
    cases installed with
    | none =>
        refine ⟨(), store, ?_, hsame, hgenerators⟩
        simp only [tryGenerator, bindGenerator, result_bind, result_attempt, result_read,
          hgenerators, result_pure]
    | some names =>
        unfold Row.boundTo
        by_cases hmem : names.contains generator = true
        · obtain ⟨value, next, hresult, hnext⟩ :=
            (acts_annotate AnnotationName.generatorUri generator).done hwell hrow hgenerators trivial
          refine ⟨(), next, ?_, ?_⟩
          · simp only [tryGenerator, bindGenerator, result_bind, result_attempt, result_read,
              hgenerators, if_pos hmem, hresult, result_pure]
          · rw [if_pos (by simpa using hmem)]
            exact hnext
        · refine ⟨(), store, ?_, ?_, hgenerators⟩
          · simp only [tryGenerator, bindGenerator, result_bind, result_attempt, result_read,
              hgenerators, if_neg hmem, result_throw, result_pure]
          · rw [if_neg (by simpa using hmem)]
            exact hsame

theorem acts_updateGenerator (generator : String) : Acts installed id (fun _ => True)
    (·.generatedBy installed generator) (updateGenerator id generator) where
  needed := fun _ _ _ _ => trivial
  done := by
    intro store row hwell hrow hgenerators _
    have hlook : (updateGenerator id generator).result store =
        (if row.url.isSome then tryGenerator id generator else pure ()).result store := by
      unfold updateGenerator
      rw [result_look_bind, hwell.url? hrow]
      cases row.url <;> rfl
    unfold Yields Row.generatedBy
    rw [hlook]
    split
    · exact (acts_tryGenerator generator).done hwell hrow hgenerators trivial
    · exact acts_pure.done hwell hrow hgenerators trivial

end Steps

/-! ### Fields -/

/-- Whether the addresses of a record can be put down in an item of a type. -/
structure Suits (record : Record) (typeCode : Int) : Prop where
  uri : ∀ uri, record.bmkUri = some uri →
    typeCode = ItemType.bookmark.code ∧ validateUri uri = .ok uri
  site : ∀ uri, record.siteUri = some uri → validateUri uri = .ok uri
  feed : ∀ uri, record.feedUri = some uri → validateUri uri = .ok uri

section Fields

variable (record : Record)

theorem acts_inscribe : Acts installed id
    (fun row => ∀ uri, record.bmkUri = some uri →
      row.typeCode = ItemType.bookmark.code ∧ validateUri uri = .ok uri)
    (·.inscribedBy record) (do
      record.title.forM fun title => onTree (Places.setTitle id title)
      record.bmkUri.forM fun uri => onTree (Places.setUrl id uri)) := by
  apply ((acts_forM record.title acts_setTitle).bind (acts_forM record.bmkUri acts_setUrl)).congr
  · intro row
    have htype : (record.title.elim row fun title => { row with title := some title }).typeCode =
        row.typeCode := by
      cases record.title <;> rfl
    simp only [htype, implies_true, true_and]
  · exact fun row => rfl

theorem acts_furnish : Acts installed id
    (fun _ => (∀ uri, record.siteUri = some uri → validateUri uri = .ok uri) ∧
      ∀ uri, record.feedUri = some uri → validateUri uri = .ok uri)
    (·.furnishedBy installed record) (do
      record.keyword.forM fun keyword => onTree (Places.setKeyword id (some keyword))
      record.description.forM fun description => onTree (updateDescription id description)
      record.loadInSidebar.forM fun load => onTree (updateSidebar id load)
      record.generatorUri.forM (updateGenerator id)
      record.siteUri.forM fun site => onTree (Places.setSite id site)
      record.feedUri.forM fun feed => onTree (Places.setFeed id feed)) := by
  have hkeyword : Acts installed id _ _ (record.keyword.forM fun keyword =>
      onTree (Places.setKeyword id (some keyword))) :=
    acts_forM record.keyword fun keyword => acts_setKeyword (some keyword)
  have hdescription : Acts installed id _ _ (record.description.forM fun description =>
      onTree (updateDescription id description)) :=
    acts_forM record.description acts_updateDescription
  have hrest := hdescription.bind <|
    (acts_forM record.loadInSidebar acts_updateSidebar).bind <|
    (acts_forM record.generatorUri acts_updateGenerator).bind <|
    (acts_forM record.siteUri acts_setSite).bind (acts_forM record.feedUri acts_setFeed)
  apply (hkeyword.bind hrest).congr
  · intro row
    simp only [implies_true, true_and]
  · exact fun row => rfl

end Fields

end BookmarkStore

end SyncedBookmarks
