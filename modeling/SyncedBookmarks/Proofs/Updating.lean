import SyncedBookmarks.Proofs.ItemSteps

namespace SyncedBookmarks

/-! What an update makes of an item, and what it leaves alone. -/

namespace Row

/-- The row with what a record says of its place, its title and its URL. -/
def placedBy (row : Row) (record : Record) (parent : Int) : Row :=
  let row := { row with parent := some parent }
  let row := record.title.elim row fun title => { row with title := some title }
  record.bmkUri.elim row fun url => { row with url := some url }

def describedBy (row : Row) (description : String) : Row :=
  if description.isEmpty then row.unannotate AnnotationName.description
  else row.annotate AnnotationName.description description

def sidebarBy (row : Row) (load : Bool) : Row :=
  if load then row.annotate AnnotationName.loadInSidebar "true"
  else row.unannotate AnnotationName.loadInSidebar

/-- The row with what else a record says. -/
def detailedBy (row : Row) (record : Record) : Row :=
  let row := record.keyword.elim row fun keyword =>
    { row with keyword := (some keyword).filter (!·.isEmpty) }
  let row := record.description.elim row row.describedBy
  let row := record.loadInSidebar.elim row row.sidebarBy
  let row := record.siteUri.elim row (row.annotate AnnotationName.siteUri)
  record.feedUri.elim row (row.annotate AnnotationName.feedUri)

/-- Whether a row is another one but for its annotations. -/
def Reannotated (row other : Row) : Prop :=
  other = { row with annotations := other.annotations }

section Placed

variable (row : Row) (record : Record) (parent : Int)

@[simp] theorem placedBy_guid : (row.placedBy record parent).guid = row.guid := by
  rw [placedBy]
  cases record.title <;> cases record.bmkUri <;> rfl

@[simp] theorem placedBy_parent : (row.placedBy record parent).parent = some parent := by
  rw [placedBy]
  cases record.title <;> cases record.bmkUri <;> rfl

@[simp] theorem placedBy_typeCode : (row.placedBy record parent).typeCode = row.typeCode := by
  rw [placedBy]
  cases record.title <;> cases record.bmkUri <;> rfl

@[simp] theorem placedBy_title :
    (row.placedBy record parent).title = (record.title <|> row.title) := by
  rw [placedBy]
  cases record.title <;> cases record.bmkUri <;> rfl

@[simp] theorem placedBy_url : (row.placedBy record parent).url = (record.bmkUri <|> row.url) := by
  rw [placedBy]
  cases record.title <;> cases record.bmkUri <;> rfl

@[simp] theorem placedBy_keyword : (row.placedBy record parent).keyword = row.keyword := by
  rw [placedBy]
  cases record.title <;> cases record.bmkUri <;> rfl

@[simp] theorem placedBy_annotations :
    (row.placedBy record parent).annotations = row.annotations := by
  rw [placedBy]
  cases record.title <;> cases record.bmkUri <;> rfl

end Placed

section Detailed

variable (row : Row) (record : Record)

theorem annotationOf?_describedBy (description name : String) :
    (row.describedBy description).annotationOf? name =
      if name = AnnotationName.description then
        (some description).filter (!·.isEmpty)
      else row.annotationOf? name := by
  rw [describedBy]
  split
  · rename_i hempty
    simp [annotationOf?_unannotate, Option.filter, hempty]
  · rename_i hgiven
    simp [annotationOf?_annotate, Option.filter, hgiven]

theorem annotationOf?_sidebarBy (load : Bool) (name : String) :
    (row.sidebarBy load).annotationOf? name =
      if name = AnnotationName.loadInSidebar then if load then some "true" else none
      else row.annotationOf? name := by
  rw [sidebarBy]
  cases load
  · exact annotationOf?_unannotate row _ name
  · exact annotationOf?_annotate row _ _ name

theorem Reannotated.trans {row other last : Row} (h : row.Reannotated other)
    (h' : other.Reannotated last) : row.Reannotated last := by
  unfold Reannotated at h h' ⊢
  rw [h', h]

theorem reannotated_elim (value : Option α) (change : Row → α → Row)
    (hchange : ∀ (row : Row) x, row.Reannotated (change row x)) :
    row.Reannotated (value.elim row (change row)) := by
  cases value with
  | none => rfl
  | some x => exact hchange row x

theorem reannotated_describedBy (description : String) :
    row.Reannotated (row.describedBy description) := by
  unfold describedBy
  split <;> rfl

theorem reannotated_sidebarBy (load : Bool) : row.Reannotated (row.sidebarBy load) := by
  unfold sidebarBy
  split <;> rfl

theorem elim_keyword (value : Option String) :
    (value.elim row fun keyword => { row with keyword := (some keyword).filter (!·.isEmpty) }) =
      { row with keyword := value.elim row.keyword fun keyword =>
          (some keyword).filter (!·.isEmpty) } := by
  cases value <;> rfl

/-- The rest of a record is about the keyword and the annotations. -/
theorem reannotated_detailedBy : Reannotated
    { row with keyword := record.keyword.elim row.keyword fun keyword =>
        (some keyword).filter (!·.isEmpty) } (row.detailedBy record) := by
  simp only [detailedBy]
  rw [elim_keyword]
  apply (reannotated_elim _ record.description describedBy reannotated_describedBy).trans
  apply (reannotated_elim _ record.loadInSidebar sidebarBy reannotated_sidebarBy).trans
  apply (reannotated_elim _ record.siteUri (·.annotate AnnotationName.siteUri)
    fun _ _ => rfl).trans
  exact reannotated_elim _ record.feedUri (·.annotate AnnotationName.feedUri) fun _ _ => rfl

@[simp] theorem detailedBy_guid : (row.detailedBy record).guid = row.guid := by
  rw [row.reannotated_detailedBy record]

@[simp] theorem detailedBy_parent : (row.detailedBy record).parent = row.parent := by
  rw [row.reannotated_detailedBy record]

@[simp] theorem detailedBy_typeCode : (row.detailedBy record).typeCode = row.typeCode := by
  rw [row.reannotated_detailedBy record]

@[simp] theorem detailedBy_title : (row.detailedBy record).title = row.title := by
  rw [row.reannotated_detailedBy record]

@[simp] theorem detailedBy_url : (row.detailedBy record).url = row.url := by
  rw [row.reannotated_detailedBy record]

@[simp] theorem detailedBy_keyword :
    (row.detailedBy record).keyword =
      record.keyword.elim row.keyword fun keyword => (some keyword).filter (!·.isEmpty) := by
  rw [row.reannotated_detailedBy record]

theorem annotationOf?_elim (value : Option α) (change : α → Row) (name : String) :
    (value.elim row change).annotationOf? name =
      value.elim (row.annotationOf? name) fun x => (change x).annotationOf? name := by
  cases value <;> rfl

/-- What a record says of each annotation that it has a field for. -/
def annotationBy (name : String) : Option String :=
  let old := row.annotationOf? name
  let old := record.description.elim old fun description =>
    if name = AnnotationName.description then (some description).filter (!·.isEmpty) else old
  let old := record.loadInSidebar.elim old fun load =>
    if name = AnnotationName.loadInSidebar then if load then some "true" else none else old
  let old := record.siteUri.elim old fun site =>
    if name = AnnotationName.siteUri then some site else old
  record.feedUri.elim old fun feed => if name = AnnotationName.feedUri then some feed else old

theorem annotationOf?_detailedBy (name : String) :
    (row.detailedBy record).annotationOf? name = row.annotationBy record name := by
  have hkeyword : ∀ keyword, { row with keyword }.annotationOf? name = row.annotationOf? name :=
    fun _ => rfl
  simp only [detailedBy, elim_keyword, annotationBy, annotationOf?_elim, annotationOf?_annotate,
    annotationOf?_describedBy, annotationOf?_sidebarBy, hkeyword]

theorem elim_const (value : Option α) (old : β) : (value.elim old fun _ => old) = old := by
  cases value <;> rfl

theorem annotationBy_description :
    row.annotationBy record AnnotationName.description =
      record.description.elim (row.annotationOf? AnnotationName.description) fun description =>
        (some description).filter (!·.isEmpty) := by
  simp [annotationBy, AnnotationName.description, AnnotationName.loadInSidebar,
    AnnotationName.siteUri, AnnotationName.feedUri, elim_const]

theorem annotationBy_loadInSidebar :
    row.annotationBy record AnnotationName.loadInSidebar =
      record.loadInSidebar.elim (row.annotationOf? AnnotationName.loadInSidebar) fun load =>
        if load then some "true" else none := by
  simp [annotationBy, AnnotationName.description, AnnotationName.loadInSidebar,
    AnnotationName.siteUri, AnnotationName.feedUri, elim_const]

theorem annotationBy_siteUri :
    row.annotationBy record AnnotationName.siteUri =
      (record.siteUri <|> row.annotationOf? AnnotationName.siteUri) := by
  cases hsite : record.siteUri <;>
    simp [annotationBy, AnnotationName.description, AnnotationName.loadInSidebar,
      AnnotationName.siteUri, AnnotationName.feedUri, elim_const, hsite]

theorem annotationBy_feedUri :
    row.annotationBy record AnnotationName.feedUri =
      (record.feedUri <|> row.annotationOf? AnnotationName.feedUri) := by
  cases hfeed : record.feedUri <;>
    simp [annotationBy, AnnotationName.description, AnnotationName.loadInSidebar,
      AnnotationName.siteUri, AnnotationName.feedUri, elim_const, hfeed]

/-- The annotations that no field stands for stay. -/
theorem annotationBy_other {name : String} (hdescription : name ≠ AnnotationName.description)
    (hsidebar : name ≠ AnnotationName.loadInSidebar) (hsite : name ≠ AnnotationName.siteUri)
    (hfeed : name ≠ AnnotationName.feedUri) :
    row.annotationBy record name = row.annotationOf? name := by
  simp [annotationBy, hdescription, hsidebar, hsite, hfeed, elim_const]

end Detailed

end Row

namespace Tree

/-- What changing the tags of an item's URL comes to; without a URL or tags, to nothing. -/
inductive TagsUpdated : Option String → Option (List String) → Tree → Tree → Prop where
  | untouched {url : Option String} {tags : Option (List String)} (tree : Tree)
      (h : url = none ∨ tags = none) : TagsUpdated url tags tree tree
  | replaced {uri : String} {tags : List String} {before after : Tree}
      (h : BookmarkStore.TagsReplaced uri (tags.filter (!·.isEmpty)) before after) :
      TagsUpdated (some uri) (some tags) before after

theorem TagsUpdated.retagged {url : Option String} {tags : Option (List String)}
    {before after : Tree} (hwell : before.WellFormed) (h : TagsUpdated url tags before after) :
    Retagged before after := by
  cases h with
  | untouched => exact Retagged.refl hwell
  | replaced h => exact h.retagged

theorem TagsUpdated.kept {url : Option String} {tags : Option (List String)} {before after : Tree}
    (h : TagsUpdated url tags before after) {id : Int} {row : Row}
    (hrow : before.known? id = some row)
    (hsafe : url.isSome → tags.isSome → ¬ before.TagOwned id) : after.known? id = some row := by
  cases h with
  | untouched => exact hrow
  | replaced h => exact h.retagged.kept id row hrow (hsafe rfl rfl)

end Tree

namespace BookmarkStore

open SyncedBookmarks.Action SyncedBookmarks.Tree

variable {tree : Tree} {id : Int} {row : Row}

/-- One step after another on the same item. -/
theorem rewrites_bind {action : StoreAction Unit} {next : Unit → StoreAction Unit}
    {first second : Row} (haction : Leads action tree fun _ after => Rewritten id first tree after)
    (hnext : ∀ after, Rewritten id first tree after →
      Leads (next ()) after fun _ last => Rewritten id second after last) :
    Leads (action >>= next) tree fun _ last => Rewritten id second tree last :=
  haction.bind fun _ after hafter =>
    (hnext after hafter).imp fun _ _ hlast => hafter.trans hlast

theorem rewrites_forM {step : α → StoreAction Unit} {change : α → Row} (h : tree.WellFormed)
    (hrow : tree.known? id = some row) (value : Option α)
    (hstep : ∀ x, value = some x →
      Leads (step x) tree fun _ next => Rewritten id (change x) tree next) :
    Leads (value.forM step) tree fun _ next => Rewritten id (value.elim row change) tree next := by
  cases value with
  | none => exact leads_pure (Rewritten.refl h hrow)
  | some x => exact hstep x rfl

theorem rewrites_updateParent (h : tree.WellFormed) (hrow : tree.known? id = some row) {parent : Int}
    (hfolder : tree.IsFolder parent) (houtside : ¬ tree.Encloses id parent) :
    Places.Leads (updateParent id parent) tree fun _ next =>
      Rewritten id { row with parent := some parent } tree next := by
  refine Places.leads_check_bind (h.parentOf? id) ?_
  rw [above?_of_known? hrow]
  split
  · exact Places.rewrites_moveItem h hrow hfolder houtside _
  · rename_i hsame
    have hparent : row.parent = some parent := by simpa using hsame
    refine Places.leads_pure ?_
    rw [← hparent]
    exact Rewritten.refl h hrow

theorem rewrites_updateDescription (h : tree.WellFormed) (hrow : tree.known? id = some row)
    (description : String) :
    Places.Leads (updateDescription id description) tree fun _ next =>
      Rewritten id (row.describedBy description) tree next := by
  rw [updateDescription, Row.describedBy]
  split
  · exact Places.rewrites_unannotate h hrow _
  · exact Places.rewrites_annotate h hrow _ _

theorem rewrites_updateSidebar (h : tree.WellFormed) (hrow : tree.known? id = some row)
    (load : Bool) :
    Places.Leads (updateSidebar id load) tree fun _ next =>
      Rewritten id (row.sidebarBy load) tree next := by
  rw [updateSidebar, Row.sidebarBy]
  split
  · exact Places.rewrites_annotate h hrow _ _
  · exact Places.rewrites_unannotate h hrow _

theorem leads_updateTags (h : tree.WellFormed) (hrow : tree.known? id = some row)
    (tags : Option (List String))
    (hfolder : ∀ given, tags = some given → row.url.isSome →
      given.filter (!·.isEmpty) = [] ∨ tree.IsFolder RootId.tags) :
    Leads (tags.forM (updateTags id)) tree fun _ next => TagsUpdated row.url tags tree next := by
  cases tags with
  | none => exact leads_pure (.untouched tree (.inr rfl))
  | some given =>
      refine leads_check_bind (h.url? hrow) ?_
      cases hurl : row.url with
      | none => exact leads_pure (.untouched tree (.inl rfl))
      | some uri =>
          refine (leads_replaceTags h ((h.sound id row hrow).url_valid uri hurl)
            (hfolder given rfl (by rw [hurl]; rfl))).imp ?_
          exact fun _ next hnext => .replaced hnext

/-- What has to hold for a record to be taken up by an item without a failure. -/
structure Accepts (tree : Tree) (id : Int) (row : Row) (record : Record) (parent : Int) : Prop where
  folder : tree.IsFolder parent
  outside : ¬ tree.Encloses id parent
  uri : ∀ uri, record.bmkUri = some uri →
    row.typeCode = ItemType.bookmark.code ∧ validateUri uri = .ok uri
  tags : ∀ tags, record.tags = some tags → (record.bmkUri <|> row.url).isSome →
    (tags.filter (!·.isEmpty) = [] ∨ tree.IsFolder RootId.tags) ∧
      parent ≠ RootId.tags ∧ tree.above? parent ≠ some RootId.tags
  generator : record.generatorUri = none
  site : ∀ uri, record.siteUri = some uri → validateUri uri = .ok uri
  feed : ∀ uri, record.feedUri = some uri → validateUri uri = .ok uri

theorem rewrites_place (h : tree.WellFormed) (hrow : tree.known? id = some row) {record : Record}
    {parent : Int} (haccepts : Accepts tree id row record parent) :
    Leads (do
      onTree (updateParent id parent)
      record.title.forM fun title => onTree (Places.setTitle id title)
      record.bmkUri.forM fun uri => onTree (Places.setUrl id uri)) tree fun _ next =>
        Rewritten id (row.placedBy record parent) tree next := by
  refine rewrites_bind (leads_onTree
    (rewrites_updateParent h hrow haccepts.folder haccepts.outside)) ?_
  intro moved hmoved
  refine rewrites_bind (rewrites_forM hmoved.wellFormed hmoved.self record.title
    fun title _ => leads_onTree (Places.rewrites_setTitle hmoved.wellFormed hmoved.self title)) ?_
  intro titled htitled
  refine rewrites_forM htitled.wellFormed htitled.self record.bmkUri ?_
  intro uri huri
  obtain ⟨hbookmark, hvalid⟩ := haccepts.uri uri huri
  refine leads_onTree (Places.rewrites_setUrl htitled.wellFormed htitled.self ?_ hvalid)
  rw [← hbookmark]
  cases record.title <;> rfl

theorem rewrites_details (h : tree.WellFormed) (hrow : tree.known? id = some row) {record : Record}
    (hsite : ∀ uri, record.siteUri = some uri → validateUri uri = .ok uri)
    (hfeed : ∀ uri, record.feedUri = some uri → validateUri uri = .ok uri) :
    Leads (do
      record.keyword.forM fun keyword => onTree (Places.setKeyword id (some keyword))
      record.description.forM fun description => onTree (updateDescription id description)
      record.loadInSidebar.forM fun load => onTree (updateSidebar id load)
      record.siteUri.forM fun site => onTree (Places.setSite id site)
      record.feedUri.forM fun feed => onTree (Places.setFeed id feed)) tree fun _ next =>
        Rewritten id (row.detailedBy record) tree next := by
  refine rewrites_bind (rewrites_forM h hrow record.keyword
    fun keyword _ => leads_onTree (Places.rewrites_setKeyword h hrow (some keyword))) ?_
  intro _ hkeyword
  refine rewrites_bind (rewrites_forM hkeyword.wellFormed hkeyword.self record.description
    fun description _ =>
      leads_onTree (rewrites_updateDescription hkeyword.wellFormed hkeyword.self description)) ?_
  intro _ hdescription
  refine rewrites_bind (rewrites_forM hdescription.wellFormed hdescription.self record.loadInSidebar
    fun load _ =>
      leads_onTree (rewrites_updateSidebar hdescription.wellFormed hdescription.self load)) ?_
  intro _ hsidebar
  refine rewrites_bind (rewrites_forM hsidebar.wellFormed hsidebar.self record.siteUri
    fun site hgiven => leads_onTree (Places.leads_check_bind (hsite site hgiven)
      (Places.rewrites_annotate hsidebar.wellFormed hsidebar.self _ site))) ?_
  intro _ hannotated
  exact rewrites_forM hannotated.wellFormed hannotated.self record.feedUri
    fun feed hgiven => leads_onTree (Places.leads_check_bind (hfeed feed hgiven)
      (Places.rewrites_annotate hannotated.wellFormed hannotated.self _ feed))

/-- The stages of an update: the item's place, title and URL, then the tags of its URL, and at last
all the rest. -/
structure Updated (tree : Tree) (id : Int) (row : Row) (record : Record) (parent : Int)
    (placed tagged next : Tree) : Prop where
  place : Rewritten id (row.placedBy record parent) tree placed
  tags : TagsUpdated (row.placedBy record parent).url record.tags placed tagged
  kept : tagged.known? id = some (row.placedBy record parent)
  details : Rewritten id ((row.placedBy record parent).detailedBy record) tagged next

/-- Outside the root for tags and its folders, no tag owns an item. -/
theorem not_tagOwned_of_parent {parent : Int} (hrow : tree.known? id = some row)
    (hparent : row.parent = some parent) (hne : parent ≠ RootId.tags)
    (habove : tree.above? parent ≠ some RootId.tags) : ¬ tree.TagOwned id := by
  refine OutsideTags.not_tagOwned ?_ hrow
  rw [hparent]
  rintro _ ⟨⟩
  exact ⟨hne, habove⟩

theorem leads_update (h : tree.WellFormed) (hrow : tree.known? id = some row) {record : Record}
    (hid : tree.idOfGuid? record.id = some id) {parent : Int}
    (haccepts : Accepts tree id row record parent) :
    Leads (update record (some parent)) tree fun _ next =>
      ∃ placed tagged, Updated tree id row record parent placed tagged next := by
  suffices hgrouped : Leads (do
      (do
        onTree (updateParent id parent)
        record.title.forM fun title => onTree (Places.setTitle id title)
        record.bmkUri.forM fun uri => onTree (Places.setUrl id uri))
      record.tags.forM (updateTags id)
      (do
        record.keyword.forM fun keyword => onTree (Places.setKeyword id (some keyword))
        record.description.forM fun description => onTree (updateDescription id description)
        record.loadInSidebar.forM fun load => onTree (updateSidebar id load)
        record.siteUri.forM fun site => onTree (Places.setSite id site)
        record.feedUri.forM fun feed => onTree (Places.setFeed id feed))) tree fun _ next =>
      ∃ placed tagged, Updated tree id row record parent placed tagged next by
    rw [update]
    refine leads_look_bind ?_
    rw [hid]
    simpa [haccepts.generator, bind_assoc, Option.forM] using hgrouped
  refine (rewrites_place h hrow haccepts).bind ?_
  intro _ placed hplaced
  have hparentNe : parent ≠ id := by
    rintro rfl
    exact haccepts.outside (Encloses.refl tree parent)
  have habove : placed.above? parent = tree.above? parent := by
    rw [above?_eq_known?, hplaced.of_ne hparentNe, above?_eq_known?]
  refine (leads_updateTags hplaced.wellFormed hplaced.self record.tags ?_).bind ?_
  · intro tags htags hurl
    rw [Row.placedBy_url] at hurl
    refine (haccepts.tags tags htags hurl).1.imp_right ?_
    exact hplaced.isFolder hrow (Row.placedBy_typeCode row record parent)
  · intro _ tagged htagged
    have hframe := htagged.retagged hplaced.wellFormed
    have hkept : tagged.known? id = some (row.placedBy record parent) := by
      refine htagged.kept hplaced.self ?_
      intro hurl hgiven
      obtain ⟨tags, htags⟩ := Option.isSome_iff_exists.mp hgiven
      rw [Row.placedBy_url] at hurl
      obtain ⟨-, hne, hup⟩ := haccepts.tags tags htags hurl
      exact not_tagOwned_of_parent hplaced.self (Row.placedBy_parent row record parent) hne
        (by rwa [habove])
    refine (rewrites_details hframe.wellFormed hkept haccepts.site haccepts.feed).imp ?_
    intro _ next hnext
    exact ⟨placed, tagged, hplaced, htagged, hkept, hnext⟩

end BookmarkStore

end SyncedBookmarks
