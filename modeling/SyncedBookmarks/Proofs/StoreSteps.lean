import SyncedBookmarks.Proofs.Mutations
import SyncedBookmarks.Store.Incoming
import SyncedBookmarks.Store.Outgoing

namespace SyncedBookmarks

/-! What the store keeps in order: its tree, and the records that it has made. Steps that touch the
tree alone are judged by the tree alone. -/

namespace Record

/-- The records that are made from local items, each with the fields of its kind alone. -/
inductive Serialized : Record → Prop where
  | tombstone (id : String) : Serialized (Record.tombstone id)
  | bookmark (id parent : String) (title : Option String) (uri : String) (tags : List String)
      (keyword description : Option String) (sidebar : Bool) (huri : validateUri uri = .ok uri)
      (hquery : BookmarkStore.isQuery uri = false) (htags : tags.mergeSort (· ≤ ·) = tags)
      (hkeyword : keyword ≠ some "") :
      Serialized
        { id, parentid := some parent, kind := .bookmark, title, bmkUri := some uri
          tags := some tags, keyword, description, loadInSidebar := some sidebar }
  | folder (id parent title : String) :
      Serialized { id, parentid := some parent, kind := .folder, title := some title }
  | livemark (id parent title : String) (site : Option String) (feed : String) :
      Serialized
        { id, parentid := some parent, kind := .livemark, title := some title, siteUri := site
          feedUri := some feed }
  | separator (id parent : String) :
      Serialized { id, parentid := some parent, kind := .separator }
  | other (record : Record) (hkind : record.kind = .query ∨ record.kind = .microsummary) :
      Serialized record

end Record

namespace BookmarkStore

open SyncedBookmarks.Action

/-- What a step leads to that depends on the tree alone and leaves all but the tree as it is. -/
def Leads (action : StoreAction α) (tree : Tree) (post : α → Tree → Prop) : Prop :=
  ∀ store : BookmarkStore, store.tree = tree → action.Yields store fun value next =>
    post value next.tree ∧ next.cache = store.cache ∧ next.generators = store.generators

structure WellFormed (store : BookmarkStore) : Prop where
  tree : store.tree.WellFormed
  cache : ∀ guid record, (guid, record) ∈ store.cache → record.id = guid ∧ record.Serialized

theorem leads_pure {value : α} {tree : Tree} {post : α → Tree → Prop} (h : post value tree) :
    Leads (pure value) tree post := by
  rintro store rfl
  exact yields_pure ⟨h, rfl, rfl⟩

theorem leads_onTree {action : TreeAction α} {tree : Tree} {post : α → Tree → Prop}
    (h : Places.Leads action tree post) : Leads (onTree action) tree post := by
  rintro store rfl
  exact (h store.places rfl).within fun value next hpost => ⟨hpost, rfl, rfl⟩

theorem Leads.bind {action : StoreAction α} {next : α → StoreAction β} {tree : Tree}
    {middle : α → Tree → Prop} {post : β → Tree → Prop} (haction : Leads action tree middle)
    (hnext : ∀ value tree, middle value tree → Leads (next value) tree post) :
    Leads (action >>= next) tree post := by
  rintro store rfl
  refine Action.Yields.bind (haction store rfl) ?_
  rintro value state ⟨hmiddle, hcache, hgenerators⟩
  refine (hnext value state.tree hmiddle state rfl).imp ?_
  rintro last final ⟨hpost, hcache', hgenerators'⟩
  exact ⟨hpost, hcache'.trans hcache, hgenerators'.trans hgenerators⟩

theorem result_look_bind (view : Tree → α) (next : α → StoreAction β) (store : BookmarkStore) :
    (look view >>= next).result store = (next (view store.tree)).result store :=
  rfl

theorem leads_look_bind {view : Tree → α} {next : α → StoreAction β} {tree : Tree}
    {post : β → Tree → Prop} (h : Leads (next (view tree)) tree post) :
    Leads (look view >>= next) tree post := by
  rintro store rfl
  exact (yields_read (P := fun value state => value = view store.tree ∧ state = store)
    ⟨rfl, rfl⟩).bind fun value state hread => by rw [hread.1, hread.2]; exact h store rfl

theorem leads_check_bind {view : Tree → Except TreeError α} {next : α → StoreAction β}
    {tree : Tree} {post : β → Tree → Prop} {value : α} (hview : view tree = .ok value)
    (h : Leads (next value) tree post) : Leads (check view >>= next) tree post := by
  have hcheck : Leads (check view) tree fun found state => found = value ∧ state = tree := by
    refine leads_onTree ?_
    rintro places rfl
    exact yields_check hview ⟨rfl, rfl⟩
  refine hcheck.bind ?_
  rintro found state ⟨hfound, hstate⟩
  rw [hfound, hstate]
  exact h

theorem Leads.imp {action : StoreAction α} {tree : Tree} {post post' : α → Tree → Prop}
    (haction : Leads action tree post) (h : ∀ value tree, post value tree → post' value tree) :
    Leads action tree post' :=
  fun store htree => (haction store htree).imp fun value _ hpost => ⟨h value _ hpost.1, hpost.2⟩

theorem Leads.map {action : StoreAction α} {tree : Tree} {post : β → Tree → Prop} (f : α → β)
    (haction : Leads action tree fun value next => post (f value) next) :
    Leads (f <$> action) tree post :=
  fun store htree => (haction store htree).map f

/-! ### Keeping -/

theorem keeps_onTree {action : TreeAction α} (h : action.Keeps Places.WellFormed) :
    (onTree action).Keeps WellFormed :=
  h.within (fun _ hwell => hwell.tree) fun _ _ hwell hnext => ⟨hnext, hwell.cache⟩

theorem keeps_look {inv : BookmarkStore → Prop} (view : Tree → α) : (look view).Keeps inv :=
  keeps_read _ _

theorem keeps_checked {inv : BookmarkStore → Prop} (view : Tree → Except TreeError α) :
    (check view).Keeps inv :=
  fun _ h => h

theorem ensures_require {inv : BookmarkStore → Prop} (name : String) (value : Option α) :
    (require name value).Ensures inv fun found => value = some found := by
  cases value with
  | none => exact fun _ h => ⟨h, fun _ hvalue => by cases hvalue⟩
  | some value => exact ensures_pure rfl

theorem ensures_look {view : Tree → α} {post : α → Prop}
    (h : ∀ tree : Tree, tree.WellFormed → post (view tree)) :
    (look view).Ensures WellFormed post :=
  ensures_read fun _ hwell => h _ hwell.tree

theorem ensures_checked {view : Tree → Except TreeError α} {P : α → Prop}
    (h : ∀ (tree : Tree) value, tree.WellFormed → view tree = .ok value → P value) :
    (check view).Ensures WellFormed P := by
  have hplaces : (Places.check view).Ensures Places.WellFormed P :=
    ensures_check fun places value hwell hvalue => h places.tree value hwell hvalue
  exact hplaces.within (fun _ hwell => hwell.tree) fun _ _ hwell hnext => ⟨hnext, hwell.cache⟩

end BookmarkStore

end SyncedBookmarks
