import Info6350.FinalProject.Models

/-! # The list of the user's posts

Posts are written with the fields of `Post`; an update adds `lastUpdated`.  The list asks
for the documents whose field `createdByUID` is the user's, and no write has this field.
-/

namespace Info6350.FinalProject
open Library Swift Firestore

/-- The writes to `posts`: `addDocument(from:)` at the id that it generates, the update of
`PostCRUViewController` and the deletion of `UserPostsTableViewController`. -/
inductive PostWrite where
  | addDocument (documentID : String) (post : Post)
  | updateData (documentID title body : String)
  | delete (documentID : String)

def PostWrite.write : PostWrite → Write
  | addDocument documentID post => .setData documentID post.encode
  | updateData documentID title body => .updateData documentID [
      ("title", .value (.string title)),
      ("body", .value (.string body)),
      ("lastUpdated", .serverTimestamp)]
  | delete documentID => .delete documentID

/-- The collection `posts`, with the server's time at each write. -/
def postsStep : Machine Collection (ℤ × PostWrite) Empty := fun c w =>
  Collection.step c (w.1, w.2.write)

/-- `UserPostsTableViewController.fetchData`, when the query succeeds. -/
def fetchData (user : Option String) (c : Collection) : List Post :=
  let documents := ((({} : Query).whereField "createdByUID" (uidValue user)).order
    "lastUpdated" true).getDocuments c
  documents.filterMap Post.decode

/-- The posts that a user created, the most recently written first. -/
def ownPosts (user : String) (c : Collection) : List Post :=
  ((c.documents.rows.filter fun d => d.field "createdById" = some (.string user)).insertionSort
    fun d d' => d'.version ≤ d.version).filterMap Post.decode

/-- What the writes make of a document: a post without the field that the list asks for. -/
structure Post.Stored (d : Document) : Prop where
  decodes : (Post.decode d).isSome
  noUID : d.field "createdByUID" = none

theorem Post.stored_encode {now : ℤ} {post : Post} {d : Document}
    (h : d.fields = Data.resolve now post.encode) : Post.Stored d := by
  refine ⟨Post.decode_isSome_iff.mpr ?_, ?_⟩ <;> cases htime : post.updateTime <;>
    simp [Document.field, Document.string?, Document.serverTimestamp?, h, Post.encode,
      Data.resolve, List.lookup_cons, htime]

theorem Post.Stored.update {now : ℤ} {title body : String} {d old : Document}
    (hold : Post.Stored old)
    (h : d.fields = Data.resolve now [("title", .value (.string title)),
      ("body", .value (.string body)), ("lastUpdated", .serverTimestamp)] ++ old.fields) :
    Post.Stored d := by
  obtain ⟨hid, -, -, hcreatedById, hcreatedByName, htime⟩ :=
    Post.decode_isSome_iff.mp hold.decodes
  refine ⟨Post.decode_isSome_iff.mpr ?_, ?_⟩
  · simpa [Document.string?, Document.serverTimestamp?, Document.field_of_append h, Data.resolve,
      List.lookup_cons] using And.intro hid ⟨hcreatedById, hcreatedByName, htime⟩
  · simpa [Document.field_of_append h, Data.resolve, List.lookup_cons] using hold.noUID

theorem postsStep_preserves_stored :
    postsStep.Preserves Machine.AnyStep fun c => ∀ d ∈ c.documents.rows, Post.Stored d := by
  intro c w c' hc _ h
  refine Collection.step_preserves_documents (W := fun w => ∃ p : PostWrite, w = p.write) ?_ ?_
    c (w.1, w.2.write) c' hc ⟨w.2, rfl⟩ h
  · rintro now documentID data d ⟨p, hp⟩ hd
    cases p with
    | addDocument =>
      obtain ⟨rfl, rfl⟩ := Write.setData.inj hp
      exact Post.stored_encode hd
    | updateData => cases hp
    | delete => cases hp
  · rintro now documentID data old d ⟨p, hp⟩ hold hd
    cases p with
    | addDocument => cases hp
    | updateData =>
      obtain ⟨rfl, rfl⟩ := Write.updateData.inj hp
      exact hold.update hd
    | delete => cases hp

/-- The list of a user is empty, whatever was written. -/
theorem fetchData_eq_nil {c : Collection} (hc : ∀ d ∈ c.documents.rows, Post.Stored d)
    (user : Option String) : fetchData user c = [] := by
  unfold fetchData
  rw [Query.getDocuments_eq_nil (f := ("createdByUID", uidValue user)) List.mem_cons_self
    fun d hd => (hc d hd).noUID]
  rfl

theorem ownPosts_eq_nil_iff {c : Collection} (hc : ∀ d ∈ c.documents.rows, Post.Stored d)
    {user : String} : ownPosts user c = [] ↔
      ∀ d ∈ c.documents.rows, d.field "createdById" ≠ some (.string user) := by
  unfold ownPosts
  rw [List.filterMap_eq_nil_iff]
  simp only [List.mem_insertionSort, List.mem_filter, decide_eq_true_eq]
  constructor
  · intro h d hd howner
    have hdecodes := (hc d hd).decodes
    rw [h d ⟨hd, howner⟩] at hdecodes
    cases hdecodes
  · exact fun h d hd => absurd hd.2 (h d hd.1)

/-- After any writes the list shows the user's posts if and only if there are none. -/
theorem run_showsOwnPosts_iff {writes : List (ℤ × PostWrite)} {c : Collection}
    (h : postsStep.run .empty writes = .ok c) (user : String) :
    fetchData (some user) c = ownPosts user c ↔
      ∀ d ∈ c.documents.rows, d.field "createdById" ≠ some (.string user) := by
  have hc := postsStep_preserves_stored.run_any (s := Collection.empty)
    (fun d hd => absurd hd List.not_mem_nil) h
  rw [fetchData_eq_nil hc, ← ownPosts_eq_nil_iff hc, eq_comm]

def Sample.postWrites : List (ℤ × PostWrite) :=
  [(1, .addDocument "p" ⟨none, "Hello", "First", "raj", "Raj Shah", none⟩),
    (2, .updateData "p" "Hello" "First and second")]

/-- Raj wrote a post, which his list does not show. -/
theorem run_postNotShown :
    ∃ c, postsStep.run .empty Sample.postWrites = .ok c ∧
      ownPosts "raj" c = [⟨some "p", "Hello", "First and second", "raj", "Raj Shah", some 1⟩] ∧
      fetchData (some "raj") c = [] ∧ fetchData (some "raj") c ≠ ownPosts "raj" c :=
  ⟨_, rfl, rfl, rfl, by decide⟩

/-- Andy has no post, and his list is empty. -/
theorem run_showsOwnPosts_iff_none :
    ∃ c, postsStep.run .empty Sample.postWrites = .ok c ∧
      fetchData (some "andy") c = ownPosts "andy" c :=
  ⟨_, rfl, (@run_showsOwnPosts_iff Sample.postWrites _ rfl "andy").mpr (by decide)⟩

end Info6350.FinalProject
