import Info6350.FinalProject.UserPosts

/-! # The board of posts

What the collection `posts` is for: a map from ids to posts, each with the time of its last
update.  The writes of the app are three operations on this map, and none but the first chooses
an author.
-/

namespace Info6350.FinalProject
open Library Swift Firestore Keyed

/-- A post on the board, and the time of its last update. -/
structure Entry where
  post : Post
  lastUpdated : Option ℤ
deriving DecidableEq, Repr

abbrev Board := String → Option Entry

namespace Board

/-- What a write at the time `now` does to the board. -/
def apply (now : ℤ) : PostWrite → Board → Board
  | .addDocument documentID post, b => Function.update b documentID (some
      ⟨{ post with id := some documentID, updateTime := some (post.updateTime.getD now) }, none⟩)
  | .updateData documentID title body, b => Function.update b documentID ((b documentID).map
      fun e => ⟨{ e.post with title := title, body := body }, some now⟩)
  | .delete documentID, b => Function.update b documentID none

def run (writes : List (ℤ × PostWrite)) (b : Board) : Board :=
  writes.foldl (fun b w => b.apply w.1 w.2) b

end Board

/-- What a document says: a post, and when it was last updated. -/
def Entry.ofDocument (d : Document) : Option Entry :=
  (Post.decode d).map fun p => ⟨p, (d.serverTimestamp? "lastUpdated").join⟩

/-- The board that a collection stands for. -/
def board (c : Collection) : Board := fun documentID =>
  (lookup c.documents.rows documentID).bind Entry.ofDocument

/-! ## The three writes -/

theorem Entry.ofDocument_encode {now : ℤ} {post : Post} {d : Document}
    (h : d.fields = Data.resolve now post.encode) : ofDocument d =
      some ⟨{ post with id := some d.id, updateTime := some (post.updateTime.getD now) }, none⟩ := by
  cases htime : post.updateTime <;>
    simp [ofDocument, Post.decode, Document.field, Document.string?, Document.serverTimestamp?, h,
      Post.encode, Data.resolve, List.lookup_cons, htime]

theorem Entry.ofDocument_update {now : ℤ} {title body : String} {d old : Document}
    (hid : d.id = old.id)
    (h : d.fields = Data.resolve now [("title", .value (.string title)),
      ("body", .value (.string body)), ("lastUpdated", .serverTimestamp)] ++ old.fields)
    (hold : Post.Stored old) : ofDocument d =
      (ofDocument old).map fun e => ⟨{ e.post with title := title, body := body }, some now⟩ := by
  have hnone : d.field "id" = old.field "id" := by
    simp [Document.field_of_append h, Data.resolve, List.lookup_cons]
  have htitle : d.string? "title" = some title := by
    simp [Document.string?, Document.field_of_append h, Data.resolve]
  have hbody : d.string? "body" = some body := by
    simp [Document.string?, Document.field_of_append h, Data.resolve, List.lookup_cons]
  have hcreatedById : d.string? "createdById" = old.string? "createdById" := by
    simp [Document.string?, Document.field_of_append h, Data.resolve, List.lookup_cons]
  have hcreatedByName : d.string? "createdByName" = old.string? "createdByName" := by
    simp [Document.string?, Document.field_of_append h, Data.resolve, List.lookup_cons]
  have htime : d.serverTimestamp? "updateTime" = old.serverTimestamp? "updateTime" := by
    simp [Document.serverTimestamp?, Document.field_of_append h, Data.resolve, List.lookup_cons]
  have hupdated : d.serverTimestamp? "lastUpdated" = some (some now) := by
    simp [Document.serverTimestamp?, Document.field_of_append h, Data.resolve, List.lookup_cons]
  obtain ⟨hid', htitle', hbody', -⟩ := Post.decode_isSome_iff.mp hold.decodes
  obtain ⟨oldTitle, htitle'⟩ := Option.isSome_iff_exists.mp htitle'
  obtain ⟨oldBody, hbody'⟩ := Option.isSome_iff_exists.mp hbody'
  simp only [ofDocument, Post.decode, hnone, htitle, hbody, hcreatedById, hcreatedByName, htime,
    hupdated, hid, hid', htitle', hbody']
  cases old.string? "createdById" <;> cases old.string? "createdByName" <;>
    cases old.serverTimestamp? "updateTime" <;> rfl

theorem board_of_lookup {c c' : Collection} {documentID : String} {o : Option Document}
    (h : lookup c'.documents.rows = Function.update (lookup c.documents.rows) documentID o) :
    board c' = Function.update (board c) documentID (o.bind Entry.ofDocument) := by
  funext id
  by_cases hid : id = documentID
  · subst hid
    simp [board, h]
  · simp [board, h, hid]

theorem board_postsStep {c c' : Collection} {w : ℤ × PostWrite}
    (hc : ∀ d ∈ c.documents.rows, Post.Stored d) (h : postsStep c w = .ok c') :
    board c' = (board c).apply w.1 w.2 := by
  obtain ⟨now, w⟩ := w
  cases w with
  | addDocument documentID post =>
    obtain rfl := Except.ok.inj h
    rw [board_of_lookup (Table.lookup_save _ _)]
    exact congrArg _ (Entry.ofDocument_encode rfl)
  | updateData documentID title body =>
    cases hold : lookup c.documents.rows documentID with
    | none =>
      have hsame : c = c' := by
        simpa [postsStep, Collection.step, PostWrite.write, Collection.commit, hold] using h
      have hboard : board c documentID = none := by simp [board, hold]
      subst hsame
      exact (Function.update_eq_self_iff.mpr (by simp [hboard])).symm
    | some old =>
      obtain ⟨hmem, hid⟩ := lookup_some hold
      have hput : c' = c.put documentID (Data.resolve now [("title", .value (.string title)),
          ("body", .value (.string body)), ("lastUpdated", .serverTimestamp)] ++ old.fields) := by
        simpa [postsStep, Collection.step, PostWrite.write, Collection.commit, hold, eq_comm] using h
      subst hput
      rw [board_of_lookup (Table.lookup_save _ _)]
      refine congrArg (Function.update _ _) ?_
      refine (Entry.ofDocument_update hid.symm rfl (hc old hmem)).trans ?_
      simp [board, hold]
  | delete documentID =>
    obtain rfl := Except.ok.inj h
    change board _ = Function.update (board c) documentID (none.bind Entry.ofDocument)
    exact board_of_lookup (Table.lookup_deleteOne c.documents documentID)

/-- A run does to the board what the operations do one after another. -/
theorem board_postsRun {writes : List (ℤ × PostWrite)} {c c' : Collection}
    (hc : ∀ d ∈ c.documents.rows, Post.Stored d) (h : postsStep.run c writes = .ok c') :
    board c' = Board.run writes (board c) := by
  induction writes generalizing c with
  | nil =>
    obtain rfl := Except.ok.inj h
    rfl
  | cons w writes ih =>
    obtain ⟨m, hm, h⟩ := postsStep.run_cons_eq_ok.mp h
    rw [ih (postsStep_preserves_stored c w m hc trivial hm) h, board_postsStep hc hm]
    rfl

/-- The collection is the board that the writes make, in the order in which the server executes
them. -/
theorem run_board {writes : List (ℤ × PostWrite)} {c : Collection}
    (h : postsStep.run .empty writes = .ok c) : board c = Board.run writes fun _ => none :=
  board_postsRun (fun _ hd => absurd hd List.not_mem_nil) h

/-- Of Raj's updated post. -/
theorem run_board_updated : ∃ c, postsStep.run .empty Sample.postWrites = .ok c ∧
    board c "p" = some ⟨⟨some "p", "Hello", "First and second", "raj", "Raj Shah", some 1⟩, some 2⟩ ∧
    board c = Board.run Sample.postWrites fun _ => none :=
  ⟨_, rfl, rfl, @run_board Sample.postWrites _ rfl⟩

end Info6350.FinalProject
