import Info6350.FinalProject.Models

/-! # Deletions in flight

A swipe sends the deletion of the document of its row.  Its completion, which may come
after other completions, removes whatever post is then at this row.
-/

namespace Info6350.FinalProject
open Library Swift Keyed

instance : Keyed Post (Option String) := ⟨Post.id⟩

@[simp] theorem key_post (p : Post) : key p = p.id := rfl

/-- What the completion of a deletion captures, and the document that is deleted. -/
structure Deletion where
  row : ℕ
  documentID : String
deriving DecidableEq, Repr

/-- The posts of `UserPostsTableViewController` and its deletions that are not completed. -/
structure ListState where
  posts : List Post
  deletions : List Deletion

/-- A swipe on a displayed row, the completion of a deletion in flight, and the completion of
`fetchData` with the posts that it decoded, or with an error. -/
inductive ListEvent where
  | commit (row : ℕ)
  | deleted (request : ℕ) (err : Bool)
  | fetched (posts : Option (List Post))

def listStep : Machine ListState ListEvent Trap := fun st e =>
  match e with
  | .commit row => do
    let post ← subscript st.posts row
    let documentID ← unwrap post.id
    return { st with deletions := st.deletions ++ [⟨row, documentID⟩] }
  | .deleted request err =>
    match st.deletions[request]? with
    | some deletion =>
      let deletions := st.deletions.eraseIdx request
      if err then return { st with deletions := deletions }
      else do
        let posts ← removeAt st.posts deletion.row
        return ⟨posts, deletions⟩
    | none => .ok st
  | .fetched (some posts) => .ok { st with posts := posts }
  | .fetched none => .ok st

/-- The documents of a collection have distinct ids. -/
def ListEvent.Fetches (e : ListEvent) : Prop := ∀ posts, e = .fetched (some posts) → Distinct posts

/-- A completed deletion removes the post whose document was deleted, if it is there. -/
def RemovesDeleted (st : ListState) (e : ListEvent) : Prop :=
  ∀ request deletion, e = .deleted request false → st.deletions[request]? = some deletion →
    ∃ st', listStep st e = .ok st' ∧
      st'.posts = st.posts.filter fun p => p.id ≠ some deletion.documentID

/-- At a completed deletion the row of the swipe holds the post whose document was deleted. -/
def RowHoldsDeleted (st : ListState) (e : ListEvent) : Prop :=
  ∀ request deletion, e = .deleted request false → st.deletions[request]? = some deletion →
    ∃ post, st.posts[deletion.row]? = some post ∧ post.id = some deletion.documentID

theorem listStep_deleted_ok_iff {st st' : ListState} {request : ℕ} {deletion : Deletion}
    (hd : st.deletions[request]? = some deletion) :
    listStep st (.deleted request false) = .ok st' ↔
      deletion.row < st.posts.length ∧
        st' = ⟨st.posts.eraseIdx deletion.row, st.deletions.eraseIdx request⟩ := by
  simp only [listStep, hd, Bool.false_eq_true, if_false, bind_ok_iff, removeAt_natCast,
    pure_ok_iff]
  constructor
  · rintro ⟨posts, ⟨hrow, rfl⟩, rfl⟩
    exact ⟨hrow, rfl⟩
  · rintro ⟨hrow, rfl⟩
    exact ⟨_, ⟨hrow, rfl⟩, rfl⟩

theorem removesDeleted_iff {st : ListState} (hst : Distinct st.posts) (e : ListEvent) :
    RemovesDeleted st e ↔ RowHoldsDeleted st e := by
  refine forall_congr' fun request => forall_congr' fun deletion => forall_congr' fun he =>
    forall_congr' fun hd => ?_
  subst he
  simp only [listStep_deleted_ok_iff hd]
  constructor
  · rintro ⟨_, ⟨hrow, rfl⟩, hposts⟩
    have hpost : st.posts[deletion.row]? = some st.posts[deletion.row] :=
      List.getElem?_eq_getElem hrow
    refine ⟨_, hpost, ?_⟩
    by_contra hne
    -- the post at the row stays in the filtered list but not in the other
    have hposts : st.posts.eraseIdx deletion.row = _ := hposts
    have hkept : st.posts[deletion.row] ∈ st.posts.eraseIdx deletion.row := by
      rw [hposts]
      exact List.mem_filter.mpr ⟨List.getElem_mem hrow, decide_eq_true hne⟩
    rw [hst.eraseIdx_eq_filter hpost] at hkept
    simp at hkept
  · rintro ⟨post, hpost, hid⟩
    refine ⟨_, ⟨(List.getElem?_eq_some_iff.mp hpost).choose, rfl⟩, ?_⟩
    rw [← hid]
    exact hst.eraseIdx_eq_filter hpost

theorem listStep_preserves_distinct :
    listStep.Preserves (fun _ e => e.Fetches) fun st => Distinct st.posts := by
  intro st e st' hst he h
  cases e with
  | commit row =>
    obtain ⟨post, -, h⟩ := bind_ok_iff.mp h
    obtain ⟨documentID, -, h⟩ := bind_ok_iff.mp h
    obtain rfl := pure_ok_iff.mp h
    exact hst
  | deleted request err =>
    cases hd : st.deletions[request]? with
    | none =>
      simp only [listStep, hd] at h
      obtain rfl := Except.ok.inj h
      exact hst
    | some deletion =>
      cases err with
      | true =>
        simp only [listStep, hd, if_true] at h
        obtain rfl := pure_ok_iff.mp h
        exact hst
      | false =>
        obtain ⟨-, rfl⟩ := (listStep_deleted_ok_iff hd).mp h
        exact hst.sublist (List.eraseIdx_sublist _ _)
  | fetched posts =>
    cases posts with
    | none =>
      obtain rfl := Except.ok.inj h
      exact hst
    | some posts =>
      obtain rfl := Except.ok.inj h
      exact he posts rfl

/-- For every list of posts and every interleaving: the completed deletions remove the posts
whose documents were deleted if and only if each finds this post at the row of its swipe. -/
theorem run_removesDeleted_iff {posts : List Post} (h : Distinct posts) {events : List ListEvent}
    (hevents : ∀ e ∈ events, e.Fetches) :
    listStep.Meets RemovesDeleted ⟨posts, []⟩ events ↔
      listStep.Meets RowHoldsDeleted ⟨posts, []⟩ events :=
  Machine.meets_congr_of_meets (A := fun _ e => e.Fetches) (I := fun st => Distinct st.posts)
    (fun st e st' hst he h => listStep_preserves_distinct st e st' hst he.1 h)
    (fun _ e hst _ => removesDeleted_iff hst e) h
    (Machine.meets_of_forall _ fun e he _ => hevents e he)

def Sample.post (id : String) : Post := ⟨some id, "Title", "Body", "raj", "Raj Shah", some 1⟩

/-- The first two rows are swiped, and the deletions complete in this order. -/
def Sample.twoSwipes : List ListEvent :=
  [.commit 0, .commit 1, .deleted 0 false, .deleted 0 false]

/-- Of three posts the last is removed and not the second; of two posts none is left at the row. -/
theorem run_twoSwipes :
    (∃ st, listStep.run ⟨[Sample.post "p", Sample.post "q", Sample.post "r"], []⟩
        Sample.twoSwipes = .ok st ∧ st.posts = [Sample.post "q"]) ∧
    listStep.run ⟨[Sample.post "p", Sample.post "q"], []⟩ Sample.twoSwipes =
      .error .indexOutOfRange ∧
    ¬ listStep.Meets RemovesDeleted ⟨[Sample.post "p", Sample.post "q", Sample.post "r"], []⟩
      Sample.twoSwipes := by
  refine ⟨⟨_, rfl, rfl⟩, rfl, fun h => ?_⟩
  obtain ⟨-, h⟩ := h
  obtain ⟨-, h⟩ := h _ rfl
  obtain ⟨-, h⟩ := h _ rfl
  obtain ⟨st', hst', hposts⟩ := (h _ rfl).1 0 ⟨1, "q"⟩ rfl rfl
  obtain rfl := Except.ok.inj hst'
  exact absurd hposts (by decide)

/-- One swipe at a time, with a refresh after the first. -/
theorem run_removesDeleted_iff_oneByOne :
    listStep.Meets RemovesDeleted ⟨[Sample.post "p", Sample.post "q"], []⟩
        [.commit 0, .deleted 0 false, .fetched (some [Sample.post "q"]), .commit 0] ↔
      listStep.Meets RowHoldsDeleted ⟨[Sample.post "p", Sample.post "q"], []⟩
        [.commit 0, .deleted 0 false, .fetched (some [Sample.post "q"]), .commit 0] := by
  refine run_removesDeleted_iff (by decide) fun e he posts hposts => ?_
  subst hposts
  simp at he
  subst he
  decide

end Info6350.FinalProject
