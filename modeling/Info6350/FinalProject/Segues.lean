import Info6350.FinalProject.Unposted

/-! # The segues of the storyboard

`prepare(for:sender:)` hands over a post for a segue `viewupdatepost`, and the storyboard has no
segue of this name.  So every screen is one for a new post, none of them updates a post, and since
nobody can add one either, the posts are only deleted.

The scene of the list names no class either, so what the app really runs there is a bare
`UITableViewController`, without posts and without deletes.  The events of the list are those of
`UserPostsTableViewController`, which is more than the app offers.
-/

namespace Info6350.FinalProject
open Library Swift Firestore Keyed

/-- The segues of `Main.storyboard` from the list of the user's posts to the screen of a post. -/
def storyboardSegues : List String := ["updateViewPost", "createPost"]

/-- The list opens screens through the segues of the storyboard. -/
def ClientEvent.UsesStoryboard : ClientEvent → Prop
  | .prepare _ identifier _ _ => identifier ∈ storyboardSegues
  | _ => True

def ServiceEvent.UsesStoryboard : ServiceEvent → Prop
  | .client _ e => e.UsesStoryboard
  | _ => True

structure PostCRUViewController.New (s : PostCRUViewController) : Prop where
  post : s.post = none
  asks : s.AsksForUid

def PostWrite.Deletes (w : PostWrite) : Prop := ∃ documentID, w = .delete documentID

theorem PostWrite.Deletes.addsNothing {w : PostWrite} (h : w.Deletes) : w.AddsNothing := by
  obtain ⟨documentID, rfl⟩ := h
  exact fun _ _ hw => by cases hw

namespace PostCRUViewController

theorem perform_post (s : PostCRUViewController) (a : Action) : (s.perform a).post = s.post := by
  cases a <;> rfl

theorem step_post {s t : PostCRUViewController} {e : PostEvent} (h : step s e = .ok t) :
    t.post = s.post := by
  cases e with
  | enter => exact Except.ok.inj h ▸ rfl
  | doAction =>
    obtain ⟨action, -, rfl⟩ := map_ok_iff.mp h
    exact perform_post s action
  | queried i result documentID =>
    simp only [step] at h
    split at h
    · cases result with
      | error => exact Except.ok.inj h ▸ rfl
      | noDocuments => exact Except.ok.inj h ▸ rfl
      | documents documents =>
        obtain ⟨newPost, -, h⟩ := bind_ok_iff.mp h
        cases documentID <;> exact pure_ok_iff.mp h ▸ rfl
    · exact Except.ok.inj h ▸ rfl
  | updated failed =>
    obtain rfl := Except.ok.inj h
    cases failed <;> rfl

theorem doAction_writes {s : PostCRUViewController} {a : Action} (hpost : s.post = none)
    (h : doAction s.post s.user s.form = .ok a) : (s.perform a).writes = s.writes := by
  unfold FinalProject.doAction at h
  split at h
  · exact Except.ok.inj h ▸ rfl
  · rw [hpost] at h
    exact Except.ok.inj h ▸ rfl

theorem New.writes {s t : PostCRUViewController} {e : PostEvent} (hs : s.New)
    (he : e.FindsNobody) (h : step s e = .ok t) : t.writes = s.writes := by
  cases e with
  | enter => exact Except.ok.inj h ▸ rfl
  | doAction =>
    obtain ⟨action, haction, rfl⟩ := map_ok_iff.mp h
    exact doAction_writes hs.post haction
  | queried i result documentID =>
    simp only [step] at h
    split at h
    · cases result with
      | error => exact Except.ok.inj h ▸ rfl
      | noDocuments => exact Except.ok.inj h ▸ rfl
      | documents documents =>
        obtain rfl := he i documents documentID rfl
        cases h
    · exact Except.ok.inj h ▸ rfl
  | updated failed =>
    obtain rfl := Except.ok.inj h
    cases failed <;> rfl

theorem deletes : ScreenRule New PostWrite.Deletes where
  asks _ hs := hs.asks
  sent _ hs := ⟨hs.post, hs.asks⟩
  delete documentID := ⟨documentID, rfl⟩
  step s e t hs he hwrites h := by
    have hasks := (addsNothing.step s e t hs.asks he (fun w hw => (hwrites w hw).addsNothing) h).1
    exact ⟨⟨(step_post h).trans hs.post, hasks⟩, hs.writes he h ▸ hwrites⟩

end PostCRUViewController

/-- The segues of the storyboard hand over no post. -/
theorem ClientEvent.UsesStoryboard.opens {e : ClientEvent} (h : e.UsesStoryboard) :
    Client.Opens PostCRUViewController.New e := by
  rintro list identifier row descriptionTf l post user rfl hprepare
  refine ⟨?_, fun _ hq => absurd hq List.not_mem_nil⟩
  have hne : identifier ≠ "viewupdatepost" := by
    rintro rfl
    have hsegue : "viewupdatepost" ∈ storyboardSegues := h
    exact absurd hsegue (by decide)
  rw [UserPostsTableViewController.prepare, if_neg hne] at hprepare
  exact (Except.ok.inj hprepare).symm

namespace Service

/-- Only deletions are in flight or still to come, and every post was there at the beginning. -/
structure Shrinks (posts : Collection) (st : Service) : Prop where
  follows : Follows PostCRUViewController.New PostWrite.Deletes st
  posts : ∀ d ∈ st.posts.documents.rows, d ∈ posts.documents.rows

theorem step_preserves_shrinks (posts : Collection) :
    step.Preserves (fun _ e => e.UsesStoryboard) (Shrinks posts) := by
  intro st e st' hst he h
  refine ⟨step_follows PostCRUViewController.deletes hst.follows ?_ h, fun d hd => hst.posts d ?_⟩
  · rintro i event rfl
    exact ClientEvent.UsesStoryboard.opens he
  · rcases step_posts h with hsame | ⟨i, now, w, -, hw, hposts⟩
    · exact hsame ▸ hd
    · obtain ⟨documentID, rfl⟩ := hst.follows.writes w (List.mem_of_getElem? hw)
      rw [← Except.ok.inj hposts] at hd
      exact (Table.mem_deleteOne.mp hd).1

/-- With the segues of the storyboard, and where no user has a field `uid`, no run adds or changes a
post: what is there at the end was there at the beginning. -/
theorem run_onlyDeletes (currentUser : ℕ → Option String) {posts allUsers : Collection}
    (hnoUid : NoUid allUsers) {es : List ServiceEvent} (hes : ∀ e ∈ es, e.UsesStoryboard)
    {st : Service} (h : step.run (launch currentUser posts allUsers) es = .ok st) :
    ∀ d ∈ st.posts.documents.rows, d ∈ posts.documents.rows :=
  ((step_preserves_shrinks posts).run ⟨launch_follows currentUser posts hnoUid, fun _ hd => hd⟩
    (Machine.meets_of_forall _ fun e he _ => hes e he) h).posts

/-- Raj opens his post, changes its text and taps the button. -/
def Sample.rajsEdit : List ServiceEvent :=
  [.client 0 .openList, .client 0 (.viewDidAppear 0), .client 0 (.fetched 0 0 (.documents 0)),
    .client 0 (.prepare 0 "updateViewPost" (some 0) "First"), .client 0 (.enter 0 "Hello" "Better"),
    .client 0 (.doAction 0)]

/-- He is about to post it anew, and nothing is sent. -/
theorem run_onlyDeletes_rajsEdit : ∃ st,
    step.run (launch (fun _ => some "raj") Sample.ownedPosts .empty) Sample.rajsEdit = .ok st ∧
      ((st.clients 0).screens.map fun s => s.queries.length) = [1] ∧ st.writes = [] ∧
      ∀ d ∈ st.posts.documents.rows, d ∈ Sample.ownedPosts.documents.rows := by
  obtain ⟨st, hst⟩ := step.exists_run exists_step
    (launch (fun _ => some "raj") Sample.ownedPosts .empty) Sample.rajsEdit
  have hsent : ((st.clients 0).screens.map fun s => s.queries.length) = [1] ∧ st.writes = [] := by
    have hrun : (step.run (launch (fun _ => some "raj") Sample.ownedPosts .empty)
        Sample.rajsEdit).map (fun st =>
          ((st.clients 0).screens.map fun s => s.queries.length, st.writes)) = .ok ([1], []) := rfl
    rw [hst] at hrun
    exact Prod.mk.inj (Except.ok.inj hrun)
  have hevents : ∀ e ∈ Sample.rajsEdit, e.UsesStoryboard := by
    intro e he
    simp only [Sample.rajsEdit, List.mem_cons, List.not_mem_nil, or_false] at he
    rcases he with rfl | rfl | rfl | rfl | rfl | rfl
    case inr.inr.inr.inl => exact List.mem_cons_self
    all_goals trivial
  exact ⟨st, hst, hsent.1, hsent.2, run_onlyDeletes (fun _ => some "raj")
    (fun d hd => absurd hd List.not_mem_nil) hevents hst⟩

end Service
end Info6350.FinalProject
