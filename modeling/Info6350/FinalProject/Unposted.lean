import Info6350.FinalProject.Confinement

/-! # Nobody posts

A new post is added by the completion of a query for a user whose field `uid` is the user's, and
registration stores no such field.  So the app traps before the post is added, and the documents of
other owners are all that they ever were.
-/

namespace Info6350.FinalProject
open Library Swift Firestore Keyed

/-- The queries of a screen ask for a field `uid`. -/
def PostCRUViewController.AsksForUid (s : PostCRUViewController) : Prop :=
  ∀ q ∈ s.queries, ∃ user, q.users = ({} : Query).whereField "uid" (uidValue user)

def PostWrite.AddsNothing (w : PostWrite) : Prop :=
  ∀ documentID post, w ≠ .addDocument documentID post

def PostEvent.FindsNobody (e : PostEvent) : Prop :=
  ∀ i documents documentID, e = .queried i (.documents documents) documentID → documents = []

/-- Screens with `J`, whose queries find nobody, keep it and write what `W` allows. -/
structure ScreenRule (J : PostCRUViewController → Prop) (W : PostWrite → Prop) : Prop where
  asks : ∀ s, J s → s.AsksForUid
  sent : ∀ s, J s → J { s with writes := [] }
  step : ∀ s e t, J s → e.FindsNobody → (∀ w ∈ s.writes, W w) →
    PostCRUViewController.step s e = .ok t → J t ∧ ∀ w ∈ t.writes, W w
  delete : ∀ documentID, W (.delete documentID)

/-- A screen whose queries find nobody adds no post. -/
theorem PostCRUViewController.addsNothing : ScreenRule AsksForUid PostWrite.AddsNothing where
  asks _ hs := hs
  sent _ hs := hs
  delete _ := fun _ _ hw => by cases hw
  step s e t hs he hwrites h := by
    cases e with
    | enter titleTf descriptionTf =>
      obtain rfl := Except.ok.inj h
      exact ⟨hs, hwrites⟩
    | doAction =>
      obtain ⟨action, haction, rfl⟩ := map_ok_iff.mp h
      unfold FinalProject.doAction at haction
      split at haction
      · obtain rfl := Except.ok.inj haction
        exact ⟨hs, hwrites⟩
      split at haction
      · obtain ⟨documentID, -, haction⟩ := bind_ok_iff.mp haction
        obtain rfl := pure_ok_iff.mp haction
        exact ⟨hs, List.forall_mem_append.mpr ⟨hwrites, List.forall_mem_singleton.mpr
          fun _ _ hw => by cases hw⟩⟩
      · obtain rfl := Except.ok.inj haction
        exact ⟨List.forall_mem_append.mpr ⟨hs, List.forall_mem_singleton.mpr ⟨s.user, rfl⟩⟩,
          hwrites⟩
    | queried i result documentID =>
      simp only [PostCRUViewController.step] at h
      split at h
      · have hrest : ∀ q ∈ s.queries.eraseIdx i, ∃ user,
            q.users = ({} : Query).whereField "uid" (uidValue user) :=
          fun q hq => hs q (List.mem_of_mem_eraseIdx hq)
        cases result with
        | error =>
          obtain rfl := Except.ok.inj h
          exact ⟨hrest, hwrites⟩
        | noDocuments =>
          obtain rfl := Except.ok.inj h
          exact ⟨hrest, hwrites⟩
        | documents documents =>
          obtain rfl := he i documents documentID rfl
          cases h
      · obtain rfl := Except.ok.inj h
        exact ⟨hs, hwrites⟩
    | updated failed =>
      obtain rfl := Except.ok.inj h
      cases failed <;> exact ⟨hs, hwrites⟩

/-! ## One app -/

/-- No user has a field `uid`. -/
def NoUid (users : Collection) : Prop := ∀ d ∈ users.documents.rows, d.field "uid" = none

/-- The screens of an app after a step, and the writes that it sends. -/
structure Client.Follows (J : PostCRUViewController → Prop) (W : PostWrite → Prop)
    (r : Client × List PostWrite) : Prop where
  screens : ∀ s ∈ r.1.screens, J s
  writes : ∀ w ∈ r.2, W w

/-- The screens that an app can open. -/
def Client.Opens (J : PostCRUViewController → Prop) (e : ClientEvent) : Prop :=
  ∀ list identifier row descriptionTf (l : UserPostsTableViewController) post user,
    e = .prepare list identifier row descriptionTf → l.prepare identifier row = .ok post →
    J (.initial post user descriptionTf)

namespace Client
variable {J : PostCRUViewController → Prop} {W : PostWrite → Prop} {c : Client}
  {r : Client × List PostWrite}

theorem Follows.silent (hc : ∀ s ∈ c.screens, J s) : Follows J W (c, []) :=
  ⟨hc, fun _ hw => absurd hw List.not_mem_nil⟩

theorem onList_follows {list : ℕ} {handler : UserPostsTableViewController →
      Except Trap (UserPostsTableViewController × List PostWrite)} (hc : ∀ s ∈ c.screens, J s)
    (hhandler : ∀ l r, handler l = .ok r → ∀ w ∈ r.2, W w) (h : c.onList list handler = .ok r) :
    Follows J W r := by
  unfold onList at h
  split at h
  · obtain ⟨r', hr', rfl⟩ := map_ok_iff.mp h
    exact ⟨hc, hhandler _ r' hr'⟩
  · obtain rfl := Except.ok.inj h
    exact .silent hc

theorem handle_writes {l : UserPostsTableViewController} {e : ListEvent}
    {r : UserPostsTableViewController × List PostWrite} (hdelete : ∀ documentID, W (.delete documentID))
    (h : l.handle e = .ok r) : ∀ w ∈ r.2, W w := by
  obtain ⟨list, -, h⟩ := bind_ok_iff.mp h
  obtain rfl := pure_ok_iff.mp h
  intro w hw
  obtain ⟨deletion, -, rfl⟩ := List.mem_map.mp hw
  exact hdelete _

theorem onScreen_follows {screen : ℕ} {e : PostEvent} (hJ : ScreenRule J W)
    (hc : ∀ s ∈ c.screens, J s) (he : e.FindsNobody) (h : c.onScreen screen e = .ok r) :
    Follows J W r := by
  unfold onScreen at h
  split at h
  · rename_i s hscreen
    obtain ⟨t, ht, rfl⟩ := map_ok_iff.mp h
    obtain ⟨hscreen', hwrites⟩ := hJ.step { s with writes := [] } e t
      (hJ.sent s (hc s (List.mem_of_getElem? hscreen))) he (fun w hw => absurd hw List.not_mem_nil) ht
    exact ⟨forall_mem_set hc hscreen', hwrites⟩
  · obtain rfl := Except.ok.inj h
    exact .silent hc

/-- The queries of the screens find nobody. -/
theorem queryResult_documents {users : List Collection} {screen i : ℕ} {answer : Answer}
    {documents : List Document} (hc : ∀ s ∈ c.screens, s.AsksForUid) (husers : ∀ c ∈ users, NoUid c)
    (h : c.queryResult users screen i answer = .documents documents) : documents = [] := by
  unfold queryResult at h
  split at h
  · rename_i query hquery
    obtain ⟨s, hs, hquery⟩ := Option.bind_eq_some_iff.mp hquery
    obtain ⟨user, hasks⟩ := hc s (List.mem_of_getElem? hs) query (List.mem_of_getElem? hquery)
    unfold Answer.result at h
    split at h
    · cases h
    · cases h
    split at h
    · rename_i c hc'
      obtain rfl := QueryResult.documents.inj h
      rw [hasks]
      exact Query.getDocuments_eq_nil (f := ("uid", uidValue user)) List.mem_cons_self
        (husers c (List.mem_of_getElem? hc'))
    · cases h
  · cases h

theorem step_follows {posts users : List Collection} {e : ClientEvent} (hJ : ScreenRule J W)
    (hc : ∀ s ∈ c.screens, J s) (husers : ∀ c ∈ users, NoUid c) (he : Opens J e)
    (h : c.step posts users e = .ok r) : Follows J W r := by
  cases e with
  | authenticate user =>
    obtain rfl := Except.ok.inj h
    exact .silent hc
  | quit =>
    obtain rfl := Except.ok.inj h
    exact .silent fun s hs => absurd hs List.not_mem_nil
  | openList =>
    obtain rfl := Except.ok.inj h
    exact .silent hc
  | viewDidAppear list =>
    refine onList_follows hc (fun l r hr w hw => ?_) h
    obtain rfl := Except.ok.inj hr
    exact absurd hw List.not_mem_nil
  | fetched list request answer =>
    refine onList_follows hc (fun l r hr => ?_) h
    unfold UserPostsTableViewController.fetched at hr
    split at hr
    · exact handle_writes hJ.delete hr
    · obtain rfl := Except.ok.inj hr
      exact fun w hw => absurd hw List.not_mem_nil
  | commit list row => exact onList_follows hc (fun l r => handle_writes hJ.delete) h
  | deleted list request err => exact onList_follows hc (fun l r => handle_writes hJ.delete) h
  | prepare list identifier row descriptionTf =>
    obtain ⟨c', hc', rfl⟩ := map_ok_iff.mp h
    refine .silent ?_
    unfold performSegue at hc'
    split at hc'
    · obtain ⟨post, hpost, rfl⟩ := map_ok_iff.mp hc'
      exact List.forall_mem_append.mpr ⟨hc, List.forall_mem_singleton.mpr
        (he list identifier row descriptionTf _ post c.currentUser rfl hpost)⟩
    · obtain rfl := Except.ok.inj hc'
      exact hc
  | enter => exact onScreen_follows hJ hc (fun _ _ _ he => by cases he) h
  | doAction => exact onScreen_follows hJ hc (fun _ _ _ he => by cases he) h
  | queried screen i answer documentID =>
    refine onScreen_follows hJ hc (fun j documents documentID' he => ?_) h
    obtain ⟨-, hresult, -⟩ := PostEvent.queried.inj he
    exact queryResult_documents (fun s hs => hJ.asks s (hc s hs)) husers hresult
  | updated => exact onScreen_follows hJ hc (fun _ _ _ he => by cases he) h

theorem next_follows {posts users : List Collection} {e : ClientEvent} (hJ : ScreenRule J W)
    (hc : ∀ s ∈ c.screens, J s) (husers : ∀ c ∈ users, NoUid c) (he : Opens J e) :
    Follows J W (c.next posts users e) := by
  unfold next
  split
  · rename_i r hr
    exact step_follows hJ hc husers he hr
  · exact .silent fun s hs => absurd hs List.not_mem_nil

theorem opens_asksForUid (e : ClientEvent) : Opens PostCRUViewController.AsksForUid e :=
  fun _ _ _ _ _ _ _ _ _ _ hq => absurd hq List.not_mem_nil

end Client

/-! ## All apps -/

namespace Service
variable {users : Set (Option String)} {J : PostCRUViewController → Prop} {W : PostWrite → Prop}

/-- Nobody is found, and the screens and what is in flight follow a rule. -/
structure Follows (J : PostCRUViewController → Prop) (W : PostWrite → Prop) (st : Service) :
    Prop where
  allUsers : ∀ c ∈ st.allUsers, NoUid c
  clients : ∀ i, ∀ s ∈ (st.clients i).screens, J s
  writes : ∀ w ∈ st.writes, W w

theorem launch_follows (currentUser : ℕ → Option String) (posts : Collection)
    {allUsers : Collection} (hnoUid : NoUid allUsers) :
    Follows J W (launch currentUser posts allUsers) :=
  ⟨List.forall_mem_singleton.mpr hnoUid, fun _ _ hs => absurd hs List.not_mem_nil,
    fun _ hw => absurd hw List.not_mem_nil⟩

theorem step_follows {st st' : Service} {e : ServiceEvent} (hJ : ScreenRule J W)
    (hst : Follows J W st) (he : ∀ i event, e = .client i event → Client.Opens J event)
    (h : step st e = .ok st') : Follows J W st' := by
  have hrest : ∀ {i : ℕ}, ∀ w ∈ st.writes.eraseIdx i, W w :=
    fun w hw => hst.writes w (List.mem_of_mem_eraseIdx hw)
  cases e with
  | client i e =>
    obtain rfl := Except.ok.inj h
    obtain ⟨hclient, hwrites⟩ := @Client.next_follows _ _ (st.clients i) st.allPosts st.allUsers e
      hJ (hst.clients i) hst.allUsers (he i e rfl)
    refine ⟨hst.allUsers, fun j => ?_, List.forall_mem_append.mpr ⟨hst.writes, hwrites⟩⟩
    change ∀ s ∈ (Function.update st.clients i _ j).screens, J s
    by_cases hj : j = i
    · subst hj
      simpa using hclient
    · simpa [hj] using hst.clients j
  | written i now =>
    simp only [step] at h
    split at h
    · obtain ⟨posts, -, h⟩ := bind_ok_iff.mp h
      obtain rfl := pure_ok_iff.mp h
      exact ⟨hst.allUsers, hst.clients, hrest⟩
    · obtain rfl := Except.ok.inj h
      exact hst
  | refused i =>
    obtain rfl := Except.ok.inj h
    exact ⟨hst.allUsers, hst.clients, hrest⟩
  | registered now registration =>
    obtain ⟨users, husers, h⟩ := bind_ok_iff.mp h
    obtain rfl := pure_ok_iff.mp h
    have hnoUid := registerStep_preserves_noUid st.users (now, registration) users
      (hst.allUsers _ List.mem_cons_self) trivial husers
    exact ⟨List.forall_mem_cons.mpr ⟨hnoUid, hst.allUsers⟩, hst.clients, hst.writes⟩

/-- The posts change only when a write in flight is executed. -/
theorem step_posts {st st' : Service} {e : ServiceEvent} (h : step st e = .ok st') :
    st'.posts = st.posts ∨ ∃ i now w, e = .written i now ∧ st.writes[i]? = some w ∧
      postsStep st.posts (now, w) = .ok st'.posts := by
  cases e with
  | client i e => exact .inl (Except.ok.inj h ▸ rfl)
  | written i now =>
    simp only [step] at h
    split at h
    · rename_i w hw
      obtain ⟨posts, hposts, h⟩ := bind_ok_iff.mp h
      obtain rfl := pure_ok_iff.mp h
      exact .inr ⟨i, now, w, rfl, hw, hposts⟩
    · exact .inl (Except.ok.inj h ▸ rfl)
  | refused i => exact .inl (Except.ok.inj h ▸ rfl)
  | registered now registration =>
    obtain ⟨users, -, h⟩ := bind_ok_iff.mp h
    exact .inl (pure_ok_iff.mp h ▸ rfl)

/-- Nothing that is in flight or still to come adds a post, and the documents of other owners are
those of `posts`. -/
structure Unposted (users : Set (Option String)) (posts : Collection) (st : Service) : Prop where
  confined : Confined users st
  follows : Follows PostCRUViewController.AsksForUid PostWrite.AddsNothing st
  others : ∀ d, d ∈ st.posts.documents.rows ∧ ¬ OwnedBy users d ↔
    d ∈ posts.documents.rows ∧ ¬ OwnedBy users d

theorem Unposted.newIds {posts : Collection} {st : Service} (hst : Unposted users posts st)
    (e : ServiceEvent) : NewIds st e := fun _ _ documentID post _ hw =>
  absurd rfl (hst.follows.writes _ (List.mem_of_getElem? hw) documentID post)

theorem Confined.mem_of_written {st : Service} {w : PostWrite} {i : ℕ} {now : ℤ}
    {posts : Collection} (hst : Confined users st) (hnew : NewIds st (.written i now))
    (hw : st.writes[i]? = some w) (hadds : w.AddsNothing)
    (hposts : postsStep st.posts (now, w) = .ok posts) {d : Document}
    (hd : d ∈ posts.documents.rows) (hother : ¬ OwnedBy users d) :
    d ∈ st.posts.documents.rows := by
  rcases mem_postsStep hposts hd with hd | ⟨post, hadded⟩ | ⟨old, hold, hwritten, -, hfield⟩
  · exact hd
  · exact absurd hadded (hadds _ post)
  · exact absurd ((OwnedBy.of_field_eq hfield).mpr (hst.documentID hnew hw hold hwritten)) hother

theorem step_preserves_unposted (posts : Collection) :
    step.Preserves (fun _ e => SignsIn users e) (Unposted users posts) := by
  intro st e st' hst hsigns h
  refine ⟨step_preserves_confined st e st' hst.confined ⟨hsigns, hst.newIds e⟩ h,
    step_follows PostCRUViewController.addsNothing hst.follows
      (fun _ event _ => Client.opens_asksForUid event) h, fun d => ?_⟩
  rw [← hst.others d]
  refine and_congr_left fun hother =>
    ⟨fun hd => ?_, fun hd => step_keeps hst.confined (hst.newIds e) hd hother h⟩
  rcases step_posts h with hsame | ⟨i, now, w, rfl, hw, hposts⟩
  · exact hsame ▸ hd
  · exact hst.confined.mem_of_written (hst.newIds _) hw
      (hst.follows.writes w (List.mem_of_getElem? hw)) hposts hd hother

/-- Where no user has a field `uid`, the documents of other owners are the same in every run: none
is added, changed or deleted. -/
theorem run_othersSame {currentUser : ℕ → Option String} (husers : ∀ i, currentUser i ∈ users)
    {posts allUsers : Collection} (hnoUid : NoUid allUsers) {es : List ServiceEvent}
    (hes : ∀ e ∈ es, SignsIn users e) {st : Service}
    (h : step.run (launch currentUser posts allUsers) es = .ok st) (d : Document) :
    d ∈ st.posts.documents.rows ∧ ¬ OwnedBy users d ↔
      d ∈ posts.documents.rows ∧ ¬ OwnedBy users d := by
  have hlaunch : Unposted users posts (launch currentUser posts allUsers) :=
    ⟨launch_confined husers posts allUsers, launch_follows currentUser posts hnoUid,
      fun _ => Iff.rfl⟩
  exact ((step_preserves_unposted posts).run hlaunch
    (Machine.meets_of_forall _ fun e he _ => hes e he) h).others d

/-- Raj registers and taps to post, which ends his app, and opens it again to delete his post. -/
def Sample.rajsDay : List ServiceEvent :=
  [.registered 5 Sample.raj, .client 0 .openList, .client 0 (.prepare 0 "createPost" none ""),
    .client 0 (.enter 0 "Hello" "First"), .client 0 (.doAction 0),
    .client 0 (.queried 0 0 (.documents 0) (some "r"))] ++ Sample.rajsTaps ++ [.written 0 6]

/-- Andy's post is all that another owner has, before and after. -/
theorem run_othersSame_rajsDay : ∃ st,
    step.run (launch (fun _ => some "raj") Sample.ownedPosts .empty) Sample.rajsDay = .ok st ∧
      st.posts.documents.rows.map Document.id = ["q"] ∧
      ∀ d, d ∈ st.posts.documents.rows ∧ ¬ OwnedBy {some "raj"} d ↔
        d ∈ Sample.ownedPosts.documents.rows ∧ ¬ OwnedBy {some "raj"} d := by
  obtain ⟨st, hst⟩ := step.exists_run exists_step
    (launch (fun _ => some "raj") Sample.ownedPosts .empty) Sample.rajsDay
  have hids : st.posts.documents.rows.map Document.id = ["q"] := by
    have hrun : (step.run (launch (fun _ => some "raj") Sample.ownedPosts .empty)
      Sample.rajsDay).map (fun st => st.posts.documents.rows.map Document.id) = .ok ["q"] := rfl
    rw [hst] at hrun
    exact Except.ok.inj hrun
  have hevents : ∀ e ∈ Sample.rajsDay, SignsIn {some "raj"} e := by
    intro e he
    simp only [Sample.rajsDay, Sample.rajsTaps, List.mem_append, List.mem_cons, List.not_mem_nil,
      or_false] at he
    rcases he with ((rfl | rfl | rfl | rfl | rfl | rfl) | rfl | rfl | rfl | rfl) | rfl <;> trivial
  exact ⟨st, hst, hids, @run_othersSame {some "raj"} (fun _ => some "raj")
    (fun _ => Set.mem_singleton _) _ _ (fun d hd => absurd hd List.not_mem_nil) _ hevents _ hst⟩

end Service
end Info6350.FinalProject
