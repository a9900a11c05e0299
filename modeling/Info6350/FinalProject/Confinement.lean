import Info6350.FinalProject.Clients

/-! # Whose posts the apps change

The list asks for the documents whose field `createdByUID` is the user's, and every update and
deletion starts from a row of the list.  So a document of another owner, or of none, stays as it
is, whatever the apps do and whenever their queries and writes are completed.
-/

namespace Info6350.FinalProject
open Library Swift Firestore Keyed

def PostWrite.documentID : PostWrite → String
  | addDocument documentID _ => documentID
  | updateData documentID _ _ => documentID
  | delete documentID => documentID

/-- The post has one of these ids, or none. -/
def Post.Within (ids : Set String) (p : Post) : Prop :=
  ∀ documentID, p.id = some documentID → documentID ∈ ids

/-- The write adds a post, or changes a document with one of these ids. -/
def PostWrite.Within (ids : Set String) (w : PostWrite) : Prop :=
  (∃ documentID post, w = .addDocument documentID post) ∨ w.documentID ∈ ids

section Writes
variable {c c' : Collection} {w : ℤ × PostWrite} {d : Document}

theorem mem_postsStep_of_ne (h : postsStep c w = .ok c') (hd : d ∈ c.documents.rows)
    (hne : d.id ≠ w.2.documentID) : d ∈ c'.documents.rows := by
  obtain ⟨now, w⟩ := w
  cases w with
  | addDocument documentID post =>
    obtain rfl := Except.ok.inj h
    exact Table.mem_save.mpr (.inr ⟨hd, hne⟩)
  | updateData documentID title body =>
    simp only [postsStep, Collection.step, PostWrite.write, Collection.commit] at h
    cases hold : lookup c.documents.rows documentID with
    | none =>
      simp only [hold] at h
      obtain rfl := Except.ok.inj h
      exact hd
    | some old =>
      simp only [hold] at h
      obtain rfl := Except.ok.inj h
      exact Table.mem_save.mpr (.inr ⟨hd, hne⟩)
  | delete documentID =>
    obtain rfl := Except.ok.inj h
    exact Table.mem_deleteOne.mpr ⟨hd, hne⟩

/-- A document that was not there is added, or is another one updated, with the same owner. -/
theorem mem_postsStep (h : postsStep c w = .ok c') (hd : d ∈ c'.documents.rows) :
    d ∈ c.documents.rows ∨ (∃ post, w.2 = .addDocument d.id post) ∨
      ∃ old ∈ c.documents.rows, old.id = w.2.documentID ∧ old.id = d.id ∧
        d.field "createdByUID" = old.field "createdByUID" := by
  obtain ⟨now, w⟩ := w
  cases w with
  | addDocument documentID post =>
    obtain rfl := Except.ok.inj h
    rcases Table.mem_save.mp hd with rfl | ⟨hd, -⟩
    · exact .inr (.inl ⟨post, rfl⟩)
    · exact .inl hd
  | updateData documentID title body =>
    simp only [postsStep, Collection.step, PostWrite.write, Collection.commit] at h
    cases hold : lookup c.documents.rows documentID with
    | none =>
      simp only [hold] at h
      obtain rfl := Except.ok.inj h
      exact .inl hd
    | some old =>
      simp only [hold] at h
      obtain rfl := Except.ok.inj h
      obtain ⟨hmem, hid⟩ := lookup_some hold
      rcases Table.mem_save.mp hd with rfl | ⟨hd, -⟩
      · refine .inr (.inr ⟨old, hmem, hid, hid, ?_⟩)
        simp [Document.field, Data.resolve, List.lookup_cons]
      · exact .inl hd
  | delete documentID =>
    obtain rfl := Except.ok.inj h
    exact .inl (Table.mem_deleteOne.mp hd).1

theorem mem_fetchData {user : Option String} {p : Post} (h : p ∈ fetchData user c) :
    ∃ d ∈ c.documents.rows, p.id = some d.id ∧
      d.field "createdByUID" = some (uidValue user) := by
  obtain ⟨d, hd, hp⟩ := List.mem_filterMap.mp h
  obtain ⟨hd, -, hfilters⟩ := Query.mem_getDocuments.mp hd
  exact ⟨d, hd, Post.decode_id hp, hfilters _ List.mem_cons_self⟩

end Writes

/-! ## One app -/

section Apps
variable {users : Set (Option String)} {ids : Set String}

/-- The list asks for these users and shows posts with these ids. -/
structure UserPostsTableViewController.Within (users : Set (Option String)) (ids : Set String)
    (l : UserPostsTableViewController) : Prop where
  posts : ∀ p ∈ l.list.posts, p.Within ids
  fetches : ∀ user ∈ l.fetches, user ∈ users

/-- The app is signed in as these users, and knows of posts with these ids only. -/
structure Client.Within (users : Set (Option String)) (ids : Set String) (c : Client) : Prop where
  currentUser : c.currentUser ∈ users
  lists : ∀ l ∈ c.lists, l.Within users ids
  screens : ∀ s ∈ c.screens, ∀ p ∈ s.post, p.Within ids

theorem PostWrite.Within.mono {ids' : Set String} {w : PostWrite} (h : ids ⊆ ids')
    (hw : w.Within ids) : w.Within ids' := hw.imp_right fun hid => h hid

theorem Client.Within.mono {ids' : Set String} {c : Client} (h : ids ⊆ ids')
    (hc : c.Within users ids) : c.Within users ids' where
  currentUser := hc.currentUser
  lists l hl := ⟨fun p hp documentID hid => h ((hc.lists l hl).posts p hp documentID hid),
    (hc.lists l hl).fetches⟩
  screens s hs p hp documentID hid := h (hc.screens s hs p hp documentID hid)

/-- A swipe sends the deletion of a document of the list; nothing else does. -/
theorem listStep_cases {st st' : ListState} {e : ListEvent} (h : listStep st e = .ok st') :
    (∃ row post documentID, e = .commit row ∧ post ∈ st.posts ∧ post.id = some documentID ∧
      st' = { st with deletions := st.deletions ++ [⟨row, documentID⟩] }) ∨
    (st'.deletions.length ≤ st.deletions.length ∧
      (st'.posts ⊆ st.posts ∨ e = .fetched (some st'.posts))) := by
  cases e with
  | commit row =>
    obtain ⟨post, hpost, h⟩ := bind_ok_iff.mp h
    obtain ⟨documentID, hid, h⟩ := bind_ok_iff.mp h
    obtain rfl := pure_ok_iff.mp h
    refine .inl ⟨row, post, documentID, rfl, ?_, ?_, rfl⟩
    · exact List.mem_of_getElem? ((subscript_natCast _ row).mp hpost)
    · exact unwrap_ok_iff.mp hid
  | deleted request err =>
    cases hd : st.deletions[request]? with
    | none =>
      simp only [listStep, hd] at h
      obtain rfl := Except.ok.inj h
      exact .inr ⟨le_rfl, .inl (List.Subset.refl _)⟩
    | some deletion =>
      have hlength : (st.deletions.eraseIdx request).length ≤ st.deletions.length :=
        (List.eraseIdx_sublist _ _).length_le
      cases err with
      | true =>
        simp only [listStep, hd, if_true] at h
        obtain rfl := pure_ok_iff.mp h
        exact .inr ⟨hlength, .inl (List.Subset.refl _)⟩
      | false =>
        obtain ⟨-, rfl⟩ := (listStep_deleted_ok_iff hd).mp h
        exact .inr ⟨hlength, .inl (List.eraseIdx_sublist _ _).subset⟩
  | fetched posts =>
    cases posts with
    | none =>
      obtain rfl := Except.ok.inj h
      exact .inr ⟨le_rfl, .inl (List.Subset.refl _)⟩
    | some posts =>
      obtain rfl := Except.ok.inj h
      exact .inr ⟨le_rfl, .inr rfl⟩

theorem UserPostsTableViewController.Within.handle {l : UserPostsTableViewController}
    {e : ListEvent} {r : UserPostsTableViewController × List PostWrite} (hl : l.Within users ids)
    (he : ∀ posts, e = .fetched (some posts) → ∀ p ∈ posts, p.Within ids)
    (h : l.handle e = .ok r) : r.1.Within users ids ∧ ∀ w ∈ r.2, w.Within ids := by
  obtain ⟨list, hlist, h⟩ := bind_ok_iff.mp h
  obtain rfl := pure_ok_iff.mp h
  rcases listStep_cases hlist with ⟨row, post, documentID, rfl, hpost, hid, rfl⟩ |
    ⟨hlength, hposts⟩
  · refine ⟨⟨hl.posts, hl.fetches⟩, fun w hw => .inr ?_⟩
    simp only [List.drop_left, List.map_singleton, List.mem_singleton] at hw
    subst hw
    exact hl.posts post hpost documentID hid
  · refine ⟨⟨fun p hp => ?_, hl.fetches⟩, fun w hw => ?_⟩
    · rcases hposts with hsubset | hfetched
      · exact hl.posts p (hsubset hp)
      · exact he _ hfetched p hp
    · rw [List.drop_eq_nil_of_le hlength] at hw
      cases hw

theorem UserPostsTableViewController.Within.fetched {l : UserPostsTableViewController}
    {posts : List Collection} {request : ℕ} {answer : Answer}
    {r : UserPostsTableViewController × List PostWrite} (hl : l.Within users ids)
    (hposts : ∀ c ∈ posts, ∀ user ∈ users, ∀ p ∈ fetchData user c, p.Within ids)
    (h : l.fetched posts request answer = .ok r) :
    r.1.Within users ids ∧ ∀ w ∈ r.2, w.Within ids := by
  unfold UserPostsTableViewController.fetched at h
  split at h
  · rename_i user huser
    have hl' : UserPostsTableViewController.Within users ids
        { l with fetches := l.fetches.eraseIdx request } :=
      ⟨hl.posts, fun u hu => hl.fetches u (List.mem_of_mem_eraseIdx hu)⟩
    refine hl'.handle ?_ h
    intro found hfound p hp
    have hanswer : answer.posts user posts = some found := ListEvent.fetched.inj hfound
    cases answer with
    | documents age =>
      obtain ⟨c, hc, rfl⟩ := Option.map_eq_some_iff.mp hanswer
      exact hposts c (List.mem_of_getElem? hc) user (hl.fetches user (List.mem_of_getElem? huser))
        p hp
    | _ => cases hanswer
  · obtain rfl := Except.ok.inj h
    exact ⟨hl, fun w hw => absurd hw List.not_mem_nil⟩

theorem UserPostsTableViewController.Within.prepare {l : UserPostsTableViewController}
    {identifier : String} {row : Option ℕ} {post : Option Post} (hl : l.Within users ids)
    (h : l.prepare identifier row = .ok post) : ∀ p ∈ post, p.Within ids := by
  unfold UserPostsTableViewController.prepare at h
  split_ifs at h
  · obtain ⟨p, hp, rfl⟩ := map_ok_iff.mp h
    rintro _ ⟨⟩
    exact hl.posts p (List.mem_of_getElem? ((subscript_natCast _ _).mp hp))
  · obtain rfl := Except.ok.inj h
    exact fun p hp => by cases hp

theorem PostCRUViewController.step_within {s t : PostCRUViewController} {e : PostEvent}
    (hpost : ∀ p ∈ s.post, p.Within ids) (hwrites : ∀ w ∈ s.writes, w.Within ids)
    (h : step s e = .ok t) : t.post = s.post ∧ ∀ w ∈ t.writes, w.Within ids := by
  cases e with
  | enter titleTf descriptionTf =>
    obtain rfl := Except.ok.inj h
    exact ⟨rfl, hwrites⟩
  | doAction =>
    obtain ⟨action, haction, rfl⟩ := map_ok_iff.mp h
    cases action with
    | showError message => exact ⟨rfl, hwrites⟩
    | create users title body alertMessage => exact ⟨rfl, hwrites⟩
    | update write alertMessage =>
      refine ⟨rfl, List.forall_mem_append.mpr ⟨hwrites, List.forall_mem_singleton.mpr ?_⟩⟩
      unfold doAction at haction
      split at haction
      · cases haction
      split at haction
      · rename_i post hscreen
        obtain ⟨documentID, hid, haction⟩ := bind_ok_iff.mp haction
        obtain ⟨rfl, -⟩ := Action.update.inj (pure_ok_iff.mp haction)
        exact .inr (hpost post hscreen documentID (unwrap_ok_iff.mp hid))
      · cases haction
  | queried i result documentID =>
    simp only [step] at h
    split at h
    · unfold completion at h
      split at h
      · obtain rfl := Except.ok.inj h
        exact ⟨rfl, hwrites⟩
      · obtain rfl := Except.ok.inj h
        exact ⟨rfl, hwrites⟩
      · obtain ⟨newPost, -, h⟩ := bind_ok_iff.mp h
        cases documentID with
        | none =>
          obtain rfl := pure_ok_iff.mp h
          exact ⟨rfl, hwrites⟩
        | some documentID =>
          obtain rfl := pure_ok_iff.mp h
          have hadded : PostWrite.Within ids (.addDocument documentID newPost) :=
            .inl ⟨documentID, newPost, rfl⟩
          exact ⟨rfl, List.forall_mem_append.mpr ⟨hwrites, List.forall_mem_singleton.mpr hadded⟩⟩
    · obtain rfl := Except.ok.inj h
      exact ⟨rfl, hwrites⟩
  | updated failed =>
    obtain rfl := Except.ok.inj h
    cases failed <;> exact ⟨rfl, hwrites⟩

theorem forall_mem_set {α : Type} {P : α → Prop} {l : List α} {i : ℕ} {a : α}
    (hl : ∀ x ∈ l, P x) (ha : P a) : ∀ x ∈ l.set i a, P x := fun _ hx =>
  (List.mem_or_eq_of_mem_set hx).elim (hl _) fun h => h ▸ ha

namespace Client

theorem onList_within {c : Client} {list : ℕ} {handler : UserPostsTableViewController →
      Except Trap (UserPostsTableViewController × List PostWrite)} {r : Client × List PostWrite}
    (hc : c.Within users ids)
    (hhandler : ∀ l r, l.Within users ids → handler l = .ok r →
      r.1.Within users ids ∧ ∀ w ∈ r.2, w.Within ids)
    (h : c.onList list handler = .ok r) : r.1.Within users ids ∧ ∀ w ∈ r.2, w.Within ids := by
  unfold onList at h
  split at h
  · rename_i l hlist
    obtain ⟨r', hr', rfl⟩ := map_ok_iff.mp h
    obtain ⟨hl, hwrites⟩ := hhandler l r' (hc.lists l (List.mem_of_getElem? hlist)) hr'
    exact ⟨⟨hc.currentUser, forall_mem_set hc.lists hl, hc.screens⟩, hwrites⟩
  · obtain rfl := Except.ok.inj h
    exact ⟨hc, fun w hw => absurd hw List.not_mem_nil⟩

theorem onScreen_within {c : Client} {screen : ℕ} {e : PostEvent} {r : Client × List PostWrite}
    (hc : c.Within users ids) (h : c.onScreen screen e = .ok r) :
    r.1.Within users ids ∧ ∀ w ∈ r.2, w.Within ids := by
  unfold onScreen at h
  split at h
  · rename_i s hscreen
    obtain ⟨t, ht, rfl⟩ := map_ok_iff.mp h
    have hs := hc.screens s (List.mem_of_getElem? hscreen)
    obtain ⟨hpost, hwrites⟩ := @PostCRUViewController.step_within ids { s with writes := [] } t e
      hs (fun w hw => absurd hw List.not_mem_nil) ht
    have ht : ∀ p ∈ t.post, p.Within ids := by
      rw [hpost]
      exact hs
    exact ⟨⟨hc.currentUser, hc.lists, forall_mem_set hc.screens ht⟩, hwrites⟩
  · obtain rfl := Except.ok.inj h
    exact ⟨hc, fun w hw => absurd hw List.not_mem_nil⟩

theorem performSegue_within {c c' : Client} {list : ℕ} {identifier : String} {row : Option ℕ}
    {descriptionTf : String} (hc : c.Within users ids)
    (h : c.performSegue list identifier row descriptionTf = .ok c') : c'.Within users ids := by
  unfold performSegue at h
  split at h
  · rename_i l hlist
    obtain ⟨post, hpost, rfl⟩ := map_ok_iff.mp h
    have hscreen := (hc.lists l (List.mem_of_getElem? hlist)).prepare hpost
    exact ⟨hc.currentUser, hc.lists,
      List.forall_mem_append.mpr ⟨hc.screens, List.forall_mem_singleton.mpr hscreen⟩⟩
  · obtain rfl := Except.ok.inj h
    exact hc

theorem launch_within {user : Option String} (h : user ∈ users) : (launch user).Within users ids :=
  ⟨h, fun _ hl => absurd hl List.not_mem_nil, fun _ hs => absurd hs List.not_mem_nil⟩

/-- The lists that are fetched are the only source of posts. -/
theorem step_within {posts allUsers : List Collection} {c : Client} {e : ClientEvent}
    {r : Client × List PostWrite} (hc : c.Within users ids)
    (hposts : ∀ c ∈ posts, ∀ user ∈ users, ∀ p ∈ fetchData user c, p.Within ids)
    (he : ∀ user, e = .authenticate user → user ∈ users)
    (h : c.step posts allUsers e = .ok r) : r.1.Within users ids ∧ ∀ w ∈ r.2, w.Within ids := by
  cases e with
  | authenticate user =>
    obtain rfl := Except.ok.inj h
    exact ⟨⟨he user rfl, hc.lists, hc.screens⟩, fun w hw => absurd hw List.not_mem_nil⟩
  | quit =>
    obtain rfl := Except.ok.inj h
    exact ⟨launch_within hc.currentUser, fun w hw => absurd hw List.not_mem_nil⟩
  | openList =>
    obtain rfl := Except.ok.inj h
    have hinitial : UserPostsTableViewController.Within users ids .initial :=
      ⟨fun _ hp => absurd hp List.not_mem_nil, fun _ hu => absurd hu List.not_mem_nil⟩
    exact ⟨⟨hc.currentUser,
      List.forall_mem_append.mpr ⟨hc.lists, List.forall_mem_singleton.mpr hinitial⟩, hc.screens⟩,
      fun w hw => absurd hw List.not_mem_nil⟩
  | viewDidAppear list =>
    refine onList_within hc (fun l r hl hr => ?_) h
    obtain rfl := Except.ok.inj hr
    exact ⟨⟨hl.posts,
      List.forall_mem_append.mpr ⟨hl.fetches, List.forall_mem_singleton.mpr hc.currentUser⟩⟩,
      fun w hw => absurd hw List.not_mem_nil⟩
  | fetched list request answer =>
    exact onList_within hc (fun l r hl hr => hl.fetched hposts hr) h
  | commit list row =>
    exact onList_within hc (fun l r hl hr => hl.handle (fun _ he => by cases he) hr) h
  | deleted list request err =>
    exact onList_within hc (fun l r hl hr => hl.handle (fun _ he => by cases he) hr) h
  | prepare list identifier row descriptionTf =>
    obtain ⟨c', hc', rfl⟩ := map_ok_iff.mp h
    exact ⟨performSegue_within hc hc', fun w hw => absurd hw List.not_mem_nil⟩
  | enter => exact onScreen_within hc h
  | doAction => exact onScreen_within hc h
  | queried => exact onScreen_within hc h
  | updated => exact onScreen_within hc h

theorem next_within {posts allUsers : List Collection} {c : Client} {e : ClientEvent}
    (hc : c.Within users ids)
    (hposts : ∀ c ∈ posts, ∀ user ∈ users, ∀ p ∈ fetchData user c, p.Within ids)
    (he : ∀ user, e = .authenticate user → user ∈ users) :
    (c.next posts allUsers e).1.Within users ids ∧
      ∀ w ∈ (c.next posts allUsers e).2, w.Within ids := by
  unfold next
  split
  · rename_i r hr
    exact step_within hc hposts he hr
  · exact ⟨launch_within hc.currentUser, fun w hw => absurd hw List.not_mem_nil⟩

end Client
end Apps

/-! ## All apps -/

namespace Service

/-- The apps are signed in as these users only. -/
def SignsIn (users : Set (Option String)) : ServiceEvent → Prop
  | .client _ (.authenticate user) => user ∈ users
  | _ => True

/-- A post is added at an id that no document has or had. -/
def NewIds (st : Service) (e : ServiceEvent) : Prop :=
  ∀ i now documentID post, e = .written i now →
    st.writes[i]? = some (.addDocument documentID post) →
      ∀ c ∈ st.allPosts, documentID ∉ keys c.documents.rows

/-- The document is one that the list of one of these users asks for. -/
def OwnedBy (users : Set (Option String)) (d : Document) : Prop :=
  ∃ user ∈ users, d.field "createdByUID" = some (uidValue user)

def owned (users : Set (Option String)) (st : Service) : Set String :=
  {documentID | ∃ c ∈ st.allPosts, ∃ d ∈ c.documents.rows, d.id = documentID ∧ OwnedBy users d}

/-- The apps know of, and the writes change, documents of these users; and documents with one id
have one owner, whenever they are or were there. -/
structure Confined (users : Set (Option String)) (st : Service) : Prop where
  clients : ∀ i, (st.clients i).Within users (st.owned users)
  writes : ∀ w ∈ st.writes, w.Within (st.owned users)
  owner : ∀ c ∈ st.allPosts, ∀ d ∈ c.documents.rows, ∀ c' ∈ st.allPosts, ∀ d' ∈ c'.documents.rows,
    d.id = d'.id → d.field "createdByUID" = d'.field "createdByUID"

variable {users : Set (Option String)} {st st' : Service} {e : ServiceEvent}

theorem OwnedBy.of_field_eq {d d' : Document}
    (h : d.field "createdByUID" = d'.field "createdByUID") :
    OwnedBy users d ↔ OwnedBy users d' := by
  rw [OwnedBy, OwnedBy, h]

theorem owned_mono (h : st.allPosts ⊆ st'.allPosts) : st.owned users ⊆ st'.owned users := by
  rintro documentID ⟨c, hc, hd⟩
  exact ⟨c, h hc, hd⟩

/-- A write changes a document of these users, or adds a post at an id that no document has. -/
theorem Confined.documentID {w : PostWrite} {i : ℕ} {now : ℤ} (hst : Confined users st)
    (hnew : NewIds st (.written i now)) (hw : st.writes[i]? = some w) {d : Document}
    (hd : d ∈ st.posts.documents.rows) (hid : d.id = w.documentID) : OwnedBy users d := by
  rcases hst.writes w (List.mem_of_getElem? hw) with ⟨documentID, post, rfl⟩ | howned
  · refine absurd ?_ (hnew i now documentID post rfl hw st.posts List.mem_cons_self)
    have hid : d.id = documentID := hid
    exact hid ▸ key_mem_keys hd
  · obtain ⟨c, hc, d', hd', hid', howned⟩ := howned
    have howner := hst.owner c hc d' hd' st.posts List.mem_cons_self d hd (hid'.trans hid.symm)
    exact (OwnedBy.of_field_eq howner).mp howned

/-- After a write there is still one owner for each id. -/
theorem Confined.owner_written {w : PostWrite} {i : ℕ} {now : ℤ} {posts : Collection}
    (hst : Confined users st) (hnew : NewIds st (.written i now)) (hw : st.writes[i]? = some w)
    (hposts : postsStep st.posts (now, w) = .ok posts) {d d' : Document} {c' : Collection}
    (hd : d ∈ posts.documents.rows) (hc' : c' ∈ st.allPosts) (hd' : d' ∈ c'.documents.rows)
    (hid : d.id = d'.id) : d.field "createdByUID" = d'.field "createdByUID" := by
  rcases mem_postsStep hposts hd with hd | ⟨post, hadded⟩ | ⟨old, hold, -, holdID, hfield⟩
  · exact hst.owner st.posts List.mem_cons_self d hd c' hc' d' hd' hid
  · obtain rfl : w = .addDocument d.id post := hadded
    exact absurd (hid ▸ key_mem_keys hd') (hnew i now d.id post rfl hw c' hc')
  · exact hfield.trans
      (hst.owner st.posts List.mem_cons_self old hold c' hc' d' hd' (holdID.trans hid))

theorem step_preserves_confined :
    step.Preserves (fun st e => SignsIn users e ∧ NewIds st e) (Confined users) := by
  rintro st e st' hst ⟨hsigns, hnew⟩ h
  cases e with
  | client i e =>
    obtain rfl := Except.ok.inj h
    have hposts : ∀ c ∈ st.allPosts, ∀ user ∈ users, ∀ p ∈ fetchData user c,
        p.Within (st.owned users) := by
      intro c hc user huser p hp documentID hid
      obtain ⟨d, hd, hpd, hfield⟩ := mem_fetchData hp
      exact ⟨c, hc, d, hd, Option.some.inj (hpd.symm.trans hid), user, huser, hfield⟩
    obtain ⟨hclient, hwrites⟩ := @Client.next_within users (st.owned users) st.allPosts st.allUsers
      (st.clients i) e (hst.clients i) hposts fun user he => by subst he; exact hsigns
    refine ⟨fun j => ?_, List.forall_mem_append.mpr ⟨hst.writes, hwrites⟩, hst.owner⟩
    change (Function.update st.clients i _ j).Within users (st.owned users)
    by_cases hj : j = i
    · subst hj
      simpa using hclient
    · simpa [hj] using hst.clients j
  | written i now =>
    simp only [step] at h
    split at h
    · rename_i w hw
      obtain ⟨posts, hposts, h⟩ := bind_ok_iff.mp h
      obtain rfl := pure_ok_iff.mp h
      have hmono : st.owned users ⊆ owned users { st with
          posts := posts, earlierPosts := st.allPosts, writes := st.writes.eraseIdx i } :=
        owned_mono (List.subset_cons_self _ _)
      refine ⟨fun j => (hst.clients j).mono hmono,
        fun w hw => (hst.writes w (List.mem_of_mem_eraseIdx hw)).mono hmono, ?_⟩
      have howner := @Confined.owner_written users st w i now posts hst hnew hw hposts
      rintro c (_ | ⟨_, hc⟩) d hd c' (_ | ⟨_, hc'⟩) d' hd' hid
      · rw [posts.documents.distinct.eq_of_key_eq hd hd' hid]
      · exact howner hd hc' hd' hid
      · exact (howner hd' hc hd hid.symm).symm
      · exact hst.owner c hc d hd c' hc' d' hd' hid
    · obtain rfl := Except.ok.inj h
      exact hst
  | refused i =>
    obtain rfl := Except.ok.inj h
    exact ⟨hst.clients, fun w hw => hst.writes w (List.mem_of_mem_eraseIdx hw), hst.owner⟩
  | registered now registration =>
    obtain ⟨users', -, h⟩ := bind_ok_iff.mp h
    obtain rfl := pure_ok_iff.mp h
    exact ⟨hst.clients, hst.writes, hst.owner⟩

theorem step_keeps {d : Document} (hst : Confined users st) (hnew : NewIds st e)
    (hd : d ∈ st.posts.documents.rows) (hother : ¬ OwnedBy users d) (h : step st e = .ok st') :
    d ∈ st'.posts.documents.rows := by
  cases e with
  | client i e =>
    obtain rfl := Except.ok.inj h
    exact hd
  | written i now =>
    simp only [step] at h
    split at h
    · rename_i w hw
      obtain ⟨posts, hposts, h⟩ := bind_ok_iff.mp h
      obtain rfl := pure_ok_iff.mp h
      exact mem_postsStep_of_ne hposts hd fun hid => hother (hst.documentID hnew hw hd hid)
    · obtain rfl := Except.ok.inj h
      exact hd
  | refused i =>
    obtain rfl := Except.ok.inj h
    exact hd
  | registered now registration =>
    obtain ⟨users', -, h⟩ := bind_ok_iff.mp h
    obtain rfl := pure_ok_iff.mp h
    exact hd

theorem launch_confined {currentUser : ℕ → Option String} (husers : ∀ i, currentUser i ∈ users)
    (posts allUsers : Collection) : Confined users (launch currentUser posts allUsers) := by
  refine ⟨fun i => Client.launch_within (husers i), fun w hw => absurd hw List.not_mem_nil, ?_⟩
  intro c hc d hd c' hc' d' hd' hid
  obtain rfl := List.mem_singleton.mp hc
  obtain rfl := List.mem_singleton.mp hc'
  rw [c'.documents.distinct.eq_of_key_eq hd hd' hid]

theorem run_keeps {d : Document} {es : List ServiceEvent} (hst : Confined users st)
    (hes : step.Meets (fun st e => SignsIn users e ∧ NewIds st e) st es)
    (hd : d ∈ st.posts.documents.rows) (hother : ¬ OwnedBy users d)
    (h : step.run st es = .ok st') : d ∈ st'.posts.documents.rows := by
  induction es generalizing st with
  | nil =>
    obtain rfl := Except.ok.inj h
    exact hd
  | cons e es ih =>
    obtain ⟨m, hm, h⟩ := step.run_cons_eq_ok.mp h
    exact ih (step_preserves_confined st e m hst hes.1 hm) (hes.2 m hm)
      (step_keeps hst hes.1.2 hd hother hm) h

/-- In every run of any number of apps, a document that is there at some moment and is not owned by
one of the users that the apps are signed in as stays as it is. -/
theorem run_confined {currentUser : ℕ → Option String} (husers : ∀ i, currentUser i ∈ users)
    {posts allUsers : Collection} {before after : List ServiceEvent}
    (hbefore : step.Meets (fun st e => SignsIn users e ∧ NewIds st e)
      (launch currentUser posts allUsers) before)
    (h : step.run (launch currentUser posts allUsers) before = .ok st)
    (hafter : step.Meets (fun st e => SignsIn users e ∧ NewIds st e) st after)
    (h' : step.run st after = .ok st') :
    ∀ d ∈ st.posts.documents.rows, ¬ OwnedBy users d → d ∈ st'.posts.documents.rows :=
  fun _ hd hother => run_keeps
    (step_preserves_confined.run (launch_confined husers posts allUsers) hbefore h)
    hafter hd hother h'

theorem exists_step (st : Service) (e : ServiceEvent) : ∃ st', step st e = .ok st' := by
  cases h : step st e with
  | ok st' => exact ⟨st', rfl⟩
  | error t => cases t

def Sample.ownedPosts : Collection where
  documents := ⟨[
    ⟨"p", [("title", .string "Hello"), ("body", .string "First"), ("createdById", .string "raj"),
      ("createdByName", .string "Raj Shah"), ("updateTime", .timestamp 1),
      ("lastUpdated", .timestamp 2), ("createdByUID", .string "raj")], 2⟩,
    ⟨"q", [("title", .string "News"), ("body", .string "Second"), ("createdById", .string "andy"),
      ("createdByName", .string "Andy Lee"), ("updateTime", .timestamp 3),
      ("lastUpdated", .timestamp 4), ("createdByUID", .string "andy")], 4⟩], by decide⟩
  version := 4

def Sample.rajsTaps : List ServiceEvent :=
  [.client 0 .openList, .client 0 (.viewDidAppear 0), .client 0 (.fetched 0 0 (.documents 0)),
    .client 0 (.commit 0 0)]

/-- Raj's post is deleted, and Andy's is not his. -/
theorem run_confined_rajsTaps : ∃ st st',
    step.run (launch (fun _ => some "raj") Sample.ownedPosts .empty) Sample.rajsTaps = .ok st ∧
      step.run st [.written 0 5] = .ok st' ∧ st.writes = [.delete "p"] ∧
      ∀ d ∈ st.posts.documents.rows, ¬ OwnedBy {some "raj"} d → d ∈ st'.posts.documents.rows := by
  have hbefore : step.Meets (fun st e => SignsIn {some "raj"} e ∧ NewIds st e)
      (launch (fun _ => some "raj") Sample.ownedPosts .empty) Sample.rajsTaps := by
    refine Machine.meets_of_forall _ fun e he st => ?_
    simp only [Sample.rajsTaps, List.mem_cons, List.not_mem_nil, or_false] at he
    rcases he with rfl | rfl | rfl | rfl <;> exact ⟨trivial, fun _ _ _ _ he => by cases he⟩
  obtain ⟨st, hst⟩ := step.exists_run exists_step (launch (fun _ => some "raj") Sample.ownedPosts
    .empty) Sample.rajsTaps
  obtain ⟨st', hst'⟩ := step.exists_run exists_step st [.written 0 5]
  have hwrites : st.writes = [.delete "p"] := by
    have hrun : (step.run (launch (fun _ => some "raj") Sample.ownedPosts .empty)
      Sample.rajsTaps).map Service.writes = .ok [.delete "p"] := rfl
    rw [hst] at hrun
    exact Except.ok.inj hrun
  have hafter : step.Meets (fun st e => SignsIn {some "raj"} e ∧ NewIds st e) st
      [.written 0 5] := by
    refine ⟨⟨trivial, ?_⟩, fun _ _ => trivial⟩
    rintro _ _ documentID post ⟨⟩ hwrite
    rw [hwrites] at hwrite
    cases hwrite
  exact ⟨st, st', hst, hst', hwrites, run_confined (fun _ => rfl) hbefore hst hafter hst'⟩

end Service
end Info6350.FinalProject
