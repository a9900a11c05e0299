import Info6350.FinalProject.CreatePost

/-! # Blank titles

`validateFields` reads the label above the title, and `doAction` writes what the title field holds.
The two agree while nobody taps with a text and without a title.
-/

namespace Info6350.FinalProject
open Library Swift Firestore

/-- A write to `posts` whose texts are not blank. -/
def PostWrite.NotBlank : PostWrite → Prop
  | addDocument _ post => textInput post.title ≠ "" ∧ textInput post.body ≠ ""
  | updateData _ title body => textInput title ≠ "" ∧ textInput body ≠ ""
  | delete _ => True

/-- A query for the user, and what its completion writes. -/
structure UserQuery where
  users : Query
  title : String
  body : String

/-- What the completion of a query is given: an error, no snapshot, or documents. -/
inductive QueryResult where
  | error
  | noDocuments
  | documents (documents : List Document)

/-- The screen, the queries whose completions have not run, the writes sent to `posts` and the
alerts presented. -/
structure PostCRUViewController where
  post : Option Post
  user : Option String
  form : PostForm
  errorLabel : ErrorLabel
  queries : List UserQuery
  writes : List PostWrite
  alerts : List String

/-- The user types or taps the button, a query is completed, where `addDocument(from:)` generates
an id or throws, or an update is. -/
inductive PostEvent where
  | enter (titleTf descriptionTf : String)
  | doAction
  | queried (i : ℕ) (result : QueryResult) (documentID : Option String)
  | updated (failed : Bool)

namespace PostCRUViewController

/-- As the storyboard loads the screen, for a post or for a new one. -/
def initial (post : Option Post) (user : Option String) (descriptionTf : String) :
    PostCRUViewController where
  post := post
  user := user
  form := ⟨"Title", "", descriptionTf⟩
  errorLabel := ⟨"Error", 1⟩
  queries := []
  writes := []
  alerts := []

def showError (message : String) (s : PostCRUViewController) : PostCRUViewController :=
  { s with errorLabel := .showError message }

def perform (s : PostCRUViewController) : Action → PostCRUViewController
  | .showError message => s.showError message
  | .update write alertMessage =>
    { s with writes := s.writes ++ [write], alerts := s.alerts ++ [alertMessage] }
  | .create users title body alertMessage =>
    { s with queries := s.queries ++ [⟨users, title, body⟩], alerts := s.alerts ++ [alertMessage] }

def completion (query : UserQuery) (result : QueryResult) (documentID : Option String)
    (s : PostCRUViewController) : Except Trap PostCRUViewController :=
  match result with
  | .error => .ok s
  | .noDocuments => .ok (s.showError "error saving data")
  | .documents documents => do
    let newPost ← createCompletion s.user query.title query.body documents
    match documentID with
    | none => return s.showError "error creating post"
    | some documentID => return { s with writes := s.writes ++ [.addDocument documentID newPost] }

def step : Machine PostCRUViewController PostEvent Trap := fun s e =>
  match e with
  | .enter titleTf descriptionTf =>
    .ok { s with form := ⟨s.form.titleLabel, titleTf, descriptionTf⟩ }
  | .doAction => (doAction s.post s.user s.form).map s.perform
  | .queried i result documentID => match s.queries[i]? with
    | some query => completion query result documentID { s with queries := s.queries.eraseIdx i }
    | none => .ok s
  | .updated failed => .ok (if failed then s.showError "error saving data" else s)

/-- A tap with a blank title or text writes nothing, now or later, and shows the error. -/
def TapRule (s : PostCRUViewController) (e : PostEvent) : Prop :=
  e = .doAction → textInput s.form.titleTf = "" ∨ textInput s.form.descriptionTf = "" →
    ∃ t, step s e = .ok t ∧ t.writes = s.writes ∧ t.queries = s.queries ∧
      t.errorLabel = .showError "Please enter all details."

/-- A tap with a text has a title. -/
def TitledTaps (s : PostCRUViewController) (e : PostEvent) : Prop :=
  e = .doAction → textInput s.form.descriptionTf ≠ "" → textInput s.form.titleTf ≠ ""

/-- The writes sent and those that are still to come are not blank. -/
structure NothingBlank (s : PostCRUViewController) : Prop where
  titleLabel : textInput s.form.titleLabel ≠ ""
  queries : ∀ q ∈ s.queries, textInput q.title ≠ "" ∧ textInput q.body ≠ ""
  writes : ∀ w ∈ s.writes, w.NotBlank

theorem validateFields_eq_none_iff {form : PostForm} : validateFields form = none ↔
    textInput form.titleLabel ≠ "" ∧ textInput form.descriptionTf ≠ "" := by
  unfold validateFields
  split_ifs with h
  · exact iff_of_false (by simp) fun ⟨hlabel, hbody⟩ => h.elim hlabel hbody
  · exact iff_of_true rfl (not_or.mp h)

/-- A tap that passes the check writes, asks for the user, or traps. -/
theorem doAction_cases (post : Option Post) (user : Option String) {form : PostForm}
    (h : validateFields form = none) :
    (∃ f, doAction post user form = .error f) ∨
    (∃ documentID alertMessage, doAction post user form = .ok (.update
      (.updateData documentID (textInput form.titleTf) (textInput form.descriptionTf))
      alertMessage)) ∨
    ∃ users alertMessage, doAction post user form = .ok (.create users
      (textInput form.titleTf) (textInput form.descriptionTf) alertMessage) := by
  rw [doAction, h]
  cases post with
  | none => exact .inr (.inr ⟨_, _, rfl⟩)
  | some post =>
    cases hid : post.id with
    | none => exact .inl ⟨_, by simp [hid, unwrap, Bind.bind, Except.bind]; rfl⟩
    | some documentID => exact .inr (.inl ⟨documentID, _, by simp [hid]; rfl⟩)

theorem doAction_of_error (post : Option Post) (user : Option String) {form : PostForm}
    {error : String} (h : validateFields form = some error) :
    doAction post user form = .ok (.showError error) := by
  rw [doAction, h]

theorem createCompletion_texts {user : Option String} {title body : String}
    {documents : List Document} {post : Post}
    (h : createCompletion user title body documents = .ok post) :
    post.title = title ∧ post.body = body := by
  obtain ⟨dbUser, -, h⟩ := bind_ok_iff.mp h
  obtain ⟨createdById, -, h⟩ := bind_ok_iff.mp h
  obtain rfl := pure_ok_iff.mp h
  exact ⟨rfl, rfl⟩

/-- A tap with a blank title is refused exactly when the text is blank as well. -/
theorem tapRule_iff {s : PostCRUViewController} (hlabel : textInput s.form.titleLabel ≠ "")
    (e : PostEvent) : TapRule s e ↔ TitledTaps s e := by
  constructor
  · rintro h rfl hbody htitle
    obtain ⟨t, ht, hwrites, hqueries, -⟩ := h rfl (.inl htitle)
    obtain ⟨action, haction, rfl⟩ := map_ok_iff.mp ht
    rcases doAction_cases s.post s.user (validateFields_eq_none_iff.mpr ⟨hlabel, hbody⟩) with
      ⟨f, hf⟩ | ⟨documentID, alertMessage, hupdate⟩ | ⟨users, alertMessage, hcreate⟩
    · cases hf.symm.trans haction
    · obtain rfl := Except.ok.inj (hupdate.symm.trans haction)
      simp [perform] at hwrites
    · obtain rfl := Except.ok.inj (hcreate.symm.trans haction)
      simp [perform] at hqueries
  · rintro h rfl hblank
    have hbody : textInput s.form.descriptionTf = "" := by
      by_contra hbody
      exact hblank.elim (h rfl hbody) hbody
    have hrefused : validateFields s.form = some "Please enter all details." := by
      rw [validateFields, if_pos (.inr hbody)]
    refine ⟨s.showError "Please enter all details.", ?_, rfl, rfl, rfl⟩
    rw [step, doAction_of_error s.post s.user hrefused]
    rfl

theorem completion_cases {query : UserQuery} {result : QueryResult} {documentID : Option String}
    {s t : PostCRUViewController} (h : completion query result documentID s = .ok t) :
    t.form = s.form ∧ t.queries = s.queries ∧ (t.writes = s.writes ∨ ∃ documentID post,
      post.title = query.title ∧ post.body = query.body ∧
      t.writes = s.writes ++ [.addDocument documentID post]) := by
  cases result with
  | error =>
    obtain rfl := Except.ok.inj h
    exact ⟨rfl, rfl, .inl rfl⟩
  | noDocuments =>
    obtain rfl := Except.ok.inj h
    exact ⟨rfl, rfl, .inl rfl⟩
  | documents documents =>
    obtain ⟨newPost, hpost, h⟩ := bind_ok_iff.mp h
    obtain ⟨htitle, hbody⟩ := createCompletion_texts hpost
    cases documentID with
    | none =>
      obtain rfl := pure_ok_iff.mp h
      exact ⟨rfl, rfl, .inl rfl⟩
    | some documentID =>
      obtain rfl := pure_ok_iff.mp h
      exact ⟨rfl, rfl, .inr ⟨documentID, newPost, htitle, hbody, rfl⟩⟩

/-- What a step does to the queries and the writes.  It never changes the label. -/
theorem step_cases {s t : PostCRUViewController} {e : PostEvent} (h : step s e = .ok t) :
    t.form.titleLabel = s.form.titleLabel ∧
    ((t.queries ⊆ s.queries ∧ t.writes = s.writes) ∨
    (e = .doAction ∧ validateFields s.form = none ∧ t.queries = s.queries ∧ ∃ documentID,
      t.writes = s.writes ++
        [.updateData documentID (textInput s.form.titleTf) (textInput s.form.descriptionTf)]) ∨
    (e = .doAction ∧ validateFields s.form = none ∧ t.writes = s.writes ∧ ∃ users,
      t.queries = s.queries ++
        [⟨users, textInput s.form.titleTf, textInput s.form.descriptionTf⟩]) ∨
    (t.queries ⊆ s.queries ∧ ∃ query ∈ s.queries, ∃ documentID post,
      post.title = query.title ∧ post.body = query.body ∧
      t.writes = s.writes ++ [.addDocument documentID post])) := by
  cases e with
  | enter titleTf descriptionTf =>
    obtain rfl := Except.ok.inj h
    exact ⟨rfl, .inl ⟨List.Subset.refl _, rfl⟩⟩
  | doAction =>
    obtain ⟨action, haction, rfl⟩ := map_ok_iff.mp h
    cases hcheck : validateFields s.form with
    | some error =>
      obtain rfl := Except.ok.inj ((doAction_of_error s.post s.user hcheck).symm.trans haction)
      exact ⟨rfl, .inl ⟨List.Subset.refl _, rfl⟩⟩
    | none =>
      rcases doAction_cases s.post s.user hcheck with
        ⟨f, hf⟩ | ⟨documentID, alertMessage, hupdate⟩ | ⟨users, alertMessage, hcreate⟩
      · cases hf.symm.trans haction
      · obtain rfl := Except.ok.inj (hupdate.symm.trans haction)
        exact ⟨rfl, .inr (.inl ⟨rfl, rfl, rfl, documentID, rfl⟩)⟩
      · obtain rfl := Except.ok.inj (hcreate.symm.trans haction)
        exact ⟨rfl, .inr (.inr (.inl ⟨rfl, rfl, rfl, users, rfl⟩))⟩
  | queried i result documentID =>
    cases hquery : s.queries[i]? with
    | none =>
      rw [step, hquery] at h
      obtain rfl := Except.ok.inj h
      exact ⟨rfl, .inl ⟨List.Subset.refl _, rfl⟩⟩
    | some query =>
      rw [step, hquery] at h
      obtain ⟨hform, hqueries, hwrites⟩ := completion_cases h
      have hrest : t.queries ⊆ s.queries := hqueries ▸ fun q => List.mem_of_mem_eraseIdx
      refine ⟨congrArg PostForm.titleLabel hform, ?_⟩
      rcases hwrites with hwrites | hwrites
      · exact .inl ⟨hrest, hwrites⟩
      · exact .inr (.inr (.inr ⟨hrest, query, List.mem_of_getElem? hquery, hwrites⟩))
  | updated failed =>
    obtain rfl := Except.ok.inj h
    cases failed <;> exact ⟨rfl, .inl ⟨List.Subset.refl _, rfl⟩⟩

theorem step_preserves_titleLabel (C : PostCRUViewController → PostEvent → Prop) :
    step.Preserves C fun s => textInput s.form.titleLabel ≠ "" := by
  intro s e t hs _ h
  rwa [(step_cases h).1]

theorem step_preserves_nothingBlank : step.Preserves TitledTaps NothingBlank := by
  rintro s e t ⟨hlabel, hqueries, hwrites⟩ htitled h
  obtain ⟨hsame, hcases⟩ := step_cases h
  have htexts : e = .doAction → validateFields s.form = none →
      textInput (textInput s.form.titleTf) ≠ "" ∧
        textInput (textInput s.form.descriptionTf) ≠ "" := by
    intro he hcheck
    have hbody := (validateFields_eq_none_iff.mp hcheck).2
    exact ⟨textInput_textInput_ne (htitled he hbody), textInput_textInput_ne hbody⟩
  rw [← hsame] at hlabel
  rcases hcases with ⟨hsubset, hsent⟩ | ⟨he, hcheck, hkept, documentID, hsent⟩ |
    ⟨he, hcheck, hsent, users, hasked⟩ |
    ⟨hsubset, query, hquery, documentID, post, htitle, hbody, hsent⟩
  · exact ⟨hlabel, fun q hq => hqueries q (hsubset hq), hsent ▸ hwrites⟩
  · refine ⟨hlabel, hkept ▸ hqueries, ?_⟩
    rw [hsent]
    exact List.forall_mem_append.mpr
      ⟨hwrites, List.forall_mem_singleton.mpr (htexts he hcheck)⟩
  · refine ⟨hlabel, ?_, hsent ▸ hwrites⟩
    rw [hasked]
    exact List.forall_mem_append.mpr
      ⟨hqueries, List.forall_mem_singleton.mpr (htexts he hcheck)⟩
  · refine ⟨hlabel, fun q hq => hqueries q (hsubset hq), ?_⟩
    rw [hsent]
    refine List.forall_mem_append.mpr ⟨hwrites, List.forall_mem_singleton.mpr ?_⟩
    rw [PostWrite.NotBlank, htitle, hbody]
    exact hqueries query hquery

/-- No blank post is written in a run and every tap with a blank title or text is refused, if and
only if no tap has a text and no title. -/
theorem run_notBlank_iff (post : Option Post) (user : Option String) (descriptionTf : String)
    (es : List PostEvent) :
    (step.Meets TapRule (initial post user descriptionTf) es ∧
      step.Always (fun s => ∀ w ∈ s.writes, w.NotBlank) (initial post user descriptionTf) es) ↔
      step.Meets TitledTaps (initial post user descriptionTf) es := by
  have hinitial : NothingBlank (initial post user descriptionTf) :=
    ⟨(by decide : textInput "Title" ≠ ""), fun _ h => absurd h List.not_mem_nil,
      fun _ h => absurd h List.not_mem_nil⟩
  have hiff := Machine.meets_congr_of_meets (A := Machine.AnyStep)
    (D := TitledTaps) (step_preserves_titleLabel _) (fun s e hs _ => tapRule_iff hs e)
    hinitial.titleLabel (Machine.meets_anyStep _ es)
  constructor
  · exact fun ⟨h, _⟩ => hiff.mp h
  · exact fun h => ⟨hiff.mpr h,
      (step_preserves_nothingBlank.always hinitial h).imp fun _ hs => hs.writes⟩

/-- A text and no title, for a post that is there and for a new one. -/
def Sample.untitled : List PostEvent := [.enter "" "First", .doAction]

def Sample.post : Post := ⟨some "p", "Hello", "First", "u1", "Raj Shah", none⟩

/-- The update writes a blank title, and the tap for a new post reports success. -/
theorem run_untitled :
    (∃ t, step.run (initial (some Sample.post) (some "u1") "") Sample.untitled = .ok t ∧
      t.writes = [.updateData "p" "" "First"] ∧ t.alerts = ["Post updated successfully"]) ∧
    (∃ t, step.run (initial none (some "u1") "") Sample.untitled = .ok t ∧
      t.alerts = ["Post created successfully"] ∧ t.errorLabel = ⟨"Error", 1⟩) ∧
    ¬ step.Always (fun s => ∀ w ∈ s.writes, w.NotBlank)
      (initial (some Sample.post) (some "u1") "") Sample.untitled := by
  refine ⟨⟨_, rfl, rfl, rfl⟩, ⟨_, rfl, rfl, rfl⟩, fun h => ?_⟩
  have hblank := (h.2 _ rfl).2 _ rfl _ List.mem_cons_self
  exact hblank.1 rfl

end PostCRUViewController
end Info6350.FinalProject
