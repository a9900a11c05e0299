import Info6350.FinalProject.Board
import Mathlib.Data.Prod.Lex
import Mathlib.Data.String.Basic

/-! # The feed of posts

`PostsTableViewController` orders by `lastUpdated`, a field that only updates write.  So the feed
has the posts that were updated, and not the others, the one updated last first.
-/

namespace Info6350.FinalProject
open Library Swift Firestore Keyed

/-- The query of `PostsTableViewController.fetchData`. -/
def feedQuery : Query := ({} : Query).order "lastUpdated" true

/-- The posts of `PostsTableViewController.fetchData`, when the query succeeds. -/
def fetchFeed (c : Collection) : List Post := (feedQuery.getDocuments c).filterMap Post.decode

def Board.UpdatedAt (b : Board) (p : Post) (t : ℤ) : Prop :=
  ∃ documentID, b documentID = some ⟨p, some t⟩

/-- The list has the posts of the board that were updated, each once and the newest first. -/
structure Feed (b : Board) (posts : List Post) : Prop where
  mem : ∀ p, p ∈ posts ↔ ∃ t, b.UpdatedAt p t
  newestFirst : posts.Pairwise fun p q => ∀ t u, b.UpdatedAt p t → b.UpdatedAt q u → u ≤ t
  nodup : posts.Nodup

/-! ## The field that is ordered by -/

def Dated (d : Document) : Prop :=
  d.field "lastUpdated" = none ∨ ∃ t, d.field "lastUpdated" = some (.timestamp t)

theorem postsStep_preserves_dated :
    postsStep.Preserves Machine.AnyStep fun c => ∀ d ∈ c.documents.rows, Dated d := by
  intro c w c' hc _ h
  refine Collection.step_preserves_documents (W := fun w => ∃ p : PostWrite, w = p.write) ?_ ?_
    c (w.1, w.2.write) c' hc ⟨w.2, rfl⟩ h
  · rintro now documentID data d ⟨p, hp⟩ hd
    cases p with
    | addDocument id post =>
      obtain ⟨rfl, rfl⟩ := Write.setData.inj hp
      refine .inl ?_
      cases htime : post.updateTime <;>
        simp [Document.field, hd, Post.encode, Data.resolve, List.lookup_cons, htime]
    | updateData => cases hp
    | delete => cases hp
  · rintro now documentID data old d ⟨p, hp⟩ hold hd
    cases p with
    | addDocument => cases hp
    | updateData =>
      obtain ⟨rfl, rfl⟩ := Write.updateData.inj hp
      exact .inr ⟨now, by simp [Document.field_of_append hd, Data.resolve, List.lookup_cons]⟩
    | delete => cases hp

/-- The time of the last update, or 0. -/
def updated (d : Document) : ℤ := ((d.serverTimestamp? "lastUpdated").join).getD 0

def feedKey (d : Document) : ℤ ×ₗ String := toLex (updated d, d.id)

theorem feedQuery_comparator {d d' : Document} {t t' : ℤ}
    (hd : d.field "lastUpdated" = some (.timestamp t))
    (hd' : d'.field "lastUpdated" = some (.timestamp t')) :
    feedQuery.comparator d d' ≠ .gt ↔ feedKey d' ≤ feedKey d := by
  have hcompare : compare (some (Value.timestamp t)) (some (Value.timestamp t')) = compare t t' :=
    Ordering.then_eq
  have hcomparator : feedQuery.comparator d d' =
      ((compare t t').swap).then (compare d.id d'.id).swap := by
    change (Query.applyTo true
      (compare (d.field "lastUpdated") (d'.field "lastUpdated"))).then _ = _
    rw [hd, hd', hcompare]
    rfl
  have hkey : feedKey d = toLex (t, d.id) := by
    simp [feedKey, updated, Document.serverTimestamp?, hd]
  have hkey' : feedKey d' = toLex (t', d'.id) := by
    simp [feedKey, updated, Document.serverTimestamp?, hd']
  rw [hcomparator, hkey, hkey', Prod.Lex.toLex_le_toLex]
  rcases lt_trichotomy t t' with h | h | h
  · rw [compare_lt_iff_lt.mpr h]
    simp [Ordering.swap, Ordering.then, h.ne', h.not_gt]
  · subst h
    rw [compare_eq_iff_eq.mpr rfl]
    simp [Ordering.swap, Ordering.then, ← compare_ge_iff_ge]
    cases compare d.id d'.id <;> simp
  · rw [compare_gt_iff_gt.mpr h]
    simp [Ordering.swap, Ordering.then, h]

/-! ## The order of the documents -/

section Documents
variable {c : Collection} {d : Document}

theorem mem_feedQuery (hc : ∀ d ∈ c.documents.rows, Dated d) : d ∈ feedQuery.getDocuments c ↔
    d ∈ c.documents.rows ∧ d.field "lastUpdated" = some (.timestamp (updated d)) := by
  have hmatches : feedQuery.matchesOrderBy d ↔ (d.field "lastUpdated").isSome := by
    simp [Query.matchesOrderBy, feedQuery, Query.order]
  have hfilters : feedQuery.matchesFilters d := fun f hf => absurd hf List.not_mem_nil
  rw [Query.mem_getDocuments, hmatches]
  refine and_congr_right fun hd => ⟨fun ⟨hsome, _⟩ => ?_, fun hfield => ⟨?_, hfilters⟩⟩
  · rcases hc d hd with hnone | ⟨t, ht⟩
    · rw [hnone] at hsome
      cases hsome
    · simp [updated, Document.serverTimestamp?, ht]
  · rw [hfield]
    rfl

theorem feedQuery_sorted (hc : ∀ d ∈ c.documents.rows, Dated d) :
    (feedQuery.getDocuments c).Pairwise fun d d' => updated d' ≤ updated d := by
  have hmem : ∀ d, d ∈ (c.documents.rows.filter fun d =>
      feedQuery.matchesOrderBy d ∧ feedQuery.matchesFilters d) →
      d.field "lastUpdated" = some (.timestamp (updated d)) := by
    intro d hd
    have hget : d ∈ feedQuery.getDocuments c := List.mem_insertionSort _ |>.mpr hd
    exact ((mem_feedQuery hc).mp hget).2
  have hmap := List.map_insertionSort (r := fun d d' => feedQuery.comparator d d' ≠ .gt)
    (fun k k' : ℤ ×ₗ String => k' ≤ k) feedKey _
    fun d hd d' hd' => feedQuery_comparator (hmem d hd) (hmem d' hd')
  have hsorted := List.pairwise_insertionSort (fun k k' : ℤ ×ₗ String => k' ≤ k)
    ((c.documents.rows.filter fun d =>
      feedQuery.matchesOrderBy d ∧ feedQuery.matchesFilters d).map feedKey)
  rw [← hmap, List.pairwise_map] at hsorted
  refine hsorted.imp fun {d d'} h => ?_
  rcases Prod.Lex.toLex_le_toLex.mp h with hlt | ⟨heq, -⟩
  · exact hlt.le
  · exact heq.le

theorem feedQuery_ids (c : Collection) :
    (feedQuery.getDocuments c).Pairwise fun d d' => d.id ≠ d'.id := by
  have hrows : c.documents.rows.Pairwise fun d d' => d.id ≠ d'.id :=
    List.pairwise_map.mp c.documents.distinct
  exact (List.Perm.pairwise_iff (fun h => h.symm) (List.perm_insertionSort _ _)).mpr
    (hrows.sublist List.filter_sublist)

end Documents

/-! ## The feed -/

section Posts
variable {c : Collection}

theorem board_of_mem {d : Document} {p : Post} (hd : d ∈ c.documents.rows)
    (hp : Post.decode d = some p) :
    board c d.id = some ⟨p, (d.serverTimestamp? "lastUpdated").join⟩ := by
  have hlookup : lookup c.documents.rows d.id = some d :=
    c.documents.distinct.lookup_eq_some_iff.mpr ⟨hd, rfl⟩
  simp [board, hlookup, Entry.ofDocument, hp]

theorem updatedAt_iff {p : Post} {t : ℤ} : (board c).UpdatedAt p t ↔
    ∃ d ∈ c.documents.rows, Post.decode d = some p ∧
      d.field "lastUpdated" = some (.timestamp t) := by
  constructor
  · rintro ⟨documentID, h⟩
    obtain ⟨d, hlookup, hentry⟩ := Option.bind_eq_some_iff.mp h
    obtain ⟨q, hq, hentry⟩ := Option.map_eq_some_iff.mp hentry
    obtain ⟨rfl, htime⟩ := Entry.mk.inj hentry
    refine ⟨d, (lookup_some hlookup).1, hq, ?_⟩
    unfold Document.serverTimestamp? at htime
    split at htime
    · cases htime
    · rename_i u hfield
      obtain rfl := Option.some.inj htime
      exact hfield
    · cases htime
  · rintro ⟨d, hd, hp, hfield⟩
    refine ⟨d.id, ?_⟩
    rw [board_of_mem hd hp]
    simp [Document.serverTimestamp?, hfield]

theorem updated_eq {d : Document} {t : ℤ} (h : d.field "lastUpdated" = some (.timestamp t)) :
    updated d = t := by
  simp [updated, Document.serverTimestamp?, h]

theorem updatedAt_unique {d : Document} {p : Post} {t : ℤ} (hd : d ∈ c.documents.rows)
    (hp : Post.decode d = some p) (h : (board c).UpdatedAt p t) : t = updated d := by
  obtain ⟨d', hd', hp', hfield⟩ := updatedAt_iff.mp h
  have hid : d'.id = d.id := Option.some.inj ((Post.decode_id hp').symm.trans (Post.decode_id hp))
  obtain rfl : d' = d := c.documents.distinct.eq_of_key_eq hd' hd hid
  exact (updated_eq hfield).symm

theorem feed_board (hc : ∀ d ∈ c.documents.rows, Dated d) : Feed (board c) (fetchFeed c) := by
  refine ⟨fun p => ?_, ?_, ?_⟩
  · simp only [fetchFeed, List.mem_filterMap, mem_feedQuery hc, updatedAt_iff]
    constructor
    · rintro ⟨d, ⟨hd, hfield⟩, hp⟩
      exact ⟨updated d, d, hd, hp, hfield⟩
    · rintro ⟨t, d, hd, hp, hfield⟩
      exact ⟨d, ⟨hd, (updated_eq hfield).symm ▸ hfield⟩, hp⟩
  · refine List.pairwise_filterMap.mpr ((feedQuery_sorted hc).imp_of_mem ?_)
    intro d d' hd hd' hle p hp q hq t u ht hu
    rw [updatedAt_unique ((mem_feedQuery hc).mp hd).1 hp ht,
      updatedAt_unique ((mem_feedQuery hc).mp hd').1 hq hu]
    exact hle
  · refine List.pairwise_filterMap.mpr ((feedQuery_ids c).imp fun {d d'} hne p hp q hq hpq => ?_)
    subst hpq
    exact hne (Option.some.inj ((Post.decode_id hp).symm.trans (Post.decode_id hq)))

end Posts

/-- After any writes the feed has the updated posts of the board that the writes make, and no
others, the one updated last first. -/
theorem run_feed {writes : List (ℤ × PostWrite)} {c : Collection}
    (h : postsStep.run .empty writes = .ok c) :
    Feed (Board.run writes fun _ => none) (fetchFeed c) := by
  have hboard : board c = _ := board_postsRun (fun d hd => absurd hd List.not_mem_nil) h
  rw [← show board Collection.empty = fun _ => none from rfl, ← hboard]
  exact feed_board (postsStep_preserves_dated.run_any (fun d hd => absurd hd List.not_mem_nil) h)

/-- Raj's first post is updated after a second one, which never was. -/
def Sample.feedWrites : List (ℤ × PostWrite) :=
  [(1, .addDocument "p" ⟨none, "Hello", "First", "raj", "Raj Shah", none⟩),
    (2, .addDocument "q" ⟨none, "News", "Second", "raj", "Raj Shah", none⟩),
    (3, .updateData "p" "Hello" "First, again")]

/-- The feed has the first post only. -/
theorem run_feed_updatedOnly : ∃ c, postsStep.run .empty Sample.feedWrites = .ok c ∧
    fetchFeed c = [⟨some "p", "Hello", "First, again", "raj", "Raj Shah", some 1⟩] ∧
    Feed (Board.run Sample.feedWrites fun _ => none) (fetchFeed c) :=
  ⟨_, rfl, rfl, @run_feed Sample.feedWrites _ rfl⟩

end Info6350.FinalProject
