import Info6350.Assignment10.Session
import Info6350.TableApp.Changes
import Info6350.TableApp.Frames

/-! # The changes that the user was told of

A list of records goes along with the app: those that the user created or updated, as
entered on the screen when the success was reported, without those deleted since.  An
`Editor` says what a details screen shows of the record that it edits; `Lawful.kept` is
the invariant of one pane, and it does not assume that the list on screen is the array.
-/

namespace Info6350.Assignment10
open Library Swift Logistics TableApp Keyed

section Changes
variable {α β δ ω : Type} [Keyed α ℤ]

/-- The changes after an event on a pane.  A reported success adds what was entered, and a
swipe after which the list is shorter removes the record that was displayed there. -/
def userChanges (C : Controllers α δ ω) (idOf : β → ℤ) (entry : Alert → δ → Option β)
    (written : Bool) (s : Store) (p : Pane α δ) (e : PaneEvent ω) (changes : List β) : List β :=
  match paneStep C written s p e, e, p.details with
  | .ok r, .createButtonTap, some d =>
    match r.alerts.head?.bind fun a => entry a d with
    | some x => changes.filter (fun y => idOf y ≠ idOf x) ++ [x]
    | none => changes
  | .ok r, .swipeDelete row, none =>
    if r.pane.filteredResults.length < p.filteredResults.length then
      match p.filteredResults[row]? with
      | some x => changes.filter (fun y => idOf y ≠ key x)
      | none => changes
    else changes
  | _, _, _ => changes

variable {C : Controllers α δ ω} {idOf : β → ℤ} {entry : Alert → δ → Option β} {written : Bool}
  {s : Store} {p : Pane α δ} {e : PaneEvent ω} {r : PaneResult α δ} {changes : List β}

/-- No report and no shorter list, no change. -/
theorem userChanges_same (h : paneStep C written s p e = .ok r)
    (htap : ∀ d a, e = .createButtonTap → p.details = some d → a ∈ r.alerts → entry a d = none)
    (hdelete : ∀ row, e = .swipeDelete row → p.details = none →
      p.filteredResults.length ≤ r.pane.filteredResults.length) :
    userChanges C idOf entry written s p e changes = changes := by
  unfold userChanges
  rw [h]
  cases e with
  | createButtonTap =>
    cases hd : p.details with
    | none => rfl
    | some d =>
      cases hr : r.alerts with
      | nil => simp [hr]
      | cons a alerts =>
        have hentry := htap d a rfl hd (hr ▸ List.mem_cons_self)
        simp [hr, hentry]
  | swipeDelete row =>
    cases hd : p.details with
    | none => exact if_neg (Nat.not_lt.mpr (hdelete row rfl hd))
    | some d => rfl
  | _ => rfl

omit [Keyed α ℤ] in
theorem paneStep_tap {d : δ} {s' : Store} {a : Alert} (hd : p.details = some d)
    (htap : C.createButtonTap written d s = .ok (s', a)) :
    paneStep C written s p .createButtonTap = .ok ⟨s', p, [a]⟩ := by
  simp only [paneStep, hd, htap]
  rfl

theorem userChanges_tap {d : δ} {s' : Store} {a : Alert} {x : β} (hd : p.details = some d)
    (htap : C.createButtonTap written d s = .ok (s', a)) (hx : entry a d = some x) :
    userChanges C idOf entry written s p .createButtonTap changes =
      changes.filter (fun y => idOf y ≠ idOf x) ++ [x] := by
  unfold userChanges
  rw [paneStep_tap hd htap, hd]
  simp [hx]

theorem userChanges_delete {row : ℕ} {s' : Store} {rest : List α} {x : α} (hd : p.details = none)
    (hactive : p.isActive = false) (hx : p.filteredResults[row]? = some x)
    (hdelete : C.commitDelete written p.filteredResults row s = .ok (s', rest))
    (hlength : rest.length < p.filteredResults.length) :
    userChanges C idOf entry written s p (.swipeDelete row) changes =
      changes.filter (fun y => idOf y ≠ key x) := by
  have hrow : p.canEditRow ∧ row < p.filteredResults.length :=
    ⟨Pane.canEditRow_iff.mpr hactive, (List.getElem?_eq_some_iff.mp hx).choose⟩
  have h : paneStep C written s p (.swipeDelete row) =
      .ok ⟨s', { p with filteredResults := rest }, []⟩ := by
    simp only [paneStep, hd, if_pos hrow, hdelete]
    rfl
  unfold userChanges
  rw [h, hd]
  simp only [hx]
  exact if_pos hlength

end Changes

/-- A details screen: the edits that its button carries out, the id that it shows, and the record
that is entered on it under this id. -/
structure Editor (α δ ω : Type) where
  controllers : Controllers α δ ω
  changes : TableApp.Changes α δ
  shownId : δ → Option ℤ
  entered : δ → Option α

namespace Editor
variable {α δ ω : Type} [Keyed α ℤ] (K : Editor α δ ω)

/-- The record that the alert reports as written. -/
def reported (a : Alert) (d : δ) : Option α := if a.title = "Success" then K.entered d else none

/-- An update that passes the checks writes the record with the id shown.  Or else the record as
entered under that id is in another row, and the record that it overwrites is not one of the
user's changes, or is in another row too, or is left as it was. -/
def UpdateReflects (s : Store) (d : δ) (changes : List α) : Prop :=
  ∀ row old new, (K.controllers.array s)[row]? = some old →
    K.changes.byButton s d (.update row new) → K.shownId d = some (key old) ∨
      (∀ x, K.entered d = some x → x ∈ (K.controllers.array s).eraseIdx row) ∧
        (old ∈ changes → new = old ∨ old ∈ (K.controllers.array s).eraseIdx row)

def Listed (p : Pane α δ) (changes : List α) : Prop :=
  p.details = none → p.isActive = false → ∀ x ∈ changes, x ∈ p.filteredResults

/-- The user's changes are in the array, and in the list on screen if it can be edited. -/
structure Kept (s : Store) (p : Pane α δ) (changes : List α) : Prop where
  array : ∀ x ∈ changes, x ∈ K.controllers.array s
  list : Listed p changes

structure Lawful : Prop where
  carryOut : K.controllers.CarryOut K.changes
  refuses : ∀ {w d s}, Refuses (K.controllers.createButtonTap w d s)
  button : ∀ {s d e}, K.changes.byButton s d e → (∃ x, e = .create x ∧ K.entered d = some x) ∨
    ∃ row old new, e = .update row new ∧ (K.controllers.array s)[row]? = some old ∧
      key new = key old ∧ (K.shownId d = some (key old) → K.entered d = some new)
  shown : ∀ {d x}, K.entered d = some x → K.shownId d = some (key x)
  delete_ok : ∀ {w filtered row s s' rest},
    K.controllers.commitDelete w filtered row s = .ok (s', rest) →
      K.controllers.array s' = filtered.eraseIdx row ∧ rest = K.controllers.array s'

variable {K} {written : Bool} {s : Store} {p : Pane α δ} {changes : List α}

/-- A tap that finishes reports its success and has carried out the edit that it was asked for. -/
theorem Lawful.tap_ok (L : K.Lawful) {d : δ} {s' : Store} {a : Alert} {e : Edit α}
    (he : K.changes.byButton s d e)
    (htap : K.controllers.createButtonTap written d s = .ok (s', a)) :
    a.title = "Success" ∧ K.controllers.array s' = e.onList (K.controllers.array s) := by
  obtain ⟨-, message, hok⟩ := L.carryOut.button he
  obtain ⟨rfl, rfl⟩ := Prod.mk.inj (Except.ok.inj ((hok written).symm.trans htap))
  exact ⟨rfl, L.carryOut.array⟩

/-- After a reported success the changes are the others and what was entered. -/
theorem Lawful.mem_userChanges_tap (L : K.Lawful) {d : δ} {s' : Store} {a : Alert} {y : α}
    (hd : p.details = some d) (htap : K.controllers.createButtonTap written d s = .ok (s', a)) :
    y ∈ userChanges K.controllers key K.reported written s p .createButtonTap changes ↔
      y ∈ changes ∧ (∀ x, K.entered d = some x → key y ≠ key x) ∨ K.entered d = some y := by
  obtain ⟨e, he⟩ := L.carryOut.button_ok htap
  have hreported : K.reported a d = K.entered d := if_pos (L.tap_ok he htap).1
  cases hx : K.entered d with
  | none =>
    have hnone : ∀ d' b, PaneEvent.createButtonTap (ω := ω) = .createButtonTap →
        p.details = some d' → b ∈ [a] → K.reported b d' = none := by
      intro d' b _ hd' hb
      obtain rfl := Option.some.inj (hd.symm.trans hd')
      rw [List.mem_singleton.mp hb, hreported, hx]
    rw [userChanges_same (paneStep_tap hd htap) hnone fun _ he => by cases he]
    simp
  | some x =>
    have hkey : (∀ z, some x = some z → key y ≠ key z) ↔ key y ≠ key x :=
      ⟨fun h => h x rfl, fun h z hz => Option.some.inj hz ▸ h⟩
    rw [userChanges_tap hd htap (hreported.trans hx), hkey, List.mem_append, List.mem_filter,
      List.mem_singleton, decide_eq_true_iff, Option.some_inj]
    exact or_congr_right eq_comm

theorem Lawful.kept_update_iff (L : K.Lawful) {d : δ} {s' : Store} {a : Alert} {row : ℕ}
    {old new : α} (hk : ∀ x ∈ changes, x ∈ K.controllers.array s) (hd : p.details = some d)
    (hold : (K.controllers.array s)[row]? = some old)
    (hupdate : K.changes.byButton s d (.update row new))
    (htap : K.controllers.createButtonTap written d s = .ok (s', a)) :
    (∀ y ∈ userChanges K.controllers key K.reported written s p .createButtonTap changes,
      y ∈ K.controllers.array s') ↔ K.shownId d = some (key old) ∨
        (∀ x, K.entered d = some x → x ∈ (K.controllers.array s).eraseIdx row) ∧
          (old ∈ changes → new = old ∨ old ∈ (K.controllers.array s).eraseIdx row) := by
  obtain ⟨x, he, -⟩ | ⟨row', old', new', he, hold', hkey, hshown⟩ := L.button hupdate
  · cases he
  obtain ⟨rfl, rfl⟩ := Edit.update.inj he
  obtain rfl := Option.some.inj (hold.symm.trans hold')
  have hrow := (List.getElem?_eq_some_iff.mp hold).choose
  have harray : K.controllers.array s' = (K.controllers.array s).set row new :=
    (L.tap_ok hupdate htap).2
  simp only [L.mem_userChanges_tap hd htap, harray, mem_set_iff hrow]
  by_cases hid : K.shownId d = some (key old)
  · -- what is entered is what the row gets
    have hnew := hshown hid
    refine iff_of_true (fun y hy => ?_) (.inl hid)
    rcases hy with ⟨hy, hne⟩ | hy
    · exact .inr (mem_eraseIdx_of_ne hold (hk y hy) fun h => hne new hnew (h ▸ hkey.symm))
    · exact .inl (Option.some.inj (hy.symm.trans hnew))
  · -- what is entered is not the record of the row, so it has to be in another one
    have hne : ∀ x, K.entered d = some x → key x ≠ key old := fun x hx h => hid (h ▸ L.shown hx)
    constructor
    · refine fun h => .inr ⟨fun x hx => ?_, fun hmem => ?_⟩
      · exact (h x (.inr hx)).resolve_left fun heq => hne x hx (heq ▸ hkey)
      · exact (h old (.inl ⟨hmem, fun x hx => (hne x hx).symm⟩)).imp_left Eq.symm
    · rintro (h | ⟨hentered, hover⟩) y (⟨hy, -⟩ | hy)
      · exact absurd h hid
      · exact absurd h hid
      · by_cases hyold : y = old
        · subst hyold
          exact (hover hy).imp_left Eq.symm
        · exact .inr (mem_eraseIdx_of_ne hold (hk y hy) hyold)
      · exact .inr (hentered y hy)

theorem Lawful.kept_tap_iff (L : K.Lawful) {d : δ} {s' : Store} {a : Alert}
    (hk : ∀ x ∈ changes, x ∈ K.controllers.array s) (hd : p.details = some d)
    (htap : K.controllers.createButtonTap written d s = .ok (s', a)) :
    (∀ x ∈ userChanges K.controllers key K.reported written s p .createButtonTap changes,
      x ∈ K.controllers.array s') ↔ K.UpdateReflects s d changes := by
  refine ⟨fun h row old new hold hupdate =>
    (L.kept_update_iff hk hd hold hupdate htap).mp h, fun h => ?_⟩
  obtain ⟨e, he⟩ := L.carryOut.button_ok htap
  obtain ⟨x, rfl, hx⟩ | ⟨row, old, new, rfl, hold, -, -⟩ := L.button he
  · intro y hy
    rw [(L.tap_ok he htap).2]
    rcases (L.mem_userChanges_tap hd htap).mp hy with ⟨hy, -⟩ | hy
    · exact List.mem_append_left _ (hk y hy)
    · obtain rfl := Option.some.inj (hx.symm.trans hy)
      exact List.mem_append_right _ (List.mem_singleton_self _)
  · exact (L.kept_update_iff hk hd hold he htap).mpr (h row old new hold he)

/-- If every tap that finishes keeps the changes, then it reflects them, which says nothing of a
tap that the checks refuse. -/
theorem Lawful.reflects (L : K.Lawful) {d : δ} (hk : ∀ x ∈ changes, x ∈ K.controllers.array s)
    (hd : p.details = some d)
    (h : ∀ r, paneStep K.controllers written s p .createButtonTap = .ok r →
      ∀ x ∈ userChanges K.controllers key K.reported written s p .createButtonTap changes,
        x ∈ K.controllers.array r.store) : K.UpdateReflects s d changes := by
  intro row old new hold hupdate
  obtain ⟨-, message, hok⟩ := L.carryOut.button hupdate
  have htap := hok written
  exact (L.kept_update_iff hk hd hold hupdate htap).mp (h _ (paneStep_tap hd htap))

theorem Lawful.kept (L : K.Lawful) (hk : K.Kept s p changes) {e : PaneEvent ω}
    {r : PaneResult α δ}
    (hreflects : ∀ d, e = .createButtonTap → p.details = some d → K.UpdateReflects s d changes)
    (h : paneStep K.controllers written s p e = .ok r) :
    K.Kept r.store r.pane
      (userChanges K.controllers key K.reported written s p e changes) := by
  cases paneStep_move h with
  | stay =>
    rw [userChanges_same h (fun _ a _ _ ha => absurd ha List.not_mem_nil) fun _ _ _ => le_rfl]
    exact hk
  | refuse _ a herror =>
    have htitle : ∀ d, p.details = some d → a.title = "Error" :=
      fun d hd => L.refuses _ (herror d hd)
    rw [userChanges_same h (fun d b _ hd hb => ?_) fun _ _ _ => le_rfl]
    · exact hk
    · rw [List.mem_singleton.mp hb]
      exact if_neg (by rw [htitle d hd]; decide)
  | search text hd =>
    rw [userChanges_same h (fun _ _ he => by cases he) fun _ he => by cases he]
    exact ⟨hk.array, fun _ hactive => Bool.noConfusion hactive⟩
  | cancel hd =>
    rw [userChanges_same h (fun _ _ he => by cases he) fun _ he => by cases he]
    exact ⟨hk.array, fun _ _ => hk.array⟩
  | load _ vcMode indexPath now d hd hload =>
    rw [userChanges_same h (fun _ a _ _ ha => absurd ha List.not_mem_nil) fun _ _ _ => le_rfl]
    exact ⟨hk.array, fun hnone => by cases hnone⟩
  | appear d d' hd happear =>
    rw [userChanges_same h (fun _ _ he => by cases he) fun _ he => by cases he]
    exact ⟨hk.array, fun hnone => by cases hnone⟩
  | edit d d' x hd hedit =>
    rw [userChanges_same h (fun _ _ he => by cases he) fun _ he => by cases he]
    exact ⟨hk.array, fun hnone => by cases hnone⟩
  | tap d s' a hd htap =>
    exact ⟨(L.kept_tap_iff hk.array hd htap).mpr (hreflects d rfl hd),
      fun hnone => absurd (hd.symm.trans hnone) (by simp)⟩
  | delete row s' rest hd hactive hrow hdelete =>
    obtain ⟨harray, rfl⟩ := L.delete_ok hdelete
    have hx := List.getElem?_eq_getElem hrow
    have hlength : (K.controllers.array s').length < p.filteredResults.length := by
      rw [harray, List.length_eraseIdx_of_lt hrow]
      omega
    rw [userChanges_delete hd hactive hx hdelete hlength]
    have hmem : ∀ y ∈ changes.filter (fun y => key y ≠ key p.filteredResults[row]),
        y ∈ K.controllers.array s' := by
      intro y hy
      obtain ⟨hy, hne⟩ := List.mem_filter.mp hy
      rw [harray]
      refine mem_eraseIdx_of_ne hx (hk.list hd hactive y hy) ?_
      rintro rfl
      simp at hne
    exact ⟨hmem, fun _ _ => hmem⟩
  | back d hd =>
    rw [userChanges_same h (fun _ _ he => by cases he) fun _ he => by cases he]
    exact ⟨hk.array, fun _ _ => hk.array⟩

end Editor
end Info6350.Assignment10
