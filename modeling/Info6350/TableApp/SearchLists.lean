import Info6350.TableApp.Invariants

/-! # What the lists show

The text that is searched for goes along with the app: a search notes it, and Cancel and every
appearance of a list forget it.  Deletes are possible only while the list shows everything, so the
rows are always those that the text finds among the records stored now.
-/

namespace Info6350.TableApp
open Library Swift Logistics

section Pane
variable {α δ ω : Type} (C : Controllers α δ ω)

/-- The records that a text finds; without a search, and with an empty text, all of them. -/
def Controllers.found (s : Store) (text : Option String) : List α :=
  (C.array s).filter fun x =>
    match text with
    | some text => text.isEmpty || C.matchesText text x
    | none => true

@[simp] theorem Controllers.found_none (s : Store) : C.found s none = C.array s := by
  simp [found]

theorem Controllers.found_some (s : Store) (text : String) :
    C.found s (some text) =
      if text.isEmpty then C.array s else (C.array s).filter (C.matchesText text) := by
  by_cases htext : text.isEmpty <;> simp [found, htext]

def typedText (p : Pane α δ) (e : PaneEvent ω) (text : Option String) : Option String :=
  match p.details, e with
  | none, .search text => some text
  | none, .cancelSearch => none
  | some _, .back => none
  | _, _ => text

/-- A list on top shows what the text finds, and its rows can be deleted only when there is no
text. -/
def Pane.ShowsFound (s : Store) (p : Pane α δ) (text : Option String) : Prop :=
  p.details = none → p.filteredResults = C.found s text ∧ (p.canEditRow = true → text = none)

variable {C}

theorem Pane.showsFound_details {s : Store} {p : Pane α δ} {d : δ} {text : Option String}
    (hd : p.details = some d) : p.ShowsFound C s text := by
  intro hnone
  rw [hd] at hnone
  cases hnone

theorem Pane.showsFound_array (s : Store) (isActive : Bool) :
    Pane.ShowsFound C s ⟨C.array s, isActive, none⟩ none :=
  fun _ => ⟨(C.found_none s).symm, fun _ => rfl⟩

theorem Pane.showsFound_searched {s : Store} {p : Pane α δ} (text : String) :
    (p.searched C text s).ShowsFound C s (some text) := by
  intro hd
  refine ⟨(C.found_some s text).symm, fun hedit => ?_⟩
  simp [Pane.canEditRow, Pane.searched] at hedit

theorem paneStep_showsFound {R : Changes α δ} (K : C.CarryOut R) {written : Bool} {s : Store}
    {p : Pane α δ} {e : PaneEvent ω} {r : PaneResult α δ} {text : Option String}
    (hp : p.ShowsFound C s text) (h : paneStep C written s p e = .ok r) :
    r.pane.ShowsFound C r.store (typedText p e text) := by
  obtain ⟨filtered, isActive, details⟩ := p
  cases details with
  | none =>
    cases e with
    | search text => exact Except.ok.inj h ▸ Pane.showsFound_searched text
    | cancelSearch => exact Except.ok.inj h ▸ Pane.showsFound_array s false
    | addTapped now =>
      obtain ⟨d, -, rfl⟩ := Pane.push_ok_iff.mp h
      exact Pane.showsFound_details rfl
    | didSelectRow row now =>
      simp only [paneStep] at h
      split_ifs at h
      · obtain ⟨d, -, rfl⟩ := Pane.push_ok_iff.mp h
        exact Pane.showsFound_details rfl
      · exact Except.ok.inj h ▸ hp
    | swipeDelete row =>
      simp only [paneStep] at h
      split_ifs at h with hrow
      · rcases settle_ok h with ⟨⟨s', rest⟩, hdelete, rfl⟩ | ⟨alerts, rfl⟩
        · -- the row is one of the whole array, of which the rest is shown
          obtain ⟨rfl, hnone⟩ := hp rfl
          obtain rfl := hnone hrow.1
          rw [C.found_none] at hdelete
          obtain ⟨-, -, rfl⟩ := K.delete_ok hdelete
          exact Pane.showsFound_array s' isActive
        · exact hp
      · exact Except.ok.inj h ▸ hp
    | edit x => exact Except.ok.inj h ▸ hp
    | createButtonTap => exact Except.ok.inj h ▸ hp
    | reappear => exact Except.ok.inj h ▸ hp
    | back => exact Except.ok.inj h ▸ hp
  | some d =>
    cases e with
    | edit x =>
      obtain ⟨d', -, h⟩ := bind_ok_iff.mp h
      obtain rfl := pure_ok_iff.mp h
      exact Pane.showsFound_details rfl
    | createButtonTap =>
      rcases settle_ok h with ⟨a, -, rfl⟩ | ⟨alerts, rfl⟩ <;> exact Pane.showsFound_details rfl
    | reappear =>
      obtain ⟨d', -, rfl⟩ := Pane.push_ok_iff.mp h
      exact Pane.showsFound_details rfl
    | back => exact Except.ok.inj h ▸ Pane.showsFound_array s isActive
    | _ => exact Except.ok.inj h ▸ Pane.showsFound_details rfl

end Pane

/-! ## Runs -/

section App
variable (P : Platform) (edition : Edition)

/-- The text after an input; the main menu has none. -/
def recordText (st : AppState) (i : Input) (_ : AppState) (text : Option String) : Option String :=
  match st.screen, i.event with
  | .main, _ => none
  | .items p, .items e => typedText p e text
  | .locations p, .locations e => typedText p e text
  | .orders p, .orders e => typedText p e text
  | _, _ => text

/-- The list on top shows what the text finds. -/
def AppState.ShowsFound (st : AppState) (text : Option String) : Prop :=
  match st.screen with
  | .main => True
  | .items p => p.ShowsFound (itemControllers P) st.store text
  | .locations p => p.ShowsFound (locationControllers P) st.store text
  | .orders p => p.ShowsFound (orderControllers P edition) st.store text

theorem step_preserves_showsFound :
    ((step P edition).withHistory recordText).Preserves Machine.AnyStep
      fun st => st.1.ShowsFound P edition st.2 := by
  rintro ⟨⟨s, screen, alerts⟩, text⟩ ⟨e, written⟩ ⟨st', text'⟩ hshows - h
  obtain ⟨hstep, htext⟩ := ((step P edition).withHistory_ok_iff recordText).mp h
  dsimp only at hstep htext
  subst htext
  cases step_move hstep with
  | openItems => exact Pane.showsFound_array s false
  | openLocations => exact Pane.showsFound_array s false
  | openOrders => exact Pane.showsFound_array s false
  | items p e r hr => exact paneStep_showsFound (itemControllers_carryOut P) hshows hr
  | locations p e r hr => exact paneStep_showsFound (locationControllers_carryOut P) hshows hr
  | orders p e r hr => exact paneStep_showsFound (orderControllers_carryOut P edition) hshows hr
  | leave => trivial
  | stay _ _ hi hl ho =>
    cases screen with
    | main => trivial
    | items p =>
      cases e with
      | items x => exact absurd rfl (hi p x rfl)
      | _ => exact hshows
    | locations p =>
      cases e with
      | locations x => exact absurd rfl (hl p x rfl)
      | _ => exact hshows
    | orders p =>
      cases e with
      | orders x => exact absurd rfl (ho p x rfl)
      | _ => exact hshows

theorem showsFound_atMenu (s : Store) : (AppState.atMenu s).ShowsFound P edition none := trivial

/-- In every run the rows of the list on top are the records that the text finds in the array. -/
theorem run_showsFound {s : Store} {inputs : List Input} {st : AppState} {text : Option String}
    (h : ((step P edition).withHistory recordText).run (AppState.atMenu s, none) inputs =
      .ok (st, text)) : st.ShowsFound P edition text :=
  (step_preserves_showsFound P edition).run_any (showsFound_atMenu P edition s) h

/-- Search for the chair, open it and come back: the list shows both items, and the search is still
active. -/
def Sample.searchAndBack : List Input :=
  [⟨.openItems, true⟩, ⟨.items (.search "chair"), true⟩, ⟨.items (.didSelectRow 0 0), true⟩,
    ⟨.items .back, true⟩]

theorem run_showsFound_searchAndBack : ∃ st text,
    ((step Platform.ascii .assignment9).withHistory recordText).run
        (AppState.atMenu (generateDummyData Sample.database), none) Sample.searchAndBack =
      .ok (st, text) ∧ text = none ∧ st.ShowsFound Platform.ascii .assignment9 text :=
  ⟨_, _, rfl, rfl, @run_showsFound Platform.ascii .assignment9
    (generateDummyData Sample.database) Sample.searchAndBack _ _ rfl⟩

end App
end Info6350.TableApp
