import Info6350.Library.Replica
import Info6350.Logistics.Registry

/-! # The database as a copy of the registry

A handler goes on when its write is refused, so the arrays represent a registry in which every
operation is performed, and the tables a copy that executes the accepted ones.  What is said of
these two holds for every app whose steps are legal edits of its store.
-/

namespace Info6350.Logistics
open Library Keyed

section Registry
variable {Item Location LogisticsOrder : Type}

inductive RecordId where
  | item (id : ℤ)
  | location (id : ℤ)
  | order (id : ℤ)

def Registry.SameAt (r r' : Registry Item Location LogisticsOrder) : RecordId → Prop
  | .item id => r.items id = r'.items id
  | .location id => r.locations id = r'.locations id
  | .order id => r.logisticsOrder id = r'.logisticsOrder id

theorem Registry.SameAt.trans {r r' r'' : Registry Item Location LogisticsOrder} {k : RecordId}
    (h : r.SameAt r' k) (h' : r'.SameAt r'' k) : r.SameAt r'' k := by
  cases k <;> exact Eq.trans h h'

theorem Registry.SameAt.symm {r r' : Registry Item Location LogisticsOrder} {k : RecordId}
    (h : r.SameAt r' k) : r'.SameAt r k := by
  cases k <;> exact Eq.symm h

theorem Registry.SameAt.refl (r : Registry Item Location LogisticsOrder) (k : RecordId) :
    r.SameAt r k := by
  cases k <;> rfl

variable [Keyed Item ℤ] [Keyed Location ℤ] [Keyed LogisticsOrder ℤ]

namespace Registry

def send (r : Registry Item Location LogisticsOrder) :
    Command Item Location LogisticsOrder → Registry Item Location LogisticsOrder
  | .items o => { r with items := o.send r.items }
  | .locations o => { r with locations := o.send r.locations }
  | .orders o => { r with logisticsOrder := o.send r.logisticsOrder }

/-- A registry and its copy, which executes the operations that are accepted. -/
def copies : Machine (Registry Item Location LogisticsOrder × Registry Item Location LogisticsOrder)
    (Command Item Location LogisticsOrder × Bool) NotPerformed := fun r c =>
  (step r.1 c.1).map fun registry => (registry, if c.2 then r.2.send c.1 else r.2)

variable {r t : Registry Item Location LogisticsOrder × Registry Item Location LogisticsOrder}
  {c : Command Item Location LogisticsOrder × Bool} {k : RecordId}

/-- An accepted operation leaves the two alike where they were, -/
theorem send_sameAt {registry : Registry Item Location LogisticsOrder}
    (h : step r.1 c.1 = .ok registry) (hk : r.2.SameAt r.1 k) :
    (r.2.send c.1).SameAt registry k := by
  obtain ⟨command, accepted⟩ := c
  cases command with
  | items o =>
    obtain ⟨items, hitems, rfl⟩ := map_ok_iff.mp h
    cases k with
    | item id => exact Operation.send_agrees hitems hk
    | location id => exact hk
    | order id => exact hk
  | locations o =>
    obtain ⟨locations, hlocations, rfl⟩ := map_ok_iff.mp h
    cases k with
    | item id => exact hk
    | location id => exact Operation.send_agrees hlocations hk
    | order id => exact hk
  | orders o =>
    obtain ⟨orders, horders, rfl⟩ := map_ok_iff.mp h
    cases k with
    | item id => exact hk
    | location id => exact hk
    | order id => exact Operation.send_agrees horders hk

/-- and so does a refused one where it changes nothing. -/
theorem copies_sameAt (h : copies r c = .ok t) (hk : r.2.SameAt r.1 k)
    (hc : c.2 = true ∨ t.1.SameAt r.1 k) : t.2.SameAt t.1 k := by
  obtain ⟨registry, hstep, rfl⟩ := map_ok_iff.mp h
  change SameAt (if c.2 then r.2.send c.1 else r.2) registry k
  split_ifs with haccepted
  · exact send_sameAt hstep hk
  · exact hk.trans (hc.resolve_left haccepted).symm

end Registry

/-! ## Stores -/

def Database.registry (db : Database Item Location LogisticsOrder) :
    Registry Item Location LogisticsOrder :=
  .ofArrays db.item.rows db.location.rows db.logisticsorder.rows

def Store.registries (s : Store Item Location LogisticsOrder) :
    Registry Item Location LogisticsOrder × Registry Item Location LogisticsOrder :=
  (s.registry, s.db.registry)

namespace StoreEdit
variable {s : Store Item Location LogisticsOrder} {e : StoreEdit Item Location LogisticsOrder}
  {c : Command Item Location LogisticsOrder}

theorem send_command (hc : e.command s = some c) (written : Bool) :
    (e.apply written s).db.registry = if written then s.db.registry.send c else s.db.registry := by
  cases written with
  | false => cases e <;> rfl
  | true =>
    cases e with
    | items e =>
      obtain ⟨o, ho, rfl⟩ := Option.map_eq_some_iff.mp hc
      exact congrArg (fun items => { s.db.registry with items := items }) (Edit.operation_send ho)
    | locations e =>
      obtain ⟨o, ho, rfl⟩ := Option.map_eq_some_iff.mp hc
      exact congrArg (fun locations => { s.db.registry with locations := locations })
        (Edit.operation_send ho)
    | orders e =>
      obtain ⟨o, ho, rfl⟩ := Option.map_eq_some_iff.mp hc
      exact congrArg (fun orders => { s.db.registry with logisticsOrder := orders })
        (Edit.operation_send ho)

/-- A legal edit is a step of the registry and its copy. -/
theorem copies_command (hs : s.DistinctIds) (he : e.Legal s) (hc : e.command s = some c)
    (written : Bool) :
    Registry.copies s.registries (c, written) = .ok (e.apply written s).registries := by
  have hmemory := step_command hs he hc written
  have hcopy := send_command hc written
  exact map_ok_iff.mpr ⟨_, hmemory, Prod.ext rfl hcopy.symm⟩

theorem apply_of_command_none (he : e.Legal s) (hc : e.command s = none) (written : Bool) :
    e.apply written s = s := by
  cases e with
  | items e =>
    obtain rfl := Edit.eq_keep_of_operation_none he (Option.map_eq_none_iff.mp hc)
    exact apply_keep written s
  | locations e =>
    obtain rfl := Edit.eq_keep_of_operation_none he (Option.map_eq_none_iff.mp hc)
    simp only [apply, Edit.onList, sendEdit_keep]
  | orders e =>
    obtain rfl := Edit.eq_keep_of_operation_none he (Option.map_eq_none_iff.mp hc)
    simp only [apply, Edit.onList, sendEdit_keep]

end StoreEdit

/-! ## Runs -/

section Runs
variable {σ ι τ : Type*} {M : Machine σ ι τ} {store : σ → Store Item Location LogisticsOrder}
  {written : ι → Bool} {I : σ → Prop} {s t : σ} {i : ι} {is : List ι}

/-- Where `I` holds, every step makes a legal edit of the store and sends it to the database. -/
structure Journaled (M : Machine σ ι τ) (store : σ → Store Item Location LogisticsOrder)
    (written : ι → Bool) (I : σ → Prop) : Prop where
  preserves : M.Preserves Machine.AnyStep I
  distinct : ∀ s, I s → (store s).DistinctIds
  edits : ∀ s i t, I s → M s i = .ok t →
    ∃ e : StoreEdit Item Location LogisticsOrder, e.Legal (store s) ∧
      store t = e.apply (written i) (store s)

theorem Journaled.step (J : Journaled M store written I) (hs : I s) (h : M s i = .ok t) :
    store t = store s ∨
      ∃ c, Registry.copies (store s).registries (c, written i) = .ok (store t).registries := by
  obtain ⟨e, he, hstore⟩ := J.edits s i t hs h
  cases hc : e.command (store s) with
  | none => exact .inl (hstore.trans (StoreEdit.apply_of_command_none he hc _))
  | some c => exact .inr ⟨c, hstore ▸ StoreEdit.copies_command (J.distinct s hs) he hc _⟩

/-- A run performs the operations of a journal in memory, and in the database those of them that it
accepts. -/
theorem Journaled.run (J : Journaled M store written I) (hs : I s) (h : M.run s is = .ok t) :
    ∃ journal, Registry.copies.run (store s).registries journal = .ok (store t).registries ∧
      (journal.map Prod.snd).Sublist (is.map written) := by
  induction is generalizing s with
  | nil =>
    obtain rfl := Except.ok.inj h
    exact ⟨[], rfl, List.Sublist.refl _⟩
  | cons i is ih =>
    obtain ⟨m, hm, h⟩ := M.run_cons_eq_ok.mp h
    obtain ⟨journal, hrun, hflags⟩ := ih (J.preserves s i m hs trivial hm) h
    rcases J.step hs hm with hsame | ⟨c, hc⟩
    · exact ⟨journal, hsame ▸ hrun, hflags.cons _⟩
    · exact ⟨(c, written i) :: journal, Registry.copies.run_cons_eq_ok.mpr ⟨_, hc, hrun⟩,
        hflags.cons_cons _⟩

/-- A step that does not change a record in memory, or whose write is accepted. -/
def AcceptsAt (M : Machine σ ι τ) (store : σ → Store Item Location LogisticsOrder)
    (written : ι → Bool) (k : RecordId) (s : σ) (i : ι) : Prop :=
  written i = true ∨ ∀ t, M s i = .ok t → (store t).registry.SameAt (store s).registry k

/-- As long as the writes that concern a record are accepted, the database holds it as memory
does, whatever happens to the writes of the others. -/
theorem Journaled.run_sameAt (J : Journaled M store written I) (hs : I s) {k : RecordId}
    (hk : (store s).db.registry.SameAt (store s).registry k)
    (his : M.Meets (AcceptsAt M store written k) s is) (h : M.run s is = .ok t) :
    (store t).db.registry.SameAt (store t).registry k := by
  have hstep : M.Preserves (AcceptsAt M store written k) fun s =>
      I s ∧ (store s).db.registry.SameAt (store s).registry k := by
    intro s i t hst hi h
    refine ⟨J.preserves s i t hst.1 trivial h, ?_⟩
    rcases J.step hst.1 h with hsame | ⟨c, hc⟩
    · exact hsame ▸ hst.2
    · exact Registry.copies_sameAt hc hst.2 (hi.imp_right fun hi => hi t h)
  exact (hstep.run ⟨hs, hk⟩ his h).2

end Runs
end Registry
end Info6350.Logistics
