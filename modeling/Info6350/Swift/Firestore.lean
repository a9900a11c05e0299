import Info6350.Library.Machine
import Info6350.Library.Table
import Mathlib.Data.List.Sort

/-! # Collections of documents

A document has named fields, and a collection has at most one document with an id.  A query
returns the documents that have the fields it orders by and the values it filters for,
ordered by these fields and then by the ids.
-/

namespace Info6350.Swift.Firestore
open Library Keyed

/-- The values of fields, in the order in which values of different types sort. -/
inductive Value where
  | null
  | timestamp (t : ℤ)
  | string (s : String)
deriving DecidableEq, Repr, Ord

/-- What a write sends for a field: a value or `FieldValue.serverTimestamp()`. -/
inductive FieldValue where
  | value (v : Value)
  | serverTimestamp
deriving DecidableEq, Repr

abbrev Data := List (String × FieldValue)

/-- The values that a write at the time `now` stores. -/
def Data.resolve (now : ℤ) (data : Data) : List (String × Value) :=
  data.map fun
    | (name, .value v) => (name, v)
    | (name, .serverTimestamp) => (name, .timestamp now)

/-- The first entry of a field is its value.  The version is the number of the write that last
wrote the document, among the writes to its collection. -/
structure Document where
  id : String
  fields : List (String × Value)
  version : ℕ
deriving DecidableEq, Repr

instance : Keyed Document String := ⟨Document.id⟩

@[simp] theorem key_document (d : Document) : key d = d.id := rfl

namespace Document

def field (name : String) (d : Document) : Option Value := d.fields.lookup name

theorem field_of_append {name : String} {d old : Document} {data : List (String × Value)}
    (h : d.fields = data ++ old.fields) :
    d.field name = (data.lookup name).or (old.field name) := by
  rw [field, h, List.lookup_append]
  rfl

/-- A field that is decoded as a `String`. -/
def string? (name : String) (d : Document) : Option String :=
  match d.field name with
  | some (.string s) => some s
  | _ => none

/-- A field that is decoded as a `ServerTimestamp`: it must be there, and is nil when null. -/
def serverTimestamp? (name : String) (d : Document) : Option (Option ℤ) :=
  match d.field name with
  | some .null => some none
  | some (.timestamp t) => some (some t)
  | _ => none

end Document

structure Collection where
  documents : Table Document
  version : ℕ

/-- `document(documentID)` with `setData`, `updateData` and `delete()`.  `addDocument(data:)` is
`setData` at an id that is generated. -/
inductive Write where
  | setData (documentID : String) (data : Data)
  | updateData (documentID : String) (data : Data)
  | delete (documentID : String)

namespace Collection

def empty : Collection := ⟨.empty, 0⟩

def put (documentID : String) (fields : List (String × Value)) (c : Collection) : Collection :=
  ⟨c.documents.save ⟨documentID, fields, c.version + 1⟩, c.version + 1⟩

/-- A write that is accepted at the time `now`.  An update fails when there is no document. -/
def commit (now : ℤ) (c : Collection) : Write → Except RecordNotFound Collection
  | .setData documentID data => .ok (c.put documentID (data.resolve now))
  | .updateData documentID data => match lookup c.documents.rows documentID with
    | some d => .ok (c.put documentID (data.resolve now ++ d.fields))
    | none => .error .recordNotFound
  | .delete documentID => .ok ⟨c.documents.deleteOne documentID, c.version + 1⟩

/-- The writes to a collection, one after another; one that fails changes nothing. -/
def step : Machine Collection (ℤ × Write) Empty := fun c w =>
  match c.commit w.1 w.2 with
  | .ok c' => .ok c'
  | .error _ => .ok c

theorem mem_step {c c' : Collection} {w : ℤ × Write} (h : step c w = .ok c') {d : Document}
    (hd : d ∈ c'.documents.rows) : d ∈ c.documents.rows ∨
      (∃ documentID data, w.2 = .setData documentID data ∧ d.fields = Data.resolve w.1 data) ∨
      ∃ documentID data, w.2 = .updateData documentID data ∧
        ∃ old ∈ c.documents.rows, d.fields = Data.resolve w.1 data ++ old.fields := by
  obtain ⟨now, w⟩ := w
  cases w with
  | setData documentID data =>
    obtain rfl := Except.ok.inj h
    rcases Table.mem_save.mp hd with rfl | ⟨hd, -⟩
    · exact .inr (.inl ⟨documentID, data, rfl, rfl⟩)
    · exact .inl hd
  | updateData documentID data =>
    simp only [step, commit] at h
    split at h
    case h_1 c'' hcommit =>
      split at hcommit
      case h_1 old hold =>
        obtain rfl := Except.ok.inj h
        obtain rfl := Except.ok.inj hcommit
        rcases Table.mem_save.mp hd with rfl | ⟨hd, -⟩
        · exact .inr (.inr ⟨documentID, data, rfl, old, (lookup_some hold).1, rfl⟩)
        · exact .inl hd
      case h_2 => cases hcommit
    case h_2 =>
      obtain rfl := Except.ok.inj h
      exact .inl hd
  | delete documentID =>
    obtain rfl := Except.ok.inj h
    exact .inl (Table.mem_deleteOne.mp hd).1

/-- A property that the written documents have holds of all documents of a collection. -/
theorem step_preserves_documents {W : Write → Prop} {P : Document → Prop}
    (hset : ∀ now documentID data d, W (.setData documentID data) →
      d.fields = Data.resolve now data → P d)
    (hupdate : ∀ now documentID data old d, W (.updateData documentID data) → P old →
      d.fields = Data.resolve now data ++ old.fields → P d) :
    step.Preserves (fun _ w => W w.2) fun c => ∀ d ∈ c.documents.rows, P d := by
  intro c w c' hc hw h d hd
  rcases mem_step h hd with hd | ⟨documentID, data, hset', hfields⟩ |
    ⟨documentID, data, hupdate', old, hold, hfields⟩
  · exact hc d hd
  · exact hset w.1 documentID data d (hset' ▸ hw) hfields
  · exact hupdate w.1 documentID data old d (hupdate' ▸ hw) (hc old hold) hfields

end Collection

/-! ## Queries -/

/-- The filters `isEqualTo` and the fields to order by, each with whether it is descending. -/
structure Query where
  filters : List (String × Value) := []
  explicitOrderBys : List (String × Bool) := []

namespace Query

def whereField (field : String) (isEqualTo : Value) (q : Query) : Query :=
  { q with filters := q.filters ++ [(field, isEqualTo)] }

def order (field : String) (descending : Bool) (q : Query) : Query :=
  { q with explicitOrderBys := q.explicitOrderBys ++ [(field, descending)] }

def matchesOrderBy (q : Query) (d : Document) : Prop :=
  ∀ o ∈ q.explicitOrderBys, (d.field o.1).isSome

def matchesFilters (q : Query) (d : Document) : Prop :=
  ∀ f ∈ q.filters, d.field f.1 = some f.2

instance (q : Query) (d : Document) : Decidable (q.matchesOrderBy d) :=
  inferInstanceAs (Decidable (∀ o ∈ q.explicitOrderBys, _))

instance (q : Query) (d : Document) : Decidable (q.matchesFilters d) :=
  inferInstanceAs (Decidable (∀ f ∈ q.filters, _))

/-- `Direction::ApplyTo`. -/
def applyTo (descending : Bool) (o : Ordering) : Ordering := if descending then o.swap else o

/-- The documents in order: by the fields, then by the ids in the direction of the last field. -/
def comparator (q : Query) (d d' : Document) : Ordering :=
  let descending := (q.explicitOrderBys.getLast?.map Prod.snd).getD false
  let compareField (o : String × Bool) := applyTo o.2 (compare (d.field o.1) (d'.field o.1))
  q.explicitOrderBys.foldr (fun o rest => (compareField o).then rest)
    (applyTo descending (compare d.id d'.id))

def getDocuments (q : Query) (c : Collection) : List Document :=
  (c.documents.rows.filter fun d => q.matchesOrderBy d ∧ q.matchesFilters d).insertionSort
    fun d d' => q.comparator d d' ≠ .gt

theorem mem_getDocuments {q : Query} {c : Collection} {d : Document} :
    d ∈ q.getDocuments c ↔ d ∈ c.documents.rows ∧ q.matchesOrderBy d ∧ q.matchesFilters d := by
  simp [getDocuments]

/-- A filter for a field that no document has returns nothing. -/
theorem getDocuments_eq_nil {q : Query} {c : Collection} {f : String × Value}
    (hf : f ∈ q.filters) (hc : ∀ d ∈ c.documents.rows, d.field f.1 = none) :
    q.getDocuments c = [] := by
  rw [List.eq_nil_iff_forall_not_mem]
  intro d hd
  obtain ⟨hd, -, hfilters⟩ := mem_getDocuments.mp hd
  have hfield := hfilters f hf
  rw [hc d hd] at hfield
  cases hfield

end Query
end Info6350.Swift.Firestore
