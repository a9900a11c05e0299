import Info6350.Swift.Basic

/-! # The total of an order

`getOrderTotal(items:)` is the same loop in every controller that has it.  It multiplies
and adds in 64-bit arithmetic, so it can trap on overflow.
-/

namespace Info6350.Logistics
open Library Swift

/-- What `getOrderTotal` reads of a line: the quantity and the value of the item. -/
class OrderLine (α : Type) where
  quantity : α → ℤ
  value : α → ℤ

variable {α : Type} [OrderLine α]

/-- The loop, from the total reached so far. -/
def addTotal : ℤ → List α → Except Trap ℤ
  | total, [] => .ok total
  | total, item :: items => do
    let val ← mulInt (OrderLine.quantity item) (OrderLine.value item)
    let total ← addInt total val
    addTotal total items

def getOrderTotal (items : List α) : Except Trap ℤ := addTotal 0 items

/-- The sum that the loop computes when nothing overflows. -/
def orderSum (items : List α) : ℤ :=
  (items.map fun i => OrderLine.quantity i * OrderLine.value i).sum

theorem addTotal_ok {total n : ℤ} {items : List α} (h : addTotal total items = .ok n) :
    n = total + orderSum items := by
  induction items generalizing total with
  | nil =>
    rw [addTotal, Except.ok.injEq] at h
    simp [orderSum, ← h]
  | cons i items ih =>
    rw [addTotal, bind_ok_iff] at h
    obtain ⟨val, hval, h⟩ := h
    obtain ⟨t, ht, h⟩ := bind_ok_iff.mp h
    obtain ⟨_, rfl⟩ := mulInt_ok_iff.mp hval
    obtain ⟨_, rfl⟩ := addInt_ok_iff.mp ht
    rw [ih h]
    simp only [orderSum, List.map_cons, List.sum_cons]
    ring

theorem getOrderTotal_ok {n : ℤ} {items : List α} (h : getOrderTotal items = .ok n) :
    n = orderSum items := by
  rw [addTotal_ok h, zero_add]

theorem addTotal_append (total : ℤ) (items : List α) (item : α) :
    addTotal total (items ++ [item]) = addTotal total items >>= fun n => addTotal n [item] := by
  induction items generalizing total with
  | nil => rfl
  | cons i items ih =>
    rw [List.cons_append, addTotal, addTotal, bind_assoc]
    refine bind_congr fun val => ?_
    rw [bind_assoc]
    exact bind_congr fun t => ih t

theorem addTotal_singleton {total n : ℤ} {item : α} :
    addTotal total [item] = .ok n ↔ InRange (OrderLine.quantity item * OrderLine.value item) ∧
      InRange (total + OrderLine.quantity item * OrderLine.value item) ∧
      n = total + OrderLine.quantity item * OrderLine.value item := by
  simp only [addTotal, bind_ok_iff, mulInt_ok_iff, addInt_ok_iff, Except.ok.injEq]
  constructor
  · rintro ⟨val, ⟨hval, rfl⟩, t, ⟨hadd, rfl⟩, rfl⟩
    exact ⟨hval, hadd, rfl⟩
  · rintro ⟨hval, hadd, rfl⟩
    exact ⟨_, ⟨hval, rfl⟩, _, ⟨hadd, rfl⟩, rfl⟩

theorem getOrderTotal_singleton {n : ℤ} {item : α} :
    getOrderTotal [item] = .ok n ↔ InRange (OrderLine.quantity item * OrderLine.value item) ∧
      n = OrderLine.quantity item * OrderLine.value item := by
  rw [getOrderTotal, addTotal_singleton, zero_add]
  exact ⟨fun h => ⟨h.1, h.2.2⟩, fun h => ⟨h.1, h.1, h.2⟩⟩

theorem addTotal_error {total : ℤ} {items : List α} {t : Trap}
    (h : addTotal total items = .error t) : t = .overflow := by
  induction items generalizing total with
  | nil => cases h
  | cons i items ih =>
    rcases bind_error_iff.mp h with h | ⟨val, _, h⟩
    · exact checked_error h
    · rcases bind_error_iff.mp h with h | ⟨_, _, h⟩
      · exact checked_error h
      · exact ih h

theorem addTotal_cons_overflow_iff {total : ℤ} {item : α} {items : List α} :
    addTotal total (item :: items) = .error .overflow ↔
      let val := OrderLine.quantity item * OrderLine.value item
      ¬ InRange val ∨ ¬ InRange (total + val) ∨ addTotal (total + val) items = .error .overflow := by
  dsimp only
  rw [addTotal, bind_error_iff, mulInt, checked_overflow_iff]
  by_cases hval : InRange (OrderLine.quantity item * OrderLine.value item)
  · rw [checked_ok_iff.mpr ⟨hval, rfl⟩]
    simp only [Except.ok.injEq, exists_eq_left', bind_error_iff, addInt, checked_overflow_iff,
      checked_ok_iff, hval, not_true, false_or]
    by_cases hadd : InRange (total + OrderLine.quantity item * OrderLine.value item)
    · simp [hadd]
    · simp [hadd]
  · simp [hval]

/-- Where no line counts negative, the loop overflows exactly when the sum is too large. -/
theorem addTotal_overflow_iff {total : ℤ} {items : List α} (htotal : 0 ≤ total)
    (hlt : total < 2 ^ 63) (h : ∀ i ∈ items, 0 ≤ OrderLine.quantity i * OrderLine.value i) :
    addTotal total items = .error .overflow ↔ 2 ^ 63 ≤ total + orderSum items := by
  induction items generalizing total with
  | nil =>
    refine iff_of_false (fun h => by cases h) (not_le.mpr ?_)
    simpa [orderSum] using hlt
  | cons i items ih =>
    have hi : 0 ≤ OrderLine.quantity i * OrderLine.value i := h i List.mem_cons_self
    have hitems : ∀ j ∈ items, 0 ≤ OrderLine.quantity j * OrderLine.value j :=
      fun j hj => h j (List.mem_cons_of_mem _ hj)
    have hrest : 0 ≤ orderSum items := List.sum_nonneg fun n hn => by
      obtain ⟨j, hj, rfl⟩ := List.mem_map.mp hn
      exact hitems j hj
    have hsum : orderSum (i :: items) =
        OrderLine.quantity i * OrderLine.value i + orderSum items := by simp [orderSum]
    rw [hsum, ← add_assoc, addTotal_cons_overflow_iff]
    dsimp only
    generalize OrderLine.quantity i * OrderLine.value i = val at hi ⊢
    by_cases hfits : total + val < 2 ^ 63
    · have hval : InRange val := ⟨by omega, by omega⟩
      have hadd : InRange (total + val) := ⟨by omega, hfits⟩
      rw [or_iff_right (not_not.mpr hval), or_iff_right (not_not.mpr hadd)]
      exact ih (by omega) hfits hitems
    · exact iff_of_true (.inr (.inl fun hadd => hfits hadd.2)) (by omega)

end Info6350.Logistics
