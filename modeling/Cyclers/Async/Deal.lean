import Mathlib.Data.List.Basic

/-!
# Dealing out

The items of a list are dealt out one by one, each to one owner.  `dealt owners items j` are those
that `j` gets when `owners` tells who gets each of the first items, in their order.
-/

namespace Async

universe u v

variable {κ : Type u} {α : Type v} [DecidableEq κ]

/-- The items that `j` gets. -/
def dealt : List κ → List α → κ → List α
  | i :: owners, a :: items, j =>
      if i = j then a :: dealt owners items j else dealt owners items j
  | _, _, _ => []

@[simp]
theorem dealt_nil (items : List α) (j : κ) :
  dealt [] items j = []
  := by
  unfold dealt
  rfl

/-- What comes after the items that have been dealt out does not matter. -/
theorem dealt_append {owners : List κ} {items : List α} (h : owners.length ≤ items.length)
    (items' : List α) (j : κ) :
  dealt owners (items ++ items') j = dealt owners items j
  := by
  induction owners generalizing items with
  | nil => rw [dealt_nil, dealt_nil]
  | cons i owners ih =>
      cases items with
      | nil => cases h
      | cons a items =>
          rw [List.cons_append, dealt, dealt, ih (Nat.le_of_succ_le_succ h)]

/-- One more item is dealt out. -/
theorem dealt_concat {owners : List κ} {items : List α} {a : α}
    (h : items[owners.length]? = some a) (i j : κ) :
  dealt (owners ++ [i]) items j = dealt owners items j ++ if i = j then [a] else []
  := by
  induction owners generalizing items with
  | nil =>
      cases items with
      | nil => cases h
      | cons b items =>
          obtain rfl : b = a := Option.some.inj h
          rw [List.nil_append, dealt, dealt_nil, dealt_nil, List.nil_append]
  | cons k owners ih =>
      cases items with
      | nil => cases h
      | cons b items =>
          rw [List.cons_append, dealt, dealt, ih h]
          split <;> rfl

/-- Who is not an owner gets nothing. -/
theorem dealt_of_notMem {owners : List κ} {j : κ} (h : j ∉ owners) (items : List α) :
  dealt owners items j = []
  := by
  induction owners generalizing items with
  | nil => rw [dealt_nil]
  | cons i owners ih =>
      rw [List.mem_cons, not_or] at h
      cases items with
      | nil =>
          unfold dealt
          rfl
      | cons a items => rw [dealt, if_neg fun hi => h.1 hi.symm, ih h.2]

end Async
