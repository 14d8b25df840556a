import Cyclers.WebTransport.Source
import Mathlib.Data.Int.Notation

/-!
# Send orders

A send order is a `u32` that two conversions and the default build.  The conversions give only
numbers that an `i32` has as well, and so a stream that is created can be given its send order as
its priority.
-/

namespace Cyclers

namespace WebTransport

/-- The error of a conversion between integers. -/
inductive TryFromIntError where
  | mk
  deriving DecidableEq

/-- The `i32` that a number is. -/
def i32TryFrom (n : ℤ) : Except TryFromIntError Int32 :=
  if -2147483648 ≤ n ∧ n ≤ 2147483647 then .ok (Int32.ofInt n) else .error .mk

/-- The `u32` that a number is. -/
def u32TryFrom (n : ℤ) : Except TryFromIntError UInt32 :=
  if 0 ≤ n ∧ n ≤ 4294967295 then .ok (UInt32.ofNat n.toNat) else .error .mk

theorem i32TryFrom_eq_ok {n : ℤ} {p : Int32} :
  i32TryFrom n = .ok p ↔ p.toInt = n
  := by
  have hle := p.le_toInt
  have hlt := p.toInt_lt
  rw [i32TryFrom]
  constructor
  · intro h
    split at h
    · cases h
      apply Int32.toInt_ofInt_of_le <;> omega
    · cases h
  · rintro rfl
    rw [if_pos (by omega), Int32.ofInt_toInt]

theorem u32TryFrom_eq_ok {n : ℤ} {order : UInt32} :
  u32TryFrom n = .ok order ↔ order.toNat = n
  := by
  have hlt := order.toNat_lt
  rw [u32TryFrom]
  constructor
  · intro h
    split at h
    · cases h
      rw [UInt32.toNat_ofNat_of_lt' (by rw [UInt32.size]; omega)]
      omega
    · cases h
  · rintro rfl
    rw [if_pos (by omega), Int.toNat_natCast, UInt32.ofNat_toNat]

namespace SendOrder

/-- The send order that a `u32` is, if it is one, with what the conversion unwraps: `none` when
there is nothing to unwrap. -/
def tryFromU32 (value : UInt32) : Option (Except TryFromIntError UInt32) :=
  match i32TryFrom value.toNat with
  | .error err => some (.error err)
  | .ok n =>
      match u32TryFrom n.toInt with
      | .ok order => some (.ok order)
      | .error _ => none

/-- The send order that an `i32` is, if it is one. -/
def tryFromI32 (value : Int32) : Except TryFromIntError UInt32 :=
  u32TryFrom value.toInt

/-- The default send order. -/
def default : UInt32 := 0

/-- A send order is built from a number. -/
inductive Built : UInt32 → ℤ → Prop where
  | u32 (value order : UInt32) : tryFromU32 value = some (.ok order) → Built order value.toNat
  | i32 (value : Int32) (order : UInt32) : tryFromI32 value = .ok order → Built order value.toInt
  | default : Built default 0

/-- The conversion of a `u32` has what it unwraps. -/
theorem tryFromU32_ne_none (value : UInt32) :
  tryFromU32 value ≠ none
  := by
  rw [tryFromU32]
  split
  · simp
  · rename_i n hn
    rw [u32TryFrom_eq_ok.mpr (i32TryFrom_eq_ok.mp hn).symm]
    simp

/-- A send order is the number that it is built from, which an `i32` has. -/
theorem Built.toNat_eq {order : UInt32} {n : ℤ} (h : Built order n) :
  (order.toNat : ℤ) = n ∧ order.toNat ≤ 2147483647
  := by
  cases h with
  | u32 value order h =>
      rw [tryFromU32] at h
      split at h
      · cases h
      · rename_i p hp
        rw [u32TryFrom_eq_ok.mpr (i32TryFrom_eq_ok.mp hp).symm] at h
        cases h
        have hlt := p.toInt_lt
        have hval := i32TryFrom_eq_ok.mp hp
        omega
  | i32 value order h =>
      have hval := u32TryFrom_eq_ok.mp h
      have hlt := value.toInt_lt
      omega
  | default => exact ⟨rfl, Nat.zero_le _⟩

/-- A send order that is built is one that fits in an `i32`. -/
theorem Built.le {order : UInt32} {n : ℤ} (h : Built order n) :
  order ≤ maxSendOrder
  := by
  rw [UInt32.le_iff_toNat_le]
  exact h.toNat_eq.2

/-- What a stream that is opened is given as its priority: nothing, or an `i32`, or the conversion
to it fails, which is a panic. -/
inductive Priority where
  | unset
  | set : Int32 → Priority
  | panicked
  deriving DecidableEq

/-- The priority of a stream with a send order. -/
def priority (order : UInt32) : Priority :=
  if 0 < order then
    match i32TryFrom order.toNat with
    | .ok n => .set n
    | .error _ => .panicked
  else .unset

/-- The conversion to an `i32` fails for the send orders that do not fit in one. -/
theorem priority_eq_panicked_iff {order : UInt32} :
  priority order = .panicked ↔ ¬ order ≤ maxSendOrder
  := by
  have hmax : maxSendOrder.toNat = 2147483647 := rfl
  rw [UInt32.le_iff_toNat_le, hmax, priority]
  split
  · split
    · rename_i p hp
      have hval := i32TryFrom_eq_ok.mp hp
      have hlt := p.toInt_lt
      exact iff_of_false Priority.noConfusion (by omega)
    · rename_i err herr
      apply iff_of_true rfl
      intro hle
      rw [i32TryFrom, if_pos (by omega)] at herr
      cases herr
  · rename_i hzero
    rw [UInt32.lt_iff_toNat_lt, UInt32.toNat_zero] at hzero
    exact iff_of_false Priority.noConfusion (by omega)

/-- The priority is the number that the send order is built from.  It is not set when this is
zero. -/
theorem Built.priority_eq {order : UInt32} {n : ℤ} (h : Built order n) :
  n = 0 ∧ priority order = .unset ∨ ∃ p, priority order = .set p ∧ p.toInt = n
  := by
  obtain ⟨hval, hle⟩ := h.toNat_eq
  rw [priority]
  split
  · right
    rw [i32TryFrom, if_pos (by omega)]
    refine ⟨_, rfl, ?_⟩
    rw [Int32.toInt_ofInt_of_le (by omega) (by omega), hval]
  · left
    rename_i hzero
    rw [UInt32.lt_iff_toNat_lt, UInt32.toNat_zero] at hzero
    exact ⟨by omega, rfl⟩

end SendOrder

end WebTransport

end Cyclers
