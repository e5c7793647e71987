import Mathlib.Algebra.Order.Ring.Nat

namespace VideoAdapter.Lib

-- The age of a stamp as C computes it from two 64-bit ticks, compared with a limit.
def overdue (limit : Nat) (stamp cur : UInt64) : Bool := decide ((cur - stamp).toNat > limit)

-- More than the limit lies between the stamp and the sample.
def Passed (limit : Nat) (stamp cur : UInt64) : Prop := stamp.toNat + limit < cur.toNat

-- The difference does not wrap to a large age: the stamp is not the later one, unless it is so far
-- ahead that the difference wraps all the way round.
def InOrder (limit : Nat) (stamp cur : UInt64) : Prop :=
  stamp ≤ cur ∨ 2 ^ 64 ≤ limit + (stamp.toNat - cur.toNat)

instance (limit : Nat) (stamp cur : UInt64) : Decidable (Passed limit stamp cur) :=
  inferInstanceAs (Decidable (_ < _))

instance (limit : Nat) (stamp cur : UInt64) : Decidable (InOrder limit stamp cur) :=
  inferInstanceAs (Decidable (_ ∨ _))

theorem overdue_iff_passed {limit : Nat} {stamp cur : UInt64} (h : stamp ≤ cur) :
    overdue limit stamp cur = true ↔ Passed limit stamp cur := by
  have hle : stamp.toNat ≤ cur.toNat := UInt64.le_iff_toNat_le.mp h
  rw [overdue, decide_eq_true_iff, Passed, UInt64.toNat_sub_of_le _ _ h]
  omega

theorem overdue_iff_of_lt {limit : Nat} {stamp cur : UInt64} (h : cur < stamp) :
    overdue limit stamp cur = true ↔ limit + (stamp.toNat - cur.toNat) < 2 ^ 64 := by
  have hlt : cur.toNat < stamp.toNat := UInt64.lt_iff_toNat_lt.mp h
  have hstamp : stamp.toNat < 2 ^ 64 := stamp.toNat_lt
  rw [overdue, decide_eq_true_iff, UInt64.toNat_sub]
  omega

-- A verdict is right for exactly the stamps that are in order.
theorem overdue_right_iff (limit : Nat) (stamp cur : UInt64) :
    (overdue limit stamp cur = true → Passed limit stamp cur) ↔ InOrder limit stamp cur := by
  by_cases h : stamp ≤ cur
  · exact iff_of_true (overdue_iff_passed h).mp (.inl h)
  · have hlt : cur < stamp := UInt64.not_le.mp h
    have hnat : cur.toNat < stamp.toNat := UInt64.lt_iff_toNat_lt.mp hlt
    have hnot : ¬ Passed limit stamp cur := by
      unfold Passed
      omega
    rw [overdue_iff_of_lt hlt, InOrder]
    constructor
    · intro hright
      right
      by_contra hfar
      exact hnot (hright (Nat.lt_of_not_le hfar))
    · rintro (hle | hfar) hnear
      · exact absurd hle h
      · exact absurd hfar (Nat.not_le_of_lt hnear)

end VideoAdapter.Lib
