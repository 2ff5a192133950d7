/-!
# 32-bit words

Positions in files are 32-bit words. Sums that do not fit stay at the greatest word, differences
below zero stay at zero. The lemmas state both in the natural numbers.
-/

namespace Toolbench.Text.Word

/-- The greatest word. -/
def greatest : UInt32 :=
  4294967295

/-- The word with this value, if there is one. -/
def ofNat? (n : Nat) : Option UInt32 :=
  if n < UInt32.size then some (UInt32.ofNat n) else none

/-- The sum, or the greatest word when the sum does not fit. -/
def add (a b : UInt32) : UInt32 :=
  (ofNat? (a.toNat + b.toNat)).getD greatest

/-- The word before, or zero before zero. -/
def pred (a : UInt32) : UInt32 :=
  if a = 0 then 0 else a - 1

theorem ofNat?_toNat (a : UInt32) : ofNat? a.toNat = some a := by
  have hlt : a.toNat < UInt32.size := a.toNat_lt
  simp [ofNat?, hlt]

theorem toNat_of_ofNat? {n : Nat} {a : UInt32} (h : ofNat? n = some a) : a.toNat = n := by
  unfold ofNat? at h
  split at h
  · cases h
    exact UInt32.toNat_ofNat_of_lt' ‹_›
  · exact nomatch h

theorem toNat_add (a b : UInt32) : (add a b).toNat = min (a.toNat + b.toNat) 4294967295 := by
  unfold add ofNat?
  split
  · rename_i h
    have hle : a.toNat + b.toNat ≤ 4294967295 := Nat.le_of_lt_succ h
    rw [Option.getD_some, UInt32.toNat_ofNat_of_lt' h, Nat.min_eq_left hle]
  · rename_i h
    have hge : 4294967295 ≤ a.toNat + b.toNat := by
      have hsize : UInt32.size = 4294967296 := rfl
      omega
    rw [Option.getD_none, Nat.min_eq_right hge]
    rfl

theorem toNat_pred (a : UInt32) : (pred a).toNat = a.toNat - 1 := by
  unfold pred
  split
  · rename_i h
    simp [h]
  · rename_i h
    have hpos : 1 ≤ a := by
      rw [UInt32.le_iff_toNat_le]
      have hne : a.toNat ≠ 0 := fun hzero => h (UInt32.toNat_inj.1 hzero)
      exact Nat.one_le_iff_ne_zero.2 hne
    rw [UInt32.toNat_sub_of_le _ _ hpos]
    rfl

end Toolbench.Text.Word
