import Mathlib.Data.List.GetD
import Mathlib.Tactic.Ring

/-! Little-endian words over byte lists. -/

namespace Bytes

/-- The `w` little-endian bytes of `n`; higher bytes are dropped. -/
def le : Nat → Nat → List UInt8
  | 0, _ => []
  | w + 1, n => UInt8.ofNat (n % 256) :: le w (n / 256)

/-- The number a byte list denotes, least significant byte first. -/
def val : List UInt8 → Nat
  | [] => 0
  | b :: bs => b.toNat + 256 * val bs

@[simp] theorem length_le (w n : Nat) : (le w n).length = w := by
  induction w generalizing n with
  | zero => rfl
  | succ w ih => simp only [le, List.length_cons, ih]

theorem toNat_low (n : Nat) : (UInt8.ofNat (n % 256)).toNat = n % 256 := by
  simp [UInt8.toNat_ofNat']

theorem val_le (w n : Nat) : val (le w n) = n % 256 ^ w := by
  induction w generalizing n with
  | zero => simp only [le, val, pow_zero, Nat.mod_one]
  | succ w ih =>
    rw [le, val, ih, toNat_low, pow_succ', Nat.mod_mul]

theorem le_val (bs : List UInt8) : le bs.length (val bs) = bs := by
  induction bs with
  | nil => rfl
  | cons b bs ih =>
    have hb : b.toNat < 256 := b.toNat_lt
    have hmod : (b.toNat + 256 * val bs) % 256 = b.toNat := by omega
    have hdiv : (b.toNat + 256 * val bs) / 256 = val bs := by omega
    simp only [List.length_cons, le, val, hmod, hdiv, ih]
    simp

theorem val_lt (bs : List UInt8) : val bs < 256 ^ bs.length := by
  induction bs with
  | nil => simp [val]
  | cons b bs ih =>
    have hb : b.toNat < 256 := b.toNat_lt
    rw [val, List.length_cons, pow_succ']
    omega

/-- Cutting or padding a byte list to exactly `n` bytes. -/
def fit (n : Nat) (bs : List UInt8) : List UInt8 :=
  (List.range n).map fun i => bs.getD i 0

@[simp] theorem length_fit (n : Nat) (bs : List UInt8) : (fit n bs).length = n := by
  simp [fit]

end Bytes
