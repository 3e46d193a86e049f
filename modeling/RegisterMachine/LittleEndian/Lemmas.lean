import Mathlib.Algebra.Ring.Nat
import RegisterMachine.LittleEndian

namespace RegisterMachine

namespace LittleEndian

theorem value_lt (bs : List UInt8) : value bs < 256 ^ bs.length := by
  induction bs with
  | nil => simp [value]
  | cons b bs ih =>
    have hb := b.toNat_lt
    simp only [value, List.length_cons, Nat.pow_succ]
    omega

/-- A number is recovered from its bytes up to the bits that did not fit. -/
theorem value_bytes (width n : Nat) : value (bytes width n) = n % 256 ^ width := by
  induction width generalizing n with
  | zero => simp [bytes, value, Nat.mod_one]
  | succ width ih =>
    have head : (UInt8.ofNat n).toNat = n % 256 := by simp
    rw [bytes, value, ih, head, Nat.pow_succ', Nat.mod_mul]

end LittleEndian

end RegisterMachine
