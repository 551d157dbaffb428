import Mathlib.Data.Nat.Bitwise
import Mathlib.Tactic.Ring
import Mathlib.Tactic.Linarith

/-! Little-endian byte strings and power-of-two alignment.

`leBytes w n` is the `w`-byte little-endian encoding of `n` modulo `256 ^ w` and `leNat` reads such a
string back; `alignUp` is the least multiple of the alignment that is at least the value, and
`alignMask` the bit mask that computes it in a machine word. -/

namespace ByteCodec

abbrev Bytes := List UInt8

/-- The `w` little-endian bytes of `n`. -/
def leBytes : Nat → Nat → Bytes
  | 0, _ => []
  | w + 1, n => UInt8.ofNat n :: leBytes w (n / 256)

/-- The number a little-endian byte string denotes. -/
def leNat : Bytes → Nat
  | [] => 0
  | b :: bs => b.toNat + 256 * leNat bs

@[simp] theorem leBytes_length (w n : Nat) : (leBytes w n).length = w := by
  induction w generalizing n with
  | zero => rfl
  | succ w ih => simp [leBytes, ih]

/-- Decoding an encoded number gives it back modulo the width. -/
theorem leNat_leBytes (w n : Nat) : leNat (leBytes w n) = n % 256 ^ w := by
  induction w generalizing n with
  | zero => simp [leBytes, leNat, Nat.mod_one]
  | succ w ih =>
      have hpow : 256 ^ (w + 1) = 256 * 256 ^ w := pow_succ' 256 w
      rw [leBytes, leNat, ih, UInt8.toNat_ofNat', hpow, Nat.mod_mul]

theorem leNat_lt (bs : Bytes) : leNat bs < 256 ^ bs.length := by
  induction bs with
  | nil => simp [leNat]
  | cons b bs ih =>
      have hb := b.toNat_lt
      rw [leNat, List.length_cons, pow_succ]
      omega

/-- Encoding a decoded string gives the string back. -/
theorem leBytes_leNat (bs : Bytes) : leBytes bs.length (leNat bs) = bs := by
  induction bs with
  | nil => rfl
  | cons b bs ih =>
      have hb := b.toNat_lt
      have hdiv : (b.toNat + 256 * leNat bs) / 256 = leNat bs := by omega
      have hmod : UInt8.ofNat (b.toNat + 256 * leNat bs) = b := by
        apply UInt8.toNat_inj.mp
        rw [UInt8.toNat_ofNat']
        omega
      rw [leNat, List.length_cons, leBytes, hdiv, ih, hmod]

/-! ### Alignment -/

/-- The least multiple of `a` that is at least `n`. -/
def alignUp (n a : Nat) : Nat := (n + (a - 1)) / a * a

/-- Rounding up by adding the mask and clearing its bits, in a word of `w` bits. -/
def alignMask (w n a : Nat) : Nat := (n + (a - 1)) &&& (2 ^ w - 1 - (a - 1))

/-- Clearing the low `k` bits of a word is rounding down to a multiple of `2 ^ k`. -/
theorem and_clear_low {w k n : Nat} (hk : k ≤ w) (hn : n < 2 ^ w) :
    n &&& (2 ^ w - 1 - (2 ^ k - 1)) = n / 2 ^ k * 2 ^ k := by
  have hpos : 0 < 2 ^ k := Nat.two_pow_pos k
  have hle : 2 ^ k ≤ 2 ^ w := Nat.pow_le_pow_right (by omega) hk
  have hmask : 2 ^ w - 1 - (2 ^ k - 1) = (2 ^ (w - k) - 1) <<< k := by
    rw [Nat.shiftLeft_eq, Nat.sub_mul, Nat.one_mul, ← pow_add, Nat.sub_add_cancel hk]
    omega
  rw [hmask, ← Nat.shiftRight_eq_div_pow, ← Nat.shiftLeft_eq]
  apply Nat.eq_of_testBit_eq
  intro i
  simp only [Nat.testBit_and, Nat.testBit_shiftLeft, Nat.testBit_two_pow_sub_one,
    Nat.testBit_shiftRight]
  by_cases hi : k ≤ i
  · by_cases hw : i < w
    · have : i - k < w - k := by omega
      simp [hi, this]
    · have hhigh : n.testBit i = false :=
        Nat.testBit_lt_two_pow (hn.trans_le (Nat.pow_le_pow_right (by omega) (by omega)))
      simp [hi, hhigh]
  · simp [hi]

/-- The mask computes `alignUp` as long as the rounded value fits the word. -/
theorem alignMask_eq {w k n : Nat} (hk : k ≤ w) (hn : n + (2 ^ k - 1) < 2 ^ w) :
    alignMask w n (2 ^ k) = alignUp n (2 ^ k) := and_clear_low hk hn

end ByteCodec
