import Mathlib.Data.Nat.Digits.Defs

/-! Fixed-width big-endian numbers. The two directions are inverse to each other
on numbers below the width's bound and on byte strings of that width. -/

namespace Cast.Foundation

/-- The `width` low-order bytes of a number, most significant first. -/
def toBigEndian : (width value : Nat) → List UInt8
  | 0, _ => []
  | width + 1, value => UInt8.ofNat (value / 256 ^ width) :: toBigEndian width value

def fromBigEndian : List UInt8 → Nat
  | [] => 0
  | byte :: rest => byte.toNat * 256 ^ rest.length + fromBigEndian rest

@[simp] theorem length_toBigEndian (width value : Nat) : (toBigEndian width value).length = width := by
  induction width with
  | zero => rfl
  | succ width ih => simp only [toBigEndian, List.length_cons, ih]

theorem fromBigEndian_eq_ofDigits (bytes : List UInt8) :
    fromBigEndian bytes = Nat.ofDigits 256 (bytes.map UInt8.toNat).reverse := by
  induction bytes with
  | nil => rfl
  | cons byte rest ih =>
    rw [fromBigEndian, ih, List.map_cons, List.reverse_cons, Nat.ofDigits_append, Nat.ofDigits_singleton,
      List.length_reverse, List.length_map, Nat.mul_comm, Nat.add_comm]

theorem digits_lt (bytes : List UInt8) : ∀ digit ∈ (bytes.map UInt8.toNat).reverse, digit < 256 := by
  simpa using fun (byte : UInt8) (_ : byte ∈ bytes) => byte.toNat_lt

theorem fromBigEndian_lt (bytes : List UInt8) : fromBigEndian bytes < 256 ^ bytes.length := by
  rw [fromBigEndian_eq_ofDigits]
  simpa using Nat.ofDigits_lt_base_pow_length (by decide) (digits_lt bytes)

theorem fromBigEndian_toBigEndian_mod (width value : Nat) :
    fromBigEndian (toBigEndian width value) = value % 256 ^ width := by
  induction width with
  | zero => simp [toBigEndian, fromBigEndian, Nat.mod_one]
  | succ width ih =>
    have head : (UInt8.ofNat (value / 256 ^ width)).toNat = value / 256 ^ width % 256 := by simp
    rw [toBigEndian, fromBigEndian, length_toBigEndian, ih, head, Nat.pow_succ (n := 256),
      Nat.mod_mul, Nat.mul_comm (256 ^ width), Nat.add_comm]

theorem fromBigEndian_toBigEndian {width value : Nat} (bounded : value < 256 ^ width) :
    fromBigEndian (toBigEndian width value) = value := by
  rw [fromBigEndian_toBigEndian_mod, Nat.mod_eq_of_lt bounded]

theorem fromBigEndian_injective {left right : List UInt8} (sameWidth : left.length = right.length)
    (same : fromBigEndian left = fromBigEndian right) : left = right := by
  rw [fromBigEndian_eq_ofDigits, fromBigEndian_eq_ofDigits] at same
  have digits := Nat.ofDigits_inj_of_len_eq (by decide) (by simpa using sameWidth) (digits_lt left) (digits_lt right)
    same
  exact (List.map_inj_right fun _ _ => UInt8.toNat_inj.mp).mp (List.reverse_inj.mp digits)

theorem toBigEndian_fromBigEndian {width : Nat} {bytes : List UInt8}
    (sized : bytes.length = width) : toBigEndian width (fromBigEndian bytes) = bytes := by
  apply fromBigEndian_injective
  · rw [length_toBigEndian, sized]
  · exact fromBigEndian_toBigEndian (sized ▸ fromBigEndian_lt bytes)

end Cast.Foundation
