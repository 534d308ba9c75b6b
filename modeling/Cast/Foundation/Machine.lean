import Mathlib.Algebra.Order.Ring.Nat

/-! Lengths and sums in machine words, bytes of ASCII characters, and texts by the bytes of their
encoding. -/

namespace Cast.Foundation

/-- The largest value of a length on the supported 64-bit targets. -/
def usizeMax : Nat := UInt64.size - 1

def saturatingAdd (left right : Nat) : Nat := min (left + right) usizeMax

/-- `checked_add` on 64 bits. -/
def checkedAdd (left right : Nat) : Option Nat := if left + right < UInt64.size then some (left + right) else none

theorem exists_checkedAdd {left right limit : Nat} (fits : limit < UInt64.size) (property : Nat → Prop) :
    (∃ total, checkedAdd left right = some total ∧ ¬ total > limit ∧ property total) ↔
      left + right ≤ limit ∧ property (left + right) := by
  unfold checkedAdd
  by_cases small : left + right < UInt64.size
  · simp [small]
  · simp only [small, if_false, reduceCtorEq, false_and, exists_false, false_iff, not_and]
    omega

/-- The length in UTF-8. -/
def byteLength (text : List Char) : Nat := (text.map Char.utf8Size).sum

def isUtf8 (bytes : List UInt8) : Bool := ByteArray.validateUTF8 ⟨bytes.toArray⟩

def slash : UInt8 := 0x2f

def isAsciiDigit (byte : UInt8) : Bool := 0x30 ≤ byte && byte ≤ 0x39

/-- `byte.is_ascii_digit() || (b'a'..=b'f').contains(byte)`. -/
def isLowerHex (byte : UInt8) : Bool := isAsciiDigit byte || (0x61 ≤ byte && byte ≤ 0x66)

end Cast.Foundation
