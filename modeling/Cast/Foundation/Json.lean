import Mathlib.Algebra.Order.Ring.Nat

/-! Compact JSON text as bytes, and how long it can be. Values are rendered
bottom up; an object takes its fields already rendered. -/

namespace Cast.Foundation

open List

def hexDigit (nibble : UInt8) : UInt8 := if nibble ≤ 9 then 0x30 + nibble else 0x61 + (nibble - 10)

/-- The bytes that stand for one byte of text inside a JSON string. -/
def jsonEscape (byte : UInt8) : List UInt8 :=
  if byte = 0x22 then [0x5c, 0x22]
  else if byte = 0x5c then [0x5c, 0x5c]
  else if byte = 0x08 then [0x5c, 0x62]
  else if byte = 0x09 then [0x5c, 0x74]
  else if byte = 0x0a then [0x5c, 0x6e]
  else if byte = 0x0c then [0x5c, 0x66]
  else if byte = 0x0d then [0x5c, 0x72]
  else if byte < 0x20 then [0x5c, 0x75, 0x30, 0x30, hexDigit (byte >>> 4), hexDigit (byte &&& 0x0f)]
  else [byte]

def jsonString (text : List UInt8) : List UInt8 := 0x22 :: (text.flatMap jsonEscape ++ [0x22])

def jsonNull : List UInt8 := [0x6e, 0x75, 0x6c, 0x6c]

def jsonBool : Bool → List UInt8
  | true => [0x74, 0x72, 0x75, 0x65]
  | false => [0x66, 0x61, 0x6c, 0x73, 0x65]

def jsonNatural (value : Nat) : List UInt8 := (Nat.toDigits 10 value).map fun digit => UInt8.ofNat digit.toNat

def jsonInteger : Int → List UInt8
  | .ofNat value => jsonNatural value
  | .negSucc value => 0x2d :: jsonNatural (value + 1)

def jsonOption {α : Type} (render : α → List UInt8) : Option α → List UInt8
  | some value => render value
  | none => jsonNull

/-- The text between the braces: `"name":value` pairs separated by commas. -/
def jsonFields : List (List UInt8 × List UInt8) → List UInt8
  | [] => []
  | [(name, value)] => jsonString name ++ 0x3a :: value
  | (name, value) :: next :: rest => jsonString name ++ 0x3a :: (value ++ 0x2c :: jsonFields (next :: rest))

def jsonObject (fields : List (List UInt8 × List UInt8)) : List UInt8 := 0x7b :: (jsonFields fields ++ [0x7d])

/-- The values between the brackets, separated by commas. -/
def jsonElements : List (List UInt8) → List UInt8
  | [] => []
  | [value] => value
  | value :: next :: rest => value ++ 0x2c :: jsonElements (next :: rest)

def jsonArray (values : List (List UInt8)) : List UInt8 := 0x5b :: (jsonElements values ++ [0x5d])

theorem length_jsonEscape_le (byte : UInt8) : (jsonEscape byte).length ≤ 6 := by
  unfold jsonEscape
  split_ifs <;> simp

theorem length_jsonString_le (text : List UInt8) : (jsonString text).length ≤ 6 * text.length + 2 := by
  have escaped : (text.flatMap jsonEscape).length ≤ 6 * text.length := by
    induction text with
    | nil => exact Nat.le_refl _
    | cons byte rest ih =>
      have head := length_jsonEscape_le byte
      simp only [flatMap_cons, length_append, length_cons]
      omega
  simp only [jsonString, length_cons, length_append, length_nil]
  omega

theorem length_jsonString_le_of {text : List UInt8} {size : Nat} (sized : text.length ≤ size) :
    (jsonString text).length ≤ 6 * size + 2 := by
  have rendered := length_jsonString_le text
  omega

theorem length_jsonBool_le (value : Bool) : (jsonBool value).length ≤ 5 := by cases value <;> simp [jsonBool]

theorem length_jsonNatural_le {value : Nat} (digits : Nat) (positive : 0 < digits)
    (bounded : value < 10 ^ digits) : (jsonNatural value).length ≤ digits := by
  rw [jsonNatural, length_map]
  exact (Nat.length_toDigits_le_iff (by omega) positive).mpr bounded

theorem length_jsonWord_le (value : UInt64) : (jsonNatural value.toNat).length ≤ 20 :=
  length_jsonNatural_le 20 (by decide) (Nat.lt_trans value.toNat_lt (by decide))

theorem length_jsonInteger_le {value : Int} (digits : Nat) (positive : 0 < digits)
    (bounded : value.natAbs < 10 ^ digits) : (jsonInteger value).length ≤ digits + 1 := by
  cases value with
  | ofNat value => exact Nat.le_succ_of_le (length_jsonNatural_le digits positive bounded)
  | negSucc value => exact Nat.succ_le_succ (length_jsonNatural_le digits positive bounded)

theorem length_jsonOption_le {α : Type} {render : α → List UInt8} {value : Option α} {bound : Nat}
    (atLeastNull : 4 ≤ bound) (bounded : ∀ present ∈ value, (render present).length ≤ bound) :
    (jsonOption render value).length ≤ bound := by
  cases value with
  | none => exact atLeastNull
  | some present => exact bounded present rfl

/-- Text without a byte that JSON escapes is rendered as it is. -/
theorem length_jsonString_plain {text : List UInt8} (plain : ∀ byte ∈ text, byte ≠ 0x22 ∧ byte ≠ 0x5c ∧ 0x20 ≤ byte) :
    (jsonString text).length = text.length + 2 := by
  have copied : text.flatMap jsonEscape = text := by
    induction text with
    | nil => rfl
    | cons byte rest ih =>
      obtain ⟨⟨quote, backslash, printable⟩, others⟩ := forall_mem_cons.mp plain
      have head : jsonEscape byte = [byte] := by
        unfold jsonEscape
        grind
      rw [flatMap_cons, head, ih others, singleton_append]
  rw [jsonString, copied, length_cons, length_append, length_singleton]

theorem length_hexDigits (bytes : List UInt8) : (bytes.flatMap fun (byte : UInt8) =>
      [hexDigit (byte >>> 4), hexDigit (byte &&& 0x0f)]).length = 2 * bytes.length := by
  induction bytes with
  | nil => rfl
  | cons byte rest ih =>
    simp only [flatMap_cons, length_append, length_cons, length_nil, ih]
    omega

theorem length_jsonHex_le {bytes : List UInt8} {size : Nat} (sized : bytes.length = size) :
    (jsonString (bytes.flatMap fun (byte : UInt8) =>
      [hexDigit (byte >>> 4), hexDigit (byte &&& 0x0f)])).length ≤ 12 * size + 2 := by
  have rendered := length_jsonString_le_of (Nat.le_of_eq (length_hexDigits bytes))
  omega

/-- Rendered size of an object, by the room for a rendered name and the rooms of its values. -/
theorem length_jsonObject_le {fields : List (List UInt8 × List UInt8)} {rooms : List Nat}
    {total : Nat} (room : Nat) (named : fields.all (fun field => (jsonString field.1).length ≤ room) = true)
    (fits : Forall₂ (fun field size => field.2.length ≤ size) fields rooms)
    (within : rooms.length * (room + 2) + rooms.sum + 2 ≤ total) :
    (jsonObject fields).length ≤ total := by
  have inner : (jsonFields fields).length ≤ rooms.length * (room + 2) + rooms.sum := by
    clear within
    induction fits with
    | nil => exact Nat.zero_le _
    | @cons field size rest sizes fits others ih =>
      obtain ⟨short, remaining⟩ := Bool.and_eq_true_iff.mp named
      have short := of_decide_eq_true short
      have rendered := ih remaining
      cases others with
      | nil =>
        simp only [jsonFields, sum_cons, sum_nil, length_append, length_cons, length_nil]
        omega
      | cons next others =>
        simp only [sum_cons, length_cons, Nat.add_mul] at rendered
        simp only [jsonFields, sum_cons, length_append, length_cons, Nat.add_mul]
        omega
  simp only [jsonObject, length_cons, length_append, length_nil]
  omega

theorem length_jsonArray_le (values : List (List UInt8)) :
    (jsonArray values).length ≤ (values.map fun value => value.length + 1).sum + 2 := by
  have inner : (jsonElements values).length ≤ (values.map fun value => value.length + 1).sum := by
    induction values with
    | nil => exact Nat.zero_le _
    | cons value rest ih =>
      cases rest with
      | nil =>
        simp only [jsonElements, map_cons, map_nil, sum_cons, sum_nil]
        omega
      | cons next rest =>
        simp only [map_cons, sum_cons] at ih
        simp only [jsonElements, map_cons, sum_cons, length_append, length_cons]
        omega
  simp only [jsonArray, length_cons, length_append, length_nil]
  omega

end Cast.Foundation
