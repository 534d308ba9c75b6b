import Cast.DeclarativeConfig.Source

/-! The validation of a final Lua value, as `lua_config/src/value.rs` has it. Values are numbers,
strings and references to tables of a heap, which may share tables and contain cycles; the walker
counts nodes, keeps the tables it is inside of and compares the number of integer keys with a
length that the virtual machine may choose among the borders of a table. -/

namespace Cast.LuaConfig

open Foundation DeclarativeConfig

abbrev TableId := Nat

inductive LuaValue where
  | nil
  | boolean (value : Bool)
  | integer (value : Int)
  | number (bits : UInt64)
  | string (bytes : List UInt8)
  | table (id : TableId)
  | function
  | thread
  | userData
  | lightUserData
  | unsupported
deriving DecidableEq

abbrev Entry := LuaValue × LuaValue

def HasKey (entries : List Entry) (index : Nat) : Prop := .integer index ∈ entries.map Prod.fst

/-- A length with a present last element and no next one. -/
def IsBorder (entries : List Entry) (length : Nat) : Prop :=
  (length = 0 ∨ HasKey entries length) ∧ ¬ HasKey entries (length + 1)

instance (entries : List Entry) (index : Nat) : Decidable (HasKey entries index) := inferInstanceAs (Decidable (_ ∈ _))

instance (entries : List Entry) (length : Nat) : Decidable (IsBorder entries length) :=
  inferInstanceAs (Decidable (_ ∧ _))

/-- A table with its entries in the order of an iteration and the length the machine reports. -/
structure LuaTable where
  hasMetatable : Bool
  entries : List Entry
  distinct : (entries.map Prod.fst).Nodup
  rawLen : Nat
  border : IsBorder entries rawLen

abbrev Heap := TableId → LuaTable

structure ValueLimits where
  maxDepth : Nat
  maxNodes : Nat
  maxTableEntries : Nat
  maxStringBytes : Nat

def ValueLimits.default : ValueLimits := ⟨64, 100000, 10000, 256 * 1024⟩

def reject (sourceName : Text) (message : String) : Diagnostic := ⟨.type, none, some sourceName, message.toList⟩

structure Walker where
  nodes : Nat
  active : List TableId

structure KeyCounts where
  integerKeys : Nat
  stringKeys : Nat
  entries : Nat

section Walker

variable (sourceName : Text) (limits : ValueLimits) (heap : Heap)

def countKey (counts : KeyCounts) (key : LuaValue) : Except Diagnostic KeyCounts :=
  match key with
  | .integer _ => .ok { counts with integerKeys := counts.integerKeys + 1 }
  | .string bytes => do
    refuse (isUtf8 bytes = false) (reject sourceName "table key is not valid UTF-8")
    pure { counts with stringKeys := counts.stringKeys + 1 }
  | _ => .error (reject sourceName "table keys must be one-based integers or UTF-8 strings")

def walkEntry (walk : LuaValue → Walker → Except Diagnostic Walker) (state : KeyCounts × Walker)
    (entry : Entry) : Except Diagnostic (KeyCounts × Walker) := do
  let counts := { state.1 with entries := state.1.entries + 1 }
  refuse (counts.entries > limits.maxTableEntries) (reject sourceName "table exceeds the entry limit")
  let counts ← countKey sourceName counts entry.1
  let walker ← walk entry.2 state.2
  pure (counts, walker)

def walkTable (walk : LuaValue → Walker → Except Diagnostic Walker) (id : TableId) (walker : Walker) :
    Except Diagnostic Walker := do
  refuse ((heap id).hasMetatable = true) (reject sourceName "tables in the value tree may not have metatables")
  refuse (id ∈ walker.active) (reject sourceName "the value tree contains a cycle")
  let walked ← (heap id).entries.foldlM (walkEntry sourceName limits walk)
    (⟨0, 0, 0⟩, { walker with active := id :: walker.active })
  refuse (walked.1.integerKeys > 0 ∧ walked.1.stringKeys > 0)
    (reject sourceName "mixed integer/string table keys are not allowed")
  refuse (walked.1.integerKeys > 0 ∧ (heap id).rawLen ≠ walked.1.integerKeys)
    (reject sourceName "arrays must be contiguous and one-based")
  pure { walked.2 with active := walked.2.active.tail }

def walkString (bytes : List UInt8) (walker : Walker) : Except Diagnostic Walker := do
  refuse (isUtf8 bytes = false) (reject sourceName "string is not valid UTF-8")
  refuse (bytes.length > limits.maxStringBytes) (reject sourceName "string exceeds the byte limit")
  pure walker

/-- The recursion is on the levels that are left: none of them is left where the depth of the
source exceeds its limit. -/
def walk : Nat → LuaValue → Walker → Except Diagnostic Walker
  | levels, value, walker => do
    let walker := { walker with nodes := walker.nodes + 1 }
    refuse (walker.nodes > limits.maxNodes) (reject sourceName "value tree exceeds the node limit")
    match levels with
    | 0 => .error (reject sourceName "value tree exceeds the depth limit")
    | levels + 1 =>
      match value with
      | .boolean _ => pure walker
      | .integer _ => pure walker
      | .string bytes => walkString sourceName limits bytes walker
      | .number _ => .error (reject sourceName "float values are not allowed; use integers")
      | .nil => .error (reject sourceName "nil is never a value; use an explicit tag")
      | .table id => walkTable sourceName limits heap (walk levels) id walker
      | .function => .error (reject sourceName "functions may not appear in the value tree")
      | .thread => .error (reject sourceName "threads may not appear in the value tree")
      | .userData => .error (reject sourceName "userdata may not appear in the value tree")
      | .lightUserData => .error (reject sourceName "userdata may not appear in the value tree")
      | .unsupported => .error (reject sourceName "unsupported value kind in the value tree")

def validateValueTree (value : LuaValue) : Except Diagnostic Unit := do
  let _ ← walk sourceName limits heap (limits.maxDepth + 1) value ⟨0, []⟩
  pure ()

end Walker

end Cast.LuaConfig
