import Mathlib.Data.Int.Interval
import Mathlib.Order.Interval.Finset.Nat
import Cast.LuaConfig.Value

/-! What an accepted value is. The walk unfolds the value to a finite tree within the limits, whose
leaves and tables pass their checks. Two of the checks say less than they are for: a key that is a
string is not measured, and the number of integer keys is compared with a border of the table,
which they may equal without filling the places up to it. -/

namespace Cast.LuaConfig

open Foundation DeclarativeConfig Relation List

variable {limits : ValueLimits} {key value : LuaValue} {state finish : KeyCounts × Walker} {index : Int}
  {bytes : List UInt8} {entries : List Entry} {after : Walker}

/-! ### Unfoldings -/

inductive ValueTree where
  | leaf (value : LuaValue)
  | table (children : List (LuaValue × ValueTree))

mutual

def ValueTree.nodes : ValueTree → Nat
  | .leaf _ => 1
  | .table children => 1 + nodesOf children

def nodesOf : List (LuaValue × ValueTree) → Nat
  | [] => 0
  | (_, child) :: rest => child.nodes + nodesOf rest

end

mutual

/-- The depth of the deepest node below the root. -/
def ValueTree.depth : ValueTree → Nat
  | .leaf _ => 0
  | .table children => depthOf children

def depthOf : List (LuaValue × ValueTree) → Nat
  | [] => 0
  | (_, child) :: rest => max (child.depth + 1) (depthOf rest)

end

/-- The finite tree that a value unfolds to; a value with a cycle below it has none. -/
inductive Unfolds (heap : Heap) : LuaValue → ValueTree → Prop where
  | leaf {value : LuaValue} (notTable : ∀ id, value ≠ .table id) : Unfolds heap value (.leaf value)
  | table {id : TableId} {children : List (LuaValue × ValueTree)}
      (sameKeys : (heap id).entries.map Prod.fst = children.map Prod.fst)
      (pointwise : Forall₂ (fun entry child => Unfolds heap entry.2 child.2) (heap id).entries children) :
      Unfolds heap (.table id) (.table children)

def Contains (heap : Heap) (outer inner : LuaValue) : Prop :=
  ∃ id key, outer = .table id ∧ (key, inner) ∈ (heap id).entries

/-- The values of the unfolding. -/
def Within (heap : Heap) (value inner : LuaValue) : Prop := ReflTransGen (Contains heap) value inner

/-! ### Well-formed values -/

def LuaTable.keys (table : LuaTable) : List LuaValue := table.entries.map Prod.fst

variable {table : LuaTable}

def IsLeaf (limits : ValueLimits) : LuaValue → Prop
  | .boolean _ => True
  | .integer _ => True
  | .string bytes => isUtf8 bytes = true ∧ bytes.length ≤ limits.maxStringBytes
  | _ => False

def LuaTable.IsRecord (table : LuaTable) : Prop :=
  ∀ key ∈ table.keys, ∃ bytes, key = .string bytes ∧ isUtf8 bytes = true

def LuaTable.IsArray (table : LuaTable) : Prop :=
  ∃ length : Nat, ∀ key, key ∈ table.keys ↔ ∃ index : Int, 1 ≤ index ∧ index ≤ length ∧ key = .integer index

structure LuaTable.WellFormed (limits : ValueLimits) (table : LuaTable) : Prop where
  plain : table.hasMetatable = false
  size : table.entries.length ≤ limits.maxTableEntries
  keys : table.IsRecord ∨ table.IsArray
  keyBytes : ∀ bytes, .string bytes ∈ table.keys → bytes.length ≤ limits.maxStringBytes

/-- A value whose unfolding is a finite tree within the limits, of leaves and tables that may
cross into a declaration. -/
structure WellFormedValue (limits : ValueLimits) (heap : Heap) (value : LuaValue) : Prop where
  finite : ∃ tree, Unfolds heap value tree ∧ tree.nodes ≤ limits.maxNodes ∧ tree.depth ≤ limits.maxDepth
  leaves : ∀ inner, Within heap value inner → (∀ id, inner ≠ .table id) → IsLeaf limits inner
  tables : ∀ id, Within heap value (.table id) → (heap id).WellFormed limits

/-- The integer keys of each table lie between one and its length, and its string keys are within
the byte limit. -/
def KeysBounded (limits : ValueLimits) (heap : Heap) (value : LuaValue) : Prop :=
  ∀ id, Within heap value (.table id) →
    (∀ index : Int, .integer index ∈ (heap id).keys → 1 ≤ index ∧ index ≤ (heap id).rawLen) ∧
    ∀ bytes, .string bytes ∈ (heap id).keys → bytes.length ≤ limits.maxStringBytes

/-! ### Counted keys -/

def integerKey? : LuaValue → Option Int
  | .integer index => some index
  | _ => none

def stringKey? : LuaValue → Option (List UInt8)
  | .string bytes => some bytes
  | _ => none

def integerKeys (entries : List Entry) : List Int := entries.filterMap fun entry => integerKey? entry.1

def stringKeys (entries : List Entry) : List (List UInt8) := entries.filterMap fun entry => stringKey? entry.1

theorem integerKey?_eq_some :
    integerKey? key = some index ↔ key = .integer index := by
  cases key <;> simp [integerKey?]

theorem stringKey?_eq_some :
    stringKey? key = some bytes ↔ key = .string bytes := by
  cases key <;> simp [stringKey?]

theorem mem_integerKeys : index ∈ integerKeys table.entries ↔ .integer index ∈ table.keys := by
  simp [integerKeys, LuaTable.keys, integerKey?_eq_some]

theorem mem_stringKeys : bytes ∈ stringKeys table.entries ↔ .string bytes ∈ table.keys := by
  simp [stringKeys, LuaTable.keys, stringKey?_eq_some]

theorem integerKeys_nodup (table : LuaTable) : (integerKeys table.entries).Nodup := by
  have keys : ((table.entries.map Prod.fst).filterMap integerKey?).Nodup := by
    refine table.distinct.filterMap ?_
    intro first second index isFirst isSecond
    rw [Option.mem_def, integerKey?_eq_some] at isFirst isSecond
    rw [isFirst, isSecond]
  rwa [filterMap_map] at keys

/-- A key that is counted: an integer, or a string of valid bytes. -/
def IsKey (key : LuaValue) : Prop :=
  (∃ index, key = .integer index) ∨ ∃ bytes, key = .string bytes ∧ isUtf8 bytes = true

variable {sourceName : Text} {heap : Heap} {levels : Nat} {walkValue : LuaValue → Walker → Except Diagnostic Walker}

theorem countKey_ok {counts next : KeyCounts} (counted : countKey sourceName counts key = .ok next) :
    IsKey key ∧ next.integerKeys = counts.integerKeys + (integerKey? key).toList.length ∧
      next.stringKeys = counts.stringKeys + (stringKey? key).toList.length ∧
      next.entries = counts.entries := by
  cases key with
  | integer index =>
    cases counted
    exact ⟨.inl ⟨index, rfl⟩, rfl, rfl, rfl⟩
  | string bytes =>
    simp only [countKey, bind_eq_ok, exists_check, refuse_eq_ok, pure_eq_ok] at counted
    obtain ⟨valid, rfl⟩ := counted
    exact ⟨.inr ⟨bytes, rfl, by simpa using valid⟩, rfl, rfl, rfl⟩
  | _ => cases counted

theorem walkEntry_ok {next : KeyCounts × Walker} {entry : Entry}
    (walked : walkEntry sourceName limits walkValue state entry = .ok next) :
    state.1.entries + 1 ≤ limits.maxTableEntries ∧
      countKey sourceName ⟨state.1.integerKeys, state.1.stringKeys, state.1.entries + 1⟩ entry.1 = .ok next.1 ∧
      walkValue entry.2 state.2 = .ok next.2 := by
  simp only [walkEntry, bind_eq_ok, exists_check, refuse_eq_ok, pure_eq_ok, not_lt] at walked
  obtain ⟨size, counts, counted, walker, valued, rfl⟩ := walked
  exact ⟨size, counted, valued⟩

structure Counted (limits : ValueLimits) (entries : List Entry) (before after : KeyCounts) : Prop where
  kinds : ∀ entry ∈ entries, IsKey entry.1
  integers : after.integerKeys = before.integerKeys + (integerKeys entries).length
  strings : after.stringKeys = before.stringKeys + (stringKeys entries).length
  total : after.entries = before.entries + entries.length
  size : before.entries ≤ limits.maxTableEntries → after.entries ≤ limits.maxTableEntries

theorem counted_of_foldlM (ran : entries.foldlM (walkEntry sourceName limits walkValue) state = .ok finish) :
    Counted limits entries state.1 finish.1 := by
  induction entries generalizing state with
  | nil =>
    cases ran
    exact ⟨by simp, rfl, rfl, rfl, id⟩
  | cons entry rest ih =>
    rw [foldlM_cons, bind_eq_ok] at ran
    obtain ⟨next, walked, further⟩ := ran
    obtain ⟨size, counted, -⟩ := walkEntry_ok walked
    obtain ⟨isKey, integers, strings, total⟩ := countKey_ok counted
    have later := ih further
    have oneMore : (integerKeys (entry :: rest)).length =
        (integerKey? entry.1).toList.length + (integerKeys rest).length := by
      unfold integerKeys
      cases found : integerKey? entry.1 <;> simp [found, Nat.add_comm]
    have oneString : (stringKeys (entry :: rest)).length =
        (stringKey? entry.1).toList.length + (stringKeys rest).length := by
      unfold stringKeys
      cases found : stringKey? entry.1 <;> simp [found, Nat.add_comm]
    refine ⟨forall_mem_cons.mpr ⟨isKey, later.kinds⟩, ?_, ?_, ?_, ?_⟩
    · rw [later.integers, integers, oneMore, Nat.add_assoc]
    · rw [later.strings, strings, oneString, Nat.add_assoc]
    · simp only [later.total, total, length_cons]
      omega
    · intro _
      exact later.size (total ▸ size)

/-! ### Walked values -/

structure LuaTable.Checked (limits : ValueLimits) (table : LuaTable) : Prop where
  plain : table.hasMetatable = false
  size : table.entries.length ≤ limits.maxTableEntries
  kinds : ∀ key ∈ table.keys, IsKey key
  unmixed : integerKeys table.entries = [] ∨ stringKeys table.entries = []
  counted : integerKeys table.entries ≠ [] → table.rawLen = (integerKeys table.entries).length

/-- Every leaf and every table of the unfolding passes its checks. -/
structure ChecksWithin (limits : ValueLimits) (heap : Heap) (value : LuaValue) : Prop where
  leaves : ∀ inner, Within heap value inner → (∀ id, inner ≠ .table id) → IsLeaf limits inner
  tables : ∀ id, Within heap value (.table id) → (heap id).Checked limits

structure Walked (limits : ValueLimits) (heap : Heap) (levels : Nat) (value : LuaValue)
    (before after : Walker) : Prop where
  unfolds : ∃ tree, Unfolds heap value tree ∧ tree.depth < levels ∧ after.nodes = before.nodes + tree.nodes
  counter : after.nodes ≤ limits.maxNodes
  stack : after.active = before.active
  checks : ChecksWithin limits heap value

variable (sound : ∀ value before after, walkValue value before = .ok after →
  Walked limits heap levels value before after)

include sound in
theorem walked_entries (ran : entries.foldlM (walkEntry sourceName limits walkValue) state = .ok finish) :
    (∃ children, entries.map Prod.fst = children.map Prod.fst ∧
      Forall₂ (fun entry child => Unfolds heap entry.2 child.2) entries children ∧
      depthOf children ≤ levels ∧ finish.2.nodes = state.2.nodes + nodesOf children) ∧
      (state.2.nodes ≤ limits.maxNodes → finish.2.nodes ≤ limits.maxNodes) ∧
      finish.2.active = state.2.active ∧ ∀ entry ∈ entries, ChecksWithin limits heap entry.2 := by
  induction entries generalizing state with
  | nil =>
    cases ran
    exact ⟨⟨[], rfl, .nil, Nat.zero_le levels, rfl⟩, id, rfl, by simp⟩
  | cons entry rest ih =>
    rw [foldlM_cons, bind_eq_ok] at ran
    obtain ⟨next, stepped, further⟩ := ran
    have walked := sound _ _ _ (walkEntry_ok stepped).2.2
    obtain ⟨tree, unfolds, shallow, nodes⟩ := walked.unfolds
    obtain ⟨⟨children, sameKeys, pointwise, depth, later⟩, counter, stack, checks⟩ := ih further
    refine ⟨⟨(entry.1, tree) :: children, ?_, .cons unfolds pointwise, ?_, ?_⟩, ?_, ?_, ?_⟩
    · rw [map_cons, map_cons, sameKeys]
    · exact Nat.max_le.mpr ⟨shallow, depth⟩
    · rw [later, nodes, nodesOf, Nat.add_assoc]
    · exact fun _ => counter walked.counter
    · rw [stack, walked.stack]
    · exact forall_mem_cons.mpr ⟨walked.checks, checks⟩

theorem checksWithin_leaf (notTable : ∀ id, value ≠ .table id)
    (isLeaf : IsLeaf limits value) : ChecksWithin limits heap value := by
  have alone : ∀ inner, Within heap value inner → inner = value := by
    intro inner within
    obtain same | ⟨next, contains, -⟩ := within.cases_head
    · exact same.symm
    · obtain ⟨id, _, isTable, _⟩ := contains
      exact absurd isTable (notTable id)
  refine ⟨?_, ?_⟩
  · intro inner within _
    rwa [alone inner within]
  · intro id within
    exact absurd (alone _ within).symm (notTable id)

theorem checksWithin_table {id : TableId} (checked : (heap id).Checked limits)
    (children : ∀ entry ∈ (heap id).entries, ChecksWithin limits heap entry.2) :
    ChecksWithin limits heap (.table id) := by
  have below : ∀ inner, Within heap (.table id) inner → inner = .table id ∨
      ∃ entry ∈ (heap id).entries, Within heap entry.2 inner := by
    intro inner within
    obtain same | ⟨next, ⟨other, key, isTable, member⟩, further⟩ := within.cases_head
    · exact .inl same.symm
    · cases isTable
      exact .inr ⟨(key, next), member, further⟩
  refine ⟨?_, ?_⟩
  · intro inner within notTable
    obtain rfl | ⟨entry, member, further⟩ := below inner within
    · exact absurd rfl (notTable id)
    · exact (children entry member).leaves inner further notTable
  · intro other within
    obtain same | ⟨entry, member, further⟩ := below _ within
    · cases same
      exact checked
    · exact (children entry member).tables other further

include sound in
theorem walked_table {id : TableId} {before walker : Walker} (counter : walker.nodes ≤ limits.maxNodes)
    (oneMore : walker = { before with nodes := before.nodes + 1 })
    (accepted : walkTable sourceName limits heap walkValue id walker = .ok after) :
    Walked limits heap (levels + 1) (.table id) before after := by
  simp only [walkTable, bind_eq_ok, exists_check, refuse_eq_ok, pure_eq_ok] at accepted
  obtain ⟨plain, -, walked, ran, mixed, length, rfl⟩ := accepted
  have counted := counted_of_foldlM ran
  obtain ⟨⟨children, sameKeys, pointwise, depth, nodes⟩, bounded, stack, checks⟩ := walked_entries sound ran
  have integers : walked.1.integerKeys = (integerKeys (heap id).entries).length := by
    simpa using counted.integers
  have strings : walked.1.stringKeys = (stringKeys (heap id).entries).length := by simpa using counted.strings
  have checked : (heap id).Checked limits := by
    refine ⟨by simpa using plain, ?_, ?_, ?_, ?_⟩
    · have total := counted.total
      have size := counted.size (Nat.zero_le _)
      simp only [Nat.zero_add] at total
      rwa [total] at size
    · intro key member
      obtain ⟨entry, listed, rfl⟩ := mem_map.mp member
      exact counted.kinds entry listed
    · simp only [integers, strings, length_pos_iff, not_and_or, not_not] at mixed
      exact mixed
    · intro present
      simp only [integers, length_pos_iff, not_and, not_not] at length
      exact length present
  refine ⟨⟨.table children, .table sameKeys pointwise, Nat.lt_succ_of_le depth, ?_⟩, bounded counter,
    ?_, checksWithin_table checked checks⟩
  · rw [ValueTree.nodes, ← Nat.add_assoc]
    simpa [oneMore] using nodes
  · simp [stack, oneMore]

theorem walked_of_walk {before : Walker} (accepted : walk sourceName limits heap levels value before = .ok after) :
    Walked limits heap levels value before after := by
  induction levels generalizing value before after with
  | zero =>
    unfold walk at accepted
    simp only [bind_eq_ok, exists_check] at accepted
    cases accepted.2
  | succ levels ih =>
    unfold walk at accepted
    simp only [bind_eq_ok, exists_check, refuse_eq_ok, not_lt] at accepted
    obtain ⟨counter, accepted⟩ := accepted
    have leaf : (∀ id, value ≠ .table id) → IsLeaf limits value → after = { before with nodes := before.nodes + 1 } →
        Walked limits heap (levels + 1) value before after := by
      rintro notTable isLeaf rfl
      exact ⟨⟨.leaf value, .leaf notTable, Nat.succ_pos levels, rfl⟩, counter, rfl, checksWithin_leaf notTable isLeaf⟩
    cases value with
    | boolean _ | integer _ => exact leaf (by simp) trivial (pure_eq_ok.mp accepted).symm
    | string bytes =>
      simp only [walkString, bind_eq_ok, exists_check, refuse_eq_ok, pure_eq_ok, not_lt, Bool.not_eq_false] at accepted
      exact leaf (by simp) ⟨accepted.1, accepted.2.1⟩ accepted.2.2.symm
    | table id => exact walked_table (fun _ _ _ => ih) counter rfl accepted
    | _ => cases accepted

/-! ### Arrays -/

/-- As many keys as places, all of them in their places, fill them. -/
theorem integerKeys_fill (counted : table.rawLen = (integerKeys table.entries).length)
    (placed : ∀ index : Int, .integer index ∈ table.keys → 1 ≤ index ∧ index ≤ table.rawLen)
    (index : Int) : .integer index ∈ table.keys ↔ 1 ≤ index ∧ index ≤ table.rawLen := by
  have inside : (integerKeys table.entries).toFinset ⊆ Finset.Icc 1 (table.rawLen : Int) := by
    intro other member
    rw [mem_toFinset, mem_integerKeys] at member
    exact Finset.mem_Icc.mpr (placed other member)
  have filled := Finset.eq_of_subset_of_card_le inside (by
    rw [toFinset_card_of_nodup (integerKeys_nodup table), ← counted, Int.card_Icc]
    omega)
  rw [← mem_integerKeys, ← mem_toFinset, filled, Finset.mem_Icc]

theorem length_of_isArray {length : Nat} (isArray : ∀ key, key ∈ table.keys ↔
    ∃ index : Int, 1 ≤ index ∧ index ≤ length ∧ key = .integer index) :
    (integerKeys table.entries).length = length := by
  have places : (integerKeys table.entries).toFinset = Finset.Icc 1 (length : Int) := by
    ext index
    simp [mem_integerKeys, isArray]
  rw [← toFinset_card_of_nodup (integerKeys_nodup table), places, Int.card_Icc]
  omega

theorem wellFormed_iff_of_checked (checked : table.Checked limits) : table.WellFormed limits ↔
    (∀ index : Int, .integer index ∈ table.keys → 1 ≤ index ∧ index ≤ table.rawLen) ∧
      ∀ bytes, .string bytes ∈ table.keys → bytes.length ≤ limits.maxStringBytes := by
  constructor
  · intro wellFormed
    refine ⟨?_, wellFormed.keyBytes⟩
    intro index member
    have present : integerKeys table.entries ≠ [] := ne_nil_of_mem (mem_integerKeys.mpr member)
    obtain isRecord | ⟨length, isArray⟩ := wellFormed.keys
    · obtain ⟨bytes, isString, -⟩ := isRecord _ member
      cases isString
    · obtain ⟨other, positive, bounded, same⟩ := (isArray _).mp member
      cases same
      rw [checked.counted present, length_of_isArray isArray]
      exact ⟨positive, bounded⟩
  · rintro ⟨placed, keyBytes⟩
    refine ⟨checked.plain, checked.size, ?_, keyBytes⟩
    by_cases none : integerKeys table.entries = []
    · left
      intro key member
      obtain ⟨index, rfl⟩ | isString := checked.kinds key member
      · exact absurd (mem_integerKeys.mpr member) (by simp [none])
      · exact isString
    · right
      refine ⟨table.rawLen, fun key => ⟨?_, ?_⟩⟩
      · intro member
        obtain ⟨index, rfl⟩ | ⟨bytes, rfl, -⟩ := checked.kinds key member
        · exact ⟨index, (placed index member).1, (placed index member).2, rfl⟩
        · have noStrings := checked.unmixed.resolve_left none
          exact absurd (mem_stringKeys.mpr member) (by simp [noStrings])
      · rintro ⟨index, positive, bounded, rfl⟩
        exact (integerKeys_fill (checked.counted none) placed index).mpr ⟨positive, bounded⟩

/-- An accepted value is well-formed exactly when its integer keys lie between one and the length of
their table and its string keys are within the byte limit. -/
theorem accepted_wellFormed_iff {sourceName : Text} {limits : ValueLimits} {heap : Heap}
    {value : LuaValue} (accepted : validateValueTree sourceName limits heap value = .ok ()) :
    WellFormedValue limits heap value ↔ KeysBounded limits heap value := by
  simp only [validateValueTree, bind_eq_ok, pure_eq_ok, and_true] at accepted
  obtain ⟨after, walked⟩ := accepted
  have result := walked_of_walk walked
  obtain ⟨tree, unfolds, depth, nodes⟩ := result.unfolds
  constructor
  · intro wellFormed id within
    exact (wellFormed_iff_of_checked (result.checks.tables id within)).mp (wellFormed.tables id within)
  · intro bounded
    refine ⟨⟨tree, unfolds, ?_, Nat.le_of_lt_succ depth⟩, result.checks.leaves, ?_⟩
    · have counter := result.counter
      omega
    · intro id within
      exact (wellFormed_iff_of_checked (result.checks.tables id within)).mpr (bounded id within)

/-! Two tables of one element type: `{true, true}` and `{nil, true, [5] = true}`. -/

def filledArray : LuaTable where
  hasMetatable := false
  entries := [(.integer 1, .boolean true), (.integer 2, .boolean true)]
  distinct := by decide
  rawLen := 2
  border := by decide

def sparseArray : LuaTable where
  hasMetatable := false
  entries := [(.integer 2, .boolean true), (.integer 5, .boolean true)]
  distinct := by decide
  rawLen := 2
  border := by decide

theorem filled_array_is_accepted :
    validateValueTree "root.lua".toList .default (fun _ => filledArray) (.table 0) = .ok () ∧
      WellFormedValue .default (fun _ => filledArray) (.table 0) := by
  have accepted : validateValueTree "root.lua".toList .default (fun _ => filledArray) (.table 0) = .ok () := by
    rfl
  refine ⟨accepted, (accepted_wellFormed_iff accepted).mpr fun id _ => ⟨?_, ?_⟩⟩
  · intro index member
    have places : index = 1 ∨ index = 2 := by simpa [LuaTable.keys, filledArray] using member
    rcases places with rfl | rfl <;> simp [filledArray]
  · intro bytes member
    simp [LuaTable.keys, filledArray] at member

theorem sparse_array_is_accepted :
    validateValueTree "root.lua".toList .default (fun _ => sparseArray) (.table 0) = .ok () ∧
      ¬ WellFormedValue .default (fun _ => sparseArray) (.table 0) := by
  refine ⟨rfl, ?_⟩
  intro wellFormed
  obtain isRecord | ⟨length, isArray⟩ := (wellFormed.tables 0 .refl).keys
  · obtain ⟨bytes, isString, -⟩ := isRecord (.integer 2) (by decide)
    cases isString
  · obtain ⟨index, -, bounded, same⟩ := (isArray (.integer 2)).mp (by decide)
    cases same
    have first : LuaValue.integer 1 ∈ sparseArray.keys := (isArray _).mpr ⟨1, Int.le_refl 1, by omega, rfl⟩
    exact absurd first (by decide)

end Cast.LuaConfig
