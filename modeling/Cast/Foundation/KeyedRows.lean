import Cast.Foundation.SortedMap

/-! Lists whose items have keys. An item is looked up with its position; a map can be
filled from such a list, refusing a key that occurs twice, and then looks up what the
list does. -/

namespace Cast.Foundation

open Std List

section Rows

variable {α κ : Type} [DecidableEq κ] {keyOf : α → κ} {items : List α} {item : α} {key : κ} {index : Nat}

/-- The first item of the key, with its position. -/
def rowAt (keyOf : α → κ) (items : List α) (key : κ) : Option (Nat × α) :=
  (items.zipIdx.find? fun row => keyOf row.1 = key).map fun row => (row.2, row.1)

@[simp] theorem rowAt_nil : rowAt keyOf [] key = none := rfl

theorem rowAt_append_singleton : rowAt keyOf (items ++ [item]) key =
      (rowAt keyOf items key).or (if keyOf item = key then some (items.length, item) else none) := by
  simp only [rowAt, zipIdx_append, find?_append, Option.map_or]
  congr 1
  by_cases same : keyOf item = key <;> simp [same]

theorem rowAt_eq_none : rowAt keyOf items key = none ↔ ∀ item ∈ items, keyOf item ≠ key := by
  simp only [rowAt, Option.map_eq_none_iff, find?_eq_none, decide_eq_true_eq]
  rw [← @forall_mem_map _ _ Prod.fst items.zipIdx fun item => keyOf item ≠ key, zipIdx_map_fst]

theorem rowAt_eq_some (found : rowAt keyOf items key = some (index, item)) :
    items[index]? = some item ∧ keyOf item = key := by
  obtain ⟨row, probed, same⟩ := Option.map_eq_some_iff.mp found
  have matched : keyOf row.1 = key := by simpa using find?_some probed
  obtain ⟨sameIndex, sameItem⟩ := Prod.mk.inj same
  subst sameIndex sameItem
  exact ⟨mk_mem_zipIdx_iff_getElem?.mp (mem_of_find?_eq_some probed), matched⟩

section

variable (distinct : (items.map keyOf).Nodup)
include distinct

theorem rowAt_of_getElem? (found : items[index]? = some item) :
    rowAt keyOf items (keyOf item) = some (index, item) := by
  cases looked : rowAt keyOf items (keyOf item) with
  | none => exact absurd rfl (rowAt_eq_none.mp looked item (mem_of_getElem? found))
  | some row =>
    obtain ⟨position, other⟩ := row
    obtain ⟨atPosition, sameKey⟩ := rowAt_eq_some looked
    obtain ⟨inside, _⟩ := List.getElem?_eq_some_iff.mp atPosition
    have sameKeys : (items.map keyOf)[position]? = (items.map keyOf)[index]? := by simp [atPosition, found, sameKey]
    obtain rfl := (getElem?_inj (by simpa using inside) distinct).mp sameKeys
    rw [found] at atPosition
    cases atPosition
    rfl

theorem filter_key_eq_find? :
    (items.filter fun item => keyOf item = key) = (items.find? fun item => keyOf item = key).toList := by
  induction items with
  | nil => rfl
  | cons item rest ih =>
    rw [map_cons, nodup_cons] at distinct
    by_cases same : keyOf item = key
    · have others : (rest.filter fun item => keyOf item = key) = [] := by
        rw [filter_eq_nil_iff]
        intro other member
        rw [decide_eq_true_eq, ← same]
        intro equal
        exact distinct.1 (equal ▸ mem_map_of_mem member)
      simp [same, others]
    · simp [same, ih distinct.2]

theorem find?_key_of_mem (member : item ∈ items) :
    (items.find? fun other => keyOf other = keyOf item) = some item := by
  cases found : items.find? fun other => keyOf other = keyOf item with
  | none => exact absurd (decide_eq_true rfl) (find?_eq_none.mp found item member)
  | some other =>
    have sameKey : keyOf other = keyOf item := by simpa using find?_some found
    rw [inj_on_of_nodup_map distinct (mem_of_find?_eq_some found) member sameKey]

end

theorem find?_key_of_not_mem (absent : key ∉ items.map keyOf) : (items.find? fun item => keyOf item = key) = none := by
  rw [find?_eq_none]
  intro item member same
  exact absent (of_decide_eq_true same ▸ mem_map_of_mem member)

end Rows

section Filling

variable {α κ ν ε : Type} [DecidableEq κ] [Ord κ] [TransOrd κ] [LawfulEqOrd κ] {keyOf : α → κ}
  {value : Nat → α → ν} {duplicate : Nat → ε}

/-- The map with the items from the given position on, each under its key. -/
def insertDistinct (keyOf : α → κ) (value : Nat → α → ν) (duplicate : Nat → ε) :
    Nat → SortedMap κ ν → List α → Except ε (SortedMap κ ν)
  | _, map, [] => .ok map
  | index, map, item :: rest => do
    refuse ((map.find? (keyOf item)).isSome = true) (duplicate index)
    insertDistinct keyOf value duplicate (index + 1) (map.insert (keyOf item) (value index item)) rest

/-- The map looks up what the list does, and the list has no key twice. -/
structure Fills (keyOf : α → κ) (value : Nat → α → ν) (items : List α) (map : SortedMap κ ν) :
    Prop where
  distinct : (items.map keyOf).Nodup
  lookup : ∀ key, map.find? key = (rowAt keyOf items key).map fun row => value row.1 row.2

omit [TransOrd κ] [LawfulEqOrd κ] in
theorem Fills.nil : Fills keyOf value [] .empty where
  distinct := nodup_nil
  lookup _ := rfl

theorem Fills.insert {items : List α} {item : α} {map : SortedMap κ ν}
    (fills : Fills keyOf value items map) (fresh : map.find? (keyOf item) = none) :
    Fills keyOf value (items ++ [item]) (map.insert (keyOf item) (value items.length item)) where
  distinct := by
    rw [fills.lookup, Option.map_eq_none_iff, rowAt_eq_none] at fresh
    rw [map_append, nodup_append_comm, map_singleton, singleton_append, nodup_cons]
    exact ⟨by simpa using fresh, fills.distinct⟩
  lookup key := by
    rw [rowAt_append_singleton]
    by_cases same : keyOf item = key
    · subst same
      rw [fills.lookup, Option.map_eq_none_iff] at fresh
      simp [SortedMap.find?_insert_self, fresh]
    · rw [SortedMap.find?_insert_of_ne (Ne.symm same), fills.lookup]
      simp [same]

theorem insertDistinct_fills {items rest : List α} {map filled : SortedMap κ ν} (fills : Fills keyOf value items map)
    (inserted : insertDistinct keyOf value duplicate items.length map rest = .ok filled) :
    Fills keyOf value (items ++ rest) filled := by
  induction rest generalizing items map with
  | nil =>
    cases inserted
    rw [append_nil]
    exact fills
  | cons item rest ih =>
    simp only [insertDistinct, bind_eq_ok, exists_check, refuse_eq_ok, Bool.not_eq_true,
      Option.isSome_eq_false_iff, Option.isNone_iff_eq_none] at inserted
    obtain ⟨fresh, later⟩ := inserted
    have arranged : items ++ item :: rest = (items ++ [item]) ++ rest := by simp
    rw [arranged]
    refine ih (fills.insert fresh) ?_
    rw [length_append, length_singleton]
    exact later

theorem insertDistinct_total {items rest : List α} {map : SortedMap κ ν}
    (fills : Fills keyOf value items map) (distinct : ((items ++ rest).map keyOf).Nodup) :
    ∃ filled, insertDistinct keyOf value duplicate items.length map rest = .ok filled := by
  induction rest generalizing items map with
  | nil => exact ⟨map, rfl⟩
  | cons item rest ih =>
    have arranged : items ++ item :: rest = (items ++ [item]) ++ rest := by simp
    have fresh : map.find? (keyOf item) = none := by
      rw [fills.lookup, Option.map_eq_none_iff, rowAt_eq_none]
      rw [map_append, nodup_append] at distinct
      intro known member same
      exact distinct.2.2 _ (mem_map_of_mem member) _ (mem_map_of_mem mem_cons_self) same
    rw [arranged] at distinct
    obtain ⟨filled, later⟩ := ih (fills.insert fresh) distinct
    rw [length_append, length_singleton] at later
    refine ⟨filled, ?_⟩
    simp only [insertDistinct, bind_eq_ok, exists_check, refuse_eq_ok, fresh]
    exact ⟨by simp, later⟩

end Filling

end Cast.Foundation
