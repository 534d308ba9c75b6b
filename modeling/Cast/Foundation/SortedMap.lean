import Mathlib.Data.List.Nodup
import Cast.Foundation.Loops

/-! Ordered maps. A map is the list of its entries in strictly increasing order
of their keys, and carries that order with it. The one law beyond lookup is
about probing: in an interval of keys that starts at the probed key, the first
entry from there on decides whether the map has any key of the interval.
A set is a map to nothing, and is determined by its elements. -/

namespace Cast.Foundation

open Std List

/-- Whether a text is among others is decided by the equality of its characters. -/
instance lawfulText : LawfulBEq (List Char) := inferInstance

structure SortedMap (κ ν : Type) [Ord κ] where
  entries : List (κ × ν)
  sorted : entries.Pairwise fun left right => compare left.1 right.1 = .lt

/-- A key interval that begins with `first`, whether or not it contains it. -/
structure IntervalFrom {κ : Type} [Ord κ] (first : κ) (inside : κ → Prop) : Prop where
  atLeast : ∀ key, inside key → (compare first key).isLE = true
  convex : ∀ key between, inside key → (compare first between).isLE = true →
    (compare between key).isLE = true → inside between

namespace SortedMap

variable {κ ν : Type} [Ord κ]

def empty : SortedMap κ ν := ⟨[], .nil⟩

def find? (map : SortedMap κ ν) (key : κ) : Option ν :=
  (map.entries.find? fun entry => compare entry.1 key == .eq).map (·.2)

/-- The entry with the least key that is not below `key`. -/
def firstFrom (map : SortedMap κ ν) (key : κ) : Option (κ × ν) :=
  map.entries.find? fun entry => (compare key entry.1).isLE

/-- The entries with one more; an entry that had the key is replaced. -/
def insertEntry (key : κ) (value : ν) : List (κ × ν) → List (κ × ν)
  | [] => [(key, value)]
  | entry :: rest =>
    match compare key entry.1 with
    | .lt => (key, value) :: entry :: rest
    | .eq => (key, value) :: rest
    | .gt => entry :: insertEntry key value rest

variable {map : SortedMap κ ν} {entry : κ × ν}

/-- When the map has a key of an interval, the first entry from the interval's
beginning on is one. -/
theorem firstFrom_of_interval {first : κ} {inside : κ → Prop}
    (interval : IntervalFrom first inside) (member : entry ∈ map.entries)
    (within : inside entry.1) : ∃ found, map.firstFrom first = some found ∧ inside found.1 := by
  have probed : ((map.firstFrom first).isSome) = true :=
    find?_isSome.mpr ⟨entry, member, interval.atLeast _ within⟩
  obtain ⟨found, isFound⟩ := Option.isSome_iff_exists.mp probed
  obtain ⟨reached, before, after, split, skipped⟩ := find?_eq_some_iff_append.mp isFound
  refine ⟨found, isFound, ?_⟩
  rw [split, mem_append, mem_cons] at member
  obtain earlier | rfl | later := member
  · have missed := skipped entry earlier
    simp [interval.atLeast _ within] at missed
  · exact within
  · have sorted := map.sorted
    rw [split] at sorted
    refine interval.convex entry.1 found.1 within reached ?_
    rw [(pairwise_cons.mp (pairwise_append.mp sorted).2.1).1 entry later]
    rfl

/-- It is enough to look at that entry to know that no key is in the interval. -/
theorem forall_firstFrom_iff {first : κ} {inside : κ → Prop} (interval : IntervalFrom first inside) :
    (∀ entry, map.firstFrom first = some entry → ¬ inside entry.1) ↔ ∀ entry ∈ map.entries, ¬ inside entry.1 := by
  constructor
  · intro outside entry member within
    obtain ⟨found, probed, foundInside⟩ := firstFrom_of_interval interval member within
    exact outside found probed foundInside
  · intro outside entry probed
    exact outside entry (mem_of_find?_eq_some probed)

variable {key : κ}

theorem find?_eq_none [LawfulEqOrd κ] :
    map.find? key = none ↔ ∀ entry ∈ map.entries, entry.1 ≠ key := by
  simp [find?]

variable {value : ν}

theorem mem_of_find?_eq_some [LawfulEqOrd κ] (found : map.find? key = some value) : (key, value) ∈ map.entries := by
  obtain ⟨entry, probed, same⟩ := Option.map_eq_some_iff.mp found
  have equal := find?_some probed
  have sameKey : entry.1 = key := LawfulEqCmp.eq_of_compare (eq_of_beq equal)
  rw [← sameKey, ← same]
  exact List.mem_of_find?_eq_some probed

variable {entries : List (κ × ν)}

theorem mem_of_mem_insertEntry
    (member : entry ∈ insertEntry key value entries) : entry = (key, value) ∨ entry ∈ entries := by
  induction entries with
  | nil => exact .inl (mem_singleton.mp member)
  | cons first rest ih =>
    rw [insertEntry] at member
    cases ordering : compare key first.1 with
    | lt =>
      simp only [ordering, mem_cons] at member
      exact member.imp_right mem_cons.mpr
    | eq =>
      simp only [ordering, mem_cons] at member
      exact member.imp_right (mem_cons_of_mem _)
    | gt =>
      simp only [ordering, mem_cons] at member
      obtain same | later := member
      · exact .inr (mem_cons.mpr (.inl same))
      · exact (ih later).imp_right (mem_cons_of_mem _)

variable [TransOrd κ]

theorem insertEntry_sorted (sorted : entries.Pairwise fun left right => compare left.1 right.1 = .lt) :
    (insertEntry key value entries).Pairwise fun left right =>
      compare left.1 right.1 = .lt := by
  induction entries with
  | nil => exact pairwise_singleton _ _
  | cons first rest ih =>
    obtain ⟨above, restSorted⟩ := pairwise_cons.mp sorted
    rw [insertEntry]
    cases ordering : compare key first.1 with
    | lt =>
      refine pairwise_cons.mpr ⟨forall_mem_cons.mpr ⟨ordering, fun entry later => ?_⟩, sorted⟩
      exact TransCmp.lt_trans ordering (above entry later)
    | eq =>
      refine pairwise_cons.mpr ⟨?_, restSorted⟩
      intro entry member
      exact TransCmp.lt_of_eq_of_lt ordering (above entry member)
    | gt =>
      refine pairwise_cons.mpr ⟨?_, ih restSorted⟩
      intro entry member
      obtain rfl | later := mem_of_mem_insertEntry member
      · exact OrientedCmp.lt_of_gt ordering
      · exact above entry later

def insert (map : SortedMap κ ν) (key : κ) (value : ν) : SortedMap κ ν :=
  ⟨insertEntry key value map.entries, insertEntry_sorted map.sorted⟩

def erase (map : SortedMap κ ν) (key : κ) : SortedMap κ ν :=
  ⟨map.entries.filter fun entry => compare entry.1 key != .eq, map.sorted.filter _⟩

section Lookup

variable [LawfulEqOrd κ] {map : SortedMap κ ν} {key other : κ} {value : ν}

omit [LawfulEqOrd κ] in
theorem ne_of_compare_lt {lower upper : κ} (before : compare lower upper = .lt) : upper ≠ lower := by
  intro same
  rw [same, ReflOrd.compare_self] at before
  cases before

omit [LawfulEqOrd κ] in
theorem keys_nodup (map : SortedMap κ ν) : (map.entries.map Prod.fst).Nodup := by
  refine pairwise_map.mpr (map.sorted.imp ?_)
  intro first second before
  exact (ne_of_compare_lt before).symm

theorem find?_eq_some_iff : map.find? key = some value ↔ (key, value) ∈ map.entries := by
  constructor
  · exact mem_of_find?_eq_some
  · intro member
    cases found : map.find? key with
    | none => exact absurd rfl (find?_eq_none.mp found _ member)
    | some present =>
      have same := inj_on_of_nodup_map map.keys_nodup (mem_of_find?_eq_some found) member rfl
      rw [(Prod.mk.inj same).2]

theorem isSome_find? : (map.find? key).isSome = true ↔ key ∈ map.entries.map Prod.fst := by
  simp [Option.isSome_iff_exists, find?_eq_some_iff]

theorem mem_insertEntry_iff {entries : List (κ × ν)} {entry : κ × ν}
    (sorted : entries.Pairwise fun left right => compare left.1 right.1 = .lt) :
    entry ∈ insertEntry key value entries ↔ entry = (key, value) ∨ (entry ∈ entries ∧ entry.1 ≠ key) := by
  induction entries with
  | nil => simp [insertEntry]
  | cons first rest ih =>
    obtain ⟨above, restSorted⟩ := pairwise_cons.mp sorted
    rw [insertEntry]
    cases ordering : compare key first.1 with
    | lt =>
      have absent : ∀ known ∈ first :: rest, known.1 ≠ key := by
        refine forall_mem_cons.mpr ⟨ne_of_compare_lt ordering, fun known later => ?_⟩
        exact ne_of_compare_lt (TransCmp.lt_trans ordering (above known later))
      rw [mem_cons]
      exact or_congr_right ⟨fun member => ⟨member, absent entry member⟩, fun held => held.1⟩
    | eq =>
      have taken : key = first.1 := LawfulEqCmp.eq_of_compare ordering
      have absent : ∀ known ∈ rest, known.1 ≠ key := by
        intro known member
        rw [taken]
        exact ne_of_compare_lt (above known member)
      rw [mem_cons, mem_cons]
      refine or_congr_right ⟨fun member => ⟨.inr member, absent entry member⟩, ?_⟩
      intro held
      obtain ⟨same | later, unlike⟩ := held
      · exact absurd (same ▸ taken.symm) unlike
      · exact later
    | gt =>
      have unlike : first.1 ≠ key := (ne_of_compare_lt (OrientedCmp.lt_of_gt ordering)).symm
      have later := ih restSorted
      have own : entry = first → entry.1 ≠ key := by
        rintro rfl
        exact unlike
      rw [mem_cons, later, mem_cons, or_and_right, and_iff_left_of_imp own]
      exact or_left_comm

theorem mem_insert {entry : κ × ν} (fresh : map.find? key = none) :
    entry ∈ (map.insert key value).entries ↔ entry = (key, value) ∨ entry ∈ map.entries := by
  refine (mem_insertEntry_iff map.sorted).trans (or_congr_right ⟨fun held => held.1, ?_⟩)
  intro member
  exact ⟨member, find?_eq_none.mp fresh entry member⟩

theorem find?_insert_self : (map.insert key value).find? key = some value :=
  find?_eq_some_iff.mpr ((mem_insertEntry_iff map.sorted).mpr (.inl rfl))

theorem find?_insert_of_ne (differs : other ≠ key) : (map.insert key value).find? other = map.find? other := by
  refine Option.ext fun found => ?_
  rw [find?_eq_some_iff, find?_eq_some_iff]
  refine (mem_insertEntry_iff map.sorted).trans ⟨?_, fun member => .inr ⟨member, differs⟩⟩
  intro held
  rcases held with same | known
  · exact absurd (Prod.mk.inj same).1 differs
  · exact known.1

theorem find?_erase_eq_some {present : ν} : (map.erase key).find? other = some present ↔
    map.find? other = some present ∧ other ≠ key := by
  rw [find?_eq_some_iff, find?_eq_some_iff]
  simp [erase]

theorem find?_erase_self : (map.erase key).find? key = none := by
  cases found : (map.erase key).find? key with
  | none => rfl
  | some present => exact absurd rfl (find?_erase_eq_some.mp found).2

theorem find?_erase_of_ne (differs : other ≠ key) : (map.erase key).find? other = map.find? other := by
  refine Option.ext fun found => find?_erase_eq_some.trans ?_
  exact and_iff_left differs

theorem ext_find? {first second : SortedMap κ ν} (same : ∀ key, first.find? key = second.find? key) :
    first = second := by
  have members : ∀ entry, entry ∈ first.entries ↔ entry ∈ second.entries := by
    intro entry
    have found : first.find? entry.1 = some entry.2 ↔ second.find? entry.1 = some entry.2 := by rw [same]
    rwa [find?_eq_some_iff, find?_eq_some_iff] at found
  have permuted := (perm_ext_iff_of_nodup (.of_map _ first.keys_nodup) (.of_map _ second.keys_nodup)).mpr members
  have equal : first.entries = second.entries := by
    refine permuted.eq_of_pairwise ?_ first.sorted second.sorted
    intro left right _ _ before after
    exact absurd after (OrientedCmp.not_lt_of_lt before)
  cases first
  cases equal
  rfl

section Choosing

variable {α : Type} {step : SortedMap κ ν → α → SortedMap κ ν} {keyOf : α → κ} {choose : α → Option ν} {list : List α}
  (chosen : ∀ map element value, choose element = some value → step map element = map.insert (keyOf element) value)
  (skipped : ∀ map element, choose element = none → step map element = map)
include chosen skipped

/-- Of several values that are chosen for one key, the last stays. -/
theorem find?_foldl_last [DecidableEq κ] : (list.foldl step map).find? key =
    (((list.filter fun element => keyOf element = key).filterMap choose).getLast?).or (map.find? key) := by
  induction list generalizing map with
  | nil => rfl
  | cons first rest ih =>
    rw [foldl_cons, ih]
    by_cases same : keyOf first = key
    · rw [filter_cons_of_pos (by simpa using same)]
      cases choice : choose first with
      | none => rw [skipped map first choice, filterMap_cons_none choice]
      | some value =>
        rw [chosen map first value choice, filterMap_cons_some choice, same, find?_insert_self, getLast?_cons]
        cases ((rest.filter fun element => keyOf element = key).filterMap choose).getLast? <;> rfl
    · rw [filter_cons_of_neg (by simpa using same)]
      cases choice : choose first with
      | none => rw [skipped map first choice]
      | some value => rw [chosen map first value choice, find?_insert_of_ne (Ne.symm same)]

theorem find?_foldl_sound (found : (list.foldl step map).find? key = some value) :
    map.find? key = some value ∨ ∃ element ∈ list, keyOf element = key ∧ choose element = some value := by
  classical
  rw [find?_foldl_last chosen skipped, Option.or_eq_some_iff] at found
  rcases found with isLast | ⟨_, before⟩
  · obtain ⟨element, isElement, choice⟩ := mem_filterMap.mp (mem_of_getLast? isLast)
    obtain ⟨member, same⟩ := mem_filter.mp isElement
    exact .inr ⟨element, member, of_decide_eq_true same, choice⟩
  · exact .inl before

theorem find?_foldl_choose (distinct : (list.map keyOf).Nodup)
    (absent : ∀ element ∈ list, map.find? (keyOf element) = none) :
    (list.foldl step map).find? key = some value ↔
      map.find? key = some value ∨ ∃ element ∈ list, keyOf element = key ∧ choose element = some value := by
  classical
  constructor
  · exact find?_foldl_sound chosen skipped
  rw [find?_foldl_last chosen skipped]
  rintro (before | ⟨element, member, rfl, choice⟩)
  · have unused : (list.filter fun element => keyOf element = key) = [] := by
      refine filter_eq_nil_iff.mpr ?_
      intro element member same
      have none := absent element member
      rw [of_decide_eq_true same, before] at none
      cases none
    rw [unused]
    exact before
  · have isChosen : value ∈ (list.filter fun other => keyOf other = keyOf element).filterMap choose :=
      mem_filterMap.mpr ⟨element, mem_filter.mpr ⟨member, by simp⟩, choice⟩
    obtain ⟨last, isLast⟩ := Option.isSome_iff_exists.mp (getLast?_isSome.mpr (ne_nil_of_mem isChosen))
    obtain ⟨other, isOther, otherChoice⟩ := mem_filterMap.mp (mem_of_getLast? isLast)
    obtain ⟨otherMember, same⟩ := mem_filter.mp isOther
    have equal := inj_on_of_nodup_map distinct otherMember member (of_decide_eq_true same)
    rw [isLast, ← otherChoice, equal, choice]
    rfl

end Choosing

theorem find?_foldl_insert [DecidableEq κ] {keyOf : ν → κ} {values : List ν} :
    (values.foldl (fun map value => map.insert (keyOf value) value) map).find? key =
      ((values.filter fun value => keyOf value = key).getLast?).or (map.find? key) := by
  rw [← @filterMap_some _ (values.filter _)]
  exact find?_foldl_last (by rintro map value _ ⟨⟩; rfl) (by rintro _ _ ⟨⟩)

theorem mem_foldl_insert {keyOf : ν → κ} {values : List ν} {entry : κ × ν} (distinct : (values.map keyOf).Nodup)
    (absent : ∀ value ∈ values, ∀ known ∈ map.entries, known.1 ≠ keyOf value) :
    entry ∈ (values.foldl (fun map value => map.insert (keyOf value) value) map).entries ↔
      entry ∈ map.entries ∨ ∃ value ∈ values, entry = (keyOf value, value) := by
  have general := @find?_foldl_choose _ _ _ _ _ map entry.1 entry.2 _
    (fun map value => map.insert (keyOf value) value) keyOf some values (by rintro map value _ ⟨⟩; rfl) (by rintro _ _ ⟨⟩)
    distinct fun value member => find?_eq_none.mpr (absent value member)
  rw [find?_eq_some_iff, find?_eq_some_iff] at general
  refine general.trans (or_congr_right (exists_congr fun value => and_congr_right fun _ => ?_))
  rw [Prod.ext_iff, Option.some_inj, eq_comm, @eq_comm _ value]

end Lookup

theorem values_foldl_insert [LawfulEqOrd κ] {keyOf : ν → κ} {values : List ν} (distinct : (values.map keyOf).Nodup) :
    ((values.foldl (fun map value => map.insert (keyOf value) value)
      (empty : SortedMap κ ν)).entries.map Prod.snd).Perm values := by
  have members : ∀ entry, entry ∈ (values.foldl (fun map value => map.insert (keyOf value) value)
      (empty : SortedMap κ ν)).entries ↔ ∃ value ∈ values, entry = (keyOf value, value) := by
    intro entry
    rw [mem_foldl_insert distinct (by simp [empty])]
    simp [empty]
  generalize values.foldl _ (empty : SortedMap κ ν) = built at members ⊢
  have nodup : (built.entries.map Prod.snd).Nodup := by
    refine Nodup.map_on ?_ (Nodup.of_map _ built.keys_nodup)
    intro left leftMember right rightMember same
    obtain ⟨value, _, isLeft⟩ := (members left).mp leftMember
    obtain ⟨other, _, isRight⟩ := (members right).mp rightMember
    subst isLeft
    subst isRight
    cases same
    rfl
  rw [perm_ext_iff_of_nodup nodup (Nodup.of_map _ distinct)]
  intro value
  simp [members]

end SortedMap

structure SortedSet (α : Type) [Ord α] where
  map : SortedMap α Unit

namespace SortedSet

variable {α : Type} [Ord α]

def empty : SortedSet α := ⟨SortedMap.empty⟩

def elements (set : SortedSet α) : List α := set.map.entries.map Prod.fst

@[simp] theorem elements_empty : (empty : SortedSet α).elements = [] := rfl

variable [TransOrd α]

def insert (set : SortedSet α) (element : α) : SortedSet α := ⟨set.map.insert element ()⟩

def ofList (list : List α) : SortedSet α := list.foldl insert empty

variable [LawfulEqOrd α] {set : SortedSet α} {element other : α} {list : List α}

theorem mem_elements : element ∈ set.elements ↔ set.map.find? element = some () := by
  rw [elements, ← SortedMap.isSome_find?, Option.isSome_iff_exists, Unique.exists_iff]

@[simp] theorem mem_insert : element ∈ (set.insert other).elements ↔
    element = other ∨ element ∈ set.elements := by
  rw [mem_elements, mem_elements, insert]
  by_cases same : element = other
  · subst same
    simp [SortedMap.find?_insert_self]
  · simp [SortedMap.find?_insert_of_ne same, same]

theorem mem_foldl_insert : element ∈ (list.foldl insert set).elements ↔ element ∈ list ∨ element ∈ set.elements := by
  rw [foldl_iff insert (fun set => element ∈ set.elements) (element = ·) fun _ _ => mem_insert]
  simp

@[simp] theorem mem_ofList : element ∈ (ofList list).elements ↔ element ∈ list := by
  simp [ofList, mem_foldl_insert]

omit [LawfulEqOrd α] in
theorem elements_nodup : set.elements.Nodup := set.map.keys_nodup

theorem length_insert_of_notMem (absent : element ∉ set.elements) :
    (set.insert element).elements.length = set.elements.length + 1 := by
  have permuted : List.Perm (set.insert element).elements (element :: set.elements) := by
    rw [List.perm_ext_iff_of_nodup elements_nodup (List.nodup_cons.mpr ⟨absent, elements_nodup⟩)]
    intro other
    rw [mem_insert, List.mem_cons]
  exact permuted.length_eq

theorem ext {first second : SortedSet α}
    (same : ∀ element, element ∈ first.elements ↔ element ∈ second.elements) : first = second := by
  obtain ⟨map⟩ := first
  obtain ⟨other⟩ := second
  have lookups : map = other := by
    refine SortedMap.ext_find? fun element => Option.ext fun _ => ?_
    have agree := same element
    rw [mem_elements, mem_elements] at agree
    exact agree
  rw [lookups]

@[simp] theorem ofList_elements : ofList set.elements = set := ext fun _ => mem_ofList

end SortedSet

end Cast.Foundation
