import Cast.Foundation.SortedMap
import Cast.Foundation.Texts
import Cast.Stone.Records

/-! Dependencies and providers, as `stone/src/relation.rs` has them: a kind and a name, ordered
by the text they print as. Both types of the source come from one macro and are one type here. -/

namespace Cast.Stone

open Foundation List

inductive Kind where
  | packageName
  | sharedLibrary
  | pkgConfig
  | interpreter
  | cmake
  | python
  | binary
  | systemBinary
  | pkgConfig32
deriving DecidableEq

def Kind.text : Kind → List Char
  | packageName => "name".toList
  | sharedLibrary => "soname".toList
  | pkgConfig => "pkgconfig".toList
  | interpreter => "interpreter".toList
  | cmake => "cmake".toList
  | python => "python".toList
  | binary => "binary".toList
  | systemBinary => "sysbinary".toList
  | pkgConfig32 => "pkgconfig32".toList

def Kind.fromStoneDependency : MetaDependency → Option Kind
  | .packageName => some packageName
  | .sharedLibrary => some sharedLibrary
  | .pkgConfig => some pkgConfig
  | .interpreter => some interpreter
  | .cmake => some cmake
  | .python => some python
  | .binary => some binary
  | .systemBinary => some systemBinary
  | .pkgConfig32 => some pkgConfig32
  | .unknown => none

def Kind.toStoneDependency : Kind → MetaDependency
  | packageName => .packageName
  | sharedLibrary => .sharedLibrary
  | pkgConfig => .pkgConfig
  | interpreter => .interpreter
  | cmake => .cmake
  | python => .python
  | binary => .binary
  | systemBinary => .systemBinary
  | pkgConfig32 => .pkgConfig32

def Kind.all : List Kind :=
  [packageName, sharedLibrary, pkgConfig, interpreter, cmake, python, binary, systemBinary, pkgConfig32]

def Kind.parse (text : List Char) : Option Kind := all.find? fun kind => kind.text = text

structure Relation where
  kind : Kind
  name : String
deriving DecidableEq

abbrev Dependency := Relation
abbrev Provider := Relation

inductive ParseError where
  | emptyTarget (value : List Char)
  | malformed (value : List Char)
  | unsupportedKind (kind : List Char)
deriving DecidableEq

/-- The parentheses of a target match, given how many are open. The source counts in a `u32`, which
a target of less than 2³² characters does not overflow. -/
def closesAll : Nat → List Char → Bool
  | depth, [] => depth == 0
  | depth, '(' :: rest => closesAll (depth + 1) rest
  | 0, ')' :: _ => false
  | depth + 1, ')' :: rest => closesAll depth rest
  | depth, _ :: rest => closesAll depth rest

def validateTarget (target value : List Char) : Except ParseError Unit := do
  refuse (target = []) (.emptyTarget value)
  refuse (closesAll 0 target = false) (.malformed value)

def validateBare (value : List Char) : Except ParseError Unit := do
  refuse (value = []) (.emptyTarget value)
  refuse (')' ∈ value) (.malformed value)

def parse (value : List Char) : Except ParseError (Kind × List Char) := do
  let (kind, rest) ← okOr (splitOnce '(' value) (.malformed value)
  refuse (rest.getLast? ≠ some ')') (.malformed value)
  let known ← okOr (Kind.parse kind) (.unsupportedKind kind)
  validateTarget rest.dropLast value
  return (known, rest.dropLast)

namespace Relation

/-- The text of a relation, `kind(name)`. -/
def display (relation : Relation) : List Char := relation.kind.text ++ '(' :: relation.name.toList ++ [')']

def new (kind : Kind) (name : String) : Except ParseError Relation := do
  validateTarget name.toList (display ⟨kind, name⟩)
  return ⟨kind, name⟩

def fromStr (value : List Char) : Except ParseError Relation := do
  let (kind, name) ← parse value
  return ⟨kind, .ofList name⟩

def fromName (value : List Char) : Except ParseError Relation :=
  if '(' ∈ value then fromStr value
  else do
    validateBare value
    return ⟨.packageName, .ofList value⟩

def tryFrom (value : String) : Except ParseError Relation := fromName value.toList

/-- The form that is authored: package names are bare. -/
def toName (relation : Relation) : List Char :=
  if relation.kind = .packageName then relation.name.toList else relation.display

instance : Ord Relation where
  compare := compareOn display

end Relation

/-! ### The order of relations -/

@[simp] theorem Kind.fromStoneDependency_toStoneDependency (kind : Kind) :
    Kind.fromStoneDependency kind.toStoneDependency = some kind := by
  cases kind with
  | _ => rfl

theorem Kind.fromStoneDependency_eq_some {stored : MetaDependency} {kind : Kind} :
    Kind.fromStoneDependency stored = some kind ↔ stored = kind.toStoneDependency := by
  constructor
  · cases stored with
    | unknown => simp [Kind.fromStoneDependency]
    | _ =>
      rintro ⟨⟩
      rfl
  · rintro rfl
    exact kind.fromStoneDependency_toStoneDependency

theorem Kind.text_injective {kind other : Kind} (same : kind.text = other.text) : kind = other := by
  revert same
  cases kind with
  | _ =>
    cases other with
    | _ => decide

theorem Kind.notMem_text (kind : Kind) : '(' ∉ kind.text := by
  cases kind with
  | _ => decide

/-- No two relations print alike: a kind has no parenthesis. -/
theorem Relation.display_injective {relation other : Relation}
    (same : relation.display = other.display) : relation = other := by
  obtain ⟨kind, name⟩ := relation
  obtain ⟨otherKind, otherName⟩ := other
  have split (kind : Kind) (name : String) :
      splitOnce '(' (display ⟨kind, name⟩) = some (kind.text, name.toList ++ [')']) :=
    splitOnce_eq_some.mpr ⟨append_assoc _ _ _, kind.notMem_text⟩
  have parts := congrArg (splitOnce '(') same
  rw [split, split, Option.some.injEq, Prod.mk.injEq] at parts
  rw [Kind.text_injective parts.1, String.toList_inj.mp (append_cancel_right parts.2)]

namespace Relation

instance : Std.TransOrd Relation := inferInstanceAs (Std.TransCmp (compareOn display))

instance : Std.LawfulEqOrd Relation where
  compare_self := Std.ReflCmp.compare_self
  eq_of_compare same := display_injective (Std.LawfulEqOrd.eq_of_compare same)

end Relation

/-! ### Reading relations -/

theorem Kind.parse_eq_some {text : List Char} {kind : Kind} : Kind.parse text = some kind ↔ text = kind.text := by
  constructor
  · intro found
    simpa [eq_comm] using find?_some found
  · rintro rfl
    cases kind with
    | _ => rfl

namespace Relation

/-- The name can stand between the parentheses. -/
def Valid (relation : Relation) : Prop := relation.name.toList ≠ [] ∧ closesAll 0 relation.name.toList = true

variable {kind : Kind} {name : String} {value : List Char} {relation other : Relation}

theorem validateTarget_eq_ok {target : List Char} :
    validateTarget target value = .ok () ↔ target ≠ [] ∧ closesAll 0 target = true := by
  simp [validateTarget]

theorem new_eq_ok : new kind name = .ok relation ↔ relation = ⟨kind, name⟩ ∧ relation.Valid := by
  simp only [new, bind_eq_ok, exists_check, validateTarget_eq_ok, pure_eq_ok, Valid]
  grind

/-- The parser accepts what valid relations print as. -/
theorem fromStr_eq_ok : fromStr value = .ok relation ↔ value = relation.display ∧ relation.Valid := by
  simp only [fromStr, parse, bind_eq_ok, exists_check, okOr_eq_ok, refuse_eq_ok, pure_eq_ok, not_not, Prod.exists,
    splitOnce_eq_some, Kind.parse_eq_some, validateTarget_eq_ok]
  constructor
  · rintro ⟨_, _, ⟨_, rest, ⟨rfl, _⟩, closed, kind, rfl, target, same⟩, made⟩
    cases same
    subst made
    obtain ⟨name, rfl⟩ := getLast?_eq_some_iff.mp closed
    simp only [dropLast_concat] at target
    simp [display, Valid, target]
  · rintro ⟨rfl, valid⟩
    refine ⟨_, _, ⟨_, relation.name.toList ++ [')'], ⟨append_assoc _ _ _, relation.kind.notMem_text⟩, ?_, _, rfl, ?_,
      rfl⟩, ?_⟩
    · simp
    · simpa [Valid] using valid
    · simp

/-- The relations that are made through the constructors. -/
inductive Constructed (relation : Relation) : Prop
  | new {kind : Kind} {name : String} (made : new kind name = .ok relation)
  | fromName {value : List Char} (made : fromName value = .ok relation)
  | fromStr {value : List Char} (made : fromStr value = .ok relation)
  | tryFrom {value : String} (made : tryFrom value = .ok relation)

theorem closesAll_bare (noOpen : '(' ∉ value) : closesAll 0 value = true ↔ ')' ∉ value := by
  induction value with
  | nil => simp [closesAll]
  | cons first rest ih =>
    simp only [mem_cons, not_or] at noOpen
    by_cases closes : first = ')'
    · simp [closes, closesAll]
    · simp [closesAll, Ne.symm noOpen.1, closes, Ne.symm closes, ih noOpen.2]

theorem fromName_bare (noOpen : '(' ∉ value) :
    fromName value = .ok relation ↔ relation = ⟨.packageName, .ofList value⟩ ∧ relation.Valid := by
  simp only [fromName, if_neg noOpen, validateBare, bind_eq_ok, exists_check, refuse_eq_ok, pure_eq_ok, Valid]
  grind [closesAll_bare, String.toList_ofList]

theorem Constructed.valid (constructed : Constructed relation) : relation.Valid := by
  have named {value : List Char} (made : Relation.fromName value = .ok relation) : relation.Valid := by
    by_cases isOpen : '(' ∈ value
    · rw [Relation.fromName, if_pos isOpen] at made
      exact (fromStr_eq_ok.mp made).2
    · exact ((fromName_bare isOpen).mp made).2
  cases constructed with
  | new made => exact (new_eq_ok.mp made).2
  | fromName made | tryFrom made => exact named made
  | fromStr made => exact (fromStr_eq_ok.mp made).2

/-- A relation is read back from its text. It is read back from its authored form unless it is a
package name with a parenthesis, and the order tells all relations apart. -/
theorem relation_texts_read_back_iff (constructed : Constructed relation) :
    Relation.fromStr relation.display = .ok relation ∧ (Relation.fromName relation.toName = .ok relation ↔
        (relation.kind = .packageName → '(' ∉ relation.name.toList)) ∧
      (∀ other, Constructed other → (compare relation other = .eq ↔ relation = other)) ∧
      ∀ list, relation ∈ (SortedSet.ofList list).elements ↔ relation ∈ list := by
  have valid := constructed.valid
  refine ⟨fromStr_eq_ok.mpr ⟨rfl, valid⟩, ?_, fun other _ => Std.LawfulEqOrd.compare_eq_iff_eq,
    fun list => SortedSet.mem_ofList⟩
  by_cases isName : relation.kind = .packageName
  · by_cases isOpen : '(' ∈ relation.name.toList
    · -- The bare name is read as the text of another, shorter relation.
      have notRead : Relation.fromName relation.toName ≠ .ok relation := by
        rw [toName, if_pos isName, Relation.fromName, if_pos isOpen]
        intro read
        have lengths := congrArg length (fromStr_eq_ok.mp read).1
        simp [display] at lengths
        omega
      simp [notRead, isName, isOpen]
    · rw [toName, if_pos isName, fromName_bare isOpen]
      simp [isOpen, valid, ← isName]
  · have isOpen : '(' ∈ relation.display := by simp [display]
    rw [toName, if_neg isName, Relation.fromName, if_pos isOpen, fromStr_eq_ok]
    simp [isName, valid]

theorem shared_library_reads_back :
    let relation : Relation := ⟨.sharedLibrary, "libz.so.1(x86_64)"⟩
    Constructed relation ∧ Relation.fromName relation.toName = .ok relation := by
  have made : Relation.new .sharedLibrary "libz.so.1(x86_64)" = .ok ⟨.sharedLibrary, "libz.so.1(x86_64)"⟩ := rfl
  exact ⟨.new made, (relation_texts_read_back_iff (.new made)).2.1.mpr (by decide)⟩

/-- A package name that is read back as a binary. -/
theorem parenthesised_package_name_is_lost :
    let relation : Relation := ⟨.packageName, "binary(nano)"⟩
    Constructed relation ∧ Relation.fromName relation.toName = .ok ⟨.binary, "nano"⟩ ∧
      Relation.fromName relation.toName ≠ .ok relation := by
  have made : Relation.new .packageName "binary(nano)" = .ok ⟨.packageName, "binary(nano)"⟩ := rfl
  exact ⟨.new made, by decide, by decide⟩

end Relation

end Cast.Stone
