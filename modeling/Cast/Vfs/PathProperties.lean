import Cast.Foundation.Sorting
import Cast.Vfs.Builder

/-! Normalized paths. Such a path is written from the list of its names, and everything
that the code does with its text is said in terms of that list: the parent drops the last
name, the directories above are the shorter lists, and the sort puts each before what lies
below it. -/

namespace Cast.Vfs

open Foundation List File

variable {more : List AStr} {name parent : AStr} {T : Type} {upper lower : File T}

section Names

/-- A name is not empty and has no separator. -/
structure IsName (name : AStr) : Prop where
  filled : name ≠ []
  whole : '/' ∉ name

def Clean (names : List AStr) : Prop := ∀ name ∈ names, IsName name

/-- Each name after a separator. -/
def renderTail (names : List AStr) : AStr := names.flatMap ('/' :: ·)

def render (names : List AStr) : AStr := if names = [] then ['/'] else renderTail names

def namesOf (path : AStr) : List AStr := (path.splitOn '/').filter (· ≠ [])

variable {names : List AStr}

theorem clean_nil : Clean [] := fun _ member => absurd member not_mem_nil

theorem Clean.append (clean : Clean names) (cleanMore : Clean more) : Clean (names ++ more) :=
  forall_mem_append.mpr ⟨clean, cleanMore⟩

theorem Clean.of_leading (clean : Clean more) (leading : names <+: more) : Clean names :=
  fun name member => clean name (leading.subset member)

theorem renderTail_append : renderTail (names ++ more) = renderTail names ++ renderTail more := flatMap_append

@[simp] theorem renderTail_nil : renderTail [] = [] := rfl

@[simp] theorem renderTail_singleton : renderTail [name] = '/' :: name := by simp [renderTail]

@[simp] theorem render_nil : render [] = ['/'] := rfl

theorem render_of_ne_nil (filled : names ≠ []) : render names = renderTail names := if_neg filled

theorem render_concat : render (names ++ [name]) = renderTail names ++ '/' :: name := by
  rw [render_of_ne_nil (by simp), renderTail_append, renderTail_singleton]

@[simp] theorem renderTail_cons : renderTail (name :: names) = '/' :: name ++ renderTail names := by
  simp [renderTail]

theorem splitOn_renderTail (whole : '/' ∉ name) (clean : Clean names) :
    (name ++ renderTail names).splitOn '/' = name :: names := by
  induction names generalizing name with
  | nil => simp [splitOn_eq_singleton whole]
  | cons next rest ih =>
    obtain ⟨nextClean, restClean⟩ := forall_mem_cons.mp clean
    rw [renderTail_cons, cons_append, splitOn_append_cons_self_of_not_mem whole, ih nextClean.whole restClean]

theorem head?_render : (render names).head? = some '/' := by
  cases names with
  | nil => rfl
  | cons first rest => rw [render_of_ne_nil (by simp), renderTail_cons]; rfl

section

variable (clean : Clean names)
include clean

theorem filter_clean : names.filter (· ≠ []) = names := by
  rw [filter_eq_self]
  intro name member
  exact decide_eq_true (clean name member).filled

theorem namesOf_render : namesOf (render names) = names := by
  rw [namesOf]
  cases names with
  | nil => decide
  | cons first rest =>
    have split := @splitOn_renderTail [] (first :: rest) (by simp) clean
    rw [nil_append] at split
    rw [render_of_ne_nil (by simp), split, filter_cons_of_neg (by simp), filter_clean clean]

theorem render_ne_root (filled : names ≠ []) : 1 < (render names).length := by
  obtain ⟨first, rest, rfl⟩ := exists_cons_of_ne_nil filled
  have nonempty := length_pos_iff.mpr (clean first mem_cons_self).filled
  rw [render_of_ne_nil filled, renderTail_cons]
  simp only [cons_append, length_cons, length_append]
  omega

theorem getLast?_render (filled : names ≠ []) : (render names).getLast? ≠ some '/' := by
  obtain ⟨leading, last, rfl⟩ := (eq_nil_or_concat' names).resolve_left filled
  have isName := clean last (by simp)
  rw [render_concat, getLast?_append, getLast?_cons]
  obtain ⟨final, isFinal⟩ := getLast?_isSome.mpr isName.filled |> Option.isSome_iff_exists.mp
  rw [isFinal]
  intro same
  cases same
  exact isName.whole (mem_of_getLast? isFinal)

theorem join_render (isName : IsName name) : join (render names) name = render (names ++ [name]) := by
  have notAbsolute : name.head? ≠ some '/' := by
    intro same
    exact isName.whole (mem_of_head? same)
  rw [join, if_neg notAbsolute, render_concat]
  cases names with
  | nil => rfl
  | cons first rest =>
    have filled : first :: rest ≠ [] := cons_ne_nil _ _
    rw [if_neg (getLast?_render clean filled), render_of_ne_nil filled]

theorem components_render : components (render names) = ['/'] :: names := by
  have split : ((render names).splitOn '/').filter (· ≠ []) = names := namesOf_render clean
  rw [components, if_pos head?_render, filter_append, split]
  rfl

end

theorem render_injective (clean : Clean names) (cleanMore : Clean more)
    (same : render names = render more) : names = more := by
  rw [← namesOf_render clean, same, namesOf_render cleanMore]

end Names

section Paths

variable {names : List AStr} {path : VfsPath}

/-- The path is written from clean names. -/
def Normalized (path : AStr) : Prop := ∃ names, Clean names ∧ path = render names

theorem normalized_iff {path : AStr} : Normalized path ↔ Clean (namesOf path) ∧ path = render (namesOf path) := by
  constructor
  · intro normal
    obtain ⟨names, clean, same⟩ := normal
    subst same
    rw [namesOf_render clean]
    exact ⟨clean, rfl⟩
  · intro split
    exact ⟨namesOf path, split⟩

instance (name : AStr) : Decidable (IsName name) :=
  decidable_of_iff (name ≠ [] ∧ '/' ∉ name) ⟨fun held => ⟨held.1, held.2⟩, fun isName => ⟨isName.filled, isName.whole⟩⟩

instance (names : List AStr) : Decidable (Clean names) := inferInstanceAs (Decidable (∀ _ ∈ _, _))

instance (path : AStr) : Decidable (Normalized path) := decidable_of_iff _ normalized_iff.symm

theorem new_render (clean : Clean names) :
    ∃ path, VfsPath.new (render names) = some path ∧ path.path = render names := by
  have trimmed : 1 < (render names).length → (render names).getLast? ≠ some '/' := by
    intro long
    cases names with
    | nil => exact absurd long (by decide)
    | cons first rest => exact getLast?_render clean (cons_ne_nil _ _)
  refine ⟨⟨render names, head?_render, trimmed⟩, ?_, rfl⟩
  rw [VfsPath.new, dif_pos head?_render, dif_pos trimmed]

theorem rfind_append_cons {leading rest : AStr} (whole : '/' ∉ rest) :
    rfind '/' (leading ++ '/' :: rest) = some leading.length := by
  induction leading with
  | nil => simp [rfind, rfind_eq_none.mpr whole]
  | cons first leading ih => simp [rfind, ih]

theorem parent_root (isRoot : path.path = render []) : path.parent = none := by
  rw [VfsPath.parent, isRoot]
  rfl

section Last

variable (clean : Clean (names ++ [name])) (same : path.path = render (names ++ [name]))
include clean same

theorem fileNameStartIdx_concat : path.fileNameStartIdx = (renderTail names).length + 1 := by
  have isName := clean name (by simp)
  rw [VfsPath.fileNameStartIdx, same, render_concat, rfind_append_cons isName.whole]

theorem fileName_concat : path.fileName = name := by
  rw [VfsPath.fileName, fileNameStartIdx_concat clean same, same, render_concat]
  simp

theorem parent_concat : path.parent = some (render names) := by
  have long := render_ne_root clean (by simp)
  rw [VfsPath.parent, VfsPath.parentEndIdx, fileNameStartIdx_concat clean same, same, if_pos long, render_concat]
  cases names with
  | nil => rfl
  | cons first rest =>
    rw [if_neg (by simp), render_of_ne_nil (cons_ne_nil _ _), Nat.add_sub_cancel, take_left]

end Last

/-- The directories that lead to a path are written from the beginnings of its names. -/
theorem leadingPaths_some (clean : Clean names) (cleanMore : Clean more) :
    TreeBuilder.leadingPaths (some (render names)) more =
      more.inits.tail.map fun further => render (names ++ further) := by
  induction more generalizing names with
  | nil => rfl
  | cons first rest ih =>
    obtain ⟨isName, restClean⟩ := forall_mem_cons.mp cleanMore
    have extended : Clean (names ++ [first]) := clean.append (forall_mem_singleton.mpr isName)
    have unfolded : rest.inits = [] :: rest.inits.tail := by cases rest <;> simp
    rw [TreeBuilder.leadingPaths, join_render clean isName, ih extended restClean, inits_cons, tail_cons, unfolded]
    simp [Function.comp_def]

theorem leadingPaths_components (clean : Clean names) :
    TreeBuilder.leadingPaths none (components (render names)) = names.inits.map render := by
  have unfolded : names.inits = [] :: names.inits.tail := by cases names <;> simp
  have rest := leadingPaths_some clean_nil clean
  rw [components_render clean, TreeBuilder.leadingPaths, unfolded, map_cons]
  exact congrArg (List.cons _) rest

end Paths

section Order

variable {names : List AStr}

theorem count_renderTail (clean : Clean names) : (renderTail names).count '/' = names.length := by
  induction names with
  | nil => rfl
  | cons first rest ih =>
    obtain ⟨isName, restClean⟩ := forall_mem_cons.mp clean
    rw [renderTail_cons, cons_append, count_cons_self, count_append,
      count_eq_zero.mpr isName.whole, ih restClean, length_cons]
    omega

theorem count_render (clean : Clean names) : (render names).count '/' = max 1 names.length := by
  cases names with
  | nil => rfl
  | cons first rest =>
    rw [render_of_ne_nil (cons_ne_nil _ _), count_renderTail clean, length_cons]
    omega

theorem sortedPaths_below (upperClean : Clean names) (lowerClean : Clean (names ++ more))
    (isBelow : more ≠ []) (isUpper : upper.path.path = render names)
    (isLower : lower.path.path = render (names ++ more)) : sortedPaths upper lower = .lt := by
  have filled := length_pos_iff.mpr isBelow
  rw [sortedPaths, isUpper, isLower, count_render upperClean, count_render lowerClean, length_append]
  by_cases sameCount : max 1 names.length = max 1 (names.length + more.length)
  · -- Only the root and a name directly below it have as many separators.
    have isRoot : names = [] := eq_nil_of_length_eq_zero (by omega)
    subst isRoot
    obtain ⟨first, rest, rfl⟩ := exists_cons_of_ne_nil isBelow
    obtain ⟨initial, text, isText⟩ := exists_cons_of_ne_nil (lowerClean first mem_cons_self).filled
    rw [if_neg (by simpa using sameCount), render_nil, nil_append,
      render_of_ne_nil (cons_ne_nil _ _), renderTail_cons, isText, cons_append,
      List.compare_cons_cons]
    rfl
  · rw [if_pos sameCount, Nat.compare_eq_lt]
    omega

theorem sortedPaths_eq_compareLex : @sortedPaths T =
    compareLex (compareOn fun file => file.path.path.count '/') (compareOn fun file => file.path.path) := by
  funext a b
  simp only [sortedPaths, compareLex, compareOn]
  by_cases same : a.path.path.count '/' = b.path.path.count '/'
  · rw [if_neg (by simpa using same), Nat.compare_eq_eq.mpr same]
    rfl
  · rw [if_pos same]
    cases counted : compare (a.path.path.count '/') (b.path.path.count '/') with
    | lt | gt => rfl
    | eq => exact absurd (Nat.compare_eq_eq.mp counted) same

instance : Std.TransCmp (@sortedPaths T) := by
  rw [sortedPaths_eq_compareLex]
  infer_instance

theorem sortedPaths_eq_iff {a b : File T} : sortedPaths a b = .eq ↔ a.path.path = b.path.path := by
  rw [sortedPaths_eq_compareLex]
  simp only [compareLex, compareOn, Ordering.then_eq_eq, Std.LawfulEqOrd.compare_eq_iff_eq]
  exact and_iff_right_of_imp fun same => by rw [same]

theorem sortFiles_perm (files : List (File T)) : (sortFiles files).Perm files := perm_insertionSort _ files

theorem sortFiles_sorted (files : List (File T)) :
    (sortFiles files).Pairwise fun a b => (sortedPaths a b).isLE = true :=
  sorted_insertionSort files

end Order

section Files

variable {file : File T}

def File.text (file : File T) : AStr := file.path.path

def File.names (file : File T) : List AStr := namesOf file.text

section

variable (normal : Normalized file.text)
include normal

theorem File.clean_names : Clean file.names := (normalized_iff.mp normal).1

theorem File.text_eq : file.text = render file.names := (normalized_iff.mp normal).2

theorem File.root_or_below :
    file.names = [] ∧ file.parent = none ∨ ∃ leading last, file.names = leading ++ [last] ∧
      Clean leading ∧ file.parent = some (render leading) ∧ file.fileName = last := by
  have clean := clean_names normal
  have same := text_eq normal
  rcases eq_nil_or_concat' file.names with isRoot | ⟨leading, last, isFile⟩
  · rw [isRoot] at same
    exact .inl ⟨isRoot, parent_root same⟩
  · rw [isFile] at clean same
    exact .inr ⟨leading, last, isFile, clean.of_leading (prefix_append _ _), parent_concat clean same,
      fileName_concat clean same⟩

theorem File.parent_eq_none_iff : file.parent = none ↔ file.names = [] := by
  rcases root_or_below normal with ⟨isRoot, parentless⟩ | ⟨leading, last, isFile, _, isParent, _⟩
  · simp [isRoot, parentless]
  · simp [isFile, isParent]

theorem File.names_of_parent (below : file.parent = some parent) :
    ∃ leading, Clean leading ∧ parent = render leading ∧ file.names = leading ++ [file.fileName] := by
  rcases root_or_below normal with ⟨_, parentless⟩ | ⟨leading, last, isFile, clean, isParent, isName⟩
  · rw [parentless] at below
    cases below
  · rw [isParent] at below
    exact ⟨leading, clean, (Option.some.inj below).symm, isName.symm ▸ isFile⟩

end

theorem File.text_inj (upperNormal : Normalized upper.text) (lowerNormal : Normalized lower.text) :
    upper.text = lower.text ↔ upper.names = lower.names := by
  constructor
  · intro same
    rw [File.names, File.names, same]
  · intro same
    rw [text_eq upperNormal, text_eq lowerNormal, same]

theorem File.parent_eq_some_iff (upperNormal : Normalized upper.text) (lowerNormal : Normalized lower.text) :
    lower.parent = some upper.text ↔ ∃ name, lower.names = upper.names ++ [name] := by
  rcases root_or_below lowerNormal with ⟨isRoot, parentless⟩ | ⟨leading, last, isLower, clean, isParent, _⟩
  · simp [isRoot, parentless]
  · rw [isParent, isLower, Option.some.injEq, text_eq upperNormal]
    constructor
    · intro sameText
      have sameNames := render_injective clean (clean_names upperNormal) sameText
      exact ⟨last, by rw [sameNames]⟩
    · intro held
      obtain ⟨name, extended⟩ := held
      rw [(append_inj' extended rfl).1]

theorem File.parent_ne_text (normal : Normalized file.text) : file.parent ≠ some file.text := by
  intro own
  obtain ⟨name, longer⟩ := (parent_eq_some_iff normal normal).mp own
  exact absurd (congrArg List.length longer) (by simp)

theorem File.text_eq_of_siblings (upperNormal : Normalized upper.text)
    (lowerNormal : Normalized lower.text) (upperBelow : upper.parent = some parent)
    (lowerBelow : lower.parent = some parent) (sameName : upper.fileName = lower.fileName) :
    upper.text = lower.text := by
  obtain ⟨leading, clean, isParent, isUpper⟩ := names_of_parent upperNormal upperBelow
  obtain ⟨other, otherClean, isOther, isLower⟩ := names_of_parent lowerNormal lowerBelow
  have sameLeading := render_injective clean otherClean (isParent.symm.trans isOther)
  rw [text_inj upperNormal lowerNormal, isUpper, isLower, sameLeading, sameName]

end Files

end Cast.Vfs
