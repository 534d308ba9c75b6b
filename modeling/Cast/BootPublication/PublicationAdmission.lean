import Cast.BootPublication.PublicationPlan
import Cast.BootPublication.ReceiptBodyProperties

/-! Admission of the requests of a boot publication. Every counter of the budget is the
saturated sum of what was charged, so the charges do not depend on the order. A
request is admitted exactly when it is valid by itself, its charges fit, and it is a
duplicate of an earlier one or apart from all of them; so a list of requests is
admitted exactly when its requests are valid, its sums fit, and any two different
requests are apart. -/

namespace Cast.BootPublication.PublicationPlan

open Foundation List RequestSource Planning

variable {policy : Policy} {publications pathBytes generated index : Nat} {hashes : Hashes}
  {layout : Layout} {planning : Planning} {budget next : Budget} {path : List UInt8}
  {domain : CollisionDomain}

theorem saturate_add (left right : Nat) : saturate (saturate left + right) = saturate (left + right) := by
  unfold saturate
  omega

theorem saturate_mono {left right : Nat} (ordered : left ≤ right) : saturate left ≤ saturate right := by
  unfold saturate
  omega

section Budget

variable {work : Nat}

/-- The clock of a caller whose deadline is not reached. -/
def onTime : Nat → Bool := fun _ => false

def charged (work publications pathBytes generated : Nat) : Budget :=
  ⟨saturate work, saturate publications, saturate pathBytes, saturate generated⟩

theorem requireDeadline_onTime : budget.requireDeadline onTime = .ok () := by
  simp [Budget.requireDeadline, refuse, onTime]

theorem reserveWork_charged {amount : Nat} :
    (charged work publications pathBytes generated).reserveWork policy onTime amount = .ok next ↔
      saturate (work + amount) ≤ policy.maxWork ∧ charged (work + amount) publications pathBytes generated = next := by
  simp only [Budget.reserveWork, bind_eq_ok, exists_check, requireDeadline_onTime, refuse_eq_ok,
    pure_eq_ok, true_and, charged, saturate_add, gt_iff_lt, Nat.not_lt]

theorem step_charged : (charged work publications pathBytes generated).step policy onTime = .ok next ↔
      saturate (work + 1) ≤ policy.maxWork ∧ charged (work + 1) publications pathBytes generated = next :=
  reserveWork_charged

theorem admitRequest_charged :
    (charged work publications pathBytes generated).admitRequest policy onTime path = .ok next ↔
      saturate (work + 1) ≤ policy.maxWork ∧
      saturate (publications + 1) ≤ policy.maxPublications ∧
      saturate (pathBytes + path.length) ≤ policy.maxPathBytes ∧
      charged (work + 1) (publications + 1) (pathBytes + path.length) generated = next := by
  simp only [Budget.admitRequest, bind_eq_ok, exists_check, step_charged, refuse_eq_ok, pure_eq_ok, exists_outcome]
  simp only [charged, saturate_add, gt_iff_lt, Nat.not_lt]

theorem admitGenerated_charged {bytes : Nat} :
    (charged work publications pathBytes generated).admitGenerated policy onTime path bytes = .ok next ↔
      saturate (work + 1) ≤ policy.maxWork ∧ bytes ≤ policy.maxGeneratedFileBytes ∧
      saturate (generated + bytes) ≤ policy.maxGeneratedBytes ∧
      charged (work + 1) publications pathBytes (generated + bytes) = next := by
  simp only [Budget.admitGenerated, bind_eq_ok, exists_check, step_charged, refuse_eq_ok, pure_eq_ok, exists_outcome]
  simp only [charged, saturate_add, gt_iff_lt, Nat.not_lt]

def componentCount (path : List UInt8) : Nat := (path.splitOn slash).length

theorem requireComponents_charged {count : Nat} {components : List (List UInt8)} :
    requireComponents policy onTime path (saturate count) components
        (charged work publications pathBytes generated) = .ok next ↔
      (components ≠ [] → saturate (work + components.length) ≤ policy.maxWork ∧
        saturate (count + components.length) ≤ policy.maxComponents) ∧
      (∀ component ∈ components, requireComponent path component = .ok ()) ∧
      charged (work + components.length) publications pathBytes generated = next := by
  induction components generalizing work count with
  | nil => simp [requireComponents]
  | cons component rest ih =>
    have arranged : work + 1 + rest.length = work + (rest.length + 1) := by omega
    have counted : count + 1 + rest.length = count + (rest.length + 1) := by omega
    simp only [requireComponents, bind_eq_ok, exists_check, step_charged, refuse_eq_ok, saturate_add,
      gt_iff_lt, Nat.not_lt, forall_mem_cons, length_cons, exists_outcome, ih, arranged, counted]
    constructor
    · rintro ⟨fits, few, first, bounds, valid, last⟩
      refine ⟨fun _ => ?_, ⟨first, valid⟩, last⟩
      by_cases none : rest = []
      · subst none
        exact ⟨fits, few⟩
      · exact bounds none
    · rintro ⟨bounds, ⟨first, valid⟩, last⟩
      obtain ⟨fits, few⟩ := bounds (cons_ne_nil _ _)
      exact ⟨(saturate_mono (by omega)).trans fits, (saturate_mono (by omega)).trans few, first,
        fun _ => ⟨fits, few⟩, valid, last⟩

/-- A path that is normalized and safe on FAT, and its text. -/
@[mk_iff] structure PathValid (policy : Policy) (path : List UInt8) (text : String) : Prop where
  filled : path ≠ []
  noNul : 0 ∉ path
  text : String.fromUTF8? ⟨path.toArray⟩ = some text
  relative : path.head? ≠ some slash
  short : path.length ≤ policy.maxSinglePathBytes
  few : saturate (componentCount path) ≤ policy.maxComponents
  components : ∀ component ∈ path.splitOn slash, requireComponent path component = .ok ()

theorem requireNormalizedRelativePath_charged {text : String} :
    requireNormalizedRelativePath policy onTime path
        (charged work publications pathBytes generated) = .ok (text, next) ↔
      PathValid policy path text ∧ saturate (work + componentCount path) ≤ policy.maxWork ∧
        charged (work + componentCount path) publications pathBytes generated = next := by
  have none : saturate 0 = 0 := rfl
  have filled : path.splitOn slash ≠ [] := splitOn_ne_nil _ _
  simp only [requireNormalizedRelativePath, bind_eq_ok, exists_check, refuse_eq_ok, okOr_eq_ok,
    pure_eq_ok, Prod.mk.injEq, gt_iff_lt, Nat.not_lt]
  rw [← none]
  simp only [requireComponents_charged, pathValid_iff, Nat.zero_add, existsAndEq, ne_eq, filled,
    not_false_eq_true, true_implies, componentCount]
  tauto

end Budget

def RequestSource.prepared (hashes : Hashes) : RequestSource → Source
  | .sealedSnapshot bindingIndex digest length contentIdentity =>
    .sealedSnapshot bindingIndex digest length contentIdentity
  | .generated bytes => .generated bytes (hashes.xxh3 bytes) ⟨hashes.sha256 bytes⟩

def RequestSource.work : RequestSource → Nat
  | .sealedSnapshot .. => 1
  | .generated _ => 2

def RequestSource.generatedSize : RequestSource → Nat
  | .sealedSnapshot .. => 0
  | .generated bytes => bytes.length

def RequestSource.Valid (policy : Policy) : RequestSource → Prop
  | .sealedSnapshot _ _ length _ => length.toNat ≤ policy.maxSealedFileBytes
  | .generated bytes => bytes.length ≤ policy.maxGeneratedFileBytes

variable {work : Nat}

theorem prepareSource_charged {source : RequestSource} {prepared : Source}
    (within : saturate generated ≤ policy.maxGeneratedBytes) :
    prepareSource policy onTime hashes path source
        (charged work publications pathBytes generated) = .ok (prepared, next) ↔
      source.Valid policy ∧ saturate (work + source.work) ≤ policy.maxWork ∧
      saturate (generated + source.generatedSize) ≤ policy.maxGeneratedBytes ∧
      source.prepared hashes = prepared ∧
      charged (work + source.work) publications pathBytes (generated + source.generatedSize) = next := by
  cases source with
  | sealedSnapshot bindingIndex digest length contentIdentity =>
    simp only [prepareSource, bind_eq_ok, exists_check, step_charged, refuse_eq_ok, pure_eq_ok,
      Prod.mk.injEq, gt_iff_lt, Nat.not_lt, RequestSource.Valid, RequestSource.work,
      generatedSize, RequestSource.prepared, Nat.add_zero, within, true_and, exists_outcome]
    exact and_left_comm
  | generated bytes =>
    have earlier : saturate (work + 1) ≤ saturate (work + 2) := saturate_mono (by omega)
    simp only [prepareSource, bind_eq_ok, admitGenerated_charged, step_charged, pure_eq_ok, Prod.mk.injEq,
      RequestSource.Valid, RequestSource.work, generatedSize,
      RequestSource.prepared, and_assoc, existsAndEq]
    grind

section Collisions

variable {destinations : Destinations}

theorem existingAncestorIndex_charged {front behind : List UInt8}
    (within : saturate work ≤ policy.maxWork) :
    existingAncestorIndex policy onTime destinations front behind
        (charged work publications pathBytes generated) = .ok (none, next) ↔
      (∀ middle, Below slash middle behind → destinations.find? (front ++ middle) = none) ∧
      saturate (work + behind.count slash) ≤ policy.maxWork ∧
      charged (work + behind.count slash) publications pathBytes generated = next := by
  induction behind generalizing front work with
  | nil => simp [existingAncestorIndex, Below, within]
  | cons byte behind ih =>
    have deeper {work : Nat} (within : saturate work ≤ policy.maxWork) := @ih work (front ++ [byte]) within
    simp only [append_assoc, singleton_append] at deeper
    simp only [existingAncestorIndex, forall_below_cons, append_nil]
    by_cases separator : byte = slash
    · have arranged : work + (behind.count slash + 1) = work + 1 + behind.count slash := by omega
      subst separator
      simp only [ne_eq, not_true_eq_false, if_false, bind_eq_ok, step_charged, exists_outcome,
        count_cons_self, true_implies, arranged]
      cases found : destinations.find? front with
      | some existing => simp
      | none =>
        constructor
        · intro held
          obtain ⟨free, bounded, charges⟩ := (deeper held.1).mp held.2
          exact ⟨⟨rfl, free⟩, bounded, charges⟩
        · intro held
          obtain ⟨⟨_, free⟩, bounded, charges⟩ := held
          have fits : saturate (work + 1) ≤ policy.maxWork := (saturate_mono (by omega)).trans bounded
          exact ⟨fits, (deeper fits).mpr ⟨free, bounded, charges⟩⟩
    · rw [if_pos separator, deeper within, count_cons_of_ne separator]
      simp only [separator, false_implies, true_and]

theorem existingDescendantIndex_charged {folded : List UInt8} :
    existingDescendantIndex policy onTime destinations folded
        (charged work publications pathBytes generated) = .ok (none, next) ↔
      (∀ entry ∈ destinations.entries, ¬ Below slash folded entry.1) ∧
      saturate (work + 1) ≤ policy.maxWork ∧
      charged (work + 1) publications pathBytes generated = next := by
  have probe : (destinations.firstFrom (folded ++ [slash])).filter
        (fun entry => (folded ++ [slash]).isPrefixOf entry.1) = none ↔
      ∀ entry ∈ destinations.entries, ¬ Below slash folded entry.1 := by
    simp only [Option.filter_eq_none_iff, isPrefixOf_iff_prefix]
    exact SortedMap.forall_firstFrom_iff (startsWith_interval (folded ++ [slash]))
  simp only [existingDescendantIndex, bind_eq_ok, step_charged, pure_eq_ok, Prod.mk.injEq,
    Option.map_eq_none_iff, probe, exists_outcome]
  exact and_left_comm

end Collisions

section Requests

structure Request.Valid (policy : Policy) (request : Request) : Prop where
  path : ∃ text, PathValid policy request.relativePath text
  role : requireRoleBinding request = .ok ()
  source : request.source.Valid policy

def Request.text (request : Request) : String := (String.fromUTF8? ⟨request.relativePath.toArray⟩).getD ""

def Request.folded (request : Request) : List UInt8 := request.relativePath.map toAsciiLowercase

def Request.planned (hashes : Hashes) (request : Request) : Planned :=
  ⟨request.role, request.root, request.phase, request.text, request.folded, request.source.prepared hashes⟩

def Request.charge (request : Request) : Nat := componentCount request.relativePath + request.source.work + 2

/-- What the search for collisions costs, when the request is not a duplicate. -/
def Request.placing (request : Request) : Nat := request.folded.count slash + 1

/-- No collision, in text or in hierarchy. -/
def Apart (layout : Layout) (left right : Request) : Prop :=
  layout.forRoot left.root = layout.forRoot right.root →
    left.folded ≠ right.folded ∧ ¬ Below slash left.folded right.folded ∧ ¬ Below slash right.folded left.folded

variable {left right : Request}

theorem Apart.symm (apart : Apart layout left right) : Apart layout right left := by
  intro shared
  obtain ⟨distinct, notAbove, notBelow⟩ := apart shared.symm
  exact ⟨distinct.symm, notBelow, notAbove⟩

theorem utf8_of_fromUTF8? {bytes : List UInt8} {text : String}
    (decoded : String.fromUTF8? ⟨bytes.toArray⟩ = some text) : utf8 text = bytes := by
  rw [String.fromUTF8?] at decoded
  split at decoded
  · cases decoded
    rfl
  · cases decoded

theorem Request.text_eq {request : Request} {text : String}
    (valid : PathValid policy request.relativePath text) : request.text = text := by
  simp [Request.text, valid.text]

theorem Request.Valid.utf8_text {request : Request} (valid : request.Valid policy) :
    utf8 request.text = request.relativePath := by
  obtain ⟨text, path⟩ := valid.path
  rw [Request.text_eq path]
  exact utf8_of_fromUTF8? path.text

theorem RequestSource.prepared_injective {left right : RequestSource}
    (same : left.prepared hashes = right.prepared hashes) : left = right := by
  cases left with
  | sealedSnapshot =>
    cases right with
    | sealedSnapshot => simpa [prepared] using same
    | generated => simp [prepared] at same
  | generated =>
    cases right with
    | sealedSnapshot => simp [prepared] at same
    | generated =>
      simp only [prepared, Source.generated.injEq] at same
      rw [same.1]

theorem exactDuplicate_planned (leftValid : left.Valid policy) (rightValid : right.Valid policy) :
    exactDuplicate (left.planned hashes) (right.planned hashes) = true ↔ left = right := by
  constructor
  · intro duplicate
    simp only [exactDuplicate, Request.planned, Bool.and_eq_true, beq_iff_eq] at duplicate
    obtain ⟨⟨⟨⟨role, root⟩, phase⟩, text⟩, source⟩ := duplicate
    have path : left.relativePath = right.relativePath := by
      rw [← leftValid.utf8_text, text, rightValid.utf8_text]
    have content := prepared_injective source
    cases left
    simp only at role root phase path content
    rw [role, root, phase, path, content]
  · intro same
    simp [same, exactDuplicate]

theorem Request.planned_injective (leftValid : left.Valid policy)
    (rightValid : right.Valid policy) (same : left.planned hashes = right.planned hashes) :
    left = right := by
  have duplicate : exactDuplicate (left.planned hashes) (right.planned hashes) = true := by
    simp [same, exactDuplicate]
  exact (exactDuplicate_planned leftValid rightValid).mp duplicate

end Requests

variable {request : Request} {seen : List Request}

section Admission

variable {next : Planning}

theorem admit_charged (budget : planning.budget = charged work publications pathBytes generated)
    (within : saturate generated ≤ policy.maxGeneratedBytes) :
    planning.admitPublication policy onTime hashes layout request = .ok next ↔
      request.Valid policy ∧ saturate (work + request.charge) ≤ policy.maxWork ∧
      saturate (publications + 1) ≤ policy.maxPublications ∧
      saturate (pathBytes + request.relativePath.length) ≤ policy.maxPathBytes ∧
      saturate (generated + request.source.generatedSize) ≤ policy.maxGeneratedBytes ∧
      planning.settle policy onTime (layout.forRoot request.root) (request.planned hashes)
          (charged (work + request.charge) (publications + 1) (pathBytes + request.relativePath.length)
            (generated + request.source.generatedSize)) = .ok next := by
  have total : work + 1 + componentCount request.relativePath + request.source.work + 1 = work + request.charge := by
    unfold Request.charge
    omega
  have folded {text : String} (path : PathValid policy request.relativePath text) :
      caseFoldedPath text = request.folded := by
    rw [caseFoldedPath, Request.folded, utf8_of_fromUTF8? path.text]
  simp only [admitPublication, budget, bind_eq_ok, exists_check, admitRequest_charged, and_assoc,
    existsAndEq, Prod.exists, requireNormalizedRelativePath_charged, prepareSource_charged within,
    step_charged, true_and, total]
  constructor
  · rintro ⟨_, few, short, text, path, _, role, small, _, bounded, fits, settled⟩
    refine ⟨⟨⟨text, path⟩, role, small⟩, fits, few, short, bounded, ?_⟩
    rw [Request.planned, Request.text_eq path, ← folded path]
    exact settled
  · rintro ⟨⟨⟨text, path⟩, role, small⟩, fits, few, short, bounded, settled⟩
    rw [Request.planned, Request.text_eq path, ← folded path] at settled
    have charges {part : Nat} (below : part ≤ work + request.charge) :
        saturate part ≤ policy.maxWork := (saturate_mono below).trans fits
    exact ⟨charges (by omega), few, short, text, path, charges (by omega), role, small, charges (by omega),
      bounded, fits, settled⟩

theorem place_charged {planned : Planned} (within : saturate work ≤ policy.maxWork) :
    planning.place policy onTime domain planned (charged work publications pathBytes generated) = .ok next ↔
      (∀ entry ∈ (planning.destinations domain).entries,
        ¬ Below slash entry.1 planned.foldedRelativePath ∧ ¬ Below slash planned.foldedRelativePath entry.1) ∧
      saturate (work + (planned.foldedRelativePath.count slash + 1)) ≤ policy.maxWork ∧
      planning.insert (charged (work + (planned.foldedRelativePath.count slash + 1)) publications pathBytes
            generated) domain planned = next := by
  have above : (∀ middle, Below slash middle planned.foldedRelativePath →
        (planning.destinations domain).find? ([] ++ middle) = none) ↔
      ∀ entry ∈ (planning.destinations domain).entries, ¬ Below slash entry.1 planned.foldedRelativePath := by
    simp only [nil_append, SortedMap.find?_eq_none]
    constructor
    · intro free entry member below
      exact free entry.1 below entry member rfl
    · intro free middle below entry member same
      exact free entry member (same ▸ below)
  simp only [Planning.place, bind_eq_ok]
  constructor
  · intro held
    obtain ⟨⟨ancestor, _⟩, walked, continued⟩ := held
    cases ancestor with
    | some index => simp at continued
    | none =>
      simp only [bind_eq_ok] at continued
      obtain ⟨_, _, ⟨descendant, _⟩, probed, last⟩ := continued
      cases descendant with
      | some index => simp at last
      | none =>
        simp only [bind_eq_ok, pure_eq_ok] at last
        obtain ⟨_, _, last⟩ := last
        obtain ⟨free, _, same⟩ := (existingAncestorIndex_charged within).mp walked
        subst same
        obtain ⟨outside, fits, same⟩ := existingDescendantIndex_charged.mp probed
        subst same
        refine ⟨?_, fits, last⟩
        intro entry member
        exact ⟨above.mp free entry member, outside entry member⟩
  · intro held
    obtain ⟨separate, fits, last⟩ := held
    have free := above.mpr fun entry member => (separate entry member).1
    have outside := fun entry member => (separate entry member).2
    have walked : saturate (work + planned.foldedRelativePath.count slash) ≤ policy.maxWork :=
      (saturate_mono (by omega)).trans fits
    refine ⟨(none, _), (existingAncestorIndex_charged within).mpr ⟨free, walked, rfl⟩, ?_⟩
    simp only [bind_eq_ok]
    refine ⟨(), trivial, (none, _), existingDescendantIndex_charged.mpr ⟨outside, fits, rfl⟩, ?_⟩
    simp only [bind_eq_ok, pure_eq_ok]
    exact ⟨(), trivial, last⟩

end Admission

/-- The requests without their repetitions, in the order they first came. -/
def arrived (seen : List Request) : List Request := seen.reverse.dedup.reverse

def admissionWork (seen : List Request) : Nat :=
  (seen.map Request.charge).sum + ((arrived seen).map Request.placing).sum

def declaredPathBytes (seen : List Request) : Nat := (seen.map fun request => request.relativePath.length).sum

def declaredGenerated (seen : List Request) : Nat := (seen.map fun request => request.source.generatedSize).sum

@[simp] theorem mem_arrived : request ∈ arrived seen ↔ request ∈ seen := by simp [arrived]

theorem nodup_arrived (seen : List Request) : (arrived seen).Nodup := nodup_reverse.mpr (nodup_dedup _)

theorem arrived_append_of_mem (known : request ∈ seen) : arrived (seen ++ [request]) = arrived seen := by
  simp [arrived, dedup_cons_of_mem (mem_reverse.mpr known)]

theorem arrived_append_of_notMem (fresh : request ∉ seen) :
    arrived (seen ++ [request]) = arrived seen ++ [request] := by
  have unseen : request ∉ seen.reverse := fun known => fresh (mem_reverse.mp known)
  simp [arrived, dedup_cons_of_notMem unseen]

theorem admissionWork_append_of_mem (known : request ∈ seen) :
    admissionWork (seen ++ [request]) = admissionWork seen + request.charge := by
  simp only [admissionWork, arrived_append_of_mem known, map_append, map_cons, map_nil, sum_append, sum_cons, sum_nil]
  omega

theorem admissionWork_append_of_notMem (fresh : request ∉ seen) :
    admissionWork (seen ++ [request]) = admissionWork seen + request.charge + request.placing := by
  simp only [admissionWork, arrived_append_of_notMem fresh, map_append, map_cons,
    map_nil, sum_append, sum_cons, sum_nil]
  omega

theorem admissionWork_append_ge : admissionWork seen + request.charge ≤ admissionWork (seen ++ [request]) := by
  by_cases known : request ∈ seen
  · exact (admissionWork_append_of_mem known).ge
  · rw [admissionWork_append_of_notMem known]
    exact Nat.le_add_right _ _

@[simp] theorem declaredPathBytes_append :
    declaredPathBytes (seen ++ [request]) = declaredPathBytes seen + request.relativePath.length := by
  simp [declaredPathBytes]

@[simp] theorem declaredGenerated_append :
    declaredGenerated (seen ++ [request]) = declaredGenerated seen + request.source.generatedSize := by
  simp [declaredGenerated]

section Run

variable {next : Planning}

/-- What the requests have to satisfy for all of them to be admitted. -/
structure Admissible (policy : Policy) (layout : Layout) (requests : List Request) : Prop where
  valid : ∀ request ∈ requests, request.Valid policy
  apart : ∀ left ∈ requests, ∀ right ∈ requests, left ≠ right → Apart layout left right
  work : saturate (admissionWork requests) ≤ policy.maxWork
  count : saturate requests.length ≤ policy.maxPublications
  paths : saturate (declaredPathBytes requests) ≤ policy.maxPathBytes
  generated : saturate (declaredGenerated requests) ≤ policy.maxGeneratedBytes

theorem Admissible.nil : Admissible policy layout [] := by
  refine ⟨?_, ?_, ?_, ?_, ?_, ?_⟩
  · simp
  · simp
  all_goals exact Nat.zero_le _

theorem Admissible.of_append (admissible : Admissible policy layout (seen ++ [request])) :
    Admissible policy layout seen where
  valid other known := admissible.valid other (mem_append_left _ known)
  apart left leftKnown right rightKnown :=
    admissible.apart left (mem_append_left _ leftKnown) right (mem_append_left _ rightKnown)
  work := (saturate_mono ((Nat.le_add_right _ _).trans admissionWork_append_ge)).trans admissible.work
  count := (saturate_mono (by simp)).trans admissible.count
  paths := (saturate_mono (by simp)).trans admissible.paths
  generated := (saturate_mono (by simp)).trans admissible.generated

/-- What the loop has after the requests it has seen. -/
structure Tracks (hashes : Hashes) (layout : Layout) (seen : List Request)
    (planning : Planning) : Prop where
  budget : planning.budget = charged (admissionWork seen) seen.length (declaredPathBytes seen) (declaredGenerated seen)
  outputs : planning.outputs = (arrived seen).map (Request.planned hashes)
  destinations : ∀ domain entry, entry ∈ (planning.destinations domain).entries ↔
    ∃ request, (arrived seen)[entry.2]? = some request ∧ layout.forRoot request.root = domain ∧ request.folded = entry.1

theorem Tracks.start : Tracks hashes layout [] .start where
  budget := rfl
  outputs := rfl
  destinations domain entry := by simp [Planning.start, SortedMap.empty, arrived]

theorem settle_of_absent {late : Nat → Bool} {planned : Planned}
    (absent : (planning.destinations domain).find? planned.foldedRelativePath = none) :
    planning.settle policy late domain planned budget = planning.place policy late domain planned budget := by
  simp only [Planning.settle, absent]

theorem settle_of_found {late : Nat → Bool} {planned existing : Planned}
    (found : (planning.destinations domain).find? planned.foldedRelativePath = some index)
    (output : planning.output index = .ok existing) :
    planning.settle policy late domain planned budget =
      if exactDuplicate existing planned then .ok { planning with budget := budget }
      else .error (collisionError existing planned) := by
  simp only [Planning.settle, found, output, bind, Except.bind, pure, Except.pure]

theorem getElem?_snoc {known : List Request} {last other : Request} :
    (known ++ [last])[index]? = some other ↔ known[index]? = some other ∨ (index = known.length ∧ last = other) := by
  rw [getElem?_append]
  split
  next before => simp [before.ne]
  next past =>
    rw [List.getElem?_eq_none_iff.mpr (Nat.not_lt.mp past), getElem?_singleton]
    simp [show index - known.length = 0 ↔ index = known.length by omega]

theorem Admissible.append (admissible : Admissible policy layout seen) (valid : request.Valid policy)
    (apart : ∀ other ∈ seen, other ≠ request → Apart layout other request)
    (work : saturate (admissionWork (seen ++ [request])) ≤ policy.maxWork)
    (count : saturate (seen.length + 1) ≤ policy.maxPublications)
    (paths : saturate (declaredPathBytes seen + request.relativePath.length) ≤ policy.maxPathBytes)
    (generated : saturate (declaredGenerated seen + request.source.generatedSize) ≤
      policy.maxGeneratedBytes) : Admissible policy layout (seen ++ [request]) where
  valid := forall_mem_append.mpr ⟨admissible.valid, forall_mem_singleton.mpr valid⟩
  apart := by
    simp only [forall_mem_append, forall_mem_singleton]
    refine ⟨fun left known => ⟨admissible.apart left known, apart left known⟩, fun right known distinct => ?_, absurd rfl⟩
    exact (apart right known distinct.symm).symm
  work := work
  count := by simpa using count
  paths := by simpa using paths
  generated := by simpa using generated

section

variable (tracks : Tracks hashes layout seen planning)
include tracks

/-- A statement about the keys of a domain is one about the requests seen there. -/
theorem Tracks.forall_entries (property : List UInt8 → Prop) :
    (∀ entry ∈ (planning.destinations domain).entries, property entry.1) ↔
      ∀ other ∈ seen, layout.forRoot other.root = domain → property other.folded := by
  constructor
  · intro held other known shared
    obtain ⟨index, found⟩ := mem_iff_getElem?.mp (mem_arrived.mpr known)
    exact held (other.folded, index) ((tracks.destinations domain _).mpr ⟨other, found, shared, rfl⟩)
  · intro held entry member
    obtain ⟨other, found, shared, same⟩ := (tracks.destinations domain entry).mp member
    rw [← same]
    exact held other (mem_arrived.mp (mem_of_getElem? found)) shared

theorem Tracks.find?_eq_some
    (found : (planning.destinations (layout.forRoot request.root)).find? request.folded = some index) :
    ∃ other ∈ seen, planning.output index = .ok (other.planned hashes) ∧
      layout.forRoot other.root = layout.forRoot request.root ∧ other.folded = request.folded := by
  obtain ⟨other, place, shared, same⟩ := (tracks.destinations _ _).mp (SortedMap.mem_of_find?_eq_some found)
  refine ⟨other, mem_arrived.mp (mem_of_getElem? place), ?_, shared, same⟩
  rw [Planning.output, okOr_eq_ok, tracks.outputs, getElem?_map, place]
  rfl

theorem Tracks.settle_known (admissible : Admissible policy layout seen) (known : request ∈ seen) :
    planning.settle policy onTime (layout.forRoot request.root) (request.planned hashes) budget =
      .ok { planning with budget := budget } := by
  cases found : (planning.destinations (layout.forRoot request.root)).find? request.folded with
  | none =>
    have free := (tracks.forall_entries (· ≠ request.folded)).mp (SortedMap.find?_eq_none.mp found)
    exact absurd rfl (free request known rfl)
  | some index =>
    obtain ⟨other, otherKnown, output, shared, same⟩ := tracks.find?_eq_some found
    have identical : other = request := by
      by_contra distinct
      exact (admissible.apart other otherKnown request known distinct shared).1 same
    subst identical
    have duplicate : exactDuplicate (other.planned hashes) (other.planned hashes) = true :=
      (exactDuplicate_planned (admissible.valid other known) (admissible.valid other known)).mpr rfl
    rw [settle_of_found found output, if_pos duplicate]

theorem Tracks.settle_fresh (admissible : Admissible policy layout seen) (valid : request.Valid policy)
    (fresh : request ∉ seen) (within : saturate work ≤ policy.maxWork) :
    planning.settle policy onTime (layout.forRoot request.root) (request.planned hashes)
        (charged work publications pathBytes generated) = .ok next ↔
      (∀ other ∈ seen, Apart layout other request) ∧
      saturate (work + request.placing) ≤ policy.maxWork ∧
      planning.insert (charged (work + request.placing) publications pathBytes generated)
        (layout.forRoot request.root) (request.planned hashes) = next := by
  cases found : (planning.destinations (layout.forRoot request.root)).find? request.folded with
  | none =>
    have free := (tracks.forall_entries (· ≠ request.folded)).mp (SortedMap.find?_eq_none.mp found)
    have separate : (∀ entry ∈ (planning.destinations (layout.forRoot request.root)).entries,
          ¬ Below slash entry.1 request.folded ∧ ¬ Below slash request.folded entry.1) ↔
        ∀ other ∈ seen, Apart layout other request := by
      refine (tracks.forall_entries fun key =>
        ¬ Below slash key request.folded ∧ ¬ Below slash request.folded key).trans ?_
      constructor
      · intro held other known shared
        exact ⟨free other known shared, held other known shared⟩
      · intro held other known shared
        exact (held other known shared).2
    rw [settle_of_absent found, place_charged within]
    exact and_congr_left' separate
  | some index =>
    obtain ⟨other, known, output, shared, same⟩ := tracks.find?_eq_some found
    have distinct : other ≠ request := by
      intro identical
      exact fresh (identical ▸ known)
    have differs : exactDuplicate (other.planned hashes) (request.planned hashes) = false := by
      rw [Bool.eq_false_iff]
      intro duplicate
      exact distinct ((exactDuplicate_planned (admissible.valid other known) valid).mp duplicate)
    rw [settle_of_found found output, differs]
    simp only [Bool.false_eq_true, if_false, reduceCtorEq, false_iff]
    intro held
    exact (held.1 other known shared).1 same

theorem Tracks.insert (fresh : request ∉ seen)
    (apart : ∀ other ∈ seen, Apart layout other request) : Tracks hashes layout (seen ++ [request]) (planning.insert
        (charged (admissionWork seen + request.charge + request.placing) (seen.length + 1)
          (declaredPathBytes seen + request.relativePath.length)
          (declaredGenerated seen + request.source.generatedSize))
        (layout.forRoot request.root) (request.planned hashes)) where
  budget := by
    rw [admissionWork_append_of_notMem fresh, declaredPathBytes_append, declaredGenerated_append, length_append]
    rfl
  outputs := by
    rw [arrived_append_of_notMem fresh, map_append, ← tracks.outputs]
    rfl
  destinations domain entry := by
    have key : (planning.destinations (layout.forRoot request.root)).find?
        (request.planned hashes).foldedRelativePath = none := by
      rw [SortedMap.find?_eq_none]
      refine (tracks.forall_entries (· ≠ request.folded)).mpr ?_
      intro other known shared
      exact (apart other known shared).1
    have count : planning.outputs.length = (arrived seen).length := by rw [tracks.outputs, length_map]
    simp only [arrived_append_of_notMem fresh, getElem?_snoc, or_and_right, exists_or, and_assoc, existsAndEq]
    by_cases same : domain = layout.forRoot request.root
    · subst same
      simp only [Planning.insert, Function.update_self, SortedMap.mem_insert key, tracks.destinations, count,
        Prod.ext_iff, true_and]
      exact or_comm.trans (or_congr_right (and_comm.trans (and_congr_right fun _ => eq_comm)))
    · simp only [Planning.insert, Function.update_of_ne same, tracks.destinations, Ne.symm same, false_and,
        and_false, or_false]

theorem Tracks.repeat (known : request ∈ seen) : Tracks hashes layout (seen ++ [request]) { planning with
        budget := charged (admissionWork seen + request.charge) (seen.length + 1)
          (declaredPathBytes seen + request.relativePath.length)
          (declaredGenerated seen + request.source.generatedSize) } where
  budget := by
    rw [admissionWork_append_of_mem known, declaredPathBytes_append, declaredGenerated_append, length_append]
    rfl
  outputs := by
    rw [arrived_append_of_mem known]
    exact tracks.outputs
  destinations domain entry := by
    rw [arrived_append_of_mem known]
    exact tracks.destinations domain entry

theorem Tracks.advance (admissible : Admissible policy layout seen)
    (admitted : planning.admitPublication policy onTime hashes layout request = .ok next) :
    Admissible policy layout (seen ++ [request]) ∧ Tracks hashes layout (seen ++ [request]) next := by
  obtain ⟨valid, fits, count, paths, generated, settled⟩ :=
    (admit_charged tracks.budget admissible.generated).mp admitted
  by_cases known : request ∈ seen
  · rw [tracks.settle_known admissible known] at settled
    cases settled
    rw [← admissionWork_append_of_mem known] at fits
    refine ⟨admissible.append valid ?_ fits count paths generated, tracks.repeat known⟩
    intro other otherKnown
    exact admissible.apart other otherKnown request known
  · obtain ⟨apart, placed, same⟩ := (tracks.settle_fresh admissible valid known fits).mp settled
    subst same
    rw [← admissionWork_append_of_notMem known] at placed
    refine ⟨admissible.append valid ?_ placed count paths generated, tracks.insert known apart⟩
    intro other otherKnown _
    exact apart other otherKnown

theorem Tracks.admits (admissible : Admissible policy layout (seen ++ [request])) :
    ∃ next, planning.admitPublication policy onTime hashes layout request = .ok next := by
  have before := admissible.of_append
  have valid := admissible.valid request (by simp)
  have fits : saturate (admissionWork seen + request.charge) ≤ policy.maxWork :=
    (saturate_mono admissionWork_append_ge).trans admissible.work
  have count := admissible.count
  have paths := admissible.paths
  have generated := admissible.generated
  rw [length_append, length_singleton] at count
  rw [declaredPathBytes_append] at paths
  rw [declaredGenerated_append] at generated
  by_cases known : request ∈ seen
  · exact ⟨_, (admit_charged tracks.budget before.generated).mpr
      ⟨valid, fits, count, paths, generated, tracks.settle_known before known⟩⟩
  · have apart : ∀ other ∈ seen, Apart layout other request := by
      intro other otherKnown
      refine admissible.apart other (mem_append_left _ otherKnown) request (by simp) ?_
      intro same
      exact known (same ▸ otherKnown)
    have placed := admissible.work
    rw [admissionWork_append_of_notMem known] at placed
    exact ⟨_, (admit_charged tracks.budget before.generated).mpr
      ⟨valid, fits, count, paths, generated, (tracks.settle_fresh before valid known fits).mpr ⟨apart, placed, rfl⟩⟩⟩

end

/-- All the turns: the requests are admitted exactly when they are admissible. -/
theorem run_admits (requests : List Request) :
    (∀ planning, requests.foldlM (admitPublication policy onTime hashes layout) .start =
        .ok planning → Admissible policy layout requests ∧ Tracks hashes layout requests planning) ∧
    (Admissible policy layout requests →
      ∃ planning, requests.foldlM (admitPublication policy onTime hashes layout) .start = .ok planning) := by
  induction requests using reverseRecOn with
  | nil =>
    refine ⟨?_, fun _ => ⟨.start, rfl⟩⟩
    intro planning ran
    cases ran
    exact ⟨.nil, .start⟩
  | append_singleton seen request ih =>
    simp only [foldlM_append, foldlM_cons, foldlM_nil, bind_eq_ok, pure_eq_ok]
    constructor
    · intro next ran
      obtain ⟨planning, earlier, admitted, turned, same⟩ := ran
      subst same
      obtain ⟨admissible, tracks⟩ := ih.1 planning earlier
      exact tracks.advance admissible turned
    · intro admissible
      obtain ⟨planning, earlier⟩ := ih.2 admissible.of_append
      obtain ⟨next, turned⟩ := (ih.1 planning earlier).2.admits admissible
      exact ⟨next, planning, earlier, next, turned, rfl⟩

end Run

end Cast.BootPublication.PublicationPlan
