import Cast.BootPublication.PublicationPlanProperties
import Cast.BootPublication.EffectSchedule

/-! Every plan is accepted downstream. The receipt and the executor check again what the
planner has checked: the text of each path, the binding of each role, the order, the
collisions and the sums. A deadline only ever refuses, so nothing is lost by looking at
planning without one. -/

namespace Cast.BootPublication.PublicationPlan

open Foundation InstalledDelta List

variable {policy : Policy} {hashes : Hashes} {layout : Layout} {requests : List Request} {plan : Plan}
  {planned : Planned} {late : Nat → Bool} {request : Request} {parts : List (List UInt8)}
  {previous : Option PublicationPhase} {preflight : Preflight} {schedule : List EffectScheduleEntry}

section Succeeds

variable (budget : Budget) (path : List UInt8) (planning : Planning)

theorem requireDeadline_succeeds : SucceedsWith (budget.requireDeadline late) (budget.requireDeadline onTime) :=
  fun _ _ => requireDeadline_onTime

theorem reserveWork_succeeds (amount : Nat) :
    SucceedsWith (budget.reserveWork policy late amount) (budget.reserveWork policy onTime amount) :=
  (requireDeadline_succeeds budget).bind_left

theorem step_succeeds : SucceedsWith (budget.step policy late) (budget.step policy onTime) :=
  reserveWork_succeeds budget 1

theorem requireComponents_succeeds (components : List (List UInt8)) (count : Nat) :
    SucceedsWith (requireComponents policy late path count components budget)
      (requireComponents policy onTime path count components budget) := by
  induction components generalizing count budget with
  | nil => exact .refl _
  | cons component rest ih =>
    refine (step_succeeds budget).bind fun budget => ?_
    refine .bind_right fun _ => ?_
    exact SucceedsWith.bind_right fun _ => ih _ _

theorem requireNormalizedRelativePath_succeeds :
    SucceedsWith (requireNormalizedRelativePath policy late path budget)
      (requireNormalizedRelativePath policy onTime path budget) := by
  refine .bind_right fun _ => ?_
  refine .bind_right fun _ => ?_
  refine .bind_right fun _ => ?_
  refine .bind_right fun _ => ?_
  refine .bind_right fun _ => ?_
  exact (requireComponents_succeeds budget path _ 0).bind_left

theorem prepareSource_succeeds (source : RequestSource) :
    SucceedsWith (prepareSource policy late hashes path source budget)
      (prepareSource policy onTime hashes path source budget) := by
  cases source with
  | sealedSnapshot => exact (step_succeeds budget).bind_left
  | generated bytes =>
    refine (step_succeeds budget).bind_left.bind fun budget => ?_
    exact (step_succeeds budget).bind_left

theorem existingAncestorIndex_succeeds (destinations : Destinations) (front behind : List UInt8) :
    SucceedsWith (existingAncestorIndex policy late destinations front behind budget)
      (existingAncestorIndex policy onTime destinations front behind budget) := by
  induction behind generalizing front budget with
  | nil => exact .refl _
  | cons byte behind ih =>
    rw [existingAncestorIndex, existingAncestorIndex]
    split
    · exact ih _ _
    · refine (step_succeeds budget).bind fun budget => ?_
      cases destinations.find? front with
      | some existing => exact .refl _
      | none => exact ih _ _

theorem existingDescendantIndex_succeeds (destinations : Destinations) (folded : List UInt8) :
    SucceedsWith (existingDescendantIndex policy late destinations folded budget)
      (existingDescendantIndex policy onTime destinations folded budget) :=
  (step_succeeds budget).bind_left

theorem place_succeeds (domain : CollisionDomain) (planned : Planned) :
    SucceedsWith (planning.place policy late domain planned budget)
      (planning.place policy onTime domain planned budget) := by
  refine (existingAncestorIndex_succeeds budget _ _ _).bind fun walked => ?_
  obtain ⟨ancestor, budget⟩ := walked
  cases ancestor with
  | some index =>
    -- A collision is refused whatever the clock says.
    refine .bind_right fun _ => ?_
    refine .bind_right fun _ => ?_
    exact (existingDescendantIndex_succeeds budget _ _).bind_left
  | none =>
    refine .bind_right fun _ => ?_
    exact (existingDescendantIndex_succeeds budget _ _).bind_left

theorem settle_succeeds (domain : CollisionDomain) (planned : Planned) :
    SucceedsWith (planning.settle policy late domain planned budget)
      (planning.settle policy onTime domain planned budget) := by
  rw [Planning.settle, Planning.settle]
  cases (planning.destinations domain).find? planned.foldedRelativePath with
  | some index => exact .refl _
  | none => exact place_succeeds budget planning domain planned

theorem admit_succeeds (request : Request) :
    SucceedsWith (planning.admitPublication policy late hashes layout request)
      (planning.admitPublication policy onTime hashes layout request) := by
  refine (step_succeeds _).bind_left.bind fun budget => ?_
  refine (requireNormalizedRelativePath_succeeds budget _).bind fun _ => ?_
  refine .bind_right fun _ => ?_
  refine (prepareSource_succeeds _ _ _).bind fun _ => ?_
  refine (step_succeeds _).bind fun _ => ?_
  exact settle_succeeds _ planning _ _

theorem run_succeeds (requests : List Request) :
    SucceedsWith (requests.foldlM (Planning.admitPublication policy late hashes layout) planning)
      (requests.foldlM (Planning.admitPublication policy onTime hashes layout) planning) := by
  induction requests generalizing planning with
  | nil => exact .refl _
  | cons request rest ih =>
    rw [foldlM_cons, foldlM_cons]
    exact (admit_succeeds planning request).bind fun planning => ih planning

theorem addTotals_succeeds (outputs : List Planned) (totals : Totals) :
    SucceedsWith (addTotals policy late outputs totals budget) (addTotals policy onTime outputs totals budget) := by
  induction outputs generalizing totals budget with
  | nil => exact .refl _
  | cons output rest ih =>
    refine (step_succeeds budget).bind fun budget => ?_
    refine .bind_right fun _ => ?_
    exact SucceedsWith.bind_right fun _ => ih _ _

theorem preparePublicationPlan_succeeds (requests : List Request) :
    SucceedsWith (preparePublicationPlan policy late hashes layout requests)
      (preparePublicationPlan policy onTime hashes layout requests) := by
  refine (requireDeadline_succeeds _).bind fun _ => ?_
  refine (run_succeeds .start requests).bind fun planning => ?_
  refine (step_succeeds _).bind fun _ => ?_
  refine (reserveWork_succeeds _ _).bind fun _ => ?_
  refine (requireDeadline_succeeds _).bind fun _ => ?_
  refine (addTotals_succeeds _ _ _).bind fun _ => ?_
  exact (requireDeadline_succeeds _).bind_left

end Succeeds

variable {path component : List UInt8} {text : String}

theorem not_control_of_hasControl {bytes : List UInt8} (plain : hasControl bytes = false) :
    ∀ byte ∈ bytes, isAsciiControl byte = false := by
  induction bytes with
  | nil => simp
  | cons first rest ih =>
    cases rest with
    | nil => simpa [hasControl] using plain
    | cons second rest =>
      simp only [hasControl, Bool.or_eq_false_iff] at plain
      rw [forall_mem_cons]
      exact ⟨plain.1.1, ih plain.2⟩

structure ComponentFacts (component : List UInt8) : Prop where
  filled : component ≠ []
  notDot : component ≠ utf8 "."
  notParent : component ≠ utf8 ".."
  plain : ∀ byte ∈ component, isAsciiControl byte = false ∧ byte < 0x80
  short : component.length ≤ maxFatComponentBytes
  allowed : ∀ byte ∈ component, byte ∉ fatForbidden
  ending : ¬ (component.getLast? = some 0x2e ∨ component.getLast? = some 0x20)
  unmarked : 0x7e ∉ component
  unreserved : ¬ isDosReservedComponent component = true

theorem requireComponent_facts (valid : requireComponent path component = .ok ()) :
    ComponentFacts component := by
  simp only [requireComponent, bind_eq_ok, exists_check, refuse_eq_ok, Bool.not_eq_true,
    any_eq_false, decide_eq_true_eq, gt_iff_lt, Nat.not_lt, UInt8.not_le] at valid
  obtain ⟨filled, dot, parent, control, ascii, _, short, rest⟩ := valid
  cases forbidden : component.find? (· ∈ fatForbidden) with
  | some character => simp [forbidden] at rest
  | none =>
    simp only [forbidden, bind_eq_ok, exists_check, refuse_eq_ok, true_and] at rest
    obtain ⟨ending, unmarked, unreserved⟩ := rest
    have plain := not_control_of_hasControl control
    refine ⟨filled, dot, parent, fun byte member => ⟨plain byte member, ascii byte member⟩, short,
      ?_, ending, unmarked, unreserved⟩
    simpa using forbidden

/-- The planner's rules for a component contain the receipt's. -/
theorem ComponentFacts.validateComponent (facts : ComponentFacts component) :
    BootPublication.validateComponent component = .ok () := by
  have canonical : component.any isNonCanonical = false := by
    rw [any_eq_false]
    intro byte member
    obtain ⟨control, ascii⟩ := facts.plain byte member
    simp only [isAsciiControl, Bool.or_eq_false_iff] at control
    simp [isNonCanonical, control, UInt8.not_le.mpr ascii]
  have allowed : component.any (· ∈ fatForbidden) = false := by simpa using facts.allowed
  simp only [BootPublication.validateComponent, bind_eq_ok, exists_check, refuse_eq_ok,
    Bool.not_eq_true, gt_iff_lt, Nat.not_lt]
  exact ⟨facts.filled, facts.notDot, facts.notParent, canonical, facts.short, allowed,
    facts.ending, facts.unmarked, Bool.not_eq_true _ ▸ facts.unreserved⟩

theorem ComponentFacts.requirePublicationComponent (facts : ComponentFacts component) (planIndex : Nat) :
    InstalledDelta.requirePublicationComponent component planIndex = .ok () := by
  have noNul : 0 ∉ component := by
    intro member
    have control := (facts.plain 0 member).1
    revert control
    decide
  rw [InstalledDelta.requirePublicationComponent, refuse_eq_ok]
  rintro (empty | dot | parent | long | nul)
  · exact facts.filled empty
  · exact facts.notDot dot
  · exact facts.notParent parent
  · exact absurd facts.short (Nat.not_le.mpr long)
  · exact noNul nul

theorem validateComponents_of_facts {components : Nat} (facts : ∀ component ∈ parts, ComponentFacts component)
    (few : components + parts.length ≤ maxReceiptPathComponents) :
    validateComponents components parts = .ok () := by
  induction parts generalizing components with
  | nil => rfl
  | cons component rest ih =>
    rw [forall_mem_cons] at facts
    rw [length_cons] at few
    simp only [validateComponents, bind_eq_ok, exists_check, refuse_eq_ok, gt_iff_lt, Nat.not_lt]
    exact ⟨by omega, facts.1.validateComponent, ih facts.2 (by omega)⟩

theorem walkParents_of_facts {planIndex parentCount : Nat} {prior : List UInt8} (priorFilled : prior ≠ [])
    (facts : ∀ component ∈ parts, ComponentFacts component)
    (few : parentCount + parts.length ≤ 15) :
    ∃ last, walkParents planIndex parentCount prior parts = .ok (parentCount + parts.length, last) ∧ last ≠ [] := by
  induction parts generalizing parentCount prior with
  | nil => exact ⟨prior, rfl, priorFilled⟩
  | cons component rest ih =>
    rw [forall_mem_cons] at facts
    rw [length_cons] at few ⊢
    obtain ⟨last, walked, filled⟩ := @ih (parentCount + 1) component facts.1.filled facts.2 (by omega)
    have arranged : parentCount + (rest.length + 1) = parentCount + 1 + rest.length := by omega
    refine ⟨last, ?_, filled⟩
    rw [arranged]
    simp only [walkParents, bind_eq_ok, exists_check, refuse_eq_ok]
    exact ⟨facts.1.requirePublicationComponent planIndex, by omega, walked⟩

theorem PathValid.facts (valid : PathValid policy path text) :
    ∀ component ∈ path.splitOn slash, ComponentFacts component :=
  fun component member => requireComponent_facts (valid.components component member)

section

variable (valid : PathValid .production path text)
include valid

theorem PathValid.length_components : (path.splitOn slash).length ≤ maxReceiptPathComponents := by
  have few := valid.few
  simp only [saturate, componentCount, Policy.production, maxPublicationComponents] at few
  have size : UInt64.size = 18446744073709551616 := rfl
  rw [maxReceiptPathComponents]
  omega

theorem PathValid.validatePathText : BootPublication.validatePathText path = .ok () := by
  have few := valid.length_components
  simp only [BootPublication.validatePathText, bind_eq_ok, exists_check, refuse_eq_ok, gt_iff_lt, Nat.not_lt]
  exact ⟨valid.filled, valid.relative, valid.short, validateComponents_of_facts valid.facts (by omega)⟩

theorem PathValid.splitPublicationPath (nested : 2 ≤ (path.splitOn slash).length) (planIndex : Nat) :
    InstalledDelta.splitPublicationPath text planIndex = .ok () := by
  have few := valid.length_components
  have facts := valid.facts
  rw [InstalledDelta.splitPublicationPath, utf8_of_fromUTF8? valid.text]
  cases parts : path.splitOn slash with
  | nil => exact absurd parts (splitOn_ne_nil _ _)
  | cons first rest =>
    rw [parts] at few facts nested
    rw [forall_mem_cons] at facts
    rw [length_cons] at few nested
    rw [maxReceiptPathComponents] at few
    obtain ⟨last, walked, filled⟩ := @walkParents_of_facts rest planIndex 0 first facts.1.filled facts.2 (by omega)
    simp only [bind_eq_ok, exists_check, walked, Except.ok.injEq, exists_eq_left', refuse_eq_ok]
    refine ⟨facts.1.requirePublicationComponent planIndex, ?_⟩
    rintro (none | empty)
    · omega
    · exact filled empty

end

variable {left right : Request}

structure RoleFacts (request : Request) : Prop where
  root : request.root = (roleBinding request.role).1
  phase : request.phase = (roleBinding request.role).2
  nested : 2 ≤ (request.relativePath.splitOn slash).length

theorem nested_of_rolePathMatches (matched : rolePathMatches request = true) :
    2 ≤ (request.relativePath.splitOn slash).length := by
  rw [rolePathMatches] at matched
  cases role : request.role with
  | payload =>
    rw [role] at matched
    cases source : request.source with
    | generated bytes => simp [source, payloadPathMatches] at matched
    | sealedSnapshot bindingIndex digest length identity =>
      simp only [source, payloadPathMatches] at matched
      split at matched
      · rename_i parts
        simp [parts]
      · cases matched
  | entry =>
    simp only [role, entryPathMatches] at matched
    split at matched
    · rename_i parts
      simp [parts]
    · cases matched
  | loaderControl | fallbackBootloader | systemdBootloader =>
    simp only [role, beq_iff_eq] at matched
    rw [matched]
    decide

theorem requireRoleBinding_facts (bound : requireRoleBinding request = .ok ()) :
    RoleFacts request := by
  simp only [requireRoleBinding, bind_eq_ok, exists_check, refuse_eq_ok, not_not, Bool.not_eq_false] at bound
  exact ⟨bound.1, bound.2.1, nested_of_rolePathMatches bound.2.2.2⟩

theorem Request.Valid.length_lt (valid : request.Valid .production) :
    (request.source.prepared hashes).length < UInt64.size := by
  have source := valid.source
  cases content : request.source with
  | sealedSnapshot bindingIndex digest length identity => exact length.toNat_lt
  | generated bytes =>
    rw [content] at source
    simp only [RequestSource.Valid, Policy.production, maxPublicationGeneratedFileBytes] at source
    have size : UInt64.size = 18446744073709551616 := rfl
    simp only [RequestSource.prepared, Source.length]
    omega

/-- The first three keys of the order decide it. -/
def PublishedBefore (left right : Planned) : Prop :=
  ((compare left.phase right.phase).then (compare left.root right.root)).then
    (compare left.foldedRelativePath right.foldedRelativePath) = .lt

theorem exists_request (member : planned ∈ sortPlanned ((arrived requests).map (Request.planned hashes))) :
    ∃ request ∈ requests, request.planned hashes = planned := by
  rw [(sortPlanned_perm _).mem_iff, mem_map] at member
  obtain ⟨request, known, same⟩ := member
  exact ⟨request, mem_arrived.mp known, same⟩

theorem planned_before (admissible : Admissible policy layout requests) :
    (sortPlanned ((arrived requests).map (Request.planned hashes))).Pairwise PublishedBefore := by
  have distinct : (sortPlanned ((arrived requests).map (Request.planned hashes))).Nodup := by
    rw [(sortPlanned_perm _).nodup_iff]
    refine (nodup_map_iff_inj_on (nodup_arrived _)).mpr ?_
    intro left leftKnown right rightKnown same
    exact Request.planned_injective (admissible.valid left (mem_arrived.mp leftKnown))
      (admissible.valid right (mem_arrived.mp rightKnown)) same
  refine ((sortPlanned_sorted _).and distinct).imp_of_mem ?_
  intro first second firstMember secondMember related
  obtain ⟨notAfter, unlike⟩ := related
  obtain ⟨left, leftKnown, leftPlanned⟩ := exists_request firstMember
  obtain ⟨right, rightKnown, rightPlanned⟩ := exists_request secondMember
  subst leftPlanned rightPlanned
  rw [comparePlanned] at notAfter
  cases key : ((compare (left.planned hashes).phase (right.planned hashes).phase).then
      (compare (left.planned hashes).root (right.planned hashes).root)).then
      (compare (left.planned hashes).foldedRelativePath (right.planned hashes).foldedRelativePath) with
  | lt => exact key
  | gt =>
    rw [key] at notAfter
    cases notAfter
  | eq =>
    obtain ⟨first, folded⟩ := Ordering.then_eq_eq.mp key
    have sameRoot : left.root = right.root := Std.LawfulEqCmp.eq_of_compare (Ordering.then_eq_eq.mp first).2
    have sameFolded : left.folded = right.folded := Std.LawfulEqCmp.eq_of_compare folded
    have distinctRequests : left ≠ right := by
      intro same
      exact unlike (by rw [same])
    exact absurd sameFolded (admissible.apart left leftKnown right rightKnown distinctRequests (by rw [sameRoot])).1

structure OutputFacts (planned : Planned) : Prop where
  path : PathValid .production (utf8 planned.relativePath) planned.relativePath
  nested : 2 ≤ ((utf8 planned.relativePath).splitOn slash).length
  root : planned.root = (roleBinding planned.role).1
  phase : planned.phase = (roleBinding planned.role).2
  folded : (utf8 planned.relativePath).map toAsciiLowercase = planned.foldedRelativePath
  length : planned.source.length < UInt64.size

theorem Request.Valid.outputFacts (valid : request.Valid .production) : OutputFacts (request.planned hashes) := by
  obtain ⟨text, path⟩ := valid.path
  have role := requireRoleBinding_facts valid.role
  have bytes : utf8 request.text = request.relativePath := valid.utf8_text
  refine ⟨?_, ?_, role.root, role.phase, congrArg (map toAsciiLowercase) bytes, valid.length_lt⟩
  · change PathValid .production (utf8 request.text) request.text
    rw [bytes, Request.text_eq path]
    exact path
  · change 2 ≤ ((utf8 request.text).splitOn slash).length
    rw [bytes]
    exact role.nested

structure PlanFacts (layout : Layout) (plan : Plan) : Prop where
  outputs : ∀ planned ∈ plan.outputs, OutputFacts planned
  ordered : plan.outputs.Pairwise PublishedBefore
  apart : plan.outputs.Pairwise fun left right =>
    layout.forRoot left.root = layout.forRoot right.root → left.foldedRelativePath ≠ right.foldedRelativePath ∧
        ¬ Below slash left.foldedRelativePath right.foldedRelativePath ∧
        ¬ Below slash right.foldedRelativePath left.foldedRelativePath
  count : plan.outputs.length ≤ maxReceiptOutputs
  paths : pathTotal plan.outputs ≤ maxReceiptPathBytes
  logical : logicalTotal plan.outputs ≤ maxReceiptLogicalBytes

theorem planFacts (prepared : preparePublicationPlan .production late hashes layout requests = .ok plan) :
    PlanFacts layout plan := by
  obtain ⟨valid, apart, limits, same⟩ :=
    preparePublicationPlan_onTime.mp (preparePublicationPlan_succeeds requests plan prepared)
  subst same
  have size : UInt64.size = 18446744073709551616 := rfl
  have admissible : Admissible .production layout requests :=
    ⟨valid, apart, (saturate_mono (by unfold planningWork; omega)).trans limits.work,
      limits.count, limits.paths, limits.generated⟩
  have arrivedValid : ∀ request ∈ arrived requests, request.Valid .production :=
    fun request known => valid request (mem_arrived.mp known)
  have fewer : (arrived requests).Subperm requests :=
    subperm_of_subset (nodup_arrived requests) fun request known => mem_arrived.mp known
  refine ⟨?_, planned_before admissible, ?_, ?_, ?_, ?_⟩
  · intro planned member
    obtain ⟨request, known, same⟩ := exists_request member
    subst same
    exact (valid request known).outputFacts
  · refine (planned_before admissible).imp_of_mem ?_
    intro first second firstMember secondMember before
    obtain ⟨left, leftKnown, leftSame⟩ := exists_request firstMember
    obtain ⟨right, rightKnown, rightSame⟩ := exists_request secondMember
    subst leftSame rightSame
    refine apart left leftKnown right rightKnown ?_
    intro same
    subst same
    simp [PublishedBefore, Std.ReflCmp.compare_self] at before
  · have count := limits.count
    simp only [Policy.production, maxPublications, saturate] at count
    simp only [planOf, (sortPlanned_perm _).length_eq, length_map, maxReceiptOutputs]
    have shorter := fewer.length_le
    omega
  · have paths := limits.paths
    simp only [Policy.production, maxPublicationPathBytes, saturate] at paths
    simp only [planOf, pathTotal_planned arrivedValid, maxReceiptPathBytes]
    have shorter : declaredPathBytes (arrived requests) ≤ declaredPathBytes requests := sum_map_le_of_subperm fewer
    omega
  · have logical := limits.logical
    simp only [Policy.production, maxPublicationLogicalBytes, saturate] at logical
    simp only [planOf, logicalTotal_planned, maxReceiptLogicalBytes]
    omega

section

variable (facts : OutputFacts planned)
include facts

theorem OutputFacts.validate (claim : OutputProvenanceClaim) (index : Nat) :
    (receiptOutput (desiredOutput planned) claim).validate index = .ok () := by
  simp only [Output.validate, validatePath, bind_eq_ok, exists_check, mapError_eq_ok, refuse_eq_ok, not_not]
  exact ⟨facts.path.validatePathText, rfl, facts.root, facts.phase⟩

theorem OutputFacts.folded_receiptOutput (claim : OutputProvenanceClaim) :
    (receiptOutput (desiredOutput planned) claim).folded = planned.foldedRelativePath :=
  facts.folded

theorem OutputFacts.phase_eq : planned.phase = phaseForRole planned.role := by
  rw [facts.phase]
  cases planned.role <;> rfl

theorem OutputFacts.requirePlannedOutput (index : Nat)
    (notBefore : ∀ phase ∈ previous, compare planned.phase phase ≠ .lt) :
    InstalledDelta.requirePlannedOutput index previous (desiredOutput planned) = .ok () := by
  have split := facts.path.splitPublicationPath facts.nested index
  cases previous with
  | none =>
    simp only [InstalledDelta.requirePlannedOutput, bind_eq_ok, exists_check, refuse_eq_ok, not_not]
    exact ⟨facts.phase_eq, trivial, rfl, split⟩
  | some earlier =>
    simp only [InstalledDelta.requirePlannedOutput, bind_eq_ok, exists_check, refuse_eq_ok, not_not]
    exact ⟨facts.phase_eq, notBefore earlier rfl, rfl, split⟩

end

theorem compareOutputs_of_before {left right : Planned} (leftFacts : OutputFacts left)
    (rightFacts : OutputFacts right) (before : PublishedBefore left right)
    (leftClaim rightClaim : OutputProvenanceClaim) :
    compareOutputs (receiptOutput (desiredOutput left) leftClaim)
      (receiptOutput (desiredOutput right) rightClaim) = .lt := by
  have decided : ((compare left.phase right.phase).then (compare left.root right.root)).then
      (asciiFoldCmp (utf8 left.relativePath) (utf8 right.relativePath)) = .lt := by
    rw [asciiFoldCmp, leftFacts.folded, rightFacts.folded]
    exact before
  change Ordering.then (((compare left.phase right.phase).then (compare left.root right.root)).then
    (asciiFoldCmp (utf8 left.relativePath) (utf8 right.relativePath))) _ = .lt
  rw [decided]
  rfl

abbrev Claimed := List (Planned × OutputProvenanceClaim)

def receiptOutputs (claimed : Claimed) : List Output := claimed.map fun row => receiptOutput (desiredOutput row.1) row.2

theorem PlanFacts.receipt_accepted (facts : PlanFacts layout plan) (filled : plan.outputs ≠ [])
    {claimed : Claimed} (claims : claimed.map Prod.fst = plan.outputs) {device : DeviceNumbers}
    {body : ReceiptBody} (format : body.format = receiptFormat)
    (version : body.version = receiptBodyVersion)
    (destinations : body.destinations.validate device = .ok ())
    (sameLayout : layoutOf body.destinations = layout)
    (outputs : body.outputs = receiptOutputs claimed) : body.validate device = .ok () := by
  have count : claimed.length = plan.outputs.length := by rw [← claims, length_map]
  have rowFacts : ∀ row ∈ claimed, OutputFacts row.1 := by
    intro row member
    refine facts.outputs row.1 ?_
    rw [← claims]
    exact mem_map_of_mem member
  have paths : pathBytes body.outputs = pathTotal plan.outputs := by
    rw [outputs, ← claims, pathBytes, pathTotal, receiptOutputs, map_map, map_map]
    rfl
  have logical : BootPublication.logicalBytes body.outputs = logicalTotal plan.outputs := by
    rw [outputs, ← claims, BootPublication.logicalBytes, logicalTotal, receiptOutputs, map_map, map_map]
    congr 1
    refine map_congr_left ?_
    intro row member
    exact Nat.mod_eq_of_lt (rowFacts row member).length
  have ordered := facts.ordered
  have apart := facts.apart
  rw [← claims, pairwise_map] at ordered apart
  refine PartsValid.accepts ⟨destinations, ?_, ?_, ?_, paths ▸ facts.paths, logical ▸ facts.logical⟩
    format version ?_ ?_
  · rw [outputs, receiptOutputs, length_map, count]
    exact length_pos_iff.mpr filled
  · rw [outputs, receiptOutputs, length_map, count]
    exact facts.count
  · intro index output found
    rw [outputs] at found
    obtain ⟨row, member, same⟩ := mem_map.mp (mem_of_getElem? found)
    subst same
    exact (rowFacts row member).validate row.2 index
  · rw [outputs, receiptOutputs, pairwise_map]
    refine ordered.imp_of_mem ?_
    intro left right leftMember rightMember before
    exact compareOutputs_of_before (rowFacts left leftMember) (rowFacts right rightMember) before _ _
  · rw [outputs, receiptOutputs, pairwise_map]
    refine apart.imp_of_mem ?_
    intro left right leftMember rightMember separate shared
    rw [(rowFacts left leftMember).folded_receiptOutput,
      (rowFacts right rightMember).folded_receiptOutput, ← below_iff_componentsBelow,
      ← below_iff_componentsBelow]
    refine separate ?_
    rw [← sameLayout]
    cases place : body.destinations with
    | bootAliasesEsp esp => rfl
    | distinctXbootldr esp xbootldr =>
      rw [place] at shared
      rcases shared with aliases | sameRoot
      · cases aliases
      · exact congrArg _ sameRoot

/-- The schedule was made for the plan of the preflight, the targets of its outputs can
be reached, and every action starts from the state that was found. -/
structure ScheduleFits (preflight : Preflight) (schedule : List EffectScheduleEntry) : Prop where
  count : schedule.length = preflight.outputs.length
  bound : ∀ (index : Nat) (entry : EffectScheduleEntry) (output : DesiredOutput),
    schedule[index]? = some entry → preflight.outputs[index]? = some output →
      entry.planIndex = index ∧ entry.root = output.root ∧
      preflight.route output.root index = .ok () ∧
      initialStateForAction entry.action = preflight.initialStates[index]?

theorem phase_notBefore {left right : Planned} (before : PublishedBefore left right) :
    compare right.phase left.phase ≠ .lt := by
  intro after
  have first : compare left.phase right.phase = .gt := Std.OrientedCmp.gt_of_lt after
  simp [PublishedBefore, first] at before

theorem executeOutputs_accepts {planned : List Planned} {start : Nat}
    (facts : ∀ output ∈ planned, OutputFacts output) (ordered : planned.Pairwise PublishedBefore)
    (notBefore : ∀ phase ∈ previous, ∀ output ∈ planned, compare output.phase phase ≠ .lt)
    (bound : ∀ (offset : Nat) (entry : EffectScheduleEntry) (output : Planned),
      schedule[offset]? = some entry → planned[offset]? = some output →
        entry.planIndex = start + offset ∧ entry.root = output.root ∧
        preflight.route output.root (start + offset) = .ok () ∧
        initialStateForAction entry.action = preflight.initialStates[start + offset]?) :
    executeOutputs preflight start previous (schedule.zip (planned.map desiredOutput)) = .ok () := by
  induction planned generalizing schedule start previous with
  | nil =>
    rw [map_nil, zip_nil_right]
    rfl
  | cons output rest ih =>
    cases schedule with
    | nil => rfl
    | cons entry schedule =>
      obtain ⟨above, restOrdered⟩ := pairwise_cons.mp ordered
      rw [forall_mem_cons] at facts
      obtain ⟨planIndex, root, route, initial⟩ := bound 0 entry output rfl rfl
      rw [Nat.add_zero] at planIndex route initial
      have checked : InstalledDelta.requirePlannedOutput start previous (desiredOutput output) = .ok () :=
        facts.1.requirePlannedOutput start fun phase known => notBefore phase known output mem_cons_self
      have later : executeOutputs preflight (start + 1) (some output.phase)
          (schedule.zip (rest.map desiredOutput)) = .ok () := by
        refine ih facts.2 restOrdered ?_ ?_
        · intro phase known second member
          cases known
          exact phase_notBefore (above second member)
        · intro offset second planned scheduled found
          have arranged : start + 1 + offset = start + (offset + 1) := by omega
          rw [arranged]
          exact bound (offset + 1) second planned scheduled found
      rw [map_cons, zip_cons_cons]
      simp only [executeOutputs, bind_eq_ok, exists_check, refuse_eq_ok, not_or, not_not]
      exact ⟨⟨planIndex, root⟩, checked, route, initial, later⟩

theorem PlanFacts.execution_accepted (facts : PlanFacts layout plan)
    (outputs : preflight.outputs = plan.outputs.map desiredOutput)
    (fits : ScheduleFits preflight schedule) :
    prepareExecutionSchedule preflight schedule = .ok () := by
  rw [prepareExecutionSchedule]
  simp only [bind_eq_ok, exists_check, refuse_eq_ok, not_not]
  refine ⟨fits.count, ?_⟩
  rw [outputs]
  refine executeOutputs_accepts facts.outputs facts.ordered ?_ ?_
  · intro phase known
    cases known
  · intro offset entry output scheduled found
    rw [Nat.zero_add]
    refine fits.bound offset entry (desiredOutput output) scheduled ?_
    rw [outputs, getElem?_map, found]
    rfl

/-- A plan of the production policy is accepted downstream. With any claims its outputs
make a receipt that validates at valid destinations of the plan's layout, and the
executor takes every schedule that was made for it. -/
theorem plan_accepted_downstream (late : Nat → Bool) (hashes : Hashes) (layout : Layout)
    (requests : List Request) (plan : Plan)
    (prepared : preparePublicationPlan .production late hashes layout requests = .ok plan)
    (filled : plan.outputs ≠ []) :
    (∀ (claimed : Claimed) (device : DeviceNumbers) (body : ReceiptBody),
      claimed.map Prod.fst = plan.outputs → body.format = receiptFormat →
      body.version = receiptBodyVersion → body.destinations.validate device = .ok () →
      layoutOf body.destinations = layout → body.outputs = receiptOutputs claimed →
      body.validate device = .ok ()) ∧
    (∀ (index : Nat) (output : Planned), plan.outputs[index]? = some output → output.phase = phaseForRole output.role ∧
      splitPublicationPath output.relativePath index = .ok ()) ∧
    plan.outputs.Pairwise (fun earlier later => compare later.phase earlier.phase ≠ .lt) ∧
    (∀ (preflight : Preflight) (schedule : List EffectScheduleEntry),
      preflight.outputs = plan.outputs.map desiredOutput → ScheduleFits preflight schedule →
      prepareExecutionSchedule preflight schedule = .ok ()) := by
  have facts := planFacts prepared
  refine ⟨?_, ?_, facts.ordered.imp phase_notBefore, ?_⟩
  · intro claimed device body claims format version destinations sameLayout outputs
    exact facts.receipt_accepted filled claims format version destinations sameLayout outputs
  · intro index output found
    have known := facts.outputs output (mem_of_getElem? found)
    exact ⟨known.phase_eq, known.path.splitPublicationPath known.nested index⟩
  · intro preflight schedule outputs fits
    exact facts.execution_accepted outputs fits

def loaderReceipt (plan : Plan) : ReceiptBody :=
  { sampleReceipt receiptFormat receiptBodyVersion with
    outputs := receiptOutputs (plan.outputs.map fun planned => (planned, .unclaimedAbsent)) }

def entryPath : String := "loader/entries/cast.conf"

def entryRequest : Request :=
  { loaderRequest with role := .entry, phase := .entry, relativePath := utf8 entryPath }

/-- The settings and an entry, requested against the order in which they are published. -/
theorem entryRequest_prepared :
    preparePublicationPlan .production onTime loaderHashes .bootAliasesEsp [loaderRequest, entryRequest] =
      .ok (planOf loaderHashes .bootAliasesEsp [loaderRequest, entryRequest]) := by
  have valid : entryRequest.Valid .production :=
    ⟨⟨entryPath, by decide, by decide, rfl, by decide, by decide, by decide, by decide⟩, rfl, loaderRequest_valid.source⟩
  have apart : Apart .bootAliasesEsp loaderRequest entryRequest := by
    unfold Apart Below
    decide
  refine preparePublicationPlan_onTime.mpr ⟨?_, ?_, ⟨?_, ?_, ?_, ?_, ?_, ?_⟩, rfl⟩
  · simp [loaderRequest_valid, valid]
  · simp [apart, apart.symm]
  all_goals decide

theorem loaderPlan_accepted : let plan := planOf loaderHashes .bootAliasesEsp [loaderRequest, entryRequest]
    plan.outputs.length = 2 ∧ plan.outputs.Pairwise (fun earlier later => compare later.phase earlier.phase ≠ .lt) ∧
      (loaderReceipt plan).validate linuxDeviceNumbers = .ok () := by
  intro plan
  have count : plan.outputs.length = 2 := (sortPlanned_perm _).length_eq
  obtain ⟨receipts, -, ordered, -⟩ := plan_accepted_downstream onTime loaderHashes .bootAliasesEsp _ plan
    entryRequest_prepared (ne_nil_of_length_eq_add_one count)
  refine ⟨count, ordered, receipts _ _ _ ?_ rfl rfl rfl rfl rfl⟩
  rw [map_map]
  exact map_id _

end Cast.BootPublication.PublicationPlan
