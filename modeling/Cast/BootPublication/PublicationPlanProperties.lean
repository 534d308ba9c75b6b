import Cast.BootPublication.PublicationAdmission
import Cast.Foundation.Sorting

/-! Planning is a function of the set of requests. What was admitted is sorted, and the
order is strict on outputs that are apart, so the plan depends on nothing but the
requests without their repetitions. -/

namespace Cast.BootPublication.PublicationPlan

open Foundation List Request

variable {requests others : List Request} {work publications pathBytes generated : Nat}
  {totals : Totals} {next : Budget} {policy : Policy} {hashes : Hashes} {layout : Layout}

instance : Std.TransCmp comparePlanned :=
  inferInstanceAs (Std.TransCmp (compareLex
    (compareLex (compareLex (compareOn Planned.phase) (compareOn Planned.root)) (compareOn Planned.foldedRelativePath))
    (compareOn fun planned : Planned => (utf8 planned.relativePath).splitOn slash)))

theorem sortPlanned_perm (outputs : List Planned) : (sortPlanned outputs).Perm outputs := mergeSort_perm _ _

theorem sortPlanned_sorted (outputs : List Planned) :
    (sortPlanned outputs).Pairwise fun left right => (comparePlanned left right).isLE = true := by
  refine pairwise_mergeSort ?_ ?_ outputs
  · intro first second third before after
    exact Std.TransCmp.isLE_trans before after
  · intro left right
    have swapped : comparePlanned right left = (comparePlanned left right).swap := Std.OrientedCmp.eq_swap
    rw [swapped]
    cases comparePlanned left right <;> rfl

theorem Admissible.eq_of_compare (admissible : Admissible policy layout requests)
    {left right : Request} (leftKnown : left ∈ requests) (rightKnown : right ∈ requests)
    (tie : comparePlanned (left.planned hashes) (right.planned hashes) = .eq) : left = right := by
  by_contra distinct
  simp only [comparePlanned, Ordering.then_eq_eq] at tie
  obtain ⟨⟨⟨_, root⟩, folded⟩, _⟩ := tie
  have sameRoot : left.root = right.root := Std.LawfulEqCmp.eq_of_compare root
  have sameFolded : left.folded = right.folded := Std.LawfulEqCmp.eq_of_compare folded
  exact (admissible.apart left leftKnown right rightKnown distinct (by rw [sameRoot])).1 sameFolded

theorem Admissible.sortPlanned_eq (admissible : Admissible policy layout requests)
    (same : (arrived requests).Perm (arrived others)) :
    sortPlanned ((arrived requests).map (planned hashes)) =
      sortPlanned ((arrived others).map (planned hashes)) := by
  refine eq_of_perm_of_sorted ?_ ?_ (sortPlanned_sorted _) (sortPlanned_sorted _)
  · exact ((sortPlanned_perm _).trans (same.map _)).trans (sortPlanned_perm _).symm
  · intro left leftMember right rightMember tie
    rw [(sortPlanned_perm _).mem_iff, mem_map] at leftMember rightMember
    obtain ⟨first, firstArrived, rfl⟩ := leftMember
    obtain ⟨second, secondArrived, rfl⟩ := rightMember
    rw [admissible.eq_of_compare (mem_arrived.mp firstArrived) (mem_arrived.mp secondArrived) tie]

def logicalTotal (outputs : List Planned) : Nat := (outputs.map fun output => output.source.length).sum

def Source.generatedSize (source : Source) : Nat := (source.generatedBytes.map List.length).getD 0

def generatedTotal (outputs : List Planned) : Nat := (outputs.map fun output => output.source.generatedSize).sum

def pathTotal (outputs : List Planned) : Nat := (outputs.map fun output => (utf8 output.relativePath).length).sum

theorem addGenerated_saturate (source : Source) (total : Nat) :
    source.addGenerated (saturate total) = saturate (total + source.generatedSize) := by
  unfold Source.addGenerated Source.generatedSize
  cases source.generatedBytes with
  | none => rfl
  | some bytes => exact saturate_add _ _

theorem addTotals_charged {outputs : List Planned} {logical declared paths : Nat}
    (within : saturate work ≤ policy.maxWork)
    (logicalWithin : saturate logical ≤ policy.maxLogicalBytes) (counter : paths < UInt64.size) :
    addTotals policy onTime outputs ⟨saturate logical, saturate declared, paths⟩
        (charged work publications pathBytes generated) = .ok (totals, next) ↔
      saturate (work + outputs.length) ≤ policy.maxWork ∧
      saturate (logical + logicalTotal outputs) ≤ policy.maxLogicalBytes ∧
      paths + pathTotal outputs < UInt64.size ∧
      ⟨saturate (logical + logicalTotal outputs), saturate (declared + generatedTotal outputs),
        paths + pathTotal outputs⟩ = totals ∧
      charged (work + outputs.length) publications pathBytes generated = next := by
  induction outputs generalizing work logical declared paths with
  | nil => simp [addTotals, logicalTotal, generatedTotal, pathTotal, within, logicalWithin, counter]
  | cons output rest ih =>
    have arranged : work + 1 + rest.length = work + (output :: rest).length := by
      rw [length_cons]
      omega
    have logicals : logical + output.source.length + logicalTotal rest = logical + logicalTotal (output :: rest) := by
      simp only [logicalTotal, map_cons, sum_cons]
      omega
    have declareds : declared + output.source.generatedSize + generatedTotal rest =
        declared + generatedTotal (output :: rest) := by
      simp only [generatedTotal, map_cons, sum_cons]
      omega
    have counters : paths + (utf8 output.relativePath).length + pathTotal rest =
        paths + pathTotal (output :: rest) := by
      simp only [pathTotal, map_cons, sum_cons]
      omega
    simp only [addTotals, bind_eq_ok, step_charged, okOr_eq_ok, checkedAdd, exists_check,
      refuse_eq_ok, saturate_add, gt_iff_lt, Nat.not_lt, addGenerated_saturate]
    rw [← arranged, ← logicals, ← declareds, ← counters]
    constructor
    · intro held
      obtain ⟨_, ⟨fits, same⟩, sum, added, small, others⟩ := held
      subst same
      split at added
      · cases added
        exact (ih fits small (by assumption)).mp others
      · cases added
    · intro held
      obtain ⟨fits, small, counted, same, last⟩ := held
      have first : saturate (work + 1) ≤ policy.maxWork := (saturate_mono (by omega)).trans fits
      have firstSmall : saturate (logical + output.source.length) ≤ policy.maxLogicalBytes :=
        (saturate_mono (by omega)).trans small
      have firstCounted : paths + (utf8 output.relativePath).length < UInt64.size := by omega
      refine ⟨_, ⟨first, rfl⟩, _, if_pos firstCounted, firstSmall, ?_⟩
      exact (ih first firstSmall firstCounted).mpr ⟨fits, small, counted, same, last⟩

def RequestSource.length : RequestSource → Nat
  | .sealedSnapshot _ _ length _ => length.toNat
  | .generated bytes => bytes.length

def logicalBytes (requests : List Request) : Nat := (requests.map fun request => request.source.length).sum

def planningWork (requests : List Request) : Nat :=
  admissionWork requests + 1 + conservativeSortWork (arrived requests).length + (arrived requests).length

/-- The limits on counts, bytes and work. Every declaration is counted; only what is
published has logical bytes. -/
structure WithinLimits (policy : Policy) (requests : List Request) : Prop where
  count : saturate requests.length ≤ policy.maxPublications
  paths : saturate (declaredPathBytes requests) ≤ policy.maxPathBytes
  generated : saturate (declaredGenerated requests) ≤ policy.maxGeneratedBytes
  logical : saturate (logicalBytes (arrived requests)) ≤ policy.maxLogicalBytes
  counter : declaredPathBytes (arrived requests) < UInt64.size
  work : saturate (planningWork requests) ≤ policy.maxWork

def planOf (hashes : Hashes) (layout : Layout) (requests : List Request) : Plan where
  outputs := sortPlanned ((arrived requests).map (planned hashes))
  layout := layout
  totals := ⟨saturate (logicalBytes (arrived requests)),
    saturate (declaredGenerated (arrived requests)), declaredPathBytes (arrived requests)⟩
  planningWork := saturate (PublicationPlan.planningWork requests)

theorem sum_planned {size : Planned → Nat} {own : Request → Nat}
    (agree : ∀ request ∈ requests, size (request.planned hashes) = own request) :
    ((sortPlanned (requests.map (planned hashes))).map size).sum = (requests.map own).sum := by
  rw [((sortPlanned_perm _).map size).sum_nat, map_map]
  exact congrArg List.sum (map_congr_left agree)

theorem logicalTotal_planned (requests : List Request) :
    logicalTotal (sortPlanned (requests.map (planned hashes))) = logicalBytes requests := by
  refine sum_planned ?_
  rintro ⟨_, _, _, _, source⟩ _
  cases source <;> rfl

theorem generatedTotal_planned (requests : List Request) :
    generatedTotal (sortPlanned (requests.map (planned hashes))) = declaredGenerated requests := by
  refine sum_planned ?_
  rintro ⟨_, _, _, _, source⟩ _
  cases source <;> rfl

theorem pathTotal_planned (valid : ∀ request ∈ requests, request.Valid policy) :
    pathTotal (sortPlanned (requests.map (planned hashes))) = declaredPathBytes requests := by
  refine sum_planned ?_
  intro request member
  change (utf8 request.text).length = _
  rw [(valid request member).utf8_text]

theorem addTotals_planned (within : saturate work ≤ policy.maxWork)
    (valid : ∀ request ∈ requests, request.Valid policy) :
    addTotals policy onTime (sortPlanned (requests.map (planned hashes))) ⟨0, 0, 0⟩
        (charged work publications pathBytes generated) = .ok (totals, next) ↔
      saturate (work + requests.length) ≤ policy.maxWork ∧
      saturate (logicalBytes requests) ≤ policy.maxLogicalBytes ∧
      declaredPathBytes requests < UInt64.size ∧
      ⟨saturate (logicalBytes requests), saturate (declaredGenerated requests), declaredPathBytes requests⟩ = totals ∧
      charged (work + requests.length) publications pathBytes generated = next := by
  have count : (sortPlanned (requests.map (planned hashes))).length = requests.length := by
    rw [(sortPlanned_perm _).length_eq, length_map]
  have nothing : saturate 0 ≤ policy.maxLogicalBytes := Nat.zero_le _
  have empty : 0 < UInt64.size := by decide
  rw [← count, ← @logicalTotal_planned hashes, ← @generatedTotal_planned hashes,
    ← @pathTotal_planned requests policy hashes valid]
  have sums := @addTotals_charged work publications pathBytes generated totals next policy
    (sortPlanned (requests.map (planned hashes))) 0 0 0 within nothing empty
  rw [Nat.zero_add, Nat.zero_add, Nat.zero_add] at sums
  exact sums

/-- The planner in one equation: the checks are those on each request, on each two
and on the sums, and the plan is the sorted list of the requests that arrived. -/
theorem preparePublicationPlan_onTime {plan : Plan} :
    preparePublicationPlan policy onTime hashes layout requests = .ok plan ↔
      (∀ request ∈ requests, request.Valid policy) ∧
      (∀ left ∈ requests, ∀ right ∈ requests, left ≠ right → Apart layout left right) ∧
      WithinLimits policy requests ∧ planOf hashes layout requests = plan := by
  have arrivedValid (valid : ∀ request ∈ requests, request.Valid policy) :
      ∀ request ∈ arrived requests, request.Valid policy :=
    fun request member => valid request (mem_arrived.mp member)
  simp only [preparePublicationPlan, bind_eq_ok, exists_check, requireDeadline_onTime, true_and, pure_eq_ok]
  constructor
  · intro held
    obtain ⟨planning, ran, _, stepped, _, reserved, ⟨totals, _⟩, added, last⟩ := held
    obtain ⟨admissible, tracks⟩ := (run_admits requests).1 planning ran
    rw [tracks.budget] at stepped
    obtain ⟨_, same⟩ := step_charged.mp stepped
    subst same
    rw [tracks.outputs, length_map] at reserved
    obtain ⟨sorted, same⟩ := reserveWork_charged.mp reserved
    subst same
    rw [tracks.outputs] at added last
    obtain ⟨fits, logical, counter, sums, same⟩ := (addTotals_planned sorted (arrivedValid admissible.valid)).mp added
    subst same sums
    exact ⟨admissible.valid, admissible.apart, ⟨admissible.count, admissible.paths,
      admissible.generated, logical, counter, fits⟩, last⟩
  · intro held
    obtain ⟨valid, apart, limits, last⟩ := held
    have charges {part : Nat} (below : part ≤ planningWork requests) :
        saturate part ≤ policy.maxWork := (saturate_mono below).trans limits.work
    have admissible : Admissible policy layout requests :=
      ⟨valid, apart, charges (by unfold planningWork; omega), limits.count, limits.paths, limits.generated⟩
    obtain ⟨planning, ran⟩ := (run_admits requests).2 admissible
    obtain ⟨_, tracks⟩ := (run_admits requests).1 planning ran
    have sorted : saturate (admissionWork requests + 1 +
        conservativeSortWork (arrived requests).length) ≤ policy.maxWork :=
      charges (by unfold planningWork; omega)
    refine ⟨planning, ran, ?_⟩
    simp only [tracks.budget, tracks.outputs, length_map]
    exact ⟨_, step_charged.mpr ⟨charges (by unfold planningWork; omega), rfl⟩, _,
      reserveWork_charged.mpr ⟨sorted, rfl⟩, (_, _),
      (addTotals_planned sorted (arrivedValid valid)).mpr ⟨limits.work, limits.logical, limits.counter, rfl, rfl⟩, last⟩

/-- What a plan publishes, and its totals; nothing when planning fails. -/
def outcome (result : Except PlanError Plan) : Option (List Planned × Totals) :=
  result.toOption.map fun plan => (plan.outputs, plan.totals)

theorem arrived_perm (same : ∀ request, request ∈ requests ↔ request ∈ others) :
    (arrived requests).Perm (arrived others) := by
  rw [perm_ext_iff_of_nodup (nodup_arrived _) (nodup_arrived _)]
  simpa only [mem_arrived] using same

theorem outcome_eq (same : ∀ request, request ∈ requests ↔ request ∈ others)
    (limits : WithinLimits policy requests ↔ WithinLimits policy others) :
    outcome (preparePublicationPlan policy onTime hashes layout requests) =
      outcome (preparePublicationPlan policy onTime hashes layout others) := by
  have perm := arrived_perm same
  have also : preparePublicationPlan policy onTime hashes layout others = .ok (planOf hashes layout others) ↔
      preparePublicationPlan policy onTime hashes layout requests = .ok (planOf hashes layout requests) := by
    simp only [preparePublicationPlan_onTime, ← same, ← limits]
  cases planned : preparePublicationPlan policy onTime hashes layout requests with
  | ok plan =>
    obtain ⟨valid, apart, within, last⟩ := preparePublicationPlan_onTime.mp planned
    have admissible : Admissible policy layout requests :=
      ⟨valid, apart, (saturate_mono (by unfold planningWork; omega)).trans within.work,
        within.count, within.paths, within.generated⟩
    subst last
    simp only [also.mpr planned, outcome, Except.toOption, Option.map_some, planOf,
      admissible.sortPlanned_eq perm, Option.some.injEq, Prod.mk.injEq, true_and,
      Totals.mk.injEq]
    refine ⟨?_, ?_, ?_⟩
    · rw [logicalBytes, logicalBytes, (perm.map _).sum_nat]
    · rw [declaredGenerated, declaredGenerated, (perm.map _).sum_nat]
    · rw [declaredPathBytes, declaredPathBytes, (perm.map _).sum_nat]
  | error error =>
    cases otherPlanned : preparePublicationPlan policy onTime hashes layout others with
    | error _ => rfl
    | ok plan =>
      obtain ⟨_, _, _, rfl⟩ := preparePublicationPlan_onTime.mp otherPlanned
      have succeeds := also.mp otherPlanned
      rw [planned] at succeeds
      cases succeeds

theorem sum_map_le_of_subperm {size : Request → Nat} (fewer : requests.Subperm others) :
    (requests.map size).sum ≤ (others.map size).sum := by
  obtain ⟨middle, perm, sub⟩ := fewer
  rw [← (perm.map size).sum_nat]
  exact (sub.map size).sum_le_sum fun _ _ => Nat.zero_le _

/-- Repeating requests only adds to what is counted. -/
theorem WithinLimits.of_subperm (fewer : requests.Subperm others) (same : others ⊆ requests)
    (limits : WithinLimits policy others) : WithinLimits policy requests := by
  have perm : (arrived requests).Perm (arrived others) :=
    arrived_perm fun request => ⟨fun member => fewer.subset member, fun member => same member⟩
  have work : planningWork requests ≤ planningWork others := by
    have charges : (requests.map Request.charge).sum ≤ (others.map Request.charge).sum := sum_map_le_of_subperm fewer
    simp only [planningWork, admissionWork, (perm.map placing).sum_nat, perm.length_eq]
    omega
  have logical : logicalBytes (arrived requests) = logicalBytes (arrived others) := (perm.map _).sum_nat
  have counter : declaredPathBytes (arrived requests) = declaredPathBytes (arrived others) := (perm.map _).sum_nat
  refine ⟨?_, ?_, ?_, logical ▸ limits.logical, counter ▸ limits.counter, ?_⟩
  · exact (saturate_mono fewer.length_le).trans limits.count
  · exact (saturate_mono (sum_map_le_of_subperm fewer)).trans limits.paths
  · exact (saturate_mono (sum_map_le_of_subperm fewer)).trans limits.generated
  · exact (saturate_mono work).trans limits.work

section Main

variable (policy : Policy) (hashes : Hashes) (layout : Layout)

/-- Planning is a function of the set of requests. A permutation has the same outcome;
so has a list that only repeats requests, while it stays within the limits. Valid
requests within the limits are planned exactly when no two different ones of a domain
collide, in text or in hierarchy. -/
theorem planning_of_request_set (requests : List Request) : (∀ others, requests.Perm others →
      outcome (preparePublicationPlan policy onTime hashes layout others) =
        outcome (preparePublicationPlan policy onTime hashes layout requests)) ∧
    (∀ others, requests.Subperm others → others ⊆ requests → WithinLimits policy others →
      outcome (preparePublicationPlan policy onTime hashes layout others) =
        outcome (preparePublicationPlan policy onTime hashes layout requests)) ∧
    ((∀ request ∈ requests, request.Valid policy) → WithinLimits policy requests →
      ((∃ plan, preparePublicationPlan policy onTime hashes layout requests = .ok plan) ↔
        ∀ left ∈ requests, ∀ right ∈ requests, left ≠ right → layout.forRoot left.root = layout.forRoot right.root →
            left.relativePath.map toAsciiLowercase ≠ right.relativePath.map toAsciiLowercase ∧
            ¬ ComponentsBelow slash (left.relativePath.map toAsciiLowercase) (right.relativePath.map toAsciiLowercase) ∧
            ¬ ComponentsBelow slash (right.relativePath.map toAsciiLowercase)
              (left.relativePath.map toAsciiLowercase))) := by
  refine ⟨?_, ?_, ?_⟩
  · intro others perm
    refine outcome_eq (fun request => perm.symm.mem_iff) ⟨?_, ?_⟩
    · exact fun limits => limits.of_subperm perm.subperm perm.symm.subset
    · exact fun limits => limits.of_subperm perm.symm.subperm perm.subset
  · intro others fewer same limits
    refine outcome_eq ?_ ?_
    · exact fun request => ⟨fun member => same member, fun member => fewer.subset member⟩
    · exact iff_of_true limits (limits.of_subperm fewer same)
  · intro valid limits
    simp only [preparePublicationPlan_onTime, ← below_iff_componentsBelow]
    constructor
    · intro planned
      obtain ⟨_, _, apart, _⟩ := planned
      exact apart
    · intro apart
      exact ⟨_, valid, apart, limits, rfl⟩

end Main

def loaderSettings : List UInt8 := utf8 "timeout 3\n"

def loaderHashes : Hashes where
  xxh3 _ := 0x1e7271326be0e3d1db53cc0bf39122b1#128
  sha256 _ :=
    #v[0xc1, 0x35, 0x27, 0x4c, 0x64, 0x71, 0xe4, 0xe4, 0x17, 0x85, 0x33, 0x08, 0x6b, 0x5b, 0x68,
      0x01, 0x04, 0xd1, 0xe0, 0xc3, 0xc4, 0x60, 0x5d, 0xbd, 0x08, 0x20, 0x42, 0x62, 0x01, 0xc0,
      0x55, 0x5d]

def loaderRequest : Request where
  role := .loaderControl
  root := .boot
  phase := .loaderControl
  relativePath := utf8 loaderControlPath
  source := .generated loaderSettings

theorem loaderRequest_valid : loaderRequest.Valid .production where
  path := ⟨loaderControlPath, by decide, by decide, rfl, by decide, by decide, by decide, by decide⟩
  role := rfl
  source := show loaderSettings.length ≤ maxPublicationGeneratedFileBytes by decide

theorem loaderRequests_limits : WithinLimits .production [loaderRequest, loaderRequest] where
  count := by decide
  paths := by decide
  generated := by decide
  logical := by decide
  counter := by decide
  work := by decide

theorem loaderRequest_prepared :
    preparePublicationPlan .production onTime loaderHashes .bootAliasesEsp [loaderRequest] =
      .ok (planOf loaderHashes .bootAliasesEsp [loaderRequest]) := by
  have limits : WithinLimits .production [loaderRequest] :=
    loaderRequests_limits.of_subperm (sublist_cons_self _ _).subperm (by simp)
  refine preparePublicationPlan_onTime.mpr ⟨?_, ?_, limits, rfl⟩
  · exact forall_mem_singleton.mpr loaderRequest_valid
  · simp

/-- The same settings requested twice are planned, and planned once. -/
theorem repeated_loaderRequest_planned : outcome (preparePublicationPlan .production onTime loaderHashes .bootAliasesEsp
        [loaderRequest, loaderRequest]) =
      outcome (preparePublicationPlan .production onTime loaderHashes .bootAliasesEsp [loaderRequest]) ∧
    ∃ plan, preparePublicationPlan .production onTime loaderHashes .bootAliasesEsp [loaderRequest] = .ok plan := by
  obtain ⟨_, repeated, _⟩ := planning_of_request_set .production loaderHashes .bootAliasesEsp [loaderRequest]
  refine ⟨repeated _ (sublist_cons_self _ _).subperm ?_ loaderRequests_limits, _, loaderRequest_prepared⟩
  simp

end Cast.BootPublication.PublicationPlan
