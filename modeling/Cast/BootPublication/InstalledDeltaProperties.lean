import Cast.BootPublication.EffectSchedule
import Cast.BootPublication.ReceiptBodyProperties
import Cast.Foundation.Pointwise

/-! What the stages of a boot publication compute. The union has one entry for every
physical key of the installed and the desired outputs; the action of a desired output
depends on who owns its key and on the state of its destination, and the claim of its
receipt output on the action. -/

namespace Cast.BootPublication.InstalledDelta

open Foundation PublicationPlan List

variable {desired : List DesiredOutput} {output : DesiredOutput} {entries : List ClassifiedEntry}
  {index desiredIndex planIndex : Nat} {builder : DeltaRequestBuilder} {sealedByKey : SealedByKey}
  {keyed : KeyedEntries}

variable {layout : Layout} {installed : List Output} {seen : List DesiredOutput} {union next : Union}

def installedAt (layout : Layout) (installed : List Output) (key : CollisionKey) : Option Output :=
  (rowAt (installedKey layout) installed key).map Prod.snd

def desiredAt (layout : Layout) (desired : List DesiredOutput) (key : CollisionKey) : Option DesiredOutput :=
  (rowAt (desiredKey layout) desired key).map Prod.snd

/-- The entry of a key from what each side has there. -/
def joinSides : Option Output → Option DesiredOutput → Option DeltaRequestBuilder
  | none, none => none
  | some installed, none => some (installedBuilder installed)
  | none, some desired => some (desiredBuilder desired)
  | some installed, some desired =>
    some { installedBuilder installed with desired := some (desiredExpected desired) }

/-- The two outputs differ in nothing but their bytes. -/
structure SameOutput (installed : Output) (desired : DesiredOutput) : Prop where
  root : installed.root = desired.root
  path : installed.relativePath = desired.relativePath
  phase : installed.phase = desired.phase
  role : installed.role = desired.role

structure Joined (layout : Layout) (installed : List Output) (desired : List DesiredOutput)
    (union : Union) : Prop where
  installedKeys : (installed.map (installedKey layout)).Nodup
  desiredKeys : (desired.map (desiredKey layout)).Nodup
  lookup : ∀ key, union.find? key = joinSides (installedAt layout installed key) (desiredAt layout desired key)
  agree : ∀ key first second, installedAt layout installed key = some first →
    desiredAt layout desired key = some second → SameOutput first second

theorem insertInstalled_joined (inserted : insertInstalled layout installed = .ok union) :
    Joined layout installed [] union := by
  have fills := insertDistinct_fills Fills.nil inserted
  rw [nil_append] at fills
  refine ⟨fills.distinct, nodup_nil, ?_, ?_⟩
  · intro key
    rw [fills.lookup, installedAt, desiredAt, rowAt_nil]
    cases rowAt (installedKey layout) installed key with
    | none | some _ => rfl
  · intro key first second _ found
    cases found

theorem desiredAt_append_of_ne {key : CollisionKey} (differs : desiredKey layout output ≠ key) :
    desiredAt layout (seen ++ [output]) key = desiredAt layout seen key := by
  rw [desiredAt, rowAt_append_singleton, if_neg differs, Option.or_none, desiredAt]

theorem desiredAt_append_self (fresh : desiredAt layout seen (desiredKey layout output) = none) :
    desiredAt layout (seen ++ [output]) (desiredKey layout output) = some output := by
  rw [desiredAt, Option.map_eq_none_iff] at fresh
  rw [desiredAt, rowAt_append_singleton, fresh, if_pos rfl]
  rfl

theorem nodup_append_of_desiredAt (distinct : (seen.map (desiredKey layout)).Nodup)
    (fresh : desiredAt layout seen (desiredKey layout output) = none) :
    ((seen ++ [output]).map (desiredKey layout)).Nodup := by
  rw [desiredAt, Option.map_eq_none_iff, rowAt_eq_none] at fresh
  rw [map_append, nodup_append_comm, map_singleton, singleton_append, nodup_cons]
  exact ⟨by simpa using fresh, distinct⟩

variable {second : Option DesiredOutput} {first : Option Output}

theorem joinSides_eq_none (absent : joinSides first second = none) : first = none ∧ second = none := by
  cases first with
  | none =>
    cases second with
    | none => exact ⟨rfl, rfl⟩
    | some desired => cases absent
  | some installed => cases second <;> cases absent

theorem joinSides_isSome : (joinSides first second).isSome = true ↔ first.isSome = true ∨ second.isSome = true := by
  cases first <;> cases second <;> simp [joinSides]

theorem joinSides_undesired (found : joinSides first second = some builder) (undesired : builder.desired = none) :
    second = none ∧ ∃ installed, first = some installed ∧ installedBuilder installed = builder := by
  cases second with
  | some desired => cases first <;> cases found <;> cases undesired
  | none =>
    cases first with
    | none => cases found
    | some installed =>
      cases found
      exact ⟨rfl, installed, rfl, rfl⟩

theorem Joined.extend (joined : Joined layout installed seen union)
    (fresh : desiredAt layout seen (desiredKey layout output) = none)
    (sides : joinSides (installedAt layout installed (desiredKey layout output)) (some output) = some builder)
    (agree : ∀ first, installedAt layout installed (desiredKey layout output) = some first → SameOutput first output) :
    Joined layout installed (seen ++ [output]) (union.insert (desiredKey layout output) builder) where
  installedKeys := joined.installedKeys
  desiredKeys := nodup_append_of_desiredAt joined.desiredKeys fresh
  lookup key := by
    by_cases same : desiredKey layout output = key
    · subst same
      rw [SortedMap.find?_insert_self, desiredAt_append_self fresh, sides]
    · rw [SortedMap.find?_insert_of_ne (Ne.symm same), desiredAt_append_of_ne same, joined.lookup]
  agree key first second foundFirst foundSecond := by
    by_cases same : desiredKey layout output = key
    · subst same
      rw [desiredAt_append_self fresh] at foundSecond
      cases foundSecond
      exact agree first foundFirst
    · rw [desiredAt_append_of_ne same] at foundSecond
      exact joined.agree key first second foundFirst foundSecond

theorem Joined.insertDesired (joined : Joined layout installed seen union)
    (inserted : insertDesired layout union output = .ok next) :
    Joined layout installed (seen ++ [output]) next := by
  have here := joined.lookup (desiredKey layout output)
  rw [InstalledDelta.insertDesired] at inserted
  cases found : union.find? (desiredKey layout output) with
  | none =>
    simp only [found, Except.ok.injEq] at inserted
    subst inserted
    rw [found] at here
    obtain ⟨uninstalled, fresh⟩ := joinSides_eq_none here.symm
    refine joined.extend fresh (by rw [uninstalled]; rfl) ?_
    intro first present
    rw [uninstalled] at present
    cases present
  | some existing =>
    simp only [found, bind_eq_ok, exists_check, refuse_eq_ok, pure_eq_ok, not_or, not_not,
      Bool.not_eq_true, Option.isSome_eq_false_iff, Option.isNone_iff_eq_none] at inserted
    obtain ⟨⟨root, path, ⟨phase, role⟩, undesired⟩, same⟩ := inserted
    subst same
    rw [found] at here
    obtain ⟨fresh, present, isInstalled, builder⟩ := joinSides_undesired here.symm undesired
    subst builder
    refine joined.extend fresh (by rw [isInstalled]; rfl) ?_
    intro first alsoPresent
    rw [isInstalled] at alsoPresent
    cases alsoPresent
    exact ⟨root, path, phase, role⟩

/-- No taken key lies below another of its domain. -/
def FlatKeys (taken : CollisionKey → Prop) : Prop :=
  ∀ key ancestor, taken key → Below slash ancestor key.folded → ¬ taken ⟨key.domain, ancestor⟩

/-- The walk over all keys of a map, as both hierarchy checks make it. -/
theorem any_hasTakenAncestor_iff {ν : Type} {map : SortedMap CollisionKey ν} :
    ¬ (map.entries.any (fun entry => hasTakenAncestor slash
        (fun ancestor => (map.find? ⟨entry.1.domain, ancestor⟩).isSome) entry.1.folded) = true) ↔
      FlatKeys fun key => (map.find? key).isSome = true := by
  rw [Bool.not_eq_true, any_eq_false]
  simp only [hasTakenAncestor_eq_true, not_exists, not_and]
  constructor
  · intro flat key ancestor taken below
    obtain ⟨value, found⟩ := Option.isSome_iff_exists.mp taken
    exact flat (key, value) (SortedMap.mem_of_find?_eq_some found) ancestor below
  · intro flat entry member ancestor below
    have found : map.find? entry.1 = some entry.2 := SortedMap.find?_eq_some_iff.mpr member
    exact flat entry.1 ancestor (Option.isSome_iff_exists.mpr ⟨_, found⟩) below

theorem joinOutputs_joined (joined : joinOutputs layout desired installed = .ok union) :
    Joined layout installed desired union ∧ FlatKeys fun key => (union.find? key).isSome = true := by
  simp only [joinOutputs, requireNoUnionHierarchyConflicts, bind_eq_ok, exists_check, pure_eq_ok,
    refuse_eq_ok, any_hasTakenAncestor_iff] at joined
  obtain ⟨start, inserted, joinedUnion, folded, flat, same⟩ := joined
  subst same
  -- The desired outputs join one by one.
  refine ⟨foldlM_processed (Joined layout installed) (insertInstalled_joined inserted) ?_ folded, flat⟩
  exact fun seen output _ before after _ soFar stepped => soFar.insertDesired stepped

variable {request : DeltaRequest} {action : DeltaAction} {requests : List DeltaRequest}

/-- The action of a desired output, by ownership and live state; none when bytes of
someone else stand in the way. -/
def desiredAction (owned : Bool) : DestinationState → Option DeltaAction
  | .absent => some .publishDesired
  | .exact => some (if owned then .retainOwnedDesired else .preserveBorrowedDesired)
  | .different => if owned then some .replaceOwnedDesired else none

def staleAction (owned : Bool) : DeltaAction :=
  if owned then .deleteOwnedStaleAfterPromotion else .preserveUnownedStale

theorem classifyDesired_action {state : DestinationState}
    (classified : classifyDesired index request state = .ok action) :
    desiredAction request.installedOwned state = some action := by
  simp only [classifyDesired, bind_eq_ok, exists_check] at classified
  obtain ⟨_, decided⟩ := classified
  cases state with
  | absent | exact =>
    cases decided
    rfl
  | different =>
    cases owned : request.installedOwned with
    | true =>
      simp only [owned, if_true, Except.ok.injEq] at decided
      rw [← decided]
      rfl
    | false => simp [owned] at decided

theorem classifyStale_action (classified : classifyStale index request = .ok action) :
    staleAction request.installedOwned = action := by
  simp only [classifyStale, bind_eq_ok, exists_check, pure_eq_ok] at classified
  exact classified.2

/-- What a classified entry keeps of its request, and how it got its action. -/
structure Classified (lookup : LogicalKey → Option (Nat × SealedState)) (request : DeltaRequest)
    (entry : ClassifiedEntry) : Prop where
  root : entry.root = request.root
  path : entry.relativePath = request.relativePath
  desired : entry.desiredExpected = request.desired
  installed : entry.installedExpected = request.installed
  stale : request.desired = none → staleAction request.installedOwned = entry.action
  acted : ∀ expected, request.desired = some expected →
    ∃ row, lookup request.key = some row ∧ desiredAction request.installedOwned row.2.state = some entry.action

theorem classifyRequest_sound {next : SealedByKey}
    (classified : classifyRequest index sealedByKey request = .ok (action, next)) :
    Classified sealedByKey.find? request
        ⟨request.root, request.relativePath, request.desired, request.installed, action⟩ ∧
      ∀ key row, next.find? key = some row → sealedByKey.find? key = some row := by
  rw [classifyRequest] at classified
  cases wanted : request.desired with
  | none =>
    simp only [wanted, bind_eq_ok, pure_eq_ok, Prod.mk.injEq] at classified
    obtain ⟨_, decided, same, rest⟩ := classified
    subst same rest
    refine ⟨⟨rfl, rfl, wanted.symm, rfl, fun _ => classifyStale_action decided, ?_⟩, ?_⟩
    · intro expected present
      rw [wanted] at present
      cases present
    · exact fun key row found => found
  | some expected =>
    simp only [wanted, bind_eq_ok, exists_check, okOr_eq_ok, refuse_eq_ok, pure_eq_ok, Prod.mk.injEq] at classified
    obtain ⟨row, found, _, _, decided, same, rest⟩ := classified
    subst same rest
    refine ⟨⟨rfl, rfl, wanted.symm, rfl, ?_, ?_⟩, ?_⟩
    · intro absent
      rw [wanted] at absent
      cases absent
    · intro expected _
      exact ⟨row, found, classifyDesired_action decided⟩
    · intro key other remaining
      exact (SortedMap.find?_erase_eq_some.mp remaining).1

theorem classifyRequests_sound {unmatched : SealedByKey}
    (classified : classifyRequests index sealedByKey requests = .ok (entries, unmatched)) :
    Forall₂ (Classified sealedByKey.find?) requests entries := by
  induction requests generalizing index sealedByKey entries unmatched with
  | nil =>
    cases classified
    exact .nil
  | cons request rest ih =>
    simp only [classifyRequests, bind_eq_ok, pure_eq_ok, Prod.mk.injEq] at classified
    obtain ⟨⟨action, next⟩, first, ⟨others, _⟩, later, same, _⟩ := classified
    subst same
    obtain ⟨sound, kept⟩ := classifyRequest_sound first
    refine .cons sound ((ih later).imp ?_)
    intro request entry known
    refine ⟨known.root, known.path, known.desired, known.installed, known.stale, ?_⟩
    intro expected wanted
    obtain ⟨row, found, decided⟩ := known.acted expected wanted
    exact ⟨row, kept _ _ found, decided⟩

theorem classify_sound {delta : PreparedDelta} {assessment : AssessmentSeal}
    (classified : classifyWithPreflightAssessment delta assessment = .ok entries) :
    ∃ sealedByKey, keySealedStates assessment.desiredStates = .ok sealedByKey ∧
      Forall₂ (Classified sealedByKey.find?) delta.requests entries := by
  simp only [classifyWithPreflightAssessment, bind_eq_ok, exists_check] at classified
  obtain ⟨_, _, sealedByKey, keyed, ⟨found, unmatched⟩, each, last⟩ := classified
  refine ⟨sealedByKey, keyed, ?_⟩
  cases rest : unmatched.entries with
  | nil =>
    simp only [rest, pure_eq_ok] at last
    subst last
    exact classifyRequests_sound each
  | cons row others =>
    rw [rest] at last
    cases last

variable {claims : List ProvenanceClaim}

structure ClaimedBy (entry : ClassifiedEntry) (output : DesiredOutput) (claim : ProvenanceClaim) :
    Prop where
  key : entry.key = output.key
  claim : receiptClaimForDesiredAction entry.action = some claim.claim

theorem claimOutput_sound {claim : ProvenanceClaim} (claimed : claimOutput desiredIndex keyed output = .ok claim) :
    ∃ row, keyed.find? output.key = some row ∧ receiptClaimForDesiredAction row.2.action = some claim.claim := by
  simp only [claimOutput, bind_eq_ok, exists_check, okOr_eq_ok, refuse_eq_ok, pure_eq_ok] at claimed
  obtain ⟨row, found, kind, decided, _, same⟩ := claimed
  subst same
  exact ⟨row, found, decided⟩

theorem claimOutputs_sound {unclaimed : KeyedEntries}
    (claimed : claimOutputs desiredIndex keyed desired = .ok (claims, unclaimed)) :
    Forall₂ (fun output claim => ∃ row, keyed.find? output.key = some row ∧
      receiptClaimForDesiredAction row.2.action = some claim.claim) desired claims := by
  induction desired generalizing desiredIndex keyed claims unclaimed with
  | nil =>
    cases claimed
    exact .nil
  | cons output rest ih =>
    simp only [claimOutputs, bind_eq_ok, pure_eq_ok, Prod.mk.injEq] at claimed
    obtain ⟨claim, first, ⟨others, _⟩, later, same, _⟩ := claimed
    subst same
    refine .cons (claimOutput_sound first) ((ih later).imp ?_)
    intro output claim known
    obtain ⟨row, found, decided⟩ := known
    exact ⟨row, (SortedMap.find?_erase_eq_some.mp found).1, decided⟩

theorem derive_sound (derived : deriveReceiptProvenanceClaims entries desired = .ok claims) :
    (entries.map ClassifiedEntry.key).Nodup ∧
      Forall₂ (fun output claim => ∃ entry ∈ entries, ClaimedBy entry output claim) desired claims := by
  simp only [deriveReceiptProvenanceClaims, bind_eq_ok] at derived
  obtain ⟨keyed, filled, ⟨found, unclaimed⟩, each, rest⟩ := derived
  have fills := insertDistinct_fills Fills.nil filled
  rw [nil_append] at fills
  have same : found = claims := by
    cases unmatched : unclaimed.entries.find? fun entry => (receiptClaimForDesiredAction entry.2.2.action).isSome with
    | some row => simp [unmatched] at rest
    | none =>
      cases stale : unclaimed.entries.find? fun entry => entry.2.2.desiredExpected.isSome with
      | some row => simp [unmatched, stale] at rest
      | none => simpa [unmatched, stale] using rest
  subst same
  refine ⟨fills.distinct, (claimOutputs_sound each).imp ?_⟩
  intro output claim known
  obtain ⟨row, present, decided⟩ := known
  rw [fills.lookup] at present
  obtain ⟨indexed, looked, sameRow⟩ := Option.map_eq_some_iff.mp present
  obtain ⟨atIndex, sameKey⟩ := rowAt_eq_some looked
  subst sameRow
  exact ⟨indexed.2, mem_of_getElem? atIndex, sameKey, decided⟩

theorem mapOutputs_eq {outputs : List Output} (mapped : mapOutputs index desired claims = .ok outputs) :
    outputs = zipWith (fun output claim => receiptOutput output claim.claim) desired claims := by
  induction desired generalizing index claims outputs with
  | nil =>
    cases mapped
    rfl
  | cons output rest ih =>
    cases claims with
    | nil =>
      cases mapped
      rfl
    | cons claim claims =>
      simp only [mapOutputs, bind_eq_ok, exists_check, pure_eq_ok] at mapped
      obtain ⟨_, others, later, same⟩ := mapped
      rw [← same, ih later]
      rfl

variable {schedule : List EffectScheduleEntry}

/-- The entry with the root and the path of an output binds its bytes as its action
needs. -/
structure ValidatedBy (entry : ClassifiedEntry) (output : DesiredOutput) : Prop where
  root : entry.root = output.root
  path : entry.relativePath = output.relativePath
  valid : ∃ planIndex deltaIndex, validateDesiredAction planIndex deltaIndex entry.action
    (desiredExpected output) entry.installedExpected = .ok ()

theorem exactMatch_sound {deltaIndex : Nat}
    {entry : ClassifiedEntry} (matched : exactMatch planIndex entries output = .ok (entry, deltaIndex)) :
    entry ∈ entries ∧ entry.root = output.root ∧ entry.relativePath = output.relativePath := by
  rw [exactMatch] at matched
  split at matched
  · cases matched
  · rename_i row only
    cases matched
    have member : (entry, deltaIndex) ∈ entries.zipIdx.filter fun row =>
        row.1.root == output.root && row.1.relativePath == output.relativePath := by
      rw [only]
      exact mem_singleton_self _
    rw [mem_filter] at member
    simp only [Bool.and_eq_true, beq_iff_eq] at member
    exact ⟨mem_of_getElem? (mk_mem_zipIdx_iff_getElem?.mp member.1), member.2⟩
  · cases matched

theorem scheduleOutputs_sound (scheduled : scheduleOutputs entries planIndex desired = .ok schedule) :
    ∀ output ∈ desired, ∃ entry ∈ entries, ValidatedBy entry output := by
  induction desired generalizing planIndex schedule with
  | nil => simp
  | cons output rest ih =>
    simp only [scheduleOutputs, scheduleOutput, bind_eq_ok, exists_check, refuse_eq_ok, pure_eq_ok] at scheduled
    obtain ⟨_, ⟨⟨entry, deltaIndex⟩, matched, _, valid, _⟩, others, later, _⟩ := scheduled
    obtain ⟨member, root, path⟩ := exactMatch_sound matched
    rw [forall_mem_cons]
    exact ⟨⟨entry, member, root, path, planIndex, deltaIndex, valid⟩, ih later⟩

theorem prepareEffectSchedule_sound (scheduled : prepareEffectSchedule entries desired = .ok schedule) :
    ∀ output ∈ desired, ∃ entry ∈ entries, ValidatedBy entry output := by
  simp only [prepareEffectSchedule, bind_eq_ok, exists_check, pure_eq_ok] at scheduled
  obtain ⟨_, each, _⟩ := scheduled
  exact scheduleOutputs_sound each

end Cast.BootPublication.InstalledDelta
