import Cast.BootPublication.InstalledDelta

/-! The effects of a boot publication in plan order. Every desired output takes exactly
one classified entry of its root, path and bytes; what is left is stale work for after
the promotion. The executor looks at each output once more before anything is done. -/

namespace Cast.BootPublication.InstalledDelta

open Foundation

structure EffectScheduleEntry where
  planIndex : Nat
  deltaIndex : Nat
  root : Root
  action : DeltaAction
  desiredExpected : Expected
  installedExpected : Option Expected

inductive EffectScheduleError where
  | missingDesiredEntry (planIndex : Nat)
  | duplicateDesiredEntry (planIndex : Nat)
  | desiredIdentityMismatch (planIndex deltaIndex : Nat)
  | staleActionForDesired (planIndex deltaIndex : Nat) (action : DeltaAction)
  | retainedOwnedIdentityMismatch (planIndex : Nat)
  | replacementIdentityMismatch (planIndex : Nat)
  | unconsumedDesiredEntry (deltaIndex : Nat)
  | unconsumedNonStaleAction (deltaIndex : Nat) (action : DeltaAction)
  | staleIdentityMissing (deltaIndex : Nat)

def validateDesiredAction (planIndex deltaIndex : Nat) (action : DeltaAction) (desired : Expected)
    (installed : Option Expected) : Except EffectScheduleError Unit :=
  match action with
  | .publishDesired | .preserveBorrowedDesired => .ok ()
  | .retainOwnedDesired => refuse (installed ≠ some desired) (.retainedOwnedIdentityMismatch planIndex)
  | .replaceOwnedDesired =>
    refuse (installed = none ∨ installed = some desired) (.replacementIdentityMismatch planIndex)
  | .deleteOwnedStaleAfterPromotion | .preserveUnownedStale =>
    .error (.staleActionForDesired planIndex deltaIndex action)

/-- The only entry of the output's root and path, with its index. -/
def exactMatch (planIndex : Nat) (entries : List ClassifiedEntry) (output : DesiredOutput) :
    Except EffectScheduleError (ClassifiedEntry × Nat) :=
  match entries.zipIdx.filter fun row =>
      row.1.root == output.root && row.1.relativePath == output.relativePath with
  | [] => .error (.missingDesiredEntry planIndex)
  | [row] => .ok row
  | _ :: _ :: _ => .error (.duplicateDesiredEntry planIndex)

def scheduleOutput (entries : List ClassifiedEntry) (planIndex : Nat) (output : DesiredOutput) :
    Except EffectScheduleError EffectScheduleEntry := do
  let (entry, deltaIndex) ← exactMatch planIndex entries output
  let expected := InstalledDelta.desiredExpected output
  refuse (entry.desiredExpected ≠ some expected) (.desiredIdentityMismatch planIndex deltaIndex)
  validateDesiredAction planIndex deltaIndex entry.action expected entry.installedExpected
  return ⟨planIndex, deltaIndex, entry.root, entry.action, expected, entry.installedExpected⟩

def scheduleOutputs (entries : List ClassifiedEntry) : Nat → List DesiredOutput →
    Except EffectScheduleError (List EffectScheduleEntry)
  | _, [] => .ok []
  | planIndex, output :: rest => do
    let scheduled ← scheduleOutput entries planIndex output
    let others ← scheduleOutputs entries (planIndex + 1) rest
    return scheduled :: others

def requireStale (deltaIndex : Nat) (entry : ClassifiedEntry) : Except EffectScheduleError Unit := do
  refuse (entry.desiredExpected.isSome = true) (.unconsumedDesiredEntry deltaIndex)
  refuse (entry.action ≠ .deleteOwnedStaleAfterPromotion ∧ entry.action ≠ .preserveUnownedStale)
    (.unconsumedNonStaleAction deltaIndex entry.action)
  refuse (entry.installedExpected.isNone = true) (.staleIdentityMissing deltaIndex)

def requireStaleRest (consumed : List Nat) : List (ClassifiedEntry × Nat) → Except EffectScheduleError Unit
  | [] => .ok ()
  | (entry, deltaIndex) :: rest => do
    if deltaIndex ∈ consumed then .ok () else requireStale deltaIndex entry
    requireStaleRest consumed rest

def prepareEffectSchedule (entries : List ClassifiedEntry) (plan : List DesiredOutput) :
    Except EffectScheduleError (List EffectScheduleEntry) := do
  let schedule ← scheduleOutputs entries 0 plan
  requireStaleRest (schedule.map (·.deltaIndex)) entries.zipIdx
  return schedule

inductive AttemptError where
  | publicationCountMismatch (expected actual : Nat)
  | invalidPreflightState (planIndex : Nat)
  | rolePhaseMismatch (planIndex : Nat) (role : OutputRole) (expected found : PublicationPhase)
  | globalPhaseOrder (planIndex : Nat) (previous found : PublicationPhase)
  | publicationMode (planIndex : Nat) (expected found : UInt32)
  | invalidPathComponent (planIndex : Nat)
  | publicationParentDepth (planIndex : Nat)
  | missingPublicationParent (planIndex : Nat)
  | destinationLayoutMismatch
  | destinationRoleMismatch (planIndex : Nat)
  | domainPlanIndexMissing (planIndex : Nat)

def phaseForRole : OutputRole → PublicationPhase
  | .payload => .payload
  | .entry => .entry
  | .loaderControl => .loaderControl
  | .fallbackBootloader | .systemdBootloader => .bootloader

def requirePublicationComponent (component : List UInt8) (planIndex : Nat) : Except AttemptError Unit :=
  refuse (component = [] ∨ component = utf8 "." ∨ component = utf8 ".." ∨ component.length > 255 ∨
    0 ∈ component) (.invalidPathComponent planIndex)

/-- The components after the first, with the number of parents before them. -/
def walkParents (planIndex : Nat) : Nat → (prior : List UInt8) → List (List UInt8) →
    Except AttemptError (Nat × List UInt8)
  | parentCount, prior, [] => .ok (parentCount, prior)
  | parentCount, _, component :: rest => do
    requirePublicationComponent component planIndex
    refuse (parentCount = 15) (.publicationParentDepth planIndex)
    walkParents planIndex (parentCount + 1) component rest

def splitPublicationPath (path : String) (planIndex : Nat) : Except AttemptError Unit :=
  match (utf8 path).splitOn slash with
  | [] => .error (.invalidPathComponent planIndex)
  | first :: components => do
    requirePublicationComponent first planIndex
    let (parentCount, prior) ← walkParents planIndex 0 first components
    refuse (parentCount = 0 ∨ prior = []) (.missingPublicationParent planIndex)

def initialStateForAction : DeltaAction → Option DestinationState
  | .publishDesired => some .absent
  | .retainOwnedDesired | .preserveBorrowedDesired => some .exact
  | .replaceOwnedDesired => some .different
  | .deleteOwnedStaleAfterPromotion | .preserveUnownedStale => none

/-- The retained preflight: the plan, a route from an output's root and index to its
mounted target, if there is one, and the state first found for each output. -/
structure Preflight where
  outputs : List DesiredOutput
  route : Root → Nat → Except AttemptError Unit
  initialStates : List DestinationState
  counted : initialStates.length = outputs.length

/-- The checks on an output that depend on the plan alone. -/
def requirePlannedOutput (planIndex : Nat) (previousPhase : Option PublicationPhase)
    (output : DesiredOutput) : Except AttemptError Unit := do
  let expectedPhase := phaseForRole output.role
  refuse (output.phase ≠ expectedPhase) (.rolePhaseMismatch planIndex output.role expectedPhase output.phase)
  match previousPhase with
  | some previous =>
    refuse (compare output.phase previous = .lt) (.globalPhaseOrder planIndex previous output.phase)
  | none => .ok ()
  refuse (output.mode ≠ canonicalActiveReblitOutputMode)
    (.publicationMode planIndex canonicalActiveReblitOutputMode output.mode)
  splitPublicationPath output.relativePath planIndex

def executeOutputs (preflight : Preflight) : Nat → Option PublicationPhase →
    List (EffectScheduleEntry × DesiredOutput) → Except AttemptError Unit
  | _, _, [] => .ok ()
  | planIndex, previousPhase, (scheduled, output) :: rest => do
    refuse (scheduled.planIndex ≠ planIndex ∨ scheduled.root ≠ output.root) (.invalidPreflightState planIndex)
    requirePlannedOutput planIndex previousPhase output
    preflight.route output.root planIndex
    refuse (initialStateForAction scheduled.action ≠ preflight.initialStates[planIndex]?)
      (.invalidPreflightState planIndex)
    executeOutputs preflight (planIndex + 1) (some output.phase) rest

def prepareExecutionSchedule (preflight : Preflight) (schedule : List EffectScheduleEntry) :
    Except AttemptError Unit := do
  refuse (schedule.length ≠ preflight.outputs.length)
    (.publicationCountMismatch preflight.outputs.length schedule.length)
  executeOutputs preflight 0 none (schedule.zip preflight.outputs)

end Cast.BootPublication.InstalledDelta
