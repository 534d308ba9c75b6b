import Mathlib.Data.List.Chain
import Cast.BootPublication.ReceiptBody

/-! Which inventories a receipt may carry. The loop compares each output with an
ordered map of the earlier ones; the results say that this is the comparison of
every two outputs that end up in one FAT name space. -/

namespace Cast.BootPublication

open Foundation List

variable {index : Nat} {aliasesEsp : Bool} {output left right : Output} {device : DeviceNumbers}
  {body : ReceiptBody} {folded : List UInt8} {outputs : List Output}

/-- Both outputs go to one name space of FAT names. -/
def SharesDomain (aliasesEsp : Bool) (left right : Output) : Prop :=
  aliasesEsp = true ∨ left.root = right.root

/-- In one name space two outputs have different names, and neither is a file
where the other needs a directory. -/
def Apart (aliasesEsp : Bool) (left right : Output) : Prop :=
  SharesDomain aliasesEsp left right → left.folded ≠ right.folded ∧ ¬ ComponentsBelow slash left.folded right.folded ∧
      ¬ ComponentsBelow slash right.folded left.folded

instance {ancestor path : List UInt8} : Decidable (ComponentsBelow slash ancestor path) :=
  inferInstanceAs (Decidable (_ ∧ _))

instance {aliasesEsp : Bool} {left right : Output} : Decidable (SharesDomain aliasesEsp left right) :=
  inferInstanceAs (Decidable (_ ∨ _))

instance {aliasesEsp : Bool} {left right : Output} : Decidable (Apart aliasesEsp left right) :=
  inferInstanceAs (Decidable (_ → _))

/-- Every two outputs of the inventory, at different positions, are apart. -/
def AllApart (aliasesEsp : Bool) (outputs : List Output) : Prop :=
  ∀ (position other : Nat) (first second : Output), position ≠ other →
    outputs[position]? = some first → outputs[other]? = some second →
    Apart aliasesEsp first second

def pathBytes (outputs : List Output) : Nat := (outputs.map fun output => (utf8 output.relativePath).length).sum

def logicalBytes (outputs : List Output) : Nat := (outputs.map fun output => output.length.toNat).sum

theorem collisionDomain_eq_iff : collisionDomain aliasesEsp left.root = collisionDomain aliasesEsp right.root ↔
      SharesDomain aliasesEsp left right := by
  unfold SharesDomain
  cases aliasesEsp with
  | true => simp [collisionDomain]
  | false => cases left.root <;> cases right.root <;> simp [collisionDomain]

variable {destinations : SeenDestinations} {domain : CollisionDomain}

theorem requireFresh_eq_ok :
    requireFresh destinations domain index folded = .ok () ↔ destinations.find? ⟨domain, folded⟩ = none := by
  rw [requireFresh]
  cases destinations.find? ⟨domain, folded⟩ <;> simp

theorem requireAncestorsFree_eq_ok {path : List UInt8} :
    requireAncestorsFree destinations domain index path = .ok () ↔
      ∀ ancestor, Below slash ancestor path → destinations.find? ⟨domain, ancestor⟩ = none := by
  -- One case for each way the walk goes on from the last separator.
  fun_induction requireAncestorsFree destinations domain index path with
  | case1 path unfound =>
    simp only [true_iff]
    intro ancestor below
    exact absurd below (not_below_of_rfind_eq_none unfound)
  | case2 path separator found ancestor first _ taken =>
    simp only [reduceCtorEq, false_iff, not_forall]
    refine ⟨ancestor, (below_of_rfind_eq_some found).mpr (.inl rfl), ?_⟩
    simp [taken]
  | case3 path separator found ancestor free ih =>
    rw [ih]
    simp only [below_of_rfind_eq_some found, forall_eq_or_imp]
    exact (and_iff_right free).symm

theorem CollisionKey.compare_eq {left right : CollisionKey} :
    compare left right = (compare left.domain right.domain).then (compare left.folded right.folded) := rfl

/-- The destinations below a path are those that come after it with a separator,
in one run of the map. -/
theorem below_interval (folded : List UInt8) : IntervalFrom ⟨domain, folded ++ [slash]⟩ fun key : CollisionKey =>
      key.domain = domain ∧ Below slash folded key.folded := by
  have texts := startsWith_interval (folded ++ [slash])
  refine ⟨?_, ?_⟩
  · intro key inside
    obtain ⟨rfl, below⟩ := inside
    rw [CollisionKey.compare_eq, Std.ReflOrd.compare_self]
    exact texts.atLeast key.folded below
  · intro key between inside notBefore notAfter
    obtain ⟨rfl, below⟩ := inside
    obtain ⟨same, textNotBefore, textNotAfter⟩ := eq_of_then_isLE notBefore notAfter
    exact ⟨same.symm, texts.convex _ _ below textNotBefore textNotAfter⟩

theorem requireNoDescendant_eq_ok :
    requireNoDescendant destinations domain index folded = .ok () ↔
      ∀ entry ∈ destinations.entries, ¬ (entry.1.domain = domain ∧ Below slash folded entry.1.folded) := by
  rw [← SortedMap.forall_firstFrom_iff (below_interval folded), requireNoDescendant]
  cases destinations.firstFrom ⟨domain, folded ++ [slash]⟩ with
  | none => simp
  | some found => simp [Below]

theorem admitCollisionPath_eq_ok {next : SeenDestinations} :
    admitCollisionPath destinations aliasesEsp index output = .ok next ↔ (∀ entry ∈ destinations.entries,
        entry.1.domain = collisionDomain aliasesEsp output.root →
          entry.1.folded ≠ output.folded ∧ ¬ Below slash entry.1.folded output.folded ∧
            ¬ Below slash output.folded entry.1.folded) ∧
      destinations.insert ⟨collisionDomain aliasesEsp output.root, output.folded⟩
        (index, output.relativePath) = next := by
  simp only [admitCollisionPath, bind_eq_ok, exists_check, requireFresh_eq_ok,
    requireAncestorsFree_eq_ok, requireNoDescendant_eq_ok, pure_eq_ok, SortedMap.find?_eq_none]
  constructor
  · intro accepted
    obtain ⟨fresh, ancestors, descendants, inserted⟩ := accepted
    refine ⟨?_, inserted⟩
    intro entry member sameDomain
    refine ⟨?_, ?_, ?_⟩
    · intro same
      exact fresh entry member (by rw [← sameDomain, ← same])
    · intro below
      exact ancestors entry.1.folded below entry member (by rw [← sameDomain])
    · intro below
      exact descendants entry member ⟨sameDomain, below⟩
  · intro accepted
    obtain ⟨separate, inserted⟩ := accepted
    refine ⟨?_, ?_, ?_, inserted⟩
    · intro entry member same
      exact (separate entry member (by rw [same])).1 (by rw [same])
    · intro ancestor below entry member same
      exact (separate entry member (by rw [same])).2.1 (by rw [same]; exact below)
    · intro entry member inside
      exact (separate entry member inside.1).2.2 inside.2

variable {seen rest : List Output} {scan next : OutputScan}

theorem Apart.symm (apart : Apart aliasesEsp left right) :
    Apart aliasesEsp right left := by
  intro shared
  obtain ⟨different, leftOut, rightOut⟩ := apart (shared.imp_right Eq.symm)
  exact ⟨different.symm, rightOut, leftOut⟩

/-- What the loop knows after the outputs it has seen. -/
structure Scanned (aliasesEsp : Bool) (seen : List Output) (scan : OutputScan) : Prop where
  pathBytes_eq : scan.pathBytes = pathBytes seen
  logicalBytes_eq : scan.logicalBytes = logicalBytes seen
  keys : ∀ key, (∃ entry ∈ scan.destinations.entries, entry.1 = key) ↔
    ∃ output ∈ seen, ⟨collisionDomain aliasesEsp output.root, output.folded⟩ = key
  previous_eq : scan.previous = seen.getLast?

@[mk_iff] structure Follows (aliasesEsp : Bool) (seen : List Output) (index : Nat) (output : Output) :
    Prop where
  valid : output.validate index = .ok ()
  paths : pathBytes (seen ++ [output]) ≤ maxReceiptPathBytes
  logical : logicalBytes (seen ++ [output]) ≤ maxReceiptLogicalBytes
  apart : ∀ earlier ∈ seen, Apart aliasesEsp earlier output
  ordered : ∀ last ∈ seen.getLast?, compareOutputs last output = .lt

theorem scanned_start : Scanned aliasesEsp [] .start where
  pathBytes_eq := rfl
  logicalBytes_eq := rfl
  keys := by simp [OutputScan.start, SortedMap.empty]
  previous_eq := rfl

@[simp] theorem pathBytes_append {left right : List Output} :
    pathBytes (left ++ right) = pathBytes left + pathBytes right := by
  simp [pathBytes]

@[simp] theorem logicalBytes_append {left right : List Output} :
    logicalBytes (left ++ right) = logicalBytes left + logicalBytes right := by
  simp [logicalBytes]

theorem requireOrder_eq_ok {previous : Option Output} :
    requireOrder previous index output = .ok () ↔ ∀ last ∈ previous, compareOutputs last output = .lt := by
  cases previous with
  | none | some _ => simp [requireOrder]

section

variable (scanned : Scanned aliasesEsp seen scan)
include scanned

/-- The map of the earlier outputs separates the next one from all of them. -/
theorem Scanned.separated_iff : (∀ entry ∈ scan.destinations.entries,
      entry.1.domain = collisionDomain aliasesEsp output.root →
        entry.1.folded ≠ output.folded ∧ ¬ Below slash entry.1.folded output.folded ∧
          ¬ Below slash output.folded entry.1.folded) ↔
      ∀ earlier ∈ seen, Apart aliasesEsp earlier output := by
  simp only [Apart, below_iff_componentsBelow]
  constructor
  · intro separated earlier member shared
    obtain ⟨entry, recorded, key⟩ := (scanned.keys _).mpr ⟨earlier, member, rfl⟩
    have found := separated entry recorded
    rw [key] at found
    exact found (collisionDomain_eq_iff.mpr shared)
  · intro apart entry recorded sameDomain
    obtain ⟨earlier, member, key⟩ := (scanned.keys entry.1).mp ⟨entry, recorded, rfl⟩
    rw [← key] at sameDomain ⊢
    exact apart earlier member (collisionDomain_eq_iff.mp sameDomain)

theorem Scanned.step_eq_ok :
    scan.step aliasesEsp index output = .ok next ↔ Follows aliasesEsp seen index output ∧
        (⟨pathBytes (seen ++ [output]), logicalBytes (seen ++ [output]),
          scan.destinations.insert ⟨collisionDomain aliasesEsp output.root, output.folded⟩
            (index, output.relativePath), some output⟩ : OutputScan) = next := by
  have paths : pathBytes [output] = (utf8 output.relativePath).length := by simp [pathBytes]
  have logical : logicalBytes [output] = output.length.toNat := by simp [logicalBytes]
  simp only [OutputScan.step, bind_eq_ok, exists_check, okOr_eq_ok, refuse_eq_ok, pure_eq_ok,
    admitCollisionPath_eq_ok, scanned.separated_iff, requireOrder_eq_ok, scanned.previous_eq,
    scanned.pathBytes_eq, scanned.logicalBytes_eq, pathBytes_append, logicalBytes_append, paths,
    logical, follows_iff, and_assoc, existsAndEq, true_and]
  rw [exists_checkedAdd (by decide), exists_checkedAdd (by decide)]

theorem Scanned.advance (accepted : scan.step aliasesEsp index output = .ok next) :
    Scanned aliasesEsp (seen ++ [output]) next := by
  obtain ⟨follows, rfl⟩ := scanned.step_eq_ok.mp accepted
  have separated := scanned.separated_iff.mpr follows.apart
  have fresh : scan.destinations.find? ⟨collisionDomain aliasesEsp output.root, output.folded⟩ = none := by
    refine SortedMap.find?_eq_none.mpr ?_
    intro entry member same
    exact (separated entry member (by rw [same])).1 (by rw [same])
  refine ⟨rfl, rfl, ?_, by simp⟩
  intro key
  simp only [SortedMap.mem_insert fresh, mem_append, mem_singleton, or_and_right,
    exists_or, exists_eq_left, scanned.keys key]
  exact or_comm

end

/-- An inventory that the loop accepts from where it stands. -/
structure Continues (aliasesEsp : Bool) (seen : List Output) (index : Nat) (rest : List Output) :
    Prop where
  valid : ∀ (position : Nat) (output : Output), rest[position]? = some output →
    output.validate (index + position) = .ok ()
  paths : rest ≠ [] → pathBytes (seen ++ rest) ≤ maxReceiptPathBytes
  logical : rest ≠ [] → logicalBytes (seen ++ rest) ≤ maxReceiptLogicalBytes
  apartFromSeen : ∀ earlier ∈ seen, ∀ later ∈ rest, Apart aliasesEsp earlier later
  apart : rest.Pairwise (Apart aliasesEsp)
  ordered : (seen.getLast?.toList ++ rest).IsChain (compareOutputs · · = .lt)

theorem continues_nil : Continues aliasesEsp seen index [] where
  valid := by simp
  paths := fun filled => absurd rfl filled
  logical := fun filled => absurd rfl filled
  apartFromSeen := by simp
  apart := .nil
  ordered := by cases seen.getLast? <;> simp

theorem continues_cons : Continues aliasesEsp seen index (output :: rest) ↔
    Follows aliasesEsp seen index output ∧ Continues aliasesEsp (seen ++ [output]) (index + 1) rest := by
  have split : seen ++ output :: rest = seen ++ [output] ++ rest := by simp
  constructor
  · intro continues
    obtain ⟨valid, paths, logical, apartFromSeen, apart, ordered⟩ := continues
    have pathLimit := paths (cons_ne_nil _ _)
    have logicalLimit := logical (cons_ne_nil _ _)
    obtain ⟨apartFromOutput, restApart⟩ := pairwise_cons.mp apart
    rw [split] at pathLimit logicalLimit
    refine ⟨⟨valid 0 output rfl, ?_, ?_, ?_, ?_⟩, ⟨?_, fun _ => pathLimit, fun _ => logicalLimit, ?_, restApart, ?_⟩⟩
    · rw [pathBytes_append] at pathLimit
      omega
    · rw [logicalBytes_append] at logicalLimit
      omega
    · intro earlier member
      exact apartFromSeen earlier member output mem_cons_self
    · intro last isLast
      rw [Option.mem_def.mp isLast] at ordered
      exact (isChain_cons_cons.mp ordered).1
    · intro position later found
      have accepted := valid (position + 1) later found
      rwa [show index + 1 + position = index + (position + 1) by omega]
    · refine forall_mem_append.mpr ⟨?_, forall_mem_singleton.mpr apartFromOutput⟩
      intro earlier early later laterMember
      exact apartFromSeen earlier early later (mem_cons_of_mem _ laterMember)
    · rw [getLast?_concat]
      exact (isChain_append.mp ordered).2.1
  · intro continues
    obtain ⟨follows, valid, paths, logical, apartFromSeen, restApart, ordered⟩ := continues
    refine ⟨?_, ?_, ?_, ?_, pairwise_cons.mpr ⟨?_, restApart⟩, ?_⟩
    · intro position later found
      cases position with
      | zero =>
        cases found
        exact follows.valid
      | succ position =>
        have accepted := valid position later found
        rwa [show index + 1 + position = index + (position + 1) by omega] at accepted
    · intro _
      rw [split]
      cases rest with
      | nil => simpa using follows.paths
      | cons later rest => exact paths (cons_ne_nil _ _)
    · intro _
      rw [split]
      cases rest with
      | nil => simpa using follows.logical
      | cons later rest => exact logical (cons_ne_nil _ _)
    · intro earlier member
      exact forall_mem_cons.mpr ⟨follows.apart earlier member, apartFromSeen earlier (mem_append_left _ member)⟩
    · intro later laterMember
      exact apartFromSeen output (by simp) later laterMember
    · rw [getLast?_concat] at ordered
      cases last : seen.getLast? with
      | none => exact ordered
      | some previous => exact isChain_cons_cons.mpr ⟨follows.ordered previous last, ordered⟩

theorem Scanned.run_eq_ok (scanned : Scanned aliasesEsp seen scan) :
    scan.run aliasesEsp index rest = .ok () ↔ Continues aliasesEsp seen index rest := by
  induction rest generalizing seen scan index with
  | nil => exact iff_of_true rfl continues_nil
  | cons output rest ih =>
    rw [OutputScan.run, bind_eq_ok, continues_cons]
    simp only [scanned.step_eq_ok, exists_outcome]
    exact and_congr_right fun follows => ih (scanned.advance (scanned.step_eq_ok.mpr ⟨follows, rfl⟩))

instance : Std.TransOrd PublicationPhase where
  eq_swap {left right} := by cases left <;> cases right <;> rfl
  isLE_trans {left middle right} := by cases left <;> cases middle <;> cases right <;> decide

/-- The order of the inventory: phase, root, folded path, path. -/
instance : Std.TransCmp compareOutputs :=
  inferInstanceAs (Std.TransCmp (compareLex
    (compareLex (compareLex (compareOn Output.phase) (compareOn Output.root)) (compareOn Output.folded))
    (compareOn fun output : Output => utf8 output.relativePath)))

/-- Comparing neighbours compares every two outputs. -/
theorem isChain_iff_pairwise_outputs :
    outputs.IsChain (compareOutputs · · = .lt) ↔ outputs.Pairwise (compareOutputs · · = .lt) := by
  have transitive : IsTrans Output (compareOutputs · · = .lt) :=
    ⟨fun _ _ _ first second => Std.TransCmp.lt_trans first second⟩
  exact isChain_iff_pairwise

theorem ReceiptBody.validate_eq_ok : body.validate device = .ok () ↔
    body.format = receiptFormat ∧ body.version = receiptBodyVersion ∧
      body.destinations.validate device = .ok () ∧ body.outputs ≠ [] ∧
      body.outputs.length ≤ maxReceiptOutputs ∧
      Continues body.destinations.aliasesEsp [] 0 body.outputs := by
  simp only [ReceiptBody.validate, bind_eq_ok, exists_check, refuse_eq_ok, not_not, Nat.not_lt,
    gt_iff_lt, ne_eq, scanned_start.run_eq_ok]

theorem pairwise_apart_iff : outputs.Pairwise (Apart aliasesEsp) ↔ AllApart aliasesEsp outputs := by
  rw [pairwise_iff_getElem]
  constructor
  · intro apart position other first second different atPosition atOther
    obtain ⟨positionLt, rfl⟩ := List.getElem?_eq_some_iff.mp atPosition
    obtain ⟨otherLt, rfl⟩ := List.getElem?_eq_some_iff.mp atOther
    obtain before | after := Nat.lt_or_gt_of_ne different
    · exact apart position other positionLt otherLt before
    · exact (apart other position otherLt positionLt after).symm
  · intro apart position other positionLt otherLt before
    exact apart position other _ _ (Nat.ne_of_lt before) (getElem?_eq_getElem positionLt) (getElem?_eq_getElem otherLt)

/-- The parts of a receipt are in order, each by itself: the destinations, the
number of outputs, every output, and the sums over them. -/
structure PartsValid (device : DeviceNumbers) (body : ReceiptBody) : Prop where
  destinations : body.destinations.validate device = .ok ()
  filled : 1 ≤ body.outputs.length
  bounded : body.outputs.length ≤ maxReceiptOutputs
  outputs : ∀ (index : Nat) (output : Output), body.outputs[index]? = some output → output.validate index = .ok ()
  paths : pathBytes body.outputs ≤ maxReceiptPathBytes
  logical : logicalBytes body.outputs ≤ maxReceiptLogicalBytes

theorem PartsValid.accepts (parts : PartsValid device body) (format : body.format = receiptFormat)
    (version : body.version = receiptBodyVersion)
    (ordered : body.outputs.Pairwise (compareOutputs · · = .lt))
    (apart : body.outputs.Pairwise (Apart body.destinations.aliasesEsp)) :
    body.validate device = .ok () := by
  rw [← isChain_iff_pairwise_outputs] at ordered
  refine ReceiptBody.validate_eq_ok.mpr ⟨format, version, parts.destinations,
    ne_nil_of_length_pos parts.filled, parts.bounded, ?_, fun _ => parts.paths,
    fun _ => parts.logical, ?_, apart, ordered⟩
  · intro position output found
    rw [Nat.zero_add]
    exact parts.outputs position output found
  · intro earlier member
    exact absurd member not_mem_nil

/-- A receipt of the supported format and version with valid parts is accepted
exactly when its outputs are strictly increasing and no two of them collide in
one FAT name space. -/
theorem validate_iff_ordered_and_apart (device : DeviceNumbers) (body : ReceiptBody)
    (format : body.format = receiptFormat) (version : body.version = receiptBodyVersion)
    (parts : PartsValid device body) :
    body.validate device = .ok () ↔ body.outputs.Pairwise (compareOutputs · · = .lt) ∧
      AllApart body.destinations.aliasesEsp body.outputs := by
  rw [← pairwise_apart_iff]
  constructor
  · intro accepted
    obtain ⟨_, _, _, _, _, continues⟩ := ReceiptBody.validate_eq_ok.mp accepted
    exact ⟨isChain_iff_pairwise_outputs.mp continues.ordered, continues.apart⟩
  · intro accepted
    exact parts.accepts format version accepted.1 accepted.2

def linuxDeviceNumbers : DeviceNumbers where
  major device :=
    ((device >>> (8 : UInt64) &&& (0xfff : UInt64)) ||| (device >>> (32 : UInt64) &&& (0xfffff000 : UInt64))).toUInt32
  minor device := ((device &&& (0xff : UInt64)) ||| (device >>> (12 : UInt64) &&& (0xffffff00 : UInt64))).toUInt32
  makedev major minor :=
    (major.toUInt64 &&& (0xfff : UInt64)) <<< (8 : UInt64) |||
      (major.toUInt64 &&& (0xfffff000 : UInt64)) <<< (32 : UInt64) |||
      (minor.toUInt64 &&& (0xff : UInt64)) |||
      (minor.toUInt64 &&& (0xffffff00 : UInt64)) <<< (12 : UInt64)

def sampleDestination : Destination where
  partuuid := "3f2c9a10-7b6e-4d51-9c0e-52f1a7c48e03"
  partitionNumber := 1
  historicalRuntimeWitness := ⟨0x10301, 2, 40, 259, 1, some 7⟩

def sampleOutput (role : OutputRole) (path : String) : Output where
  root := (roleBinding role).1
  phase := (roleBinding role).2
  role := role
  relativePath := path
  mode := canonicalActiveReblitOutputMode
  xxh3 := ⟨Vector.replicate 16 0⟩
  length := 4096
  contentSha256 := ⟨Vector.replicate 32 0⟩
  provenanceClaim := .unclaimedAbsent

def sampleOutputs : List Output :=
  [sampleOutput .payload "EFI/cast/vmlinuz", sampleOutput .entry "loader/entries/cast.conf",
    sampleOutput .systemdBootloader "EFI/systemd/systemd-bootx64.efi"]

/-- A receipt with a kernel, its entry and the boot loader on one partition. -/
def sampleReceipt (format : String) (version : UInt16) : ReceiptBody where
  format := format
  version := version
  transitionId := ⟨"5b0e4c1d9a7f42338d6610c2e9f7ab84", by decide⟩
  committedPredecessor := none
  predecessorJournalSha256 := ⟨Vector.replicate 32 0⟩
  desiredInventorySha256 := ⟨Vector.replicate 32 0⟩
  destinations := .bootAliasesEsp sampleDestination
  outputs := sampleOutputs

theorem sampleReceipt_partsValid (format : String) (version : UInt16) :
    PartsValid linuxDeviceNumbers (sampleReceipt format version) where
  destinations := rfl
  filled := by simp [sampleReceipt, sampleOutputs]
  bounded := by simp [sampleReceipt, sampleOutputs, maxReceiptOutputs]
  outputs index output found := by
    match index, found with
    | 0, found => cases found; rfl
    | 1, found => cases found; rfl
    | 2, found => cases found; rfl
  paths := by
    show pathBytes sampleOutputs ≤ maxReceiptPathBytes
    decide
  logical := by
    show logicalBytes sampleOutputs ≤ maxReceiptLogicalBytes
    decide

theorem sampleOutputs_ordered : sampleOutputs.Pairwise (compareOutputs · · = .lt) := by decide

theorem sampleOutputs_apart : AllApart true sampleOutputs := pairwise_apart_iff.mp (by decide)

theorem sampleReceipt_accepted :
    (sampleReceipt receiptFormat receiptBodyVersion).validate linuxDeviceNumbers = .ok () :=
  (validate_iff_ordered_and_apart _ _ rfl rfl (sampleReceipt_partsValid _ _)).mpr
    ⟨sampleOutputs_ordered, sampleOutputs_apart⟩

/-- With another version or another format the same receipt is refused for that
alone. -/
theorem sampleReceipt_foreign_refused : (PartsValid linuxDeviceNumbers (sampleReceipt receiptFormat 2) ∧
      (sampleReceipt receiptFormat 2).outputs.Pairwise (compareOutputs · · = .lt) ∧
      AllApart (sampleReceipt receiptFormat 2).destinations.aliasesEsp (sampleReceipt receiptFormat 2).outputs ∧
      (sampleReceipt receiptFormat 2).validate linuxDeviceNumbers = .error (.unsupportedVersion 2)) ∧
    (PartsValid linuxDeviceNumbers (sampleReceipt "foreign" receiptBodyVersion) ∧
      (sampleReceipt "foreign" receiptBodyVersion).outputs.Pairwise (compareOutputs · · = .lt) ∧
      AllApart (sampleReceipt "foreign" receiptBodyVersion).destinations.aliasesEsp
        (sampleReceipt "foreign" receiptBodyVersion).outputs ∧
      (sampleReceipt "foreign" receiptBodyVersion).validate linuxDeviceNumbers =
        .error (.unsupportedFormat "foreign")) :=
  ⟨⟨sampleReceipt_partsValid _ _, sampleOutputs_ordered, sampleOutputs_apart, rfl⟩,
    ⟨sampleReceipt_partsValid _ _, sampleOutputs_ordered, sampleOutputs_apart, rfl⟩⟩

end Cast.BootPublication
