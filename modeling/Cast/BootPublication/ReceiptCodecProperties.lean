import Mathlib.Data.Vector.Defs
import Cast.BootPublication.ReceiptBodyProperties
import Cast.BootPublication.ReceiptCodec

/-! The receipt codec is a bijection between valid bodies and the byte strings it
accepts. The size limit never bites. A valid path has no character that JSON
escapes, so the paths take no more than their own limit, and everything else an
output renders to is short: the rest of the limit is enough for the largest
number of outputs. -/

namespace Cast.BootPublication

open Foundation TransitionJournal
open List hiding Vector

variable {device : DeviceNumbers}

theorem validateComponents_member {components : Nat} {parts : List (List UInt8)}
    (valid : validateComponents components parts = .ok ()) :
    ∀ component ∈ parts, validateComponent component = .ok () := by
  induction parts generalizing components with
  | nil => simp
  | cons first rest ih =>
    simp only [validateComponents, bind_eq_ok, exists_check] at valid
    obtain ⟨_, head, tail⟩ := valid
    exact forall_mem_cons.mpr ⟨head, ih tail⟩

theorem validateComponent_plain {component : List UInt8} (valid : validateComponent component = .ok ()) :
    ∀ byte ∈ component, byte ≠ 0x22 ∧ byte ≠ 0x5c ∧ 0x20 ≤ byte := by
  simp only [validateComponent, bind_eq_ok, exists_check, refuse_eq_ok, Bool.not_eq_true, any_eq_false] at valid
  obtain ⟨_, _, _, canonical, _, allowed, _⟩ := valid
  intro byte member
  have printable := canonical byte member
  have permitted := allowed byte member
  simp only [isNonCanonical, Bool.or_eq_false_iff, decide_eq_false_iff_not] at printable
  simp only [fatForbidden, decide_eq_false_iff_not, mem_cons, not_or] at permitted
  exact ⟨permitted.2.2.2.1, permitted.2.2.2.2.1, UInt8.not_lt.mp printable.1.2⟩

/-- JSON escapes nothing in a valid path. -/
theorem validatePathText_plain {path : List UInt8} (valid : validatePathText path = .ok ()) :
    ∀ byte ∈ path, byte ≠ 0x22 ∧ byte ≠ 0x5c ∧ 0x20 ≤ byte := by
  simp only [validatePathText, bind_eq_ok, exists_check] at valid
  obtain ⟨_, _, _, components⟩ := valid
  intro byte member
  rcases @mem_component_of_mem _ _ slash _ _ _ member with same | found
  · rw [same]
    decide
  · obtain ⟨component, inPath, inComponent⟩ := found
    exact validateComponent_plain (validateComponents_member components component inPath) byte inComponent

private theorem length_halfWord_le (value : UInt32) : (jsonNatural value.toNat).length ≤ 10 :=
  length_jsonNatural_le 10 (by decide) (Nat.lt_trans value.toNat_lt (by decide))

private theorem length_sha256_le (digest : Sha256) : digest.toJson.length ≤ 386 :=
  length_jsonHex_le digest.bytes.length_toList

private theorem length_xxh3_le (digest : Xxh3) : digest.toJson.length ≤ 194 :=
  length_jsonHex_le digest.bytes.length_toList

private theorem length_rootName_le (root : Root) : (jsonText root.name).length ≤ 6 := by cases root <;> decide

private theorem length_phaseText_le (phase : PublicationPhase) : (jsonText phase.name).length ≤ 16 := by
  cases phase <;> decide

private theorem length_roleName_le (role : OutputRole) : (jsonText role.name).length ≤ 21 := by
  cases role <;> decide

private theorem length_claimName_le (claim : OutputProvenanceClaim) : (jsonText claim.name).length ≤ 27 := by
  cases claim <;> decide

/-- What an output takes besides its path. -/
def outputRoom : Nat := 960

theorem length_output_le {output : Output} {index : Nat} (valid : output.validate index = .ok ()) :
    output.toJson.length + 1 ≤ (utf8 output.relativePath).length + outputRoom := by
  have path : (jsonText output.relativePath).length = (utf8 output.relativePath).length + 2 := by
    simp only [Output.validate, validatePath, bind_eq_ok, exists_check, mapError_eq_ok] at valid
    exact length_jsonString_plain (validatePathText_plain valid.1)
  have rendered : output.toJson.length ≤ (utf8 output.relativePath).length + 959 := by
    refine length_jsonObject_le 28 rfl (.cons (length_rootName_le output.root) (.cons (length_phaseText_le output.phase)
      (.cons (length_roleName_le output.role) (.cons (Nat.le_of_eq path)
      (.cons (length_halfWord_le output.mode) (.cons (length_xxh3_le output.xxh3)
      (.cons (length_jsonWord_le output.length) (.cons (length_sha256_le output.contentSha256)
      (.cons (length_claimName_le output.provenanceClaim) .nil))))))))) ?_
    simp only [sum_cons, sum_nil, length_cons, length_nil]
    omega
  exact Nat.succ_le_succ rendered

private theorem length_witness_le (witness : HistoricalRuntimeWitness) : witness.toJson.length ≤ 300 := by
  have sequence : (jsonOption (fun (sequence : UInt64) => jsonNatural sequence.toNat)
      witness.diskSequence).length ≤ 20 :=
    length_jsonOption_le (by decide) fun present _ => length_jsonWord_le present
  exact length_jsonObject_le 28 rfl (.cons (length_jsonWord_le witness.destinationDevice)
    (.cons (length_jsonWord_le witness.destinationInode) (.cons (length_jsonWord_le witness.mountId)
    (.cons (length_halfWord_le witness.partitionDeviceMajor)
    (.cons (length_halfWord_le witness.partitionDeviceMinor) (.cons sequence .nil)))))) (by decide)

private theorem length_destination_le {destination : Destination}
    {label : String} (valid : destination.validate device label = .ok ()) :
    destination.toJson.length ≤ 630 := by
  simp only [Destination.validate, bind_eq_ok, exists_check, refuse_eq_ok, Bool.not_eq_false] at valid
  have uuid := valid.1
  simp only [isCanonicalNonzeroUuid, Bool.and_eq_true, decide_eq_true_eq] at uuid
  exact length_jsonObject_le 28 rfl (.cons (length_jsonString_le_of (Nat.le_of_eq uuid.1))
    (.cons (length_halfWord_le destination.partitionNumber)
    (.cons (length_witness_le destination.historicalRuntimeWitness) .nil))) (by decide)

private theorem length_destinations_le {destinations : Destinations}
    (valid : destinations.validate device = .ok ()) : destinations.toJson.length ≤ 1400 := by
  cases destinations with
  | bootAliasesEsp esp =>
    have layout : (jsonText "boot-aliases-esp").length ≤ 18 := by decide
    exact length_jsonObject_le 28 rfl (.cons layout (.cons (length_destination_le valid) .nil)) (by decide)
  | distinctXbootldr esp xbootldr =>
    have layout : (jsonText "distinct-xbootldr").length ≤ 19 := by decide
    simp only [Destinations.validate, bind_eq_ok, exists_check] at valid
    exact length_jsonObject_le 28 rfl (.cons layout (.cons (length_destination_le valid.1)
      (.cons (length_destination_le valid.2.1) .nil))) (by decide)

theorem length_outputs_le {outputs : List Output}
    (valid : ∀ output ∈ outputs, ∃ index, output.validate index = .ok ()) :
    ((outputs.map Output.toJson).map fun value => value.length + 1).sum ≤
      pathBytes outputs + outputs.length * outputRoom := by
  induction outputs with
  | nil => exact Nat.zero_le _
  | cons output rest ih =>
    obtain ⟨⟨index, first⟩, others⟩ := forall_mem_cons.mp valid
    have head := length_output_le first
    have tail := ih others
    simp only [pathBytes] at tail ⊢
    simp only [map_cons, sum_cons, length_cons, Nat.add_mul]
    omega

theorem ReceiptBody.length_toVec_le {body : ReceiptBody} (valid : body.validate device = .ok ()) :
    body.toVec.length ≤ maxCanonicalReceiptBodyBytes := by
  obtain ⟨sameFormat, _, destinationsValid, filled, few, continues⟩ := ReceiptBody.validate_eq_ok.mp valid
  have format : (jsonText body.format).length ≤ 31 := by
    rw [sameFormat]
    decide
  have version : (jsonNatural body.version.toNat).length ≤ 5 :=
    length_jsonNatural_le 5 (by decide) (Nat.lt_trans body.version.toNat_lt (by decide))
  have transition := length_jsonString_le_of (Nat.le_of_eq body.transitionId.canonical.1)
  have predecessor : (jsonOption ReceiptFingerprint.toJson body.committedPredecessor).length ≤ 386 :=
    length_jsonOption_le (by decide) fun present _ => length_jsonHex_le present.bytes.length_toList
  have outputs : ((body.outputs.map Output.toJson).map fun value => value.length + 1).sum ≤
      pathBytes body.outputs + body.outputs.length * outputRoom := by
    refine length_outputs_le fun output member => ?_
    obtain ⟨position, found⟩ := mem_iff_getElem?.mp member
    exact ⟨0 + position, continues.valid position output found⟩
  have paths := continues.paths filled
  rw [nil_append] at paths
  have rooms := Nat.mul_le_mul_right outputRoom few
  simp only [maxReceiptPathBytes, maxReceiptOutputs, outputRoom] at paths rooms outputs
  refine length_jsonObject_le 28 rfl (.cons format (.cons version (.cons transition (.cons predecessor
    (.cons (length_sha256_le body.predecessorJournalSha256)
    (.cons (length_sha256_le body.desiredInventorySha256)
    (.cons (length_destinations_le destinationsValid)
    (.cons (length_jsonArray_le (body.outputs.map Output.toJson)) .nil)))))))) ?_
  simp only [sum_cons, sum_nil, length_cons, length_nil, maxCanonicalReceiptBodyBytes]
  omega

variable {sha256 : List UInt8 → Vector UInt8 32} {fromSlice : List UInt8 → Except String ReceiptBody}
  {body : ReceiptBody}

theorem prepareReceipt_eq_ok {receipt : CanonicalReceipt} :
    prepareReceipt device sha256 body = .ok receipt ↔
      body.validate device = .ok () ∧ canonicalReceipt sha256 body body.toVec = receipt := by
  simp only [prepareReceipt, bind_eq_ok, exists_check, mapError_eq_ok, enforceBodySize,
    refuse_eq_ok, pure_eq_ok, Nat.not_lt, gt_iff_lt]
  exact and_congr_right fun valid => and_iff_right (ReceiptBody.length_toVec_le valid)

/-- Exactly the canonical bytes of valid bodies are accepted. -/
theorem decodeReceipt_eq_ok {bytes : List UInt8} {receipt : CanonicalReceipt} :
    decodeReceipt device sha256 fromSlice bytes = .ok receipt ↔
      ∃ body, fromSlice bytes = .ok body ∧ body.toVec = bytes ∧ prepareReceipt device sha256 body = .ok receipt := by
  simp only [decodeReceipt, prepareReceipt_eq_ok, bind_eq_ok, exists_check, mapError_eq_ok,
    enforceBodySize, refuse_eq_ok, pure_eq_ok, Nat.not_lt, gt_iff_lt, ne_eq, not_not]
  constructor
  · intro decoded
    obtain ⟨_, body, parsed, valid, canonical, same⟩ := decoded
    exact ⟨body, parsed, canonical, valid, same⟩
  · intro held
    obtain ⟨body, parsed, canonical, valid, same⟩ := held
    have short := ReceiptBody.length_toVec_le valid
    rw [canonical] at short
    exact ⟨short, body, parsed, valid, canonical, same⟩

/-- A valid body is prepared within the size limit, and its canonical bytes decode to the
same receipt wherever the JSON reader inverts the serializer; whatever is accepted is
the canonical encoding of the valid body it yields. -/
theorem receipt_codec_bijection (device : DeviceNumbers)
    (sha256 : List UInt8 → Vector UInt8 32) (fromSlice : List UInt8 → Except String ReceiptBody) :
    (∀ body : ReceiptBody, body.validate device = .ok () →
      ∃ receipt, prepareReceipt device sha256 body = .ok receipt ∧ receipt.body = body ∧
        receipt.canonicalBody = body.toVec ∧
        receipt.canonicalBody.length ≤ maxCanonicalReceiptBodyBytes ∧
        (fromSlice body.toVec = .ok body → decodeReceipt device sha256 fromSlice receipt.canonicalBody = .ok receipt)) ∧
    (∀ bytes receipt, decodeReceipt device sha256 fromSlice bytes = .ok receipt →
      receipt.body.validate device = .ok () ∧ receipt.body.toVec = bytes ∧
        prepareReceipt device sha256 receipt.body = .ok receipt) := by
  constructor
  · intro body valid
    have prepared := prepareReceipt_eq_ok.mpr ⟨valid, (rfl : canonicalReceipt sha256 _ _ = _)⟩
    refine ⟨_, prepared, rfl, rfl, ReceiptBody.length_toVec_le valid, fun inverts => ?_⟩
    exact decodeReceipt_eq_ok.mpr ⟨body, inverts, rfl, prepared⟩
  · intro bytes receipt decoded
    obtain ⟨body, _, canonical, prepared⟩ := decodeReceipt_eq_ok.mp decoded
    obtain ⟨valid, same⟩ := prepareReceipt_eq_ok.mp prepared
    subst same
    exact ⟨valid, canonical, prepared⟩

end Cast.BootPublication
