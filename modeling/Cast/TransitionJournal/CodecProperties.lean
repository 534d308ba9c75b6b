import Mathlib.Data.Vector.Defs
import Cast.TransitionJournal.Codec
import Cast.TransitionJournal.ValidationProperties

/-! The codec is a bijection between valid records and the byte strings it
accepts. The size limit never bites: every field of a valid record has a
bounded rendering, and the bounds add up to less than the limit. -/

namespace Cast

open Foundation
open List hiding Vector

section Names

open TransitionJournal

/-- The longest enumeration name, with its quotes and room for escapes. -/
private def nameRoom : Nat := 6 * 29 + 2

private theorem length_phaseName_le (phase : Phase) : (jsonText phase.name).length ≤ nameRoom := by
  apply length_jsonString_le_of
  cases phase <;> decide

private theorem length_operationName_le (operation : Operation) : (jsonText operation.name).length ≤ nameRoom := by
  apply length_jsonString_le_of
  cases operation <;> decide

private theorem length_candidateOriginName_le (origin : CandidateOrigin) :
    (jsonText origin.name).length ≤ nameRoom := by
  apply length_jsonString_le_of
  cases origin <;> decide

private theorem length_previousOriginName_le (origin : PreviousOrigin) : (jsonText origin.name).length ≤ nameRoom := by
  apply length_jsonString_le_of
  cases origin <;> decide

private theorem length_dispositionName_le (disposition : AbortDisposition) :
    (jsonText disposition.name).length ≤ nameRoom := by
  apply length_jsonString_le_of
  cases disposition <;> decide

private theorem length_actionName_le (action : RollbackAction) : (jsonText action.name).length ≤ nameRoom := by
  apply length_jsonString_le_of
  cases action <;> decide

private theorem length_bootName_le (boot : BootRollback) : (jsonText boot.name).length ≤ nameRoom := by
  apply length_jsonString_le_of
  cases boot <;> decide

end Names

namespace TransitionJournal

open BootPublication TransitionRecord

variable {record : TransitionRecord} {framed : List UInt8}

private theorem length_stateId_le (id : Option Int32) : (jsonOption stateIdToJson id).length ≤ 11 := by
  refine length_jsonOption_le (by decide) fun present _ => length_jsonInteger_le 10 (by decide) ?_
  have low := present.le_toInt
  have high := present.toInt_lt
  omega

private theorem length_receipts_le (pair : ReceiptPair) : pair.toJson.length ≤ 1106 := by
  have committed : (jsonOption ReceiptFingerprint.toJson pair.committed).length ≤ 386 :=
    length_jsonOption_le (by decide) fun present _ => length_jsonHex_le present.bytes.length_toList
  exact length_jsonObject_le 29 rfl
    (.cons committed (.cons (length_jsonHex_le pair.pending.bytes.length_toList) .nil)) (by decide)

private theorem length_identity_le (identity : RuntimeTreeIdentity) : identity.toJson.length ≤ 560 :=
  length_jsonObject_le 29 rfl (.cons (length_jsonWord_le identity.stDev) (.cons (length_jsonWord_le identity.inode)
    (.cons (length_jsonWord_le identity.mountId) .nil))) (by decide)

private theorem length_namespace_le (identity : MountNamespaceIdentity) : identity.toJson.length ≤ 374 :=
  length_jsonObject_le 29 rfl (.cons (length_jsonWord_le identity.stDev)
    (.cons (length_jsonWord_le identity.inode) .nil)) (by decide)

private theorem length_options_le (options : TransitionOptions) : options.toJson.length ≤ 515 :=
  length_jsonObject_le 29 rfl (.cons (length_jsonBool_le options.archivePrevious)
    (.cons (length_jsonBool_le options.runSystemTriggers)
    (.cons (length_jsonBool_le options.runBootSync) .nil))) (by decide)

private theorem length_candidateRollback_le (candidate : CandidateRollback) : candidate.toJson.length ≤ 686 :=
  length_jsonObject_le 29 rfl (.cons (length_actionName_le candidate.action)
    (.cons (length_dispositionName_le candidate.disposition) .nil)) (by decide)

private theorem length_plan_le (plan : RollbackPlan) : plan.toJson.length ≤ 2735 :=
  length_jsonObject_le 29 rfl (.cons (length_phaseName_le plan.source.toPhase)
    (.cons (length_actionName_le plan.previousArchive)
    (.cons (length_actionName_le plan.usrExchange)
    (.cons (length_candidateRollback_le plan.candidate) (.cons (length_actionName_le plan.freshDb)
    (.cons (length_bootName_le plan.boot)
    (.cons (length_jsonBool_le plan.externalEffectsMayRemain) .nil))))))) (by decide)

private theorem length_token_le {token : TreeToken} (valid : token.validate = .ok ()) :
    (jsonText token.text).length ≤ 194 := by
  simp only [TreeToken.validate, refuse_eq_ok, not_or, not_not] at valid
  exact length_jsonString_le_of (Nat.le_of_eq valid.1)

private theorem length_bootId_le {id : BootId} (valid : id.validate = .ok ()) : (jsonText id.text).length ≤ 218 := by
  simp only [BootId.validate, refuse_eq_ok, not_or, Bool.not_eq_false, Bool.and_eq_true, beq_iff_eq] at valid
  exact length_jsonString_le_of (Nat.le_of_eq valid.1.1)

private theorem length_epoch_le {epoch : RuntimeEpoch} (valid : epoch.validate = .ok ()) :
    epoch.toJson.length ≤ 926 := by
  simp only [RuntimeEpoch.validate, bind_eq_ok, exists_check] at valid
  exact length_jsonObject_le 29 rfl (.cons (length_bootId_le valid.1)
    (.cons (length_namespace_le epoch.mountNamespace) .nil)) (by decide)

private theorem length_candidate_le {candidate : Candidate}
    (valid : candidate.treeToken.validate = .ok ()) : candidate.toJson.length ≤ 1607 :=
  length_jsonObject_le 29 rfl
    (.cons (length_stateId_le candidate.id) (.cons (length_candidateOriginName_le candidate.origin)
    (.cons (length_token_le valid)
    (.cons (length_identity_le candidate.usrRuntimeIdentity) .nil)))) (by decide)

private theorem length_previous_le {previous : Previous}
    (valid : previous.treeToken.validate = .ok ()) : previous.toJson.length ≤ 1607 :=
  length_jsonObject_le 29 rfl (.cons (length_stateId_le previous.id) (.cons (length_token_le valid)
    (.cons (length_identity_le previous.usrRuntimeIdentity)
    (.cons (length_previousOriginName_le previous.origin) .nil)))) (by decide)

private theorem length_quarantineName_le (name : QuarantineName) : (jsonText name.text).length ≤ 770 := by
  have accepted := name.accepted
  simp only [quarantineNameAccepted, maxQuarantineNameBytes, Bool.not_eq_true', Bool.or_eq_false_iff] at accepted
  exact length_jsonString_le_of (Nat.le_of_not_lt (of_decide_eq_false accepted.1.1.1.2))

theorem length_toVec_le (valid : record.Valid) : record.toVec.length ≤ 14000 := by
  have format : (jsonText record.format).length ≤ 128 := by
    rw [valid.format]
    decide
  have version : (jsonNatural record.version.toNat).length ≤ 5 :=
    length_jsonNatural_le 5 (by decide) (Nat.lt_trans record.version.toNat_lt (by decide))
  have transition : (jsonText record.transitionId.text).length ≤ 194 :=
    length_jsonString_le_of (Nat.le_of_eq record.transitionId.canonical.1)
  have rollback : (jsonOption RollbackPlan.toJson record.rollback).length ≤ 2735 :=
    length_jsonOption_le (by decide) fun plan _ => length_plan_le plan
  unfold TransitionRecord.toVec
  cases record.bootPublicationReceipts with
  | none =>
    exact length_jsonObject_le 29 rfl (.cons format (.cons version
      (.cons (length_jsonWord_le record.generation) (.cons transition
      (.cons (length_epoch_le valid.creationEpoch)
      (.cons (length_operationName_le record.operation)
      (.cons (length_phaseName_le record.phase) (.cons rollback
      (.cons (length_candidate_le valid.candidateToken)
      (.cons (length_previous_le valid.previousToken) (.cons (length_options_le record.options)
      (.cons (length_quarantineName_le record.quarantineName) .nil)))))))))))) (by decide)
  | some receipts =>
    exact length_jsonObject_le 29 rfl (.cons format (.cons version
      (.cons (length_jsonWord_le record.generation) (.cons transition
      (.cons (length_epoch_le valid.creationEpoch)
      (.cons (length_operationName_le record.operation)
      (.cons (length_phaseName_le record.phase) (.cons rollback
      (.cons (length_receipts_le receipts) (.cons (length_candidate_le valid.candidateToken)
      (.cons (length_previous_le valid.previousToken) (.cons (length_options_le record.options)
      (.cons (length_quarantineName_le record.quarantineName) .nil))))))))))))) (by decide)

theorem slice_append {front middle back : List UInt8} {start stop : Nat}
    (starts : front.length = start) (stops : front.length + middle.length = stop) :
    slice start stop (front ++ (middle ++ back)) = middle := by
  subst starts stops
  rw [slice, ← append_assoc, ← length_append, take_left', drop_left'] <;> rfl

theorem frame_parts : framed.take magicEnd ++ slice magicEnd versionEnd framed ++
      slice versionEnd lengthEnd framed ++ slice lengthEnd checksumEnd framed ++
      framed.drop headerSize = framed := by
  have glue : ∀ start stop : Nat, start ≤ stop → framed.take start ++ slice start stop framed = framed.take stop := by
    intro start stop ordered
    have parted := take_append_drop start (framed.take stop)
    rwa [take_take, Nat.min_eq_left ordered] at parted
  rw [glue magicEnd versionEnd (by decide), glue versionEnd lengthEnd (by decide),
    glue lengthEnd checksumEnd (by decide)]
  exact take_append_drop _ _

variable {sha256 : List UInt8 → Vector UInt8 32} {fromSlice : List UInt8 → Except String TransitionRecord}

/-- The frame of a payload, as `encode` lays it out. -/
def frame (sha256 : List UInt8 → Vector UInt8 32) (payload : List UInt8) : List UInt8 :=
  let version := toBigEndian 2 frameVersion
  let length := toBigEndian 4 payload.length
  magic ++ version ++ length ++ checksum sha256 version length payload ++ payload

theorem length_checksum (version length payload : List UInt8) : (checksum sha256 version length payload).length = 32 :=
  Vector.length_toList

theorem length_frame (payload : List UInt8) : (frame sha256 payload).length = headerSize + payload.length := by
  simp only [frame, length_append, length_toBigEndian, length_checksum]
  rfl

theorem encode_eq_ok :
    encode sha256 record = .ok framed ↔ record.Valid ∧ framed = frame sha256 record.toVec := by
  simp only [encode, bind_eq_ok, exists_check, okOr_eq_ok, validate_eq_ok,
    enforceRecordSize, refuse_eq_ok, pure_eq_ok]
  constructor
  · intro encoded
    obtain ⟨valid, framedLen, _, _, payloadLen, sized, rfl⟩ := encoded
    obtain ⟨_, rfl⟩ : record.toVec.length < UInt32.size ∧ record.toVec.length = payloadLen := by
      simpa [lengthField] using sized
    exact ⟨valid, rfl⟩
  · intro accepted
    obtain ⟨valid, rfl⟩ := accepted
    have short := length_toVec_le valid
    refine ⟨valid, headerSize + record.toVec.length, ?_, ?_, record.toVec.length, ?_, rfl⟩
    · rw [checkedAdd, if_pos]
      simp only [headerSize, checksumEnd, lengthEnd, versionEnd, magicEnd, UInt64.size]
      omega
    · simp only [headerSize, checksumEnd, lengthEnd, versionEnd, magicEnd, maxCanonicalRecordBytes]
      omega
    · rw [lengthField, if_pos]
      simp only [UInt32.size]
      omega

theorem length_slice {start stop : Nat} (inside : stop ≤ framed.length) :
    (slice start stop framed).length = stop - start := by
  rw [slice, length_drop, length_take, Nat.min_eq_left inside]

section FrameParts

variable (payload : List UInt8)

private theorem take_frame : (frame sha256 payload).take magicEnd = magic := by
  simp only [frame, append_assoc]
  exact take_left' rfl

private theorem version_frame : slice magicEnd versionEnd (frame sha256 payload) = toBigEndian 2 frameVersion := by
  simp only [frame, append_assoc]
  exact slice_append rfl rfl

private theorem length_field_frame :
    slice versionEnd lengthEnd (frame sha256 payload) = toBigEndian 4 payload.length := by
  have parts : frame sha256 payload = (magic ++ toBigEndian 2 frameVersion) ++ (toBigEndian 4 payload.length ++
        (checksum sha256 (toBigEndian 2 frameVersion) (toBigEndian 4 payload.length) payload ++ payload)) := by
    simp only [frame, append_assoc]
  rw [parts]
  exact slice_append rfl rfl

private theorem checksum_frame : slice lengthEnd checksumEnd (frame sha256 payload) =
      checksum sha256 (toBigEndian 2 frameVersion) (toBigEndian 4 payload.length) payload := by
  have parts : frame sha256 payload = (magic ++ toBigEndian 2 frameVersion ++ toBigEndian 4 payload.length) ++
      (checksum sha256 (toBigEndian 2 frameVersion) (toBigEndian 4 payload.length) payload ++ payload) := by
    simp only [frame, append_assoc]
  rw [parts]
  apply slice_append
  · rfl
  · rw [length_checksum]
    rfl

private theorem drop_frame : (frame sha256 payload).drop headerSize = payload := by
  rw [frame, drop_left']
  simp only [length_append, length_toBigEndian, length_checksum]
  rfl

end FrameParts

/-- Exactly the frames of canonical payloads are accepted. -/
theorem decode_eq_ok :
    decode sha256 fromSlice framed = .ok record ↔
      ∃ payload, framed = frame sha256 payload ∧ framed.length ≤ maxCanonicalRecordBytes ∧
        fromSlice payload = .ok record ∧ record.Valid ∧ record.toVec = payload := by
  simp only [decode, bind_eq_ok, exists_check, okOr_eq_ok, enforceRecordSize, refuse_eq_ok,
    mapError_eq_ok, validate_eq_ok, pure_eq_ok, not_not, Nat.not_lt, ne_eq]
  constructor
  · intro decoded
    obtain ⟨small, long, starts, version, expected, counted, sized, digest, read, parsed, valid,
      canonical, same⟩ := decoded
    subst same
    refine ⟨framed.drop headerSize, ?_, small, parsed, valid, canonical⟩
    have versionBytes : slice magicEnd versionEnd framed = toBigEndian 2 frameVersion := by
      rw [← version]
      exact (toBigEndian_fromBigEndian (length_slice (Nat.le_trans (by decide) long))).symm
    have payloadLen : fromBigEndian (slice versionEnd lengthEnd framed) = (framed.drop headerSize).length := by
      have total : headerSize + fromBigEndian (slice versionEnd lengthEnd framed) = expected := by
        rw [checkedAdd] at counted
        split at counted
        · exact Option.some.inj counted
        · cases counted
      rw [length_drop]
      omega
    have lengthBytes : slice versionEnd lengthEnd framed = toBigEndian 4 (framed.drop headerSize).length := by
      rw [← payloadLen]
      exact (toBigEndian_fromBigEndian (length_slice (Nat.le_trans (by decide) long))).symm
    calc framed = framed.take magicEnd ++ slice magicEnd versionEnd framed ++
            slice versionEnd lengthEnd framed ++ slice lengthEnd checksumEnd framed ++
            framed.drop headerSize := frame_parts.symm
      _ = frame sha256 (framed.drop headerSize) := by
            rw [digest, starts, versionBytes, lengthBytes]
            rfl
  · intro accepted
    obtain ⟨payload, rfl, small, parsed, valid, canonical⟩ := accepted
    have size := @length_frame sha256 payload
    have bounded : payload.length < 256 ^ 4 := by
      simp only [maxCanonicalRecordBytes] at small
      omega
    rw [take_frame, version_frame, length_field_frame, checksum_frame, drop_frame, size,
      fromBigEndian_toBigEndian bounded]
    refine ⟨size ▸ small, Nat.le_add_right _ _, rfl, rfl, headerSize + payload.length, ?_, rfl,
      rfl, record, parsed, valid, canonical, rfl⟩
    rw [checkedAdd, if_pos]
    simp only [maxCanonicalRecordBytes] at small
    simp only [UInt64.size]
    omega

/-- What was encoded is read back, wherever the JSON reader inverts the serializer. -/
theorem decode_of_encode {fromSlice : List UInt8 → Except String TransitionRecord}
    (encoded : encode sha256 record = .ok framed)
    (inverts : fromSlice record.toVec = .ok record) :
    decode sha256 fromSlice framed = .ok record := by
  obtain ⟨valid, rfl⟩ := encode_eq_ok.mp encoded
  refine decode_eq_ok.mpr ⟨record.toVec, rfl, ?_, inverts, valid, rfl⟩
  have short := length_toVec_le valid
  rw [length_frame]
  simp only [headerSize, checksumEnd, lengthEnd, versionEnd, magicEnd, maxCanonicalRecordBytes]
  omega

/-- The codec is a bijection between valid records and accepted byte strings. A
valid record encodes and decodes to itself wherever the JSON reader inverts the
serializer; and whatever is accepted is the encoding of the record it yields. -/
theorem codec_bijection (sha256 : List UInt8 → Vector UInt8 32)
    (fromSlice : List UInt8 → Except String TransitionRecord) :
    (∀ record : TransitionRecord, record.validate = .ok () → ∃ framed, encode sha256 record = .ok framed ∧
        (fromSlice record.toVec = .ok record → decode sha256 fromSlice framed = .ok record)) ∧
    (∀ framed record, decode sha256 fromSlice framed = .ok record →
      record.validate = .ok () ∧ encode sha256 record = .ok framed) := by
  constructor
  · intro record valid
    have encoded : encode sha256 record = .ok (frame sha256 record.toVec) :=
      encode_eq_ok.mpr ⟨validate_eq_ok.mp valid, rfl⟩
    exact ⟨frame sha256 record.toVec, encoded, decode_of_encode encoded⟩
  · intro framed record decoded
    obtain ⟨payload, rfl, _, _, valid, rfl⟩ := decode_eq_ok.mp decoded
    exact ⟨validate_eq_ok.mpr valid, encode_eq_ok.mpr ⟨valid, rfl⟩⟩

end TransitionJournal

end Cast
