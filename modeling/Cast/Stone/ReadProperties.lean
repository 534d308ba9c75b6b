import Mathlib.Data.List.Forall2
import Cast.Stone.Read
import Cast.Stone.RecordProperties

/-! What the reader accepts. Each check is read as its condition; a payload that
is let through stands in the archive as its header says, and the reader's state
afterwards is the sum of what was let through. -/

namespace Cast.Stone

open Foundation DecodeState List

variable {limits : DecodeLimits} {position : Nat} {result : Unit} {ρ : Type} {header : PayloadHeader}
  {state after : DecodeState} {records : List IndexRecord} {reader : StoneReader}
  {payload : DecodedPayload}

theorem FileType.ofByte_toByte (fileType : FileType) : FileType.ofByte fileType.toByte = fileType := by
  cases fileType <;> rfl

theorem PayloadKind.ofByte_toByte (kind : PayloadKind) : PayloadKind.ofByte kind.toByte = kind := by
  cases kind <;> rfl

theorem Compression.ofByte_toByte (compression : Compression) :
    Compression.ofByte compression.toByte = compression := by
  cases compression <;> rfl

@[simp] theorem StoneHeader.length_encode (header : StoneHeader) :
    header.encode.length = stoneHeaderSize := by
  simp [StoneHeader.encode, stoneHeaderMagic, integrityCheck, stoneHeaderSize]

theorem StoneHeader.decode_encode {header : StoneHeader} (counted : header.numPayloads < 65536)
    (rest : List UInt8) : StoneHeader.decode (header.encode ++ rest) = .ok header := by
  have count : fromBigEndian (toBigEndian 2 header.numPayloads) = header.numPayloads :=
    fromBigEndian_toBigEndian counted
  have versionNumber : fromBigEndian (toBigEndian 4 stoneHeaderVersion) = stoneHeaderVersion := rfl
  have long : ¬ (header.encode ++ rest).length < stoneHeaderSize := by simp
  let data := toBigEndian 2 header.numPayloads ++ integrityCheck ++ [header.fileType.toByte]
  have magicLength : stoneHeaderMagic.length = 4 := rfl
  have checkLength : integrityCheck.length = 21 := rfl
  have magicField : (header.encode ++ rest).take 4 = stoneHeaderMagic := by
    simp [StoneHeader.encode, magicLength]
  have dataField : ((header.encode ++ rest).drop 4).take 24 = data := by
    simp [StoneHeader.encode, data, take_append, take_of_length_le, magicLength, checkLength]
  have versionField : ((header.encode ++ rest).drop 28).take 4 = toBigEndian 4 stoneHeaderVersion := by
    simp [StoneHeader.encode, drop_append, drop_of_length_le, magicLength, checkLength]
  have countField : data.take 2 = toBigEndian 2 header.numPayloads := by simp [data]
  have checkField : (data.drop 2).take 21 = integrityCheck := by simp [data, checkLength]
  have typeField : (data.drop 23).headD 0 = header.fileType.toByte := by simp [data, drop_append, checkLength]
  simp only [StoneHeader.decode, bind_eq_ok, refuse_eq_ok, exists_check, pure_eq_ok, dataField,
    magicField, versionField, countField, checkField, typeField, versionNumber, count,
    FileType.ofByte_toByte, long, ne_eq, not_true_eq_false, not_false_eq_true, true_and]

/-- The fields a header can carry. -/
structure PayloadHeader.Representable (header : PayloadHeader) : Prop where
  storedSize : header.storedSize < UInt64.size
  plainSize : header.plainSize < UInt64.size
  checksum : header.checksum.length = 8
  numRecords : header.numRecords < UInt32.size
  version : header.version < 65536

theorem PayloadHeader.length_encode (checksum : header.checksum.length = 8) :
    header.encode.length = payloadHeaderSize := by
  simp [PayloadHeader.encode, payloadHeaderSize, checksum]

theorem PayloadHeader.decode_encode (representable : header.Representable)
    (rest : List UInt8) : PayloadHeader.decode (header.encode ++ rest) = some header := by
  obtain ⟨stored, plain, checksum, records, version⟩ := representable
  have long : ¬ (header.encode ++ rest).length < payloadHeaderSize := by
    rw [length_append, PayloadHeader.length_encode checksum]
    omega
  have storedField : (header.encode ++ rest).take 8 = toBigEndian 8 header.storedSize := by
    simp [PayloadHeader.encode]
  have plainField : ((header.encode ++ rest).drop 8).take 8 = toBigEndian 8 header.plainSize := by
    simp [PayloadHeader.encode]
  have checksumField : ((header.encode ++ rest).drop 16).take 8 = header.checksum := by
    simp [PayloadHeader.encode, drop_append, drop_of_length_le, checksum]
  have recordsField : ((header.encode ++ rest).drop 24).take 4 = toBigEndian 4 header.numRecords := by
    simp [PayloadHeader.encode, drop_append, drop_of_length_le, checksum]
  have versionField : ((header.encode ++ rest).drop 28).take 2 = toBigEndian 2 header.version := by
    simp [PayloadHeader.encode, drop_append, drop_of_length_le, checksum]
  have kindField : ((header.encode ++ rest).drop 30).headD 0 = header.kind.toByte := by
    simp [PayloadHeader.encode, drop_append, drop_of_length_le, checksum]
  have compressionField : ((header.encode ++ rest).drop 31).headD 0 = header.compression.toByte := by
    simp [PayloadHeader.encode, drop_append, drop_of_length_le, checksum]
  rw [PayloadHeader.decode, if_neg long]
  simp only [storedField, plainField, checksumField, recordsField, versionField, kindField,
    compressionField, PayloadKind.ofByte_toByte, Compression.ofByte_toByte]
  rw [fromBigEndian_toBigEndian stored, fromBigEndian_toBigEndian plain,
    fromBigEndian_toBigEndian records, fromBigEndian_toBigEndian version]

theorem enforceLimit_eq_ok {resource : String} {limit actual : Nat} :
    enforceLimit resource limit actual = .ok result ↔ actual ≤ limit := by
  simp [enforceLimit]

theorem checkedSum_eq_ok {value : String} {left right sum : Nat} :
    checkedSum value left right = .ok sum ↔ left + right < UInt64.size ∧ left + right = sum := by
  unfold checkedSum
  split <;> simp_all

theorem checkedTotal_eq_ok {resource : String} {current additional limit total : Nat} :
    checkedTotal resource current additional limit = .ok total ↔
      current + additional < UInt64.size ∧ current + additional ≤ limit ∧ current + additional = total := by
  simp only [checkedTotal, bind_eq_ok, checkedSum_eq_ok, enforceLimit_eq_ok, exists_check, pure_eq_ok, exists_outcome]

def DecodeState.adding (state : DecodeState) (header : PayloadHeader) : DecodeState where
  records := state.records + header.numRecords
  recordBytes := state.recordBytes + if header.kind.isRecordPayload then header.plainSize else 0
  storedBytes := state.storedBytes + header.storedSize
  plainBytes := state.plainBytes + header.plainSize
  contentSeen := state.contentSeen || header.kind == .content
  contentPlainSize := if header.kind = .content then some header.plainSize
    else state.contentPlainSize
  maxIndexEnd := state.maxIndexEnd

@[mk_iff] structure DecodeState.Lets (state : DecodeState) (limits : DecodeLimits) (header : PayloadHeader) :
    Prop where
  version : header.kind ≠ .unknown → header.version = 1
  numRecords : header.numRecords ≤ limits.maxRecordsPerPayload
  storedSize : header.storedSize ≤ limits.maxStoredPayloadBytes
  plainSize : header.plainSize ≤ limits.maxPlainPayloadBytes
  records : state.records + header.numRecords < UInt64.size ∧ state.records + header.numRecords ≤ limits.maxTotalRecords
  storedBytes : state.storedBytes + header.storedSize < UInt64.size ∧
    state.storedBytes + header.storedSize ≤ limits.maxTotalStoredBytes
  plainBytes : state.plainBytes + header.plainSize < UInt64.size ∧
    state.plainBytes + header.plainSize ≤ limits.maxTotalPlainBytes
  recordBytes : header.kind.isRecordPayload = true → state.recordBytes + header.plainSize < UInt64.size ∧
      state.recordBytes + header.plainSize ≤ limits.maxTotalRecordBytes ∧
      header.numRecords * minimumPerRecord header.kind < UInt64.size ∧
      header.numRecords * minimumPerRecord header.kind ≤ header.plainSize
  content : header.kind = .content → state.contentSeen = false ∧ state.maxIndexEnd ≤ header.plainSize
  uncompressed : header.compression = .none → header.storedSize = header.plainSize

theorem DecodeState.countRecordBytes_eq_ok : state.countRecordBytes header limits = .ok after ↔
      (header.kind.isRecordPayload = true → state.recordBytes + header.plainSize < UInt64.size ∧
          state.recordBytes + header.plainSize ≤ limits.maxTotalRecordBytes ∧
          header.numRecords * minimumPerRecord header.kind < UInt64.size ∧
          header.numRecords * minimumPerRecord header.kind ≤ header.plainSize) ∧
      { state with recordBytes := state.recordBytes +
        if header.kind.isRecordPayload then header.plainSize else 0 } = after := by
  unfold countRecordBytes
  by_cases isRecord : header.kind.isRecordPayload = true
  · simp only [isRecord, if_true, bind_eq_ok, checkedTotal_eq_ok, validateMinimumRecordBytes,
      refuse_eq_ok, exists_check, pure_eq_ok, Nat.not_le, Nat.not_lt, forall_const, gt_iff_lt,
      and_assoc, existsAndEq, true_and]
  · simp [isRecord]

theorem DecodeState.countContent_eq_ok : state.countContent header = .ok after ↔
      (header.kind = .content → state.contentSeen = false ∧ state.maxIndexEnd ≤ header.plainSize) ∧
      { state with
        contentSeen := state.contentSeen || header.kind == .content
        contentPlainSize := if header.kind = .content then some header.plainSize
          else state.contentPlainSize } = after := by
  unfold countContent
  by_cases isContent : header.kind = .content
  · simp only [isContent, if_true, bind_eq_ok, refuse_eq_ok, exists_check, pure_eq_ok,
      Bool.not_eq_true, gt_iff_lt, Nat.not_lt, forall_const, beq_self_eq_true, Bool.or_true,
      and_assoc]
  · have different : (header.kind == PayloadKind.content) = false := by simpa using isContent
    simp [isContent, different]

/-- A header is let through under these conditions and is then added up. -/
theorem DecodeState.admitHeader_eq_ok : state.admitHeader header limits = .ok after ↔
      state.Lets limits header ∧ state.adding header = after := by
  simp only [admitHeader, bind_eq_ok, refuse_eq_ok, enforceLimit_eq_ok, exists_check,
    checkedTotal_eq_ok, countRecordBytes_eq_ok, countContent_eq_ok,
    pure_eq_ok, not_and, not_not, lets_iff, and_assoc, existsAndEq, true_and]
  rfl

def maxEnd (least : Nat) (records : List IndexRecord) : Nat :=
  records.foldl (fun largest record => max largest record.stop.toNat) least

theorem maxEnd_le_iff {least bound : Nat} :
    maxEnd least records ≤ bound ↔ least ≤ bound ∧ ∀ record ∈ records, record.stop.toNat ≤ bound := by
  induction records generalizing least with
  | nil => simp [maxEnd]
  | cons record rest ih =>
    have unfolded : maxEnd least (record :: rest) = maxEnd (max least record.stop.toNat) rest := rfl
    rw [unfolded, ih, Nat.max_le, forall_mem_cons, and_assoc]

/-- Indices are let through when each is a range within a content already seen. -/
theorem DecodeState.admitIndices_eq_ok :
    state.admitIndices records = .ok after ↔ (∀ record ∈ records, record.start.toNat ≤ record.stop.toNat ∧
        ∀ size ∈ state.contentPlainSize, record.stop.toNat ≤ size) ∧
      { state with maxIndexEnd := maxEnd state.maxIndexEnd records } = after := by
  induction records generalizing state with
  | nil => simp [admitIndices, maxEnd]
  | cons record rest ih =>
    have ordered : ¬ record.stop < record.start ↔ record.start.toNat ≤ record.stop.toNat := by
      rw [UInt64.lt_iff_toNat_lt, Nat.not_lt]
    have unfolded : maxEnd state.maxIndexEnd (record :: rest) =
        maxEnd (max state.maxIndexEnd record.stop.toNat) rest := rfl
    rw [admitIndices, forall_mem_cons, unfolded]
    cases size : state.contentPlainSize with
    | none =>
      simp only [bind_eq_ok, refuse_eq_ok, exists_check, ih, ordered, Option.mem_def]
      simp [and_assoc]
    | some size =>
      simp only [bind_eq_ok, refuse_eq_ok, exists_check, ih, ordered, Option.mem_def, Nat.not_lt, gt_iff_lt]
      simp [and_assoc]

variable {zstd : Zstd} {xxh3 : Xxh3}

theorem finishExact_eq_ok {reader : BoundedReader} :
    finishExact reader = .ok result ↔ reader.emitted = reader.declared ∧ reader.rest = [] := by
  unfold finishExact
  by_cases complete : reader.emitted = reader.declared
  · simp [complete]
  · by_cases ended : reader.rest = [] <;> simp [complete, ended]

variable {stored : List UInt8}

theorem validateStored_eq_ok : validateStored xxh3 header stored = .ok result ↔
      stored.length = header.storedSize ∧ (xxh3.digest stored).toNat = fromBigEndian header.checksum := by
  simp only [validateStored, bind_eq_ok, refuse_eq_ok, exists_check, not_not, ne_eq]

theorem decodeRecordBody_plainSize [Record ρ] {records : List ρ}
    (decoded : decodeRecordBody zstd xxh3 ρ limits header stored = .ok records) :
    ∃ plain, payloadPlain zstd limits header.compression stored = .ok plain ∧ plain.length = header.plainSize := by
  simp only [decodeRecordBody, bind_eq_ok, mapError_eq_ok, finishExact_eq_ok, exists_check] at decoded
  obtain ⟨plain, unpacked, ⟨_, reader⟩, read, ⟨complete, ended⟩, _⟩ := decoded
  obtain ⟨_, declared, _, conserved⟩ := decodeRecords_advances read (Nat.zero_le _)
  refine ⟨plain, unpacked, ?_⟩
  dsimp only at complete ended declared conserved
  rw [ended, length_nil, complete, declared] at conserved
  omega

theorem decodeRecordBody_encodeRecords [Record ρ] [LawfulRecord ρ]
    (narrow : limits.maxRecordBytes < UInt32.size) {records : List ρ}
    (unpacked : payloadPlain zstd limits header.compression stored = .ok (encodeRecords records).flatten)
    (kept : ∀ record ∈ records, LawfulRecord.Kept record ∧ Record.size record ≤ limits.maxRecordBytes)
    (plainSize : header.plainSize = (encodeRecords records).flatten.length)
    (numRecords : header.numRecords = records.length)
    (valid : validateStored xxh3 header stored = .ok ()) :
    decodeRecordBody zstd xxh3 ρ limits header stored = .ok records := by
  rw [length_encodeRecords] at plainSize
  obtain ⟨after, read, ended, declared, emitted⟩ :=
    decodeRecords_encodeRecords (narrow.trans (by decide)) records kept
      (fun record member => (kept record member).2.trans_lt narrow)
      ⟨(encodeRecords records).flatten, header.plainSize, 0, limits.maxRecordBytes, 0⟩ []
      (append_nil _).symm (by simp [plainSize])
  simp only [decodeRecordBody, bind_eq_ok, mapError_eq_ok, finishExact_eq_ok, exists_check, pure_eq_ok, numRecords]
  refine ⟨_, unpacked, (records, after), read, ⟨?_, ended⟩, valid, rfl⟩
  rw [emitted, declared]
  simp [plainSize]

/-- Streams of the records that are kept and fit the decode limits are as long as their sizes say
and are read back to their last byte, whatever follows. -/
def SelfDelimiting (ρ : Type) [Record ρ] (kept : ρ → Prop) : Prop :=
  ∀ (records : List ρ) (reader : BoundedReader) (maxRecordBytes : UInt64) (rest : List UInt8),
    (∀ record ∈ records, kept record ∧ Record.size record ≤ DecodeLimits.default.maxRecordBytes ∧
      Record.size record ≤ maxRecordBytes.toNat) →
    reader.rest = (encodeRecords records).flatten ++ rest →
    reader.emitted + recordsTotalSize records ≤ reader.declared →
    (encodeRecords records).flatten.length = recordsTotalSize records ∧
      ∃ after, decodeRecords maxRecordBytes.toNat records.length reader = .ok (records, after) ∧
        after.rest = rest ∧ after.emitted = reader.emitted + recordsTotalSize records

theorem LawfulRecord.selfDelimiting [Record ρ] [LawfulRecord ρ] : SelfDelimiting ρ LawfulRecord.Kept := by
  intro records reader maxRecordBytes rest fits stream declared
  have small : DecodeLimits.default.maxRecordBytes < UInt32.size := by decide
  obtain ⟨after, read, left, _, emitted⟩ :=
    decodeRecords_encodeRecords maxRecordBytes.toNat_lt records
      (fun record member => ⟨(fits record member).1, (fits record member).2.2⟩)
      (fun record member => (fits record member).2.1.trans_lt small) reader rest stream declared
  exact ⟨length_encodeRecords records, after, read, left, emitted⟩

/-- The records of a payload, written one after another, are read back from the front of any stream
that begins with them, and the rest of the stream is left. -/
theorem record_streams_self_delimiting : SelfDelimiting MetaRecord (fun record => record.primitive.Kept) ∧
      SelfDelimiting LayoutRecord (fun record => record.file.Kept) ∧
      SelfDelimiting AttributeRecord (fun _ => True) ∧ SelfDelimiting IndexRecord (fun _ => True) :=
  ⟨LawfulRecord.selfDelimiting, LawfulRecord.selfDelimiting, LawfulRecord.selfDelimiting, LawfulRecord.selfDelimiting⟩

variable {archive : List UInt8}

theorem decodePayload_eq_ok {next : Nat} :
    decodePayload zstd xxh3 limits archive position state = .ok (payload, next, after) ↔
      ∃ header, PayloadHeader.decode (archive.drop position) = some header ∧ state.Lets limits header ∧
        position + payloadHeaderSize + header.storedSize = next ∧
        next < UInt64.size ∧ next ≤ archive.length ∧
        decodeBody zstd xxh3 limits header (position + payloadHeaderSize)
          ((archive.drop (position + payloadHeaderSize)).take header.storedSize)
          (state.adding header) = .ok (payload, after) := by
  simp only [decodePayload, bind_eq_ok, okOr_eq_ok, admitHeader_eq_ok, checkedSum_eq_ok,
    refuse_eq_ok, exists_check, pure_eq_ok, Prod.mk.injEq, gt_iff_lt, Nat.not_lt, Prod.exists,
    and_assoc, existsAndEq, true_and, and_true]
  refine exists_congr fun header => and_congr_right fun _ => and_congr_right fun _ => ⟨?_, ?_⟩
  · rintro ⟨fits, within, body, rfl⟩
    exact ⟨rfl, fits, within, body⟩
  · rintro ⟨rfl, fits, within, body⟩
    exact ⟨fits, within, body, rfl⟩

theorem payloadItems_ne_nil {remaining : Nat} :
    payloadItems zstd xxh3 limits archive (remaining + 1) position state ≠ [] := by
  rw [payloadItems]
  dsimp only
  split <;> exact cons_ne_nil _ _

/-- The items of the iterator are all payloads exactly when each is decoded behind
the one before and the last ends with the archive. -/
theorem payloadItems_eq_ok {remaining : Nat} {rest : List DecodedPayload} :
    payloadItems zstd xxh3 limits archive (remaining + 1) position state = (payload :: rest).map .ok ↔
      ∃ next after, decodePayload zstd xxh3 limits archive position state = .ok (payload, next, after) ∧
        (remaining = 0 → next = archive.length) ∧
        payloadItems zstd xxh3 limits archive remaining next after = rest.map .ok := by
  rw [payloadItems]
  cases decoded : decodePayload zstd xxh3 limits archive position state with
  | error error => simp [bind, Except.bind]
  | ok result =>
    obtain ⟨found, next, after⟩ := result
    by_cases last : remaining = 0
    · by_cases ends : next = archive.length
      · simp [last, ends, verifyArchiveEnd, refuse, bind, Except.bind, pure, Except.pure, payloadItems]
      · simp [last, ends, verifyArchiveEnd, refuse, bind, Except.bind]
    · simp [last, bind, Except.bind, pure, Except.pure]

theorem verifyArchiveEnd_eq_ok :
    verifyArchiveEnd archive position = .ok result ↔ position = archive.length := by
  rw [verifyArchiveEnd, refuse_eq_ok, not_not]

theorem readWithLimits_eq_ok : readWithLimits archive limits = .ok reader ↔
      validateLimits limits = .ok () ∧
      ∃ maximum, maxArchiveBytes limits = .ok maximum ∧ maximum ≤ maxFilePosition ∧ archive.length ≤ maximum ∧
        ∃ header, StoneHeader.decode archive = .ok header ∧ header.numPayloads ≤ limits.maxPayloads ∧
          (header.numPayloads = 0 → stoneHeaderSize = archive.length) ∧
          ⟨header, archive, limits⟩ = reader := by
  simp only [readWithLimits, bind_eq_ok, exists_check, enforceLimit_eq_ok, mapError_eq_ok, check_if_eq_ok,
    verifyArchiveEnd_eq_ok, pure_eq_ok]

theorem StoneReader.payloads_eq_ok {items : List (Except ReadError DecodedPayload)} :
    reader.payloads zstd xxh3 = .ok items ↔ (reader.header.numPayloads = 0 → stoneHeaderSize = reader.archive.length) ∧
      payloadItems zstd xxh3 reader.limits reader.archive reader.header.numPayloads stoneHeaderSize .start = items := by
  simp only [StoneReader.payloads, check_if_eq_ok, verifyArchiveEnd_eq_ok, pure_eq_ok]

end Cast.Stone
