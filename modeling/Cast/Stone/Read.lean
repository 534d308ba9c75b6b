import Cast.Stone.Write

/-! Reading a stone archive. Every declaration of the archive is held against
the limits, against the archive's size and against what its payloads turn out to
be. The input is the archive's bytes and a position in them.
The stateful calls share one stream: `nextPayload` decodes wherever it stands, and every call
that reads a content payload seeks to its body and leaves it behind the last byte it pulled. -/

namespace Cast.Stone

open Foundation

def mib : Nat := 1024 * 1024
def gib : Nat := 1024 * mib

structure DecodeLimits where
  maxPayloads : Nat
  maxRecordsPerPayload : Nat
  maxRecordBytes : Nat
  maxStoredPayloadBytes : Nat
  maxPlainPayloadBytes : Nat
  maxTotalRecords : Nat
  maxTotalRecordBytes : Nat
  maxTotalStoredBytes : Nat
  maxTotalPlainBytes : Nat
  maxZstdWindowLog : Nat
deriving DecidableEq

def DecodeLimits.default : DecodeLimits where
  maxPayloads := 1024
  maxRecordsPerPayload := 4000000
  maxRecordBytes := 64 * mib
  maxStoredPayloadBytes := 8 * gib
  maxPlainPayloadBytes := 32 * gib
  maxTotalRecords := 8000000
  maxTotalRecordBytes := 48 * gib
  maxTotalStoredBytes := 16 * gib
  maxTotalPlainBytes := 64 * gib
  maxZstdWindowLog := 30

inductive ReadError where
  | decoderPoisoned
  | multipleContent
  | unknownCompression
  | unsupportedPayloadVersion (version : Nat)
  | invalidLimits (reason : String)
  | invalidLimitRelationship (resource : String) (perPayload total : Nat)
  | limitExceeded (resource : String) (limit actual : Nat)
  | arithmeticOverflow (value : String)
  | payloadBodyOutOfBounds (offset storedSize archiveSize : Nat)
  | storedPayloadTruncated (declared actual : Nat)
  | plainPayloadTruncated (declared actual : Nat)
  | plainPayloadTooLarge (declared : Nat)
  | plainPayloadUnconsumed (consumed declared : Nat)
  | plainPayloadSizeMismatch (stored plain : Nat)
  | impossibleRecordDeclaration (records minimumBytes plainSize : Nat)
  | invalidContentReference (reason : String)
  | invalidIndexRange (start stop : Nat)
  | indexOutsideContent (stop contentSize : Nat)
  | trailingOrChangedArchive (payloadEnd initialEnd currentEnd : Nat)
  | headerDecode (error : HeaderDecodeError)
  | payloadDecode (error : PayloadDecodeError)
  | payloadChecksum (got expected : Nat)
  | io
deriving DecidableEq

def enforceLimit (resource : String) (limit actual : Nat) : Except ReadError Unit :=
  refuse (actual > limit) (.limitExceeded resource limit actual)

def checkedSum (value : String) (left right : Nat) : Except ReadError Nat :=
  if left + right < UInt64.size then .ok (left + right) else .error (.arithmeticOverflow value)

def checkedTotal (resource : String) (current additional limit : Nat) : Except ReadError Nat := do
  let actual ← checkedSum resource current additional
  enforceLimit resource limit actual
  return actual

def validateLimits (limits : DecodeLimits) : Except ReadError Unit := do
  refuse (¬ (10 ≤ limits.maxZstdWindowLog ∧ limits.maxZstdWindowLog ≤ 31))
    (.invalidLimits "max_zstd_window_log must be between 10 and 31")
  refuse (limits.maxStoredPayloadBytes > limits.maxTotalStoredBytes)
    (.invalidLimitRelationship "stored payload bytes" limits.maxStoredPayloadBytes limits.maxTotalStoredBytes)
  refuse (limits.maxPlainPayloadBytes > limits.maxTotalPlainBytes)
    (.invalidLimitRelationship "plain payload bytes" limits.maxPlainPayloadBytes limits.maxTotalPlainBytes)
  refuse (limits.maxRecordBytes > limits.maxTotalRecordBytes)
    (.invalidLimitRelationship "record bytes" limits.maxRecordBytes limits.maxTotalRecordBytes)
  refuse (limits.maxRecordsPerPayload > limits.maxTotalRecords)
    (.invalidLimitRelationship "record count" limits.maxRecordsPerPayload limits.maxTotalRecords)

def maxArchiveBytes (limits : DecodeLimits) : Except ReadError Nat := do
  let payloadHeaders := limits.maxPayloads * payloadHeaderSize
  refuse (UInt64.size ≤ payloadHeaders) (.arithmeticOverflow "maximum payload-header bytes")
  let headers ← checkedSum "maximum archive bytes" stoneHeaderSize payloadHeaders
  checkedSum "maximum archive bytes" headers limits.maxTotalStoredBytes

/-- What the payloads so far add up to. -/
structure DecodeState where
  records : Nat
  recordBytes : Nat
  storedBytes : Nat
  plainBytes : Nat
  contentSeen : Bool
  contentPlainSize : Option Nat
  maxIndexEnd : Nat

def DecodeState.start : DecodeState := ⟨0, 0, 0, 0, false, none, 0⟩

def PayloadKind.isRecordPayload : PayloadKind → Bool
  | .metadata | .layout | .index | .attributes => true
  | .content | .unknown => false

def minimumPerRecord : PayloadKind → Nat
  | .metadata => 8
  | .layout | .index => 32
  | .attributes => 16
  | .content | .unknown => 0

def validateMinimumRecordBytes (header : PayloadHeader) : Except ReadError Unit := do
  let minimum := header.numRecords * minimumPerRecord header.kind
  refuse (UInt64.size ≤ minimum) (.arithmeticOverflow "minimum record bytes")
  refuse (minimum > header.plainSize) (.impossibleRecordDeclaration header.numRecords minimum header.plainSize)

/-- Records are counted once more, by their bytes. -/
def DecodeState.countRecordBytes (state : DecodeState) (header : PayloadHeader)
    (limits : DecodeLimits) : Except ReadError DecodeState :=
  if header.kind.isRecordPayload then do
    let recordBytes ← checkedTotal "aggregate record bytes" state.recordBytes header.plainSize
      limits.maxTotalRecordBytes
    validateMinimumRecordBytes header
    return { state with recordBytes := recordBytes }
  else .ok state

/-- There is one content at most, and it holds every index seen before it. -/
def DecodeState.countContent (state : DecodeState) (header : PayloadHeader) : Except ReadError DecodeState :=
  if header.kind = .content then do
    refuse (state.contentSeen = true) .multipleContent
    refuse (state.maxIndexEnd > header.plainSize) (.indexOutsideContent state.maxIndexEnd header.plainSize)
    return { state with contentSeen := true, contentPlainSize := some header.plainSize }
  else .ok state

def DecodeState.admitHeader (state : DecodeState) (header : PayloadHeader)
    (limits : DecodeLimits) : Except ReadError DecodeState := do
  refuse (header.kind ≠ .unknown ∧ header.version ≠ 1) (.unsupportedPayloadVersion header.version)
  enforceLimit "records per payload" limits.maxRecordsPerPayload header.numRecords
  enforceLimit "stored payload bytes" limits.maxStoredPayloadBytes header.storedSize
  enforceLimit "plain payload bytes" limits.maxPlainPayloadBytes header.plainSize
  let records ← checkedTotal "aggregate record count" state.records header.numRecords limits.maxTotalRecords
  let storedBytes ← checkedTotal "aggregate stored payload bytes" state.storedBytes
    header.storedSize limits.maxTotalStoredBytes
  let plainBytes ← checkedTotal "aggregate plain payload bytes" state.plainBytes header.plainSize
    limits.maxTotalPlainBytes
  let state := { state with
    records := records, storedBytes := storedBytes, plainBytes := plainBytes }
  let state ← state.countRecordBytes header limits
  let state ← state.countContent header
  refuse (header.compression = .none ∧ header.storedSize ≠ header.plainSize)
    (.plainPayloadSizeMismatch header.storedSize header.plainSize)
  return state

def DecodeState.admitIndices (state : DecodeState) : List IndexRecord → Except ReadError DecodeState
  | [] => .ok state
  | record :: rest => do
    refuse (record.stop < record.start) (.invalidIndexRange record.start.toNat record.stop.toNat)
    let state := { state with maxIndexEnd := max state.maxIndexEnd record.stop.toNat }
    match state.contentPlainSize with
    | some contentSize =>
      refuse (record.stop.toNat > contentSize) (.indexOutsideContent record.stop.toNat contentSize)
    | none => pure ()
    state.admitIndices rest

/-- A content payload is not decoded with the others; its body is where it starts. -/
inductive DecodedPayload where
  | metadata (header : PayloadHeader) (records : List MetaRecord)
  | attributes (header : PayloadHeader) (records : List AttributeRecord)
  | layout (header : PayloadHeader) (records : List LayoutRecord)
  | index (header : PayloadHeader) (records : List IndexRecord)
  | content (header : PayloadHeader) (offset : Nat)
  | unknown (header : PayloadHeader)
  | unknownCompression (header : PayloadHeader)
deriving DecidableEq

def DecodedPayload.header : DecodedPayload → PayloadHeader
  | metadata header _ | attributes header _ | layout header _ | index header _ => header
  | content header _ => header
  | unknown header | unknownCompression header => header

section Bodies

variable (zstd : Zstd) (xxh3 : Xxh3)

def payloadPlain (limits : DecodeLimits) (compression : Compression) (stored : List UInt8) :
    Except ReadError (List UInt8) :=
  match compression with
  | .none => .ok stored
  | .zstd => okOr (zstd.decompress limits.maxZstdWindowLog stored) .io
  | .unknown => .error .unknownCompression

/-- A failure of the reader that concerns the declared size is told as such. -/
def sizeError : PayloadDecodeError → ReadError
  | .io (.reader (.expandsBeyond declared)) => .plainPayloadTooLarge declared
  | .io (.reader (.endedEarly declared emitted)) => .plainPayloadTruncated declared emitted
  | error => .payloadDecode error

/-- Probes for one more byte: there may be none, declared or not. -/
def finishExact (reader : BoundedReader) : Except ReadError Unit :=
  if reader.emitted = reader.declared then
    refuse (reader.rest ≠ []) (.plainPayloadTooLarge reader.declared)
  else if reader.rest = [] then .error (.plainPayloadTruncated reader.declared reader.emitted)
  else .error (.plainPayloadUnconsumed reader.emitted reader.declared)

/-- The stored bytes are drained to their declared size and held against the checksum. -/
def validateStored (header : PayloadHeader) (stored : List UInt8) : Except ReadError Unit := do
  refuse (stored.length ≠ header.storedSize) (.storedPayloadTruncated header.storedSize stored.length)
  let got := (xxh3.digest stored).toNat
  let expected := fromBigEndian header.checksum
  refuse (got ≠ expected) (.payloadChecksum got expected)

def decodeRecordBody (ρ : Type) [Record ρ] (limits : DecodeLimits) (header : PayloadHeader)
    (stored : List UInt8) : Except ReadError (List ρ) := do
  let plain ← payloadPlain zstd limits header.compression stored
  let (records, reader) ← (decodeRecords limits.maxRecordBytes header.numRecords
    ⟨plain, header.plainSize, 0, limits.maxRecordBytes, 0⟩).mapError sizeError
  finishExact reader
  validateStored xxh3 header stored
  return records

/-- What follows a header that was let through: the body, by the kind of payload. -/
def decodeBody (limits : DecodeLimits) (header : PayloadHeader) (offset : Nat)
    (stored : List UInt8) (state : DecodeState) :
    Except ReadError (DecodedPayload × DecodeState) := do
  if header.compression = .unknown then
    validateStored xxh3 header stored
    return (.unknownCompression header, state)
  match header.kind with
  | .metadata => do
    let records ← decodeRecordBody zstd xxh3 MetaRecord limits header stored
    return (.metadata header records, state)
  | .layout => do
    let records ← decodeRecordBody zstd xxh3 LayoutRecord limits header stored
    return (.layout header records, state)
  | .index => do
    let records ← decodeRecordBody zstd xxh3 IndexRecord limits header stored
    let state ← state.admitIndices records
    return (.index header records, state)
  | .attributes => do
    let records ← decodeRecordBody zstd xxh3 AttributeRecord limits header stored
    return (.attributes header records, state)
  | .content => do
    validateStored xxh3 header stored
    return (.content header offset, state)
  | .unknown => do
    validateStored xxh3 header stored
    return (.unknown header, state)

/-- Decodes the payload at a position; also where the next one starts. -/
def decodePayload (limits : DecodeLimits) (archive : List UInt8) (position : Nat)
    (state : DecodeState) : Except ReadError (DecodedPayload × Nat × DecodeState) := do
  let header ← okOr (PayloadHeader.decode (archive.drop position)) (.payloadDecode (.io (.reader .endOfStream)))
  let state ← state.admitHeader header limits
  let bodyOffset := position + payloadHeaderSize
  let bodyEnd ← checkedSum "payload body end" bodyOffset header.storedSize
  refuse (bodyEnd > archive.length) (.payloadBodyOutOfBounds bodyOffset header.storedSize archive.length)
  let stored := (archive.drop bodyOffset).take header.storedSize
  let (payload, state) ← decodeBody zstd xxh3 limits header bodyOffset stored state
  return (payload, bodyEnd, state)

end Bodies

section Archives

structure StoneReader where
  header : StoneHeader
  archive : List UInt8
  limits : DecodeLimits
deriving DecidableEq

def verifyArchiveEnd (archive : List UInt8) (position : Nat) : Except ReadError Unit :=
  refuse (position ≠ archive.length) (.trailingOrChangedArchive position archive.length archive.length)

def maxFilePosition : Nat := 2 ^ 63 - 1

def readWithLimits (archive : List UInt8) (limits : DecodeLimits) :
    Except ReadError StoneReader := do
  validateLimits limits
  let maximum ← maxArchiveBytes limits
  enforceLimit "configured maximum archive bytes" maxFilePosition maximum
  enforceLimit "archive bytes" maximum archive.length
  let header ← (StoneHeader.decode archive).mapError .headerDecode
  enforceLimit "payload count" limits.maxPayloads header.numPayloads
  if header.numPayloads = 0 then verifyArchiveEnd archive stoneHeaderSize
  return ⟨header, archive, limits⟩

def read (archive : List UInt8) : Except ReadError StoneReader := readWithLimits archive .default

variable (zstd : Zstd) (xxh3 : Xxh3)

/-- What the payload iterator yields; nothing follows a failure. -/
def payloadItems (limits : DecodeLimits) (archive : List UInt8) :
    (remaining position : Nat) → DecodeState → List (Except ReadError DecodedPayload)
  | 0, _, _ => []
  | remaining + 1, position, state =>
    let decoded := do
      let (payload, position, state) ← decodePayload zstd xxh3 limits archive position state
      if remaining = 0 then verifyArchiveEnd archive position
      return (payload, position, state)
    match decoded with
    | .error error => [.error error]
    | .ok (payload, position, state) => .ok payload :: payloadItems limits archive remaining position state

def StoneReader.payloads (reader : StoneReader) : Except ReadError (List (Except ReadError DecodedPayload)) := do
  if reader.header.numPayloads = 0 then verifyArchiveEnd reader.archive stoneHeaderSize
  return payloadItems zstd xxh3 reader.limits reader.archive reader.header.numPayloads stoneHeaderSize .start

def StoneReader.validateContentReference (reader : StoneReader) (header : PayloadHeader)
    (offset : Nat) : Except ReadError Unit := do
  refuse (header.kind ≠ .content) (.invalidContentReference "payload kind is not content")
  refuse (header.version ≠ 1) (.unsupportedPayloadVersion header.version)
  refuse (header.compression = .unknown) .unknownCompression
  enforceLimit "stored payload bytes" reader.limits.maxStoredPayloadBytes header.storedSize
  enforceLimit "plain payload bytes" reader.limits.maxPlainPayloadBytes header.plainSize
  let bodyEnd ← checkedSum "content body end" offset header.storedSize
  refuse (offset < stoneHeaderSize ∨ bodyEnd > reader.archive.length)
    (.payloadBodyOutOfBounds offset header.storedSize reader.archive.length)

/-- The bytes that unpacking a content payload writes. The copy goes on until the
declared size is out and the probe behind it finds nothing. -/
def StoneReader.unpackContent (reader : StoneReader) (header : PayloadHeader) (offset : Nat) :
    Except ReadError (List UInt8) := do
  reader.validateContentReference header offset
  let stored := (reader.archive.drop offset).take header.storedSize
  let plain ← payloadPlain zstd reader.limits header.compression stored
  refuse (header.plainSize < plain.length) (.plainPayloadTooLarge header.plainSize)
  refuse (plain.length < header.plainSize) (.plainPayloadTruncated header.plainSize plain.length)
  validateStored xxh3 header stored
  return plain

end Archives

/-- A reader with its stream and the cursor of the stateful calls. -/
structure StatefulReader where
  reader : StoneReader
  position : Nat
  nextPayload : Nat
  nextState : DecodeState
  nextFailed : Bool

/-- A fresh reader stands behind the archive's header. -/
def StatefulReader.start (reader : StoneReader) : StatefulReader := ⟨reader, stoneHeaderSize, 0, .start, false⟩

/-- One call. `pulled` is how many stored bytes a content reader took from the
stream until it was dropped, or a failing unpack until its failure. -/
inductive Call where
  | nextPayload
  | unpackContent (header : PayloadHeader) (offset pulled : Nat)
  | readContent (header : PayloadHeader) (offset pulled : Nat)
deriving DecidableEq

section Calls

variable (zstd : Zstd) (xxh3 : Xxh3)

/-- After a failure the cursor is poisoned, so where the failure left the stream and
the state is not kept. -/
def StatefulReader.next (self : StatefulReader) : Except ReadError (Option DecodedPayload) × StatefulReader :=
  if self.nextFailed then (.error .decoderPoisoned, self)
  else if self.nextPayload ≥ self.reader.header.numPayloads then (.ok none, self)
  else
    match decodePayload zstd xxh3 self.reader.limits self.reader.archive self.position self.nextState with
    | .error error => (.error error, { self with nextFailed := true })
    | .ok (payload, position, state) =>
      let self := { self with
        position := position, nextState := state, nextPayload := self.nextPayload + 1 }
      if self.nextPayload = self.reader.header.numPayloads then
        match verifyArchiveEnd self.reader.archive position with
        | .error error => (.error error, { self with nextFailed := true })
        | .ok () => (.ok (some payload), self)
      else (.ok (some payload), self)

/-- How many stored bytes a content call takes. A successful unpack drains them. -/
def Call.pulledFrom (reader : StoneReader) : Call → Nat
  | .nextPayload => 0
  | .unpackContent header offset pulled =>
    match reader.unpackContent zstd xxh3 header offset with
    | .ok _ => header.storedSize
    | .error _ => pulled
  | .readContent _ _ pulled => pulled

/-- A content call that passes its checks seeks to the body and pulls from there. -/
def StatefulReader.seekContent (self : StatefulReader) (header : PayloadHeader)
    (offset pulled : Nat) : StatefulReader :=
  match self.reader.validateContentReference header offset with
  | .error _ => self
  | .ok () => { self with position := offset + pulled }

/-- The payload a call returns, if it is a `nextPayload` that does, and the reader
behind the call. -/
def StatefulReader.perform (self : StatefulReader) (call : Call) : Option DecodedPayload × StatefulReader :=
  match call with
  | .nextPayload =>
    let (result, self) := self.next zstd xxh3
    (result.toOption.join, self)
  | .unpackContent header offset _ | .readContent header offset _ =>
    (none, self.seekContent header offset (call.pulledFrom zstd xxh3 self.reader))

def StatefulReader.returned (self : StatefulReader) : List Call → List DecodedPayload
  | [] => []
  | call :: rest =>
    let (payload, self) := self.perform zstd xxh3 call
    payload.toList ++ self.returned rest

/-- Content calls are made on content payloads that `nextPayload` returned before,
and no reader takes more than the payload's stored bytes. -/
def StatefulReader.Allows (self : StatefulReader) : List DecodedPayload → List Call → Prop
  | _, [] => True
  | before, call :: rest =>
    (match call with
      | .nextPayload => True
      | .unpackContent header offset pulled | .readContent header offset pulled =>
        .content header offset ∈ before ∧ pulled ≤ header.storedSize) ∧
      (self.perform zstd xxh3 call).2.Allows (before ++ (self.perform zstd xxh3 call).1.toList) rest

end Calls

end Cast.Stone
