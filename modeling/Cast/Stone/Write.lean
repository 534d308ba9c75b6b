import Cast.Foundation.Writers
import Cast.Stone.Header
import Cast.Stone.Records

/-! Writing a stone archive. Bytes pass through layers of writers: one counts and
hashes what it is offered, one compresses. The layers are modelled as writers
over writers, since each takes what the one below it takes, and counts what it
was offered. -/

namespace Cast.Stone

open Foundation

/-- The compression library, as far as the archive uses it. -/
structure Zstd where
  Context : Type
  create : Context
  setPledgedSize : Context → Option Nat → Context
  setNumWorkers : Context → Nat → Context
  /-- Feeds the whole input to the frame; the buffers of output on the way. -/
  compress : Context → List UInt8 → Except String (Context × List (List UInt8))
  /-- Ends the frame and leaves the context ready for the next one. -/
  finish : Context → Except String (Context × List (List UInt8))
  /-- The plain bytes of a frame whose window is within the given logarithm. -/
  decompress : (maxWindowLog : Nat) → List UInt8 → Option (List UInt8)

/-- The hash library. A hasher is the bytes it was fed since its last reset. -/
structure Xxh3 where
  digest : List UInt8 → UInt64
  digest128 : List UInt8 → BitVec 128

/-- The library's recommended input size, one block. -/
def readSize : Nat := 131072

/-- The window every frame is compressed with, as a logarithm. -/
def encoderWindowLog : Nat := 30

inductive WriteError where
  | zstd (name : String)
  | writeZero

variable {σ : Type}

/-- Grows with every write. -/
def vecWriter : ByteWriter WriteError (List UInt8) where
  write content bytes := .ok (content ++ bytes, bytes.length)
  writeZero := .writeZero

structure DigestWriter (σ : Type) where
  inner : σ
  hashed : List UInt8
  bytes : Nat

/-- Counts and hashes all it is offered before the layer below takes its part. -/
def digestWriter (inner : ByteWriter WriteError σ) : ByteWriter WriteError (DigestWriter σ) where
  write state bytes := do
    let (next, taken) ← inner.write state.inner bytes
    return (⟨next, state.hashed ++ bytes, state.bytes + bytes.length⟩, taken)
  writeZero := .writeZero

structure ZstdWriter (zstd : Zstd) (σ : Type) where
  inner : σ
  context : zstd.Context
  plainBytes : Nat

/-- Takes at most one block of what it is offered, but counts all of it. -/
def zstdWriter (zstd : Zstd) (inner : ByteWriter WriteError σ) : ByteWriter WriteError (ZstdWriter zstd σ) where
  write state bytes := do
    let input := bytes.take readSize
    let (context, outputs) ← (zstd.compress state.context input).mapError .zstd
    let below ← inner.writeEach state.inner outputs
    return (⟨below, context, state.plainBytes + bytes.length⟩, input.length)
  writeZero := .writeZero

def finishFrame (zstd : Zstd) (inner : ByteWriter WriteError σ) (state : σ) (context : zstd.Context) :
    Except WriteError (σ × zstd.Context) := do
  let (context, outputs) ← (zstd.finish context).mapError .zstd
  let state ← inner.writeEach state outputs
  return (state, context)

inductive WritePayload where
  | metadata (records : List MetaRecord)
  | attributes (records : List AttributeRecord)
  | layout (records : List LayoutRecord)

/-- What the writer itself encodes: also the index. -/
inductive InnerPayload where
  | metadata (records : List MetaRecord)
  | attributes (records : List AttributeRecord)
  | layout (records : List LayoutRecord)
  | index (records : List IndexRecord)

def WritePayload.toInner : WritePayload → InnerPayload
  | metadata records => .metadata records
  | attributes records => .attributes records
  | layout records => .layout records

def InnerPayload.pledgedSize : InnerPayload → Nat
  | metadata records => recordsTotalSize records
  | attributes records => recordsTotalSize records
  | layout records => recordsTotalSize records
  | index records => recordsTotalSize records

def InnerPayload.numRecords : InnerPayload → Nat
  | metadata records => records.length
  | attributes records => records.length
  | layout records => records.length
  | index records => records.length

def InnerPayload.encode : InnerPayload → List (List UInt8)
  | metadata records => encodeRecords records
  | attributes records => encodeRecords records
  | layout records => encodeRecords records
  | index records => encodeRecords records

def InnerPayload.kind : InnerPayload → PayloadKind
  | metadata _ => .metadata
  | attributes _ => .attributes
  | layout _ => .layout
  | index _ => .index

structure EncodedPayload where
  header : PayloadHeader
  content : List UInt8

section Session

variable (zstd : Zstd) (xxh3 : Xxh3)

def encodePayload (payload : InnerPayload) (encoder : zstd.Context) :
    Except WriteError (EncodedPayload × zstd.Context) := do
  let context := zstd.setPledgedSize encoder (some payload.pledgedSize)
  let hashedWriter := digestWriter vecWriter
  let written ← (zstdWriter zstd hashedWriter).writeEach ⟨⟨[], [], 0⟩, context, 0⟩ payload.encode
  let (hashed, encoder) ← finishFrame zstd hashedWriter written.inner written.context
  let header : PayloadHeader := {
    storedSize := hashed.bytes
    plainSize := written.plainBytes
    checksum := toBigEndian 8 (xxh3.digest hashed.hashed).toNat
    numRecords := payload.numRecords
    version := 1
    kind := payload.kind
    compression := .zstd }
  return (⟨header, hashed.inner⟩, encoder)

structure ContentWriter where
  buffer : List UInt8
  plainSize : Nat
  storedSize : Nat
  indices : List IndexRecord
  bufferHashed : List UInt8
  encoder : zstd.Context

structure StoneWriter where
  fileType : FileType
  payloads : List EncodedPayload
  encoder : zstd.Context

def StoneWriter.new (fileType : FileType) : StoneWriter zstd := ⟨fileType, [], zstd.create⟩

variable {zstd}

def StoneWriter.addPayload (writer : StoneWriter zstd) (payload : WritePayload) :
    Except WriteError (StoneWriter zstd) := do
  let (encoded, encoder) ← encodePayload zstd xxh3 payload.toInner writer.encoder
  return { writer with payloads := writer.payloads ++ [encoded], encoder := encoder }

variable (zstd) in
/-- The content writer of `with_content`. -/
def ContentWriter.new (pledgedSize : Option Nat) (numWorkers : Nat) : ContentWriter zstd where
  buffer := []
  plainSize := 0
  storedSize := 0
  indices := []
  bufferHashed := []
  encoder := zstd.setNumWorkers (zstd.setPledgedSize zstd.create pledgedSize) numWorkers

/-- Copies one content through the index digest, the compression and the buffer
checksum. The chunks are what the copy reads at once. -/
def ContentWriter.addContent (content : ContentWriter zstd) (chunks : List (List UInt8)) :
    Except WriteError (ContentWriter zstd) := do
  let start := content.plainSize
  let zstdLayer := zstdWriter zstd (digestWriter vecWriter)
  let written ← (digestWriter zstdLayer).writeEach
    ⟨⟨⟨content.buffer, content.bufferHashed, 0⟩, content.encoder, 0⟩, [], 0⟩ chunks
  let stop := start + written.bytes
  let checksum := written.inner.inner
  let index : IndexRecord := ⟨UInt64.ofNat start, UInt64.ofNat stop, xxh3.digest128 written.hashed⟩
  return {
    buffer := checksum.inner
    plainSize := stop
    storedSize := content.storedSize + checksum.bytes
    indices := content.indices ++ [index]
    bufferHashed := checksum.hashed
    encoder := written.inner.context }

def ContentWriter.finish (content : ContentWriter zstd) : Except WriteError EncodedPayload := do
  let (hashed, _) ← finishFrame zstd (digestWriter vecWriter) ⟨content.buffer, content.bufferHashed, 0⟩ content.encoder
  let header : PayloadHeader := {
    storedSize := content.storedSize + hashed.bytes
    plainSize := content.plainSize
    checksum := toBigEndian 8 (xxh3.digest hashed.hashed).toNat
    numRecords := 0
    version := 1
    kind := .content
    compression := .zstd }
  return ⟨header, hashed.inner⟩

def EncodedPayload.bytes (payload : EncodedPayload) : List UInt8 := payload.header.encode ++ payload.content

/-- The payload count is cut to 16 bits before the content is counted. -/
def finalize (fileType : FileType) (payloads : List EncodedPayload) (content : Option EncodedPayload) : List UInt8 :=
  StoneHeader.encode ⟨payloads.length % 65536 + content.toList.length, fileType⟩ ++
    payloads.flatMap EncodedPayload.bytes ++ content.toList.flatMap EncodedPayload.bytes

end Session

section Scripts

/-- What may follow once the writer has a content buffer. -/
inductive ContentOperation where
  | addPayload (payload : WritePayload)
  | addContent (chunks : List (List UInt8))

structure ContentScript where
  pledgedSize : Option Nat
  numWorkers : Nat
  operations : List ContentOperation

/-- A whole use of the writer, from its creation to its end. -/
structure Script where
  fileType : FileType
  payloads : List WritePayload
  content : Option ContentScript

variable (zstd : Zstd) (xxh3 : Xxh3)

def StoneWriter.addPayloads (writer : StoneWriter zstd) (payloads : List WritePayload) :
    Except WriteError (StoneWriter zstd) :=
  payloads.foldlM (StoneWriter.addPayload xxh3) writer

def ContentOperation.perform (state : StoneWriter zstd × ContentWriter zstd) :
    ContentOperation → Except WriteError (StoneWriter zstd × ContentWriter zstd)
  | addPayload payload => do
    let writer ← state.1.addPayload xxh3 payload
    return (writer, state.2)
  | addContent chunks => do
    let content ← state.2.addContent xxh3 chunks
    return (state.1, content)

/-- The payloads of the finished archive and its content, each with its header. -/
def Script.encode (script : Script) : Except WriteError (List EncodedPayload × Option EncodedPayload) := do
  let writer ← (StoneWriter.new zstd script.fileType).addPayloads zstd xxh3 script.payloads
  match script.content with
  | none => return (writer.payloads, none)
  | some content => do
    let (writer, contents) ← content.operations.foldlM (ContentOperation.perform zstd xxh3)
      (writer, ContentWriter.new zstd content.pledgedSize content.numWorkers)
    let finished ← contents.finish xxh3
    let (index, _) ← encodePayload zstd xxh3 (.index contents.indices) writer.encoder
    return (writer.payloads ++ [index], some finished)

def Script.write (script : Script) : Except WriteError (List UInt8) := do
  let (payloads, content) ← script.encode zstd xxh3
  return finalize script.fileType payloads content

end Scripts

end Cast.Stone
