import Mathlib.Data.List.DropRight
import Cast.Foundation.BigEndian
import Cast.Foundation.Decoders
import Cast.TransitionJournal.Model

/-! The four kinds of records and their wire format. An encoder is the list of
the buffers it writes, one for each write of the source; a decoder reads from
a record reader, which keeps a record within its byte limit. -/

namespace Cast.Stone

open Foundation

inductive IoError where
  | reader (failure : ReadFailure)
  | invalidUtf8
deriving DecidableEq

inductive PayloadDecodeError where
  | limitExceeded (field : String) (limit actual : Nat)
  | invalidLength (field : String) (expected actual : Nat)
  | lengthTooSmall (field : String) (minimum actual : Nat)
  | lengthOverflow (field : String)
  | io (error : IoError)
deriving DecidableEq

abbrev RecordDecoder := Decoder PayloadDecodeError

def readerFailed (failure : ReadFailure) : PayloadDecodeError := .io (.reader failure)

def readU8 : RecordDecoder UInt8 := do
  let bytes ← Decoder.bytes 1
  return UInt8.ofNat (fromBigEndian bytes)

def readU16 : RecordDecoder UInt16 := do
  let bytes ← Decoder.bytes 2
  return UInt16.ofNat (fromBigEndian bytes)

def readU32 : RecordDecoder UInt32 := do
  let bytes ← Decoder.bytes 4
  return UInt32.ofNat (fromBigEndian bytes)

def readU64 : RecordDecoder UInt64 := do
  let bytes ← Decoder.bytes 8
  return UInt64.ofNat (fromBigEndian bytes)

def readU128 : RecordDecoder (BitVec 128) := do
  let bytes ← Decoder.bytes 16
  return BitVec.ofNat 128 (fromBigEndian bytes)

/-- A declared length is held against the record's limit before it is read. -/
def ensureAdditional (field : String) (length : Nat) : RecordDecoder Unit :=
  .budget fun limit consumed =>
    if UInt64.size ≤ consumed + length then .fail (.lengthOverflow field)
    else if limit < consumed + length then .fail (.limitExceeded field limit (consumed + length))
    else pure ()

def readSizedVec (field : String) (length : Nat) : RecordDecoder (List UInt8) := do
  ensureAdditional field length
  Decoder.bytes length

def decodeUtf8 (bytes : List UInt8) : RecordDecoder String :=
  match String.fromUTF8? ⟨bytes.toArray⟩ with
  | some text => pure text
  | none => .fail (.io .invalidUtf8)

def readSizedString (field : String) (length : Nat) : RecordDecoder String := do
  ensureAdditional field length
  let bytes ← Decoder.bytes length
  decodeUtf8 bytes

/-- Drops the terminators that end a text. -/
def sanitize (text : String) : String :=
  String.ofList (text.toList.rdropWhile fun character => character == Char.ofNat 0)

/-- A record on the wire: what its encoder writes, how long it says it is, and
how it is read back. -/
class Record (ρ : Type) where
  encode : ρ → List (List UInt8)
  size : ρ → Nat
  decode : RecordDecoder ρ

structure AttributeRecord where
  key : List UInt8
  value : List UInt8
deriving DecidableEq

def AttributeRecord.encode (record : AttributeRecord) : List (List UInt8) :=
  [toBigEndian 8 record.key.length, toBigEndian 8 record.value.length, record.key, record.value]

def AttributeRecord.size (record : AttributeRecord) : Nat := 8 + 8 + record.key.length + record.value.length

def AttributeRecord.decode : RecordDecoder AttributeRecord := do
  let keyLength ← readU64
  let valueLength ← readU64
  let variableLength ← checkedSum keyLength.toNat valueLength.toNat
  ensureAdditional "attribute key and value" variableLength
  let key ← readSizedVec "attribute key" keyLength.toNat
  let value ← readSizedVec "attribute value" valueLength.toNat
  return ⟨key, value⟩
where
  checkedSum (left right : Nat) : RecordDecoder Nat :=
    if left + right < UInt64.size then pure (left + right)
    else .fail (.lengthOverflow "attribute key and value")

instance : Record AttributeRecord := ⟨AttributeRecord.encode, AttributeRecord.size, AttributeRecord.decode⟩

/-- A range of the unpacked content and the digest of the file there. -/
structure IndexRecord where
  start : UInt64
  stop : UInt64
  digest : BitVec 128
deriving DecidableEq

def IndexRecord.encode (record : IndexRecord) : List (List UInt8) :=
  [toBigEndian 8 record.start.toNat, toBigEndian 8 record.stop.toNat, toBigEndian 16 record.digest.toNat]

def IndexRecord.size (_ : IndexRecord) : Nat := 32

def IndexRecord.decode : RecordDecoder IndexRecord := do
  let start ← readU64
  let stop ← readU64
  let digest ← readU128
  return ⟨start, stop, digest⟩

instance : Record IndexRecord := ⟨IndexRecord.encode, IndexRecord.size, IndexRecord.decode⟩

inductive MetaDependency where
  | packageName
  | sharedLibrary
  | pkgConfig
  | interpreter
  | cmake
  | python
  | binary
  | systemBinary
  | pkgConfig32
  | unknown
deriving DecidableEq

def MetaDependency.toByte : MetaDependency → UInt8
  | packageName => 0
  | sharedLibrary => 1
  | pkgConfig => 2
  | interpreter => 3
  | cmake => 4
  | python => 5
  | binary => 6
  | systemBinary => 7
  | pkgConfig32 => 8
  | unknown => 255

def decodeDependency (byte : UInt8) : MetaDependency :=
  match byte.toNat with
  | 0 => .packageName
  | 1 => .sharedLibrary
  | 2 => .pkgConfig
  | 3 => .interpreter
  | 4 => .cmake
  | 5 => .python
  | 6 => .binary
  | 7 => .systemBinary
  | 8 => .pkgConfig32
  | _ => .unknown

inductive MetaTag where
  | name
  | architecture
  | version
  | summary
  | description
  | homepage
  | sourceID
  | depends
  | provides
  | conflicts
  | release
  | license
  | buildRelease
  | packageURI
  | packageHash
  | packageSize
  | buildDepends
  | sourceURI
  | sourcePath
  | sourceRef
  | unknown
deriving DecidableEq

def MetaTag.toCode : MetaTag → UInt16
  | name => 1
  | architecture => 2
  | version => 3
  | summary => 4
  | description => 5
  | homepage => 6
  | sourceID => 7
  | depends => 8
  | provides => 9
  | conflicts => 10
  | release => 11
  | license => 12
  | buildRelease => 13
  | packageURI => 14
  | packageHash => 15
  | packageSize => 16
  | buildDepends => 17
  | sourceURI => 18
  | sourcePath => 19
  | sourceRef => 20
  | unknown => 65535

def MetaTag.ofCode (code : UInt16) : MetaTag :=
  match code.toNat with
  | 1 => .name
  | 2 => .architecture
  | 3 => .version
  | 4 => .summary
  | 5 => .description
  | 6 => .homepage
  | 7 => .sourceID
  | 8 => .depends
  | 9 => .provides
  | 10 => .conflicts
  | 11 => .release
  | 12 => .license
  | 13 => .buildRelease
  | 14 => .packageURI
  | 15 => .packageHash
  | 16 => .packageSize
  | 17 => .buildDepends
  | 18 => .sourceURI
  | 19 => .sourcePath
  | 20 => .sourceRef
  | _ => .unknown

inductive MetaPrimitive where
  | int8 (value : Int8)
  | uint8 (value : UInt8)
  | int16 (value : Int16)
  | uint16 (value : UInt16)
  | int32 (value : Int32)
  | uint32 (value : UInt32)
  | int64 (value : Int64)
  | uint64 (value : UInt64)
  | string (text : String)
  | dependency (kind : MetaDependency) (text : String)
  | provider (kind : MetaDependency) (text : String)
  | unknown (data : List UInt8)
deriving DecidableEq

structure MetaRecord where
  tag : MetaTag
  primitive : MetaPrimitive
deriving DecidableEq

/-- Texts are counted with their terminator, dependencies also with their kind. -/
def MetaPrimitive.size : MetaPrimitive → Nat
  | int8 _ | uint8 _ => 1
  | int16 _ | uint16 _ => 2
  | int32 _ | uint32 _ => 4
  | int64 _ | uint64 _ => 8
  | string text => (utf8 text).length + 1
  | dependency _ text | provider _ text => (utf8 text).length + 2
  | unknown data => data.length

def MetaPrimitive.kind : MetaPrimitive → UInt8
  | int8 _ => 1
  | uint8 _ => 2
  | int16 _ => 3
  | uint16 _ => 4
  | int32 _ => 5
  | uint32 _ => 6
  | int64 _ => 7
  | uint64 _ => 8
  | string _ => 9
  | dependency _ _ => 10
  | provider _ _ => 11
  | unknown _ => 255

def MetaPrimitive.encode : MetaPrimitive → List (List UInt8)
  | int8 value => [toBigEndian 1 value.toUInt8.toNat]
  | uint8 value => [toBigEndian 1 value.toNat]
  | int16 value => [toBigEndian 2 value.toUInt16.toNat]
  | uint16 value => [toBigEndian 2 value.toNat]
  | int32 value => [toBigEndian 4 value.toUInt32.toNat]
  | uint32 value => [toBigEndian 4 value.toNat]
  | int64 value => [toBigEndian 8 value.toUInt64.toNat]
  | uint64 value => [toBigEndian 8 value.toNat]
  | string text => [utf8 text, [0]]
  | dependency kind text | provider kind text => [toBigEndian 1 kind.toByte.toNat, utf8 text, [0]]
  | unknown data => [data]

def MetaRecord.encode (record : MetaRecord) : List (List UInt8) :=
  [toBigEndian 4 record.primitive.size, toBigEndian 2 record.tag.toCode.toNat,
    toBigEndian 1 record.primitive.kind.toNat, [0]] ++ record.primitive.encode

def MetaRecord.size (record : MetaRecord) : Nat := 4 + 2 + 1 + 1 + record.primitive.size

def requireLength (length expected : Nat) : RecordDecoder Unit :=
  if length = expected then pure ()
  else .fail (.invalidLength "metadata primitive" expected length)

/-- A dependency or a provider: one byte of kind, then the text. -/
def decodeRelation (length : Nat) : RecordDecoder (MetaDependency × String) := do
  if length = 0 then
    .fail (.lengthTooSmall "metadata dependency/provider" 1 0)
  else
    let kind ← readU8
    let text ← readSizedString "metadata dependency/provider string" (length - 1)
    return (decodeDependency kind, sanitize text)

def MetaPrimitive.decode (length : Nat) (kind : UInt8) : RecordDecoder MetaPrimitive :=
  match kind.toNat with
  | 1 => do
    requireLength length 1
    return .int8 (← readU8).toInt8
  | 2 => do
    requireLength length 1
    return .uint8 (← readU8)
  | 3 => do
    requireLength length 2
    return .int16 (← readU16).toInt16
  | 4 => do
    requireLength length 2
    return .uint16 (← readU16)
  | 5 => do
    requireLength length 4
    return .int32 (← readU32).toInt32
  | 6 => do
    requireLength length 4
    return .uint32 (← readU32)
  | 7 => do
    requireLength length 8
    return .int64 (← readU64).toInt64
  | 8 => do
    requireLength length 8
    return .uint64 (← readU64)
  | 9 => do
    let text ← readSizedString "metadata string" length
    return .string (sanitize text)
  | 10 => do
    let (kind, text) ← decodeRelation length
    return .dependency kind text
  | 11 => do
    let (kind, text) ← decodeRelation length
    return .provider kind text
  | _ => do
    let data ← readSizedVec "unknown metadata primitive" length
    return .unknown data

def MetaRecord.decode : RecordDecoder MetaRecord := do
  let length ← readU32
  let tag ← readU16
  let kind ← readU8
  let _padding ← Decoder.bytes 1
  ensureAdditional "metadata primitive" length.toNat
  let primitive ← MetaPrimitive.decode length.toNat kind
  return ⟨.ofCode tag, primitive⟩

instance : Record MetaRecord := ⟨MetaRecord.encode, MetaRecord.size, MetaRecord.decode⟩

inductive LayoutFileType where
  | regular
  | symlink
  | directory
  | characterDevice
  | blockDevice
  | fifo
  | socket
  | unknown

def LayoutFileType.toByte : LayoutFileType → UInt8
  | regular => 1
  | symlink => 2
  | directory => 3
  | characterDevice => 4
  | blockDevice => 5
  | fifo => 6
  | socket => 7
  | unknown => 255

def LayoutFileType.ofByte (byte : UInt8) : LayoutFileType :=
  match byte.toNat with
  | 1 => .regular
  | 2 => .symlink
  | 3 => .directory
  | 4 => .characterDevice
  | 5 => .blockDevice
  | 6 => .fifo
  | 7 => .socket
  | _ => .unknown

inductive LayoutFile where
  | regular (hash : BitVec 128) (target : String)
  | symlink (source target : String)
  | directory (target : String)
  | characterDevice (target : String)
  | blockDevice (target : String)
  | fifo (target : String)
  | socket (target : String)
  | unknown (source target : String)
deriving DecidableEq

def LayoutFile.source : LayoutFile → List UInt8
  | regular hash _ => toBigEndian 16 hash.toNat
  | symlink source _ | unknown source _ => utf8 source
  | directory _ | characterDevice _ | blockDevice _ | fifo _ | socket _ => []

def LayoutFile.target : LayoutFile → String
  | regular _ target | symlink _ target | directory target | characterDevice target
  | blockDevice target | fifo target | socket target | unknown _ target => target

def LayoutFile.fileType : LayoutFile → LayoutFileType
  | regular _ _ => .regular
  | symlink _ _ => .symlink
  | directory _ => .directory
  | characterDevice _ => .characterDevice
  | blockDevice _ => .blockDevice
  | fifo _ => .fifo
  | socket _ => .socket
  | unknown _ _ => .unknown

structure LayoutRecord where
  uid : UInt32
  gid : UInt32
  mode : UInt32
  tag : UInt32
  file : LayoutFile
deriving DecidableEq

/-- The two lengths are cut to 16 bits. -/
def LayoutRecord.encode (record : LayoutRecord) : List (List UInt8) :=
  [toBigEndian 4 record.uid.toNat, toBigEndian 4 record.gid.toNat,
    toBigEndian 4 record.mode.toNat, toBigEndian 4 record.tag.toNat,
    toBigEndian 2 record.file.source.length, toBigEndian 2 (utf8 record.file.target).length,
    toBigEndian 1 record.file.fileType.toByte.toNat, List.replicate 11 0,
    record.file.source, utf8 record.file.target]

def LayoutRecord.size (record : LayoutRecord) : Nat :=
  4 + 4 + 4 + 4 + 2 + 2 + 1 + 11 + record.file.source.length + (utf8 record.file.target).length

def emptySourceField : LayoutFileType → String
  | .directory => "directory layout source"
  | .characterDevice => "character-device layout source"
  | .blockDevice => "block-device layout source"
  | .fifo => "FIFO layout source"
  | .socket => "socket layout source"
  | _ => "layout source"

def requireEmptySource (sourceLength : Nat) (fileType : LayoutFileType) : RecordDecoder Unit :=
  if sourceLength = 0 then pure ()
  else .fail (.invalidLength (emptySourceField fileType) 0 sourceLength)

def requireDigestLength (sourceLength : Nat) : RecordDecoder Unit :=
  if sourceLength = 16 then pure ()
  else .fail (.invalidLength "regular layout digest" 16 sourceLength)

def readTarget (targetLength : Nat) : RecordDecoder String := do
  let text ← readSizedString "layout target" targetLength
  return sanitize text

/-- The kinds that have a target and nothing else. -/
def decodeSourceless (fileType : LayoutFileType) (make : String → LayoutFile)
    (sourceLength targetLength : Nat) : RecordDecoder LayoutFile := do
  requireEmptySource sourceLength fileType
  let target ← readTarget targetLength
  return make target

/-- The kinds whose source is a text. -/
def decodeSourced (field : String) (make : String → String → LayoutFile)
    (sourceLength targetLength : Nat) : RecordDecoder LayoutFile := do
  let source ← readSizedString field sourceLength
  let target ← readTarget targetLength
  return make (sanitize source) target

def LayoutFile.decode (fileType : LayoutFileType) (sourceLength targetLength : Nat) : RecordDecoder LayoutFile :=
  match fileType with
  | .regular => do
    requireDigestLength sourceLength
    let source ← readSizedVec "regular layout digest" sourceLength
    let target ← readTarget targetLength
    return .regular (BitVec.ofNat 128 (fromBigEndian source)) target
  | .symlink => decodeSourced "symlink source" .symlink sourceLength targetLength
  | .directory => decodeSourceless .directory .directory sourceLength targetLength
  | .characterDevice => decodeSourceless .characterDevice .characterDevice sourceLength targetLength
  | .blockDevice => decodeSourceless .blockDevice .blockDevice sourceLength targetLength
  | .fifo => decodeSourceless .fifo .fifo sourceLength targetLength
  | .socket => decodeSourceless .socket .socket sourceLength targetLength
  | .unknown => decodeSourced "unknown layout source" .unknown sourceLength targetLength

def LayoutRecord.decode : RecordDecoder LayoutRecord := do
  let uid ← readU32
  let gid ← readU32
  let mode ← readU32
  let tag ← readU32
  let sourceLength ← readU16
  let targetLength ← readU16
  let fileType ← readU8
  let _padding ← Decoder.bytes 11
  ensureAdditional "layout source and target" (sourceLength.toNat + targetLength.toNat)
  let file ← LayoutFile.decode (.ofByte fileType) sourceLength.toNat targetLength.toNat
  return ⟨uid, gid, mode, tag, file⟩

instance : Record LayoutRecord := ⟨LayoutRecord.encode, LayoutRecord.size, LayoutRecord.decode⟩

section Streams

variable {ρ : Type} [Record ρ]

/-- Every buffer that encoding the records writes, in order. -/
def encodeRecords (records : List ρ) : List (List UInt8) := records.flatMap Record.encode

def recordsTotalSize (records : List ρ) : Nat := (records.map Record.size).sum

/-- Each record is read through a record reader of its own. -/
def decodeRecords (maxRecordBytes : Nat) :
    (count : Nat) → BoundedReader → Except PayloadDecodeError (List ρ × BoundedReader)
  | 0, reader => .ok ([], reader)
  | count + 1, reader => do
    let (record, reader) ← (Record.decode : RecordDecoder ρ).run readerFailed
      { reader with limit := maxRecordBytes, consumed := 0 }
    let (records, reader) ← decodeRecords maxRecordBytes count reader
    return (record :: records, reader)

end Streams

end Cast.Stone
