import Cast.Stone.ReadProperties
import Cast.Stone.WriteProperties

/-! An archive that was written, read again. The writer's side and the reader's
side meet at the sections of the archive: the encoded payloads, one behind the
other. -/

namespace Cast.Stone

open Foundation List DecodeState EncodedPayload InnerPayload

variable {offset : Nat} {encoded : EncodedPayload} {sections : List EncodedPayload}
  {payload : InnerPayload} {state after : DecodeState} {items : List DecodedPayload}

section Sections

variable (zstd : Zstd) (xxh3 : Xxh3) (limits : DecodeLimits)

/-- The sections from an offset on are let through and decoded, one behind the
other. -/
inductive Decodes : Nat → DecodeState → List EncodedPayload → List DecodedPayload → DecodeState →
    Prop where
  | nil {offset : Nat} {state : DecodeState} : Decodes offset state [] [] state
  | cons {offset : Nat} {state middle after : DecodeState} {encoded : EncodedPayload}
      {rest : List EncodedPayload} {item : DecodedPayload} {items : List DecodedPayload}
      (lets : state.Lets limits encoded.header)
      (body : decodeBody zstd xxh3 limits encoded.header (offset + payloadHeaderSize)
        encoded.content (state.adding encoded.header) = .ok (item, middle))
      (others : Decodes (offset + encoded.bytes.length) middle rest items after) :
      Decodes offset state (encoded :: rest) (item :: items) after

variable {zstd xxh3 limits}

theorem Decodes.append {middle : DecodeState}
    {first second : List EncodedPayload} {firstItems secondItems : List DecodedPayload}
    (left : Decodes zstd xxh3 limits offset state first firstItems middle)
    (right : Decodes zstd xxh3 limits (offset + (first.flatMap bytes).length) middle
      second secondItems after) :
    Decodes zstd xxh3 limits offset state (first ++ second) (firstItems ++ secondItems) after := by
  induction left with
  | nil => simpa using right
  | cons lets body others ih =>
    rw [flatMap_cons, length_append, ← Nat.add_assoc] at right
    exact .cons lets body (ih right)

theorem Decodes.split {first second : List EncodedPayload}
    (decodes : Decodes zstd xxh3 limits offset state (first ++ second) items after) :
    ∃ firstItems secondItems middle, items = firstItems ++ secondItems ∧
      Decodes zstd xxh3 limits offset state first firstItems middle ∧
      Decodes zstd xxh3 limits (offset + (first.flatMap bytes).length) middle
        second secondItems after := by
  induction first generalizing offset state items with
  | nil => exact ⟨[], items, state, rfl, .nil, by simpa using decodes⟩
  | cons encoded rest ih =>
    cases decodes with
    | cons lets body others =>
      obtain ⟨firstItems, secondItems, middle, rfl, left, right⟩ := ih others
      refine ⟨_ :: firstItems, secondItems, middle, rfl, .cons lets body left, ?_⟩
      rwa [flatMap_cons, length_append, ← Nat.add_assoc]

/-- A section is well formed when its header can be written and tells its size. -/
structure EncodedPayload.WellFormed (encoded : EncodedPayload) : Prop where
  representable : encoded.header.Representable
  storedSize : encoded.header.storedSize = encoded.content.length

theorem EncodedPayload.WellFormed.length_bytes (wellFormed : encoded.WellFormed) :
    encoded.bytes.length = payloadHeaderSize + encoded.header.storedSize := by
  rw [bytes, length_append,
    PayloadHeader.length_encode wellFormed.representable.checksum, wellFormed.storedSize]

/-- Where a section stands, its header and its body are found. -/
theorem EncodedPayload.WellFormed.found (wellFormed : encoded.WellFormed) (before rest : List UInt8) :
    PayloadHeader.decode ((before ++ (encoded.bytes ++ rest)).drop before.length) = some encoded.header ∧
      ((before ++ (encoded.bytes ++ rest)).drop (before.length + payloadHeaderSize)).take
        encoded.header.storedSize = encoded.content := by
  have headerLength := PayloadHeader.length_encode wellFormed.representable.checksum
  constructor
  · rw [drop_left, bytes, append_assoc]
    exact PayloadHeader.decode_encode wellFormed.representable _
  · simp [bytes, drop_append, drop_of_length_le, headerLength, wellFormed.storedSize]

theorem payloadItems_sections (wellFormed : ∀ encoded ∈ sections, encoded.WellFormed) (before : List UInt8)
    (small : (before ++ sections.flatMap bytes).length < UInt64.size)
    (state : DecodeState) (items : List DecodedPayload) :
    payloadItems zstd xxh3 limits (before ++ sections.flatMap bytes) sections.length
        before.length state = items.map .ok ↔
      ∃ after, Decodes zstd xxh3 limits before.length state sections items after := by
  induction sections generalizing before state items with
  | nil =>
    constructor
    · intro none
      have empty : items = [] := by
        rw [length_nil, payloadItems] at none
        exact map_eq_nil_iff.mp none.symm
      subst empty
      exact ⟨state, .nil⟩
    · intro held
      obtain ⟨after, decodes⟩ := held
      cases decodes
      rfl
  | cons encoded rest ih =>
    obtain ⟨first, others⟩ := forall_mem_cons.mp wellFormed
    have shape : before ++ (encoded :: rest).flatMap bytes =
        (before ++ encoded.bytes) ++ rest.flatMap bytes := by
      rw [flatMap_cons, append_assoc]
    have recursive := ih others (before ++ encoded.bytes) (shape ▸ small)
    obtain ⟨header, stored⟩ := first.found before (rest.flatMap bytes)
    have next : before.length + payloadHeaderSize + encoded.header.storedSize = (before ++ encoded.bytes).length := by
      rw [length_append, first.length_bytes, Nat.add_assoc]
    rw [flatMap_cons] at small ⊢
    have within : (before ++ encoded.bytes).length ≤
        (before ++ (encoded.bytes ++ rest.flatMap bytes)).length := by
      simp only [length_append]
      omega
    rw [length_cons]
    cases items with
    | nil =>
      refine iff_of_false payloadItems_ne_nil ?_
      rintro ⟨after, decodes⟩
      cases decodes
    | cons item items =>
      rw [payloadItems_eq_ok]
      simp only [decodePayload_eq_ok, header, Option.some.injEq]
      constructor
      · intro held
        obtain ⟨position, middle, ⟨_, same, lets, ends, _, _, body⟩, _, more⟩ := held
        subst same ends
        rw [stored] at body
        rw [next, ← append_assoc] at more
        obtain ⟨after, decodes⟩ := (recursive _ _).mp more
        rw [length_append] at decodes
        exact ⟨after, .cons lets body decodes⟩
      · intro held
        obtain ⟨after, decodes⟩ := held
        cases decodes with
        | @cons _ _ middle _ _ _ _ _ lets body decodes =>
          rw [← length_append] at decodes
          refine ⟨_, middle, ⟨encoded.header, rfl, lets, next, by omega, within, ?_⟩, ?_, ?_⟩
          · rw [stored]
            exact body
          · intro last
            rw [length_eq_zero_iff.mp last]
            simp
          · rw [← append_assoc]
            exact (recursive _ _).mpr ⟨after, decodes⟩

end Sections

variable {zstd : Zstd} {xxh3 : Xxh3} {limits : DecodeLimits}

/-- Every record is one the format keeps and the reader has room for. -/
def InnerPayload.Kept (limits : DecodeLimits) : InnerPayload → Prop
  | metadata records => ∀ record ∈ records,
      LawfulRecord.Kept record ∧ Record.size record ≤ limits.maxRecordBytes
  | attributes records => ∀ record ∈ records,
      LawfulRecord.Kept record ∧ Record.size record ≤ limits.maxRecordBytes
  | layout records => ∀ record ∈ records,
      LawfulRecord.Kept record ∧ Record.size record ≤ limits.maxRecordBytes
  | index records => ∀ record ∈ records,
      LawfulRecord.Kept record ∧ Record.size record ≤ limits.maxRecordBytes

def InnerPayload.decoded (header : PayloadHeader) : InnerPayload → DecodedPayload
  | metadata records => .metadata header records
  | attributes records => .attributes header records
  | layout records => .layout header records
  | index records => .index header records

def InnerPayload.indices : InnerPayload → List IndexRecord
  | index records => records
  | _ => []

def DecodeState.noting (state : DecodeState) (payload : InnerPayload) : DecodeState :=
  { state with maxIndexEnd := maxEnd state.maxIndexEnd payload.indices }

section

variable {kind : PayloadKind} {numRecords plainSize : Nat}
  (header : encoded.header = frameHeader xxh3 kind numRecords plainSize encoded.content)
include header

theorem frameHeader_fields : encoded.header.kind = kind ∧ encoded.header.numRecords = numRecords ∧
    encoded.header.plainSize = plainSize ∧ encoded.header.storedSize = encoded.content.length ∧
      encoded.header.compression = .zstd ∧ encoded.header.version = 1 := by
  rw [header]
  exact ⟨rfl, rfl, rfl, rfl, rfl, rfl⟩

theorem validateStored_frame : validateStored xxh3 encoded.header encoded.content = .ok () := by
  rw [validateStored_eq_ok, header]
  exact ⟨rfl, (fromBigEndian_toBigEndian (xxh3.digest encoded.content).toNat_lt).symm⟩

end

section

variable (wide : encoderWindowLog ≤ limits.maxZstdWindowLog)
include wide

theorem payloadPlain_frame (encodes : Encodes xxh3 zstd payload encoded) :
    payloadPlain zstd limits encoded.header.compression encoded.content = .ok payload.encode.flatten := by
  obtain ⟨_, _, _, _, compression, _⟩ := frameHeader_fields encodes.header
  rw [compression, payloadPlain, encodes.unpacks _ wide]
  rfl

theorem counted_of_decodeBody (encodes : Encodes xxh3 zstd payload encoded) {item : DecodedPayload}
    (decoded : decodeBody zstd xxh3 limits encoded.header offset encoded.content state = .ok (item, after)) :
    (counted payload.encode).length = payload.encode.flatten.length := by
  have unpacked := payloadPlain_frame wide encodes
  obtain ⟨kind, _, plainSize, _, compression, _⟩ := frameHeader_fields encodes.header
  have exact_ {ρ : Type} [Record ρ] {records : List ρ}
      (body : decodeRecordBody zstd xxh3 ρ limits encoded.header encoded.content = .ok records) :
      (counted payload.encode).length = payload.encode.flatten.length := by
    obtain ⟨plain, same, length⟩ := decodeRecordBody_plainSize body
    rw [unpacked] at same
    cases same
    rw [length, plainSize]
  simp only [decodeBody, compression, reduceCtorEq, if_false, kind] at decoded
  cases payload with
  | metadata records | attributes records | layout records | index records =>
    obtain ⟨_, body, _⟩ := bind_eq_ok.mp decoded
    exact exact_ body

theorem decodeBody_encodes (narrow : limits.maxRecordBytes < UInt32.size) (encodes : Encodes xxh3 zstd payload encoded)
    (right : (counted payload.encode).length = payload.encode.flatten.length)
    (kept : payload.Kept limits) (offset : Nat)
    (noContent : state.contentPlainSize = none)
    (ordered : ∀ record ∈ payload.indices, record.start.toNat ≤ record.stop.toNat) :
    decodeBody zstd xxh3 limits encoded.header offset encoded.content state =
      .ok (payload.decoded encoded.header, state.noting payload) := by
  have unpacked := payloadPlain_frame wide encodes
  have valid := validateStored_frame encodes.header
  obtain ⟨kind, numRecords, plainSize, _, compression, _⟩ := frameHeader_fields encodes.header
  rw [right] at plainSize
  simp only [decodeBody, compression, reduceCtorEq, if_false, kind]
  cases payload with
  | metadata records | attributes records | layout records =>
    have body := decodeRecordBody_encodeRecords narrow unpacked kept plainSize numRecords valid
    exact bind_eq_ok.mpr ⟨records, body, rfl⟩
  | index records =>
    have body := decodeRecordBody_encodeRecords narrow unpacked kept plainSize numRecords valid
    have noted : state.admitIndices records = .ok (state.noting (.index records)) :=
      DecodeState.admitIndices_eq_ok.mpr ⟨fun record member => ⟨ordered record member, by simp [noContent]⟩, rfl⟩
    exact bind_eq_ok.mpr ⟨records, body, bind_eq_ok.mpr ⟨_, noted, rfl⟩⟩

end

variable {inner : List InnerPayload}

theorem counted_of_decodes (wide : encoderWindowLog ≤ limits.maxZstdWindowLog) {encoded : List EncodedPayload}
    (encodes : Forall₂ (Encodes xxh3 zstd) inner encoded)
    (decodes : Decodes zstd xxh3 limits offset state encoded items after) :
    ∀ payload ∈ inner, (counted payload.encode).length = payload.encode.flatten.length := by
  induction encodes generalizing offset state items with
  | nil => simp
  | cons first others ih =>
    cases decodes with
    | cons lets body decodes =>
      exact forall_mem_cons.mpr ⟨counted_of_decodeBody wide first body, ih decodes⟩

/-- The totals that are still to come fit the limits. -/
structure DecodeState.Room (state : DecodeState) (limits : DecodeLimits)
    (inner : List InnerPayload) (encoded : List EncodedPayload) : Prop where
  recordsEach : ∀ payload ∈ inner, payload.numRecords ≤ limits.maxRecordsPerPayload
  plainEach : ∀ payload ∈ inner, payload.pledgedSize ≤ limits.maxPlainPayloadBytes
  storedEach : ∀ payload ∈ encoded, payload.content.length ≤ limits.maxStoredPayloadBytes
  records : state.records + (inner.map InnerPayload.numRecords).sum ≤ limits.maxTotalRecords
  recordBytes : state.recordBytes + (inner.map pledgedSize).sum ≤ limits.maxTotalRecordBytes
  plainBytes : state.plainBytes + (inner.map pledgedSize).sum ≤ limits.maxTotalPlainBytes
  storedBytes : state.storedBytes + (encoded.map fun payload => payload.content.length).sum ≤ limits.maxTotalStoredBytes

/-- The totals are numbers the machine has. -/
structure DecodeLimits.Machine (limits : DecodeLimits) : Prop where
  records : limits.maxTotalRecords < UInt64.size
  recordBytes : limits.maxTotalRecordBytes < UInt64.size
  plainBytes : limits.maxTotalPlainBytes < UInt64.size
  storedBytes : limits.maxTotalStoredBytes < UInt64.size

theorem InnerPayload.minimum_le (payload : InnerPayload) :
    payload.numRecords * minimumPerRecord payload.kind ≤ payload.pledgedSize := by
  cases payload with
  | metadata records
  | attributes records
  | layout records
  | index records => exact minimum_mul_le records

theorem InnerPayload.isRecordPayload (payload : InnerPayload) :
    payload.kind.isRecordPayload = true := by
  cases payload <;> rfl

section

variable (encodes : Encodes xxh3 zstd payload encoded)
include encodes

theorem Encodes.plainSize (right : (counted payload.encode).length = payload.encode.flatten.length) :
    encoded.header.plainSize = payload.pledgedSize := by
  rw [(frameHeader_fields encodes.header).2.2.1, right, payload.length_encode]

theorem Encodes.isRecordPayload : encoded.header.kind.isRecordPayload = true := by
  rw [encodes.header]
  exact payload.isRecordPayload

theorem Encodes.kind_ne_content : encoded.header.kind ≠ .content := by
  intro content
  have isRecord := encodes.isRecordPayload
  rw [content] at isRecord
  cases isRecord

theorem Encodes.lets (machine : limits.Machine) {rest : List EncodedPayload}
    (right : (counted payload.encode).length = payload.encode.flatten.length)
    (room : state.Room limits (payload :: inner) (encoded :: rest)) :
    state.Lets limits encoded.header := by
  obtain ⟨kind, numRecords, _, storedSize, compression, version⟩ := frameHeader_fields encodes.header
  have plainSize := encodes.plainSize right
  have minimum := payload.minimum_le
  have recordBytes := room.recordBytes
  have plainBytes := room.plainBytes
  have storedBytes := room.storedBytes
  have records := room.records
  have machineRecordBytes := machine.recordBytes
  have machinePlainBytes := machine.plainBytes
  have machineStoredBytes := machine.storedBytes
  have machineRecords := machine.records
  simp only [map_cons, sum_cons] at recordBytes plainBytes storedBytes records
  refine {
    version := fun _ => version
    numRecords := numRecords ▸ room.recordsEach payload mem_cons_self
    storedSize := storedSize ▸ room.storedEach encoded mem_cons_self
    plainSize := plainSize ▸ room.plainEach payload mem_cons_self
    records := by omega
    storedBytes := by omega
    plainBytes := by omega
    recordBytes := fun _ => ?_
    content := fun content => absurd content encodes.kind_ne_content
    uncompressed := fun uncompressed => ?_ }
  · rw [numRecords, plainSize, kind]
    omega
  · rw [compression] at uncompressed
    cases uncompressed

end

/-- The state behind payloads of records. -/
structure DecodeState.Follows (state : DecodeState) (inner : List InnerPayload)
    (encoded : List EncodedPayload) (after : DecodeState) : Prop where
  records : after.records = state.records + (inner.map InnerPayload.numRecords).sum
  plainBytes : after.plainBytes = state.plainBytes + (inner.map pledgedSize).sum
  storedBytes : after.storedBytes = state.storedBytes + (encoded.map fun payload => payload.content.length).sum
  contentSeen : after.contentSeen = state.contentSeen
  maxIndexEnd : ∀ bound, state.maxIndexEnd ≤ bound →
    (∀ payload ∈ inner, ∀ record ∈ payload.indices, record.stop.toNat ≤ bound) →
    after.maxIndexEnd ≤ bound

/-- Kept payloads that were counted right and have room are decoded as written. -/
theorem decodes_encodes (wide : encoderWindowLog ≤ limits.maxZstdWindowLog)
    (narrow : limits.maxRecordBytes < UInt32.size) (machine : limits.Machine) {encoded : List EncodedPayload}
    (encodes : Forall₂ (Encodes xxh3 zstd) inner encoded)
    (right : ∀ payload ∈ inner, (counted payload.encode).length = payload.encode.flatten.length)
    (kept : ∀ payload ∈ inner, payload.Kept limits)
    (ordered : ∀ payload ∈ inner, ∀ record ∈ payload.indices, record.start.toNat ≤ record.stop.toNat)
    (offset : Nat) (state : DecodeState) (noContent : state.contentPlainSize = none)
    (room : state.Room limits inner encoded) :
    ∃ items after, Decodes zstd xxh3 limits offset state encoded items after ∧
      Forall₂ (fun payload item => ∃ header, item = payload.decoded header) inner items ∧
      state.Follows inner encoded after := by
  induction encodes generalizing offset state with
  | nil =>
    refine ⟨[], state, .nil, .nil, rfl, rfl, rfl, rfl, ?_⟩
    intro bound within _
    exact within
  | @cons payload first inner encoded encodes others ih =>
    obtain ⟨rightFirst, rightRest⟩ := forall_mem_cons.mp right
    obtain ⟨keptFirst, keptRest⟩ := forall_mem_cons.mp kept
    obtain ⟨orderedFirst, orderedRest⟩ := forall_mem_cons.mp ordered
    have lets := encodes.lets machine rightFirst room
    have plainSize := encodes.plainSize rightFirst
    have notContent := encodes.kind_ne_content
    have isRecord := encodes.isRecordPayload
    obtain ⟨_, numRecords, _, storedSize, _⟩ := frameHeader_fields encodes.header
    have stillNoContent : (state.adding first.header).contentPlainSize = none := by
      simp [adding, notContent, noContent]
    have body := decodeBody_encodes wide narrow encodes rightFirst keptFirst
      (offset + payloadHeaderSize) stillNoContent orderedFirst
    have roomRest : ((state.adding first.header).noting payload).Room limits inner encoded := by
      obtain ⟨recordsEach, plainEach, storedEach, records, recordBytes, plainBytes, storedBytes⟩ := room
      simp only [map_cons, sum_cons] at records recordBytes plainBytes storedBytes
      refine ⟨(forall_mem_cons.mp recordsEach).2, (forall_mem_cons.mp plainEach).2,
        (forall_mem_cons.mp storedEach).2, ?_, ?_, ?_, ?_⟩
      all_goals
        simp only [noting, adding, isRecord, if_true, numRecords, plainSize, storedSize]
        omega
    obtain ⟨items, after, decodes, decoded, follows⟩ := ih rightRest keptRest orderedRest
      (offset + first.bytes.length) ((state.adding first.header).noting payload) stillNoContent
      roomRest
    refine ⟨payload.decoded first.header :: items, after, .cons lets body decodes,
      .cons ⟨_, rfl⟩ decoded, ?_, ?_, ?_, ?_, ?_⟩
    · simp [follows.records, noting, adding, numRecords, Nat.add_assoc]
    · simp [follows.plainBytes, noting, adding, plainSize, Nat.add_assoc]
    · simp [follows.storedBytes, noting, adding, storedSize, Nat.add_assoc]
    · simp [follows.contentSeen, noting, adding, notContent]
    · intro bound within indices
      obtain ⟨firstIndices, restIndices⟩ := forall_mem_cons.mp indices
      exact follows.maxIndexEnd bound (maxEnd_le_iff.mpr ⟨within, firstIndices⟩) restIndices

section Archives

theorem length_sections (wellFormed : ∀ encoded ∈ sections, encoded.WellFormed) :
    (sections.flatMap bytes).length = sections.length * payloadHeaderSize +
      (sections.map fun encoded => encoded.content.length).sum := by
  induction sections with
  | nil => rfl
  | cons encoded rest ih =>
    obtain ⟨first, others⟩ := forall_mem_cons.mp wellFormed
    rw [flatMap_cons, length_append, first.length_bytes, first.storedSize, ih others,
      length_cons, map_cons, sum_cons, Nat.add_mul]
    omega

theorem maxArchiveBytes_default : maxArchiveBytes .default = .ok (stoneHeaderSize +
      DecodeLimits.default.maxPayloads * payloadHeaderSize + DecodeLimits.default.maxTotalStoredBytes) := rfl

def sectionsArchive (fileType : FileType) (sections : List EncodedPayload) : List UInt8 :=
  StoneHeader.encode ⟨sections.length, fileType⟩ ++ sections.flatMap bytes

def sectionsReader (fileType : FileType) (sections : List EncodedPayload) : StoneReader :=
  ⟨⟨sections.length, fileType⟩, sectionsArchive fileType sections, .default⟩

variable (wellFormed : ∀ encoded ∈ sections, encoded.WellFormed) (fileType : FileType)

include wellFormed

theorem length_sectionsArchive : (sectionsArchive fileType sections).length = stoneHeaderSize +
    (sections.length * payloadHeaderSize + (sections.map fun encoded => encoded.content.length).sum) := by
  rw [sectionsArchive, length_append, StoneHeader.length_encode, length_sections wellFormed]

/-- An archive of well-formed sections is opened when there are not too many. -/
theorem read_sectionsArchive (counted : sections.length < 65536)
    (stored : (sections.map fun encoded => encoded.content.length).sum ≤
      DecodeLimits.default.maxTotalStoredBytes) {reader : StoneReader} :
    read (sectionsArchive fileType sections) = .ok reader ↔
      sections.length ≤ DecodeLimits.default.maxPayloads ∧ sectionsReader fileType sections = reader := by
  have length := length_sectionsArchive wellFormed fileType
  have decoded : StoneHeader.decode (sectionsArchive fileType sections) =
      .ok ⟨sections.length, fileType⟩ := StoneHeader.decode_encode counted _
  rw [read, readWithLimits_eq_ok]
  constructor
  · intro held
    obtain ⟨_, _, _, _, _, header, found, few, _, same⟩ := held
    rw [decoded] at found
    cases found
    exact ⟨few, same⟩
  · intro held
    obtain ⟨few, same⟩ := held
    refine ⟨rfl, _, maxArchiveBytes_default, by decide, ?_, _, decoded, few, ?_, same⟩
    · rw [length, Nat.add_assoc]
      exact Nat.add_le_add_left (Nat.add_le_add (Nat.mul_le_mul_right _ few) stored) _
    · intro none
      rw [length, length_eq_zero_iff.mp none]
      rfl

theorem payloads_sectionsReader (small : (sectionsArchive fileType sections).length < UInt64.size)
    (items : List DecodedPayload) :
    (sectionsReader fileType sections).payloads zstd xxh3 = .ok (items.map .ok) ↔
      ∃ after, Decodes zstd xxh3 .default stoneHeaderSize .start sections items after := by
  rw [StoneReader.payloads_eq_ok]
  have run := @payloadItems_sections sections zstd xxh3 .default wellFormed
    (StoneHeader.encode ⟨sections.length, fileType⟩) small .start items
  rw [StoneHeader.length_encode] at run
  refine ⟨fun ran => run.mp ran.2, fun decodes => ⟨?_, run.mpr decodes⟩⟩
  intro none
  change stoneHeaderSize = (sectionsArchive fileType sections).length
  have empty : sections = [] := length_eq_zero_iff.mp none
  rw [length_sectionsArchive wellFormed fileType, empty]
  rfl

end Archives

end Cast.Stone
