import Cast.Foundation.Pointwise
import Cast.Stone.ArchiveProperties
import Cast.Stone.StoringZstd

/-! The round trip through an archive. What a script of writer calls writes is
read back exactly when no buffer it hands to the writer is longer than one block
and the archive has no more payloads than the reader takes: a longer buffer is
offered to the compression more than once and counted each time, so the archive
declares more than it holds. -/

namespace Cast.Stone

open Foundation List InnerPayload

variable {contents : List (List (List UInt8))} {payloads : List EncodedPayload}
  {encoded : EncodedPayload} {content : Option EncodedPayload} {state : DecodeState}

section Statement

def DecodedPayload.Yields : DecodedPayload → WritePayload → Prop
  | .metadata _ records, .metadata written => records = written
  | .attributes _ records, .attributes written => records = written
  | .layout _ records, .layout written => records = written
  | _, _ => False

/-- The ranges follow each other from the start to the stop. -/
def Consecutive : (start : Nat) → List IndexRecord → (stop : Nat) → Prop
  | start, [], stop => start = stop
  | start, record :: rest, stop =>
    record.start.toNat = start ∧ start ≤ record.stop.toNat ∧ Consecutive record.stop.toNat rest stop

def IndexRecord.slice (record : IndexRecord) (plain : List UInt8) : List UInt8 :=
  (plain.drop record.start.toNat).take (record.stop.toNat - record.start.toNat)

variable (zstd : Zstd) (xxh3 : Xxh3)

/-- The index and the content payload hold the contents. -/
structure ContentReadsBack (reader : StoneReader) (contents : List (List UInt8))
    (index : List IndexRecord) (header : PayloadHeader) (offset : Nat) : Prop where
  partitions : Consecutive 0 index header.plainSize
  unpacks : reader.unpackContent zstd xxh3 header offset = .ok contents.flatten
  slices : Forall₂ (fun record content => record.slice contents.flatten = content ∧
    record.digest = xxh3.digest128 content) index contents

/-- Reading the archive succeeds and yields what the script wrote. -/
def Script.ReadsBack (script : Script) (archive : List UInt8) : Prop :=
  ∃ reader items, read archive = .ok reader ∧ reader.payloads zstd xxh3 = .ok (items.map .ok) ∧
    match script.content with
    | none => Forall₂ DecodedPayload.Yields items script.written
    | some _ => ∃ payloads indexHeader index header offset,
        items = payloads ++ [.index indexHeader index, .content header offset] ∧
        Forall₂ DecodedPayload.Yields payloads script.written ∧
        ContentReadsBack zstd xxh3 reader (script.contents.map flatten) index header offset

/-- The scripts the format and the reader's default limits are meant for. -/
structure Script.WithinLimits (script : Script) : Prop where
  payloadCount : script.written.length + script.content.toList.length ≤ 65534
  kept : ∀ payload ∈ script.written, payload.toInner.Kept .default
  numRecords : ∀ payload ∈ script.inner xxh3, payload.numRecords ≤ DecodeLimits.default.maxRecordsPerPayload
  plainSize : ∀ payload ∈ script.inner xxh3, payload.pledgedSize ≤ DecodeLimits.default.maxPlainPayloadBytes
  contentSize : script.contents.flatten.flatten.length ≤ DecodeLimits.default.maxPlainPayloadBytes
  totalRecords : ((script.inner xxh3).map InnerPayload.numRecords).sum ≤ DecodeLimits.default.maxTotalRecords
  totalRecordBytes : ((script.inner xxh3).map pledgedSize).sum ≤ DecodeLimits.default.maxTotalRecordBytes
  totalPlainBytes : ((script.inner xxh3).map pledgedSize).sum +
    script.contents.flatten.flatten.length ≤ DecodeLimits.default.maxTotalPlainBytes
  stored : ∀ payloads content, script.encode zstd xxh3 = .ok (payloads, content) →
    (∀ payload ∈ payloads ++ content.toList, payload.content.length ≤ DecodeLimits.default.maxStoredPayloadBytes) ∧
    ((payloads ++ content.toList).map fun payload => payload.content.length).sum ≤
      DecodeLimits.default.maxTotalStoredBytes

/-- Every buffer the script hands to the writer: those of the records and the
chunks of the contents. -/
def Script.buffers (script : Script) : List (List UInt8) :=
  (script.written.flatMap fun payload => payload.toInner.encode) ++ script.contents.flatten

/-- The archive, its index and its content counted, has no more payloads than the
reader takes, and every buffer fits one block. -/
def Script.Readable (script : Script) : Prop :=
  script.written.length + 2 * script.content.toList.length ≤ DecodeLimits.default.maxPayloads ∧
    ∀ buffer ∈ script.buffers, buffer.length ≤ readSize

end Statement

variable {items : List DecodedPayload}

section Index

theorem Consecutive.within {start stop : Nat} {index : List IndexRecord} (consecutive : Consecutive start index stop) :
    start ≤ stop ∧ ∀ record ∈ index, record.start.toNat ≤ record.stop.toNat ∧ record.stop.toNat ≤ stop := by
  induction index generalizing start with
  | nil => exact ⟨Nat.le_of_eq consecutive, by simp⟩
  | cons record rest ih =>
    obtain ⟨rfl, ordered, later⟩ := consecutive
    obtain ⟨below, others⟩ := ih later
    exact ⟨ordered.trans below, forall_mem_cons.mpr ⟨⟨ordered, below⟩, others⟩⟩

variable (xxh3 : Xxh3)

theorem indicesFrom_reads (right : ∀ chunks ∈ contents, counted chunks = chunks.flatten) (before : List UInt8)
    (small : before.length + contents.flatten.flatten.length < UInt64.size) :
    Consecutive before.length (indicesFrom xxh3 before.length contents)
        (before.length + contents.flatten.flatten.length) ∧
      Forall₂ (fun record content =>
          record.slice (before ++ (contents.map flatten).flatten) = content ∧ record.digest = xxh3.digest128 content)
        (indicesFrom xxh3 before.length contents) (contents.map flatten) := by
  induction contents generalizing before with
  | nil => exact ⟨rfl, .nil⟩
  | cons chunks rest ih =>
    obtain ⟨first, others⟩ := forall_mem_cons.mp right
    rw [flatten_cons, flatten_append, length_append, ← Nat.add_assoc] at small ⊢
    have startFits : (UInt64.ofNat before.length).toNat = before.length := UInt64.toNat_ofNat_of_lt' (by omega)
    have stopFits : (UInt64.ofNat (before.length + chunks.flatten.length)).toNat =
        before.length + chunks.flatten.length := UInt64.toNat_ofNat_of_lt' (by omega)
    obtain ⟨consecutive, slices⟩ := ih others (before ++ chunks.flatten) (by simpa using small)
    rw [length_append] at consecutive slices
    rw [append_assoc] at slices
    simp only [indicesFrom, first, Consecutive, startFits, stopFits, map_cons, flatten_cons]
    refine ⟨⟨trivial, Nat.le_add_right _ _, consecutive⟩, .cons ⟨?_, rfl⟩ slices⟩
    simp only [IndexRecord.slice, startFits, stopFits]
    rw [drop_left, Nat.add_sub_cancel_left, take_left]

end Index

variable {zstd : Zstd} {xxh3 : Xxh3}

/-- Even counted too often, the bytes of a payload within the limits are a number
the header can carry. -/
theorem length_counted_lt {buffers : List (List UInt8)}
    (bounded : buffers.flatten.length ≤ DecodeLimits.default.maxPlainPayloadBytes) :
    (counted buffers).length < UInt64.size := by
  have positive : 0 < readSize := by decide
  calc (counted buffers).length ≤ buffers.flatten.length * (DecodeLimits.default.maxPlainPayloadBytes / readSize + 1) :=
        length_offersEach_le positive bounded
    _ ≤ DecodeLimits.default.maxPlainPayloadBytes * (DecodeLimits.default.maxPlainPayloadBytes / readSize + 1) :=
        Nat.mul_le_mul_right _ bounded
    _ < UInt64.size := by decide

theorem wellFormed_frame {kind : PayloadKind} {numRecords plainSize : Nat}
    (header : encoded.header = frameHeader xxh3 kind numRecords plainSize encoded.content)
    (few : numRecords ≤ DecodeLimits.default.maxRecordsPerPayload)
    (plain : plainSize < UInt64.size)
    (stored : encoded.content.length ≤ DecodeLimits.default.maxStoredPayloadBytes) :
    encoded.WellFormed := by
  have recordBound : DecodeLimits.default.maxRecordsPerPayload < UInt32.size := by decide
  have storedBound : DecodeLimits.default.maxStoredPayloadBytes < UInt64.size := by decide
  refine ⟨⟨?_, ?_, ?_, ?_, ?_⟩, ?_⟩
  all_goals rw [header]
  · exact Nat.lt_of_le_of_lt stored storedBound
  · exact plain
  · exact length_toBigEndian 8 _
  · exact Nat.lt_of_le_of_lt few recordBound
  · exact (by decide : 1 < 65536)
  · rfl

theorem index_buffers_fit (records : List IndexRecord) :
    ∀ buffer ∈ (InnerPayload.index records).encode, buffer.length ≤ readSize := by
  intro buffer member
  simp only [encode, encodeRecords, mem_flatMap, Record.encode, IndexRecord.encode] at member
  obtain ⟨record, _, member⟩ := member
  simp only [mem_cons, not_mem_nil, or_false] at member
  obtain rfl | rfl | rfl := member <;> simp [readSize]

variable (xxh3) in
/-- The counters of the whole script are right when every buffer fits one block. -/
theorem Script.counted_iff (script : Script) : ((∀ payload ∈ script.inner xxh3,
        (counted payload.encode).length = payload.encode.flatten.length) ∧
      (counted script.contents.flatten).length = script.contents.flatten.flatten.length) ↔
      ∀ buffer ∈ script.buffers, buffer.length ≤ readSize := by
  simp only [length_counted_eq_iff, Script.buffers, forall_mem_append, Script.inner, forall_mem_map, forall_mem_flatMap]
  exact and_congr_left' (and_iff_left fun _ _ => index_buffers_fit _)

theorem Script.length_inner (script : Script) :
    (script.inner xxh3).length = script.written.length + script.content.toList.length := by
  simp [Script.inner]

theorem decodeBody_content (encodes : EncodesContent xxh3 zstd contents encoded) (limits : DecodeLimits) (offset : Nat)
    (state : DecodeState) :
    decodeBody zstd xxh3 limits encoded.header offset encoded.content state =
      .ok (.content encoded.header offset, state) := by
  obtain ⟨kind, _, _, _, compression, _⟩ := frameHeader_fields encodes.header
  simp only [decodeBody, compression, reduceCtorEq, if_false, kind]
  exact bind_eq_ok.mpr ⟨(), validateStored_frame encodes.header, rfl⟩

/-- Unpacking the last section gives the contents exactly when they were counted
right. -/
theorem unpackContent_eq_ok (encodes : EncodesContent xxh3 zstd contents encoded)
    (wellFormed : ∀ section_ ∈ payloads ++ [encoded], section_.WellFormed) (fileType : FileType)
    (small : (sectionsArchive fileType (payloads ++ [encoded])).length < UInt64.size)
    (stored : encoded.content.length ≤ DecodeLimits.default.maxStoredPayloadBytes)
    (plain : encoded.header.plainSize ≤ DecodeLimits.default.maxPlainPayloadBytes)
    {result : List UInt8} :
    (sectionsReader fileType (payloads ++ [encoded])).unpackContent zstd xxh3 encoded.header
        (stoneHeaderSize + (payloads.flatMap EncodedPayload.bytes).length + payloadHeaderSize) = .ok result ↔
      (counted contents.flatten).length = contents.flatten.flatten.length ∧ contents.flatten.flatten = result := by
  have last : encoded.WellFormed := wellFormed encoded (by simp)
  let header : StoneHeader := ⟨(payloads ++ [encoded]).length, fileType⟩
  let before := header.encode ++ payloads.flatMap EncodedPayload.bytes
  have shape : sectionsArchive fileType (payloads ++ [encoded]) = before ++ (encoded.bytes ++ []) := by
    simp [sectionsArchive, before, header]
  have starts : before.length = stoneHeaderSize + (payloads.flatMap EncodedPayload.bytes).length := by
    simp [before]
  have length : (sectionsArchive fileType (payloads ++ [encoded])).length =
      before.length + payloadHeaderSize + encoded.header.storedSize := by
    rw [shape, append_nil, length_append, last.length_bytes, Nat.add_assoc]
  obtain ⟨kind, _, plainSize, storedSize, compression, version⟩ := frameHeader_fields encodes.header
  have found := (last.found before []).2
  rw [← shape, starts] at found
  rw [length, starts] at small
  rw [starts] at length
  have valid := validateStored_frame encodes.header
  have unpacked : payloadPlain zstd .default encoded.header.compression encoded.content =
      .ok contents.flatten.flatten := by
    rw [compression, payloadPlain, encodes.unpacks _ (by decide)]
    rfl
  have referenced : (sectionsReader fileType (payloads ++ [encoded])).validateContentReference
      encoded.header (stoneHeaderSize + (payloads.flatMap EncodedPayload.bytes).length +
        payloadHeaderSize) = .ok () := by
    simp only [StoneReader.validateContentReference, bind_eq_ok, refuse_eq_ok, enforceLimit_eq_ok,
      exists_check, checkedSum_eq_ok, kind, version, compression]
    refine ⟨by simp, by simp, by simp, storedSize ▸ stored, plain, _, ⟨small, rfl⟩, ?_⟩
    have ends : (sectionsReader fileType (payloads ++ [encoded])).archive.length = _ := length
    omega
  simp only [StoneReader.unpackContent, bind_eq_ok, referenced, exists_check, true_and,
    show (sectionsReader fileType (payloads ++ [encoded])).archive =
      sectionsArchive fileType (payloads ++ [encoded]) from rfl,
    show (sectionsReader fileType (payloads ++ [encoded])).limits = .default from rfl, found,
    unpacked, Except.ok.injEq, exists_eq_left', refuse_eq_ok, Nat.not_lt, valid, pure_eq_ok,
    plainSize]
  exact and_assoc.symm.trans (and_congr_left' (and_comm.trans Nat.le_antisymm_iff.symm))

variable {script : Script}

theorem yields_of_decoded {written : List WritePayload}
    (decoded : Forall₂ (fun payload item => ∃ header, item = InnerPayload.decoded header payload)
      (written.map WritePayload.toInner) items) :
    Forall₂ DecodedPayload.Yields items written := by
  rw [forall₂_map_left_iff] at decoded
  refine (decoded.imp ?_).flip
  intro payload item found
  obtain ⟨header, rfl⟩ := found
  cases payload <;> rfl

namespace Script.WithinLimits

variable (within : script.WithinLimits zstd xxh3)

include within

theorem inner_kept : ∀ payload ∈ script.inner xxh3, payload.Kept .default := by
  intro payload member
  obtain written | index := mem_append.mp member
  · obtain ⟨added, found, rfl⟩ := mem_map.mp written
    exact within.kept added found
  · obtain ⟨_, _, rfl⟩ := mem_map.mp index
    intro record _
    exact ⟨trivial, (by decide : 32 ≤ DecodeLimits.default.maxRecordBytes)⟩

variable (ran : script.encode zstd xxh3 = .ok (payloads, content))

include ran

theorem room : DecodeState.start.Room .default (script.inner xxh3) payloads := by
  obtain ⟨storedEach, storedSum⟩ := within.stored payloads content ran
  rw [map_append, sum_append] at storedSum
  have plain := within.totalPlainBytes
  refine ⟨within.numRecords, within.plainSize, ?_, ?_, ?_, ?_, ?_⟩
  · intro payload member
    exact storedEach payload (mem_append_left _ member)
  all_goals simp only [DecodeState.start, Nat.zero_add]
  · exact within.totalRecords
  · exact within.totalRecordBytes
  · omega
  · omega

theorem payloads_wellFormed (encodes : Forall₂ (Encodes xxh3 zstd) (script.inner xxh3) payloads) :
    ∀ encoded ∈ payloads, encoded.WellFormed := by
  intro encoded member
  obtain ⟨payload, inside, held⟩ := exists_left_of_mem encodes member
  refine wellFormed_frame held.header (within.numRecords payload inside) ?_ ?_
  · apply length_counted_lt
    rw [payload.length_encode]
    exact within.plainSize payload inside
  · exact (within.stored payloads content ran).1 encoded (mem_append_left _ member)

theorem small (fileType : FileType) (wellFormed : ∀ encoded ∈ payloads ++ content.toList, encoded.WellFormed)
    (counted : (payloads ++ content.toList).length ≤ 65535) :
    (sectionsArchive fileType (payloads ++ content.toList)).length < UInt64.size := by
  have stored := (within.stored payloads content ran).2
  have total : stoneHeaderSize + (65535 * payloadHeaderSize +
      DecodeLimits.default.maxTotalStoredBytes) < UInt64.size := by decide
  have headers := Nat.mul_le_mul_right payloadHeaderSize counted
  rw [length_sectionsArchive wellFormed]
  omega

end Script.WithinLimits

theorem index_last {inner : List InnerPayload} {records : List IndexRecord}
    (decoded : Forall₂ (fun payload item => ∃ header, item = InnerPayload.decoded header payload)
      (inner ++ [.index records]) items) :
    ∃ before header, items = before ++ [.index header records] ∧
      Forall₂ (fun payload item => ∃ header, item = InnerPayload.decoded header payload) inner before := by
  have front := (forall₂_take_append _ _ _ decoded.flip).flip
  have back := (forall₂_drop_append _ _ _ decoded.flip).flip
  cases last : items.drop inner.length with
  | nil =>
    rw [last] at back
    cases back
  | cons item rest =>
    rw [last] at back
    cases back with
    | cons found others =>
      cases others
      obtain ⟨header, rfl⟩ := found
      have whole := take_append_drop inner.length items
      rw [last] at whole
      exact ⟨_, header, whole.symm, front⟩

theorem content_item {offset : Nat} {after : DecodeState} (encodes : EncodesContent xxh3 zstd contents encoded)
    {limits : DecodeLimits}
    (decodes : Decodes zstd xxh3 limits offset state [encoded] items after) :
    items = [.content encoded.header (offset + payloadHeaderSize)] ∧ state.Lets limits encoded.header := by
  cases decodes with
  | cons lets body others =>
    cases others
    rw [decodeBody_content encodes] at body
    cases body
    exact ⟨rfl, lets⟩

section

variable (within : script.WithinLimits zstd xxh3)
include within

theorem EncodesContent.lets (encodesContent : EncodesContent xxh3 zstd script.contents encoded)
    (ran : script.encode zstd xxh3 = .ok (payloads, some encoded))
    (right : (counted script.contents.flatten).length = script.contents.flatten.flatten.length)
    (follows : DecodeState.start.Follows (script.inner xxh3) payloads state)
    (indices : ∀ payload ∈ script.inner xxh3, ∀ record ∈ payload.indices,
      record.stop.toNat ≤ script.contents.flatten.flatten.length) :
    state.Lets .default encoded.header := by
  obtain ⟨storedEach, stored⟩ := within.stored payloads (some encoded) ran
  have storedContent := storedEach encoded (by simp)
  have contentSize := within.contentSize
  have records := within.totalRecords
  have plainBytes := within.totalPlainBytes
  have machineRecords : DecodeLimits.default.maxTotalRecords < UInt64.size := by decide
  have machineStored : DecodeLimits.default.maxTotalStoredBytes < UInt64.size := by decide
  have machinePlain : DecodeLimits.default.maxTotalPlainBytes < UInt64.size := by decide
  have followsRecords := follows.records
  have followsPlain := follows.plainBytes
  have followsStored := follows.storedBytes
  simp only [Option.toList_some, map_append, sum_append, map_cons, map_nil, sum_singleton] at stored
  simp only [DecodeState.start, Nat.zero_add] at followsRecords followsPlain followsStored
  rw [encodesContent.header, right]
  refine ⟨fun _ => rfl, Nat.zero_le _, storedContent, contentSize, ?_, ?_, ?_, ?_, ?_, ?_⟩
  all_goals simp only [frameHeader]
  · omega
  · omega
  · omega
  · exact fun isRecord => absurd isRecord (by decide)
  · exact fun _ => ⟨follows.contentSeen, follows.maxIndexEnd _ (Nat.zero_le _) indices⟩
  · exact fun uncompressed => absurd uncompressed (by decide)

variable (encodes : Forall₂ (Encodes xxh3 zstd) (script.inner xxh3) payloads)
include encodes

theorem readsBack_without_content (given : script.content = none)
    (ran : script.encode zstd xxh3 = .ok (payloads, none)) :
    script.ReadsBack zstd xxh3 (sectionsArchive script.fileType payloads) ↔ script.Readable := by
  have count : payloads.length = script.written.length := by
    rw [← encodes.length_eq, Script.length_inner, given]
    rfl
  have most := within.payloadCount
  rw [given, Option.toList_none, length_nil, Nat.add_zero] at most
  have wellFormed := within.payloads_wellFormed ran encodes
  have stored := (within.stored payloads none ran).2
  have small := within.small ran script.fileType
    (by simpa using wellFormed) (by simp only [Option.toList_none, append_nil]; omega)
  simp only [Option.toList_none, append_nil] at stored small
  have noContents : script.contents = [] := by simp [Script.contents, given]
  have rightContents : (counted script.contents.flatten).length =
      script.contents.flatten.flatten.length := by
    rw [noContents]
    rfl
  simp only [Script.ReadsBack, given, read_sectionsArchive wellFormed script.fileType (by omega)
    stored, Script.Readable, ← Script.counted_iff xxh3 script, rightContents, and_true,
    Option.toList_none, length_nil, Nat.mul_zero, Nat.add_zero, ← count]
  constructor
  · intro held
    obtain ⟨reader, items, ⟨few, same⟩, yielded, _⟩ := held
    subst same
    obtain ⟨after, decodes⟩ := (payloads_sectionsReader wellFormed script.fileType small items).mp yielded
    exact ⟨few, counted_of_decodes (by decide) encodes decodes⟩
  · intro held
    obtain ⟨few, right⟩ := held
    have noIndex : ∀ payload ∈ script.inner xxh3, payload.indices = [] := by
      intro payload member
      simp only [Script.inner, given, Option.toList_none, map_nil, append_nil] at member
      obtain ⟨added, _, rfl⟩ := mem_map.mp member
      cases added <;> rfl
    obtain ⟨items, after, decodes, decoded, _⟩ := decodes_encodes (by decide) (by decide)
      ⟨by decide, by decide, by decide, by decide⟩ encodes right within.inner_kept
      (fun payload member record inside => by simp [noIndex payload member] at inside)
      stoneHeaderSize .start rfl (within.room ran)
    refine ⟨_, items, ⟨few, rfl⟩,
      (payloads_sectionsReader wellFormed script.fileType small items).mpr ⟨after, decodes⟩, ?_⟩
    simp only [Script.inner, given, Option.toList_none, map_nil, append_nil] at decoded
    exact yields_of_decoded decoded

/-- With a content the index and the content are the last two sections. -/
theorem readsBack_with_content {contentScript : ContentScript} (given : script.content = some contentScript)
    (ran : script.encode zstd xxh3 = .ok (payloads, some encoded))
    (encodesContent : EncodesContent xxh3 zstd script.contents encoded) :
    script.ReadsBack zstd xxh3 (sectionsArchive script.fileType (payloads ++ [encoded])) ↔ script.Readable := by
  have count : payloads.length = script.written.length + 1 := by
    rw [← encodes.length_eq, Script.length_inner, given]
    rfl
  have most := within.payloadCount
  rw [given, Option.toList_some, length_singleton] at most
  have sectionCount : (payloads ++ [encoded]).length = script.written.length + 2 := by
    rw [length_append, count, length_singleton]
  obtain ⟨storedEach, stored⟩ := within.stored payloads (some encoded) ran
  have storedContent := storedEach encoded (by simp)
  have wellFormedContent : encoded.WellFormed :=
    wellFormed_frame encodesContent.header (Nat.zero_le _) (length_counted_lt within.contentSize) storedContent
  have wellFormed : ∀ section_ ∈ payloads ++ [encoded], section_.WellFormed := by
    rw [forall_mem_append]
    exact ⟨within.payloads_wellFormed ran encodes, by simpa using wellFormedContent⟩
  have small := within.small ran script.fileType wellFormed (by simp only [Option.toList_some]; omega)
  simp only [Option.toList_some] at stored small
  simp only [Script.ReadsBack, given, read_sectionsArchive wellFormed script.fileType (by omega)
    stored, Script.Readable, ← Script.counted_iff xxh3 script, Option.toList_some,
    length_singleton, Nat.mul_one, sectionCount]
  constructor
  · intro held
    obtain ⟨reader, items, ⟨few, same⟩, yielded, found⟩ := held
    subst same
    obtain ⟨after, decodes⟩ := (payloads_sectionsReader wellFormed script.fileType small items).mp yielded
    obtain ⟨firstItems, lastItems, middle, split, left, right⟩ := decodes.split
    obtain ⟨lastItem, lets⟩ := content_item encodesContent right
    obtain ⟨inner, indexHeader, index, header, offset, shape, _, readsBack⟩ := found
    -- the last item is the content section, so its reference is that section
    have lasts : [DecodedPayload.content header offset] = lastItems := by
      have same : (inner ++ [.index indexHeader index]) ++ [.content header offset] =
          firstItems ++ lastItems := by rw [← split, shape]; simp
      exact (append_inj' same (by rw [lastItem]; rfl)).2
    rw [lastItem] at lasts
    cases lasts
    have unpacked := (unpackContent_eq_ok encodesContent wellFormed script.fileType small
      storedContent lets.plainSize).mp readsBack.unpacks
    exact ⟨few, counted_of_decodes (by decide) encodes left, unpacked.1⟩
  · intro held
    obtain ⟨few, right, rightContents⟩ := held
    have fits : ∀ chunks ∈ script.contents, counted chunks = chunks.flatten := by
      intro chunks member
      apply flatten_offersEach_of_fits
      intro buffer inside
      exact length_counted_eq_iff.mp rightContents buffer (mem_flatten.mpr ⟨chunks, member, inside⟩)
    have plainLimit : DecodeLimits.default.maxPlainPayloadBytes < UInt64.size := by decide
    have contentSize := within.contentSize
    obtain ⟨consecutive, slices⟩ := indicesFrom_reads xxh3 fits [] (by simp only [length_nil]; omega)
    rw [length_nil, Nat.zero_add] at consecutive
    have inner : script.inner xxh3 = script.written.map WritePayload.toInner ++
        [.index (indicesFrom xxh3 0 script.contents)] := by simp [Script.inner, given]
    have innerIndices : ∀ payload ∈ script.inner xxh3, ∀ record ∈ payload.indices,
        record.start.toNat ≤ record.stop.toNat ∧ record.stop.toNat ≤ script.contents.flatten.flatten.length := by
      rw [inner, forall_mem_append]
      refine ⟨?_, by simpa [indices] using consecutive.within.2⟩
      intro payload member
      obtain ⟨added, _, rfl⟩ := mem_map.mp member
      cases added <;> simp [WritePayload.toInner, indices]
    obtain ⟨items, middle, decodes, decoded, follows⟩ := decodes_encodes (by decide) (by decide)
      ⟨by decide, by decide, by decide, by decide⟩ encodes right within.inner_kept
      (fun payload member record inside => (innerIndices payload member record inside).1)
      stoneHeaderSize .start rfl (within.room ran)
    have lets := encodesContent.lets within ran rightContents follows
      (fun payload member record inside => (innerIndices payload member record inside).2)
    have all := decodes.append (.cons lets (decodeBody_content encodesContent _ _ _) .nil)
    rw [inner] at decoded
    obtain ⟨before, indexHeader, rfl, yielded⟩ := index_last decoded
    refine ⟨_, _, ⟨few, rfl⟩, (payloads_sectionsReader wellFormed script.fileType small _).mpr ⟨_, all⟩, ?_⟩
    refine ⟨before, indexHeader, indicesFrom xxh3 0 script.contents, encoded.header, _,
      append_assoc _ _ _, yields_of_decoded yielded, ?_, ?_, ?_⟩
    · rw [← rightContents] at consecutive
      rw [encodesContent.header]
      exact consecutive
    · rw [← flatten_flatten]
      exact (unpackContent_eq_ok encodesContent wellFormed script.fileType small storedContent
        lets.plainSize).mpr ⟨rightContents, rfl⟩
    · simpa using slices

end

theorem finalize_eq (counted : payloads.length ≤ 65534) (fileType : FileType) : finalize fileType payloads content =
      sectionsArchive fileType (payloads ++ content.toList) := by
  rw [finalize, sectionsArchive, Nat.mod_eq_of_lt (by omega), length_append, flatMap_append, append_assoc]

/-- What was written is read back exactly when the counts are right. -/
theorem readsBack_write (lawful : zstd.Lawful) (within : script.WithinLimits zstd xxh3)
    {archive : List UInt8} (written : script.write zstd xxh3 = .ok archive) :
    script.ReadsBack zstd xxh3 archive ↔ script.Readable := by
  obtain ⟨⟨payloads, content⟩, ran, same⟩ := bind_eq_ok.mp written
  cases same
  obtain ⟨encodes, found⟩ := script.encode_encodes lawful ran
  have count : payloads.length ≤ 65534 := by
    rw [← encodes.length_eq, Script.length_inner]
    exact within.payloadCount
  rw [finalize_eq count]
  obtain ⟨given, rfl⟩ | ⟨encoded, given, rfl, encodesContent⟩ := found
  · rw [Option.toList_none, append_nil]
    exact readsBack_without_content within encodes given ran
  · obtain ⟨contentScript, given⟩ := Option.isSome_iff_exists.mp given
    exact readsBack_with_content within encodes given ran encodesContent

variable (xxh3) in
theorem Script.write_succeeds (lawful : zstd.Lawful) (kept : script.PledgeKept) :
    ∃ archive, script.write zstd xxh3 = .ok archive := by
  obtain ⟨⟨payloads, content⟩, ran⟩ := script.encode_succeeds xxh3 lawful kept
  exact ⟨_, bind_eq_ok.mpr ⟨_, ran, rfl⟩⟩

/-- Within the limits the script's archive is written whenever a pledged size is
kept, and what was written is read back exactly when every buffer fits one block
and the payloads are not too many. -/
theorem archive_reads_back_iff (lawful : zstd.Lawful) (within : script.WithinLimits zstd xxh3) :
    (script.PledgeKept → ∃ archive, script.write zstd xxh3 = .ok archive) ∧
      ∀ archive, script.write zstd xxh3 = .ok archive → (script.ReadsBack zstd xxh3 archive ↔ script.Readable) :=
  ⟨fun kept => script.write_succeeds xxh3 lawful kept, fun _ written => readsBack_write lawful within written⟩

def attributeScript (value : List UInt8) : Script := ⟨.binary, [.attributes [⟨[], value⟩]], none⟩

/-- A value one byte longer than a block. -/
def oversizedValue : List UInt8 := replicate 131073 0

/-- A package name and one content of three bytes. -/
def sampleScript : Script where
  fileType := .binary
  payloads := [.metadata [⟨.name, .string "cast"⟩]]
  content := some ⟨some 3, 0, [.addContent [[104, 105, 10]]]⟩

/-- The frames the compression library makes of the payloads of the two scripts. -/
def sampleMetaFrame : List UInt8 := [40, 181, 47, 253, 32, 13, 105, 0, 0, 0, 0, 0, 5, 0, 1, 9, 0, 99, 97, 115, 116, 0]

def sampleIndexFrame : List UInt8 :=
  [40, 181, 47, 253, 32, 32, 197, 0, 0, 144, 0, 3, 244, 208, 73, 124, 249, 57, 76, 170, 179, 77, 26,
    58, 178, 190, 206, 112, 1, 0, 50, 16, 2]

def sampleContentFrame : List UInt8 := [40, 181, 47, 253, 32, 3, 25, 0, 0, 104, 105, 10]

def oversizedFrame : List UInt8 :=
  [40, 181, 47, 253, 160, 17, 0, 2, 0, 124, 0, 0, 40, 0, 2, 0, 1, 0, 2, 0, 236, 255, 32, 39, 14, 92, 1, 139, 0, 0, 0]

def sampleFrames : List (List UInt8 × List UInt8) :=
  [([0, 0, 0, 5, 0, 1, 9, 0, 99, 97, 115, 116, 0], sampleMetaFrame),
    ([0, 0, 0, 0, 0, 0, 0, 0, 0, 0, 0, 0, 0, 0, 0, 3, 244, 208, 73, 124, 249, 57, 76, 170, 179, 77,
        26, 58, 178, 190, 206, 112], sampleIndexFrame),
    ([104, 105, 10], sampleContentFrame),
    (toBigEndian 8 0 ++ toBigEndian 8 131073 ++ oversizedValue, oversizedFrame)]

/-- The digests the hash library gives of these frames, and of the content. -/
def sampleXxh3 : Xxh3 where
  digest stored :=
    if stored = sampleMetaFrame then 8427106498646152183
    else if stored = sampleIndexFrame then 5836170358130274395
    else if stored = sampleContentFrame then 11415359540552071673
    else if stored = oversizedFrame then 8102590512292522772
    else 0
  digest128 content := if content = [104, 105, 10] then 325413119235418973741934234038169423472 else 0

theorem sampleFrames_frames : ∀ entry ∈ sampleFrames, entry.2.head? = some 40 ∧ entry.2.length ≤ 64 := by
  simp only [sampleFrames, forall_mem_cons]
  decide

theorem sampleFrames_lawful : (storingZstd sampleFrames).Lawful := by
  refine storingZstd_lawful ?_ ?_
  · intro first found other member same
    simp only [sampleFrames, mem_cons, not_mem_nil, or_false] at found member
    obtain rfl | rfl | rfl | rfl := found <;> obtain rfl | rfl | rfl | rfl := member <;>
      first | rfl | (exact absurd same (by decide))
  · intro entry member
    rw [(sampleFrames_frames entry member).1]
    decide

theorem sampleFrames_short : ∀ entry ∈ sampleFrames, entry.2.length ≤ 64 :=
  fun entry member => (sampleFrames_frames entry member).2

/-- A script of less than one mebibyte is within the limits. -/
theorem storingZstd_withinLimits {frames : List (List UInt8 × List UInt8)}
    (lawful : (storingZstd frames).Lawful)
    (short : ∀ entry ∈ frames, entry.2.length ≤ 64)
    (count : script.written.length + script.content.toList.length ≤ 65534)
    (kept : ∀ payload ∈ script.written, payload.toInner.Kept .default)
    (records : ((script.inner xxh3).map numRecords).sum ≤ 1000)
    (bytes : ((script.inner xxh3).map fun payload => payload.pledgedSize + 64).sum +
      (script.contents.flatten.flatten.length + 64) ≤ mib) :
    script.WithinLimits (storingZstd frames) xxh3 := by
  have pledged : ((script.inner xxh3).map pledgedSize).sum ≤
      ((script.inner xxh3).map fun payload => payload.pledgedSize + 64).sum :=
    sum_le_sum fun payload _ => Nat.le_add_right _ _
  have mostRecords : 1000 ≤ DecodeLimits.default.maxRecordsPerPayload := by decide
  have mostTotalRecords : 1000 ≤ DecodeLimits.default.maxTotalRecords := by decide
  have mostPlain : mib ≤ DecodeLimits.default.maxPlainPayloadBytes := by decide
  have mostTotalPlain : mib ≤ DecodeLimits.default.maxTotalPlainBytes := by decide
  have mostRecordBytes : mib ≤ DecodeLimits.default.maxTotalRecordBytes := by decide
  have mostStored : mib ≤ DecodeLimits.default.maxStoredPayloadBytes := by decide
  have mostTotalStored : mib ≤ DecodeLimits.default.maxTotalStoredBytes := by decide
  refine ⟨count, kept, ?_, ?_, by omega, by omega, by omega, by omega, ?_⟩
  · intro payload member
    have one := le_sum_of_mem (mem_map_of_mem (f := numRecords) member)
    omega
  · intro payload member
    have one := le_sum_of_mem (mem_map_of_mem (f := pledgedSize) member)
    omega
  · intro payloads content ran
    have total := storingZstd_stored lawful short ran
    refine ⟨?_, by omega⟩
    intro payload member
    have one := le_sum_of_mem (mem_map_of_mem (f := fun payload : EncodedPayload => payload.content.length) member)
    omega

theorem sampleScript_withinLimits : sampleScript.WithinLimits (storingZstd sampleFrames) sampleXxh3 := by
  refine storingZstd_withinLimits sampleFrames_lawful sampleFrames_short (by decide) ?_ ?_ ?_
  · intro payload member
    have same : payload = .metadata [⟨.name, .string "cast"⟩] := by
      simpa [Script.written, sampleScript, ContentOperation.payload?] using member
    subst same
    intro record found
    cases mem_singleton.mp found
    exact ⟨(by decide : Unterminated "cast"), by decide⟩
  · simp [Script.inner, Script.written, Script.contents, sampleScript, WritePayload.toInner,
      ContentOperation.payload?, ContentOperation.content?, numRecords, indicesFrom,
      filterMap_cons]
  · simp [Script.inner, Script.written, Script.contents, sampleScript, WritePayload.toInner,
      ContentOperation.payload?, ContentOperation.content?, pledgedSize, indicesFrom,
      recordsTotalSize, Record.size, MetaRecord.size, MetaPrimitive.size, IndexRecord.size]
    decide

theorem sampleScript_reads_back : ∃ archive, sampleScript.write (storingZstd sampleFrames) sampleXxh3 = .ok archive ∧
      sampleScript.ReadsBack (storingZstd sampleFrames) sampleXxh3 archive := by
  obtain ⟨writes, reads⟩ := archive_reads_back_iff sampleFrames_lawful sampleScript_withinLimits
  obtain ⟨archive, written⟩ := writes (by
    intro content given size pledged
    cases given
    cases pledged
    rfl)
  refine ⟨archive, written, (reads archive written).mpr ⟨by decide, ?_⟩⟩
  decide

theorem attributeScript_withinLimits {value : List UInt8} (small : value.length ≤ 1000000) :
    (attributeScript value).WithinLimits (storingZstd sampleFrames) sampleXxh3 := by
  have room : 1000000 + 208 ≤ mib := by decide
  have roomRecord : 1000000 + 16 ≤ DecodeLimits.default.maxRecordBytes := by decide
  refine storingZstd_withinLimits sampleFrames_lawful sampleFrames_short
    (by simp [Script.written, attributeScript]) ?_ ?_ ?_
  · intro payload member
    have same : payload = .attributes [⟨[], value⟩] := by simpa [Script.written, attributeScript] using member
    subst same
    intro record found
    cases mem_singleton.mp found
    refine ⟨trivial, ?_⟩
    simp only [Record.size, AttributeRecord.size, length_nil]
    omega
  · simp [Script.inner, Script.written, attributeScript, WritePayload.toInner, numRecords]
  · simp only [Script.inner, Script.written, Script.contents, attributeScript,
      WritePayload.toInner, pledgedSize, recordsTotalSize, Record.size,
      AttributeRecord.size, Option.toList_none, flatMap_nil, append_nil, map_cons,
      map_nil, sum_cons, sum_nil, length_nil, flatten_nil]
    omega

/-- A value longer than one block is within the limits and is written, but the
archive declares more bytes than it holds and is not read back. -/
theorem oversizedValue_not_read_back : (storingZstd sampleFrames).Lawful ∧
      (attributeScript oversizedValue).WithinLimits (storingZstd sampleFrames) sampleXxh3 ∧
      ∃ archive, (attributeScript oversizedValue).write (storingZstd sampleFrames) sampleXxh3 = .ok archive ∧
          ¬ (attributeScript oversizedValue).ReadsBack (storingZstd sampleFrames) sampleXxh3 archive := by
  have length : oversizedValue.length = 131073 := length_replicate
  have within := attributeScript_withinLimits (length.trans_le (by decide))
  have noPledge : (attributeScript oversizedValue).PledgeKept := by
    intro content given
    cases given
  obtain ⟨archive, written⟩ := (attributeScript oversizedValue).write_succeeds sampleXxh3 sampleFrames_lawful noPledge
  refine ⟨sampleFrames_lawful, within, archive, written, ?_⟩
  rw [readsBack_write sampleFrames_lawful within written]
  intro readable
  have handed : oversizedValue ∈ (attributeScript oversizedValue).buffers := by
    simp [Script.buffers, Script.written, attributeScript, WritePayload.toInner,
      encode, encodeRecords, Record.encode, AttributeRecord.encode]
  have fits := readable.2 oversizedValue handed
  rw [length] at fits
  exact absurd fits (by decide)

end Cast.Stone
