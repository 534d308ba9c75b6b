import Cast.Foundation.Checks
import Cast.Stone.Records

/-! Records read back as they were written. For each kind of record the decoder
takes exactly the bytes the encoder wrote and returns the record, wherever the
bytes stand and whatever follows them. -/

namespace Cast.Stone

open Foundation Decoder List BoundedReader

variable {α : Type} {length value maxRecordBytes : Nat} {text target field : String}
  {bytes : List UInt8} {kind : MetaDependency}

/-- A text the format keeps: one that does not end in a terminator. -/
def Unterminated (text : String) : Prop := text.toList.getLast? ≠ some (Char.ofNat 0)

instance {text : String} : Decidable (Unterminated text) := inferInstanceAs (Decidable (_ ≠ _))

theorem parses_number {width : Nat} {number : α} (convert : Nat → α) (bounded : value < 256 ^ width)
    (converted : convert value = number) :
    (do let bytes ← Decoder.bytes width; return convert (fromBigEndian bytes) :
      RecordDecoder α).Parses readerFailed (toBigEndian width value) number := by
  have read : (Decoder.bytes width : RecordDecoder (List UInt8)).Parses readerFailed
      (toBigEndian width value) (toBigEndian width value) :=
    parses_bytes (length_toBigEndian width value)
  rw [← append_nil (toBigEndian width value)]
  refine read.bind ?_
  rw [fromBigEndian_toBigEndian bounded, converted]
  exact parses_pure _

theorem parses_readU8 (value : UInt8) : readU8.Parses readerFailed (toBigEndian 1 value.toNat) value :=
  parses_number UInt8.ofNat value.toNat_lt UInt8.ofNat_toNat

theorem parses_readU16 (value : UInt16) : readU16.Parses readerFailed (toBigEndian 2 value.toNat) value :=
  parses_number UInt16.ofNat value.toNat_lt UInt16.ofNat_toNat

theorem parses_readU32 (value : UInt32) : readU32.Parses readerFailed (toBigEndian 4 value.toNat) value :=
  parses_number UInt32.ofNat value.toNat_lt UInt32.ofNat_toNat

theorem parses_readU64 (value : UInt64) : readU64.Parses readerFailed (toBigEndian 8 value.toNat) value :=
  parses_number UInt64.ofNat value.toNat_lt UInt64.ofNat_toNat

theorem parses_readU128 (value : BitVec 128) : readU128.Parses readerFailed (toBigEndian 16 value.toNat) value :=
  parses_number (BitVec.ofNat 128) value.isLt (by simp)

theorem parses_ensureAdditional {next : Unit → RecordDecoder α} {value : α} (announced : length ≤ bytes.length)
    (rest : (next ()).Parses readerFailed bytes value) :
    (ensureAdditional field length >>= next).Parses readerFailed bytes value := by
  intro reader serves
  have withinRecord := serves.withinRecord
  have machine := serves.machine
  have machineFits : ¬ UInt64.size ≤ reader.consumed + length := by omega
  have recordFits : ¬ reader.limit < reader.consumed + length := by omega
  have checked : (ensureAdditional field length).run readerFailed reader = .ok ((), reader) := by
    simp only [ensureAdditional, Decoder.run, if_neg machineFits, if_neg recordFits]
    rfl
  rw [run_bind, checked]
  exact rest reader serves

theorem parses_readSizedVec {content : List UInt8} (sized : content.length = length) :
    (readSizedVec field length).Parses readerFailed content content :=
  parses_ensureAdditional sized.ge (parses_bytes sized)

theorem decodeUtf8_utf8 (text : String) : decodeUtf8 (utf8 text) = pure text := by
  have bytes : (⟨(utf8 text).toArray⟩ : ByteArray) = text.toByteArray := by simp [utf8]
  have decoded : String.fromUTF8? text.toByteArray = some text := by
    rw [String.fromUTF8?, dif_pos text.isValidUTF8]
    rfl
  rw [decodeUtf8, bytes, decoded]

theorem parses_readSizedString (sized : (utf8 text).length = length) :
    (readSizedString field length).Parses readerFailed (utf8 text) text := by
  refine parses_ensureAdditional sized.ge ?_
  rw [← append_nil (utf8 text)]
  refine (parses_bytes sized).bind ?_
  rw [decodeUtf8_utf8]
  exact parses_pure text

theorem utf8_push_terminator (text : String) : utf8 (text.push (Char.ofNat 0)) = utf8 text ++ [0] := by
  have terminator : [Char.ofNat 0].utf8Encode.data.toList = [0] := rfl
  simp [utf8, terminator]

theorem sanitize_eq (unterminated : Unterminated text) : sanitize text = text := by
  have kept : text.toList.rdropWhile (fun character => character == Char.ofNat 0) = text.toList := by
    refine rdropWhile_eq_self_iff.mpr ?_
    intro filled terminated
    rw [beq_iff_eq] at terminated
    exact unterminated (by rw [getLast?_eq_some_getLast filled, terminated])
  rw [sanitize, kept, String.ofList_toList]

theorem sanitize_push (unterminated : Unterminated text) : sanitize (text.push (Char.ofNat 0)) = text := by
  rw [sanitize, String.toList_push, rdropWhile_concat_pos]
  · exact sanitize_eq unterminated
  · rfl

theorem parses_terminated {β : Type} {make : String → β} (unterminated : Unterminated text)
    (sized : (utf8 text).length + 1 = length) :
    (do let text ← readSizedString field length; return make (sanitize text) :
      RecordDecoder β).Parses readerFailed (utf8 text ++ [0]) (make text) := by
  rw [← utf8_push_terminator, ← append_nil (utf8 _)]
  refine (parses_readSizedString ?_).bind ?_
  · rw [utf8_push_terminator, length_append, length_singleton, sized]
  · rw [sanitize_push unterminated]
    exact parses_pure _

/-- What the wire format keeps of each kind of record, and the facts the stream
of such records needs. The bound is that of the narrowest length field. -/
class LawfulRecord (ρ : Type) [Record ρ] where
  Kept : ρ → Prop
  minimum : Nat
  size_eq : ∀ record : ρ, (Record.encode record).flatten.length = Record.size record
  minimum_le : ∀ record : ρ, minimum ≤ Record.size record
  parses : ∀ record : ρ, Kept record → Record.size record < UInt32.size →
    (Record.decode : RecordDecoder ρ).Parses readerFailed (Record.encode record).flatten record

theorem AttributeRecord.parses (record : AttributeRecord) (small : record.size < UInt32.size) :
    AttributeRecord.decode.Parses readerFailed record.encode.flatten record := by
  have machine : UInt32.size < UInt64.size := by decide
  simp only [AttributeRecord.size] at small
  have keyFits : record.key.length < UInt64.size := by omega
  have valueFits : record.value.length < UInt64.size := by omega
  simp only [AttributeRecord.encode, flatten_cons, flatten_nil]
  refine (parses_number UInt64.ofNat keyFits rfl).bind ((parses_number UInt64.ofNat valueFits rfl).bind ?_)
  rw [UInt64.toNat_ofNat_of_lt' keyFits, UInt64.toNat_ofNat_of_lt' valueFits,
    AttributeRecord.decode.checkedSum, if_pos (by omega)]
  refine parses_ensureAdditional (by simp) ?_
  exact (parses_readSizedVec rfl).bind ((parses_readSizedVec rfl).bind (parses_pure record))

instance : LawfulRecord AttributeRecord where
  Kept _ := True
  minimum := 16
  size_eq record := by
    simp [Record.encode, Record.size, AttributeRecord.encode, AttributeRecord.size]
    omega
  minimum_le record := by
    simp only [Record.size, AttributeRecord.size]
    omega
  parses record _ small := record.parses small

theorem IndexRecord.parses (record : IndexRecord) :
    IndexRecord.decode.Parses readerFailed record.encode.flatten record := by
  simp only [IndexRecord.encode, flatten_cons, flatten_nil]
  exact (parses_readU64 record.start).bind
    ((parses_readU64 record.stop).bind ((parses_readU128 record.digest).bind (parses_pure record)))

instance : LawfulRecord IndexRecord where
  Kept _ := True
  minimum := 32
  size_eq record := by simp [Record.encode, Record.size, IndexRecord.encode, IndexRecord.size]
  minimum_le record := Nat.le_refl _
  parses record _ _ := record.parses

theorem MetaTag.ofCode_toCode (tag : MetaTag) : MetaTag.ofCode tag.toCode = tag := by cases tag <;> rfl

theorem decodeDependency_toByte (kind : MetaDependency) : decodeDependency kind.toByte = kind := by
  cases kind <;> rfl

/-- Texts are kept when they do not end in a terminator, everything else always. -/
def MetaPrimitive.Kept : MetaPrimitive → Prop
  | string text | dependency _ text | provider _ text => Unterminated text
  | _ => True

theorem MetaPrimitive.size_eq (primitive : MetaPrimitive) :
    primitive.encode.flatten.length = primitive.size := by
  cases primitive <;> simp [MetaPrimitive.encode, MetaPrimitive.size]
  all_goals omega

theorem parses_fixed {read : RecordDecoder α} {value : α} (make : α → MetaPrimitive)
    (parsed : read.Parses readerFailed bytes value) :
    (do requireLength length length; return make (← read) : RecordDecoder MetaPrimitive).Parses
      readerFailed (bytes ++ []) (make value) := by
  have checked : requireLength length length = pure () := if_pos rfl
  rw [checked, ← nil_append (bytes ++ [])]
  exact (parses_pure ()).bind (parsed.bind (parses_pure _))

theorem parses_decodeRelation (unterminated : Unterminated text) (sized : (utf8 text).length + 2 = length) :
    (decodeRelation length).Parses readerFailed
      (toBigEndian 1 kind.toByte.toNat ++ (utf8 text ++ [0])) (kind, text) := by
  rw [decodeRelation, if_neg (by omega)]
  refine (parses_readU8 kind.toByte).bind ?_
  rw [decodeDependency_toByte]
  exact parses_terminated unterminated (by omega)

theorem parses_relation (make : MetaDependency → String → MetaPrimitive) (unterminated : Unterminated text)
    (sized : (utf8 text).length + 2 = length) :
    (do let (kind, text) ← decodeRelation length; return make kind text :
      RecordDecoder MetaPrimitive).Parses readerFailed
        (toBigEndian 1 kind.toByte.toNat ++ (utf8 text ++ [0])) (make kind text) := by
  rw [← append_nil (toBigEndian _ _ ++ _)]
  refine (parses_decodeRelation unterminated sized).bind ?_
  exact parses_pure _

theorem MetaPrimitive.parses (primitive : MetaPrimitive) (kept : primitive.Kept) :
    (MetaPrimitive.decode primitive.size primitive.kind).Parses readerFailed primitive.encode.flatten primitive := by
  cases primitive with
  | int8 value => exact parses_fixed (fun number => .int8 number.toInt8) (parses_readU8 value.toUInt8)
  | uint8 value => exact parses_fixed .uint8 (parses_readU8 value)
  | int16 value => exact parses_fixed (fun number => .int16 number.toInt16) (parses_readU16 value.toUInt16)
  | uint16 value => exact parses_fixed .uint16 (parses_readU16 value)
  | int32 value => exact parses_fixed (fun number => .int32 number.toInt32) (parses_readU32 value.toUInt32)
  | uint32 value => exact parses_fixed .uint32 (parses_readU32 value)
  | int64 value => exact parses_fixed (fun number => .int64 number.toInt64) (parses_readU64 value.toUInt64)
  | uint64 value => exact parses_fixed .uint64 (parses_readU64 value)
  | string text => exact parses_terminated kept rfl
  | dependency kind text => exact parses_relation .dependency kept rfl
  | provider kind text => exact parses_relation .provider kept rfl
  | unknown data => exact (parses_readSizedVec rfl).bind (parses_pure (MetaPrimitive.unknown data))

theorem MetaRecord.parses (record : MetaRecord) (kept : record.primitive.Kept) (small : record.size < UInt32.size) :
    MetaRecord.decode.Parses readerFailed record.encode.flatten record := by
  simp only [MetaRecord.size] at small
  have sizeFits : record.primitive.size < UInt32.size := by omega
  have shape : record.encode.flatten = toBigEndian 4 record.primitive.size ++ (toBigEndian 2 record.tag.toCode.toNat ++
        (toBigEndian 1 record.primitive.kind.toNat ++ ([0] ++ (record.primitive.encode.flatten ++ [])))) := by
    simp [MetaRecord.encode]
  rw [shape]
  refine (parses_number UInt32.ofNat sizeFits rfl).bind ((parses_readU16 record.tag.toCode).bind
    ((parses_readU8 record.primitive.kind).bind ((parses_bytes rfl).bind ?_)))
  rw [UInt32.toNat_ofNat_of_lt' sizeFits, MetaTag.ofCode_toCode]
  refine parses_ensureAdditional ?_ ((record.primitive.parses kept).bind (parses_pure record))
  rw [append_nil, MetaPrimitive.size_eq]

instance : LawfulRecord MetaRecord where
  Kept record := record.primitive.Kept
  minimum := 8
  size_eq record := by
    simp only [Record.encode, Record.size, MetaRecord.encode, MetaRecord.size,
      flatten_append, length_append, MetaPrimitive.size_eq]
    simp
  minimum_le record := by
    simp only [Record.size, MetaRecord.size]
    omega
  parses record kept small := record.parses kept small

theorem LayoutFileType.ofByte_toByte (fileType : LayoutFileType) :
    LayoutFileType.ofByte fileType.toByte = fileType := by
  cases fileType <;> rfl

/-- Both paths fit their 16-bit lengths, and no text ends in a terminator. -/
structure LayoutFile.Kept (file : LayoutFile) : Prop where
  source : file.source.length < 65536
  target : (utf8 file.target).length < 65536
  targetKept : Unterminated file.target
  sourceKept : ∀ source target, file = .symlink source target ∨ file = .unknown source target → Unterminated source

theorem parses_readTarget (unterminated : Unterminated target) :
    (readTarget (utf8 target).length).Parses readerFailed (utf8 target ++ []) target := by
  refine (parses_readSizedString rfl).bind ?_
  rw [sanitize_eq unterminated]
  exact parses_pure target

theorem parses_decodeSourceless {fileType : LayoutFileType}
    (make : String → LayoutFile) (unterminated : Unterminated target) :
    (decodeSourceless fileType make 0 (utf8 target).length).Parses readerFailed (utf8 target ++ []) (make target) := by
  rw [decodeSourceless, requireEmptySource, if_pos rfl, ← nil_append (utf8 target ++ [])]
  refine (parses_pure ()).bind ?_
  rw [← append_nil (utf8 target ++ [])]
  exact (parses_readTarget unterminated).bind (parses_pure (make target))

theorem parses_decodeSourced {source : String} (make : String → String → LayoutFile)
    (sourceKept : Unterminated source) (targetKept : Unterminated target) :
    (decodeSourced field make (utf8 source).length (utf8 target).length).Parses readerFailed
      (utf8 source ++ (utf8 target ++ [])) (make source target) := by
  refine (parses_readSizedString rfl).bind ?_
  rw [sanitize_eq sourceKept, ← append_nil (utf8 target ++ [])]
  exact (parses_readTarget targetKept).bind (parses_pure (make source target))

theorem LayoutFile.parses (file : LayoutFile) (kept : file.Kept) :
    (LayoutFile.decode file.fileType file.source.length (utf8 file.target).length).Parses
      readerFailed (file.source ++ (utf8 file.target ++ [])) file := by
  obtain ⟨_, _, targetKept, sourceKept⟩ := kept
  cases file with
  | regular hash target =>
    have checked : requireDigestLength (LayoutFile.regular hash target).source.length = pure () :=
      if_pos (length_toBigEndian 16 _)
    have digest : BitVec.ofNat 128 (fromBigEndian (toBigEndian 16 hash.toNat)) = hash := by
      rw [fromBigEndian_toBigEndian hash.isLt, BitVec.ofNat_toNat, BitVec.setWidth_eq]
    rw [← nil_append (LayoutFile.source _ ++ _)]
    simp only [LayoutFile.decode, LayoutFile.fileType, checked]
    refine (parses_pure ()).bind ((parses_readSizedVec rfl).bind ?_)
    rw [← append_nil (utf8 _ ++ []), LayoutFile.source, digest]
    exact (parses_readTarget targetKept).bind (parses_pure _)
  | symlink source target =>
    exact parses_decodeSourced .symlink (sourceKept source target (.inl rfl)) targetKept
  | directory target => exact parses_decodeSourceless .directory targetKept
  | characterDevice target => exact parses_decodeSourceless .characterDevice targetKept
  | blockDevice target => exact parses_decodeSourceless .blockDevice targetKept
  | fifo target => exact parses_decodeSourceless .fifo targetKept
  | socket target => exact parses_decodeSourceless .socket targetKept
  | unknown source target =>
    exact parses_decodeSourced .unknown (sourceKept source target (.inr rfl)) targetKept

theorem LayoutRecord.parses (record : LayoutRecord) (kept : record.file.Kept) :
    LayoutRecord.decode.Parses readerFailed record.encode.flatten record := by
  have shape : record.encode.flatten = toBigEndian 4 record.uid.toNat ++ (toBigEndian 4 record.gid.toNat ++
        (toBigEndian 4 record.mode.toNat ++ (toBigEndian 4 record.tag.toNat ++
          (toBigEndian 2 record.file.source.length ++ (toBigEndian 2 (utf8 record.file.target).length ++
              (toBigEndian 1 record.file.fileType.toByte.toNat ++ (replicate 11 0 ++
                ((record.file.source ++ (utf8 record.file.target ++ [])) ++ [])))))))) := by
    simp [LayoutRecord.encode]
  rw [shape]
  refine (parses_readU32 record.uid).bind ((parses_readU32 record.gid).bind ((parses_readU32 record.mode).bind
    ((parses_readU32 record.tag).bind ((parses_number UInt16.ofNat kept.source rfl).bind
      ((parses_number UInt16.ofNat kept.target rfl).bind
        ((parses_readU8 record.file.fileType.toByte).bind ((parses_bytes length_replicate).bind ?_)))))))
  simp only [UInt16.toNat_ofNat_of_lt' kept.source, UInt16.toNat_ofNat_of_lt' kept.target,
    LayoutFileType.ofByte_toByte]
  refine parses_ensureAdditional ?_ ((record.file.parses kept).bind (parses_pure record))
  simp

instance : LawfulRecord LayoutRecord where
  Kept record := record.file.Kept
  minimum := 32
  size_eq record := by
    simp [Record.encode, Record.size, LayoutRecord.encode, LayoutRecord.size]
    omega
  minimum_le record := by
    simp only [Record.size, LayoutRecord.size]
    omega
  parses record kept _ := record.parses kept

section Streams

variable {ρ : Type} [Record ρ] [LawfulRecord ρ]

theorem length_encodeRecords (records : List ρ) :
    (encodeRecords records).flatten.length = recordsTotalSize records := by
  induction records with
  | nil => rfl
  | cons record rest ih =>
    simp only [encodeRecords, recordsTotalSize] at ih ⊢
    rw [flatMap_cons, flatten_append, length_append, ih, LawfulRecord.size_eq, map_cons, sum_cons]

theorem minimum_mul_le (records : List ρ) : records.length * LawfulRecord.minimum ρ ≤ recordsTotalSize records := by
  induction records with
  | nil => simp
  | cons record rest ih =>
    have least := LawfulRecord.minimum_le record
    simp only [recordsTotalSize] at ih ⊢
    rw [length_cons, Nat.add_one_mul, map_cons, sum_cons]
    omega

/-- A stream of kept records is read back record by record, to its last byte. -/
theorem decodeRecords_encodeRecords (machine : maxRecordBytes < UInt64.size)
    (records : List ρ) (kept : ∀ record ∈ records, LawfulRecord.Kept record ∧ Record.size record ≤ maxRecordBytes)
    (narrow : ∀ record ∈ records, Record.size record < UInt32.size)
    (reader : BoundedReader) (rest : List UInt8)
    (stream : reader.rest = (encodeRecords records).flatten ++ rest)
    (declared : reader.emitted + recordsTotalSize records ≤ reader.declared) :
    ∃ after, decodeRecords maxRecordBytes records.length reader = .ok (records, after) ∧
      after.rest = rest ∧ after.declared = reader.declared ∧
      after.emitted = reader.emitted + recordsTotalSize records := by
  induction records generalizing reader with
  | nil => exact ⟨reader, rfl, stream, rfl, rfl⟩
  | cons record records ih =>
    have size := LawfulRecord.size_eq record
    obtain ⟨recordKept, recordWithin⟩ := kept record mem_cons_self
    have total : recordsTotalSize (record :: records) = Record.size record + recordsTotalSize records := by
      simp [recordsTotalSize]
    have split : reader.rest = (Record.encode record).flatten ++ ((encodeRecords records).flatten ++ rest) := by
      rw [stream, encodeRecords, flatMap_cons, flatten_append, append_assoc, encodeRecords]
    have serves : Serves { reader with limit := maxRecordBytes, consumed := 0 } (Record.encode record).flatten := by
      refine ⟨⟨_, split.symm⟩, ?_, ?_, ?_⟩ <;> simp only [size] <;> omega
    have first := LawfulRecord.parses record recordKept (narrow record mem_cons_self) _ serves
    obtain ⟨after, decoded, left, sameDeclared, emitted⟩ :=
      ih (fun other member => kept other (mem_cons_of_mem _ member))
        (fun other member => narrow other (mem_cons_of_mem _ member))
        ({ reader with limit := maxRecordBytes, consumed := 0 }.advance (Record.encode record).flatten.length)
        (by simp [advance, split])
        (by simp only [advance, size]; omega)
    refine ⟨after, ?_, left, sameDeclared, ?_⟩
    · rw [length_cons, decodeRecords, bind_eq_ok]
      exact ⟨_, first, bind_eq_ok.mpr ⟨_, decoded, rfl⟩⟩
    · rw [emitted, total]
      simp only [advance, size]
      omega

omit [LawfulRecord ρ] in
/-- Whatever is decoded, it is as many records as asked for, and the reader delivers the
stream in order and never more than it declares. -/
theorem decodeRecords_advances {count : Nat} {reader after : BoundedReader} {records : List ρ}
    (decoded : decodeRecords maxRecordBytes count reader = .ok (records, after))
    (bounded : reader.emitted ≤ reader.declared) :
    records.length = count ∧ after.declared = reader.declared ∧ after.emitted ≤ after.declared ∧
      after.emitted + after.rest.length = reader.emitted + reader.rest.length := by
  induction count generalizing reader records with
  | zero =>
    cases decoded
    exact ⟨rfl, rfl, bounded, rfl⟩
  | succ count ih =>
    rw [decodeRecords, bind_eq_ok] at decoded
    obtain ⟨⟨record, middle⟩, first, decoded⟩ := decoded
    obtain ⟨⟨later, final⟩, rest, same⟩ := bind_eq_ok.mp decoded
    cases same
    obtain ⟨advanced, available, rfl⟩ := run_advances first
    simp only [BoundedReader.available] at available
    obtain ⟨counted, sameDeclared, within, conserved⟩ := ih rest (by simp only [advance]; omega)
    refine ⟨congrArg Nat.succ counted, sameDeclared, within, ?_⟩
    rw [conserved]
    simp only [advance, length_drop]
    omega

end Streams

end Cast.Stone
