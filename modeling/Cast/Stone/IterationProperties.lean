import Cast.Stone.ReadProperties
import Cast.Stone.StoringZstd

/-! A full iteration over the payloads of an archive. Whatever the bytes, an
iteration that yields no error has walked the archive from its header to its
end, one payload behind the other, and everything it was told adds up within the
limits. -/

namespace Cast.Stone

open Foundation List DecodedPayload DecodeState

variable {zstd : Zstd} {xxh3 : Xxh3} {limits : DecodeLimits} {archive stored : List UInt8}
  {state after : DecodeState} {position : Nat} {items : List DecodedPayload}
  {item content : DecodedPayload} {header : PayloadHeader} {record : IndexRecord}

/-- Decoding from a position yields the payloads and ends with the archive. -/
inductive Walks (zstd : Zstd) (xxh3 : Xxh3) (limits : DecodeLimits) (archive : List UInt8) :
    Nat → DecodeState → List DecodedPayload → Prop where
  | done {position : Nat} {state : DecodeState} (ends : position = archive.length) :
      Walks zstd xxh3 limits archive position state []
  | step {position next : Nat} {state after : DecodeState} {item : DecodedPayload} {rest : List DecodedPayload}
      (decoded : decodePayload zstd xxh3 limits archive position state = .ok (item, next, after))
      (walks : Walks zstd xxh3 limits archive next after rest) :
      Walks zstd xxh3 limits archive position state (item :: rest)

theorem Walks.ends_of_empty (walks : Walks zstd xxh3 limits archive position state items) (none : items.length = 0) :
    position = archive.length := by
  cases walks with
  | done ends => exact ends
  | step => cases none

theorem payloadItems_walks {remaining : Nat} (ending : remaining = 0 → position = archive.length) :
    payloadItems zstd xxh3 limits archive remaining position state = items.map .ok ↔
      items.length = remaining ∧ Walks zstd xxh3 limits archive position state items := by
  induction remaining generalizing position state items with
  | zero =>
    rw [payloadItems, eq_comm, map_eq_nil_iff, length_eq_zero_iff]
    refine (and_iff_left_of_imp ?_).symm
    rintro rfl
    exact .done (ending rfl)
  | succ remaining ih =>
    cases items with
    | nil => exact iff_of_false payloadItems_ne_nil (by simp)
    | cons item rest =>
      rw [payloadItems_eq_ok]
      constructor
      · intro held
        obtain ⟨next, after, decoded, last, yielded⟩ := held
        obtain ⟨count, walks⟩ := (ih last).mp yielded
        exact ⟨by rw [length_cons, count], .step decoded walks⟩
      · intro held
        obtain ⟨count, walks⟩ := held
        have restCount : rest.length = remaining := Nat.succ.inj count
        cases walks with
        | @step _ next _ after _ _ decoded walks =>
          have last : remaining = 0 → next = archive.length := fun none =>
            walks.ends_of_empty (restCount.trans none)
          exact ⟨next, after, decoded, last, (ih last).mpr ⟨restCount, walks⟩⟩

theorem StoneReader.payloads_walks {reader : StoneReader} :
    reader.payloads zstd xxh3 = .ok (items.map .ok) ↔
      items.length = reader.header.numPayloads ∧
        Walks zstd xxh3 reader.limits reader.archive stoneHeaderSize .start items := by
  rw [StoneReader.payloads_eq_ok]
  constructor
  · intro held
    exact (payloadItems_walks held.1).mp held.2
  · intro held
    have ending : reader.header.numPayloads = 0 → stoneHeaderSize = reader.archive.length := fun none =>
      held.2.ends_of_empty (held.1.trans none)
    exact ⟨ending, (payloadItems_walks ending).mpr held⟩

def DecodedPayload.indices : DecodedPayload → List IndexRecord
  | .index _ records => records
  | _ => []

/-- The records of a payload. An iteration does not look into the other payloads, so for
them it is the number that their header gives. -/
def DecodedPayload.recordCount : DecodedPayload → Nat
  | .metadata _ records => records.length
  | .attributes _ records => records.length
  | .layout _ records => records.length
  | .index _ records => records.length
  | .content header _ | .unknown header | .unknownCompression header => header.numRecords

/-- The bytes that a payload of records unpacks to; for the others what their header gives. -/
def DecodedPayload.plainLength (zstd : Zstd) (limits : DecodeLimits) (stored : List UInt8) : DecodedPayload → Nat
  | .metadata header _ | .attributes header _ | .layout header _ | .index header _ =>
    (payloadPlain zstd limits header.compression stored).toOption.elim 0 length
  | .content header _ | .unknown header | .unknownCompression header => header.plainSize

/-- What a decoded record body says about its header and its stored bytes. -/
theorem decodeRecordBody_ok {ρ : Type} [Record ρ] {records : List ρ}
    (decoded : decodeRecordBody zstd xxh3 ρ limits header stored = .ok records) :
    records.length = header.numRecords ∧
      (payloadPlain zstd limits header.compression stored).toOption.elim 0 length = header.plainSize ∧
      validateStored xxh3 header stored = .ok () := by
  obtain ⟨plain, unpacked, size⟩ := decodeRecordBody_plainSize decoded
  simp only [decodeRecordBody, bind_eq_ok, mapError_eq_ok, exists_check, pure_eq_ok] at decoded
  obtain ⟨_, _, ⟨read, _⟩, decoded, _, valid, same⟩ := decoded
  subst same
  refine ⟨(decodeRecords_advances decoded (Nat.zero_le _)).1, ?_, valid⟩
  rw [unpacked]
  exact size

/-- Everything a decoded body tells, whatever its kind. -/
structure BodyFacts (zstd : Zstd) (xxh3 : Xxh3) (limits : DecodeLimits) (header : PayloadHeader) (offset : Nat)
    (stored : List UInt8) (state : DecodeState) (item : DecodedPayload) (after : DecodeState) : Prop where
  sameHeader : item.header = header
  records : item.recordCount = header.numRecords
  plain : item.plainLength zstd limits stored = header.plainSize
  valid : validateStored xxh3 header stored = .ok ()
  content : ∀ contentHeader place, item = .content contentHeader place →
    place = offset ∧ header.kind = .content ∧ header.compression ≠ .unknown
  ordered : ∀ record ∈ item.indices, record.start.toNat ≤ record.stop.toNat
  within : ∀ record ∈ item.indices, ∀ size ∈ state.contentPlainSize, record.stop.toNat ≤ size
  counts : after = { state with maxIndexEnd := maxEnd state.maxIndexEnd item.indices }

theorem decodeBody_facts {offset : Nat}
    (decoded : decodeBody zstd xxh3 limits header offset stored state = .ok (item, after)) :
    BodyFacts zstd xxh3 limits header offset stored state item after := by
  rw [decodeBody] at decoded
  by_cases unknown : header.compression = .unknown
  · simp only [unknown, if_true, bind_eq_ok, pure_eq_ok, exists_check, Prod.mk.injEq] at decoded
    obtain ⟨valid, rfl, rfl⟩ := decoded
    exact ⟨rfl, rfl, rfl, valid, by simp, by simp [indices], by simp [indices], rfl⟩
  · simp only [unknown, if_false] at decoded
    cases kind : header.kind with
    | metadata | layout | attributes =>
      simp only [kind, bind_eq_ok, pure_eq_ok, Prod.mk.injEq] at decoded
      obtain ⟨records, body, rfl, rfl⟩ := decoded
      obtain ⟨count, size, valid⟩ := decodeRecordBody_ok body
      exact ⟨rfl, count, size, valid, by simp, by simp [indices], by simp [indices], rfl⟩
    | index =>
      simp only [kind, bind_eq_ok, pure_eq_ok, Prod.mk.injEq, admitIndices_eq_ok] at decoded
      obtain ⟨records, body, _, ⟨admitted, rfl⟩, rfl, rfl⟩ := decoded
      obtain ⟨count, size, valid⟩ := decodeRecordBody_ok body
      exact ⟨rfl, count, size, valid, by simp, fun record member => (admitted record member).1,
        fun record member => (admitted record member).2, rfl⟩
    | content =>
      simp only [kind, bind_eq_ok, pure_eq_ok, exists_check, Prod.mk.injEq] at decoded
      obtain ⟨valid, rfl, rfl⟩ := decoded
      refine ⟨rfl, rfl, rfl, valid, ?_, by simp [indices], by simp [indices], rfl⟩
      intro contentHeader place same
      cases same
      exact ⟨rfl, kind, unknown⟩
    | unknown =>
      simp only [kind, bind_eq_ok, pure_eq_ok, exists_check, Prod.mk.injEq] at decoded
      obtain ⟨valid, rfl, rfl⟩ := decoded
      exact ⟨rfl, rfl, rfl, valid, by simp, by simp [indices], by simp [indices], rfl⟩

/-- One decoded payload: its header stands at the position and is let through, and
its body is the declared number of bytes behind it. -/
theorem decodePayload_facts {next : Nat}
    (decoded : decodePayload zstd xxh3 limits archive position state = .ok (item, next, after)) :
    PayloadHeader.decode (archive.drop position) = some item.header ∧ state.Lets limits item.header ∧
      position + payloadHeaderSize + item.header.storedSize = next ∧ next ≤ archive.length ∧
      BodyFacts zstd xxh3 limits item.header (position + payloadHeaderSize)
        ((archive.drop (position + payloadHeaderSize)).take item.header.storedSize)
        (state.adding item.header) item after := by
  obtain ⟨header, read, lets, ends, _, within, body⟩ := decodePayload_eq_ok.mp decoded
  have facts := decodeBody_facts body
  have same := facts.sameHeader
  subst same
  exact ⟨read, lets, ends, within, facts⟩

section

variable (walks : Walks zstd xxh3 limits archive position state items)
include walks

/-- The rule for whatever the state adds up: a total that every header let through
keeps within a bound is within it over the whole walk. -/
theorem Walks.total_le (total : DecodeState → Nat) (amount : PayloadHeader → Nat) (bound : Nat)
    (indexed : ∀ state largest, total { state with maxIndexEnd := largest } = total state)
    (adds : ∀ state header, state.Lets limits header → total state ≤ bound →
      total (state.adding header) = total state + amount header ∧ total (state.adding header) ≤ bound)
    (within : total state ≤ bound) :
    total state + (items.map fun item => amount item.header).sum ≤ bound := by
  induction walks with
  | done ends => simpa using within
  | @step position next state after item rest decoded walks ih =>
    obtain ⟨_, lets, _, _, facts⟩ := decodePayload_facts decoded
    obtain ⟨sum, fits⟩ := adds state item.header lets within
    have carried : total after = total state + amount item.header := by rw [facts.counts, indexed, sum]
    have tail := ih (by rw [carried, ← sum]; exact fits)
    rw [map_cons, sum_cons]
    omega

theorem Walks.indices_within_seen {size : Nat}
    (seen : state.contentSeen = true) (known : state.contentPlainSize = some size) :
    ∀ item ∈ items, ∀ record ∈ item.indices, record.stop.toNat ≤ size := by
  induction walks with
  | done ends => simp
  | @step position next state after first rest decoded walks ih =>
    obtain ⟨_, lets, _, _, facts⟩ := decodePayload_facts decoded
    have other : first.header.kind ≠ .content := by
      intro isContent
      rw [(lets.content isContent).1] at seen
      cases seen
    have stillKnown : (state.adding first.header).contentPlainSize = some size := by
      simp [adding, other, known]
    have later := ih (by simp [facts.counts, adding, seen]) (by rw [facts.counts]; exact stillKnown)
    exact forall_mem_cons.mpr ⟨fun record indexed => facts.within record indexed size stillKnown, later⟩

theorem Walks.maxIndexEnd_le (member : content ∈ items) (isContent : content.header.kind = .content) :
    state.maxIndexEnd ≤ content.header.plainSize := by
  induction walks with
  | done ends => cases member
  | @step position next state after first rest decoded walks ih =>
    obtain ⟨_, lets, _, _, facts⟩ := decodePayload_facts decoded
    rcases mem_cons.mp member with same | behind
    · subst same
      exact (lets.content isContent).2
    · have later := ih behind
      rw [facts.counts] at later
      exact (maxEnd_le_iff.mp later).1

theorem Walks.indices_within_content (member : content ∈ items)
    (isContent : content.header.kind = .content) (indexMember : item ∈ items)
    (indexed : record ∈ item.indices) :
    record.stop.toNat ≤ content.header.plainSize := by
  induction walks with
  | done ends => cases member
  | @step position next state after first rest decoded walks ih =>
    obtain ⟨_, _, _, _, facts⟩ := decodePayload_facts decoded
    rcases mem_cons.mp member with same | behind
    · subst same
      have known : (state.adding content.header).contentPlainSize = some content.header.plainSize := by
        simp [adding, isContent]
      rcases mem_cons.mp indexMember with sameIndex | indexBehind
      · subst sameIndex
        exact facts.within record indexed _ known
      · exact walks.indices_within_seen (by simp [facts.counts, adding, isContent])
          (by rw [facts.counts]; exact known) item indexBehind record indexed
    · rcases mem_cons.mp indexMember with sameIndex | indexBehind
      · subst sameIndex
        have later := walks.maxIndexEnd_le behind isContent
        rw [facts.counts] at later
        exact (maxEnd_le_iff.mp later).2 record indexed
      · exact ih behind indexBehind

theorem Walks.indices_ordered (member : item ∈ items)
    (indexed : record ∈ item.indices) : record.start.toNat ≤ record.stop.toNat := by
  induction walks with
  | done ends => cases member
  | @step position next state after first rest decoded walks ih =>
    obtain ⟨_, _, _, _, facts⟩ := decodePayload_facts decoded
    rcases mem_cons.mp member with same | behind
    · subst same
      exact facts.ordered record indexed
    · exact ih behind

end

/-- The payloads stand one behind the other from a position to the archive's end:
a header, then as many stored bytes as it declares. -/
def Laid (xxh3 : Xxh3) (archive : List UInt8) : Nat → List DecodedPayload → Prop
  | position, [] => position = archive.length
  | position, item :: rest =>
    let stored := (archive.drop (position + payloadHeaderSize)).take item.header.storedSize
    PayloadHeader.decode (archive.drop position) = some item.header ∧ stored.length = item.header.storedSize ∧
      (xxh3.digest stored).toNat = fromBigEndian item.header.checksum ∧
      (∀ header offset, item = .content header offset → offset = position + payloadHeaderSize) ∧
      Laid xxh3 archive (position + payloadHeaderSize + item.header.storedSize) rest

/-- Where the stored bytes of each payload start and stop. -/
def bodySpans : Nat → List DecodedPayload → List (Nat × Nat)
  | _, [] => []
  | position, item :: rest =>
    let start := position + payloadHeaderSize
    (start, start + item.header.storedSize) :: bodySpans (start + item.header.storedSize) rest

/-- Each payload with the bytes that are stored for it. -/
def bodies (archive : List UInt8) : Nat → List DecodedPayload → List (DecodedPayload × List UInt8)
  | _, [] => []
  | position, item :: rest =>
    let start := position + payloadHeaderSize
    (item, (archive.drop start).take item.header.storedSize) :: bodies archive (start + item.header.storedSize) rest

/-- A payload is what its header says: so many records, and so many bytes stored and unpacked. -/
structure Measured (zstd : Zstd) (limits : DecodeLimits) (body : DecodedPayload × List UInt8) : Prop where
  records : body.1.recordCount = body.1.header.numRecords
  stored : body.2.length = body.1.header.storedSize
  plain : body.1.plainLength zstd limits body.2 = body.1.header.plainSize

theorem bodies_items (archive : List UInt8) (position : Nat) (items : List DecodedPayload) :
    (bodies archive position items).map Prod.fst = items := by
  induction items generalizing position with
  | nil => rfl
  | cons item rest ih => rw [bodies, map_cons, ih]

theorem Walks.measured (walks : Walks zstd xxh3 limits archive position state items) :
    ∀ body ∈ bodies archive position items, Measured zstd limits body := by
  induction walks with
  | done ends => simp [bodies]
  | @step position next state after item rest decoded walks ih =>
    obtain ⟨_, _, ends, _, facts⟩ := decodePayload_facts decoded
    rw [← ends] at ih
    exact forall_mem_cons.mpr ⟨⟨facts.records, (validateStored_eq_ok.mp facts.valid).1, facts.plain⟩, ih⟩

/-- What is measured adds up to what the headers declare. -/
theorem sum_bodies {amount : DecodedPayload × List UInt8 → Nat} (declared : PayloadHeader → Nat)
    (same : ∀ body ∈ bodies archive position items, amount body = declared body.1.header) :
    ((bodies archive position items).map amount).sum = (items.map fun item => declared item.header).sum := by
  have each := congrArg (map fun item => declared item.header) (bodies_items archive position items)
  rw [map_map] at each
  rw [map_congr_left same, ← each]
  rfl

theorem Walks.laid (walks : Walks zstd xxh3 limits archive position state items) :
    Laid xxh3 archive position items := by
  induction walks with
  | done ends => exact ends
  | @step position next state after item rest decoded walks ih =>
    obtain ⟨read, _, ends, _, facts⟩ := decodePayload_facts decoded
    obtain ⟨length, digest⟩ := validateStored_eq_ok.mp facts.valid
    rw [← ends] at ih
    exact ⟨read, length, digest, fun header offset same => (facts.content header offset same).1, ih⟩

theorem Laid.bodySpans_within (laid : Laid xxh3 archive position items) :
    position ≤ archive.length ∧ ∀ span ∈ bodySpans position items,
      position + payloadHeaderSize ≤ span.1 ∧ span.1 ≤ span.2 ∧ span.2 ≤ archive.length := by
  induction items generalizing position with
  | nil => exact ⟨Nat.le_of_eq laid, by simp [bodySpans]⟩
  | cons item rest ih =>
    obtain ⟨within, spans⟩ := ih laid.2.2.2.2
    refine ⟨by omega, forall_mem_cons.mpr ⟨⟨Nat.le_refl _, Nat.le_add_right _ _, within⟩, ?_⟩⟩
    intro span behind
    obtain ⟨start, ordered, stop⟩ := spans span behind
    exact ⟨by omega, ordered, stop⟩

theorem Laid.bodySpans_disjoint (laid : Laid xxh3 archive position items) :
    (bodySpans position items).Pairwise fun first second =>
      first.2 + payloadHeaderSize ≤ second.1 := by
  induction items generalizing position with
  | nil => exact List.Pairwise.nil
  | cons item rest ih =>
    have tail : Laid xxh3 archive _ rest := laid.2.2.2.2
    refine List.Pairwise.cons ?_ (ih tail)
    intro span member
    exact (tail.bodySpans_within.2 span member).1

/-- What a full iteration without an error guarantees about the archive. The sums are over the
records that were decoded and the bytes that are stored and unpacked. They are over unbounded
numbers, so each of them is the decoder's own 64-bit total. -/
structure Accounted (zstd : Zstd) (xxh3 : Xxh3) (limits : DecodeLimits) (archive : List UInt8)
    (items : List DecodedPayload) : Prop where
  payloads : items.length ≤ limits.maxPayloads
  measured : ∀ body ∈ bodies archive stoneHeaderSize items, Measured zstd limits body
  records : ((bodies archive stoneHeaderSize items).map fun body => body.1.recordCount).sum ≤
    min limits.maxTotalRecords (UInt64.size - 1)
  storedBytes : ((bodies archive stoneHeaderSize items).map fun body => body.2.length).sum ≤
    min limits.maxTotalStoredBytes (UInt64.size - 1)
  plainBytes : ((bodies archive stoneHeaderSize items).map fun body => body.1.plainLength zstd limits body.2).sum ≤
    min limits.maxTotalPlainBytes (UInt64.size - 1)
  recordBytes : ((bodies archive stoneHeaderSize items).map fun body =>
      if body.1.header.kind.isRecordPayload then body.1.plainLength zstd limits body.2 else 0).sum ≤
    min limits.maxTotalRecordBytes (UInt64.size - 1)
  oneContent : items.countP (fun item => item.header.kind = .content) ≤ 1
  indices : ∀ content ∈ items, content.header.kind = .content → ∀ item ∈ items, ∀ record ∈ item.indices,
      record.start.toNat ≤ record.stop.toNat ∧ record.stop.toNat ≤ content.header.plainSize
  laid : Laid xxh3 archive stoneHeaderSize items
  disjoint : (bodySpans stoneHeaderSize items).Pairwise fun first second =>
    first.2 + payloadHeaderSize ≤ second.1

theorem countP_eq_sum {α : Type} (holds : α → Prop) [DecidablePred holds] (items : List α) :
    items.countP (fun item => holds item) = (items.map fun item => if holds item then 1 else 0).sum := by
  induction items with
  | nil => rfl
  | cons item rest ih =>
    rw [countP_cons, map_cons, sum_cons, ih]
    simp only [decide_eq_true_eq]
    omega

theorem Walks.one_content (walks : Walks zstd xxh3 limits archive position .start items) :
    items.countP (fun item => item.header.kind = .content) ≤ 1 := by
  have counted := walks.total_le (fun state => if state.contentSeen then 1 else 0)
    (fun header => if header.kind = .content then 1 else 0) 1 (fun _ _ => rfl)
    (by
      intro state header lets _
      by_cases isContent : header.kind = .content
      · simp [adding, isContent, (lets.content isContent).1]
      · have other : (header.kind == PayloadKind.content) = false := by simpa using isContent
        simp only [adding, isContent, other, Bool.or_false, if_false, Nat.add_zero, true_and]
        split <;> omega)
    (by simp [DecodeState.start])
  rw [countP_eq_sum]
  simpa [DecodeState.start] using counted

/-- A 64-bit total that every header let through keeps within its limit. -/
theorem Walks.sum_le {limit : Nat} (walks : Walks zstd xxh3 limits archive position .start items)
    (total : DecodeState → Nat) (amount : PayloadHeader → Nat)
    (indexed : ∀ state largest, total { state with maxIndexEnd := largest } = total state)
    (starts : total .start = 0)
    (adds : ∀ state header, state.Lets limits header → (total state < UInt64.size ∧ total state ≤ limit) →
      total (state.adding header) = total state + amount header ∧
        total (state.adding header) < UInt64.size ∧ total (state.adding header) ≤ limit) :
    (items.map fun item => amount item.header).sum ≤ min limit (UInt64.size - 1) := by
  have summed := walks.total_le total amount (min limit (UInt64.size - 1)) indexed (by
      intro state header lets within
      have bounded : total state < UInt64.size ∧ total state ≤ limit := by
        have positive : 0 < UInt64.size := by decide
        omega
      obtain ⟨sum, fits, small⟩ := adds state header lets bounded
      exact ⟨sum, by omega⟩)
    (by omega)
  omega

/-- Whatever the bytes and the limits, an iteration to the end accounts for the
whole archive. -/
theorem full_iteration_accounts (archive : List UInt8) (limits : DecodeLimits)
    (reader : StoneReader) (items : List DecodedPayload)
    (opened : readWithLimits archive limits = .ok reader)
    (iterated : reader.payloads zstd xxh3 = .ok (items.map .ok)) :
    Accounted zstd xxh3 limits archive items := by
  obtain ⟨_, _, _, _, _, header, _, few, _, same⟩ := readWithLimits_eq_ok.mp opened
  subst same
  obtain ⟨count, walks⟩ := StoneReader.payloads_walks.mp iterated
  have laid := walks.laid
  have measured := walks.measured
  refine ⟨count.trans_le few, measured, ?_, ?_, ?_, ?_, walks.one_content, ?_, laid, laid.bodySpans_disjoint⟩
  · rw [sum_bodies (·.numRecords) fun body member => (measured body member).records]
    exact walks.sum_le (·.records) (·.numRecords) (fun _ _ => rfl) rfl fun _ _ lets _ => ⟨rfl, lets.records⟩
  · rw [sum_bodies (·.storedSize) fun body member => (measured body member).stored]
    exact walks.sum_le (·.storedBytes) (·.storedSize) (fun _ _ => rfl) rfl fun _ _ lets _ => ⟨rfl, lets.storedBytes⟩
  · rw [sum_bodies (·.plainSize) fun body member => (measured body member).plain]
    exact walks.sum_le (·.plainBytes) (·.plainSize) (fun _ _ => rfl) rfl fun _ _ lets _ => ⟨rfl, lets.plainBytes⟩
  · let declared (header : PayloadHeader) := if header.kind.isRecordPayload then header.plainSize else 0
    rw [sum_bodies declared fun body member => by rw [(measured body member).plain]]
    refine walks.sum_le (·.recordBytes) declared (fun _ _ => rfl) rfl ?_
    intro state header lets within
    refine ⟨rfl, ?_⟩
    by_cases isRecord : header.kind.isRecordPayload = true
    · obtain ⟨fits, bounded, _⟩ := lets.recordBytes isRecord
      simp only [adding, isRecord, if_true]
      exact ⟨fits, bounded⟩
    · simpa [adding, isRecord] using within
  · intro content member isContent item indexMember record indexed
    exact ⟨walks.indices_ordered indexMember indexed, walks.indices_within_content member isContent indexMember indexed⟩

/-- An index of one range and the content of one byte it lies in, both stored as
they are. -/
def indexedArchive : List UInt8 :=
  [0, 109, 111, 115, 0, 2, 0, 0, 1, 0, 0, 2, 0, 0, 3, 0, 0, 4, 0, 0, 5, 0, 0, 6, 0, 0, 7, 1, 0, 0, 0, 1] ++
  [0, 0, 0, 0, 0, 0, 0, 32, 0, 0, 0, 0, 0, 0, 0, 32, 200, 147, 112, 6, 43, 187, 126, 248, 0, 0, 0, 1, 0, 1, 4, 1] ++
  [0, 0, 0, 0, 0, 0, 0, 0, 0, 0, 0, 0, 0, 0, 0, 1, 221, 131, 7, 96, 116, 54, 226, 199,
    112, 69, 194, 5, 245, 239, 106, 102] ++
  [0, 0, 0, 0, 0, 0, 0, 1, 0, 0, 0, 0, 0, 0, 0, 1, 112, 69, 194, 5, 245, 239, 106, 102, 0, 0, 0, 0, 0, 1, 2, 1] ++ [104]

def plainXxh3 : Xxh3 where
  digest stored :=
    if stored = [] then 3244421341483603138
    else if stored = [104] then 8090085636497697382
    else 14453018800967876344
  digest128 _ := 294439727575671911329500734744087718502

def indexedItems : List DecodedPayload :=
  [.index ⟨32, 32, [200, 147, 112, 6, 43, 187, 126, 248], 1, 1, .index, .none⟩
      [⟨0, 1, 294439727575671911329500734744087718502⟩],
    .content ⟨1, 1, [112, 69, 194, 5, 245, 239, 106, 102], 0, 1, .content, .none⟩ 128]

/-- The archive is read to its end and accounted for, by its 129 bytes and the
default limits. -/
theorem indexedArchive_accounted : readWithLimits indexedArchive .default =
        .ok ⟨⟨2, .binary⟩, indexedArchive, .default⟩ ∧
      StoneReader.payloads (storingZstd []) plainXxh3 ⟨⟨2, .binary⟩, indexedArchive, .default⟩ =
        .ok (indexedItems.map .ok) ∧
      Accounted (storingZstd []) plainXxh3 .default indexedArchive indexedItems := by
  have opened : readWithLimits indexedArchive .default =
      .ok ⟨⟨2, .binary⟩, indexedArchive, .default⟩ := by decide +kernel
  have iterated : StoneReader.payloads (storingZstd []) plainXxh3
      ⟨⟨2, .binary⟩, indexedArchive, .default⟩ = .ok (indexedItems.map .ok) := by decide +kernel
  exact ⟨opened, iterated, full_iteration_accounts indexedArchive .default _ indexedItems opened iterated⟩

end Cast.Stone
