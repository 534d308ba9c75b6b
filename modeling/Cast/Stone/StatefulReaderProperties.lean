import Cast.Stone.IterationProperties

/-! The sequence of payloads that the stateful calls return. It is the iterator's
as long as the shared stream stands where the next payload starts. The one content
is the only thing that moves it, so the position is known from the calls: a read of
the content that is not the last thing before the payload behind it leaves the
stream short, and a cursor that fell behind never reaches the archive's end. -/

namespace Cast.Stone

open Foundation List StatefulReader

variable {header : PayloadHeader} {pulled : Nat} {state : DecodeState} {other : DecodedPayload}

variable {items : List DecodedPayload} {reader : StoneReader} {count offset first second index : Nat}
  {item : DecodedPayload}

variable (zstd : Zstd) (xxh3 : Xxh3) in
/-- No call for a payload finds the stream moved: since the payload before it no
content was read, or that payload was the content and the last read of it took all
its stored bytes. -/
def Undisturbed (reader : StoneReader) (items : List DecodedPayload) :
    (count : Nat) → (moved : Option Nat) → List Call → Prop
  | _, _, [] => True
  | count, moved, .nextPayload :: rest =>
    (count < items.length → ∀ pulled ∈ moved, ∃ header offset,
      items[count - 1]? = some (.content header offset) ∧ pulled = header.storedSize) ∧
      Undisturbed reader items (count + 1) none rest
  | count, _, call :: rest => Undisturbed reader items count (some (call.pulledFrom zstd xxh3 reader)) rest

def payloadStart (items : List DecodedPayload) (count : Nat) : Nat :=
  stoneHeaderSize + ((items.take count).map fun item => payloadHeaderSize + item.header.storedSize).sum

theorem payloadStart_succ (found : items[count]? = some item) : payloadStart items (count + 1) =
      payloadStart items count + payloadHeaderSize + item.header.storedSize := by
  simp only [payloadStart, take_add_one, found, Option.toList_some, map_append,
    map_cons, map_nil, sum_append, sum_cons, sum_nil]
  omega

theorem payloadStart_lt (before : first < second) (within : second ≤ items.length) :
    payloadStart items first < payloadStart items second := by
  induction second with
  | zero => exact absurd before (Nat.not_lt_zero _)
  | succ second ih =>
    have found := getElem?_eq_getElem (Nat.lt_of_succ_le within)
    have grows := payloadStart_succ found
    have positive : 0 < payloadHeaderSize := by decide
    rcases Nat.lt_succ_iff_lt_or_eq.mp before with earlier | same
    · have := ih earlier (Nat.le_of_succ_le within)
      omega
    · subst same
      omega

theorem payloadStart_le (before : first ≤ second) (within : second ≤ items.length) :
    payloadStart items first ≤ payloadStart items second := by
  rcases Nat.lt_or_eq_of_le before with earlier | same
  · exact Nat.le_of_lt (payloadStart_lt earlier within)
  · rw [same]

variable {zstd : Zstd} {xxh3 : Xxh3} {limits : DecodeLimits} {archive : List UInt8}

theorem Walks.from_start (count : Nat) (walks : Walks zstd xxh3 limits archive stoneHeaderSize .start items)
    (within : count ≤ items.length) :
    ∃ state, Walks zstd xxh3 limits archive (payloadStart items count) state (items.drop count) := by
  induction count with
  | zero => exact ⟨.start, by simpa [payloadStart] using walks⟩
  | succ count ih =>
    obtain ⟨state, rest⟩ := ih (Nat.le_of_succ_le within)
    have found := getElem?_eq_getElem (Nat.lt_of_succ_le within)
    rw [drop_eq_getElem_cons (Nat.lt_of_succ_le within)] at rest
    cases rest with
    | @step _ next _ after _ _ decoded rest =>
      obtain ⟨_, _, ends, _⟩ := decodePayload_facts decoded
      rw [payloadStart_succ found, ends]
      exact ⟨after, rest⟩

theorem Walks.payloadStart_length (walks : Walks zstd xxh3 limits archive stoneHeaderSize .start items) :
    payloadStart items items.length = archive.length := by
  obtain ⟨state, rest⟩ := walks.from_start items.length (Nat.le_refl _)
  rw [drop_length] at rest
  cases rest with
  | done ends => exact ends

theorem Walks.decoded_at (walks : Walks zstd xxh3 limits archive (payloadStart items count) state (items.drop count))
    (found : items[count]? = some item) :
    ∃ after, decodePayload zstd xxh3 limits archive (payloadStart items count) state =
        .ok (item, payloadStart items (count + 1), after) ∧
      Walks zstd xxh3 limits archive (payloadStart items (count + 1)) after (items.drop (count + 1)) := by
  obtain ⟨within, same⟩ := List.getElem?_eq_some_iff.mp found
  rw [drop_eq_getElem_cons within, same] at walks
  cases walks with
  | @step _ next _ after _ _ decoded rest =>
    obtain ⟨_, _, ends, _⟩ := decodePayload_facts decoded
    rw [payloadStart_succ found, ends]
    exact ⟨after, decoded, rest⟩

/-- A content payload of the walk: its body ends where the next payload starts, and
reading it passes the checks. -/
theorem Walks.content_at (opened : StoneReader)
    (walks : Walks zstd xxh3 opened.limits opened.archive stoneHeaderSize .start items)
    (found : items[index]? = some (.content header offset)) :
    offset + header.storedSize = payloadStart items (index + 1) ∧ header.kind = .content ∧
      opened.validateContentReference header offset = .ok () := by
  obtain ⟨within, _⟩ := List.getElem?_eq_some_iff.mp found
  obtain ⟨state, rest⟩ := walks.from_start index (Nat.le_of_lt within)
  obtain ⟨after, decoded, _⟩ := rest.decoded_at found
  obtain ⟨_, lets, ends, bounded, facts⟩ := decodePayload_facts decoded
  obtain ⟨place, kind, known⟩ := facts.content header offset rfl
  obtain ⟨_, _, _, _, fits, _⟩ := decodePayload_eq_ok.mp decoded
  simp only [DecodedPayload.header] at lets ends kind known
  have version : header.version = 1 := lets.version (by rw [kind]; decide)
  have least : stoneHeaderSize ≤ payloadStart items index := Nat.le_add_right _ _
  refine ⟨by omega, kind, ?_⟩
  simp only [StoneReader.validateContentReference, bind_eq_ok, refuse_eq_ok, exists_check,
    enforceLimit_eq_ok, checkedSum_eq_ok, not_not, ne_eq]
  exact ⟨kind, version, known, lets.storedSize, lets.plainSize, _, ⟨by omega, rfl⟩, by omega⟩

theorem Walks.content_unique (opened : StoneReader)
    (walks : Walks zstd xxh3 opened.limits opened.archive stoneHeaderSize .start items)
    (found : items[first]? = some (.content header offset)) {otherHeader : PayloadHeader} {otherOffset : Nat}
    (foundOther : items[second]? = some (.content otherHeader otherOffset)) : first = second := by
  have isContent := (walks.content_at opened found).2.1
  have otherContent := (walks.content_at opened foundOther).2.1
  have separate {first second : Nat} {item other : DecodedPayload}
      (found : items[first]? = some item) (isContent : item.header.kind = .content)
      (foundOther : items[second]? = some other) (otherContent : other.header.kind = .content) :
      ¬ first < second := by
    intro before
    have one := walks.one_content
    rw [← take_append_drop second items, countP_append] at one
    have inFront : item ∈ items.take second := by
      rw [← getElem?_take_of_lt before] at found
      exact mem_of_getElem? found
    have behind : other ∈ items.drop second := by
      have front : (items.drop second)[0]? = some other := by simpa using foundOther
      exact mem_of_getElem? front
    have countFront : 0 < (items.take second).countP fun item => item.header.kind = .content :=
      countP_pos_iff.mpr ⟨item, inFront, decide_eq_true isContent⟩
    have countBehind : 0 < (items.drop second).countP fun item => item.header.kind = .content :=
      countP_pos_iff.mpr ⟨other, behind, decide_eq_true otherContent⟩
    omega
  have notBefore := separate found isContent foundOther otherContent
  have notBehind := separate foundOther otherContent found isContent
  omega

variable {zstd : Zstd} {xxh3 : Xxh3}

def LeftAt (items : List DecodedPayload) (count position pulled : Nat) : Prop :=
  ∃ index header offset, index < count ∧ items[index]? = some (.content header offset) ∧
    pulled ≤ header.storedSize ∧ position = offset + pulled

/-- The session that has returned the first payloads of the walk. -/
structure Follows (zstd : Zstd) (xxh3 : Xxh3) (reader : StoneReader)
    (items : List DecodedPayload) (session : StatefulReader) (count : Nat) (moved : Option Nat) :
    Prop where
  same : session.reader = reader
  counted : session.nextPayload = count
  alive : session.nextFailed = false
  within : count ≤ items.length
  walks : Walks zstd xxh3 reader.limits reader.archive (payloadStart items count) session.nextState (items.drop count)
  still : moved = none → session.position = payloadStart items count
  left : ∀ pulled, moved = some pulled → LeftAt items count session.position pulled

/-- The session that decoded a payload from a place before it can not catch up. -/
structure Lags (reader : StoneReader) (items : List DecodedPayload) (session : StatefulReader)
    (count : Nat) : Prop where
  same : session.reader = reader
  counted : session.nextPayload = count
  alive : session.nextFailed = false
  within : count < items.length
  behind : session.position < payloadStart items count
  contents : ∀ index header offset, items[index]? = some (.content header offset) → index + 1 < count

variable {calls : List Call} {self : StatefulReader} {moved : Option Nat}

theorem StatefulReader.perform_next_decoded {payload : DecodedPayload}
    {position : Nat} (alive : self.nextFailed = false)
    (more : self.nextPayload < self.reader.header.numPayloads)
    (decoded : decodePayload zstd xxh3 self.reader.limits self.reader.archive self.position
      self.nextState = .ok (payload, position, state))
    (ends : self.nextPayload + 1 = self.reader.header.numPayloads → position = self.reader.archive.length) :
    self.perform zstd xxh3 .nextPayload = (some payload, { self with
      position := position, nextState := state, nextPayload := self.nextPayload + 1 }) := by
  have notDone : ¬ self.nextPayload ≥ self.reader.header.numPayloads := Nat.not_le.mpr more
  simp only [perform, StatefulReader.next, alive, notDone, decoded, if_false, Bool.false_eq_true]
  by_cases last : self.nextPayload + 1 = self.reader.header.numPayloads
  · have verified : verifyArchiveEnd self.reader.archive position = .ok () := verifyArchiveEnd_eq_ok.mpr (ends last)
    simp [last, verified, Except.toOption]
  · simp [last, Except.toOption]

variable (zstd xxh3) in
/-- A call for a payload decodes one where the stream stands, or poisons the cursor. -/
theorem StatefulReader.perform_next_cases (alive : self.nextFailed = false)
    (more : self.nextPayload < self.reader.header.numPayloads) :
    (∃ payload position state, decodePayload zstd xxh3 self.reader.limits self.reader.archive
        self.position self.nextState = .ok (payload, position, state) ∧
      (self.nextPayload + 1 = self.reader.header.numPayloads → position = self.reader.archive.length) ∧
      self.perform zstd xxh3 .nextPayload = (some payload, { self with
        position := position, nextState := state, nextPayload := self.nextPayload + 1 })) ∨
    ∃ after, self.perform zstd xxh3 .nextPayload = (none, after) ∧ after.nextFailed = true := by
  have notDone : ¬ self.nextPayload ≥ self.reader.header.numPayloads := Nat.not_le.mpr more
  cases decoded : decodePayload zstd xxh3 self.reader.limits self.reader.archive self.position self.nextState with
  | error error =>
    refine .inr ⟨{ self with nextFailed := true }, ?_, rfl⟩
    simp [perform, StatefulReader.next, alive, notDone, decoded, Except.toOption]
  | ok result =>
    obtain ⟨payload, position, state⟩ := result
    by_cases ends : self.nextPayload + 1 = self.reader.header.numPayloads → position = self.reader.archive.length
    · exact .inl ⟨payload, position, state, rfl, ends, perform_next_decoded alive more decoded ends⟩
    · obtain ⟨last, short⟩ := Classical.not_imp.mp ends
      refine .inr ⟨{ self with
        position := position, nextState := state, nextPayload := self.nextPayload + 1,
        nextFailed := true }, ?_, rfl⟩
      simp [perform, StatefulReader.next, alive, notDone, decoded, last,
        verifyArchiveEnd, refuse, short, Except.toOption]

theorem Call.pulledFrom_unpackContent_le (bounded : pulled ≤ header.storedSize) :
    (Call.unpackContent header offset pulled).pulledFrom zstd xxh3 reader ≤ header.storedSize := by
  rw [Call.pulledFrom]
  cases reader.unpackContent zstd xxh3 header offset with
  | ok _ => exact Nat.le_refl _
  | error _ => exact bounded

theorem exists_index_of_mem_take {α : Type} {items : List α} {item : α}
    (member : item ∈ items.take count) : ∃ index, index < count ∧ items[index]? = some item := by
  obtain ⟨index, within, found⟩ := mem_take_iff_getElem.mp member
  exact ⟨index, by omega, List.getElem?_eq_some_iff.mpr ⟨by omega, found⟩⟩

theorem StatefulReader.returned_cons (self : StatefulReader) (call : Call) (rest : List Call) :
    self.returned zstd xxh3 (call :: rest) = (self.perform zstd xxh3 call).1.toList ++
      (self.perform zstd xxh3 call).2.returned zstd xxh3 rest := rfl

/-- A poisoned or exhausted cursor. -/
def StatefulReader.Silent (self : StatefulReader) : Prop :=
  self.nextFailed = true ∨ self.reader.header.numPayloads ≤ self.nextPayload

variable (zstd xxh3) in
theorem StatefulReader.Silent.perform (silent : self.Silent) (call : Call) :
    (self.perform zstd xxh3 call).1 = none ∧ (self.perform zstd xxh3 call).2.Silent := by
  have seeks (header : PayloadHeader) (offset pulled : Nat) : (self.seekContent header offset pulled).Silent := by
    unfold seekContent
    cases self.reader.validateContentReference header offset with
    | error _ | ok _ => exact silent
  cases call with
  | nextPayload =>
    unfold StatefulReader.perform StatefulReader.next
    by_cases failed : self.nextFailed = true
    · simpa [failed, Except.toOption] using silent
    · have done : self.reader.header.numPayloads ≤ self.nextPayload := by
        rcases silent with failure | done
        · exact absurd failure failed
        · exact done
      simpa [failed, done, Except.toOption] using silent
  | unpackContent _ _ _ | readContent _ _ _ => exact ⟨rfl, seeks _ _ _⟩

theorem StatefulReader.Silent.returned (silent : self.Silent)
    (calls : List Call) : self.returned zstd xxh3 calls = [] := by
  induction calls generalizing self with
  | nil => rfl
  | cons call rest ih =>
    obtain ⟨nothing, stays⟩ := silent.perform zstd xxh3 call
    rw [returned_cons, nothing, ih stays]
    rfl

theorem undisturbed_of_length_le (calls : List Call)
    (past : items.length ≤ count) : Undisturbed zstd xxh3 reader items count moved calls := by
  induction calls generalizing count moved with
  | nil => trivial
  | cons call rest ih =>
    cases call with
    | nextPayload => exact ⟨fun more => absurd more (Nat.not_lt.mpr past), ih (Nat.le_succ_of_le past)⟩
    | unpackContent _ _ _ | readContent _ _ _ => exact ih past

theorem take_append_singleton
    (found : items[count]? = some item) : items.take count ++ [item] = items.take (count + 1) := by
  rw [take_add_one, found, Option.toList_some]

theorem take_append_cons_ne (found : items[count]? = some item) (different : other ≠ item)
    (rest : List DecodedPayload) : items.take count ++ other :: rest ≠ items := by
  intro same
  obtain ⟨within, _⟩ := List.getElem?_eq_some_iff.mp found
  have read : (items.take count ++ other :: rest)[count]? = some other := by
    rw [getElem?_append_right (length_take_le _ _), length_take, Nat.min_eq_left (Nat.le_of_lt within), Nat.sub_self]
    rfl
  rw [same, found] at read
  exact different (Option.some.inj read).symm

theorem take_ne (within : count < items.length) : items.take count ≠ items := by
  intro same
  have lengths := congrArg List.length same
  rw [length_take] at lengths
  omega

theorem StatefulReader.Allows.append_next {before : List DecodedPayload}
    (allowed : self.Allows zstd xxh3 before calls) (more : Nat) :
    self.Allows zstd xxh3 before (calls ++ replicate more .nextPayload) := by
  induction calls generalizing self before with
  | nil =>
    rw [nil_append]
    induction more generalizing self before with
    | zero => trivial
    | succ more ih => exact ⟨trivial, ih trivial⟩
  | cons call rest ih => exact ⟨allowed.1, ih allowed.2⟩

/-- A content call on a payload of the walk leaves the stream within its body. -/
theorem StatefulReader.seekContent_eq
    (walks : Walks zstd xxh3 self.reader.limits self.reader.archive stoneHeaderSize .start items)
    (found : items[index]? = some (.content header offset)) :
    self.seekContent header offset pulled = { self with position := offset + pulled } := by
  obtain ⟨_, _, valid⟩ := walks.content_at self.reader found
  simp [seekContent, valid]

section Following

variable (walks : Walks zstd xxh3 reader.limits reader.archive stoneHeaderSize .start items)
include walks

theorem Lags.seek (lags : Lags reader items self count)
    (returned : .content header offset ∈ items.take count) (bounded : pulled ≤ header.storedSize) :
    Lags reader items (self.seekContent header offset pulled) count := by
  obtain ⟨index, _, found⟩ := exists_index_of_mem_take returned
  have opened := walks
  rw [← lags.same] at opened
  obtain ⟨ends, _, _⟩ := walks.content_at reader found
  have apart := payloadStart_lt (lags.contents index header offset found) (Nat.le_of_lt lags.within)
  rw [seekContent_eq opened found]
  refine ⟨lags.same, lags.counted, lags.alive, lags.within, ?_, lags.contents⟩
  dsimp only
  omega

section

variable (follows : Follows zstd xxh3 reader items self count moved)
include follows

/-- The stream is where a payload starts exactly when the session is undisturbed. -/
theorem Follows.position_iff :
    self.position = payloadStart items count ↔ ∀ pulled ∈ moved, ∃ header offset,
        items[count - 1]? = some (.content header offset) ∧ pulled = header.storedSize := by
  cases moved with
  | none => simpa using follows.still rfl
  | some pulled =>
    obtain ⟨index, header, offset, before, found, bounded, place⟩ := follows.left pulled rfl
    obtain ⟨ends, _, _⟩ := walks.content_at reader found
    have next : payloadStart items (index + 1) ≤ payloadStart items count := payloadStart_le before follows.within
    simp only [Option.mem_def, Option.some.injEq, forall_eq']
    constructor
    · intro stands
      have same : index + 1 = count := by
        rcases Nat.lt_or_eq_of_le (Nat.succ_le_of_lt before) with earlier | same
        · have apart : payloadStart items (index + 1) < payloadStart items count :=
            payloadStart_lt earlier follows.within
          omega
        · exact same
      subst same
      exact ⟨header, offset, found, by omega⟩
    · intro whole
      obtain ⟨otherHeader, otherOffset, foundOther, all⟩ := whole
      have same := walks.content_unique reader found foundOther
      have last : index + 1 = count := by omega
      subst same
      rw [found] at foundOther
      cases foundOther
      rw [last] at ends
      omega

theorem Follows.position_le : self.position ≤ payloadStart items count := by
  cases moved with
  | none => exact Nat.le_of_eq (follows.still rfl)
  | some pulled =>
    obtain ⟨index, header, offset, before, found, bounded, place⟩ := follows.left pulled rfl
    obtain ⟨ends, _, _⟩ := walks.content_at reader found
    have next : payloadStart items (index + 1) ≤ payloadStart items count := payloadStart_le before follows.within
    omega

theorem Follows.seek (returned : .content header offset ∈ items.take count) (bounded : pulled ≤ header.storedSize) :
    Follows zstd xxh3 reader items (self.seekContent header offset pulled) count (some pulled) := by
  obtain ⟨index, before, found⟩ := exists_index_of_mem_take returned
  have opened := walks
  rw [← follows.same] at opened
  rw [seekContent_eq opened found]
  refine ⟨follows.same, follows.counted, follows.alive, follows.within, follows.walks, ?_, ?_⟩
  · intro none
    cases none
  · intro other same
    cases same
    exact ⟨index, header, offset, before, found, bounded, rfl⟩

/-- A stream that was moved was moved by a read of the one content. -/
theorem Follows.contents_before (behind : self.position < payloadStart items count)
    (found : items[index]? = some (.content header offset)) : index < count := by
  cases moved with
  | none => exact absurd (follows.still rfl) (Nat.ne_of_lt behind)
  | some pulled =>
    obtain ⟨readIndex, _, _, before, readFound, _, _⟩ := follows.left pulled rfl
    exact (walks.content_unique reader found readFound).trans_lt before

end

variable (all : items.length = reader.header.numPayloads)
include all

theorem Follows.next (follows : Follows zstd xxh3 reader items self count moved)
    (found : items[count]? = some item) (stands : self.position = payloadStart items count) :
    ∃ after, self.perform zstd xxh3 .nextPayload = (some item, after) ∧
      Follows zstd xxh3 reader items after (count + 1) none := by
  obtain ⟨within, _⟩ := List.getElem?_eq_some_iff.mp found
  obtain ⟨state, decoded, rest⟩ := follows.walks.decoded_at found
  have same := follows.same
  have counted := follows.counted
  subst same counted
  rw [← stands] at decoded
  refine ⟨_, perform_next_decoded follows.alive (by omega) decoded ?_, ?_⟩
  · intro last
    rw [last, ← all, walks.payloadStart_length]
  · refine ⟨rfl, rfl, follows.alive, within, rest, fun _ => rfl, ?_⟩
    intro pulled moves
    cases moves

section Behind

variable (same : self.reader = reader) (counted : self.nextPayload = count)
  (alive : self.nextFailed = false) (found : items[count]? = some item)
  (behind : self.position < payloadStart items count)
  (contents : ∀ index header offset, items[index]? = some (.content header offset) → index < count)
include same counted alive found behind contents

/-- A call from a place before the payload that is due returns another payload or
falls behind for good. -/
theorem next_from_behind : (∃ after, self.perform zstd xxh3 .nextPayload = (none, after) ∧ after.nextFailed = true) ∨
    (∃ other after, self.perform zstd xxh3 .nextPayload = (some other, after) ∧ other ≠ item) ∨
    ∃ after, self.perform zstd xxh3 .nextPayload = (some item, after) ∧ Lags reader items after (count + 1) := by
  obtain ⟨within, _⟩ := List.getElem?_eq_some_iff.mp found
  subst same counted
  rcases perform_next_cases zstd xxh3 alive (by omega) with decodes | poisons
  · obtain ⟨payload, position, state, decoded, ends, performed⟩ := decodes
    by_cases due : payload = item
    · subst due
      obtain ⟨_, _, place, _, _⟩ := decodePayload_facts decoded
      have later := payloadStart_succ found
      have notLast : self.nextPayload + 1 ≠ self.reader.header.numPayloads := by
        intro last
        have reached := ends last
        have total := walks.payloadStart_length
        rw [all, ← last] at total
        omega
      refine .inr (.inr ⟨_, performed, rfl, rfl, alive, by omega, ?_, ?_⟩)
      · dsimp only
        omega
      · intro index header offset content
        have := contents index header offset content
        omega
    · exact .inr (.inl ⟨payload, _, performed, due⟩)
  · exact .inl poisons

/-- A call from a place before the payload that is due spoils the sequence, if a
session that lags does. -/
theorem next_from_behind_spoils (allowed : self.Allows zstd xxh3 (items.take count) (.nextPayload :: calls))
    (later : ∀ after : StatefulReader, Lags reader items after (count + 1) →
      after.Allows zstd xxh3 (items.take (count + 1)) calls →
      items.take (count + 1) ++ after.returned zstd xxh3 calls ≠ items) :
    items.take count ++ self.returned zstd xxh3 (.nextPayload :: calls) ≠ items := by
  obtain ⟨within, _⟩ := List.getElem?_eq_some_iff.mp found
  obtain ⟨_, allowed⟩ := allowed
  rw [returned_cons]
  rcases next_from_behind walks all same counted alive found behind contents with poisons | strays | keeps
  · obtain ⟨after, performed, failed⟩ := poisons
    have silent : after.Silent := .inl failed
    rw [performed, silent.returned, Option.toList_none, append_nil, append_nil]
    exact take_ne within
  · obtain ⟨other, after, performed, different⟩ := strays
    rw [performed]
    exact take_append_cons_ne found different _
  · obtain ⟨after, performed, lags⟩ := keeps
    have front := take_append_singleton found
    rw [performed, Option.toList_some, front] at allowed
    rw [performed, Option.toList_some, ← append_assoc, front]
    exact later after lags allowed

end Behind

theorem Lags.returned (lags : Lags reader items self count) (allowed : self.Allows zstd xxh3 (items.take count) calls) :
    items.take count ++ self.returned zstd xxh3 calls ≠ items := by
  induction calls generalizing self count with
  | nil =>
    rw [StatefulReader.returned, append_nil]
    exact take_ne lags.within
  | cons call rest ih =>
    cases call with
    | nextPayload =>
      refine next_from_behind_spoils walks all lags.same lags.counted lags.alive
        (getElem?_eq_getElem lags.within) lags.behind ?_ allowed
        (fun after lags allowed => ih lags allowed)
      intro index header offset content
      exact Nat.lt_of_succ_lt (lags.contents index header offset content)
    | unpackContent header offset pulled =>
      obtain ⟨⟨returned, bounded⟩, allowed⟩ := allowed
      simp only [perform, Option.toList_none, append_nil] at allowed
      exact ih (lags.seek walks returned (Call.pulledFrom_unpackContent_le bounded)) allowed
    | readContent header offset pulled =>
      obtain ⟨⟨returned, bounded⟩, allowed⟩ := allowed
      simp only [perform, Option.toList_none, append_nil] at allowed
      exact ih (lags.seek walks returned bounded) allowed

/-- The run lemma: a session that follows the walk and calls often enough returns all
payloads exactly when no call is disturbed. -/
theorem Follows.returned_iff (follows : Follows zstd xxh3 reader items self count moved)
    (allowed : self.Allows zstd xxh3 (items.take count) calls)
    (enough : items.length ≤ count + calls.count .nextPayload) :
    items.take count ++ self.returned zstd xxh3 calls = items ↔
      Undisturbed zstd xxh3 reader items count moved calls := by
  induction calls generalizing self count moved with
  | nil =>
    rw [StatefulReader.returned, append_nil, take_of_length_le (by simpa using enough)]
    exact iff_of_true rfl trivial
  | cons call rest ih =>
    cases call with
    | nextPayload =>
      rcases Nat.lt_or_eq_of_le follows.within with more | done
      · obtain ⟨item, found⟩ : ∃ item, items[count]? = some item := ⟨_, getElem?_eq_getElem more⟩
        have stands := follows.position_iff walks
        have remaining : items.length ≤ count + 1 + rest.count .nextPayload := by
          rw [count_cons_self] at enough
          omega
        rw [Undisturbed, ← stands]
        by_cases due : self.position = payloadStart items count
        · obtain ⟨_, allowed⟩ := allowed
          obtain ⟨after, performed, next⟩ := follows.next walks all found due
          have front := take_append_singleton found
          rw [performed, Option.toList_some, front] at allowed
          rw [returned_cons, performed, Option.toList_some, ← append_assoc, front, ih next allowed remaining]
          exact ⟨fun rest => ⟨fun _ => due, rest⟩, fun held => held.2⟩
        · have behind : self.position < payloadStart items count := Nat.lt_of_le_of_ne (follows.position_le walks) due
          refine iff_of_false ?_ fun held => due (held.1 more)
          exact next_from_behind_spoils walks all follows.same follows.counted follows.alive found behind
            (fun index header offset content => follows.contents_before walks behind content)
            allowed (fun after lags allowed => lags.returned walks all allowed)
      · have silent : self.Silent := .inr (by rw [follows.same, follows.counted, done, all])
        rw [silent.returned, append_nil, take_of_length_le (Nat.le_of_eq done.symm)]
        exact iff_of_true rfl (undisturbed_of_length_le _ (Nat.le_of_eq done.symm))
    | unpackContent header offset pulled =>
      obtain ⟨⟨returned, bounded⟩, allowed⟩ := allowed
      simp only [perform, Option.toList_none, append_nil] at allowed
      have seeks : Follows zstd xxh3 reader items (self.seekContent header offset
            ((Call.unpackContent header offset pulled).pulledFrom zstd xxh3 reader)) count _ :=
        follows.seek walks returned (Call.pulledFrom_unpackContent_le bounded)
      rw [follows.same] at allowed
      rw [returned_cons]
      simp only [perform, Option.toList_none, nil_append, follows.same]
      exact ih seeks allowed (by simpa using enough)
    | readContent header offset pulled =>
      obtain ⟨⟨returned, bounded⟩, allowed⟩ := allowed
      simp only [perform, Option.toList_none, append_nil] at allowed
      exact ih (follows.seek walks returned bounded) allowed (by simpa using enough)

end Following

/-- Any calls, followed by enough calls for the payloads that are left, return the
payloads of the iterator exactly when no call for a payload is disturbed. -/
theorem next_payload_sequence_iff (reader : StoneReader) (items : List DecodedPayload)
    (calls : List Call) (iterated : reader.payloads zstd xxh3 = .ok (items.map .ok))
    (allowed : (StatefulReader.start reader).Allows zstd xxh3 [] calls) :
    (StatefulReader.start reader).returned zstd xxh3 (calls ++ replicate items.length .nextPayload) = items ↔
      Undisturbed zstd xxh3 reader items 0 none (calls ++ replicate items.length .nextPayload) := by
  obtain ⟨all, walks⟩ := StoneReader.payloads_walks.mp iterated
  have follows : Follows zstd xxh3 reader items (StatefulReader.start reader) 0 none := by
    refine ⟨rfl, rfl, rfl, Nat.zero_le _, ?_, fun _ => ?_, ?_⟩
    · simpa [payloadStart, StatefulReader.start] using walks
    · simp [payloadStart, StatefulReader.start]
    · intro pulled moves
      cases moves
  have complete := allowed.append_next items.length
  have enough : items.length ≤ 0 + (calls ++ replicate items.length Call.nextPayload).count Call.nextPayload := by
    rw [count_append, count_replicate_self]
    omega
  exact follows.returned_iff walks all complete enough

/-- A content of one byte, then metadata and attributes without records. -/
def threePayloads : List UInt8 :=
  [0, 109, 111, 115, 0, 3, 0, 0, 1, 0, 0, 2, 0, 0, 3, 0, 0, 4, 0, 0, 5, 0, 0, 6, 0, 0, 7, 1, 0, 0, 0, 1] ++
  [0, 0, 0, 0, 0, 0, 0, 1, 0, 0, 0, 0, 0, 0, 0, 1, 112, 69, 194, 5, 245, 239, 106, 102,
    0, 0, 0, 0, 0, 1, 2, 1] ++ [104] ++
  [0, 0, 0, 0, 0, 0, 0, 0, 0, 0, 0, 0, 0, 0, 0, 0, 45, 6, 128, 5, 56, 211, 148, 194, 0, 0, 0, 0, 0, 1, 1, 1] ++
  [0, 0, 0, 0, 0, 0, 0, 0, 0, 0, 0, 0, 0, 0, 0, 0, 45, 6, 128, 5, 56, 211, 148, 194, 0, 0, 0, 0, 0, 1, 5, 1]

def threeReader : StoneReader := ⟨⟨3, .binary⟩, threePayloads, .default⟩

def oneByteHeader : PayloadHeader := ⟨1, 1, [112, 69, 194, 5, 245, 239, 106, 102], 0, 1, .content, .none⟩

def threeItems : List DecodedPayload :=
  [.content oneByteHeader 64, .metadata ⟨0, 0, [45, 6, 128, 5, 56, 211, 148, 194], 0, 1, .metadata, .none⟩ [],
    .attributes ⟨0, 0, [45, 6, 128, 5, 56, 211, 148, 194], 0, 1, .attributes, .none⟩ []]

theorem threeReader_next : (perform (storingZstd []) plainXxh3
    (StatefulReader.start threeReader) .nextPayload).1 = some (.content oneByteHeader 64) := by
  decide +kernel

/-- Unpacking the content right behind its payload disturbs nothing. -/
theorem unpacked_at_once_in_sequence :
    StoneReader.payloads (storingZstd []) plainXxh3 threeReader = .ok (threeItems.map .ok) ∧
      (StatefulReader.start threeReader).Allows (storingZstd []) plainXxh3 []
        [.nextPayload, .unpackContent oneByteHeader 64 0, .nextPayload] ∧
      (StatefulReader.start threeReader).returned (storingZstd []) plainXxh3
        ([.nextPayload, .unpackContent oneByteHeader 64 0, .nextPayload] ++
          replicate 3 .nextPayload) = threeItems := by
  have iterated : StoneReader.payloads (storingZstd []) plainXxh3 threeReader =
      .ok (threeItems.map .ok) := by decide +kernel
  have unpacked : StoneReader.unpackContent (storingZstd []) plainXxh3 threeReader oneByteHeader
      64 = .ok [104] := by decide +kernel
  have allowed : (StatefulReader.start threeReader).Allows (storingZstd []) plainXxh3 []
      [.nextPayload, .unpackContent oneByteHeader 64 0, .nextPayload] := by
    refine ⟨trivial, ⟨?_, Nat.zero_le _⟩, trivial, trivial⟩
    rw [threeReader_next]
    exact mem_singleton_self _
  refine ⟨iterated, allowed, (next_payload_sequence_iff threeReader threeItems _ iterated allowed).mpr ?_⟩
  have whole : (Call.unpackContent oneByteHeader 64 0).pulledFrom (storingZstd []) plainXxh3
      threeReader = oneByteHeader.storedSize := by
    rw [Call.pulledFrom, unpacked]
  simp [Undisturbed, whole, threeItems]

/-- Unpacking the content once another payload was returned puts the stream back: the
metadata is decoded again in place of the attributes, and the archive's end is
missed. -/
theorem unpacked_later_out_of_sequence : readWithLimits threePayloads .default = .ok threeReader ∧
      StoneReader.payloads (storingZstd []) plainXxh3 threeReader = .ok (threeItems.map .ok) ∧
      (StatefulReader.start threeReader).Allows (storingZstd []) plainXxh3 []
        [.nextPayload, .nextPayload, .unpackContent oneByteHeader 64 0] ∧
      (StatefulReader.start threeReader).returned (storingZstd []) plainXxh3
        ([.nextPayload, .nextPayload, .unpackContent oneByteHeader 64 0] ++
          replicate 3 .nextPayload) = threeItems.take 2 := by
  refine ⟨by decide +kernel, by decide +kernel, ?_, by decide +kernel⟩
  refine ⟨trivial, trivial, ⟨?_, Nat.zero_le _⟩, trivial⟩
  rw [threeReader_next]
  exact mem_append_left _ (mem_singleton_self _)

end Cast.Stone
