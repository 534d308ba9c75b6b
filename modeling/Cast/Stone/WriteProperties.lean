import Cast.Foundation.Loops
import Cast.Stone.RecordProperties
import Cast.Stone.Write

/-! What the writer produces. Whatever the layers count, the bytes that reach the
compression are those written, in order and in pieces of one block; so a payload
is one frame over them, under a header that declares what was counted. -/

namespace Cast.Stone

open Foundation List ContentWriter DigestWriter

variable {pledge : Option Nat}

section Frames

variable (zstd : Zstd)

/-- Feeds a frame piece by piece; the output on the way. -/
def Zstd.feed (zstd : Zstd) : zstd.Context → List (List UInt8) → Except String (zstd.Context × List UInt8)
  | context, [] => .ok (context, [])
  | context, piece :: rest => do
    let (context, outputs) ← zstd.compress context piece
    let (context, output) ← zstd.feed context rest
    return (context, outputs.flatten ++ output)

def Zstd.frame (context : zstd.Context) (pieces : List (List UInt8)) : Except String (zstd.Context × List UInt8) := do
  let (context, output) ← zstd.feed context pieces
  let (context, outputs) ← zstd.finish context
  return (context, output ++ outputs.flatten)

/-- The contexts a frame may begin with, and the size pledged for it. -/
inductive Zstd.Between (zstd : Zstd) : zstd.Context → Option Nat → Prop where
  | create : Zstd.Between zstd zstd.create none
  | pledged {context : zstd.Context} {pledge : Option Nat} (size : Option Nat) :
      Zstd.Between zstd context pledge → Zstd.Between zstd (zstd.setPledgedSize context size) size
  | workers {context : zstd.Context} {pledge : Option Nat} (count : Nat) :
      Zstd.Between zstd context pledge → Zstd.Between zstd (zstd.setNumWorkers context count) pledge
  | finished {context next : zstd.Context} {pledge : Option Nat} {pieces : List (List UInt8)} {output : List UInt8} :
      Zstd.Between zstd context pledge → zstd.frame context pieces = .ok (next, output) →
      Zstd.Between zstd next none

/-- Compression works when the pledge is kept, and decompression inverts it
within the window it was made with. -/
structure Zstd.Lawful (zstd : Zstd) : Prop where
  succeeds : ∀ (context : zstd.Context) (pledge : Option Nat) (pieces : List (List UInt8)),
    zstd.Between context pledge → (∀ size ∈ pledge, size = pieces.flatten.length) →
    ∃ result, zstd.frame context pieces = .ok result
  inverts : ∀ (context next : zstd.Context) (pledge : Option Nat) (pieces : List (List UInt8))
    (output : List UInt8) (windowLog : Nat),
    zstd.Between context pledge → zstd.frame context pieces = .ok (next, output) →
    encoderWindowLog ≤ windowLog → zstd.decompress windowLog output = some pieces.flatten

variable {zstd}

theorem Zstd.feed_append (context : zstd.Context) (first second : List (List UInt8)) :
    zstd.feed context (first ++ second) = (do
      let (context, before) ← zstd.feed context first
      let (context, after) ← zstd.feed context second
      return (context, before ++ after)) := by
  induction first generalizing context with
  | nil =>
    rw [nil_append, Zstd.feed]
    change _ = (zstd.feed context second >>= _)
    cases zstd.feed context second <;> rfl
  | cons piece rest ih =>
    rw [cons_append, Zstd.feed, Zstd.feed]
    cases zstd.compress context piece with
    | error error => rfl
    | ok result =>
      obtain ⟨next, outputs⟩ := result
      change (zstd.feed next (rest ++ second) >>= _) = _
      rw [ih next]
      cases fed : zstd.feed next rest with
      | error error => simp [fed, bind, Except.bind]
      | ok result =>
        obtain ⟨next, output⟩ := result
        simp only [bind, Except.bind, pure, Except.pure, fed]
        cases zstd.feed next second with
        | error error => rfl
        | ok result => simp

end Frames

/-- The pieces of which the compression sees a row of buffers. -/
def pieces (buffers : List (List UInt8)) : List (List UInt8) := (offersEach readSize buffers).map (take readSize)

/-- What the counters and digests above the compression see of it. -/
def counted (buffers : List (List UInt8)) : List UInt8 := (offersEach readSize buffers).flatten

theorem flatten_pieces (buffers : List (List UInt8)) : (pieces buffers).flatten = buffers.flatten :=
  flatten_taken_each (by decide) buffers

theorem pieces_append (first second : List (List UInt8)) :
    pieces (first ++ second) = pieces first ++ pieces second := by
  rw [pieces, offersEach, flatMap_append, map_append, pieces, pieces, offersEach, offersEach]

theorem counted_append (first second : List (List UInt8)) :
    counted (first ++ second) = counted first ++ counted second := by
  rw [counted, offersEach, flatMap_append, flatten_append, counted, counted, offersEach, offersEach]

/-- The counters are right exactly for buffers of at most one block. -/
theorem length_counted_eq_iff {buffers : List (List UInt8)} :
    (counted buffers).length = buffers.flatten.length ↔ ∀ buffer ∈ buffers, buffer.length ≤ readSize :=
  length_offersEach_eq_iff (by decide)

variable {σ : Type}

/-- The checksum layer on top of a growing buffer takes everything. -/
def DigestWriter.extend (state : DigestWriter (List UInt8)) (bytes : List UInt8) : DigestWriter (List UInt8) :=
  ⟨state.inner ++ bytes, state.hashed ++ bytes, state.bytes + bytes.length⟩

theorem checksumLayer_writeEach (state : DigestWriter (List UInt8)) (buffers : List (List UInt8)) :
    (digestWriter vecWriter).writeEach state buffers = .ok (state.extend buffers.flatten) := by
  have absorbs : (digestWriter vecWriter).Absorbs extend := fun _ _ => rfl
  refine absorbs.writeEach ?_ ?_ state buffers
  · intro state
    simp [extend]
  · intro state left right
    simp [extend, Nat.add_assoc]

theorem zstdWriter_bounded (zstd : Zstd) (inner : ByteWriter WriteError σ) :
    (zstdWriter zstd inner).Bounded readSize := by
  intro state bytes next taken written
  simp only [zstdWriter, bind_eq_ok, pure_eq_ok, Prod.mk.injEq] at written
  obtain ⟨_, _, _, _, _, taken⟩ := written
  rw [← taken, length_take]

theorem digestWriter_bounded {inner : ByteWriter WriteError σ} (bounded : inner.Bounded readSize) :
    (digestWriter inner).Bounded readSize := by
  intro state bytes next taken written
  simp only [digestWriter, bind_eq_ok, pure_eq_ok, Prod.mk.injEq] at written
  obtain ⟨⟨below, belowTaken⟩, inside, _, same⟩ := written
  rw [← same]
  exact bounded state.inner bytes below belowTaken inside

/-- The compression layer feeds the frame with the pieces and counts the offers. -/
theorem zstdWriter_writeEach (zstd : Zstd) (state : ZstdWriter zstd (DigestWriter (List UInt8)))
    (buffers : List (List UInt8)) :
    (zstdWriter zstd (digestWriter vecWriter)).writeEach state buffers =
      ((zstd.feed state.context (pieces buffers)).mapError .zstd).map fun (context, output) =>
        ⟨state.inner.extend output, context, state.plainBytes + (counted buffers).length⟩ := by
  rw [(zstdWriter_bounded zstd _).writeEach (by decide), pieces, counted]
  generalize offersEach readSize buffers = offers
  induction offers generalizing state with
  | nil => simp [Zstd.feed, extend, Except.mapError, Except.map, pure, Except.pure]
  | cons offer rest ih =>
    rw [foldlM_cons, map_cons, Zstd.feed]
    cases compressed : zstd.compress state.context (offer.take readSize) with
    | error error => simp [zstdWriter, compressed, Except.mapError, Except.map, bind, Except.bind]
    | ok result =>
      obtain ⟨context, outputs⟩ := result
      have written : (zstdWriter zstd (digestWriter vecWriter)).write state offer =
          .ok (⟨state.inner.extend outputs.flatten, context, state.plainBytes + offer.length⟩,
            (offer.take readSize).length) := by
        simp only [zstdWriter, compressed, checksumLayer_writeEach]
        rfl
      rw [written]
      change foldlM _ _ rest = _
      rw [ih]
      cases fed : zstd.feed context (rest.map (take readSize)) with
      | error error => simp [fed, Except.mapError, Except.map, bind, Except.bind]
      | ok result =>
        simp [fed, Except.mapError, Except.map, bind, Except.bind, pure, Except.pure,
          extend, Nat.add_assoc]

theorem digestWriter_writeEach {inner : ByteWriter WriteError σ} (bounded : inner.Bounded readSize)
    (state : DigestWriter σ) (buffers : List (List UInt8)) :
    (digestWriter inner).writeEach state buffers = (inner.writeEach state.inner buffers).map fun next =>
        ⟨next, state.hashed ++ counted buffers, state.bytes + (counted buffers).length⟩ := by
  rw [(digestWriter_bounded bounded).writeEach (by decide), bounded.writeEach (by decide), counted]
  generalize offersEach readSize buffers = offers
  induction offers generalizing state with
  | nil => simp [Except.map, pure, Except.pure]
  | cons offer rest ih =>
    rw [foldlM_cons, foldlM_cons]
    cases written : inner.write state.inner offer with
    | error error => simp [digestWriter, written, Except.map, bind, Except.bind]
    | ok result =>
      obtain ⟨next, taken⟩ := result
      have above : (digestWriter inner).write state offer =
          .ok (⟨next, state.hashed ++ offer, state.bytes + offer.length⟩, taken) := by
        simp only [digestWriter, written]
        rfl
      rw [above]
      change foldlM _ _ rest = Except.map _ (foldlM _ next rest)
      rw [ih]
      simp [Nat.add_assoc]

section Payloads

variable {zstd : Zstd} (xxh3 : Xxh3)

def frameHeader (kind : PayloadKind) (numRecords plainSize : Nat) (content : List UInt8) : PayloadHeader where
  storedSize := content.length
  plainSize := plainSize
  checksum := toBigEndian 8 (xxh3.digest content).toNat
  numRecords := numRecords
  version := 1
  kind := kind
  compression := .zstd

theorem finishFrame_eq (state : DigestWriter (List UInt8)) (context : zstd.Context) :
    finishFrame zstd (digestWriter vecWriter) state context =
      ((zstd.finish context).mapError .zstd).map fun (context, outputs) =>
        (state.extend outputs.flatten, context) := by
  cases finished : zstd.finish context with
  | error error => simp [finishFrame, finished, Except.mapError, Except.map, bind, Except.bind]
  | ok result =>
    simp only [finishFrame, finished, checksumLayer_writeEach]
    rfl

theorem encodePayload_eq (payload : InnerPayload) (encoder : zstd.Context) : encodePayload zstd xxh3 payload encoder =
      ((zstd.frame (zstd.setPledgedSize encoder (some payload.pledgedSize))
        (pieces payload.encode)).mapError .zstd).map fun (encoder, content) =>
          (⟨frameHeader xxh3 payload.kind payload.numRecords (counted payload.encode).length content,
            content⟩, encoder) := by
  simp only [encodePayload, zstdWriter_writeEach, finishFrame_eq, Zstd.frame]
  cases fed : zstd.feed (zstd.setPledgedSize encoder (some payload.pledgedSize)) (pieces payload.encode) with
  | error error => simp [Except.mapError, Except.map, bind, Except.bind]
  | ok result =>
    obtain ⟨context, output⟩ := result
    simp only [Except.mapError, Except.map, bind, Except.bind]
    cases zstd.finish context with
    | error error => simp
    | ok result => simp [frameHeader, extend, pure, Except.pure]

/-- A stored payload that declares what was counted and unpacks to what was written. -/
structure Encodes (zstd : Zstd) (payload : InnerPayload) (encoded : EncodedPayload) : Prop where
  header : encoded.header = frameHeader xxh3 payload.kind payload.numRecords
    (counted payload.encode).length encoded.content
  unpacks : ∀ windowLog, encoderWindowLog ≤ windowLog →
    zstd.decompress windowLog encoded.content = some payload.encode.flatten

theorem InnerPayload.length_encode (payload : InnerPayload) :
    payload.encode.flatten.length = payload.pledgedSize := by
  cases payload with
  | metadata records
  | attributes records
  | layout records
  | index records => exact length_encodeRecords records

/-- The index of contents that start at an offset, as the counters have it. -/
def indicesFrom (start : Nat) : List (List (List UInt8)) → List IndexRecord
  | [] => []
  | chunks :: rest =>
    let stop := start + (counted chunks).length
    ⟨UInt64.ofNat start, UInt64.ofNat stop, xxh3.digest128 (counted chunks)⟩ :: indicesFrom stop rest

/-- The content writer once contents were fed to its frame. -/
def ContentWriter.after (content : ContentWriter zstd) (contents : List (List (List UInt8)))
    (encoder : zstd.Context) (output : List UInt8) : ContentWriter zstd where
  buffer := content.buffer ++ output
  plainSize := content.plainSize + (counted contents.flatten).length
  storedSize := content.storedSize + output.length
  indices := content.indices ++ indicesFrom xxh3 content.plainSize contents
  bufferHashed := content.bufferHashed ++ output
  encoder := encoder

theorem addContent_eq (content : ContentWriter zstd) (chunks : List (List UInt8)) : content.addContent xxh3 chunks =
      ((zstd.feed content.encoder (pieces chunks)).mapError .zstd).map fun (encoder, output) =>
        content.after xxh3 [chunks] encoder output := by
  simp only [addContent, digestWriter_writeEach (zstdWriter_bounded zstd _), zstdWriter_writeEach]
  cases zstd.feed content.encoder (pieces chunks) with
  | error error => rfl
  | ok result =>
    obtain ⟨encoder, output⟩ := result
    simp [Except.mapError, Except.map, bind, Except.bind, pure, Except.pure,
      ContentWriter.after, extend, indicesFrom]

theorem addContents_eq (content : ContentWriter zstd) (contents : List (List (List UInt8))) :
    contents.foldlM (addContent xxh3) content =
      ((zstd.feed content.encoder (pieces contents.flatten)).mapError .zstd).map
        fun (encoder, output) => content.after xxh3 contents encoder output := by
  induction contents generalizing content with
  | nil =>
    simp [pieces, offersEach, Zstd.feed, Except.mapError, Except.map, pure, Except.pure,
      ContentWriter.after, counted, indicesFrom]
  | cons chunks rest ih =>
    rw [foldlM_cons, addContent_eq, flatten_cons, pieces_append, Zstd.feed_append]
    cases zstd.feed content.encoder (pieces chunks) with
    | error error => rfl
    | ok result =>
      obtain ⟨encoder, output⟩ := result
      change foldlM _ (content.after xxh3 [chunks] encoder output) rest = _
      rw [ih]
      change Except.map _ (Except.mapError _ (zstd.feed encoder (pieces rest.flatten))) = _
      cases fed : zstd.feed encoder (pieces rest.flatten) with
      | error error => simp [Except.mapError, Except.map, bind, Except.bind, fed]
      | ok result =>
        simp [Except.mapError, Except.map, bind, Except.bind, fed, pure, Except.pure, ContentWriter.after,
          indicesFrom, counted_append, Nat.add_assoc]

/-- A stored content that declares what was counted and unpacks to what was added. -/
structure EncodesContent (zstd : Zstd) (contents : List (List (List UInt8)))
    (encoded : EncodedPayload) : Prop where
  header : encoded.header = frameHeader xxh3 .content 0 (counted contents.flatten).length encoded.content
  unpacks : ∀ windowLog, encoderWindowLog ≤ windowLog →
    zstd.decompress windowLog encoded.content = some contents.flatten.flatten

variable (zstd) in
theorem contentStart_between (pledge : Option Nat) (workers : Nat) :
    zstd.Between (ContentWriter.new zstd pledge workers).encoder pledge :=
  (Zstd.Between.create.pledged pledge).workers workers

def ContentOperation.payload? : ContentOperation → Option WritePayload
  | addPayload payload => some payload
  | addContent _ => none

def ContentOperation.content? : ContentOperation → Option (List (List UInt8))
  | addPayload _ => none
  | addContent chunks => some chunks

def Script.written (script : Script) : List WritePayload :=
  script.payloads ++ script.content.toList.flatMap fun content =>
      content.operations.filterMap ContentOperation.payload?

/-- Every content that is added, in order, each in the chunks it is copied in. -/
def Script.contents (script : Script) : List (List (List UInt8)) :=
  script.content.toList.flatMap fun content =>
    content.operations.filterMap ContentOperation.content?

/-- The payloads the archive holds before its content: with a content there is
an index. -/
def Script.inner (xxh3 : Xxh3) (script : Script) : List InnerPayload :=
  script.written.map WritePayload.toInner ++
    script.content.toList.map fun _ => .index (indicesFrom xxh3 0 script.contents)

def Script.PledgeKept (script : Script) : Prop :=
  ∀ content ∈ script.content, ∀ size ∈ content.pledgedSize, size = script.contents.flatten.flatten.length

variable {xxh3} {payload : InnerPayload} {encoder next : zstd.Context} {encoded : EncodedPayload}
  {writer after : StoneWriter zstd} {contents : List (List (List UInt8))} {script : Script}

theorem perform_eq_ok {operations : List ContentOperation} {state after : StoneWriter zstd × ContentWriter zstd} :
    operations.foldlM (ContentOperation.perform zstd xxh3) state = .ok after ↔
      state.1.addPayloads zstd xxh3 (operations.filterMap ContentOperation.payload?) = .ok after.1 ∧
      (operations.filterMap ContentOperation.content?).foldlM (ContentWriter.addContent xxh3)
        state.2 = .ok after.2 := by
  induction operations generalizing state with
  | nil =>
    simp only [foldlM_nil, filterMap_nil, StoneWriter.addPayloads, pure_eq_ok]
    exact Prod.ext_iff
  | cons operation rest ih =>
    cases operation with
    | addPayload payload =>
      simp only [foldlM_cons, ContentOperation.perform, filterMap_cons,
        ContentOperation.payload?, ContentOperation.content?, StoneWriter.addPayloads,
        bind_eq_ok, pure_eq_ok, existsAndEq, true_and, ih, ← exists_and_right, and_assoc]
    | addContent chunks =>
      simp only [foldlM_cons, ContentOperation.perform, filterMap_cons,
        ContentOperation.payload?, ContentOperation.content?, bind_eq_ok, pure_eq_ok,
        existsAndEq, and_true, ih, ← exists_and_left, and_left_comm]

variable (lawful : zstd.Lawful)
include lawful

theorem encodePayload_encodes (between : zstd.Between encoder pledge)
    (ran : encodePayload zstd xxh3 payload encoder = .ok (encoded, next)) :
    Encodes xxh3 zstd payload encoded ∧ zstd.Between next none := by
  have ready := Zstd.Between.pledged (some payload.pledgedSize) between
  rw [encodePayload_eq] at ran
  cases framed : zstd.frame (zstd.setPledgedSize encoder (some payload.pledgedSize)) (pieces payload.encode) with
  | error error => simp [framed, Except.mapError, Except.map] at ran
  | ok result =>
    obtain ⟨context, content⟩ := result
    simp only [framed, Except.mapError, Except.map, Except.ok.injEq, Prod.mk.injEq] at ran
    obtain ⟨rfl, rfl⟩ := ran
    refine ⟨⟨rfl, ?_⟩, ready.finished framed⟩
    intro windowLog wide
    rw [← flatten_pieces payload.encode]
    exact lawful.inverts _ _ _ _ _ _ ready framed wide

variable (xxh3) in
theorem encodePayload_succeeds (between : zstd.Between encoder pledge) (payload : InnerPayload) :
    ∃ result, encodePayload zstd xxh3 payload encoder = .ok result := by
  have ready := Zstd.Between.pledged (some payload.pledgedSize) between
  obtain ⟨result, framed⟩ := lawful.succeeds _ _ (pieces payload.encode) ready (by
    intro size pledged
    cases pledged
    rw [flatten_pieces, payload.length_encode])
  exact ⟨_, by rw [encodePayload_eq, framed]; rfl⟩

theorem addPayloads_encodes {payloads : List WritePayload} (between : zstd.Between writer.encoder none)
    (ran : writer.addPayloads zstd xxh3 payloads = .ok after) :
    ∃ encoded, after.payloads = writer.payloads ++ encoded ∧
      Forall₂ (Encodes xxh3 zstd) (payloads.map WritePayload.toInner) encoded ∧
      zstd.Between after.encoder none := by
  induction payloads generalizing writer with
  | nil =>
    cases ran
    exact ⟨[], (append_nil _).symm, .nil, between⟩
  | cons payload rest ih =>
    rw [StoneWriter.addPayloads, foldlM_cons, bind_eq_ok] at ran
    obtain ⟨middle, first, ran⟩ := ran
    rw [StoneWriter.addPayload, bind_eq_ok] at first
    obtain ⟨⟨encoded, encoder⟩, encodedRun, same⟩ := first
    cases same
    obtain ⟨encodes, ready⟩ := encodePayload_encodes lawful between encodedRun
    obtain ⟨others, appended, encodesOthers, readyAfter⟩ := ih ready ran
    refine ⟨encoded :: others, ?_, .cons encodes encodesOthers, readyAfter⟩
    rw [appended, append_assoc, singleton_append]

variable (xxh3) in
theorem addPayloads_succeeds (between : zstd.Between writer.encoder none) (payloads : List WritePayload) :
    ∃ after, writer.addPayloads zstd xxh3 payloads = .ok after := by
  refine Exists.imp (fun _ => And.left)
    (foldlM_progress (fun _ (state : StoneWriter zstd) => zstd.Between state.encoder none) between ?_)
  intro _ payload _ state _ ready
  obtain ⟨⟨encoded, encoder⟩, ran⟩ := encodePayload_succeeds xxh3 lawful ready payload.toInner
  exact ⟨_, by rw [StoneWriter.addPayload, ran]; rfl, (encodePayload_encodes lawful ready ran).2⟩

/-- From the first content to the end of the frame. -/
theorem finish_encodes {workers : Nat} {content : ContentWriter zstd}
    (added : contents.foldlM (addContent xxh3) (.new zstd pledge workers) = .ok content)
    (ended : content.finish xxh3 = .ok encoded) :
    EncodesContent xxh3 zstd contents encoded ∧ content.indices = indicesFrom xxh3 0 contents := by
  have ready := contentStart_between zstd pledge workers
  rw [addContents_eq] at added
  cases fed : zstd.feed (ContentWriter.new zstd pledge workers).encoder (pieces contents.flatten) with
  | error error => simp [fed, Except.mapError, Except.map] at added
  | ok result =>
    obtain ⟨encoder, output⟩ := result
    simp only [fed, Except.mapError, Except.map, Except.ok.injEq] at added
    subst added
    rw [ContentWriter.finish, finishFrame_eq] at ended
    cases last : zstd.finish encoder with
    | error error => simp [ContentWriter.after, last, Except.mapError, Except.map, bind, Except.bind] at ended
    | ok result =>
      obtain ⟨next, outputs⟩ := result
      have framed : zstd.frame (ContentWriter.new zstd pledge workers).encoder
          (pieces contents.flatten) = .ok (next, output ++ outputs.flatten) := by
        simp [Zstd.frame, fed, last, bind, Except.bind, pure, Except.pure]
      simp only [ContentWriter.after, ContentWriter.new, last, Except.mapError, Except.map, bind,
        Except.bind, pure, Except.pure, extend, Except.ok.injEq] at ended
      subst ended
      refine ⟨⟨?_, ?_⟩, ?_⟩
      · simp [frameHeader]
      · intro windowLog wide
        rw [← flatten_pieces contents.flatten]
        exact lawful.inverts _ _ _ _ _ _ ready framed wide
      · simp [ContentWriter.after, ContentWriter.new]

variable (xxh3) in
theorem finish_succeeds (workers : Nat) (kept : ∀ size ∈ pledge, size = contents.flatten.flatten.length) :
    ∃ content encoded, contents.foldlM (addContent xxh3) (.new zstd pledge workers) = .ok content ∧
        content.finish xxh3 = .ok encoded := by
  rw [← flatten_pieces] at kept
  obtain ⟨result, framed⟩ := lawful.succeeds _ _ _ (contentStart_between zstd pledge workers) kept
  simp only [Zstd.frame, bind_eq_ok] at framed
  obtain ⟨⟨encoder, output⟩, fed, ⟨next, outputs⟩, last, _⟩ := framed
  let content := (ContentWriter.new zstd pledge workers).after xxh3 contents encoder output
  have added : contents.foldlM (addContent xxh3) (.new zstd pledge workers) =
      .ok content := by
    rw [addContents_eq, fed]
    rfl
  have ended : ∃ encoded, content.finish xxh3 = .ok encoded := by
    rw [ContentWriter.finish, finishFrame_eq, show content.encoder = encoder from rfl, last]
    exact ⟨_, rfl⟩
  obtain ⟨encoded, ended⟩ := ended
  exact ⟨content, encoded, added, ended⟩

theorem Script.encode_encodes {payloads : List EncodedPayload} {content : Option EncodedPayload}
    (ran : script.encode zstd xxh3 = .ok (payloads, content)) :
    Forall₂ (Encodes xxh3 zstd) (script.inner xxh3) payloads ∧ (script.content = none ∧ content = none ∨
        ∃ encoded, script.content.isSome ∧ content = some encoded ∧
          EncodesContent xxh3 zstd script.contents encoded) := by
  rw [Script.encode, bind_eq_ok] at ran
  obtain ⟨writer, added, ran⟩ := ran
  have start : zstd.Between (StoneWriter.new zstd script.fileType).encoder none := .create
  cases given : script.content with
  | none =>
    rw [given] at ran
    cases ran
    obtain ⟨encoded, appended, encodes, _⟩ := addPayloads_encodes lawful start added
    refine ⟨?_, .inl ⟨rfl, rfl⟩⟩
    rw [appended]
    simpa [Script.inner, Script.written, given, StoneWriter.new] using encodes
  | some contentScript =>
    simp only [given, bind_eq_ok] at ran
    obtain ⟨⟨after, contents⟩, performed, finished, ended, ⟨index, _⟩, indexed, same⟩ := ran
    cases same
    obtain ⟨morePayloads, addedContents⟩ := perform_eq_ok.mp performed
    obtain ⟨first, appended, encodes, ready⟩ := addPayloads_encodes lawful start added
    obtain ⟨second, appendedMore, encodesMore, readyAfter⟩ := addPayloads_encodes lawful ready morePayloads
    obtain ⟨encodesContent, indices⟩ := finish_encodes lawful addedContents ended
    obtain ⟨encodesIndex, _⟩ := encodePayload_encodes lawful readyAfter indexed
    refine ⟨?_, .inr ⟨finished, rfl, rfl, ?_⟩⟩
    · rw [appendedMore, appended]
      simp only [Script.inner, Script.written, Script.contents, given, Option.toList_some,
        flatMap_singleton, map_append, map_cons, map_nil, StoneWriter.new,
        nil_append, ← indices]
      exact rel_append (rel_append encodes encodesMore) (.cons encodesIndex .nil)
    · simpa [Script.contents, given] using encodesContent

variable (xxh3) in
theorem Script.encode_succeeds (kept : script.PledgeKept) : ∃ result, script.encode zstd xxh3 = .ok result := by
  have start : zstd.Between (StoneWriter.new zstd script.fileType).encoder none := .create
  obtain ⟨writer, added⟩ := addPayloads_succeeds xxh3 lawful start script.payloads
  obtain ⟨_, _, _, ready⟩ := addPayloads_encodes lawful start added
  cases given : script.content with
  | none =>
    refine ⟨(writer.payloads, none), ?_⟩
    simp only [Script.encode, given, bind_eq_ok]
    exact ⟨writer, added, rfl⟩
  | some contentScript =>
    obtain ⟨after, morePayloads⟩ := addPayloads_succeeds xxh3 lawful ready
      (contentScript.operations.filterMap ContentOperation.payload?)
    obtain ⟨_, _, _, readyAfter⟩ := addPayloads_encodes lawful ready morePayloads
    have pledge := kept contentScript given
    have contents : script.contents = contentScript.operations.filterMap ContentOperation.content? := by
      simp [Script.contents, given]
    rw [contents] at pledge
    obtain ⟨content, finished, addedContents, ended⟩ := finish_succeeds xxh3 lawful contentScript.numWorkers pledge
    have performed : contentScript.operations.foldlM (ContentOperation.perform zstd xxh3)
        (writer, .new zstd contentScript.pledgedSize contentScript.numWorkers) =
          .ok (after, content) := perform_eq_ok.mpr ⟨morePayloads, addedContents⟩
    obtain ⟨⟨index, encoder⟩, indexed⟩ := encodePayload_succeeds xxh3 lawful readyAfter (.index content.indices)
    refine ⟨(after.payloads ++ [index], some finished), ?_⟩
    simp only [Script.encode, given, bind_eq_ok]
    exact ⟨writer, added, (after, content), performed, finished, ended, (index, encoder), indexed, rfl⟩

end Payloads

end Cast.Stone
