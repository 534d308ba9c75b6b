import Mathlib.Data.List.Basic

/-! Decoders of byte records, and the reader they run on. A decoder asks for
bytes, may look at how much of its record's budget is spent, and ends with a
value or an error. The reader delivers a stream of declared length; a record may
not take more than its budget of it, and the stream may neither end before its
declared length nor go on behind it. -/

namespace Cast.Foundation

inductive ReadFailure where
  | recordLimit (limit : Nat)
  | endOfStream
  | expandsBeyond (declared : Nat)
  | endedEarly (declared emitted : Nat)
deriving DecidableEq

/-- A stream of declared length, read record by record. -/
structure BoundedReader where
  rest : List UInt8
  declared : Nat
  emitted : Nat
  limit : Nat
  consumed : Nat

namespace BoundedReader

/-- How many bytes the reader can deliver before one of its bounds stops it. -/
def available (reader : BoundedReader) : Nat :=
  min (min (reader.limit - reader.consumed) (reader.declared - reader.emitted)) reader.rest.length

def advance (reader : BoundedReader) (count : Nat) : BoundedReader :=
  { reader with
    rest := reader.rest.drop count
    emitted := reader.emitted + count
    consumed := reader.consumed + count }

/-- The bound that stops a reader which has delivered all it could: the budget
is looked at first, then the declared length, then the stream. -/
def stopped (reader : BoundedReader) : ReadFailure :=
  if reader.limit ≤ reader.consumed then .recordLimit reader.limit
  else if reader.emitted = reader.declared then
    if reader.rest = [] then .endOfStream else .expandsBeyond reader.declared
  else .endedEarly reader.declared reader.emitted

def take (reader : BoundedReader) (count : Nat) : Except ReadFailure (List UInt8 × BoundedReader) :=
  if count ≤ reader.available then .ok (reader.rest.take count, reader.advance count)
  else .error (reader.advance reader.available).stopped

@[simp] theorem advance_advance (reader : BoundedReader) (first second : Nat) :
    (reader.advance first).advance second = reader.advance (first + second) := by
  simp [advance, Nat.add_assoc]

theorem available_advance (reader : BoundedReader) (count : Nat) :
    (reader.advance count).available = reader.available - count := by
  simp only [available, advance, List.length_drop]
  omega

end BoundedReader

inductive Decoder (ε α : Type) where
  | done (outcome : Except ε α)
  | take (count : Nat) (next : List UInt8 → Decoder ε α)
  | budget (next : (limit consumed : Nat) → Decoder ε α)

namespace Decoder

variable {ε α β : Type}

def bind : Decoder ε α → (α → Decoder ε β) → Decoder ε β
  | done (.ok value), next => next value
  | done (.error error), _ => done (.error error)
  | take count continue_, next => take count fun bytes => (continue_ bytes).bind next
  | budget continue_, next => budget fun limit consumed => (continue_ limit consumed).bind next

instance : Monad (Decoder ε) where
  pure value := done (.ok value)
  bind := bind

/-- Reads exactly so many bytes and hands them on. -/
def bytes (count : Nat) : Decoder ε (List UInt8) := take count fun bytes => done (.ok bytes)

def fail (error : ε) : Decoder ε α := done (.error error)

/-- Runs on a reader; `io` turns the reader's failures into the decoder's. -/
def run (io : ReadFailure → ε) : Decoder ε α → BoundedReader → Except ε (α × BoundedReader)
  | done (.ok value), reader => .ok (value, reader)
  | done (.error error), _ => .error error
  | take count next, reader =>
    match reader.take count with
    | .ok (bytes, reader) => (next bytes).run io reader
    | .error failure => .error (io failure)
  | budget next, reader => (next reader.limit reader.consumed).run io reader

/-- The next bytes of the stream are these, and all bounds admit them. -/
structure Serves (reader : BoundedReader) (bytes : List UInt8) : Prop where
  starts : bytes <+: reader.rest
  withinRecord : reader.consumed + bytes.length ≤ reader.limit
  withinStream : reader.emitted + bytes.length ≤ reader.declared
  machine : reader.limit < UInt64.size

/-- Wherever these bytes come next, the decoder reads exactly them as the value. -/
def Parses (io : ReadFailure → ε) (decoder : Decoder ε α) (bytes : List UInt8) (value : α) : Prop :=
  ∀ reader, Serves reader bytes → decoder.run io reader = .ok (value, reader.advance bytes.length)

variable {io : ReadFailure → ε}

theorem run_bind (decoder : Decoder ε α) (next : α → Decoder ε β) (reader : BoundedReader) :
    (decoder >>= next).run io reader = (decoder.run io reader >>= fun result => (next result.1).run io result.2) := by
  change (decoder.bind next).run io reader = _
  induction decoder generalizing reader with
  | done outcome => cases outcome <;> rfl
  | take count continue_ ih =>
    rw [bind, run, run]
    cases reader.take count with
    | error failure => rfl
    | ok result => exact ih result.1 result.2
  | budget continue_ ih => exact ih reader.limit reader.consumed reader

variable {first second : List UInt8} {reader : BoundedReader}

theorem Serves.left (serves : Serves reader (first ++ second)) : Serves reader first := by
  obtain ⟨starts, withinRecord, withinStream, machine⟩ := serves
  rw [List.length_append] at withinRecord withinStream
  exact ⟨(List.prefix_append first second).trans starts, by omega, by omega, machine⟩

theorem Serves.right (serves : Serves reader (first ++ second)) : Serves (reader.advance first.length) second := by
  obtain ⟨⟨rest, starts⟩, withinRecord, withinStream, machine⟩ := serves
  rw [List.length_append] at withinRecord withinStream
  refine ⟨⟨rest, ?_⟩, ?_, ?_, machine⟩
  · simp [BoundedReader.advance, ← starts]
  · simp only [BoundedReader.advance]
    omega
  · simp only [BoundedReader.advance]
    omega

theorem Serves.available {bytes : List UInt8} (serves : Serves reader bytes) : bytes.length ≤ reader.available := by
  obtain ⟨starts, withinRecord, withinStream, _⟩ := serves
  have length := starts.length_le
  simp only [BoundedReader.available]
  omega

theorem parses_pure (value : α) : (pure value : Decoder ε α).Parses io [] value := fun _ _ => rfl

theorem Parses.bind {decoder : Decoder ε α} {next : α → Decoder ε β}
    {value : α} {result : β} (head : decoder.Parses io first value)
    (tail : (next value).Parses io second result) :
    (decoder >>= next).Parses io (first ++ second) result := by
  intro reader serves
  rw [run_bind, head reader serves.left]
  change (next value).run io (reader.advance first.length) = _
  rw [tail _ serves.right, BoundedReader.advance_advance, List.length_append]

theorem parses_bytes {content : List UInt8} {count : Nat} (sized : content.length = count) :
    (bytes count : Decoder ε (List UInt8)).Parses io content content := by
  intro reader serves
  subst sized
  have fits := serves.available
  obtain ⟨rest, starts⟩ := serves.starts
  simp [bytes, run, BoundedReader.take, fits, ← starts]

theorem run_advances {decoder : Decoder ε α} {reader after : BoundedReader} {value : α}
    (ran : decoder.run io reader = .ok (value, after)) :
    ∃ count ≤ reader.available, after = reader.advance count := by
  induction decoder generalizing reader with
  | done outcome =>
    cases outcome with
    | error error => cases ran
    | ok result =>
      cases ran
      exact ⟨0, Nat.zero_le _, rfl⟩
  | take count next ih =>
    rw [run, BoundedReader.take] at ran
    by_cases enough : count ≤ reader.available
    · rw [if_pos enough] at ran
      obtain ⟨more, bounded, rfl⟩ := ih _ ran
      rw [BoundedReader.available_advance] at bounded
      exact ⟨count + more, by omega, BoundedReader.advance_advance _ _ _⟩
    · rw [if_neg enough] at ran
      cases ran
  | budget next ih => exact ih reader.limit reader.consumed ran

end Decoder

end Cast.Foundation
