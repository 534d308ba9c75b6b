import Mathlib.Tactic.Ring

/-! Byte sinks that may take only a part of what they are offered. Writing a
whole buffer offers the remainder again until nothing is left, so a sink with a
bounded appetite sees the tail of a long buffer many times; what it takes adds
up to the buffer, what it is offered adds up to more. -/

namespace Cast.Foundation

open List

variable {ε σ : Type} {capacity : Nat}

/-- One write takes bytes from the front of what it is offered and tells how many. -/
structure ByteWriter (ε σ : Type) where
  write : σ → List UInt8 → Except ε (σ × Nat)
  /-- The error of a write that took nothing. -/
  writeZero : ε

variable {writer : ByteWriter ε σ}

namespace ByteWriter

/-- Offers the rest of the bytes until all of them are taken. -/
def writeAll (writer : ByteWriter ε σ) (state : σ) : List UInt8 → Except ε σ
  | [] => .ok state
  | first :: rest =>
    match writer.write state (first :: rest) with
    | .error error => .error error
    | .ok (_, 0) => .error writer.writeZero
    | .ok (next, taken + 1) => writer.writeAll next (rest.drop taken)
termination_by bytes => bytes.length
decreasing_by simp only [length_drop, length_cons]; omega

/-- One buffer after another, each written whole. -/
def writeEach (writer : ByteWriter ε σ) (state : σ) (buffers : List (List UInt8)) : Except ε σ :=
  buffers.foldlM writer.writeAll state

/-- Every write takes all it is offered. -/
def Absorbs (writer : ByteWriter ε σ) (extend : σ → List UInt8 → σ) : Prop :=
  ∀ state bytes, writer.write state bytes = .ok (extend state bytes, bytes.length)

/-- Every write that succeeds takes as much as it can of a bounded amount. -/
def Bounded (writer : ByteWriter ε σ) (capacity : Nat) : Prop :=
  ∀ state bytes next taken, writer.write state bytes = .ok (next, taken) → taken = min capacity bytes.length

theorem Absorbs.writeAll {extend : σ → List UInt8 → σ}
    (absorbs : writer.Absorbs extend) (unchanged : ∀ state, extend state [] = state) (state : σ)
    (bytes : List UInt8) : writer.writeAll state bytes = .ok (extend state bytes) := by
  cases bytes with
  | nil => rw [ByteWriter.writeAll, unchanged]
  | cons first rest =>
    have taken : writer.write state (first :: rest) =
        .ok (extend state (first :: rest), rest.length + 1) := absorbs state _
    simp [ByteWriter.writeAll, taken]

theorem Absorbs.writeEach {extend : σ → List UInt8 → σ}
    (absorbs : writer.Absorbs extend) (unchanged : ∀ state, extend state [] = state)
    (joined : ∀ state left right, extend (extend state left) right = extend state (left ++ right))
    (state : σ) (buffers : List (List UInt8)) :
    writer.writeEach state buffers = .ok (extend state buffers.flatten) := by
  induction buffers generalizing state with
  | nil =>
    rw [flatten_nil, unchanged]
    rfl
  | cons buffer rest ih =>
    have recursive := ih (extend state buffer)
    simp only [ByteWriter.writeEach] at recursive ⊢
    simp only [foldlM_cons, absorbs.writeAll unchanged, bind, Except.bind, recursive, joined, flatten_cons]

end ByteWriter

/-- What a sink that takes at most `capacity` bytes at once is offered of a
buffer, one offer after another. -/
def offers (capacity : Nat) : List UInt8 → List (List UInt8)
  | [] => []
  | first :: rest => (first :: rest) :: offers capacity (rest.drop (capacity - 1))
termination_by bytes => bytes.length
decreasing_by simp only [length_drop, length_cons]; omega

/-- The number of bytes offered, repetitions included. -/
def offered (capacity : Nat) (bytes : List UInt8) : Nat := (offers capacity bytes).flatten.length

variable {bytes : List UInt8}

theorem offers_of_le (filled : bytes ≠ []) (fits : bytes.length ≤ capacity) :
    offers capacity bytes = [bytes] := by
  cases bytes with
  | nil => exact absurd rfl filled
  | cons first rest =>
    have nothingLeft : rest.drop (capacity - 1) = [] := by
      rw [drop_eq_nil_iff]
      simp only [length_cons] at fits
      omega
    rw [offers, nothingLeft, offers]

theorem flatten_offers_of_le (fits : bytes.length ≤ capacity) : (offers capacity bytes).flatten = bytes := by
  cases bytes with
  | nil => rw [offers, flatten_nil]
  | cons first rest => rw [offers_of_le (cons_ne_nil _ _) fits, flatten_singleton]

theorem offered_cons {first : UInt8} {rest : List UInt8} :
    offered capacity (first :: rest) = (rest.length + 1) + offered capacity (rest.drop (capacity - 1)) := by
  rw [offered, offers, flatten_cons, length_append, length_cons, offered]

theorem length_le_offered (capacity : Nat) (bytes : List UInt8) : bytes.length ≤ offered capacity bytes := by
  cases bytes with
  | nil => exact Nat.zero_le _
  | cons first rest =>
    rw [offered_cons, length_cons]
    omega

def offersEach (capacity : Nat) (buffers : List (List UInt8)) : List (List UInt8) := buffers.flatMap (offers capacity)

theorem flatten_offersEach_cons (buffer : List UInt8) (rest : List (List UInt8)) :
    (offersEach capacity (buffer :: rest)).flatten =
      (offers capacity buffer).flatten ++ (offersEach capacity rest).flatten := by
  rw [offersEach, flatMap_cons, flatten_append, offersEach]

theorem length_offersEach_cons (buffer : List UInt8) (rest : List (List UInt8)) :
    (offersEach capacity (buffer :: rest)).flatten.length =
      offered capacity buffer + (offersEach capacity rest).flatten.length := by
  rw [flatten_offersEach_cons, length_append, offered]

theorem length_le_offersEach (capacity : Nat) (buffers : List (List UInt8)) :
    buffers.flatten.length ≤ (offersEach capacity buffers).flatten.length := by
  induction buffers with
  | nil => exact Nat.zero_le _
  | cons buffer rest ih =>
    have first := length_le_offered capacity buffer
    rw [length_offersEach_cons, flatten_cons, length_append]
    omega

variable {buffers : List (List UInt8)}

theorem flatten_offersEach_of_fits (fits : ∀ buffer ∈ buffers, buffer.length ≤ capacity) :
    (offersEach capacity buffers).flatten = buffers.flatten := by
  induction buffers with
  | nil => rfl
  | cons buffer rest ih =>
    obtain ⟨first, others⟩ := forall_mem_cons.mp fits
    rw [flatten_offersEach_cons, flatten_offers_of_le first, ih others, flatten_cons]

section

variable (positive : 0 < capacity)
include positive

theorem flatten_taken (bytes : List UInt8) :
    ((offers capacity bytes).map (take capacity)).flatten = bytes := by
  induction bytes using offers.induct capacity with
  | case1 => simp [offers]
  | case2 first rest ih =>
    have split : rest.drop (capacity - 1) = (first :: rest).drop capacity := by
      obtain ⟨smaller, rfl⟩ := Nat.exists_eq_succ_of_ne_zero positive.ne'
      simp
    rw [offers, map_cons, flatten_cons, ih, split, take_append_drop]

/-- A buffer is offered exactly once when it is no longer than what is taken at
once. -/
theorem offered_eq_length_iff :
    offered capacity bytes = bytes.length ↔ bytes.length ≤ capacity := by
  constructor
  · intro once
    cases bytes with
    | nil => exact Nat.zero_le _
    | cons first rest =>
      rw [offered_cons, length_cons] at once
      have again := length_le_offered capacity (rest.drop (capacity - 1))
      rw [length_drop] at again
      rw [length_cons]
      omega
  · intro fits
    rw [offered, flatten_offers_of_le fits]

/-- The offers of a buffer cannot be many: each is shorter than the one before
by the whole capacity. -/
theorem offered_le (bytes : List UInt8) :
    offered capacity bytes ≤ bytes.length * (bytes.length / capacity + 1) := by
  induction bytes using offers.induct capacity with
  | case1 => simp [offered, offers]
  | case2 first rest ih =>
    rw [offered_cons, length_cons]
    rw [length_drop] at ih
    by_cases fits : rest.length + 1 ≤ capacity
    · have nothingLeft : rest.length - (capacity - 1) = 0 := by omega
      rw [nothingLeft, Nat.zero_mul] at ih
      calc rest.length + 1 + offered capacity (rest.drop (capacity - 1)) ≤ (rest.length + 1) * 1 := by omega
        _ ≤ (rest.length + 1) * ((rest.length + 1) / capacity + 1) := Nat.mul_le_mul_left _ (Nat.le_add_left _ _)
    · have shorter : rest.length - (capacity - 1) = rest.length + 1 - capacity := by omega
      have quotient : (rest.length + 1) / capacity = (rest.length + 1 - capacity) / capacity + 1 :=
        Nat.div_eq_sub_div positive (by omega)
      rw [shorter, ← quotient] at ih
      calc rest.length + 1 + offered capacity (rest.drop (capacity - 1))
          ≤ rest.length + 1 + (rest.length + 1 - capacity) * ((rest.length + 1) / capacity) := by omega
        _ ≤ rest.length + 1 + (rest.length + 1) * ((rest.length + 1) / capacity) :=
            Nat.add_le_add_left (Nat.mul_le_mul_right _ (Nat.sub_le _ _)) _
        _ = (rest.length + 1) * ((rest.length + 1) / capacity + 1) := by ring

/-- Writing a whole buffer to a sink of bounded appetite is one write for each
offer. -/
theorem ByteWriter.Bounded.writeAll (bounded : writer.Bounded capacity) (state : σ) (bytes : List UInt8) :
    writer.writeAll state bytes =
      (offers capacity bytes).foldlM (fun state offer => (writer.write state offer).map Prod.fst) state := by
  induction bytes using offers.induct capacity generalizing state with
  | case1 =>
    rw [ByteWriter.writeAll, offers]
    rfl
  | case2 first rest ih =>
    rw [ByteWriter.writeAll, offers, foldlM_cons]
    cases written : writer.write state (first :: rest) with
    | error error => rfl
    | ok result =>
      obtain ⟨next, taken⟩ := result
      have took := bounded state _ next taken written
      rw [length_cons] at took
      cases taken with
      | zero => omega
      | succ taken =>
        have remainder : rest.drop taken = rest.drop (capacity - 1) := by
          by_cases fits : rest.length ≤ capacity - 1
          · rw [drop_eq_nil_of_le (by omega), drop_eq_nil_of_le fits]
          · rw [show taken = capacity - 1 by omega]
        simp only [remainder, ih next]
        rfl

theorem flatten_taken_each (buffers : List (List UInt8)) :
    ((offersEach capacity buffers).map (take capacity)).flatten = buffers.flatten := by
  induction buffers with
  | nil => rfl
  | cons buffer rest ih =>
    rw [offersEach] at ih
    rw [offersEach, flatMap_cons, map_append, flatten_append, flatten_taken positive, ih, flatten_cons]

theorem length_offersEach_eq_iff :
    (offersEach capacity buffers).flatten.length = buffers.flatten.length ↔
      ∀ buffer ∈ buffers, buffer.length ≤ capacity := by
  induction buffers with
  | nil => simp [offersEach]
  | cons buffer rest ih =>
    -- neither the first buffer nor the rest is ever offered less than once
    have first := length_le_offered capacity buffer
    have others := length_le_offersEach capacity rest
    have once : offered capacity buffer = buffer.length ↔ buffer.length ≤ capacity := offered_eq_length_iff positive
    rw [forall_mem_cons, ← once, ← ih, length_offersEach_cons, flatten_cons, length_append]
    omega

theorem length_offersEach_le {bound : Nat}
    (bounded : buffers.flatten.length ≤ bound) : (offersEach capacity buffers).flatten.length ≤
      buffers.flatten.length * (bound / capacity + 1) := by
  induction buffers with
  | nil => simp [offersEach]
  | cons buffer rest ih =>
    rw [flatten_cons, length_append] at bounded
    have others := ih (by omega)
    have quotient : buffer.length / capacity + 1 ≤ bound / capacity + 1 :=
      Nat.add_le_add_right (Nat.div_le_div_right (by omega)) 1
    have first := (offered_le positive buffer).trans (Nat.mul_le_mul_left _ quotient)
    rw [length_offersEach_cons, flatten_cons, length_append, Nat.add_mul]
    exact Nat.add_le_add first others

theorem ByteWriter.Bounded.writeEach (bounded : writer.Bounded capacity) (state : σ) (buffers : List (List UInt8)) :
    writer.writeEach state buffers =
      (offersEach capacity buffers).foldlM (fun state offer => (writer.write state offer).map Prod.fst) state := by
  induction buffers generalizing state with
  | nil => rfl
  | cons buffer rest ih =>
    rw [ByteWriter.writeEach, foldlM_cons, bounded.writeAll positive, offersEach, flatMap_cons, foldlM_append]
    exact bind_congr ih

end

end Cast.Foundation
