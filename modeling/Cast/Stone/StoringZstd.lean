import Cast.Stone.WriteProperties

/-! A compression that keeps its law. It knows the frames of some inputs and
stores every other input behind a mark, so that decompression inverts it for
every input. -/

namespace Cast.Stone

open List

/-- A compressor that gives the listed frames and otherwise stores its input
behind a mark. -/
def storeFrame (frames : List (List UInt8 × List UInt8)) (plain : List UInt8) : List UInt8 :=
  match frames.find? fun entry => entry.1 == plain with
  | some entry => entry.2
  | none => 255 :: plain

def unstoreFrame (frames : List (List UInt8 × List UInt8)) (stored : List UInt8) : Option (List UInt8) :=
  match frames.find? fun entry => entry.2 == stored with
  | some entry => some entry.1
  | none => if stored.head? = some 255 then some stored.tail else none

/-- The context is what was fed to the frame. -/
abbrev storingZstd (frames : List (List UInt8 × List UInt8)) : Zstd where
  Context := List UInt8
  create := []
  setPledgedSize context _ := context
  setNumWorkers context _ := context
  compress context input := .ok (context ++ input, [])
  finish context := .ok ([], [storeFrame frames context])
  decompress _ := unstoreFrame frames

variable {frames : List (List UInt8 × List UInt8)}

theorem unstoreFrame_storeFrame
    (distinct : ∀ first ∈ frames, ∀ second ∈ frames, first.2 = second.2 → first.1 = second.1)
    (unmarked : ∀ entry ∈ frames, entry.2.head? ≠ some 255) (plain : List UInt8) :
    unstoreFrame frames (storeFrame frames plain) = some plain := by
  cases listed : frames.find? fun entry => entry.1 == plain with
  | some entry =>
    have member := mem_of_find?_eq_some listed
    have same : entry.1 = plain := by simpa using find?_some listed
    have stored : storeFrame frames plain = entry.2 := by rw [storeFrame, listed]
    rw [stored, unstoreFrame]
    cases found : frames.find? fun other => other.2 == entry.2 with
    | none =>
      have missing := find?_eq_none.mp found entry member
      simp at missing
    | some other =>
      have sameFrame : other.2 = entry.2 := by simpa using find?_some found
      have samePlain := distinct other (mem_of_find?_eq_some found) entry member sameFrame
      simp only [samePlain, same]
  | none =>
    have stored : storeFrame frames plain = 255 :: plain := by rw [storeFrame, listed]
    have unlisted : (frames.find? fun entry => entry.2 == 255 :: plain) = none := by
      rw [find?_eq_none]
      intro entry member same
      have marked : entry.2 = 255 :: plain := by simpa using same
      exact unmarked entry member (by rw [marked]; rfl)
    rw [stored, unstoreFrame, unlisted]
    rfl

theorem storingZstd_feed (context : List UInt8) (pieces : List (List UInt8)) :
    (storingZstd frames).feed context pieces = .ok (context ++ pieces.flatten, []) := by
  induction pieces generalizing context with
  | nil => simp [Zstd.feed]
  | cons piece rest ih => simp [Zstd.feed, ih, bind, Except.bind, pure, Except.pure]

theorem storingZstd_frame (context : List UInt8) (pieces : List (List UInt8)) :
    (storingZstd frames).frame context pieces = .ok ([], storeFrame frames (context ++ pieces.flatten)) := by
  simp [Zstd.frame, storingZstd_feed, bind, Except.bind, pure, Except.pure]

theorem storingZstd_between {context : (storingZstd frames).Context} {pledge : Option Nat}
    (between : (storingZstd frames).Between context pledge) : context = ([] : List UInt8) := by
  induction between with
  | create => rfl
  | pledged _ _ ih | workers _ _ ih => exact ih
  | finished _ framed _ =>
    rw [storingZstd_frame] at framed
    cases framed
    rfl

theorem storingZstd_lawful (distinct : ∀ first ∈ frames, ∀ second ∈ frames, first.2 = second.2 → first.1 = second.1)
    (unmarked : ∀ entry ∈ frames, entry.2.head? ≠ some 255) : (storingZstd frames).Lawful := by
  refine ⟨?_, ?_⟩
  · intro context pledge pieces _ _
    exact ⟨_, storingZstd_frame context pieces⟩
  · intro context next pledge pieces output windowLog between framed _
    rw [storingZstd_frame, storingZstd_between between] at framed
    cases framed
    exact unstoreFrame_storeFrame distinct unmarked _

theorem length_le_of_unstoreFrame (short : ∀ entry ∈ frames, entry.2.length ≤ 64)
    {stored plain : List UInt8} (found : unstoreFrame frames stored = some plain) :
    stored.length ≤ plain.length + 64 := by
  rw [unstoreFrame] at found
  cases listed : frames.find? fun entry => entry.2 == stored with
  | some entry =>
    have same : entry.2 = stored := by simpa using find?_some listed
    have bound := short entry (mem_of_find?_eq_some listed)
    rw [same] at bound
    omega
  | none =>
    rw [listed] at found
    cases stored with
    | nil => simp at found
    | cons mark rest =>
      by_cases marked : mark = 255
      · simp only [marked, head?_cons, if_true, tail_cons, Option.some.injEq] at found
        rw [length_cons, found]
        omega
      · simp [marked] at found

/-- What such a compressor stores is little longer than what was written. -/
theorem storingZstd_stored {xxh3 : Xxh3} (lawful : (storingZstd frames).Lawful)
    (short : ∀ entry ∈ frames, entry.2.length ≤ 64) {script : Script}
    {payloads : List EncodedPayload} {content : Option EncodedPayload}
    (ran : script.encode (storingZstd frames) xxh3 = .ok (payloads, content)) :
    ((payloads ++ content.toList).map fun payload => payload.content.length).sum ≤
      ((script.inner xxh3).map fun payload => payload.pledgedSize + 64).sum +
        (script.contents.flatten.flatten.length + 64) := by
  obtain ⟨encodes, found⟩ := script.encode_encodes lawful ran
  have records {inner : List InnerPayload} {payloads : List EncodedPayload}
      (encodes : Forall₂ (Encodes xxh3 (storingZstd frames)) inner payloads) :
      (payloads.map fun payload => payload.content.length).sum ≤
        (inner.map fun payload => payload.pledgedSize + 64).sum := by
    induction encodes with
    | nil => exact Nat.le_refl _
    | @cons payload encoded inner rest first others ih =>
      have bound := length_le_of_unstoreFrame short (first.unpacks encoderWindowLog (Nat.le_refl _))
      rw [payload.length_encode] at bound
      simp only [map_cons, sum_cons]
      omega
  have recordsBound := records encodes
  rw [map_append, sum_append]
  obtain ⟨_, rfl⟩ | ⟨encoded, _, rfl, encodesContent⟩ := found
  · simp only [Option.toList_none, map_nil, sum_nil]
    omega
  · have bound := length_le_of_unstoreFrame short (encodesContent.unpacks encoderWindowLog (Nat.le_refl _))
    simp only [Option.toList_some, map_cons, map_nil, sum_singleton]
    omega

end Cast.Stone
