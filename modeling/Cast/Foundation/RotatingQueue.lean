import Mathlib.Data.List.Sublists
import Cast.Foundation.Cycles
import Cast.Foundation.Loops

/-! A queue that rotates until its nodes are ready. Nodes wait in increasing order; a node whose
needs have all been emitted is emitted, any other one goes to the back. Without cycles the queue
empties after finitely many passes, and a node is emitted in the pass that counts how often a chain
of needs from it goes up in the order. With a cycle the queue turns for ever. -/

namespace Cast.Foundation

open Relation List

variable {count fuel : Nat} {α : Type} {next node : α} {ready : List α → α → Bool}
  {needs before : α → α → Prop} {keys : List α}

/-- The nodes that were emitted, in order, and the nodes that wait. -/
structure OrderState (α : Type) where
  ordered : List α
  queue : List α

def rotatingRound [DecidableEq α] (ready : List α → α → Bool) (current : OrderState α) :
    Round (OrderState α) (List α) :=
  match current.queue with
  | [] => .leave current.ordered
  | node :: rest =>
    if node ∈ current.ordered then .again { current with queue := rest }
    else if ready current.ordered node then .again ⟨current.ordered ++ [node], rest⟩
    else .again { current with queue := rest ++ [node] }

/-! ### Climbing chains -/

/-- Some chain of needs from a node goes up at least so many times. -/
inductive Climbs (needs before : α → α → Prop) : Nat → α → Prop where
  | none {node : α} : Climbs needs before 0 node
  | along {node next : α} {count : Nat} : needs node next → Climbs needs before count next →
      Climbs needs before count node
  | up {node next : α} {count : Nat} : needs node next → before node next →
      Climbs needs before count next → Climbs needs before (count + 1) node

theorem Climbs.less (climbs : Climbs needs before count node) :
    ∀ less, less ≤ count → Climbs needs before less node := by
  induction climbs with
  | none =>
    intro less fewer
    obtain rfl := Nat.le_zero.mp fewer
    exact .none
  | along edge _ ih => exact fun less fewer => .along edge (ih less fewer)
  | @up node next count edge upward climbs ih =>
    intro less fewer
    by_cases last : less = count + 1
    · subst last
      exact .up edge upward climbs
    · exact .along edge (ih less (by omega))

theorem climbs_succ_iff : Climbs needs before (count + 1) node ↔ ∃ next, needs node next ∧
      (Climbs needs before (count + 1) next ∨ before node next ∧ Climbs needs before count next) := by
  constructor
  · intro climbs
    cases climbs with
    | along edge further => exact ⟨_, edge, .inl further⟩
    | up edge upward further => exact ⟨_, edge, .inr ⟨upward, further⟩⟩
  · rintro ⟨next, edge, further | ⟨upward, further⟩⟩
    · exact .along edge further
    · exact .up edge upward further

theorem Climbs.chain (closed : ∀ node ∈ keys, ∀ next, needs node next → next ∈ keys)
    (climbs : Climbs needs before count node) (member : node ∈ keys) :
    ∃ rest, (node :: rest).IsChain needs ∧ count ≤ rest.length ∧ ∀ other ∈ rest, other ∈ keys := by
  induction climbs with
  | none => exact ⟨[], by simp, Nat.le_refl 0, by simp⟩
  | @along node next count edge _ ih | @up node next count edge _ _ ih =>
    have nextMember := closed node member next edge
    obtain ⟨rest, chain, long, inside⟩ := ih nextMember
    refine ⟨next :: rest, isChain_cons_cons.mpr ⟨edge, chain⟩, ?_, ?_⟩
    · rw [length_cons]
      omega
    · simpa using ⟨nextMember, inside⟩

theorem nodup_of_isChain {walk : List α} (free : Acyclic needs) (chain : walk.IsChain needs) :
    walk.Nodup := by
  have reaching : walk.IsChain (TransGen needs) := chain.imp fun _ _ => .single
  refine (isChain_iff_pairwise.mp reaching).imp ?_
  rintro first second path rfl
  exact free first path

theorem Climbs.lt_length (closed : ∀ node ∈ keys, ∀ next, needs node next → next ∈ keys) (free : Acyclic needs)
    (member : node ∈ keys) (climbs : Climbs needs before count node) : count < keys.length := by
  obtain ⟨rest, chain, long, inside⟩ := climbs.chain closed member
  have fewer := (subperm_of_subset (nodup_of_isChain free chain) (cons_subset.mpr ⟨member, inside⟩)).length_le
  rw [length_cons] at fewer
  omega

/-- The pass in which a node is emitted. -/
def Level (needs before : α → α → Prop) (count : Nat) (node : α) : Prop :=
  Climbs needs before count node ∧ ¬ Climbs needs before (count + 1) node

theorem exists_level (short : ¬ Climbs needs before count node) :
    ∃ level, level < count ∧ Level needs before level node := by
  induction count with
  | zero => exact absurd .none short
  | succ count ih =>
    by_cases climbs : Climbs needs before count node
    · exact ⟨count, Nat.lt_succ_self count, climbs, short⟩
    · obtain ⟨level, below, isLevel⟩ := ih climbs
      exact ⟨level, Nat.lt_succ_of_lt below, isLevel⟩

/-- A node is emitted in an earlier pass than another, or before it in the same one. -/
def EmittedBefore (needs before : α → α → Prop) (first second : α) : Prop :=
  (∃ count, Climbs needs before count second ∧ ¬ Climbs needs before count first) ∨
    (∀ count, Climbs needs before count first ↔ Climbs needs before count second) ∧ before first second

theorem EmittedBefore.asymm (asymmetric : ∀ first second, before first second → ¬ before second first)
    {first second : α} (earlier : EmittedBefore needs before first second) :
    ¬ EmittedBefore needs before second first := by
  intro later
  obtain ⟨count, climbs, short⟩ | ⟨same, smaller⟩ := earlier
  · obtain ⟨other, alsoClimbs, alsoShort⟩ | ⟨same, -⟩ := later
    · obtain fewer | more := Nat.le_total count other
      · exact short (alsoClimbs.less count fewer)
      · exact alsoShort (climbs.less other more)
    · exact short ((same count).mp climbs)
  · obtain ⟨other, alsoClimbs, alsoShort⟩ | ⟨-, larger⟩ := later
    · exact alsoShort ((same other).mp alsoClimbs)
    · exact asymmetric first second smaller larger

/-! ### Passes -/

/-- What a rotating queue is given: nodes in increasing order whose needs are among them, without
cycles, and a test that looks for the needs of a node among the emitted ones. -/
structure Rotation (needs before : α → α → Prop) (ready : List α → α → Bool) (keys : List α) :
    Prop where
  sorted : keys.Pairwise before
  asymmetric : ∀ first second, before first second → ¬ before second first
  closed : ∀ node ∈ keys, ∀ next, needs node next → next ∈ keys
  free : Acyclic needs
  readiness : ∀ ordered node, ready ordered node = true ↔ ∀ next, needs node next → next ∈ ordered

open Classical in
noncomputable def passes (needs before : α → α → Prop) (keys : List α) (count : Nat) : List α :=
  (range count).flatMap fun level => keys.filter fun node => Level needs before level node

namespace Rotation

variable {done todo : List α}

theorem mem_passes : node ∈ passes needs before keys count ↔ node ∈ keys ∧ ¬ Climbs needs before count node := by
  simp only [passes, mem_flatMap, mem_range, mem_filter, decide_eq_true_eq]
  constructor
  · rintro ⟨level, below, member, -, short⟩
    exact ⟨member, fun climbs => short (climbs.less _ below)⟩
  · rintro ⟨member, short⟩
    obtain ⟨level, below, isLevel⟩ := exists_level short
    exact ⟨level, below, member, isLevel⟩

variable (rotation : Rotation needs before ready keys)

include rotation in
theorem short (member : node ∈ keys) : ¬ Climbs needs before keys.length node := fun climbs =>
  Nat.lt_irrefl _ (climbs.lt_length rotation.closed rotation.free member)

include rotation in
theorem keys_nodup : keys.Nodup := by
  refine rotation.sorted.imp ?_
  rintro first second smaller rfl
  exact rotation.asymmetric first first smaller smaller

include rotation in
/-- At its turn in a pass a node is ready unless it climbs further. -/
theorem ready_iff {ordered : List α} (split : keys = done ++ node :: todo)
    (emitted : ∀ next, next ∈ ordered ↔ next ∈ keys ∧ (¬ Climbs needs before count next ∨
      next ∈ done ∧ ¬ Climbs needs before (count + 1) next)) :
    ready ordered node = true ↔ ¬ Climbs needs before (count + 1) node := by
  have member : node ∈ keys := by simp [split]
  have sorted := rotation.sorted
  rw [split, pairwise_append, pairwise_cons] at sorted
  rw [rotation.readiness, climbs_succ_iff, not_exists]
  refine forall_congr' fun next => ?_
  rw [not_and]
  refine imp_congr_right fun edge => ?_
  have nextMember := rotation.closed node member next edge
  rw [emitted, not_or, not_and]
  constructor
  · rintro ⟨-, shorter | ⟨earlier, short⟩⟩
    · exact ⟨fun climbs => shorter (climbs.less count (Nat.le_succ count)), fun _ => shorter⟩
    · refine ⟨short, fun upward => ?_⟩
      exact absurd upward (rotation.asymmetric next node (sorted.2.2 next earlier node (by simp)))
  · rintro ⟨short, notUp⟩
    refine ⟨nextMember, ?_⟩
    by_cases climbs : Climbs needs before count next
    · rw [split, mem_append, mem_cons] at nextMember
      obtain earlier | rfl | later := nextMember
      · exact .inr ⟨earlier, short⟩
      · exact absurd (.single edge) (rotation.free next)
      · exact absurd climbs (notUp (sorted.2.1.1 next later))
    · exact .inl climbs

open Classical in
/-- A pass that has done some nodes: the earlier passes and the nodes of this one that it has met
are emitted; the rest of this pass waits, and behind it the nodes that were sent back. -/
noncomputable def midPass (needs before : α → α → Prop) (keys done todo : List α) (count : Nat) : OrderState α where
  ordered := passes needs before keys count ++ done.filter fun node => Level needs before count node
  queue := (todo.filter fun node => Climbs needs before count node) ++
    done.filter fun node => Climbs needs before (count + 1) node

theorem mem_ordered (split : keys = done ++ todo) : node ∈ (midPass needs before keys done todo count).ordered ↔
      node ∈ keys ∧ (¬ Climbs needs before count node ∨ node ∈ done ∧ ¬ Climbs needs before (count + 1) node) := by
  have inKeys : node ∈ done → node ∈ keys := fun member => split ▸ mem_append_left todo member
  simp only [midPass, mem_append, mem_passes, mem_filter, decide_eq_true_eq]
  unfold Level
  by_cases climbs : Climbs needs before count node
  · simp only [climbs, not_true_eq_false, and_false, true_and, false_or]
    exact ⟨fun met => ⟨inKeys met.1, met⟩, fun met => met.2⟩
  · simp [climbs]

theorem midPass_end : midPass needs before keys keys [] count = midPass needs before keys [] keys (count + 1) := by
  simp [midPass, passes, range_succ]

theorem midPass_start : midPass needs before keys [] keys 0 = ⟨[], keys⟩ := by
  have all : ∀ node : α, Climbs needs before 0 node := fun _ => .none
  simp [midPass, passes, all]

section

variable (rotation : Rotation needs before ready keys)
include rotation

/-- One node of a pass: it is skipped, emitted or sent back. -/
theorem midPass_step [DecidableEq α] (split : keys = done ++ node :: todo) :
    midPass needs before keys done (node :: todo) count = midPass needs before keys (done ++ [node]) todo count ∨
      rotatingRound ready (midPass needs before keys done (node :: todo) count) =
        .again (midPass needs before keys (done ++ [node]) todo count) := by
  by_cases climbs : Climbs needs before count node
  · right
    have fresh : node ∉ (midPass needs before keys done (node :: todo) count).ordered := by
      rw [mem_ordered split]
      rintro ⟨-, short | ⟨earlier, -⟩⟩
      · exact short climbs
      · have nodup := rotation.keys_nodup
        rw [split, nodup_append] at nodup
        exact nodup.2.2 node earlier node (by simp) rfl
    have queue : (midPass needs before keys done (node :: todo) count).queue =
        node :: ((midPass needs before keys done todo count).queue) := by
      simp [midPass, climbs]
    have turn : ready (midPass needs before keys done (node :: todo) count).ordered node = true ↔
        ¬ Climbs needs before (count + 1) node :=
      rotation.ready_iff split fun next => mem_ordered split
    unfold rotatingRound
    rw [queue]
    by_cases further : Climbs needs before (count + 1) node
    · have waits : ¬ ready (midPass needs before keys done (node :: todo) count).ordered node = true :=
        fun isReady => turn.mp isReady further
      have notLevel : ¬ Level needs before count node := fun level => level.2 further
      simp only [if_neg fresh, if_neg waits]
      simp [midPass, further, notLevel, filter_append]
    · have isLevel : Level needs before count node := ⟨climbs, further⟩
      simp only [if_neg fresh, if_pos (turn.mpr further)]
      simp [midPass, further, isLevel, filter_append]
  · left
    have further : ¬ Climbs needs before (count + 1) node :=
      fun climbsMore => climbs (climbsMore.less count (Nat.le_succ count))
    have notLevel : ¬ Level needs before count node := fun level => climbs level.1
    simp [midPass, climbs, further, notLevel, filter_append]

theorem pass_returns [DecidableEq α] {result : List α}
    (later : loop (rotatingRound ready) fuel (midPass needs before keys keys [] count) = some result)
    (split : keys = done ++ todo) :
    ∃ fuel, loop (rotatingRound ready) fuel (midPass needs before keys done todo count) = some result := by
  induction todo generalizing done with
  | nil =>
    rw [append_nil] at split
    exact ⟨fuel, split ▸ later⟩
  | cons node todo ih =>
    have further : keys = (done ++ [node]) ++ todo := by simpa using split
    obtain ⟨fuel, returned⟩ := ih further
    obtain skipped | stepped := rotation.midPass_step split
    · exact ⟨fuel, skipped ▸ returned⟩
    · exact ⟨fuel + 1, (loop_of_again stepped).trans returned⟩

theorem passes_return [DecidableEq α] {left : Nat} (remaining : count + left = keys.length) :
    ∃ fuel, loop (rotatingRound ready) fuel (midPass needs before keys [] keys count) =
      some (passes needs before keys keys.length) := by
  induction left generalizing count with
  | zero =>
    obtain rfl : count = keys.length := remaining
    have empty : (midPass needs before keys [] keys keys.length).queue = [] := by
      simpa [midPass] using fun node member => rotation.short member
    refine ⟨1, loop_of_leave ?_⟩
    unfold rotatingRound
    rw [empty]
    simp [midPass]
  | succ left ih =>
    have fewer : count + 1 + left = keys.length := by omega
    obtain ⟨fuel, returned⟩ := ih fewer
    exact rotation.pass_returns (midPass_end ▸ returned) rfl

/-- Without cycles the queue empties, and what it has emitted are its passes. -/
theorem returns [DecidableEq α] : ∃ enough, ∀ fuel, enough ≤ fuel → loop (rotatingRound ready) fuel ⟨[], keys⟩ =
      some (passes needs before keys keys.length) := by
  obtain ⟨enough, returned⟩ := rotation.passes_return (Nat.zero_add keys.length)
  rw [midPass_start] at returned
  exact ⟨enough, fun fuel more => loop_of_le more returned⟩

end

/-! ### The order of the passes -/

theorem emittedBefore_of_level (sorted : keys.Pairwise before) :
    (passes needs before keys count).Pairwise (EmittedBefore needs before) := by
  unfold passes
  rw [pairwise_flatMap]
  constructor
  · intro level _
    refine (List.Pairwise.and_mem.mp (sorted.filter _)).imp ?_
    rintro first second ⟨firstMember, secondMember, smaller⟩
    have firstLevel : Level needs before level first := by simpa using (mem_filter.mp firstMember).2
    have secondLevel : Level needs before level second := by simpa using (mem_filter.mp secondMember).2
    refine .inr ⟨fun count => ?_, smaller⟩
    by_cases within : count ≤ level
    · simp [firstLevel.1.less count within, secondLevel.1.less count within]
    · have above : level + 1 ≤ count := by omega
      exact ⟨fun climbs => absurd (climbs.less _ above) firstLevel.2,
        fun climbs => absurd (climbs.less _ above) secondLevel.2⟩
  · refine pairwise_lt_range.imp ?_
    intro lower upper below first firstMember second secondMember
    have firstLevel : Level needs before lower first := by simpa using (mem_filter.mp firstMember).2
    have secondLevel : Level needs before upper second := by simpa using (mem_filter.mp secondMember).2
    exact .inl ⟨lower + 1, secondLevel.1.less _ below, firstLevel.2⟩

include rotation in
theorem passes_nodup : (passes needs before keys count).Nodup := by
  refine (emittedBefore_of_level rotation.sorted).imp ?_
  rintro first second earlier rfl
  exact earlier.asymm rotation.asymmetric earlier

include rotation in
theorem passes_perm : (passes needs before keys keys.length).Perm keys := by
  rw [perm_ext_iff_of_nodup rotation.passes_nodup rotation.keys_nodup]
  intro node
  rw [mem_passes]
  exact ⟨fun met => met.1, fun member => ⟨member, rotation.short member⟩⟩

include rotation in
/-- In the emitted order one node precedes another exactly when it is emitted before it. -/
theorem precedes_iff {first second : α} (firstMember : first ∈ keys) (secondMember : second ∈ keys) :
    Sublist [first, second] (passes needs before keys keys.length) ↔ EmittedBefore needs before first second := by
  have ordered : (passes needs before keys keys.length).Pairwise (EmittedBefore needs before) :=
    emittedBefore_of_level rotation.sorted
  constructor
  · intro precedes
    exact (pairwise_cons.mp (ordered.sublist precedes)).1 second (by simp)
  · intro earlier
    have differs : first ≠ second := by
      rintro rfl
      exact earlier.asymm rotation.asymmetric earlier
    obtain ⟨front, back, split⟩ := append_of_mem (rotation.passes_perm.mem_iff.mpr secondMember)
    have member := rotation.passes_perm.mem_iff.mpr firstMember
    rw [split] at ordered member ⊢
    obtain inFront | rfl | inBack : first ∈ front ∨ first = second ∨ first ∈ back := by simpa using member
    · exact (singleton_sublist.mpr inFront).append (by simp)
    · exact absurd rfl differs
    · have later := (pairwise_cons.mp (pairwise_append.mp ordered).2.1).1 first inBack
      exact absurd earlier (later.asymm rotation.asymmetric)

include rotation in
theorem emittedBefore_of_need (member : node ∈ keys) (edge : needs node next) : EmittedBefore needs before next node := by
  have nextMember := rotation.closed node member next edge
  by_cases same : ∀ count, Climbs needs before count next ↔ Climbs needs before count node
  · refine .inr ⟨same, ?_⟩
    obtain ⟨front, back, split⟩ := append_of_mem member
    have sorted := rotation.sorted
    rw [split, pairwise_append, pairwise_cons] at sorted
    rw [split, mem_append, mem_cons] at nextMember
    obtain earlier | rfl | later := nextMember
    · exact sorted.2.2 next earlier node (by simp)
    · exact absurd (.single edge) (rotation.free next)
    · -- an upward need would climb once more for each climb of its target
      have endless : ∀ count, Climbs needs before count next := by
        intro count
        induction count with
        | zero => exact .none
        | succ count ih => exact (same (count + 1)).mpr (.up edge (sorted.2.1.1 next later) ih)
      exact absurd (endless _) (rotation.short (rotation.closed node member next edge))
  · obtain ⟨count, differs⟩ := not_forall.mp same
    refine .inl ⟨count, ?_⟩
    by_cases climbs : Climbs needs before count next
    · exact absurd ⟨fun _ => .along edge climbs, fun _ => climbs⟩ differs
    · by_cases alsoClimbs : Climbs needs before count node
      · exact ⟨alsoClimbs, climbs⟩
      · exact absurd ⟨fun met => absurd met climbs, fun met => absurd met alsoClimbs⟩ differs

end Rotation

/-! ### Cycles -/

/-- Nodes on a cycle are never ready, and the queue never empties. -/
theorem rotating_never_returns [DecidableEq α]
    (readiness : ∀ ordered node, ready ordered node = true → ∀ next, needs node next → next ∈ ordered)
    (member : node ∈ keys) (around : TransGen needs node node) :
    loop (rotatingRound ready) fuel ⟨[], keys⟩ = none := by
  have goesRound : ∀ other, TransGen needs node other → TransGen needs other node →
      ∃ next, needs other next ∧ TransGen needs node next ∧ TransGen needs next node := by
    intro other reached back
    obtain ⟨next, edge, further⟩ := TransGen.head'_iff.mp back
    exact ⟨next, edge, reached.tail edge, TransGen.trans_right further around⟩
  refine loop_never (fun current => node ∈ current.queue ∧ ∀ other ∈ current.ordered,
    ¬ (TransGen needs node other ∧ TransGen needs other node)) ⟨member, by simp⟩ ?_
  rintro ⟨ordered, queue⟩ ⟨waits, outside⟩
  cases queue with
  | nil => exact absurd waits not_mem_nil
  | cons first rest =>
    unfold rotatingRound
    have fresh : node ∉ ordered := fun emitted => outside node emitted ⟨around, around⟩
    by_cases emitted : first ∈ ordered
    · refine ⟨⟨ordered, rest⟩, by simp [emitted], ?_, outside⟩
      exact (mem_cons.mp waits).resolve_left fun same => fresh (same ▸ emitted)
    · by_cases isReady : ready ordered first = true
      · have offCycle : ¬ (TransGen needs node first ∧ TransGen needs first node) := by
          rintro ⟨reached, back⟩
          obtain ⟨next, edge, onCycle⟩ := goesRound first reached back
          exact outside next (readiness ordered first isReady next edge) onCycle
        refine ⟨⟨ordered ++ [first], rest⟩, by simp [emitted, isReady], ?_, ?_⟩
        · exact (mem_cons.mp waits).resolve_left fun same => offCycle (same ▸ ⟨around, around⟩)
        · exact forall_mem_append.mpr ⟨outside, forall_mem_singleton.mpr offCycle⟩
      · refine ⟨⟨ordered, rest ++ [first]⟩, by simp [emitted, isReady], ?_, outside⟩
        obtain rfl | later := mem_cons.mp waits
        · simp
        · exact mem_append_left _ later

end Cast.Foundation
