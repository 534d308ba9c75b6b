import Cast.Foundation.Directory

/-! Programs that work on one directory through system calls, and two ways the
world can spoil a run: the process is stopped between two calls, or a call
reports a failure, with or without having taken effect. `Ensures` is the
verification condition for both; it asks for a property of every directory on
the way, not only of the last one. -/

namespace Cast.Foundation

variable {ε η α β : Type}

inductive Program (ε α : Type) : Type where
  | done (outcome : Except ε α)
  | call (request : Request) (next : Except IoError request.Value → Program ε α)

namespace Program

def bind : Program ε α → (α → Program ε β) → Program ε β
  | done (.ok value), next => next value
  | done (.error error), _ => done (.error error)
  | call request resume, next => call request fun answer => (resume answer).bind next

instance : Monad (Program ε) where
  pure value := done (.ok value)
  bind := bind

def mapError (convert : ε → η) : Program ε α → Program η α
  | done outcome => done (outcome.mapError convert)
  | call request next => call request fun answer => (next answer).mapError convert

/-- Run a part whose failure is handled by the rest of the program. -/
def attempt : Program ε α → Program η (Except ε α)
  | done outcome => done (.ok outcome)
  | call request next => call request fun answer => (next answer).attempt

def request (request : Request) : Program IoError request.Value := call request done

def fail (error : ε) : Program ε α := done (.error error)

/-- A check that needs no system call. -/
def check (bad : Prop) [Decidable bad] (error : ε) : Program ε Unit := done (refuse bad error)

end Program

/-- What the device does with one call. -/
inductive Fault where
  | none
  | refused
  | misreported
  
def Directory.serve (directory : Directory) (fault : Fault) (request : Request) :
    Except IoError request.Value × Directory :=
  match fault with
  | .none => directory.perform request
  | .refused => (.error .device, directory)
  | .misreported => (.error .device, (directory.perform request).2)

structure Execution (ε α : Type) where
  outcome : Except ε α
  directory : Directory
  requests : List Request

namespace Program

/-- A complete run. The pattern says what happens to the calls on the names of
the directory, in order; past its end nothing fails. -/
def run (faults : List Fault) : Program ε α → Directory → Execution ε α
  | done outcome, directory => ⟨outcome, directory, []⟩
  | call request next, directory =>
    let fault := if request.fallible then faults.headD .none else .none
    let later := if request.fallible then faults.tail else faults
    let served := directory.serve fault request
    let rest := (next served.1).run later served.2
    ⟨rest.outcome, rest.directory, request :: rest.requests⟩

/-- The directory left behind by a process that stops after so many calls. -/
def stopAfter : Nat → Program ε α → Directory → Directory
  | _, done _, directory => directory
  | 0, call _ _, directory => directory
  | steps + 1, call request next, directory =>
    let served := directory.perform request
    (next served.1).stopAfter steps served.2

end Program

inductive Device where
  | reliable
  | faulty

def Device.Allows (device : Device) (request : Request) (fault : Fault) : Prop :=
  fault = .none ∨ (device = .faulty ∧ request.fallible = true)

namespace Program

/-- Along every run the device allows, `always` holds of each directory, and the
last one satisfies `good` with the value returned or `bad` with the error. -/
def Ensures (device : Device) (always : Directory → Prop) (good : α → Directory → Prop)
    (bad : ε → Directory → Prop) : Program ε α → Directory → Prop
  | done (.ok value), directory => always directory ∧ good value directory
  | done (.error error), directory => always directory ∧ bad error directory
  | call request next, directory => always directory ∧ ∀ fault, device.Allows request fault →
      (next (directory.serve fault request).1).Ensures device always good bad (directory.serve fault request).2

/-- A device that never fails makes the program succeed. -/
abbrev Succeeds (always : Directory → Prop) (good : α → Directory → Prop) (program : Program ε α)
    (directory : Directory) : Prop :=
  program.Ensures .reliable always good (fun _ _ => False) directory

/-- The program only looks at the directory, and this is what it returns. -/
def Reads (directory : Directory) (result : Except ε α) : Program ε α → Prop
  | done outcome => outcome = result
  | call request next => request.observes = true ∧
      (next (directory.perform request).1).Reads directory result

/-- Whatever is answered, calls of the counted kind are made at most so often. -/
def MakesAtMost (counted : Request → Bool) : Nat → Program ε α → Prop
  | _, done _ => True
  | limit, call request next =>
    ((counted request).toNat ≤ limit) ∧ ∀ answer, (next answer).MakesAtMost counted (limit - (counted request).toNat)

variable {device : Device} {always : Directory → Prop} {good : α → Directory → Prop}
  {bad : ε → Directory → Prop} {directory : Directory} {program : Program ε α}

theorem observes_perform {request : Request} (looks : request.observes = true) :
    (directory.perform request).2 = directory := by
  cases request <;> first | rfl | cases looks

theorem observes_infallible {request : Request} (looks : request.observes = true) :
    request.fallible = false := by
  cases request <;> first | rfl | cases looks

theorem Ensures.atStart (ensured : program.Ensures device always good bad directory) :
    always directory := by
  cases program with
  | done outcome => cases outcome <;> exact ensured.1
  | call request next => exact ensured.1

theorem Ensures.mono (ensured : program.Ensures device always good bad directory)
    {always' : Directory → Prop} {good' : α → Directory → Prop} {bad' : ε → Directory → Prop}
    (onAlways : ∀ directory, always directory → always' directory)
    (onGood : ∀ value directory, always directory → good value directory → good' value directory)
    (onBad : ∀ error directory, always directory → bad error directory → bad' error directory) :
    program.Ensures device always' good' bad' directory := by
  induction program generalizing directory with
  | done outcome =>
    cases outcome with
    | ok value => exact ⟨onAlways _ ensured.1, onGood _ _ ensured.1 ensured.2⟩
    | error error => exact ⟨onAlways _ ensured.1, onBad _ _ ensured.1 ensured.2⟩
  | call request next ih => exact ⟨onAlways _ ensured.1, fun fault allowed => ih _ (ensured.2 fault allowed)⟩

variable {next : α → Program ε β}

theorem ensures_bind {good : β → Directory → Prop} : (program >>= next).Ensures device always good bad directory ↔
      program.Ensures device always (fun value directory => (next value).Ensures device always good bad directory) bad
        directory := by
  induction program generalizing directory with
  | done outcome =>
    cases outcome with
    | ok value => exact ⟨fun ensured => ⟨ensured.atStart, ensured⟩, fun ensured => ensured.2⟩
    | error error => exact Iff.rfl
  | call request resume ih => exact and_congr_right fun _ => forall₂_congr fun _ _ => ih _

theorem Ensures.bind {middle : α → Directory → Prop}
    {good : β → Directory → Prop} (first : program.Ensures device always middle bad directory)
    (rest : ∀ value after, middle value after → (next value).Ensures device always good bad after) :
    (program >>= next).Ensures device always good bad directory :=
  ensures_bind.mpr (first.mono (fun _ kept => kept) (fun value after _ => rest value after)
    (fun _ _ _ failed => failed))

theorem ensures_mapError {convert : ε → η} {bad : η → Directory → Prop} :
    (program.mapError convert).Ensures device always good bad directory ↔
      program.Ensures device always good (fun error => bad (convert error)) directory := by
  induction program generalizing directory with
  | done outcome => cases outcome <;> exact Iff.rfl
  | call request next ih => exact and_congr_right fun _ => forall₂_congr fun _ _ => ih _

theorem ensures_attempt {good : Except ε α → Directory → Prop} {bad : η → Directory → Prop} :
    (program.attempt : Program η (Except ε α)).Ensures device always good bad directory ↔
      program.Ensures device always (fun value => good (.ok value)) (fun error => good (.error error)) directory := by
  induction program generalizing directory with
  | done outcome => cases outcome <;> exact Iff.rfl
  | call request next ih => exact and_congr_right fun _ => forall₂_congr fun _ _ => ih _

section

variable {call : Request} {value : call.Value} {after : Directory} {convert : IoError → ε}
  {next : call.Value → Program ε α} {handled : Except IoError call.Value → Program ε α}
  {returned : call.Value → Directory → Prop} {failed : IoError → Directory → Prop}
  (performed : directory.perform call = (.ok value, after)) (before : always directory)
include performed before

/-- One call that succeeds on its own. Only a faulty device makes it fail, before
or after its effect. -/
theorem ensures_request (later : always after) (succeeds : returned value after)
    (fails : device = .faulty → call.fallible = true → failed .device directory ∧ failed .device after) :
    (request call).Ensures device always returned failed directory := by
  refine ⟨before, fun fault allowed => ?_⟩
  cases fault with
  | none =>
    simp only [Directory.serve, performed]
    exact ⟨later, succeeds⟩
  | refused =>
    rcases allowed with impossible | ⟨faulty, fallible⟩
    · cases impossible
    · exact ⟨before, (fails faulty fallible).1⟩
  | misreported =>
    rcases allowed with impossible | ⟨faulty, fallible⟩
    · cases impossible
    · simp only [Directory.serve, performed]
      exact ⟨later, (fails faulty fallible).2⟩

/-- One call of a program on a device that never fails, its error converted. -/
theorem ensures_step (rest : (next value).Ensures .reliable always good bad after) :
    ((request call).mapError convert >>= next).Ensures .reliable always good bad directory := by
  rw [ensures_bind, ensures_mapError]
  exact ensures_request performed before rest.atStart rest nofun

variable (call) in
theorem ensures_last (later : always after) (succeeds : returned value after) :
    ((request call).mapError convert).Ensures .reliable always returned bad directory := by
  rw [ensures_mapError]
  exact ensures_request performed before later succeeds nofun

theorem ensures_step_attempt (rest : (handled (.ok value)).Ensures .reliable always good bad after) :
    ((request call).attempt >>= handled).Ensures .reliable always good bad directory := by
  rw [ensures_bind, ensures_attempt]
  exact ensures_request performed before rest.atStart rest nofun

/-- The same on any device: where the call can fail, the program goes on with the
error, from before or after the effect. -/
theorem ensures_step_handled (succeeds : (handled (.ok value)).Ensures device always good bad after)
    (fails : device = .faulty → (handled (.error .device)).Ensures device always good bad directory ∧
      (handled (.error .device)).Ensures device always good bad after) :
    ((request call).attempt >>= handled).Ensures device always good bad directory := by
  rw [ensures_bind, ensures_attempt]
  exact ensures_request performed before succeeds.atStart succeeds fun faulty _ => fails faulty

end

theorem ensures_request_error {call : Request} {error : IoError}
    {good : call.Value → Directory → Prop} {bad : IoError → Directory → Prop}
    (performed : directory.perform call = (.error error, directory))
    (infallible : call.fallible = false) (before : always directory)
    (fails : bad error directory) :
    (request call).Ensures device always good bad directory := by
  refine ⟨before, fun fault allowed => ?_⟩
  rcases allowed with rfl | ⟨_, fallible⟩
  · simp only [Directory.serve, performed]
    exact ⟨before, fails⟩
  · rw [infallible] at fallible
    cases fallible

variable {result : Except ε α}

theorem Reads.ensures (looks : program.Reads directory result) :
    program.Ensures device always good bad directory ↔ (done result).Ensures device always good bad directory := by
  induction program with
  | done outcome =>
    cases looks
    exact Iff.rfl
  | call request next ih =>
    obtain ⟨observes, rest⟩ := looks
    rw [← ih _ rest]
    constructor
    · intro ensured
      have step := ensured.2 .none (.inl rfl)
      simp only [Directory.serve, observes_perform observes] at step
      exact step
    · intro ensured
      refine ⟨ensured.atStart, fun fault allowed => ?_⟩
      rcases allowed with rfl | ⟨_, fallible⟩
      · simp only [Directory.serve, observes_perform observes]
        exact ensured
      · rw [observes_infallible observes] at fallible
        cases fallible

theorem Reads.bind {value : α} {result : Except ε β}
    (looks : program.Reads directory (.ok value)) (rest : (next value).Reads directory result) :
    (program >>= next).Reads directory result := by
  induction program with
  | done outcome =>
    cases looks
    exact rest
  | call request resume ih => exact ⟨looks.1, ih _ looks.2⟩

theorem Reads.mapError (looks : program.Reads directory result)
    (convert : ε → η) : (program.mapError convert).Reads directory (result.mapError convert) := by
  induction program with
  | done outcome =>
    cases looks
    rfl
  | call request resume ih => exact ⟨looks.1, ih _ looks.2⟩

theorem Reads.attempt (looks : program.Reads directory result) :
    (program.attempt : Program η (Except ε α)).Reads directory (.ok result) := by
  induction program with
  | done outcome =>
    cases looks
    rfl
  | call request resume ih => exact ⟨looks.1, ih _ looks.2⟩

theorem reads_request {call : Request} (observes : call.observes = true)
    {result : Except IoError call.Value} (answered : (directory.perform call).1 = result) :
    (request call).Reads directory result :=
  ⟨observes, answered⟩

theorem reads_check {bad : Prop} [Decidable bad] {error : ε} (passes : ¬ bad) :
    (check bad error).Reads directory (.ok ()) := by
  simp [check, Reads, refuse, passes]

/-- A part that only looks leaves no obligation but that of the rest. -/
theorem Reads.ensures_bind {value : α} {good : β → Directory → Prop} (looks : program.Reads directory (.ok value))
    (rest : (next value).Ensures device always good bad directory) :
    (program >>= next).Ensures device always good bad directory := by
  rw [Program.ensures_bind, looks.ensures]
  exact ⟨rest.atStart, rest⟩

/-- A check either ends the program with its error or lets it go on. -/
theorem ensures_check {refused : Prop} [Decidable refused] {error : ε}
    {next : Unit → Program ε α} (before : always directory)
    (fails : refused → bad error directory)
    (passes : ¬ refused → (next ()).Ensures device always good bad directory) :
    (check refused error >>= next).Ensures device always good bad directory := by
  by_cases held : refused
  · rw [check, refuse, if_pos held]
    exact ⟨before, fails held⟩
  · rw [check, refuse, if_neg held]
    exact passes held

theorem ensures_done {outcome : Except ε β} {next : β → Program ε α} (before : always directory)
    (fails : ∀ error, outcome = .error error → bad error directory)
    (passes : ∀ value, outcome = .ok value → (next value).Ensures device always good bad directory) :
    (done outcome >>= next).Ensures device always good bad directory := by
  cases outcome with
  | ok value => exact passes value rfl
  | error error => exact ⟨before, fails error rfl⟩

/-- A complete run ends as the condition says; without faults, also on a device
that never fails. -/
theorem Ensures.run (ensured : program.Ensures device always good bad directory)
    (faults : List Fault) (allowed : faults = [] ∨ device = .faulty) :
    (done (program.run faults directory).outcome).Ensures device always good bad
      (program.run faults directory).directory := by
  induction program generalizing directory faults with
  | done outcome => exact ensured
  | call request next ih =>
    have permitted : device.Allows request (if request.fallible then faults.headD .none else .none) := by
      by_cases fallible : request.fallible = true
      · rcases allowed with rfl | faulty
        · exact .inl (by simp)
        · exact .inr ⟨faulty, fallible⟩
      · exact .inl (if_neg fallible)
    refine ih _ (ensured.2 _ permitted) _ ?_
    rcases allowed with rfl | faulty
    · exact .inl (by simp)
    · exact .inr faulty

/-- A program that never fails on a device that never fails returns a value. -/
theorem Ensures.run_ok (ensured : program.Succeeds always good directory) :
    ∃ value, (program.run [] directory).outcome = .ok value ∧ good value (program.run [] directory).directory := by
  have ended := ensured.run [] (.inl rfl)
  cases outcome : (program.run [] directory).outcome with
  | ok value => exact ⟨value, rfl, (outcome ▸ ended).2⟩
  | error error => exact (outcome ▸ ended).2.elim

theorem Ensures.stopAfter (ensured : program.Ensures device always good bad directory)
    (steps : Nat) : always (program.stopAfter steps directory) := by
  induction program generalizing directory steps with
  | done outcome =>
    simp only [Program.stopAfter]
    exact ensured.atStart
  | call request next ih =>
    cases steps with
    | zero => exact ensured.1
    | succ steps => exact ih _ (ensured.2 .none (.inl rfl)) steps

theorem Reads.run {result : Except ε α} (looks : program.Reads directory result) :
    (program.run [] directory).outcome = result := by
  induction program with
  | done outcome => exact looks
  | call request next ih =>
    have same := ih _ looks.2
    simpa [Program.run, Directory.serve, observes_perform looks.1] using same

section Counting

variable {counted : Request → Bool} {limit more : Nat}

section

variable (bounded : program.MakesAtMost counted limit)
include bounded

theorem MakesAtMost.mono (le : limit ≤ more) :
    program.MakesAtMost counted more := by
  induction program generalizing limit more with
  | done outcome => exact trivial
  | call request next ih =>
    exact ⟨Nat.le_trans bounded.1 le, fun answer =>
      ih answer (bounded.2 answer) (Nat.sub_le_sub_right le _)⟩

theorem MakesAtMost.mapError (convert : ε → η) : (program.mapError convert).MakesAtMost counted limit := by
  induction program generalizing limit with
  | done outcome => exact trivial
  | call request next ih => exact ⟨bounded.1, fun answer => ih answer (bounded.2 answer)⟩

theorem MakesAtMost.attempt :
    (program.attempt : Program η (Except ε α)).MakesAtMost counted limit := by
  induction program generalizing limit with
  | done outcome => exact trivial
  | call request next ih => exact ⟨bounded.1, fun answer => ih answer (bounded.2 answer)⟩

theorem MakesAtMost.run (faults : List Fault) :
    (program.run faults directory).requests.countP counted ≤ limit := by
  induction program generalizing directory limit faults with
  | done outcome => exact Nat.zero_le _
  | call request next ih =>
    have first := bounded.1
    simp only [Program.run, List.countP_cons]
    refine Nat.le_trans (Nat.add_le_add_right (ih _ (bounded.2 _) _) _) ?_
    cases counts : counted request <;> simp [counts] at first ⊢
    omega

end

theorem MakesAtMost.bind {next : α → Program ε β} (first : program.MakesAtMost counted limit)
    (rest : ∀ value, (next value).MakesAtMost counted more) :
    (program >>= next).MakesAtMost counted (limit + more) := by
  induction program generalizing limit with
  | done outcome =>
    cases outcome with
    | ok value => exact (rest value).mono (Nat.le_add_left _ _)
    | error error => exact trivial
  | call request resume ih =>
    refine ⟨Nat.le_trans first.1 (Nat.le_add_right _ _), fun answer => ?_⟩
    have shorter := ih answer (first.2 answer)
    rw [Nat.sub_add_comm first.1]
    exact shorter

/-- A part that makes no such call leaves the whole allowance to the rest. -/
theorem MakesAtMost.after {next : α → Program ε β} (quiet : program.MakesAtMost counted 0)
    (rest : ∀ value, (next value).MakesAtMost counted limit) :
    (program >>= next).MakesAtMost counted limit :=
  Nat.zero_add limit ▸ quiet.bind rest

theorem makesAtMost_request (call : Request) : (request call).MakesAtMost counted (counted call).toNat :=
  ⟨Nat.le_refl _, fun _ => trivial⟩

end Counting

end Program

end Cast.Foundation
