import Phrasebook.Batch

/-!
# The protocol of a batch

How a batch runs its jobs at the same time. A launcher starts one worker for each job, in order, and
takes one of a fixed number of slots before it does. A worker does its job, puts the result into the
cell of the job, tells of it, gives its slot back and then leaves. The batch may be stopped at any
moment: the launcher looks whether it was while it waits for a slot, and once more when it has one. In
the end it waits until no worker is left.

The slots and the workers that have not left are counted, as the launcher and the workers see nothing
of each other but these counts.

A schedule is a list of actions. `Protocol.step` does one of them if it is possible, so the schedules
that can happen are those that `Protocol.run` carries out.
-/

namespace Phrasebook

namespace Batch

namespace Protocol

/-- What a worker is doing. -/
inductive Phase where
  /-- It does its job. -/
  | working
  /-- Its result is in the cell. -/
  | finished
  /-- It has told of its result. -/
  | reported
  /-- It has given its slot back. -/
  | released
  /-- It has left. -/
  | gone
  deriving DecidableEq, Repr

/-- Where the launcher stands. -/
inductive Launcher where
  /-- It is about to take a slot for the next job, if there is one. -/
  | choosing
  /-- It has taken a slot, and is about to look whether the batch was stopped. -/
  | holding
  /-- It has found that the batch was not stopped, and is about to start the worker. -/
  | cleared
  /-- It has found that the batch was stopped, and is about to give its slot back. -/
  | leaving (reason : Stop)
  /-- It starts no more workers, and waits for those that are left; then it gives this outcome. -/
  | waiting (outcome : Option Stop)
  /-- It is over. -/
  | returned (outcome : Option Stop)
  deriving DecidableEq, Repr

/-- What can happen next. Workers are told apart by their place in the order of starting. -/
inductive Action where
  /-- The batch is stopped from outside. -/
  | stop (reason : Stop)
  /-- The launcher takes a slot. -/
  | take
  /-- The launcher gives up instead of taking a slot. -/
  | giveUp
  /-- The launcher, having a slot, looks whether the batch was stopped. -/
  | look
  /-- The launcher starts the next worker. -/
  | start
  /-- The launcher gives its slot back. -/
  | giveBack
  /-- The launcher has started all workers. -/
  | allStarted
  /-- The launcher is over. -/
  | finish
  /-- A worker does its job. -/
  | complete (worker : Nat)
  /-- A worker tells of its result. -/
  | report (worker : Nat)
  /-- A worker gives its slot back. -/
  | release (worker : Nat)
  /-- A worker leaves. -/
  | leave (worker : Nat)
  deriving DecidableEq, Repr

/-- A moment of a batch with results of type `β`. -/
structure State (β : Type) where
  /-- Where the launcher stands. -/
  launcher : Launcher := .choosing
  /-- The job that the launcher starts next. -/
  next : Nat := 0
  /-- The workers in the order of starting, each with its job. -/
  workers : List (Nat × Phase) := []
  /-- The number of slots that are taken. -/
  taken : Nat := 0
  /-- The number of workers to wait for. -/
  pending : Nat := 0
  /-- The results, a cell for each job. -/
  cells : List β
  /-- The results that were told of, each with its job. -/
  reports : List (Nat × β) := []
  /-- Whether the batch was stopped, and why. -/
  stopped : Option Stop := none
  deriving DecidableEq, Repr

variable {α β : Type}

namespace State

/-- The job of a worker, if the worker is in this phase. -/
def jobIn? (s : State β) (phase : Phase) (worker : Nat) : Option Nat :=
  match s.workers[worker]? with
  | some (job, p) => if p = phase then some job else none
  | none => none

/-- What the batch gives, once the launcher is over: the results, unless it was stopped before all
workers were started. -/
def outcome? (s : State β) : Option (Except Stop (List β)) :=
  match s.launcher with
  | .returned none => some (.ok s.cells)
  | .returned (some reason) => some (.error reason)
  | _ => none

end State

/-- A batch of so many jobs before it begins, with the same in all its cells. -/
def start (blank : β) (jobs : Nat) : State β where
  cells := List.replicate jobs blank

/-- Does an action if it is possible, for a number of slots, what the jobs do and what they are done
to. -/
def step (slots : Nat) (job : α → β) (inputs : List α) (s : State β) : Action → Option (State β)
  | .stop reason => some { s with stopped := s.stopped <|> some reason }
  | .take =>
    if s.launcher = .choosing ∧ s.next < inputs.length ∧ s.taken < slots then
      some { s with launcher := .holding, taken := s.taken + 1 }
    else none
  | .giveUp =>
    if s.launcher = .choosing ∧ s.next < inputs.length ∧ s.stopped.isSome then
      some { s with launcher := .waiting s.stopped }
    else none
  | .look =>
    if s.launcher = .holding then
      match s.stopped with
      | none => some { s with launcher := .cleared }
      | some reason => some { s with launcher := .leaving reason }
    else none
  | .start =>
    if s.launcher = .cleared then
      some { s with
        launcher := .choosing
        next := s.next + 1
        workers := s.workers ++ [(s.next, .working)]
        pending := s.pending + 1 }
    else none
  | .giveBack =>
    match s.launcher with
    | .leaving reason =>
      if 0 < s.taken then
        some { s with launcher := .waiting (some reason), taken := s.taken - 1 }
      else none
    | _ => none
  | .allStarted =>
    if s.launcher = .choosing ∧ s.next = inputs.length then
      some { s with launcher := .waiting none }
    else none
  | .finish =>
    match s.launcher with
    | .waiting outcome =>
      if s.pending = 0 then some { s with launcher := .returned outcome } else none
    | _ => none
  | .complete k => do
    let i ← s.jobIn? .working k
    let input ← inputs[i]?
    some { s with workers := s.workers.set k (i, .finished), cells := s.cells.set i (job input) }
  | .report k => do
    let i ← s.jobIn? .finished k
    let result ← s.cells[i]?
    some { s with workers := s.workers.set k (i, .reported), reports := s.reports ++ [(i, result)] }
  | .release k => do
    let i ← s.jobIn? .reported k
    if 0 < s.taken then
      some { s with workers := s.workers.set k (i, .released), taken := s.taken - 1 }
    else none
  | .leave k => do
    let i ← s.jobIn? .released k
    if 0 < s.pending then
      some { s with workers := s.workers.set k (i, .gone), pending := s.pending - 1 }
    else none

/-- Does actions one after the other, if all are possible. -/
def run (slots : Nat) (job : α → β) (inputs : List α) (s : State β) (schedule : List Action) :
    Option (State β) :=
  schedule.foldlM (step slots job inputs) s

end Protocol

end Batch

end Phrasebook
