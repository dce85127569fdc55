import Mathlib.Algebra.GroupWithZero.Nat
import Mathlib.Data.List.Count
import Mathlib.Data.List.Nodup
import Phrasebook.Batch.Protocol

/-!
# What holds at every moment of a batch

The launcher and the workers of a batch see nothing of each other but two counts and whether the batch
was stopped.  This file relates the counts to what everyone is doing, for every schedule.

* `Protocol.Step` : what an action does, one constructor for each way it can go.
* `Protocol.Consistent` : the workers have the first jobs, one each and in order; the counts are
  those of the workers; what is in the cells of jobs that are over, and what was told of, is right; and
  the launcher stands where the batch allows it to.
* `Protocol.consistent_of_run` : **every moment of every schedule is consistent.**
* `Protocol.stopped_of_run` : a batch is stopped by the first stop of its schedule.
-/

namespace Phrasebook

namespace Batch

namespace Protocol

/-! ### Workers and the launcher -/

namespace Phase

/-- A worker in this phase holds a slot. -/
def holdsSlot : Phase → Bool
  | .working | .finished | .reported => true
  | .released | .gone => false

/-- A worker in this phase has told of its result. -/
def hasReported : Phase → Bool
  | .working | .finished => false
  | .reported | .released | .gone => true

/-- A worker in this phase has not left. -/
def isPresent (phase : Phase) : Bool :=
  phase ≠ .gone

end Phase

namespace Launcher

/-- The slots that the launcher holds itself. -/
def slots : Launcher → Nat
  | .holding | .cleared | .leaving _ => 1
  | .choosing | .waiting _ | .returned _ => 0

end Launcher

variable {α β : Type} {slots : Nat} {job : α → β} {inputs : List α} {s s' : State β} {a : Action}

theorem jobIn?_eq_some {phase : Phase} {k i : Nat} :
    s.jobIn? phase k = some i ↔ s.workers[k]? = some (i, phase) := by
  unfold State.jobIn?
  split
  · rename_i j p hk
    by_cases hp : p = phase
    · simp [hk, hp]
    · simp [hk, hp]
  · rename_i hk
    simp [hk]

/-! ### Steps -/

/-- What an action does to a moment of a batch. -/
inductive Step (slots : Nat) (job : α → β) (inputs : List α) (s : State β) :
    Action → State β → Prop where
  /-- The batch is stopped, unless it was before. -/
  | stop (reason : Stop) :
      Step slots job inputs s (.stop reason) { s with stopped := s.stopped <|> some reason }
  /-- A slot is free, and the launcher takes it. -/
  | take (hl : s.launcher = .choosing) (hnext : s.next < inputs.length) (hroom : s.taken < slots) :
      Step slots job inputs s .take { s with launcher := .holding, taken := s.taken + 1 }
  /-- The launcher finds that the batch was stopped while it waits for a slot. -/
  | giveUp {reason : Stop} (hl : s.launcher = .choosing) (hnext : s.next < inputs.length)
      (hstop : s.stopped = some reason) :
      Step slots job inputs s .giveUp { s with launcher := .waiting s.stopped }
  /-- The launcher looks and finds that the batch was not stopped. -/
  | clear (hl : s.launcher = .holding) (hstop : s.stopped = none) :
      Step slots job inputs s .look { s with launcher := .cleared }
  /-- The launcher looks and finds that the batch was stopped. -/
  | refuse {reason : Stop} (hl : s.launcher = .holding) (hstop : s.stopped = some reason) :
      Step slots job inputs s .look { s with launcher := .leaving reason }
  /-- A worker is started, which has the launcher's slot from then on. -/
  | start (hl : s.launcher = .cleared) :
      Step slots job inputs s .start { s with
        launcher := .choosing
        next := s.next + 1
        workers := s.workers ++ [(s.next, .working)]
        pending := s.pending + 1 }
  /-- The launcher gives its slot back. -/
  | giveBack {reason : Stop} (hl : s.launcher = .leaving reason) (htaken : 0 < s.taken) :
      Step slots job inputs s .giveBack
        { s with launcher := .waiting (some reason), taken := s.taken - 1 }
  /-- There is no job left to start. -/
  | allStarted (hl : s.launcher = .choosing) (hnext : s.next = inputs.length) :
      Step slots job inputs s .allStarted { s with launcher := .waiting none }
  /-- There is no worker left to wait for. -/
  | finish {outcome : Option Stop} (hl : s.launcher = .waiting outcome) (hpending : s.pending = 0) :
      Step slots job inputs s .finish { s with launcher := .returned outcome }
  /-- A worker does its job. -/
  | complete {k i : Nat} {input : α} (hk : s.workers[k]? = some (i, .working))
      (hi : inputs[i]? = some input) :
      Step slots job inputs s (.complete k)
        { s with workers := s.workers.set k (i, .finished), cells := s.cells.set i (job input) }
  /-- A worker tells of what is in the cell of its job. -/
  | report {k i : Nat} {result : β} (hk : s.workers[k]? = some (i, .finished))
      (hi : s.cells[i]? = some result) :
      Step slots job inputs s (.report k)
        { s with workers := s.workers.set k (i, .reported), reports := s.reports ++ [(i, result)] }
  /-- A worker gives its slot back. -/
  | release {k i : Nat} (hk : s.workers[k]? = some (i, .reported)) (htaken : 0 < s.taken) :
      Step slots job inputs s (.release k)
        { s with workers := s.workers.set k (i, .released), taken := s.taken - 1 }
  /-- A worker leaves. -/
  | leave {k i : Nat} (hk : s.workers[k]? = some (i, .released)) (hpending : 0 < s.pending) :
      Step slots job inputs s (.leave k)
        { s with workers := s.workers.set k (i, .gone), pending := s.pending - 1 }

/-- **What a step can do.** -/
theorem step_eq_some_iff : step slots job inputs s a = some s' ↔ Step slots job inputs s a s' := by
  constructor
  · intro h
    cases a with
    | stop reason =>
      obtain rfl := Option.some.inj h
      exact .stop reason
    | take =>
      obtain ⟨⟨hl, hnext, hroom⟩, h⟩ := Option.ite_none_right_eq_some.1 h
      obtain rfl := Option.some.inj h
      exact .take hl hnext hroom
    | giveUp =>
      obtain ⟨⟨hl, hnext, hstop⟩, h⟩ := Option.ite_none_right_eq_some.1 h
      obtain rfl := Option.some.inj h
      obtain ⟨reason, hreason⟩ := Option.isSome_iff_exists.1 hstop
      exact .giveUp hl hnext hreason
    | look =>
      obtain ⟨hl, h⟩ := Option.ite_none_right_eq_some.1 h
      split at h
      · rename_i hstop
        obtain rfl := Option.some.inj h
        exact .clear hl hstop
      · rename_i reason hstop
        obtain rfl := Option.some.inj h
        exact .refuse hl hstop
    | start =>
      obtain ⟨hl, h⟩ := Option.ite_none_right_eq_some.1 h
      obtain rfl := Option.some.inj h
      exact .start hl
    | giveBack =>
      simp only [step] at h
      split at h
      · rename_i reason hl
        obtain ⟨htaken, h⟩ := Option.ite_none_right_eq_some.1 h
        obtain rfl := Option.some.inj h
        exact .giveBack hl htaken
      · cases h
    | allStarted =>
      obtain ⟨⟨hl, hnext⟩, h⟩ := Option.ite_none_right_eq_some.1 h
      obtain rfl := Option.some.inj h
      exact .allStarted hl hnext
    | finish =>
      simp only [step] at h
      split at h
      · rename_i outcome hl
        obtain ⟨hpending, h⟩ := Option.ite_none_right_eq_some.1 h
        obtain rfl := Option.some.inj h
        exact .finish hl hpending
      · cases h
    | complete k =>
      obtain ⟨i, hk, h⟩ := Option.bind_eq_some_iff.1 h
      obtain ⟨input, hi, h⟩ := Option.bind_eq_some_iff.1 h
      obtain rfl := Option.some.inj h
      exact .complete (jobIn?_eq_some.1 hk) hi
    | report k =>
      obtain ⟨i, hk, h⟩ := Option.bind_eq_some_iff.1 h
      obtain ⟨result, hi, h⟩ := Option.bind_eq_some_iff.1 h
      obtain rfl := Option.some.inj h
      exact .report (jobIn?_eq_some.1 hk) hi
    | release k =>
      obtain ⟨i, hk, h⟩ := Option.bind_eq_some_iff.1 h
      obtain ⟨htaken, h⟩ := Option.ite_none_right_eq_some.1 h
      obtain rfl := Option.some.inj h
      exact .release (jobIn?_eq_some.1 hk) htaken
    | leave k =>
      obtain ⟨i, hk, h⟩ := Option.bind_eq_some_iff.1 h
      obtain ⟨hpending, h⟩ := Option.ite_none_right_eq_some.1 h
      obtain rfl := Option.some.inj h
      exact .leave (jobIn?_eq_some.1 hk) hpending
  · intro h
    cases h with
    | complete hk hi | report hk hi => simp [step, jobIn?_eq_some.2 hk, hi]
    | release hk hcount | leave hk hcount => simp [step, jobIn?_eq_some.2 hk, hcount]
    | _ => simp [step, *]

/-! ### Moving one worker -/

section Move

variable {workers : List (Nat × Phase)} {k i : Nat} {before after : Phase}

/-- A worker that moves on keeps its job. -/
theorem map_fst_set (hk : workers[k]? = some (i, before)) :
    (workers.set k (i, after)).map Prod.fst = workers.map Prod.fst := by
  have hi : (workers.map Prod.fst)[k]? = some i := by simp [hk]
  obtain ⟨hlt, hi⟩ := List.getElem?_eq_some_iff.1 hi
  rw [List.map_set, ← hi, List.set_getElem_self]

/-- **How a sum over the workers changes when one of them moves on.** -/
theorem sum_set (hk : workers[k]? = some (i, before)) (after : Phase) (f : Nat × Phase → Nat) :
    ((workers.set k (i, after)).map f).sum + f (i, before) =
      (workers.map f).sum + f (i, after) := by
  induction workers generalizing k with
  | nil => simp at hk
  | cons w rest ih =>
    cases k with
    | zero =>
      obtain rfl : w = (i, before) := by simpa using hk
      simp only [List.set_cons_zero, List.map_cons, List.sum_cons]
      omega
    | succ k =>
      have hrest := ih (by simpa using hk)
      simp only [List.set_cons_succ, List.map_cons, List.sum_cons]
      omega

theorem countP_eq_sum (workers : List (Nat × Phase)) (p : Nat × Phase → Bool) :
    workers.countP p = (workers.map fun w => (p w).toNat).sum := by
  induction workers with
  | nil => rfl
  | cons w rest ih =>
    rw [List.countP_cons, List.map_cons, List.sum_cons, ih, Nat.add_comm]
    cases p w <;> rfl

/-- How a count of workers changes when one of them moves on. -/
theorem countP_set (hk : workers[k]? = some (i, before)) (after : Phase) (p : Nat × Phase → Bool) :
    (workers.set k (i, after)).countP p + (p (i, before)).toNat =
      workers.countP p + (p (i, after)).toNat := by
  rw [countP_eq_sum, countP_eq_sum]
  exact sum_set hk after fun w => (p w).toNat

/-- A count does not change when it does not matter in which of the two phases a worker is. -/
theorem countP_set_of_eq (hk : workers[k]? = some (i, before)) {p : Nat × Phase → Bool}
    (hp : p (i, before) = p (i, after)) : workers.countP p = (workers.set k (i, after)).countP p := by
  have hcount := countP_set hk after p
  rw [hp] at hcount
  exact (Nat.add_right_cancel hcount).symm

end Move

/-! ### What steps preserve -/

/-- The workers have the first jobs, one each and in order. -/
theorem Step.jobs (h : Step slots job inputs s a s')
    (hs : s.workers.map Prod.fst = List.range s.next) :
    s'.workers.map Prod.fst = List.range s'.next := by
  cases h with
  | start =>
    show (s.workers ++ [(s.next, Phase.working)]).map Prod.fst = List.range (s.next + 1)
    rw [List.map_append, hs, List.range_succ, List.map_singleton]
  | complete hk | report hk | release hk | leave hk => exact (map_fst_set hk).trans hs
  | _ => exact hs

/-- The slots that are taken are those of the workers and that of the launcher. -/
theorem Step.taken (h : Step slots job inputs s a s')
    (hs : s.taken = s.workers.countP (·.2.holdsSlot) + s.launcher.slots) :
    s'.taken = s'.workers.countP (·.2.holdsSlot) + s'.launcher.slots := by
  cases h with
  | start hl => simp [hs, hl, Launcher.slots, Phase.holdsSlot]
  | complete hk | report hk | leave hk =>
    exact hs.trans (congrArg (· + s.launcher.slots) (countP_set_of_eq hk rfl))
  | release hk =>
    have hcount : _ + 1 = _ + 0 := countP_set hk .released (·.2.holdsSlot)
    show s.taken - 1 = (s.workers.set _ _).countP _ + s.launcher.slots
    omega
  | stop => exact hs
  | take hl | giveUp hl | clear hl | refuse hl | giveBack hl | allStarted hl | finish hl =>
    simp [hs, hl, Launcher.slots]

/-- No more slots are taken than there are. -/
theorem Step.taken_le (h : Step slots job inputs s a s') (hs : s.taken ≤ slots) :
    s'.taken ≤ slots := by
  cases h with
  | take _ _ hroom => exact hroom
  | giveBack | release => exact Nat.le_trans (Nat.sub_le _ _) hs
  | _ => exact hs

/-- As many workers are waited for as have not left. -/
theorem Step.pending (h : Step slots job inputs s a s')
    (hs : s.pending = s.workers.countP (·.2.isPresent)) :
    s'.pending = s'.workers.countP (·.2.isPresent) := by
  cases h with
  | start => simp [hs, Phase.isPresent]
  | complete hk | report hk | release hk => exact hs.trans (countP_set_of_eq hk rfl)
  | leave hk =>
    have hcount : _ + 1 = _ + 0 := countP_set hk .gone (·.2.isPresent)
    show s.pending - 1 = (s.workers.set _ _).countP _
    omega
  | _ => exact hs

/-- What is in the cells of the jobs that are over is what these jobs give. -/
theorem Step.results (h : Step slots job inputs s a s') (hlength : s.cells.length = inputs.length)
    (hs : ∀ w ∈ s.workers, w.2 ≠ .working → s.cells[w.1]? = inputs[w.1]?.map job) :
    ∀ w ∈ s'.workers, w.2 ≠ .working → s'.cells[w.1]? = inputs[w.1]?.map job := by
  cases h with
  | start =>
    intro w hw hphase
    rcases List.mem_append.1 hw with hw | hw
    · exact hs w hw hphase
    · obtain rfl := List.mem_singleton.1 hw
      exact absurd rfl hphase
  | @complete k i input hk hi =>
    intro w hw hphase
    show (s.cells.set i (job input))[w.1]? = inputs[w.1]?.map job
    by_cases hwi : i = w.1
    · -- the cell was just written
      subst hwi
      have hlt : w.1 < s.cells.length := hlength ▸ (List.getElem?_eq_some_iff.1 hi).1
      rw [List.getElem?_set_self hlt, hi, Option.map_some]
    · rw [List.getElem?_set_ne hwi]
      rcases List.mem_or_eq_of_mem_set hw with hw | rfl
      · exact hs w hw hphase
      · exact absurd rfl hwi
  | report hk | release hk | leave hk =>
    intro w hw hphase
    rcases List.mem_or_eq_of_mem_set hw with hw | rfl
    · exact hs w hw hphase
    · have hold := hs _ (List.mem_of_getElem? hk) nofun
      exact hold
  | _ => exact hs

theorem Step.length_cells (h : Step slots job inputs s a s')
    (hs : s.cells.length = inputs.length) : s'.cells.length = inputs.length := by
  cases h with
  | complete => exact List.length_set.trans hs
  | _ => exact hs

/-- Each worker that is past telling of its result has told of it once. -/
theorem Step.reports (h : Step slots job inputs s a s') (i : Nat)
    (hs : (s.reports.map Prod.fst).count i =
      s.workers.countP fun w => w.1 == i && w.2.hasReported) :
    (s'.reports.map Prod.fst).count i =
      s'.workers.countP fun w => w.1 == i && w.2.hasReported := by
  cases h with
  | start => simp [hs, Phase.hasReported]
  | complete hk | release hk | leave hk => exact hs.trans (countP_set_of_eq hk rfl)
  | @report k j result hk =>
    have hcount : _ + ((j == i) && false).toNat = _ + ((j == i) && true).toNat :=
      countP_set hk .reported fun w => w.1 == i && w.2.hasReported
    show ((s.reports ++ [(j, result)]).map Prod.fst).count i = _
    rw [List.map_append, List.count_append, hs, List.map_singleton, List.count_singleton]
    cases hij : j == i <;> simp_all
  | _ => exact hs

/-- What is told of a job is what it gives. -/
theorem Step.reported (h : Step slots job inputs s a s')
    (hresults : ∀ w ∈ s.workers, w.2 ≠ .working → s.cells[w.1]? = inputs[w.1]?.map job)
    (hs : ∀ r ∈ s.reports, inputs[r.1]?.map job = some r.2) :
    ∀ r ∈ s'.reports, inputs[r.1]?.map job = some r.2 := by
  cases h with
  | report hk hi =>
    intro r hr
    rcases List.mem_append.1 hr with hr | hr
    · exact hs r hr
    · obtain rfl := List.mem_singleton.1 hr
      exact (hresults _ (List.mem_of_getElem? hk) nofun).symm.trans hi
  | _ => exact hs

/-- The launcher stands where the batch allows it to: it has a job to start when it holds a slot or
has given up, it has none when it has started all, the batch was stopped when it gives up, and nobody
is left when it is over. -/
def LauncherRight (inputs : List α) (s : State β) : Prop :=
  match s.launcher with
  | .choosing => True
  | .holding | .cleared => s.next < inputs.length
  | .leaving reason | .waiting (some reason) => s.next < inputs.length ∧ s.stopped = some reason
  | .waiting none => s.next = inputs.length
  | .returned none => s.next = inputs.length ∧ s.pending = 0
  | .returned (some reason) =>
    s.next < inputs.length ∧ s.stopped = some reason ∧ s.pending = 0

theorem Step.launcherRight (h : Step slots job inputs s a s') (hs : LauncherRight inputs s) :
    LauncherRight inputs s' := by
  cases h with
  | stop reason =>
    -- a batch that was stopped before keeps its reason
    unfold LauncherRight at hs ⊢
    split at hs <;> simp_all
  | take _ hnext => exact hnext
  | giveUp _ hnext hstop =>
    simpa only [LauncherRight, hstop, and_true] using hnext
  | clear hl =>
    simp only [LauncherRight, hl] at hs
    exact hs
  | refuse hl hstop =>
    simp only [LauncherRight, hl] at hs
    exact ⟨hs, hstop⟩
  | start => trivial
  | giveBack hl =>
    simp only [LauncherRight, hl] at hs
    exact hs
  | allStarted _ hnext => exact hnext
  | @finish outcome hl hpending =>
    simp only [LauncherRight, hl] at hs
    cases outcome with
    | none => exact ⟨hs, hpending⟩
    | some reason => exact ⟨hs.1, hs.2, hpending⟩
  | leave hk hpending =>
    -- the launcher is not over while a worker has not left
    unfold LauncherRight at hs ⊢
    split at hs <;> simp_all
  | complete | report | release => exact hs

/-! ### Every moment of a schedule -/

/-- What holds at every moment of a batch. -/
structure Consistent (slots : Nat) (job : α → β) (inputs : List α) (s : State β) : Prop where
  /-- The workers have the first jobs, one each and in order. -/
  jobs : s.workers.map Prod.fst = List.range s.next
  /-- There are no more workers than jobs. -/
  next_le : s.next ≤ inputs.length
  /-- The slots that are taken are those of the workers and that of the launcher. -/
  taken : s.taken = s.workers.countP (·.2.holdsSlot) + s.launcher.slots
  /-- No more slots are taken than there are. -/
  taken_le : s.taken ≤ slots
  /-- As many workers are waited for as have not left. -/
  pending : s.pending = s.workers.countP (·.2.isPresent)
  /-- Each job has a cell. -/
  length_cells : s.cells.length = inputs.length
  /-- What is in the cells of the jobs that are over is what these jobs give. -/
  results : ∀ w ∈ s.workers, w.2 ≠ .working → s.cells[w.1]? = inputs[w.1]?.map job
  /-- Each worker that is past telling of its result has told of it once. -/
  reports : ∀ i, (s.reports.map Prod.fst).count i =
    s.workers.countP fun w => w.1 == i && w.2.hasReported
  /-- What is told of a job is what it gives. -/
  reported : ∀ r ∈ s.reports, inputs[r.1]?.map job = some r.2
  /-- The launcher stands where the batch allows it to. -/
  launcher : LauncherRight inputs s

theorem consistent_start (slots : Nat) (job : α → β) (inputs : List α) (blank : β) :
    Consistent slots job inputs (start blank inputs.length) where
  jobs := rfl
  next_le := Nat.zero_le _
  taken := rfl
  taken_le := Nat.zero_le _
  pending := rfl
  length_cells := List.length_replicate
  results := nofun
  reports := fun _ => rfl
  reported := nofun
  launcher := trivial

theorem Step.next_le (h : Step slots job inputs s a s') (hs : LauncherRight inputs s)
    (hnext : s.next ≤ inputs.length) : s'.next ≤ inputs.length := by
  cases h with
  | start hl =>
    simp only [LauncherRight, hl] at hs
    exact hs
  | _ => exact hnext

/-- **What a step preserves.** -/
theorem Consistent.step (h : Consistent slots job inputs s) (hstep : Step slots job inputs s a s') :
    Consistent slots job inputs s' where
  jobs := hstep.jobs h.jobs
  next_le := hstep.next_le h.launcher h.next_le
  taken := hstep.taken h.taken
  taken_le := hstep.taken_le h.taken_le
  pending := hstep.pending h.pending
  length_cells := hstep.length_cells h.length_cells
  results := hstep.results h.length_cells h.results
  reports i := hstep.reports i (h.reports i)
  reported := hstep.reported h.results h.reported
  launcher := hstep.launcherRight h.launcher

/-- What steps preserve holds after a schedule when it held before. -/
theorem run_induction {P : State β → Prop}
    (hstep : ∀ {s a s'}, P s → Step slots job inputs s a s' → P s') {schedule : List Action}
    (hrun : run slots job inputs s schedule = some s') (hs : P s) : P s' := by
  induction schedule generalizing s with
  | nil => exact Option.some.inj hrun ▸ hs
  | cons a rest ih =>
    obtain ⟨s₁, h₁, hrun⟩ := Option.bind_eq_some_iff.1 hrun
    exact ih hrun (hstep hs (step_eq_some_iff.1 h₁))

/-- **Every moment of every schedule is consistent.** -/
theorem consistent_of_run {blank : β} {schedule : List Action}
    (hrun : run slots job inputs (start blank inputs.length) schedule = some s) :
    Consistent slots job inputs s :=
  run_induction Consistent.step hrun (consistent_start slots job inputs blank)

/-! ### Schedules -/

theorem run_append (schedule rest : List Action) :
    run slots job inputs s (schedule ++ rest) =
      (run slots job inputs s schedule).bind fun s => run slots job inputs s rest :=
  List.foldlM_append

/-- The reason of an action that stops the batch. -/
def Action.stop? : Action → Option Stop
  | .stop reason => some reason
  | _ => none

theorem stop_mem_of_findSome? {schedule : List Action} {reason : Stop}
    (h : schedule.findSome? Action.stop? = some reason) : .stop reason ∈ schedule := by
  obtain ⟨a, ha, hreason⟩ := List.exists_of_findSome?_eq_some h
  cases a <;> cases hreason
  exact ha

theorem Step.stopped (h : Step slots job inputs s a s') : s'.stopped = s.stopped.or a.stop? := by
  cases h with
  | stop reason =>
    show (s.stopped <|> some reason) = s.stopped.or (some reason)
    cases s.stopped <;> rfl
  | _ => exact Option.or_none.symm

/-- **A batch is stopped by the first stop of its schedule.** -/
theorem stopped_of_run {schedule : List Action} (hrun : run slots job inputs s schedule = some s') :
    s'.stopped = s.stopped.or (schedule.findSome? Action.stop?) := by
  induction schedule generalizing s with
  | nil =>
    obtain rfl := Option.some.inj hrun
    exact Option.or_none.symm
  | cons a rest ih =>
    obtain ⟨s₁, h₁, hrun⟩ := Option.bind_eq_some_iff.1 hrun
    rw [ih hrun, (step_eq_some_iff.1 h₁).stopped, Option.or_assoc, List.findSome?_cons]
    cases a.stop? <;> rfl

end Protocol

end Batch

end Phrasebook
