import Mathlib.Data.List.Perm.Basic
import Phrasebook.Book.Check
import Phrasebook.Proofs.Batch.Invariant

/-!
# What comes out of a batch

Whatever the schedule, a batch gives what its jobs give one after the other, or else the reason for
which it was stopped, and when it gives either nobody is at work any more.

* `Protocol.cells_eq_of_returned` : in the end the cells hold what the jobs give.
* `Protocol.reports_perm` : and each job was told of once.
* `Protocol.StoppedEarly` : a batch that is stopped while there is a job left to start gives no
  results; one that is stopped later gives them.
* `Protocol.exists_step` : **the launcher and the workers never wait for each other in vain**, and
  `Protocol.length_le` : there is only so much to do.
* `Protocol.Safe` : all of this together.
* `Book.batches_safe` : **whatever the schedule, parsing many inputs and running many cases gives what
  the inputs and the cases give one after the other.**
-/

namespace Phrasebook

namespace Batch

namespace Protocol

variable {α β : Type} {slots : Nat} {job : α → β} {inputs : List α} {s s' : State β} {a : Action}
  {schedule : List Action}

/-! ### When the launcher is over -/

theorem outcome?_eq_ok {results : List β} :
    s.outcome? = some (.ok results) ↔ s.launcher = .returned none ∧ s.cells = results := by
  unfold State.outcome?
  split <;> simp_all

theorem outcome?_eq_error {reason : Stop} :
    s.outcome? = some (.error reason) ↔ s.launcher = .returned (some reason) := by
  unfold State.outcome?
  split <;> simp_all

theorem ne_returned_of_outcome? (h : s.outcome? = none) (outcome : Option Stop) :
    s.launcher ≠ .returned outcome := by
  intro hl
  simp only [State.outcome?, hl] at h
  cases outcome <;> cases h

namespace Consistent

variable (h : Consistent slots job inputs s)

include h

/-- Where nobody is waited for, everyone has left. -/
theorem gone_of_pending (hpending : s.pending = 0) : ∀ w ∈ s.workers, w.2 = .gone := by
  have hnone := List.countP_eq_zero.1 (h.pending.symm.trans hpending)
  intro w hw
  by_contra hphase
  exact hnone w hw (by simpa [Phase.isPresent] using hphase)

theorem pending_of_returned {outcome : Option Stop} (hl : s.launcher = .returned outcome) :
    s.pending = 0 := by
  have hright := h.launcher
  cases outcome with
  | none =>
    simp only [LauncherRight, hl] at hright
    exact hright.2
  | some reason =>
    simp only [LauncherRight, hl] at hright
    exact hright.2.2

theorem next_of_returned (hl : s.launcher = .returned none) : s.next = inputs.length := by
  have hright := h.launcher
  simp only [LauncherRight, hl] at hright
  exact hright.1

/-- **In the end the cells hold what the jobs give.** -/
theorem cells_eq_of_returned (hl : s.launcher = .returned none) : s.cells = inputs.map job := by
  have hgone := h.gone_of_pending (h.pending_of_returned hl)
  refine List.ext_getElem? fun i => ?_
  rw [List.getElem?_map]
  by_cases hi : i < inputs.length
  · -- some worker had this job, and it has left
    have hmem : i ∈ s.workers.map Prod.fst := by
      rw [h.jobs, h.next_of_returned hl]
      exact List.mem_range.2 hi
    obtain ⟨w, hw, rfl⟩ := List.mem_map.1 hmem
    exact h.results w hw (hgone w hw ▸ nofun)
  · have hlength := h.length_cells
    rw [List.getElem?_eq_none (by omega), List.getElem?_eq_none (by omega), Option.map_none]

/-! ### Telling of results -/

/-- As many workers have told of a job as there are workers with it, and that is at most one. -/
theorem count_reports_le (i : Nat) :
    (s.reports.map Prod.fst).count i ≤ (List.range s.next).count i := by
  rw [h.reports i, ← h.jobs, List.count, List.countP_map]
  refine List.countP_mono_left fun w _ hw => ?_
  exact (Bool.and_eq_true _ _ ▸ hw).1

/-- **No job is told of twice.** -/
theorem nodup_reports : (s.reports.map Prod.fst).Nodup :=
  List.nodup_iff_count_le_one.2 fun i =>
    Nat.le_trans (h.count_reports_le i) (List.nodup_iff_count_le_one.1 List.nodup_range i)

/-- In the end all jobs were told of. -/
theorem map_fst_reports_perm (hl : s.launcher = .returned none) :
    (s.reports.map Prod.fst).Perm (List.range inputs.length) := by
  have hgone := h.gone_of_pending (h.pending_of_returned hl)
  refine List.perm_iff_count.2 fun i => ?_
  rw [h.reports i, ← h.next_of_returned hl, ← h.jobs, List.count, List.countP_map]
  refine List.countP_congr fun w hw => ?_
  simp [hgone w hw, Phase.hasReported]

end Consistent

/-- Results with their jobs are known by the jobs. -/
theorem eq_filterMap_of_reported {reports : List (Nat × β)}
    (h : ∀ r ∈ reports, inputs[r.1]?.map job = some r.2) :
    reports = (reports.map Prod.fst).filterMap fun i => inputs[i]?.map fun input => (i, job input) := by
  induction reports with
  | nil => rfl
  | cons r rest ih =>
    obtain ⟨hr, hrest⟩ := List.forall_mem_cons.1 h
    obtain ⟨input, hi, hjob⟩ := Option.map_eq_some_iff.1 hr
    have hcell : inputs[r.1]?.map (fun input => (r.1, job input)) = some r := by
      rw [hi, Option.map_some, hjob]
    rw [List.map_cons, List.filterMap_cons, hcell]
    exact congrArg (r :: ·) (ih hrest)

/-- **In the end each job was told of once**, with what it gives. -/
theorem Consistent.reports_perm (h : Consistent slots job inputs s)
    (hl : s.launcher = .returned none) :
    s.reports.Perm (inputs.zipIdx.map fun p => (p.2, job p.1)) := by
  have hall : ∀ r ∈ inputs.zipIdx.map (fun p => (p.2, job p.1)), inputs[r.1]?.map job = some r.2 := by
    intro r hr
    obtain ⟨⟨input, i⟩, hp, rfl⟩ := List.mem_map.1 hr
    rw [List.mem_zipIdx_iff_getElem?.1 hp, Option.map_some]
  have hfst : (inputs.zipIdx.map fun p => (p.2, job p.1)).map Prod.fst = List.range inputs.length := by
    rw [List.map_map, List.range_eq_range', ← List.zipIdx_map_snd 0 inputs]
    rfl
  rw [eq_filterMap_of_reported h.reported, eq_filterMap_of_reported hall, hfst]
  exact (h.map_fst_reports_perm hl).filterMap _

/-! ### Stopping early -/

/-- The batch was stopped while there was a job that the launcher had not been cleared to start.  A
stop that comes after it was cleared for the last job is not early: all jobs are then carried out
and their results are given. -/
def StoppedEarly (inputs : List α) (s : State β) : Prop :=
  s.stopped.isSome ∧ s.next + (if s.launcher = .cleared then 1 else 0) < inputs.length

/-- A batch that was stopped early remains so: the launcher starts at most the one worker that it had
been cleared to start. -/
theorem StoppedEarly.step (h : StoppedEarly inputs s) (hstep : Step slots job inputs s a s') :
    StoppedEarly inputs s' := by
  obtain ⟨hstop, hnext⟩ := h
  cases hstep with
  | stop reason =>
    refine ⟨?_, hnext⟩
    obtain ⟨former, hformer⟩ := Option.isSome_iff_exists.1 hstop
    simp [hformer]
  | clear _ hnone => simp [hnone] at hstop
  | start hl =>
    simp only [hl, if_true] at hnext
    exact ⟨hstop, by simpa using hnext⟩
  | take hl | giveUp hl | refuse hl | giveBack hl | allStarted hl | finish hl =>
    simp only [hl, reduceCtorEq, if_false] at hnext
    exact ⟨hstop, by simpa using hnext⟩
  | complete | report | release | leave => exact ⟨hstop, hnext⟩

/-- **A batch that was stopped early gives no results.** -/
theorem StoppedEarly.outcome?_ne_ok (h : StoppedEarly inputs s)
    (hs : Consistent slots job inputs s) (results : List β) : s.outcome? ≠ some (.ok results) := by
  intro hok
  obtain ⟨hl, -⟩ := outcome?_eq_ok.1 hok
  have hnext := hs.next_of_returned hl
  have hlt := h.2
  omega

/-! ### Progress -/

/-- A worker that has not left can go on. -/
theorem Consistent.exists_step_of_present (h : Consistent slots job inputs s) {w : Nat × Phase}
    (hw : w ∈ s.workers) (hpresent : w.2 ≠ .gone) :
    ∃ a s', a.stop? = none ∧ Step slots job inputs s a s' := by
  obtain ⟨k, hk⟩ := List.mem_iff_getElem?.1 hw
  obtain ⟨i, phase⟩ := w
  have hi : i < inputs.length := by
    have hmem : i ∈ List.range s.next := h.jobs ▸ List.mem_map_of_mem hw
    exact Nat.lt_of_lt_of_le (List.mem_range.1 hmem) h.next_le
  cases phase with
  | working => exact ⟨_, _, rfl, .complete hk (List.getElem?_eq_getElem hi)⟩
  | finished =>
    have hcell : i < s.cells.length := h.length_cells ▸ hi
    exact ⟨_, _, rfl, .report hk (List.getElem?_eq_getElem hcell)⟩
  | reported =>
    have hcount : 0 < s.workers.countP (·.2.holdsSlot) := List.countP_pos_iff.2 ⟨_, hw, rfl⟩
    exact ⟨_, _, rfl, .release hk (by rw [h.taken]; omega)⟩
  | released =>
    have hcount : 0 < s.workers.countP (·.2.isPresent) := List.countP_pos_iff.2 ⟨_, hw, rfl⟩
    exact ⟨_, _, rfl, .leave hk (h.pending ▸ hcount)⟩
  | gone => exact absurd rfl hpresent

/-- **The launcher and the workers never wait for each other in vain:** as long as the batch has not
given its outcome someone can go on. -/
theorem Consistent.exists_step (hslots : 0 < slots) (h : Consistent slots job inputs s)
    (hout : s.outcome? = none) : ∃ a s', a.stop? = none ∧ Step slots job inputs s a s' := by
  cases hl : s.launcher with
  | choosing =>
    by_cases hnext : s.next = inputs.length
    · exact ⟨_, _, rfl, .allStarted hl hnext⟩
    · have hlt := Nat.lt_of_le_of_ne h.next_le hnext
      by_cases hroom : s.taken < slots
      · exact ⟨_, _, rfl, .take hl hlt hroom⟩
      · -- all slots are taken, and the launcher has none of them
        have htaken := h.taken
        rw [hl] at htaken
        have hcount : 0 < s.workers.countP (·.2.holdsSlot) := by
          simp only [Launcher.slots] at htaken
          omega
        obtain ⟨w, hw, hholds⟩ := List.countP_pos_iff.1 hcount
        refine h.exists_step_of_present hw fun hgone => ?_
        simp [hgone, Phase.holdsSlot] at hholds
  | holding =>
    cases hstop : s.stopped with
    | none => exact ⟨_, _, rfl, .clear hl hstop⟩
    | some reason => exact ⟨_, _, rfl, .refuse hl hstop⟩
  | cleared => exact ⟨_, _, rfl, .start hl⟩
  | leaving reason =>
    have htaken := h.taken
    rw [hl] at htaken
    exact ⟨_, _, rfl, .giveBack hl (by rw [htaken]; exact Nat.succ_pos _)⟩
  | waiting outcome =>
    by_cases hpending : s.pending = 0
    · exact ⟨_, _, rfl, .finish hl hpending⟩
    · rw [h.pending] at hpending
      obtain ⟨w, hw, hpresent⟩ := List.countP_pos_iff.1 (Nat.pos_of_ne_zero hpending)
      refine h.exists_step_of_present hw fun hgone => ?_
      simp [hgone, Phase.isPresent] at hpresent
  | returned outcome => exact absurd hl (ne_returned_of_outcome? hout outcome)

/-! ### How much there is to do -/

/-- The steps that a worker in this phase has yet to take. -/
def Phase.toGo : Phase → Nat
  | .working => 4
  | .finished => 3
  | .reported => 2
  | .released => 1
  | .gone => 0

/-- The steps that the launcher and the workers it has yet to start take at most, when it has so many
jobs left: for each job three of its own and four of the worker. -/
def Launcher.toGo (left : Nat) : Launcher → Nat
  | .choosing => 7 * left + 2
  | .holding => 7 * left + 1
  | .cleared => 7 * left
  | .leaving _ => 2
  | .waiting _ => 1
  | .returned _ => 0

/-- The steps that are taken at most until the batch gives its outcome. -/
def State.toGo (inputs : List α) (s : State β) : Nat :=
  s.launcher.toGo (inputs.length - s.next) + (s.workers.map fun w => w.2.toGo).sum

/-- Each step but stopping brings the batch nearer to its outcome. -/
theorem Step.toGo_lt (hstep : Step slots job inputs s a s') (hs : LauncherRight inputs s)
    (ha : a.stop? = none) : s'.toGo inputs < s.toGo inputs := by
  cases hstep with
  | stop => cases ha
  | take hl | allStarted hl | finish hl =>
    simp only [State.toGo, hl, Launcher.toGo]
    omega
  | giveUp hl | giveBack hl | clear hl =>
    simp only [State.toGo, hl, Launcher.toGo]
    omega
  | refuse hl =>
    simp only [LauncherRight, hl] at hs
    simp only [State.toGo, hl, Launcher.toGo]
    omega
  | start hl =>
    simp only [LauncherRight, hl] at hs
    simp only [State.toGo, hl, Launcher.toGo, List.map_append, List.sum_append, List.map_singleton,
      List.sum_singleton, Phase.toGo]
    omega
  | complete hk =>
    have hsum : _ + 4 = _ + 3 := sum_set hk .finished fun w => w.2.toGo
    simp only [State.toGo]
    omega
  | report hk =>
    have hsum : _ + 3 = _ + 2 := sum_set hk .reported fun w => w.2.toGo
    simp only [State.toGo]
    omega
  | release hk =>
    have hsum : _ + 2 = _ + 1 := sum_set hk .released fun w => w.2.toGo
    simp only [State.toGo]
    omega
  | leave hk =>
    have hsum : _ + 1 = _ + 0 := sum_set hk .gone fun w => w.2.toGo
    simp only [State.toGo]
    omega

theorem toGo_start (blank : β) (inputs : List α) :
    (start blank inputs.length).toGo inputs = 7 * inputs.length + 2 :=
  rfl

/-- Stopping does not put the outcome further away. -/
theorem Step.toGo_le (hstep : Step slots job inputs s a s') (hs : LauncherRight inputs s) :
    s'.toGo inputs + (if a.stop? = none then 1 else 0) ≤ s.toGo inputs := by
  split_ifs with ha
  · exact hstep.toGo_lt hs ha
  · cases hstep with
    | stop => exact Nat.le_refl _
    | _ => exact absurd rfl ha

/-- **There is only so much to do:** a schedule that leads from one moment to another has at most as
many actions besides stops as are needed less at the second. -/
theorem Consistent.length_le (hs : Consistent slots job inputs s)
    (hrun : run slots job inputs s schedule = some s') :
    s'.toGo inputs + schedule.countP (fun a => a.stop? = none) ≤ s.toGo inputs := by
  induction schedule generalizing s with
  | nil => exact Option.some.inj hrun ▸ Nat.le_refl _
  | cons a rest ih =>
    obtain ⟨s₁, h₁, hrun⟩ := Option.bind_eq_some_iff.1 hrun
    have hstep := step_eq_some_iff.1 h₁
    have hle := hstep.toGo_le hs.launcher
    have hrest := ih (hs.step hstep) hrun
    simp only [List.countP_cons, decide_eq_true_eq]
    omega

/-- **A batch can always be brought to its outcome**, without stopping it. -/
theorem Consistent.exists_outcome (hslots : 0 < slots) (hs : Consistent slots job inputs s) :
    ∃ rest s', run slots job inputs s rest = some s' ∧ (∀ a ∈ rest, a.stop? = none) ∧
      s'.outcome?.isSome := by
  induction hn : s.toGo inputs using Nat.strongRecOn generalizing s with
  | _ n ih =>
    cases hout : s.outcome? with
    | some outcome => exact ⟨[], s, rfl, nofun, by simp [hout]⟩
    | none =>
      obtain ⟨a, s₁, ha, hstep⟩ := hs.exists_step hslots hout
      have hlt := hstep.toGo_lt hs.launcher ha
      obtain ⟨rest, s', hrun, hrest, hsome⟩ := ih _ (hn ▸ hlt) (hs.step hstep) rfl
      exact ⟨a :: rest, s', Option.bind_eq_some_iff.2 ⟨s₁, step_eq_some_iff.2 hstep, hrun⟩,
        List.forall_mem_cons.2 ⟨ha, hrest⟩, hsome⟩

/-! ### What can be relied on -/

/-- What can be relied on at the moment that a schedule has led to. -/
structure Safe (slots : Nat) (job : α → β) (inputs : List α) (blank : β) (schedule : List Action)
    (s : State β) : Prop where
  /-- Workers were started for the first jobs, one for each and in order. -/
  started : ∃ k ≤ inputs.length, s.workers.map Prod.fst = List.range k
  /-- No more workers are at work than there are slots. -/
  active : s.workers.countP (·.2.holdsSlot) ≤ slots
  /-- No job was told of twice, and what was told of a job is what it gives. -/
  reported : (s.reports.map Prod.fst).Nodup ∧ ∀ r ∈ s.reports, inputs[r.1]?.map job = some r.2
  /-- When the batch gives its outcome, every worker has left. -/
  gone : s.outcome?.isSome → ∀ w ∈ s.workers, w.2 = .gone
  /-- It gives results only if there was a worker for each job, and the results are what the jobs give,
  of which each was told once. -/
  results : ∀ results, s.outcome? = some (.ok results) →
    s.workers.map Prod.fst = List.range inputs.length ∧ results = inputs.map job ∧
      s.reports.Perm (inputs.zipIdx.map fun p => (p.2, job p.1))
  /-- It gives a reason instead only if that is the one for which it was stopped first, and if there
  was something to stop. -/
  error : ∀ reason, s.outcome? = some (.error reason) →
    schedule.findSome? Action.stop? = some reason ∧ inputs ≠ []
  /-- It does not give results if it was stopped early. -/
  early : ∀ before after s₀, schedule = before ++ after →
    run slots job inputs (start blank inputs.length) before = some s₀ → StoppedEarly inputs s₀ →
      ∀ results, s.outcome? ≠ some (.ok results)
  /-- Someone can go on as long as it has not given its outcome. -/
  progress : s.outcome? = none → ∃ a, a.stop? = none ∧ (step slots job inputs s a).isSome
  /-- There is only so much to do. -/
  bounded : schedule.countP (fun a => a.stop? = none) ≤ 7 * inputs.length + 2

/-- **A batch is safe under every schedule.** -/
theorem safe_of_run (hslots : 0 < slots) {blank : β}
    (hrun : run slots job inputs (start blank inputs.length) schedule = some s) :
    Safe slots job inputs blank schedule s := by
  have h := consistent_of_run hrun
  constructor
  · exact ⟨s.next, h.next_le, h.jobs⟩
  · have htaken := h.taken
    have hle := h.taken_le
    omega
  · exact ⟨h.nodup_reports, h.reported⟩
  · intro hsome
    obtain ⟨outcome, houtcome⟩ := Option.isSome_iff_exists.1 hsome
    cases outcome with
    | ok results =>
      exact h.gone_of_pending (h.pending_of_returned (outcome?_eq_ok.1 houtcome).1)
    | error reason =>
      exact h.gone_of_pending (h.pending_of_returned (outcome?_eq_error.1 houtcome))
  · intro results hresults
    obtain ⟨hl, rfl⟩ := outcome?_eq_ok.1 hresults
    exact ⟨h.next_of_returned hl ▸ h.jobs, h.cells_eq_of_returned hl, h.reports_perm hl⟩
  · intro reason hreason
    have hright := h.launcher
    simp only [LauncherRight, outcome?_eq_error.1 hreason] at hright
    obtain ⟨hnext, hstop, -⟩ := hright
    rw [stopped_of_run hrun] at hstop
    refine ⟨hstop, ?_⟩
    rintro rfl
    exact Nat.not_lt_zero _ hnext
  · rintro before after s₀ rfl hbefore hearly
    rw [run_append, hbefore] at hrun
    have hearly' : StoppedEarly inputs s := run_induction StoppedEarly.step hrun hearly
    exact hearly'.outcome?_ne_ok h
  · intro hout
    obtain ⟨a, s', ha, hstep⟩ := h.exists_step hslots hout
    exact ⟨a, ha, Option.isSome_iff_exists.2 ⟨s', step_eq_some_iff.2 hstep⟩⟩
  · have hle := (consistent_start slots job inputs blank).length_le hrun
    rw [toGo_start] at hle
    omega

/-- **What a batch gives is what its jobs give one after the other**, or the reason for which it was
stopped first. -/
theorem Safe.outcome {blank : β} (h : Safe slots job inputs blank schedule s)
    {outcome : Except Stop (List β)} (houtcome : s.outcome? = some outcome) :
    outcome = Batch.run none job inputs ∨
      ∃ reason, schedule.findSome? Action.stop? = some reason ∧ outcome = .error reason ∧
        outcome = Batch.run (some reason) job inputs := by
  cases outcome with
  | ok results =>
    obtain ⟨-, rfl, -⟩ := h.results results houtcome
    exact .inl rfl
  | error reason =>
    obtain ⟨hstop, hinputs⟩ := h.error reason houtcome
    obtain ⟨input, rest, rfl⟩ := List.exists_cons_of_ne_nil hinputs
    exact .inr ⟨reason, hstop, rfl, rfl⟩

end Protocol

end Batch

namespace Book

open Batch Batch.Protocol

/-- **Whatever the schedule, batches are safe**, and parsing many inputs and running many cases gives
what the inputs and the cases give one after the other, or else the reason for which the batch was
stopped.  Each case is told of once where there are results.  A stop does away with the results only
if it comes before the launcher was cleared for the last job; after that the outcome is the results,
all of them, and the stop is not told. -/
theorem batches_safe (slots : Nat) (hslots : 0 < slots) :
    (∀ (α β : Type) (job : α → β) (blank : β) (inputs : List α) (schedule : List Action)
      (s : State β), Protocol.run slots job inputs (start blank inputs.length) schedule = some s →
        Safe slots job inputs blank schedule s) ∧
    (∀ (book : Book) (inputs : List Text) (schedule : List Action) (s : State (Option Parse)),
      Protocol.run slots book.parse inputs (start none inputs.length) schedule = some s →
        ∀ outcome, s.outcome? = some outcome →
          outcome = book.parseAll none inputs ∨
            ∃ reason, .stop reason ∈ schedule ∧ outcome = .error reason ∧
              outcome = book.parseAll (some reason) inputs) ∧
    ∀ (book : Book) (cases : List Case) (blank : CaseResult) (schedule : List Action)
      (s : State CaseResult),
      Protocol.run slots book.runCase cases (start blank cases.length) schedule = some s →
        ∀ outcome, s.outcome? = some outcome →
          (outcome = book.runCases none cases ∧
            s.reports.Perm (cases.zipIdx.map fun p => (p.2, book.runCase p.1))) ∨
            ∃ reason, .stop reason ∈ schedule ∧ outcome = .error reason ∧
              outcome = book.runCases (some reason) cases := by
  refine ⟨fun α β job blank inputs schedule s => safe_of_run hslots, ?_, ?_⟩
  · intro book inputs schedule s hrun outcome houtcome
    have hsafe := safe_of_run hslots hrun
    rcases hsafe.outcome houtcome with hok | ⟨reason, hstop, herror, hrunSome⟩
    · exact .inl hok
    · exact .inr ⟨reason, stop_mem_of_findSome? hstop, herror, hrunSome⟩
  · intro book cases blank schedule s hrun outcome houtcome
    have hsafe := safe_of_run hslots hrun
    rcases hsafe.outcome houtcome with rfl | ⟨reason, hstop, herror, hrunSome⟩
    · exact .inl ⟨rfl, (hsafe.results _ houtcome).2.2⟩
    · exact .inr ⟨reason, stop_mem_of_findSome? hstop, herror, hrunSome⟩

/-- A book of one phrase. -/
def teaConfig : Config where
  phrases := [⟨Text.ofString "tea", Text.ofString "effect", [], [Text.ofString "drink [green] tea"]⟩]

/-- Two workers with two slots, of which the second overtakes the first; the batch is stopped when
both are under way. -/
def overtaking : List Action :=
  [.take, .look, .start, .take, .look, .start, .complete 1, .report 1, .stop .cancelled, .complete 0,
    .release 1, .report 0, .leave 1, .allStarted, .release 0, .leave 0, .finish]

theorem run_overtaking {α β : Type} (job : α → β) (blank : β) (x y : α) :
    ∃ s, Protocol.run 2 job [x, y] (start blank 2) overtaking = some s ∧
      s.outcome? = some (.ok [job x, job y]) :=
  ⟨_, rfl, rfl⟩

/-- The batch is stopped when the launcher has a slot for the second worker. -/
def cutShort : List Action :=
  [.take, .look, .start, .take, .stop .deadline, .complete 0, .look, .report 0, .giveBack,
    .release 0, .stop .cancelled, .leave 0, .finish]

theorem run_cutShort {α β : Type} (job : α → β) (blank : β) (x y : α) :
    ∃ s, Protocol.run 2 job [x, y] (start blank 2) cutShort = some s ∧
      s.outcome? = some (.error .deadline) :=
  ⟨_, rfl, rfl⟩

theorem batches_safe_tea :
    ∃ book, build? Regex.backtracking (some teaConfig) = .ok book ∧
      (book.parse (Text.ofString "drink tea")).isSome ∧
      (∃ s, Protocol.run 2 book.parse [Text.ofString "drink tea", Text.ofString "sleep"]
          (start none 2) overtaking = some s ∧
        s.outcome? = some (book.parseAll none [Text.ofString "drink tea", Text.ofString "sleep"])) ∧
      ∃ s, Protocol.run 2 book.parse [Text.ofString "drink tea", Text.ofString "sleep"]
          (start none 2) cutShort = some s ∧
        s.outcome? = some (.error .deadline) ∧ ∀ w ∈ s.workers, w.2 = .gone := by
  have h : (build? Regex.backtracking (some teaConfig)).toOption.any fun book =>
      (book.parse (Text.ofString "drink tea")).isSome := by decide +kernel
  obtain ⟨hsafe, hparse, -⟩ := batches_safe 2 (by decide)
  cases hbuild : build? Regex.backtracking (some teaConfig) with
  | error reason => simp [hbuild, Except.toOption] at h
  | ok book =>
    simp only [hbuild, Except.toOption, Option.any_some] at h
    obtain ⟨s, hs, hout⟩ :=
      run_overtaking book.parse none (Text.ofString "drink tea") (Text.ofString "sleep")
    obtain ⟨s', hs', hout'⟩ :=
      run_cutShort book.parse none (Text.ofString "drink tea") (Text.ofString "sleep")
    refine ⟨book, rfl, h, ⟨s, hs, ?_⟩, s', hs', hout', ?_⟩
    · rcases hparse book _ overtaking s hs _ hout with hall | ⟨reason, -, herror, -⟩
      · exact hout.trans (congrArg some hall)
      · cases herror
    · exact (hsafe _ _ book.parse none _ cutShort s' hs').gone (by rw [hout']; rfl)

end Book

end Phrasebook
