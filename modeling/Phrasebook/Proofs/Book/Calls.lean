import Phrasebook.Book.Shared
import Phrasebook.Proofs.Batch.Outcome

/-!
# What becomes of a call

A call on a book is a parse that tries one pattern after the other, or a batch.  What becomes of it is
told by its own actions and the book that it read.

* `Parsing.result_step` : a step does not change what a parse will give.
* `Call.run_batch` : a call for many inputs or cases goes on as a batch does.
* `Call.answer_of_run` : **what a call gives is what its query gives on its book.**
* `Call.check_of_run` : checking runs the cases of the book, at every moment with its own phrases.
* `Call.canAnswer_of_run` : a call can be brought to its answer.
-/

namespace Phrasebook

namespace Book

variable {slots : Nat} {book : Book}

/-! ### One parse -/

namespace Parsing

/-- What a parse under way will give. -/
def result (matcher : Matcher Value) (input : Text) : Parsing → Option Parse
  | .between ctx phrases => tryPhrases matcher input ctx phrases
  | .trying ctx phrase index patterns rest =>
    match tryPatterns matcher input phrase index ctx patterns with
    | (some parse, _) => some parse
    | (none, ctx) => tryPhrases matcher input ctx rest
  | .done parse => parse

theorem result_start (input : Text) : (start book).result book.matcher input = book.parse input := by
  show tryPhrases book.matcher input {} book.phrases = _
  rw [parse, parseWith, List.filter_eq_self.2 fun _ _ => rfl]
  rfl

/-- A step does not change what a parse will give. -/
theorem result_step {matcher : Matcher Value} {input : Text} {p p' : Parsing}
    (h : p.step matcher input = some p') : p'.result matcher input = p.result matcher input := by
  cases p with
  | between ctx phrases =>
    cases phrases with
    | nil =>
      obtain rfl := Option.some.inj h
      rfl
    | cons phrase rest =>
      obtain rfl := Option.some.inj h
      rfl
  | trying ctx phrase index patterns rest =>
    cases patterns with
    | nil =>
      obtain rfl := Option.some.inj h
      rfl
    | cons p ps =>
      simp only [step] at h
      split at h
      · rename_i outcome ctx' hmatch
        obtain rfl := Option.some.inj h
        simp only [result, tryPatterns, hmatch]
      · rename_i ctx' hmatch
        obtain rfl := Option.some.inj h
        simp only [result, tryPatterns, hmatch]
  | done parse => cases h

end Parsing

/-! ### One call -/

namespace Call

variable {call call' : Call} {actions : List CallAction}

/-- What becomes of a call by its own actions, if all are possible. -/
def run (slots : Nat) (call : Call) (actions : List CallAction) : Option Call :=
  actions.foldlM (step slots) call

theorem run_append (actions rest : List CallAction) :
    run slots call (actions ++ rest) =
      (run slots call actions).bind fun call => run slots call rest :=
  List.foldlM_append

/-- A parse goes on to what it will give. -/
theorem run_parse {input : Text} {p : Parsing}
    (h : run slots ⟨book, .parse input p⟩ actions = some call) :
    ∃ p', call = ⟨book, .parse input p'⟩ ∧
      p'.result book.matcher input = p.result book.matcher input := by
  induction actions generalizing p with
  | nil => exact ⟨p, (Option.some.inj h).symm, rfl⟩
  | cons a rest ih =>
    obtain ⟨call₁, h₁, h⟩ := Option.bind_eq_some_iff.1 h
    cases a with
    | parse =>
      obtain ⟨p₁, hp₁, rfl⟩ := Option.map_eq_some_iff.1 h₁
      obtain ⟨p', hcall, hresult⟩ := ih h
      exact ⟨p', hcall, hresult.trans (Parsing.result_step hp₁)⟩
    | batch action => cases h₁

/-- Many inputs or cases go on as a batch. -/
theorem run_batch {α β : Type} {job : α → β} {inputs : List α}
    (wrap : Batch.Protocol.State β → Call) (hparse : ∀ batch, (wrap batch).step slots .parse = none)
    (hbatch : ∀ batch action, (wrap batch).step slots (.batch action) =
      (Batch.Protocol.step slots job inputs batch action).map wrap)
    {batch : Batch.Protocol.State β} (h : run slots (wrap batch) actions = some call) :
    ∃ schedule batch', actions = schedule.map .batch ∧
      Batch.Protocol.run slots job inputs batch schedule = some batch' ∧ call = wrap batch' := by
  induction actions generalizing batch with
  | nil => exact ⟨[], batch, rfl, rfl, (Option.some.inj h).symm⟩
  | cons a rest ih =>
    obtain ⟨call₁, h₁, h⟩ := Option.bind_eq_some_iff.1 h
    cases a with
    | parse => cases (hparse batch).symm.trans h₁
    | batch action =>
      obtain ⟨batch₁, hbatch₁, rfl⟩ := Option.map_eq_some_iff.1 ((hbatch batch action).symm.trans h₁)
      obtain ⟨schedule, batch', rfl, hrun, hcall⟩ := ih h
      exact ⟨action :: schedule, batch', rfl, Option.bind_eq_some_iff.2 ⟨batch₁, hbatch₁, hrun⟩, hcall⟩

theorem run_parseAll {inputs : List Text} {batch : Batch.Protocol.State (Option Parse)}
    (h : run slots ⟨book, .parseAll inputs batch⟩ actions = some call) :
    ∃ schedule batch', actions = schedule.map .batch ∧
      Batch.Protocol.run slots book.parse inputs batch schedule = some batch' ∧
      call = ⟨book, .parseAll inputs batch'⟩ :=
  run_batch (fun batch => ⟨book, .parseAll inputs batch⟩) (fun _ => rfl) (fun _ _ => rfl) h

theorem run_runCases {cases : List Case} {batch : Batch.Protocol.State CaseResult}
    (h : run slots ⟨book, .runCases cases batch⟩ actions = some call) :
    ∃ schedule batch', actions = schedule.map .batch ∧
      Batch.Protocol.run slots book.runCase cases batch schedule = some batch' ∧
      call = ⟨book, .runCases cases batch'⟩ :=
  run_batch (fun batch => ⟨book, .runCases cases batch⟩) (fun _ => rfl) (fun _ _ => rfl) h

/-- What a batch of a call gives is what its jobs give one after the other, or the reason for which the
call was stopped. -/
theorem outcome_of_run {α β : Type} {job : α → β} {inputs : List α} {blank : β}
    {schedule : List Batch.Protocol.Action} {batch : Batch.Protocol.State β}
    (hslots : 0 < slots) (hrun : Batch.Protocol.run slots job inputs
      (Batch.Protocol.start blank inputs.length) schedule = some batch)
    {outcome : Except Batch.Stop (List β)} (h : batch.outcome? = some outcome) :
    ∃ stopped, (∀ reason, stopped = some reason →
        CallAction.batch (.stop reason) ∈ schedule.map CallAction.batch) ∧
      outcome = Batch.run stopped job inputs := by
  rcases (Batch.Protocol.safe_of_run hslots hrun).outcome h with hok | ⟨reason, hstop, -, herror⟩
  · exact ⟨none, nofun, hok⟩
  · refine ⟨some reason, fun other hother => ?_, herror⟩
    obtain rfl := Option.some.inj hother
    exact List.mem_map_of_mem (Batch.Protocol.stop_mem_of_findSome? hstop)

/-- **What a call gives is what its query gives on the book that it read**, whatever the order in which
its work was done. -/
theorem answer_of_run (hslots : 0 < slots) {query : Query}
    (hrun : run slots (start book query) actions = some call) {answer : Answer}
    (h : call.answer? = some answer) :
    ∃ stopped, (∀ reason, stopped = some reason → .batch (.stop reason) ∈ actions) ∧
      answer = query.answer book stopped := by
  cases query with
  | parse input =>
    obtain ⟨p, rfl, hresult⟩ := run_parse hrun
    rw [Parsing.result_start] at hresult
    cases p with
    | done parse =>
      obtain rfl := Option.some.inj h
      exact ⟨none, nofun, congrArg Answer.parse hresult⟩
    | between => cases h
    | trying => cases h
  | parseAll inputs =>
    obtain ⟨schedule, batch, rfl, hbatch, rfl⟩ := run_parseAll hrun
    obtain ⟨outcome, houtcome, rfl⟩ := Option.map_eq_some_iff.1 h
    obtain ⟨stopped, hstops, rfl⟩ := outcome_of_run hslots hbatch houtcome
    exact ⟨stopped, hstops, rfl⟩
  | runCases cases =>
    obtain ⟨schedule, batch, rfl, hbatch, rfl⟩ := run_runCases hrun
    obtain ⟨outcome, houtcome, rfl⟩ := Option.map_eq_some_iff.1 h
    obtain ⟨stopped, hstops, rfl⟩ := outcome_of_run hslots hbatch houtcome
    exact ⟨stopped, hstops, rfl⟩
  | check =>
    obtain ⟨schedule, batch, rfl, hbatch, rfl⟩ := run_runCases hrun
    obtain ⟨outcome, houtcome, rfl⟩ := Option.map_eq_some_iff.1 h
    obtain ⟨stopped, hstops, rfl⟩ := outcome_of_run hslots hbatch houtcome
    exact ⟨stopped, hstops, rfl⟩

/-- **Checking runs the cases of the book with the phrases of the book**, at every moment and not only
in the end. -/
theorem check_of_run (hrun : run slots (start book .check) actions = some call) :
    ∃ batch, call.work = .runCases book.cases batch ∧
      (∀ w ∈ batch.workers, w.2 ≠ .working →
        batch.cells[w.1]? = book.cases[w.1]?.map book.runCase) ∧
      ∀ r ∈ batch.reports, book.cases[r.1]?.map book.runCase = some r.2 := by
  obtain ⟨schedule, batch, -, hbatch, rfl⟩ := run_runCases hrun
  have hconsistent := Batch.Protocol.consistent_of_run hbatch
  exact ⟨batch, rfl, hconsistent.results, hconsistent.reported⟩

/-- A call can be brought to its answer. -/
def CanAnswer (slots : Nat) (call : Call) : Prop :=
  ∃ actions call', run slots call actions = some call' ∧ call'.answer?.isSome

theorem CanAnswer.of_step {a : CallAction} (hstep : call.step slots a = some call')
    (h : CanAnswer slots call') : CanAnswer slots call := by
  obtain ⟨actions, last, hrun, hsome⟩ := h
  exact ⟨a :: actions, last, Option.bind_eq_some_iff.2 ⟨call', hstep, hrun⟩, hsome⟩

/-- A parse that is trying the patterns of a phrase comes to an end if going on from there does. -/
theorem canAnswer_trying {input : Text} {phrase : Phrase} {rest : List Phrase}
    (h : ∀ ctx, CanAnswer slots ⟨book, .parse input (.between ctx rest)⟩) (patterns : List Pattern)
    (ctx : Context Value) (index : Nat) :
    CanAnswer slots ⟨book, .parse input (.trying ctx phrase index patterns rest)⟩ := by
  induction patterns generalizing ctx index with
  | nil => exact .of_step (a := .parse) rfl (h ctx)
  | cons p ps ih =>
    cases hmatch : book.matcher.matchAll input p ctx.reset with
    | mk outcome after =>
      cases outcome with
      | some outcome =>
        have hstep : step slots ⟨book, .parse input (.trying ctx phrase index (p :: ps) rest)⟩ .parse =
            some ⟨book, .parse input (.done (some ⟨phrase, index, outcome⟩))⟩ := by
          simp only [step, Parsing.step, hmatch, Option.map_some]
        exact .of_step hstep ⟨[], _, rfl, rfl⟩
      | none =>
        have hstep : step slots ⟨book, .parse input (.trying ctx phrase index (p :: ps) rest)⟩ .parse =
            some ⟨book, .parse input (.trying after phrase (index + 1) ps rest)⟩ := by
          simp only [step, Parsing.step, hmatch, Option.map_some]
        exact .of_step hstep (ih after (index + 1))

theorem canAnswer_between (input : Text) (phrases : List Phrase) (ctx : Context Value) :
    CanAnswer slots ⟨book, .parse input (.between ctx phrases)⟩ := by
  induction phrases generalizing ctx with
  | nil => exact .of_step (a := .parse) rfl ⟨[], _, rfl, rfl⟩
  | cons phrase rest ih =>
    exact .of_step (a := .parse) rfl (canAnswer_trying ih phrase.patterns ctx 0)

theorem canAnswer_parse (input : Text) (p : Parsing) :
    CanAnswer slots ⟨book, .parse input p⟩ := by
  cases p with
  | between ctx phrases => exact canAnswer_between input phrases ctx
  | trying ctx phrase index patterns rest =>
    exact canAnswer_trying (canAnswer_between input rest) patterns ctx index
  | done parse => exact ⟨[], _, rfl, rfl⟩

theorem canAnswer_batch {α β : Type} {job : α → β} {inputs : List α}
    (wrap : Batch.Protocol.State β → Call)
    (hbatch : ∀ batch action, (wrap batch).step slots (.batch action) =
      (Batch.Protocol.step slots job inputs batch action).map wrap)
    (hanswer : ∀ batch, batch.outcome?.isSome → (wrap batch).answer?.isSome) (hslots : 0 < slots)
    {batch : Batch.Protocol.State β} (h : Batch.Protocol.Consistent slots job inputs batch) :
    CanAnswer slots (wrap batch) := by
  obtain ⟨rest, batch', hrun, -, hsome⟩ := h.exists_outcome hslots
  have hlast : CanAnswer slots (wrap batch') := ⟨[], _, rfl, hanswer batch' hsome⟩
  clear h
  induction rest generalizing batch with
  | nil => exact Option.some.inj hrun ▸ hlast
  | cons a rest ih =>
    obtain ⟨batch₁, h₁, hrun⟩ := Option.bind_eq_some_iff.1 hrun
    have hstep : (wrap batch).step slots (.batch a) = some (wrap batch₁) := by
      rw [hbatch, h₁, Option.map_some]
    exact .of_step hstep (ih hrun)

/-- **Every call can be brought to its answer** at every moment, by actions of its own. -/
theorem canAnswer_of_run (hslots : 0 < slots) {query : Query}
    (hrun : run slots (start book query) actions = some call) : CanAnswer slots call := by
  have hcases (cases : List Case) (batch : Batch.Protocol.State CaseResult)
      (h : Batch.Protocol.Consistent slots book.runCase cases batch) :
      CanAnswer slots ⟨book, .runCases cases batch⟩ :=
    canAnswer_batch (fun batch => ⟨book, .runCases cases batch⟩) (fun _ _ => rfl)
      (fun batch hsome => by simpa [answer?] using hsome) hslots h
  cases query with
  | parse input =>
    obtain ⟨p, rfl, -⟩ := run_parse hrun
    exact canAnswer_parse input p
  | parseAll inputs =>
    obtain ⟨schedule, batch, -, hbatch, rfl⟩ := run_parseAll hrun
    exact canAnswer_batch (fun batch => ⟨book, .parseAll inputs batch⟩) (fun _ _ => rfl)
      (fun batch hsome => by simpa [answer?] using hsome) hslots
      (Batch.Protocol.consistent_of_run hbatch)
  | runCases cases =>
    obtain ⟨schedule, batch, -, hbatch, rfl⟩ := run_runCases hrun
    exact hcases cases batch (Batch.Protocol.consistent_of_run hbatch)
  | check =>
    obtain ⟨schedule, batch, -, hbatch, rfl⟩ := run_runCases hrun
    exact hcases book.cases batch (Batch.Protocol.consistent_of_run hbatch)

end Call

end Book

end Phrasebook
