import Mathlib.Data.List.Induction
import Phrasebook.Proofs.Book.Calls
import Phrasebook.Proofs.Book.Construction
import Phrasebook.Proofs.Except

/-!
# Each call sees one book

Calls on a book go on while the book is replaced, and reloads are under way while calls begin.  What a
call does is nevertheless told by its own actions alone, as if there were nothing else, and by the
book that was in use when it began.

* `Shared.Step` : what an event does, one constructor for each way it can go.
* `Shared.call_of_run` : **whatever else happens, a call goes its own way.**
* `Event.inForce` : the configuration that was put to use last.
* `Shared.explained_of_run` : the book that calls read is built from it.
* `Shared.calls_run_failing` : a reload that fails changes no call.
* `Shared.calls_see_one_book` : all of this together.
-/

namespace Phrasebook

namespace Book

variable {dialect : Regex.Dialect} {slots : Nat} {book : Book}

/-! ### What happens to a book in use -/

namespace Shared

variable {s s' : Shared} {e : Event}

/-- What an event does to a book in use. -/
inductive Step (dialect : Regex.Dialect) (slots : Nat) (s : Shared) : Event → Shared → Prop where
  /-- A reload builds its book. -/
  | build {config : Option Config} {book : Book} (h : build? dialect config = .ok book) :
      Step dialect slots s (.build config) { s with reloads := s.reloads ++ [⟨book, false⟩] }
  /-- A reload fails. -/
  | fail {config : Option Config} {error : BuildError} (h : build? dialect config = .error error) :
      Step dialect slots s (.build config) { s with failures := s.failures ++ [error] }
  /-- The book of a reload takes the place of the former. -/
  | swap {k : Nat} {book : Book} (hk : s.reloads[k]? = some ⟨book, false⟩) :
      Step dialect slots s (.swap k)
        { s with book := book, reloads := s.reloads.set k ⟨book, true⟩ }
  /-- A call begins. -/
  | call (query : Query) :
      Step dialect slots s (.call query) { s with calls := s.calls ++ [.start s.book query] }
  /-- Something happens to a call. -/
  | work {c : Nat} {action : CallAction} {call call' : Call} (hc : s.calls[c]? = some call)
      (hstep : call.step slots action = some call') :
      Step dialect slots s (.work c action) { s with calls := s.calls.set c call' }

theorem step_eq_some_iff : step dialect slots s e = some s' ↔ Step dialect slots s e s' := by
  constructor
  · intro h
    cases e with
    | build config =>
      simp only [step] at h
      split at h
      · rename_i book hbook
        obtain rfl := Option.some.inj h
        exact .build hbook
      · rename_i error herror
        obtain rfl := Option.some.inj h
        exact .fail herror
    | swap k =>
      simp only [step] at h
      split at h
      · rename_i book hk
        obtain rfl := Option.some.inj h
        exact .swap hk
      · cases h
    | call query =>
      obtain rfl := Option.some.inj h
      exact .call query
    | work c action =>
      obtain ⟨call, hc, h⟩ := Option.bind_eq_some_iff.1 h
      obtain ⟨call', hstep, h⟩ := Option.bind_eq_some_iff.1 h
      obtain rfl := Option.some.inj h
      exact .work hc hstep
  · intro h
    cases h with
    | work hc hstep => simp [step, hc, hstep]
    | _ => simp [step, *]

theorem run_cons (rest : List Event) :
    run dialect slots s (e :: rest) =
      (step dialect slots s e).bind fun s => run dialect slots s rest :=
  rfl

theorem run_append (events rest : List Event) :
    run dialect slots s (events ++ rest) =
      (run dialect slots s events).bind fun s => run dialect slots s rest :=
  List.foldlM_append

/-- A reload that nothing comes in between is `Book.reload`. -/
theorem book_run_reload (s : Shared) (config : Option Config) :
    (run dialect slots s (.build config ::
      if (s.book.reload dialect config).2.isNone then [.swap s.reloads.length] else [])).map
        Shared.book = some (s.book.reload dialect config).1 := by
  unfold reload
  simp only [run_cons, step]
  cases build? dialect config with
  | ok book => simp [run, step]
  | error error => simp [run]

/-- What happens to a call among events. -/
def actionsOf (c : Nat) (events : List Event) : List CallAction :=
  events.filterMap fun
    | .work c' action => if c' = c then some action else none
    | _ => none

/-- An event does to a call what it says, and other events do nothing to it. -/
theorem Step.call_of {c : Nat} {call : Call} (h : Step dialect slots s e s')
    (hc : s.calls[c]? = some call) :
    ∃ call', s'.calls[c]? = some call' ∧ call.run slots (actionsOf c [e]) = some call' := by
  cases h with
  | build | fail | swap => exact ⟨call, hc, rfl⟩
  | call query =>
    have hlt := (List.getElem?_eq_some_iff.1 hc).1
    exact ⟨call, (List.getElem?_append_left hlt).trans hc, rfl⟩
  | @work c' action call₁ call' hc' hstep =>
    by_cases hcc : c' = c
    · subst hcc
      obtain rfl := Option.some.inj (hc.symm.trans hc')
      have hlt := (List.getElem?_eq_some_iff.1 hc).1
      refine ⟨call', List.getElem?_set_self hlt, ?_⟩
      simp [actionsOf, Call.run, hstep]
    · refine ⟨call, (List.getElem?_set_ne hcc).trans hc, ?_⟩
      simp [actionsOf, hcc, Call.run]

/-- **Whatever else happens, a call goes its own way**, by its own actions. -/
theorem call_of_run {c : Nat} {call : Call} {events : List Event}
    (hrun : run dialect slots s events = some s') (hc : s.calls[c]? = some call) :
    ∃ call', s'.calls[c]? = some call' ∧ call.run slots (actionsOf c events) = some call' := by
  induction events generalizing s call with
  | nil =>
    obtain rfl := Option.some.inj hrun
    exact ⟨call, hc, rfl⟩
  | cons e rest ih =>
    obtain ⟨s₁, h₁, hrun⟩ := Option.bind_eq_some_iff.1 hrun
    obtain ⟨call₁, hc₁, hrun₁⟩ := (step_eq_some_iff.1 h₁).call_of hc
    obtain ⟨call', hc', hrun'⟩ := ih hrun hc₁
    have hsplit : actionsOf c (e :: rest) = actionsOf c [e] ++ actionsOf c rest :=
      List.filterMap_append (l := [e]) ..
    refine ⟨call', hc', ?_⟩
    rw [hsplit, Call.run_append, hrun₁]
    exact hrun'

end Shared

/-! ### The configuration in force -/

namespace Event

/-- The reload whose book is put to use. -/
def swap? : Event → Option Nat
  | .swap k => some k
  | _ => none

/-- The configuration of which a reload builds a book. -/
def built? (dialect : Regex.Dialect) : Event → Option (Option Config)
  | .build config =>
    match build? dialect config with
    | .ok _ => some config
    | .error _ => none
  | _ => none

/-- A call begins. -/
def begins : Event → Bool
  | .call _ => true
  | _ => false

/-- The configuration of the reload whose book was put to use last, or else the initial one. -/
def inForce (dialect : Regex.Dialect) (initial : Option Config) (events : List Event) :
    Option Config :=
  match (events.filterMap swap?).getLast? with
  | some k => (events.filterMap (built? dialect))[k]?.getD initial
  | none => initial

variable {initial : Option Config} {events : List Event} {e : Event}

theorem filterMap_concat {β : Type} (f : Event → Option β) :
    (events ++ [e]).filterMap f = events.filterMap f ++ (f e).toList := by
  rw [List.filterMap_append, List.filterMap_cons]
  cases f e <;> rfl

theorem inForce_swap {k : Nat} {config : Option Config}
    (hk : (events.filterMap (built? dialect))[k]? = some config) :
    inForce dialect initial (events ++ [.swap k]) = config := by
  simp only [inForce, filterMap_concat, swap?, built?, Option.toList_some, Option.toList_none,
    List.append_nil, List.getLast?_concat, hk, Option.getD_some]

theorem inForce_of_swap?_eq_none (he : e.swap? = none)
    (hswaps : ∀ k ∈ events.filterMap swap?, k < (events.filterMap (built? dialect)).length) :
    inForce dialect initial (events ++ [e]) = inForce dialect initial events := by
  simp only [inForce, filterMap_concat, he, Option.toList_none, List.append_nil]
  cases hk : (events.filterMap swap?).getLast? with
  | none => rfl
  | some k =>
    have hlt := hswaps k (List.mem_of_getLast? hk)
    simp only [List.getElem?_append_left hlt]

end Event

namespace Shared

variable {s s' : Shared} {e : Event} {initial : Option Config} {events : List Event}

/-- The events so far explain what is in use: the book is built from the configuration in force, each
reload has built its book from its configuration, and the calls are those that have begun. -/
structure Explained (dialect : Regex.Dialect) (initial : Option Config) (events : List Event)
    (s : Shared) : Prop where
  /-- The book is built from the configuration in force. -/
  book : build? dialect (Event.inForce dialect initial events) = .ok s.book
  /-- Each reload has built its book from its configuration. -/
  reloads : (events.filterMap (Event.built? dialect)).map (build? dialect) =
    s.reloads.map fun r => .ok r.book
  /-- Only books that were built were put to use. -/
  swaps : ∀ k ∈ events.filterMap Event.swap?, k < s.reloads.length
  /-- The calls are those that have begun. -/
  calls : s.calls.length = events.countP Event.begins

theorem Explained.length_built (h : Explained dialect initial events s) :
    (events.filterMap (Event.built? dialect)).length = s.reloads.length := by
  have hlength := congrArg List.length h.reloads
  simpa using hlength

/-- What is not a swap leaves the configuration in force as it was. -/
theorem Explained.inForce (h : Explained dialect initial events s) (he : e.swap? = none) :
    build? dialect (Event.inForce dialect initial (events ++ [e])) = .ok s.book := by
  rw [Event.inForce_of_swap?_eq_none he fun k hk => h.length_built ▸ h.swaps k hk]
  exact h.book

/-- What neither builds nor swaps a book changes nothing but the calls. -/
theorem Explained.of_none (h : Explained dialect initial events s) (hswap : e.swap? = none)
    (hbuilt : e.built? dialect = none) (hbook : s'.book = s.book) (hreloads : s'.reloads = s.reloads)
    (hcalls : s'.calls.length = s.calls.length + [e].countP Event.begins) :
    Explained dialect initial (events ++ [e]) s' where
  book := hbook ▸ h.inForce hswap
  reloads := by
    rw [Event.filterMap_concat, hbuilt, hreloads, Option.toList_none, List.append_nil, h.reloads]
  swaps := by
    rw [Event.filterMap_concat, hswap, hreloads, Option.toList_none, List.append_nil]
    exact h.swaps
  calls := by rw [hcalls, h.calls, List.countP_append]

/-- **An event that happens is one more to explain what is in use.** -/
theorem Explained.step (h : Explained dialect initial events s)
    (hstep : Step dialect slots s e s') : Explained dialect initial (events ++ [e]) s' := by
  cases hstep with
  | @build config book hbook =>
    have hbuilt : (Event.build config).built? dialect = some config := by
      simp only [Event.built?, hbook]
    refine ⟨h.inForce rfl, ?_, fun k hk => ?_, ?_⟩
    · rw [Event.filterMap_concat, hbuilt, List.map_append, h.reloads, List.map_append,
        Option.toList_some, List.map_singleton, List.map_singleton, hbook]
    · rw [Event.filterMap_concat] at hk
      have hlt := h.swaps k ((List.append_nil _).subst hk)
      exact Nat.lt_of_lt_of_le hlt (List.length_append ▸ Nat.le_add_right _ _)
    · rw [List.countP_append]
      exact h.calls
  | @fail config error herror =>
    have hbuilt : (Event.build config).built? dialect = none := by
      simp only [Event.built?, herror]
    exact h.of_none rfl hbuilt rfl rfl rfl
  | @swap k book hk =>
    have hlt := (List.getElem?_eq_some_iff.1 hk).1
    -- the list of what was built says of which configuration the book of the reload is built
    have hbuilt : ((events.filterMap (Event.built? dialect))[k]?).map (build? dialect) =
        some (.ok book) := by
      rw [← List.getElem?_map, h.reloads, List.getElem?_map, hk, Option.map_some]
    obtain ⟨config, hconfig, hbook⟩ := Option.map_eq_some_iff.1 hbuilt
    refine ⟨(Event.inForce_swap hconfig).symm ▸ hbook, ?_, fun j hj => ?_, ?_⟩
    · have hsame : (s.reloads.map fun r => (Except.ok r.book : Except BuildError Book))[k]? =
          some (.ok book) := by rw [List.getElem?_map, hk, Option.map_some]
      obtain ⟨_, hget⟩ := List.getElem?_eq_some_iff.1 hsame
      rw [Event.filterMap_concat, List.map_set, ← hget, List.set_getElem_self]
      exact (congrArg _ (List.append_nil _)).trans h.reloads
    · rw [Event.filterMap_concat] at hj
      rw [List.length_set]
      rcases List.mem_append.1 hj with hj | hj
      · exact h.swaps j hj
      · obtain rfl := List.mem_singleton.1 hj
        exact hlt
    · rw [List.countP_append]
      exact h.calls
  | call query => exact h.of_none rfl rfl rfl rfl List.length_append
  | work => exact h.of_none rfl rfl rfl rfl List.length_set

/-- **At every moment of every history the book in use is built from the configuration in force.** -/
theorem explained_of_run {s₀ : Shared} (hnew : new dialect initial = .ok s₀)
    (hrun : run dialect slots s₀ events = some s) : Explained dialect initial events s := by
  induction events using List.reverseRecOn generalizing s with
  | nil =>
    obtain ⟨book, hbook, rfl⟩ := exists_of_map_eq_ok hnew
    obtain rfl := Option.some.inj hrun
    exact ⟨hbook, rfl, nofun, rfl⟩
  | append_singleton events e ih =>
    rw [run_append] at hrun
    obtain ⟨s₁, hrun₁, hstep⟩ := Option.bind_eq_some_iff.1 hrun
    obtain ⟨s₂, h₂, hlast⟩ := Option.bind_eq_some_iff.1 hstep
    obtain rfl := Option.some.inj hlast
    exact (ih hrun₁).step (step_eq_some_iff.1 h₂)

/-! ### Reloads that fail -/

/-- What reloads that failed gave is of no importance to calls. -/
theorem calls_run_failures (s : Shared) (failures : List BuildError) (events : List Event) :
    (run dialect slots { s with failures := failures } events).map Shared.calls =
      (run dialect slots s events).map Shared.calls := by
  induction events generalizing s failures with
  | nil => rfl
  | cons e rest ih =>
    cases e with
    | build config =>
      simp only [run_cons, step]
      cases build? dialect config with
      | ok book => exact ih { s with reloads := s.reloads ++ [⟨book, false⟩] } failures
      | error error =>
        exact (ih s (failures ++ [error])).trans (ih s (s.failures ++ [error])).symm
    | swap k =>
      simp only [run_cons, step]
      cases hk : s.reloads[k]? with
      | none => rfl
      | some r =>
        obtain ⟨book, swapped⟩ := r
        cases swapped with
        | true => rfl
        | false =>
          exact ih { s with book := book, reloads := s.reloads.set k ⟨book, true⟩ } failures
    | call query => exact ih { s with calls := s.calls ++ [.start s.book query] } failures
    | work c action =>
      simp only [run_cons, step]
      cases hc : s.calls[c]? with
      | none => rfl
      | some call =>
        simp only [Option.bind_eq_bind, Option.bind_some]
        cases hstep : call.step slots action with
        | none => rfl
        | some call' => exact ih { s with calls := s.calls.set c call' } failures

/-- **A reload that fails changes no call:** the history without it goes on as well, and with the same
calls. -/
theorem calls_run_failing {config : Option Config} {error : BuildError}
    (hfail : build? dialect config = .error error) (s : Shared) (before after : List Event) :
    (run dialect slots s (before ++ .build config :: after)).map Shared.calls =
      (run dialect slots s (before ++ after)).map Shared.calls := by
  rw [run_append, run_append, Option.map_bind, Option.map_bind]
  refine Option.bind_congr fun s₁ _ => ?_
  simp only [run_cons, step, hfail]
  exact calls_run_failures s₁ _ after

/-! ### What calls see -/

/-- A call can act whatever else has happened. -/
theorem run_work {c : Nat} {call call' : Call} {actions : List CallAction}
    (hc : s.calls[c]? = some call) (hrun : call.run slots actions = some call') :
    ∃ s', run dialect slots s (actions.map (.work c)) = some s' ∧ s'.calls[c]? = some call' := by
  induction actions generalizing s call with
  | nil =>
    obtain rfl := Option.some.inj hrun
    exact ⟨s, rfl, hc⟩
  | cons a rest ih =>
    obtain ⟨call₁, hstep, hrun⟩ := Option.bind_eq_some_iff.1 hrun
    have hlt := (List.getElem?_eq_some_iff.1 hc).1
    have hc₁ : ({ s with calls := s.calls.set c call₁ } : Shared).calls[c]? = some call₁ :=
      List.getElem?_set_self hlt
    obtain ⟨s', hrun', hc'⟩ := ih hc₁ hrun
    exact ⟨s', Option.bind_eq_some_iff.2 ⟨_, step_eq_some_iff.2 (.work hc hstep), hrun'⟩, hc'⟩

theorem mem_of_mem_actionsOf {c : Nat} {action : CallAction} (h : action ∈ actionsOf c events) :
    .work c action ∈ events := by
  obtain ⟨e, he, haction⟩ := List.mem_filterMap.1 h
  cases e with
  | work c' a =>
    simp only [Option.ite_none_right_eq_some] at haction
    obtain ⟨rfl, haction⟩ := haction
    exact Option.some.inj haction ▸ he
  | _ => cases haction

/-- **Each call sees one book.**  In every history that can happen each call has the book that is built
from the configuration in force when it began, and

* what it gives is what its query gives on that book, unless the call itself was stopped;
* checking runs the cases of that configuration with the phrases of the same, at every moment;
* it can be brought to its answer, whatever else happens.

A reload that fails changes none of this. -/
theorem calls_see_one_book (hslots : 0 < slots) {s₀ : Shared} (hnew : new dialect initial = .ok s₀)
    (hrun : run dialect slots s₀ events = some s) :
    (∀ before query after, events = before ++ .call query :: after →
      ∃ config book call,
        Event.inForce dialect initial before = some config ∧
        build? dialect (some config) = .ok book ∧
        s.calls[before.countP Event.begins]? = some call ∧
        (∀ answer, call.answer? = some answer →
          ∃ stopped, (∀ reason, stopped = some reason →
              .work (before.countP Event.begins) (.batch (.stop reason)) ∈ after) ∧
            answer = query.answer book stopped) ∧
        (query = .check → ∃ batch, call.work = .runCases config.cases batch ∧
          (∀ w ∈ batch.workers, w.2 ≠ .working →
            batch.cells[w.1]? = config.cases[w.1]?.map book.runCase) ∧
          ∀ r ∈ batch.reports, config.cases[r.1]?.map book.runCase = some r.2) ∧
        ∃ (actions : List CallAction) (s' : Shared) (call' : Call),
          run dialect slots s (actions.map (.work (before.countP Event.begins))) = some s' ∧
          s'.calls[before.countP Event.begins]? = some call' ∧ call'.answer?.isSome) ∧
    ∀ before config error after, build? dialect config = .error error →
      (run dialect slots s₀ (before ++ .build config :: after)).map Shared.calls =
        (run dialect slots s₀ (before ++ after)).map Shared.calls := by
  refine ⟨?_, fun before config error after hfail => calls_run_failing hfail s₀ before after⟩
  rintro before query after rfl
  rw [run_append] at hrun
  obtain ⟨s₁, hbefore, hafter⟩ := Option.bind_eq_some_iff.1 hrun
  have hexplained := explained_of_run hnew hbefore
  obtain ⟨config, hconfig, hcases⟩ := cases_of_build? hexplained.book
  have hbook := hconfig ▸ hexplained.book
  have hbegun : run dialect slots { s₁ with calls := s₁.calls ++ [.start s₁.book query] } after =
      some s := hafter
  -- the call is the last one when it begins
  have hcall : (s₁.calls ++ [Call.start s₁.book query])[before.countP Event.begins]? =
      some (.start s₁.book query) := by
    rw [← hexplained.calls]
    exact List.getElem?_concat_length
  obtain ⟨call, hc, hcallRun⟩ := call_of_run hbegun hcall
  refine ⟨config, s₁.book, call, hconfig, hbook, hc, fun answer hanswer => ?_, ?_, ?_⟩
  · obtain ⟨stopped, hstops, hequal⟩ := Call.answer_of_run hslots hcallRun hanswer
    exact ⟨stopped, fun reason hreason => mem_of_mem_actionsOf (hstops reason hreason), hequal⟩
  · rintro rfl
    exact hcases ▸ Call.check_of_run hcallRun
  · obtain ⟨actions, call', hrun', hsome⟩ := Call.canAnswer_of_run hslots hcallRun
    obtain ⟨s', hs', hc'⟩ := run_work hc hrun'
    exact ⟨actions, s', call', hs', hc', hsome⟩

/-- A book of one phrase, with a case of it. -/
def teaHouse : Config where
  phrases := [⟨Text.ofString "tea", Text.ofString "effect", [], [Text.ofString "drink [green] tea"]⟩]
  cases := [⟨Text.ofString "drink tea", Text.ofString "tea", none, none⟩]

/-- A book of another phrase, without cases. -/
def coffeeHouse : Config where
  phrases := [⟨Text.ofString "coffee", Text.ofString "effect", [], [Text.ofString "drink coffee"]⟩]

/-- The tea house is checked while a reload fails and another makes it a coffee house. -/
def takeover : List Event :=
  [.call .check, .build none, .build (some coffeeHouse), .work 0 (.batch .take),
    .work 0 (.batch .look), .swap 0, .work 0 (.batch .start)]

/-- Someone asks for tea there, while the check goes on. -/
def afterwards : List Event :=
  [.work 0 (.batch (.complete 0)), .work 1 .parse, .work 0 (.batch (.report 0)), .work 1 .parse,
    .work 0 (.batch (.release 0)), .work 0 (.batch .allStarted), .work 1 .parse,
    .work 0 (.batch (.leave 0)), .work 0 (.batch .finish), .work 1 .parse]

theorem calls_see_one_book_takeover :
    ∃ s₀ s tea coffee check parse, new Regex.backtracking (some teaHouse) = .ok s₀ ∧
      run Regex.backtracking 1 s₀
        (takeover ++ .call (.parse (Text.ofString "drink tea")) :: afterwards) = some s ∧
      build? Regex.backtracking (some teaHouse) = .ok tea ∧
      build? Regex.backtracking (some coffeeHouse) = .ok coffee ∧
      s.calls[0]? = some check ∧ s.calls[1]? = some parse ∧
      check.answer? = some (Query.check.answer tea none) ∧
      parse.answer? = some ((Query.parse (Text.ofString "drink tea")).answer coffee none) := by
  have h : (new Regex.backtracking (some teaHouse)).toOption.any fun s₀ =>
      (run Regex.backtracking 1 s₀
        (takeover ++ .call (.parse (Text.ofString "drink tea")) :: afterwards)).any fun s =>
          (s.calls[0]?.bind Call.answer?).isSome && (s.calls[1]?.bind Call.answer?).isSome := by
    decide +kernel
  have hforce : Event.inForce Regex.backtracking (some teaHouse) takeover = some coffeeHouse := by
    decide +kernel
  cases hnew : new Regex.backtracking (some teaHouse) with
  | error error => simp [hnew, Except.toOption] at h
  | ok s₀ =>
    simp only [hnew, Except.toOption, Option.any_some] at h
    cases hrun : run Regex.backtracking 1 s₀
        (takeover ++ .call (.parse (Text.ofString "drink tea")) :: afterwards) with
    | none => simp [hrun] at h
    | some s =>
      simp only [hrun, Option.any_some, Bool.and_eq_true] at h
      obtain ⟨hcheck, hparse⟩ := h
      have hsee := (calls_see_one_book (by decide) hnew hrun).1
      obtain ⟨config, tea, check, hconfig, htea, hc, hanswer, -⟩ := hsee [] .check _ rfl
      obtain ⟨config', coffee, parse, hconfig', hcoffee, hc', hanswer', -⟩ := hsee takeover _ _ rfl
      obtain rfl : teaHouse = config := Option.some.inj hconfig
      obtain rfl : coffeeHouse = config' := Option.some.inj (hforce.symm.trans hconfig')
      replace hc : s.calls[0]? = some check := hc
      replace hc' : s.calls[1]? = some parse := hc'
      rw [hc] at hcheck
      rw [hc'] at hparse
      obtain ⟨answer, hgiven⟩ := Option.isSome_iff_exists.1 hcheck
      obtain ⟨answer', hgiven'⟩ := Option.isSome_iff_exists.1 hparse
      obtain ⟨stopped, hstops, rfl⟩ := hanswer answer hgiven
      obtain ⟨stopped', hstops', rfl⟩ := hanswer' answer' hgiven'
      refine ⟨s₀, s, tea, coffee, check, parse, rfl, hrun, htea, hcoffee, hc, hc', ?_, hgiven'⟩
      cases stopped with
      | none => exact hgiven
      | some reason =>
        have hstop := hstops reason rfl
        simp [afterwards] at hstop

end Shared

end Book

end Phrasebook
