import LiveDoc.Proofs.Inspection
import LiveDoc.Proofs.Structured

/-!
# Resolved documents

A document without call nodes is resolved: an engine that goes through it leaves it alone, and so does
one that a reader drives. Filling in resolved results leaves nothing to resolve, because what was no
call node never becomes one. So the result of an evaluation whose functions return resolved values is
resolved itself, for every engine with the same tags.
-/

namespace LiveDoc

/-- Whether a run comes to the same outcome whatever was shown before it. -/
def Run.Constant {α : Type} (r : Run α) : Prop :=
  ∀ past other, (r.after past).outcome = (r.after other).outcome

namespace Engine

variable {index : TagIndex} {v : Value} {results : List Value}

/-! ## Filling in resolved results -/

/-- The items of a list are resolved if each of them is, with some of the results filled in. -/
theorem callNodesAll_fillAll {xs : List Value}
    (items : ∀ x ∈ xs, ∀ results : List Value, (∀ r ∈ results, callNodes index true r = []) →
      callNodes index true (fill index true x results) = [])
    (resolved : ∀ r ∈ results, callNodes index true r = []) :
    callNodesAll index true (fillAll index true xs results) = [] := by
  induction xs generalizing results with
  | nil => rfl
  | cons x xs ih =>
    have first := items x List.mem_cons_self (results.take (callNodes index true x).length)
      fun r inside => resolved r (List.mem_of_mem_take inside)
    have rest : callNodesAll index true
        (fillAll index true xs (results.drop (callNodes index true x).length)) = [] :=
      ih (fun y inside => items y (List.mem_cons_of_mem x inside))
        fun r inside => resolved r (List.mem_of_mem_drop inside)
    rw [fillAll, callNodesAll, first, rest]
    rfl

/-- The same for the values of entries. -/
theorem callNodesOfEntries_fillEntries {es : Entries}
    (entries : ∀ entry ∈ es, ∀ results : List Value,
      (∀ r ∈ results, callNodes index true r = []) →
        callNodes index true (fill index true entry.2 results) = [])
    (resolved : ∀ r ∈ results, callNodes index true r = []) :
    callNodesOfEntries index true (fillEntries index true es results) = [] := by
  induction es generalizing results with
  | nil => rfl
  | cons entry es ih =>
    have first := entries entry List.mem_cons_self
      (results.take (callNodes index true entry.2).length)
      fun r inside => resolved r (List.mem_of_mem_take inside)
    have rest : callNodesOfEntries index true
        (fillEntries index true es (results.drop (callNodes index true entry.2).length)) = [] :=
      ih (fun other inside => entries other (List.mem_cons_of_mem entry inside))
        fun r inside => resolved r (List.mem_of_mem_drop inside)
    rw [fillEntries, callNodesOfEntries, first, rest]
    rfl

/-- A document with resolved results in the place of its call nodes is resolved. -/
theorem callNodes_fill (v : Value) (results : List Value)
    (resolved : ∀ r ∈ results, callNodes index true r = []) :
    callNodes index true (fill index true v results) = [] := by
  induction v using documentInduction index generalizing results with
  | call v name source call =>
    rw [fill_of_callNode call]
    cases results with
    | nil => rfl
    | cons r results =>
      rw [List.getLastD_cons]
      exact resolved _ List.getLastD_mem_cons
  | list xs items => exact callNodesAll_fillAll items resolved
  | tuple xs items => exact callNodesAll_fillAll items resolved
  | mapping es literal entries =>
    rw [fill_mapping literal,
      callNodes_mapping (callNode?_of_keys literal (fillEntries_keys true es results))]
    exact callNodesOfEntries_fillEntries entries resolved
  | leaf v leaf => rw [fill_leaf leaf, callNodes_leaf leaf]

/-! ## Going through a resolved document -/

/-- Going through values that stay as they are keeps them. -/
theorem evaluateAll_of_resolved {e : Engine} {xs : List Value}
    (items : ∀ x ∈ xs, callNodes e.index true x = [] → e.evaluate true x = .done x)
    (resolved : callNodesAll e.index true xs = []) : e.evaluateAll true xs = .done xs := by
  induction xs with
  | nil => rfl
  | cons x xs ih =>
    obtain ⟨first, rest⟩ := List.append_eq_nil_iff.mp resolved
    rw [evaluateAll, items x List.mem_cons_self first, Run.done_andThen,
      ih (fun y inside => items y (List.mem_cons_of_mem x inside)) rest, Run.done_andThen]

/-- The same for the values of entries. -/
theorem evaluateEntries_of_resolved {e : Engine} {es : Entries}
    (entries : ∀ entry ∈ es, callNodes e.index true entry.2 = [] →
      e.evaluate true entry.2 = .done entry.2)
    (resolved : callNodesOfEntries e.index true es = []) :
    e.evaluateEntries true es = .done es := by
  induction es with
  | nil => rfl
  | cons entry es ih =>
    obtain ⟨first, rest⟩ := List.append_eq_nil_iff.mp resolved
    rw [evaluateEntries, entries entry List.mem_cons_self first, Run.done_andThen,
      ih (fun other inside => entries other (List.mem_cons_of_mem entry inside)) rest,
      Run.done_andThen]

/-- An engine leaves a resolved document alone. -/
theorem evaluate_of_resolved (e : Engine) (v : Value) (resolved : callNodes e.index true v = []) :
    e.evaluate true v = .done v := by
  induction v using documentInduction e.index with
  | call v name source call => simp [callNodes_of_callNode call] at resolved
  | list xs items =>
    rw [evaluate, if_pos rfl, evaluateAll_of_resolved items resolved, Run.done_andThen]
  | tuple xs items =>
    rw [evaluate, if_pos rfl, evaluateAll_of_resolved items resolved, Run.done_andThen]
  | mapping es literal entries =>
    rw [callNodes_mapping literal] at resolved
    rw [evaluate_mapping e literal, evaluateEntries_of_resolved entries resolved, Run.done_andThen]
  | leaf v leaf => exact evaluate_leaf e leaf

/-! ## The result of an evaluation -/

variable {e : Engine} {past : List Event}

/-- The results that call nodes are executed with are those of their invocations. -/
theorem results_of_execute {deep : Bool} {nodes : List CallNode} {prior : List Value}
    (ended : ((e.execute deep (e.resolving deep) nodes prior).after past).outcome = .ok results) :
    results =
      Invocation.results ((e.execute deep (e.resolving deep) nodes prior).after past).calls := by
  have account := e.execute_account deep nodes prior past
  have all : ∀ call ∈ ((e.execute deep (e.resolving deep) nodes prior).after past).calls,
      ∃ v, call.outcome = .ok v := by
    intro call inside
    cases outcome : call.outcome with
    | ok v => exact ⟨v, rfl⟩
    | error f =>
      obtain ⟨before, rest, split⟩ := List.append_of_mem inside
      have failed := (account.broken before call rest f split outcome).2
      rw [ended] at failed
      contradiction
  exact Except.ok.inj (ended.symm.trans (account.complete all).2)

/-- An evaluation whose functions return resolved values comes to a resolved value. -/
theorem callNodes_of_evaluate {document result : Value}
    (ended : ((e.evaluate true document).after past).outcome = .ok result)
    (returns : ∀ v ∈ Invocation.results ((e.evaluate true document).after past).calls,
      callNodes e.index true v = []) :
    callNodes e.index true result = [] := by
  rw [evaluate_eq_execute e document [], Run.after_andThen_done] at ended returns
  cases executed : ((e.execute true (e.resolving true) (callNodes e.index true document) []).after
      past).outcome with
  | error f =>
    rw [executed] at ended
    contradiction
  | ok results =>
    rw [executed] at ended
    obtain rfl : fill e.index true document results = result := Except.ok.inj ended
    refine callNodes_fill document results fun r inside => returns r ?_
    rwa [results_of_execute executed] at inside

/-! ## Engines with the same tags -/

variable {call : Caller} {tracing : Bool} {c : Config} {data : Value}

/-- A tag that does not heed what was shown gives names the same tags at any time. -/
theorem constant_addTags {tag : Value} (constant : ∀ name, (call tag [.text name]).Constant)
    (names : List String) (index : TagIndex) : (addTags call tag names index).Constant := by
  induction names generalizing index with
  | nil => exact fun _ _ => rfl
  | cons name names ih =>
    intro past other
    have same : ((call tag [.text name]).apart.after past).outcome =
        ((call tag [.text name]).apart.after other).outcome := constant name past other
    cases ended : ((call tag [.text name]).apart.after past).outcome with
    | error f =>
      rw [addTags, Run.after_andThen_of_error ended, Run.after_andThen_of_error (same ▸ ended)]
    | ok t =>
      rw [addTags, Run.after_andThen_of_ok ended, Run.after_andThen_of_ok (same ▸ ended)]
      simp only [Course.followedBy]
      split
      · exact ih _ _ _
      · rfl
      · exact ih _ _ _

/-- An engine is made of the tags of its configuration. -/
theorem make_outcome (call : Caller) (tracing : Bool) (c : Config) (data : Value)
    (past : List Event) :
    ((make call tracing c data).after past).outcome =
      ((tagIndex call c).after past).outcome.map fun index => ⟨call, tracing, c, data, index⟩ := by
  rw [make, Run.after_andThen_done]

/-- Whatever the data, the flags and the events before, engines for the same functions and tag have
the same tags, and if one can be made the other can. -/
theorem make_again {tracing' : Bool} {c' : Config} {data' : Value}
    (constant : ∀ name, (call c.tag [.text name]).Constant)
    (functions : c'.functions = c.functions) (tag : c'.tag = c.tag)
    (made : (make call tracing c data).Yields e) (past : List Event) :
    ((make call tracing' c' data').after past).outcome =
      .ok ⟨call, tracing', c', data', e.index⟩ := by
  obtain ⟨before, ended⟩ := made
  have same : ((tagIndex call c').after past).outcome = ((tagIndex call c).after before).outcome := by
    unfold tagIndex
    rw [functions, tag]
    exact constant_addTags constant _ [] past before
  rw [make_outcome] at ended ⊢
  rw [same]
  cases tags : ((tagIndex call c).after before).outcome with
  | error f =>
    rw [tags] at ended
    contradiction
  | ok index =>
    rw [tags] at ended
    rw [← Except.ok.inj ended]
    rfl

/-- A transformation comes to run an engine with the same tags, unless its diagnostic fails. -/
theorem exists_starts_again (tracing' : Bool) {c' : Config} (document data' : Value)
    {past : List Event} (constant : ∀ name, (call c.tag [.text name]).Constant)
    (functions : c'.functions = c.functions) (tag : c'.tag = c.tag)
    (made : (make call tracing c data).Yields e)
    (told : ((diagnose call c').after past).outcome = .ok ()) :
    ∃ start, Starts call tracing' c' document data' past
      ⟨call, tracing', c', data', e.index⟩ start := by
  have prepared : ((prepare call tracing' c' data').after past).outcome =
      .ok ⟨call, tracing', c', data', e.index⟩ := by
    rw [prepare, Run.after_andThen_of_ok told]
    exact make_again constant functions tag made _
  exact ⟨_, starts_of_prepared prepared rfl⟩

/-- A reader that drives an engine leaves a resolved JSON document alone. -/
theorem run_of_resolved (e : Engine) {document : Value} (json : document.IsJson)
    (other : document.isText = false) (resolved : callNodes e.index true document = []) :
    e.run .driverFed document = .done document := by
  obtain ⟨t, rfl, distinct, fed, -⟩ := run_of_presents e (.structured json other)
  rw [fed]
  exact resolve_literal e t (Json.Tree.isLiteral_of_distinct t distinct resolved)

/-- Evaluation is idempotent where functions return resolved values: if a document comes to a result
and what every invocation comes to in the end is resolved, then the result is resolved. An engine that
is made again for the same functions and tag, with any data and flags, invokes nothing for the result
and comes to the result itself. So does a transformation of it in the mode in which a reader drives
the engine, if the result is a JSON document other than a text; it comes to run unless its diagnostic
fails. The tag has to be a function of names alone. -/
theorem evaluate_idempotent {document result : Value} (made : (make call tracing c data).Yields e)
    (constant : ∀ name, (call c.tag [.text name]).Constant)
    (ended : ((e.evaluate true document).after past).outcome = .ok result)
    (returns : ∀ v ∈ Invocation.results ((e.evaluate true document).after past).calls,
      callNodes e.index true v = []) :
    callNodes e.index true result = [] ∧
      ∀ (tracing' : Bool) (c' : Config) (data' : Value) (later : List Event),
        c'.functions = c.functions → c'.tag = c.tag →
          (∃ again, ((make call tracing' c' data').after later).outcome = .ok again ∧
            again.index = e.index ∧ again.evaluate true result = .done result) ∧
          (result.IsJson → result.isText = false → Mode.select result c' = .driverFed →
            ((diagnose call c').after later).outcome = .ok () →
              ((transformWith call tracing' c' result data').after later).calls = [] ∧
              ((transformWith call tracing' c' result data').after later).outcome =
                .ok result) := by
  have resolved := callNodes_of_evaluate ended returns
  refine ⟨resolved, fun tracing' c' data' later functions tag => ⟨?_, ?_⟩⟩
  · exact ⟨_, make_again constant functions tag made later, rfl, evaluate_of_resolved _ _ resolved⟩
  · intro json other mode told
    obtain ⟨start, starts⟩ := exists_starts_again tracing' result data' constant functions tag made
      told
    have kept := run_of_resolved ⟨call, tracing', c', data', e.index⟩ json other resolved
    obtain ⟨calls, outcome⟩ := starts.transform
    rw [mode, kept] at calls outcome
    exact ⟨calls, outcome⟩

/-- Whether an engine is made that passes a test. -/
def makes (call : Caller) (tracing : Bool) (c : Config) (data : Value) (test : Engine → Bool) :
    Bool :=
  match (make call tracing c data).outcome with
  | .ok e => test e
  | .error _ => false

/-- A passed test has an engine that passes it. -/
theorem exists_made {test : Engine → Bool} (passed : makes call tracing c data test = true) :
    ∃ e, (make call tracing c data).Yields e ∧ test e = true := by
  unfold makes at passed
  split at passed
  · exact ⟨_, ⟨[], ‹_›⟩, passed⟩
  · contradiction

/-- A list of the number one and of what a function returns that returns nothing. -/
def listing : Value :=
  Sample.calling "pack" (.list [.int 1, Sample.calling "nothing" .null])

/-- Whether a run comes to the list of the number one and nothing. -/
def comesToListing (course : Course Value) : Bool :=
  match course.outcome with
  | .ok (.list [.int 1, .null]) => true
  | _ => false

theorem outcome_of_comesToListing {course : Course Value} (comes : comesToListing course = true) :
    course.outcome = .ok (.list [.int 1, .null]) := by
  unfold comesToListing at comes
  split at comes
  · assumption
  · contradiction

/-- An engine with other data, and a reader that drives one, leave the evaluated list alone. -/
theorem listing_idempotent :
    ∃ e, (make Sample.call false Sample.config .null).Yields e ∧
      ((e.evaluate true listing).after []).outcome = .ok (.list [.int 1, .null]) ∧
      callNodes e.index true (.list [.int 1, .null]) = [] ∧
      (∃ again, ((make Sample.call false Sample.config (.int 2)).after []).outcome = .ok again ∧
        again.evaluate true (.list [.int 1, .null]) = .done (.list [.int 1, .null])) ∧
      ((transformWith Sample.call false Sample.config (.list [.int 1, .null]) (.int 2)).after
        []).outcome = .ok (.list [.int 1, .null]) := by
  obtain ⟨e, made, passed⟩ := exists_made
    (by decide +kernel : makes Sample.call false Sample.config .null (fun e =>
      comesToListing ((e.evaluate true listing).after []) &&
        (Invocation.results ((e.evaluate true listing).after []).calls).all fun v =>
          (callNodes e.index true v).isEmpty) = true)
  obtain ⟨comes, returns⟩ := Bool.and_eq_true_iff.mp passed
  have ended := outcome_of_comesToListing comes
  have constant : ∀ name, (Sample.call Sample.config.tag [.text name]).Constant :=
    fun _ _ _ => rfl
  have json : (Value.list [.int 1, .null]).IsJson :=
    ⟨(by decide +kernel : Value.isOversized 1 = false), trivial, trivial⟩
  obtain ⟨resolved, again⟩ := evaluate_idempotent made constant ended fun v inside =>
    List.isEmpty_iff.mp (List.all_eq_true.mp returns v inside)
  obtain ⟨⟨other, remade, -, kept⟩, driven⟩ := again false Sample.config (.int 2) [] rfl rfl
  exact ⟨e, made, ended, resolved, ⟨other, remade, kept⟩, (driven json rfl rfl rfl).2⟩

end Engine

end LiveDoc
