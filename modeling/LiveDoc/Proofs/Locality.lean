import LiveDoc.Proofs.Resolved
import LiveDoc.Proofs.Samples

/-!
# Parts of an evaluated document

A path leads from a document to one of its parts, by the positions that the parts have in their
containers. Evaluation keeps every container that is no call node: its kind, its length, its keys and
their order. So a path that passes through no call node leads to a part of the result as well, and
that part is what the part of the document comes to on its own, if no function heeds what happened
before its call.
-/

namespace LiveDoc

/-! ## Runs that do not heed the past -/

namespace Run

variable {α β : Type}

theorem constant_done (a : α) : (done a).Constant := fun _ _ => rfl

/-- A run that follows a constant one is constant if each run that may follow is. -/
theorem constant_andThen {r : Run α} {f : α → Run β} (constant : r.Constant)
    (next : ∀ a, r.Yields a → (f a).Constant) : (r.andThen f).Constant := by
  intro past other
  have same := constant past other
  cases ended : (r.after past).outcome with
  | error e =>
    rw [after_andThen_of_error ended, after_andThen_of_error (same ▸ ended)]
  | ok a =>
    rw [after_andThen_of_ok ended, after_andThen_of_ok (same ▸ ended)]
    exact next a ⟨past, ended⟩ _ _

/-- Telling an invocation does not change what a run comes to. -/
theorem constant_invocation {name : String} {arguments : List Value} {body : Run Value}
    {finish : Value → Run Value} (constant : (body.andThen finish).Constant) :
    (invocation name arguments body finish).Constant := by
  intro past other
  rw [after_invocation, after_invocation]
  exact constant past other

/-- Nor does a handler that turns each failure into another one make it heed the past. -/
theorem constant_handle_fail {r : Run α} {g : Failure → Failure} (constant : r.Constant) :
    (r.handle fun f => fail (g f)).Constant := by
  intro past other
  rw [after_handle_fail, after_handle_fail]
  exact congrArg (Except.mapError g) (constant past other)

/-- A constant run comes to every value that it may come to, whatever was shown before it. -/
theorem Constant.outcome {r : Run α} {a : α} (constant : r.Constant) (yields : r.Yields a)
    (past : List Event) : (r.after past).outcome = .ok a := by
  obtain ⟨before, ended⟩ := yields
  rw [constant past before, ended]

end Run

/-! ## Paths and outlines -/

/-- A path into a document: the position that the part has in each container on the way. -/
abbrev Path := List Nat

/-- The items of a list or a tuple, and the values of a mapping. -/
def Value.parts : Value → List Value
  | .list xs => xs
  | .tuple xs => xs
  | .mapping es => es.map Prod.snd
  | _ => []

/-- The part of a document to which a path leads. -/
def Value.descend? : Path → Value → Option Value
  | [], v => some v
  | i :: path, v => v.parts[i]?.bind (Value.descend? path)

/-- What a value is apart from its parts: the kind of a container with its length or its keys in
order, and any other value itself. -/
inductive Outline where
  | list (length : Nat)
  | tuple (length : Nat)
  | mapping (keys : List Value)
  | leaf (v : Value)

/-- The outline of a value. -/
def Value.outline : Value → Outline
  | .list xs => .list xs.length
  | .tuple xs => .tuple xs.length
  | .mapping es => .mapping (es.map Prod.fst)
  | v => .leaf v

namespace Engine

variable {index : TagIndex} {e : Engine}

/-- Whether no node above the end of a path is a call node. -/
def Clear (index : TagIndex) (document : Value) (path : Path) : Prop :=
  ∀ above, above <+: path → above ≠ path →
    ∀ whole, document.descend? above = some whole → callNode? index whole = none

/-- The document itself is literal if the path goes further. -/
theorem Clear.literal {document : Value} {i : Nat} {path : Path}
    (clear : Clear index document (i :: path)) : callNode? index document = none :=
  clear [] List.nil_prefix (List.cons_ne_nil i path).symm document rfl

/-- What is below the first step of a clear path is on a clear path. -/
theorem Clear.tail {document part : Value} {i : Nat} {path : Path}
    (clear : Clear index document (i :: path)) (inside : document.parts[i]? = some part) :
    Clear index part path := by
  intro above before short whole reached
  refine clear (i :: above) ?_ (fun same => short (List.cons.inj same).2) whole ?_
  · exact List.cons_prefix_cons.mpr ⟨rfl, before⟩
  · rw [Value.descend?, inside, Option.bind_some, reached]

/-- A path that is part of a clear one is clear. -/
theorem Clear.of_prefix {document : Value} {before path : Path} (clear : Clear index document path)
    (earlier : before <+: path) : Clear index document before := by
  intro above within short
  refine clear above (within.trans earlier) fun same => short ?_
  exact within.eq_of_length_le (same ▸ earlier.length_le)

/-! ## What a path leads to after evaluation -/

/-- Every item of a list is evaluated in its place. -/
theorem evaluateAll_getElem? {xs ys : List Value} {i : Nat} {x : Value}
    (yields : (e.evaluateAll true xs).Yields ys) (item : xs[i]? = some x) :
    ∃ y, ys[i]? = some y ∧ (e.evaluate true x).Yields y := by
  induction xs generalizing i ys with
  | nil => contradiction
  | cons first xs ih =>
    obtain ⟨y, here, yields⟩ := Run.yields_andThen yields
    obtain ⟨zs, rest, yields⟩ := Run.yields_andThen yields
    obtain rfl := Run.yields_done.mp yields
    cases i with
    | zero =>
      obtain rfl : first = x := Option.some.inj item
      exact ⟨y, rfl, here⟩
    | succ i =>
      obtain ⟨z, there, evaluated⟩ := ih rest item
      exact ⟨z, there, evaluated⟩

/-- The value of every entry is evaluated in its place. -/
theorem evaluateEntries_getElem? {es fs : Entries} {i : Nat} {x : Value}
    (yields : (e.evaluateEntries true es).Yields fs) (item : (es.map Prod.snd)[i]? = some x) :
    ∃ y, (fs.map Prod.snd)[i]? = some y ∧ (e.evaluate true x).Yields y := by
  induction es generalizing i fs with
  | nil => contradiction
  | cons first es ih =>
    obtain ⟨y, here, yields⟩ := Run.yields_andThen yields
    obtain ⟨gs, rest, yields⟩ := Run.yields_andThen yields
    obtain rfl := Run.yields_done.mp yields
    cases i with
    | zero =>
      obtain rfl : first.2 = x := Option.some.inj item
      exact ⟨y, rfl, here⟩
    | succ i =>
      obtain ⟨z, there, evaluated⟩ := ih rest item
      exact ⟨z, there, evaluated⟩

/-- Evaluation keeps the keys of entries and their order. -/
theorem evaluateEntries_keys {es fs : Entries} (yields : (e.evaluateEntries true es).Yields fs) :
    fs.map Prod.fst = es.map Prod.fst := by
  induction es generalizing fs with
  | nil => rw [← Run.yields_done.mp yields]
  | cons first es ih =>
    obtain ⟨y, -, yields⟩ := Run.yields_andThen yields
    obtain ⟨gs, rest, yields⟩ := Run.yields_andThen yields
    rw [← Run.yields_done.mp yields, List.map_cons, List.map_cons, ih rest]

/-- What is no call node keeps its outline. -/
theorem outline_of_evaluate {v result : Value} (literal : callNode? e.index v = none)
    (yields : (e.evaluate true v).Yields result) : result.outline = v.outline := by
  cases v with
  | list xs =>
    obtain ⟨ys, items, yields⟩ := Run.yields_andThen yields
    rw [← Run.yields_done.mp yields, Value.outline, Value.outline, evaluateAll_length e items]
  | tuple xs =>
    obtain ⟨ys, items, yields⟩ := Run.yields_andThen yields
    rw [← Run.yields_done.mp yields, Value.outline, Value.outline, evaluateAll_length e items]
  | mapping es =>
    rw [evaluate_mapping e literal] at yields
    obtain ⟨fs, entries, yields⟩ := Run.yields_andThen yields
    rw [← Run.yields_done.mp yields, Value.outline, Value.outline, evaluateEntries_keys entries]
  | _ => rw [← Run.yields_done.mp yields]

/-- Every part of what is no call node is evaluated in its place. -/
theorem parts_of_evaluate {v result x : Value} {i : Nat} (literal : callNode? e.index v = none)
    (yields : (e.evaluate true v).Yields result) (item : v.parts[i]? = some x) :
    ∃ y, result.parts[i]? = some y ∧ (e.evaluate true x).Yields y := by
  cases v with
  | list xs =>
    obtain ⟨ys, items, yields⟩ := Run.yields_andThen yields
    rw [← Run.yields_done.mp yields]
    exact evaluateAll_getElem? items item
  | tuple xs =>
    obtain ⟨ys, items, yields⟩ := Run.yields_andThen yields
    rw [← Run.yields_done.mp yields]
    exact evaluateAll_getElem? items item
  | mapping es =>
    rw [evaluate_mapping e literal] at yields
    obtain ⟨fs, entries, yields⟩ := Run.yields_andThen yields
    rw [← Run.yields_done.mp yields]
    exact evaluateEntries_getElem? entries item
  | _ => contradiction

/-- A clear path leads to a part of the result, and the part of the document may come to it. -/
theorem descend_evaluate {document result part : Value} {path : Path}
    (yields : (e.evaluate true document).Yields result)
    (reached : document.descend? path = some part) (clear : Clear e.index document path) :
    ∃ node, result.descend? path = some node ∧ (e.evaluate true part).Yields node := by
  induction path generalizing document result with
  | nil =>
    obtain rfl : document = part := Option.some.inj reached
    exact ⟨result, rfl, yields⟩
  | cons i path ih =>
    obtain ⟨x, item, further⟩ := Option.bind_eq_some_iff.mp reached
    obtain ⟨y, inside, evaluated⟩ := parts_of_evaluate clear.literal yields item
    obtain ⟨node, found, whole⟩ := ih evaluated further (clear.tail item)
    exact ⟨node, by rw [Value.descend?, inside, Option.bind_some, found], whole⟩

/-! ## Pure functions -/

/-- Whether no function of an engine heeds what was shown before it is called, and no callable value
that one returns does when it is applied to the data. -/
structure IsPure (e : Engine) : Prop where
  functions : ∀ {tag name : String}, e.index.lookup tag = some name → ∀ arguments,
    (e.call ((e.config.functions.lookup name).getD .null) arguments).Constant
  returned : ∀ {tag name : String}, e.index.lookup tag = some name → ∀ {arguments result},
    (e.call ((e.config.functions.lookup name).getD .null) arguments).Yields result →
      result.isCallable = true → (e.call result [e.data]).Constant

theorem constant_trace (tracing : Bool) (line : String) : (trace tracing line).Constant := by
  unfold trace
  split <;> exact fun _ _ => rfl

/-- An invocation through a tag is constant. -/
theorem IsPure.constant_invoke (pure : e.IsPure) {tag name : String}
    (known : e.index.lookup tag = some name) (arguments : List Value) :
    (e.invoke name arguments).Constant := by
  refine Run.constant_andThen (constant_trace _ _) fun _ _ => ?_
  refine Run.constant_handle_fail (Run.constant_invocation ?_)
  refine Run.constant_andThen (pure.functions known _) fun result yields => ?_
  unfold applyToData
  split
  · rename_i applied
    have callable : result.isCallable = true := (Bool.and_eq_true_iff.mp applied).2
    exact Run.constant_andThen (constant_trace _ _) fun _ _ => pure.returned known yields callable
  · exact Run.constant_done result

theorem constant_evaluateAll {xs : List Value}
    (items : ∀ x ∈ xs, (e.evaluate true x).Constant) : (e.evaluateAll true xs).Constant := by
  induction xs with
  | nil => exact Run.constant_done []
  | cons x xs ih =>
    refine Run.constant_andThen (items x List.mem_cons_self) fun y _ => ?_
    refine Run.constant_andThen (ih fun y inside => items y (List.mem_cons_of_mem x inside)) ?_
    exact fun ys _ => Run.constant_done _

theorem constant_evaluateEntries {es : Entries}
    (entries : ∀ entry ∈ es, (e.evaluate true entry.2).Constant) :
    (e.evaluateEntries true es).Constant := by
  induction es with
  | nil => exact Run.constant_done []
  | cons entry es ih =>
    refine Run.constant_andThen (entries entry List.mem_cons_self) fun y _ => ?_
    refine Run.constant_andThen
      (ih fun other inside => entries other (List.mem_cons_of_mem entry inside)) ?_
    exact fun fs _ => Run.constant_done _

/-- So is the evaluation of any document. -/
theorem IsPure.constant_evaluate (pure : e.IsPure) (v : Value) :
    (e.evaluate true v).Constant := by
  induction v using documentInduction e.index with
  | call v name source call arguments =>
    obtain ⟨tag, -, known⟩ := callNode?_eq_some.mp call
    rw [evaluate_of_callNode e call]
    exact Run.constant_andThen (constant_evaluateAll arguments) fun resolved _ =>
      pure.constant_invoke known resolved
  | list xs items =>
    exact Run.constant_andThen (constant_evaluateAll items) fun ys _ => Run.constant_done _
  | tuple xs items =>
    exact Run.constant_andThen (constant_evaluateAll items) fun ys _ => Run.constant_done _
  | mapping es literal entries =>
    rw [evaluate_mapping e literal]
    exact Run.constant_andThen (constant_evaluateEntries entries) fun fs _ => Run.constant_done _
  | leaf v leaf =>
    rw [evaluate_leaf e leaf]
    exact Run.constant_done v

/-! ## Locality -/

/-- A mapping is no call node unless it has a single entry with a tag as its key. -/
theorem callNode?_of_untagged {es : Entries}
    (untagged : ∀ tag source, es = [(.text tag, source)] → index.lookup tag = none) :
    callNode? index (.mapping es) = none := by
  rcases entries_cases es with ⟨tag, source, rfl⟩ | other
  · simp [callNode?, untagged tag source rfl]
  · simp [callNode?, other]

/-- Only a mapping has the outline of one. -/
theorem exists_mapping_of_outline {v : Value} {keys : List Value}
    (same : v.outline = .mapping keys) : ∃ es, v = .mapping es ∧ es.map Prod.fst = keys := by
  cases v with
  | mapping es => exact ⟨es, rfl, Outline.mapping.inj same⟩
  | _ => contradiction

/-- Evaluation is local and keeps outlines. If an engine with pure functions comes to a result for a
document, then every path through no call node leads to a node of the result: the one that the engine
comes to for the part of the document there alone, at any time. What is no call node at the end of the
path or above keeps its kind, its length, its keys and their order. So a mapping with no entry, with
several entries, or with a single one whose key is no tag is still a mapping with its keys, and a part
without call nodes comes out as it is. -/
theorem evaluate_part {document result part : Value} {path : Path} {past : List Event}
    (pure : e.IsPure) (ended : ((e.evaluate true document).after past).outcome = .ok result)
    (reached : document.descend? path = some part) (clear : Clear e.index document path) :
    ∃ node, result.descend? path = some node ∧
      (∀ other, ((e.evaluate true part).after other).outcome = .ok node) ∧
      (∀ before, before <+: path → ∀ whole, document.descend? before = some whole →
        callNode? e.index whole = none →
          ∃ kept, result.descend? before = some kept ∧ kept.outline = whole.outline) ∧
      (∀ es, part = .mapping es →
        (∀ tag source, es = [(.text tag, source)] → e.index.lookup tag = none) →
          ∃ fs, node = .mapping fs ∧ fs.map Prod.fst = es.map Prod.fst) ∧
      (callNodes e.index true part = [] → node = part) := by
  have yields : (e.evaluate true document).Yields result := ⟨past, ended⟩
  obtain ⟨node, found, evaluated⟩ := descend_evaluate yields reached clear
  refine ⟨node, found, (pure.constant_evaluate part).outcome evaluated, ?_, ?_, fun resolved => ?_⟩
  · intro before earlier whole within literal
    obtain ⟨kept, there, yielded⟩ := descend_evaluate yields within (clear.of_prefix earlier)
    exact ⟨kept, there, outline_of_evaluate literal yielded⟩
  · rintro es rfl untagged
    exact exists_mapping_of_outline
      (outline_of_evaluate (callNode?_of_untagged untagged) evaluated)
  · rw [evaluate_of_resolved e part resolved] at evaluated
    exact (Run.yields_done.mp evaluated).symm

/-- An engine that knows a single function, which packs its arguments into a list. -/
def packing : Engine := ⟨Sample.call, false, Sample.config, .null, [("$pack", "pack")]⟩

theorem call_pack (arguments : List Value) :
    packing.call CombinatorName.pack.value arguments = .done (.list arguments) := by
  have counted : (Routine.combinator .pack).checkCount arguments.length = .ok () := by
    simp [Routine.checkCount, Routine.profile, Routine.plain, Parameters.check, Parameters.least]
  change (Run.ofFault ((Routine.combinator .pack).checkCount arguments.length)).andThen _ = _
  rw [counted]
  rfl

/-- The function is pure and returns nothing that could be called. -/
theorem isPure_packing : packing.IsPure := by
  have function : ∀ {tag name : String}, packing.index.lookup tag = some name →
      (packing.config.functions.lookup name).getD .null = CombinatorName.pack.value := by
    intro tag name known
    rw [packing, List.lookup_cons] at known
    split at known
    · rw [← Option.some.inj known]
      rfl
    · contradiction
  refine ⟨fun known arguments => ?_, fun known arguments result yields callable => ?_⟩
  · rw [function known, call_pack]
    exact Run.constant_done _
  · rw [function known, call_pack] at yields
    rw [← Run.yields_done.mp yields] at callable
    contradiction

/-- A call node within a tuple within a mapping, and one beside that mapping. -/
def layered : Value :=
  .list [.mapping [(.text "kept", .mapping []),
      (.text "pair", .tuple [.int 1, Sample.calling "pack" (.list [.int 2, .int 3])])],
    Sample.calling "pack" (.text "end")]

/-- The call node within the tuple comes to the same list there and alone. -/
theorem layered_part :
    packing.IsPure ∧ Clear packing.index layered [0, 1, 1] ∧
      ∃ result, (packing.evaluate true layered).outcome = .ok result ∧
        result.descend? [0, 1, 1] = some (.list [.int 2, .int 3]) ∧
        (packing.evaluate true (Sample.calling "pack" (.list [.int 2, .int 3]))).outcome =
          .ok (.list [.int 2, .int 3]) := by
  have clear : Clear packing.index layered [0, 1, 1] := by
    intro above earlier short whole reached
    rw [← List.mem_inits] at earlier
    simp only [List.inits, List.map, List.mem_cons, List.not_mem_nil, or_false] at earlier
    rcases earlier with rfl | rfl | rfl | rfl
    · rw [← Option.some.inj reached]
      rfl
    · rw [← Option.some.inj reached]
      rfl
    · rw [← Option.some.inj reached]
      rfl
    · exact absurd rfl short
  have ended : (packing.evaluate true layered).outcome =
      .ok (.list [.mapping [(.text "kept", .mapping []),
        (.text "pair", .tuple [.int 1, .list [.int 2, .int 3]])], .list [.text "end"]]) := rfl
  obtain ⟨node, found, alone, -⟩ := evaluate_part isPure_packing ended rfl clear
  obtain rfl : .list [.int 2, .int 3] = node := Option.some.inj found
  exact ⟨isPure_packing, clear, _, ended, found, alone []⟩

end Engine

end LiveDoc
