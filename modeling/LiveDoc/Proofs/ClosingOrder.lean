import LiveDoc.Json.Tree
import LiveDoc.Proofs.Course

/-!
# Objects in the order in which they close

A reader that hands every object to a hook as soon as it is complete is a fold over the objects of a
text in the order in which they close: the hook is called once for each, with the mapping whose objects
have been replaced by what the hook returned for them, and the value of the text is that of its tree
with all objects replaced. When the hook fails, the fold ends with its failure.
-/

namespace LiveDoc.Json

/-- The members of an object. -/
abbrev Members := List (String × Tree)

namespace Tree

mutual

/-- The members of every object in a tree, in the order in which the objects close. -/
def objects : Tree → List Members
  | .array ts => objectsAll ts
  | .object ms => objectsOfMembers ms ++ [ms]
  | _ => []

/-- The same for a list of trees. -/
def objectsAll : List Tree → List Members
  | [] => []
  | t :: ts => objects t ++ objectsAll ts

/-- The same for the values of members. -/
def objectsOfMembers : Members → List Members
  | [] => []
  | (_, t) :: ms => objects t ++ objectsOfMembers ms

end

theorem objectsAll_append (ts us : List Tree) :
    objectsAll (ts ++ us) = objectsAll ts ++ objectsAll us := by
  induction ts with
  | nil => rfl
  | cons t ts ih => rw [List.cons_append, objectsAll, objectsAll, ih, List.append_assoc]

theorem objectsAll_singleton (t : Tree) : objectsAll [t] = objects t := List.append_nil _

mutual

/-- The value of a tree with its objects replaced by results, one for each of them in that order. -/
def fill : Tree → List Value → Value
  | .null, _ => .null
  | .bool b, _ => .bool b
  | .int n, _ => .int n
  | .float x, _ => .float x
  | .text s, _ => .text s
  | .array ts, results => .list (fillAll ts results)
  | .object _, results => results.getLastD .null

/-- The same for a list of trees. -/
def fillAll : List Tree → List Value → List Value
  | [], _ => []
  | t :: ts, results =>
    fill t (results.take (objects t).length) :: fillAll ts (results.drop (objects t).length)

end

/-- The keys and values of members, with the objects in the values replaced by results. -/
def fillMembers : Members → List Value → List (Value × Value)
  | [], _ => []
  | (k, t) :: ms, results =>
    (.text k, fill t (results.take (objects t).length)) ::
      fillMembers ms (results.drop (objects t).length)

/-- The mapping of members whose objects were the last to be replaced. A repeated key keeps its first
place and its last value. -/
def mappingAfter (ms : Members) (results : List Value) : Value :=
  .mapping (Entries.ofPairs
    (fillMembers ms (results.drop (results.length - (objectsOfMembers ms).length))))

mutual

/-- A tree whose objects are replaced by their own mappings has its own value. -/
theorem fill_own : ∀ t : Tree,
    t.fill ((objects t).map fun ms => (object ms).toValue) = t.toValue
  | .array ts => by rw [objects, fill, toValue, fillAll_own ts]
  | .object ms => by simp [objects, fill]
  | .null => rfl
  | .bool _ => rfl
  | .int _ => rfl
  | .float _ => rfl
  | .text _ => rfl

/-- The same for a list of trees. -/
theorem fillAll_own : ∀ ts : List Tree,
    fillAll ts ((objectsAll ts).map fun ms => (object ms).toValue) = toValues ts
  | [] => rfl
  | t :: ts => by
    rw [objectsAll, List.map_append, fillAll, toValues,
      List.take_left' (List.length_map _), List.drop_left' (List.length_map _), fill_own t,
      fillAll_own ts]

end

variable (hook : Value → Run Value)

/-- Hands objects to a hook, one after the other, and collects what it returns. `prior` are the results
for the objects before them. -/
def hookEach : List Members → List Value → Run (List Value)
  | [], _ => .done []
  | ms :: later, prior =>
    (hook (mappingAfter ms prior)).andThen fun result =>
      (hookEach later (prior ++ [result])).andThen fun results => .done (result :: results)

/-- Objects in two parts are handed over one part after the other. -/
theorem hookEach_append (first second : List Members) (prior : List Value) :
    hookEach hook (first ++ second) prior =
      (hookEach hook first prior).andThen fun results =>
        (hookEach hook second (prior ++ results)).andThen fun later => .done (results ++ later) := by
  induction first generalizing prior with
  | nil => simp [hookEach]
  | cons ms first ih => simp [hookEach, ih, Run.andThen_assoc]

variable {hook}

/-- There is one result for every object. -/
theorem hookEach_length {objects : List Members} {prior results : List Value}
    (yields : (hookEach hook objects prior).Yields results) : results.length = objects.length := by
  induction objects generalizing prior results with
  | nil =>
    rw [← Run.yields_done.mp yields]
    rfl
  | cons ms later ih =>
    obtain ⟨result, -, yields⟩ := Run.yields_andThen yields
    obtain ⟨rest, others, yields⟩ := Run.yields_andThen yields
    rw [← Run.yields_done.mp yields, List.length_cons, ih others, List.length_cons]

/-- The latest results are those that were added last. -/
theorem mappingAfter_append (ms : Members) (prior : List Value) {results : List Value}
    (each : results.length = (objectsOfMembers ms).length) :
    mappingAfter ms (prior ++ results) = .mapping (Entries.ofPairs (fillMembers ms results)) := by
  simp [mappingAfter, ← each]

variable (hook)

/-- An object is handed over after everything in it. -/
theorem resolve_object {ms : Members}
    (members : ∀ prior, resolveMembers hook ms =
      (hookEach hook (objectsOfMembers ms) prior).andThen fun results =>
        .done (fillMembers ms results)) (prior : List Value) :
    (object ms).resolve hook =
      (hookEach hook (objects (.object ms)) prior).andThen fun results =>
        .done ((object ms).fill results) := by
  rw [resolve, members prior, objects, hookEach_append]
  simp only [Run.andThen_assoc, Run.done_andThen]
  refine Run.andThen_congr fun results yields => ?_
  simp [hookEach, fill, mappingAfter_append ms prior (hookEach_length yields), Run.andThen_assoc]

mutual

/-- A reader that drives a hook is a fold over the objects in the order in which they close. -/
theorem resolve_eq_hookEach : ∀ (t : Tree) (prior : List Value),
    t.resolve hook =
      (hookEach hook t.objects prior).andThen fun results => .done (t.fill results)
  | .array ts, prior => by
    simp [resolve, objects, fill, resolveList_eq_hookEach ts prior, Run.andThen_assoc]
  | .object ms, prior => resolve_object hook (resolveMembers_eq_hookEach ms) prior
  | .null, _ => rfl
  | .bool _, _ => rfl
  | .int _, _ => rfl
  | .float _, _ => rfl
  | .text _, _ => rfl

/-- The same for a list of trees. -/
theorem resolveList_eq_hookEach : ∀ (ts : List Tree) (prior : List Value),
    resolveList hook ts =
      (hookEach hook (objectsAll ts) prior).andThen fun results => .done (fillAll ts results)
  | [], _ => rfl
  | t :: ts, prior => by
    rw [resolveList, resolve_eq_hookEach t prior, objectsAll, hookEach_append]
    simp only [Run.andThen_assoc, Run.done_andThen]
    refine Run.andThen_congr fun results yields => ?_
    rw [resolveList_eq_hookEach ts (prior ++ results)]
    simp [Run.andThen_assoc, fillAll, ← hookEach_length yields]

/-- The same for the members of an object. -/
theorem resolveMembers_eq_hookEach : ∀ (ms : Members) (prior : List Value),
    resolveMembers hook ms =
      (hookEach hook (objectsOfMembers ms) prior).andThen fun results =>
        .done (fillMembers ms results)
  | [], _ => rfl
  | (k, t) :: ms, prior => by
    rw [resolveMembers, resolve_eq_hookEach t prior, objectsOfMembers, hookEach_append]
    simp only [Run.andThen_assoc, Run.done_andThen]
    refine Run.andThen_congr fun results yields => ?_
    rw [resolveMembers_eq_hookEach ms (prior ++ results)]
    simp [Run.andThen_assoc, fillMembers, ← hookEach_length yields]

end

end Tree

end LiveDoc.Json
