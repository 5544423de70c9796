import LiveDoc.Proofs.Classification
import LiveDoc.Proofs.Locality

/-!
# Larger registries

Functions that are added behind those of a registry change nothing for a document in which their tags
do not stand. A tag that an added function shares with an earlier one stays with the earlier one, and
what functions return is never searched for tags. So the two engines take the same course.
-/

namespace LiveDoc

namespace Value

/-- Whether a value stands somewhere in another one, or is that value. -/
def Contains (whole part : Value) : Prop := ∃ path, whole.descend? path = some part

theorem contains_self (v : Value) : v.Contains v := ⟨[], rfl⟩

/-- What stands in a part of a value stands in the value. -/
theorem Contains.of_part {whole x part : Value} (item : x ∈ whole.parts) (inside : x.Contains part) :
    whole.Contains part := by
  obtain ⟨i, found⟩ := List.getElem?_of_mem item
  obtain ⟨path, reached⟩ := inside
  exact ⟨i :: path, by rw [descend?, found, Option.bind_some, reached]⟩

/-- A value stands in another one if it is that value or stands in a part of it. -/
theorem contains_iff {whole part : Value} :
    whole.Contains part ↔ part = whole ∨ ∃ x ∈ whole.parts, x.Contains part := by
  constructor
  · rintro ⟨path, reached⟩
    cases path with
    | nil => exact .inl (Option.some.inj reached).symm
    | cons i path =>
      obtain ⟨x, item, further⟩ := Option.bind_eq_some_iff.mp reached
      exact .inr ⟨x, List.mem_of_getElem? item, path, further⟩
  · rintro (rfl | ⟨x, item, inside⟩)
    · exact part.contains_self
    · exact inside.of_part item

end Value

/-- A configuration with more functions behind its own. -/
def Config.extend (c : Config) (extra : Options) : Config :=
  { c with functions := c.functions ++ extra }

namespace Engine

/-! ## Engines that agree on a document -/

section

variable {e f : Engine} {v : Value}

/-- What stands in an argument of a call node stands in the node. -/
theorem contains_argument {index : TagIndex} {name : String} {source a part : Value}
    (call : callNode? index v = some (name, source)) (argument : a ∈ normalizeArguments source)
    (inside : a.Contains part) : v.Contains part := by
  obtain ⟨key, rfl, -⟩ := callNode?_eq_some.mp call
  refine Value.Contains.of_part (x := source) (List.mem_singleton.mpr rfl) ?_
  unfold normalizeArguments at argument
  split at argument
  · exact inside.of_part argument
  · exact inside.of_part argument
  · rwa [← List.mem_singleton.mp argument]

theorem evaluateAll_congr {xs : List Value}
    (items : ∀ x ∈ xs, f.evaluate true x = e.evaluate true x) :
    f.evaluateAll true xs = e.evaluateAll true xs := by
  induction xs with
  | nil => rfl
  | cons x xs ih =>
    rw [evaluateAll, evaluateAll, items x List.mem_cons_self,
      ih fun y inside => items y (List.mem_cons_of_mem x inside)]

theorem evaluateEntries_congr {es : Entries}
    (entries : ∀ entry ∈ es, f.evaluate true entry.2 = e.evaluate true entry.2) :
    f.evaluateEntries true es = e.evaluateEntries true es := by
  induction es with
  | nil => rfl
  | cons entry es ih =>
    rw [evaluateEntries, evaluateEntries, entries entry List.mem_cons_self,
      ih fun other inside => entries other (List.mem_cons_of_mem entry inside)]

/-- Engines that find the same call nodes in a document, and invoke the same functions for them, take
the same course. -/
theorem evaluate_congr
    (nodes : ∀ part, v.Contains part → callNode? f.index part = callNode? e.index part)
    (invoked : ∀ part name source, v.Contains part → callNode? e.index part = some (name, source) →
      f.invoke name = e.invoke name) :
    f.evaluate true v = e.evaluate true v := by
  induction v using documentInduction e.index with
  | call v name source call arguments =>
    have here : callNode? f.index v = some (name, source) := (nodes v v.contains_self).trans call
    rw [evaluate_of_callNode e call, evaluate_of_callNode f here,
      invoked v name source v.contains_self call, evaluateAll_congr]
    exact fun a argument => arguments a argument
      (fun part inside => nodes part (contains_argument call argument inside))
      fun part name source inside =>
        invoked part name source (contains_argument call argument inside)
  | list xs items =>
    rw [evaluate, evaluate, if_pos rfl, if_pos rfl, evaluateAll_congr]
    exact fun x item => items x item (fun part inside => nodes part (inside.of_part item))
      fun part name source inside => invoked part name source (inside.of_part item)
  | tuple xs items =>
    rw [evaluate, evaluate, if_pos rfl, if_pos rfl, evaluateAll_congr]
    exact fun x item => items x item (fun part inside => nodes part (inside.of_part item))
      fun part name source inside => invoked part name source (inside.of_part item)
  | mapping es literal entries =>
    have here : callNode? f.index (.mapping es) = none := (nodes _ (Value.contains_self _)).trans literal
    rw [evaluate_mapping e literal, evaluate_mapping f here, evaluateEntries_congr]
    intro entry inside
    have part : entry.2 ∈ (Value.mapping es).parts := List.mem_map_of_mem inside
    exact entries entry inside (fun inner within => nodes inner (within.of_part part))
      fun inner name source within => invoked inner name source (within.of_part part)
  | leaf v leaf => rw [evaluate_leaf e leaf, evaluate_leaf f leaf]

end

/-! ## Added functions -/

section

variable {call : Caller} {c : Config} {extra : Options} {tagOf : String → Value} {document : Value}

/-- A name that some function has is looked up among the functions in front. -/
theorem lookup_registered {registry : Options} {name : String}
    (registered : name ∈ registry.map Prod.fst) :
    (registry ++ extra).lookup name = registry.lookup name := by
  rw [List.lookup_append]
  cases known : registry.lookup name with
  | some f => rfl
  | none =>
    obtain ⟨function, inside, rfl⟩ := List.mem_map.mp registered
    have absent := List.lookup_eq_none_iff.mp known function inside
    simp at absent

/-- A tag is first looked for among the functions in front. An added function counts only if none of
them has it. -/
theorem firstWith_extended {key : String} {names more : List String}
    (taken : ∀ added ∈ more, tagOf added = .text key → ∃ name ∈ names, tagOf name = .text key) :
    firstWith tagOf (names ++ more) key = firstWith tagOf names key := by
  rw [firstWith, List.find?_append]
  cases found : names.find? fun name => (tagOf name).isTextOf key with
  | some name => exact found.symm
  | none =>
    have absent := List.find?_eq_none.mp found
    have none : more.find? (fun name => (tagOf name).isTextOf key) = none := by
      refine List.find?_eq_none.mpr fun added inside own => ?_
      obtain ⟨name, earlier, same⟩ := taken added inside (Value.isTextOf_iff.mp own)
      exact absent name earlier (Value.isTextOf_iff.mpr same)
    rw [none, firstWith, found]
    rfl

/-- Functions that are added behind a registry change nothing for a document in which no mapping with
one entry has the tag of an added function as its key, unless that is the tag of an earlier function
as well. Both engines are made, and they evaluate the document in the same way: with the same
invocations and events, and to the same value or failure, whatever the functions return. -/
theorem evaluate_extended (gives : Gives call c.tag tagOf ((c.functions ++ extra).map Prod.fst))
    (apart : ∀ key source, document.Contains (.mapping [(.text key, source)]) →
      ∀ added ∈ extra, tagOf added.1 = .text key →
        ∃ function ∈ c.functions, tagOf function.1 = .text key)
    (tracing : Bool) (data : Value) (past later : List Event) :
    ∃ e f, ((make call tracing c data).after past).outcome = .ok e ∧
      ((make call tracing (c.extend extra) data).after later).outcome = .ok f ∧
      f.evaluate true document = e.evaluate true document := by
  rw [List.map_append] at gives
  have own : Gives call c.tag tagOf (c.functions.map Prod.fst) := fun name inside =>
    gives name (List.mem_append_left _ inside)
  have all : Gives call (c.extend extra).tag tagOf ((c.extend extra).functions.map Prod.fst) := by
    rwa [Config.extend, List.map_append]
  obtain ⟨index, made, found⟩ := exists_engine own tracing data past
  obtain ⟨larger, remade, again⟩ := exists_engine all tracing data later
  refine ⟨_, _, made, remade, evaluate_congr ?nodes ?invoked⟩
  case nodes =>
    intro part inside
    have same : ∀ key source, part = .mapping [(.text key, source)] →
        larger.lookup key = index.lookup key := by
      rintro key source rfl
      rw [found, again, Config.extend, List.map_append]
      refine firstWith_extended fun name added tagged => ?_
      obtain ⟨function, inner, rfl⟩ := List.mem_map.mp added
      obtain ⟨earlier, registered, shared⟩ := apart key source inside function inner tagged
      exact ⟨earlier.1, List.mem_map_of_mem registered, shared⟩
    unfold callNode?
    split
    · rw [same _ _ rfl]
    · rfl
  case invoked =>
    intro part name source inside call
    obtain ⟨key, -, known⟩ := callNode?_eq_some.mp call
    have registered : name ∈ c.functions.map Prod.fst := by
      rw [found] at known
      exact List.mem_of_find?_eq_some known
    funext arguments
    simp only [invoke, Config.extend, lookup_registered registered]
    rfl

end

/-- A registry of one function whose tag is its name in capital letters. -/
def capital : Config :=
  { Sample.config with
    functions := [("pack", CombinatorName.pack.value)]
    tag := .routine (.tag .upper) [] }

/-- A function with the same tag, and one with another tag. -/
def added : Options := [("PACK", CombinatorName.count.value), ("boom", CombinatorName.boom.value)]

/-- A call of the one function. -/
def packedOne : Value := Sample.calling "PACK" (.int 1)

/-- The added functions change nothing for it. -/
theorem packedOne_extended :
    ∃ e f, ((make Sample.call false capital .null).after []).outcome = .ok e ∧
      ((make Sample.call false (capital.extend added) .null).after []).outcome = .ok f ∧
      f.evaluate true packedOne = e.evaluate true packedOne := by
  refine @evaluate_extended Sample.call capital added (fun name => .text ("$" ++ Text.upper name)) _
    (fun _ _ => ⟨rfl, fun _ => rfl⟩) (fun key source inside function _ _ => ?_) false .null [] []
  have known : key = "$PACK" := by
    rcases Value.contains_iff.mp inside with same | ⟨x, item, inside⟩
    · exact Value.text.inj (Prod.mk.inj (List.cons.inj (Value.mapping.inj same)).1).1
    · obtain rfl : x = .int 1 := List.mem_singleton.mp item
      rcases Value.contains_iff.mp inside with same | ⟨y, item, -⟩ <;> contradiction
  subst known
  exact ⟨("pack", CombinatorName.pack.value), List.mem_singleton.mpr rfl,
    congrArg Value.text (by decide +kernel)⟩

end Engine

end LiveDoc
