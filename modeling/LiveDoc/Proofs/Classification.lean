import LiveDoc.Proofs.CallNodes
import LiveDoc.Proofs.Samples

/-!
# Tags of a registry

An engine gathers the tags of its functions one after the other, and a tag that several functions
share stays with the first of them. So to look a tag up is to go through the registry in order until a
function has it. A value is a call node exactly if it is a mapping with one entry whose key is the tag
of a function, and it calls the first function with this tag.
-/

namespace LiveDoc

/-- Whether a value is a given text. -/
def Value.isTextOf (key : String) : Value → Bool
  | .text s => s == key
  | _ => false

theorem Value.isTextOf_iff {key : String} {v : Value} : v.isTextOf key = true ↔ v = .text key := by
  cases v <;> simp [Value.isTextOf]

namespace Engine

variable {call : Caller} {tag : Value} {tagOf : String → Value} {names : List String}

/-- Whether a tag strategy gives each name its own value as a tag whenever it is asked. -/
def Gives (call : Caller) (tag : Value) (tagOf : String → Value) (names : List String) : Prop :=
  ∀ name ∈ names, (tagOf name).unhashable? = none ∧
    ∀ past, ((call tag [.text name]).after past).outcome = .ok (tagOf name)

/-- The first name with a tag. -/
def firstWith (tagOf : String → Value) (names : List String) (key : String) : Option String :=
  names.find? fun name => (tagOf name).isTextOf key

/-- A tag that is gathered behind others is found if none of them is the same. -/
theorem lookup_gathered (index : TagIndex) (s name key : String) :
    (index ++ [(s, name)]).lookup key =
      (index.lookup key).or (if key = s then some name else none) := by
  rw [List.lookup_append, List.lookup_cons]
  by_cases same : key = s
  · simp [same]
  · simp [same, beq_false_of_ne same]

/-- Gathering goes through the names in order: what is found under a key then is what was found under
it before, or else the first of the names with this tag. -/
theorem exists_gathered (gives : Gives call tag tagOf names) (index : TagIndex)
    (past : List Event) :
    ∃ made, ((addTags call tag names index).after past).outcome = .ok made ∧
      ∀ key, made.lookup key = (index.lookup key).or (firstWith tagOf names key) := by
  induction names generalizing index past with
  | nil => exact ⟨index, rfl, fun key => (Option.or_none).symm⟩
  | cons name names ih =>
    have later := ih fun other inside => gives other (List.mem_cons_of_mem name inside)
    obtain ⟨hashable, given⟩ := gives name List.mem_cons_self
    have ended : ((call tag [.text name]).apart.after past).outcome = .ok (tagOf name) := given past
    rw [addTags, Run.after_andThen_of_ok ended]
    simp only [Course.followedBy, hashable]
    cases own : tagOf name with
    | text s =>
      obtain ⟨made, outcome, found⟩ :=
        later (if (index.lookup s).isSome then index else index ++ [(s, name)]) _
      refine ⟨made, outcome, fun key => ?_⟩
      rw [found key]
      by_cases same : key = s
      · subst same
        cases known : index.lookup key <;>
          simp [firstWith, own, Value.isTextOf, known, lookup_gathered]
      · have kept : (if (index.lookup s).isSome then index else index ++ [(s, name)]).lookup key =
            index.lookup key := by
          split
          · rfl
          · simp [lookup_gathered, same]
        simp [kept, firstWith, own, Value.isTextOf, Ne.symm same]
    | _ =>
      obtain ⟨made, outcome, found⟩ := later index _
      exact ⟨made, outcome, fun key => by simp [found key, firstWith, own, Value.isTextOf]⟩

/-- An engine is made for every registry whose names have tags. Under a key it knows the first
function with this tag. -/
theorem exists_engine {c : Config} (gives : Gives call c.tag tagOf (c.functions.map Prod.fst))
    (tracing : Bool) (data : Value) (past : List Event) :
    ∃ index, ((make call tracing c data).after past).outcome = .ok ⟨call, tracing, c, data, index⟩ ∧
      ∀ key, index.lookup key = firstWith tagOf (c.functions.map Prod.fst) key := by
  obtain ⟨index, outcome, found⟩ := exists_gathered gives [] past
  refine ⟨index, ?_, found⟩
  rw [make, Run.after_andThen_done, tagIndex, outcome]
  rfl

/-! ## The first function with a tag -/

/-- Whether a function is registered under a name and is the first in the registry with a tag. -/
def IsFirst (tagOf : String → String) (registry : Options) (key name : String) (f : Value) : Prop :=
  ∃ earlier later, registry = earlier ++ (name, f) :: later ∧ tagOf name = key ∧
    ∀ other ∈ earlier, tagOf other.1 ≠ key

variable {tags : String → String} {registry : Options} {key name : String} {f : Value}

/-- The first name with a tag is that of the first function with it. -/
theorem firstWith_eq_some :
    firstWith (fun name => .text (tags name)) (registry.map Prod.fst) key = some name ↔
      ∃ f, IsFirst tags registry key name f := by
  constructor
  · intro found
    obtain ⟨same, before, after, split, none⟩ := List.find?_eq_some_iff_append.mp found
    obtain ⟨earlier, rest, rfl, rfl, names⟩ := List.map_eq_append_iff.mp split
    obtain ⟨⟨_, f⟩, later, rfl, rfl, rfl⟩ := List.map_eq_cons_iff.mp names
    refine ⟨f, earlier, later, rfl, beq_iff_eq.mp same, fun other inside taken => ?_⟩
    have other := none other.1 (List.mem_map_of_mem inside)
    simp [Value.isTextOf, taken] at other
  · rintro ⟨f, earlier, later, rfl, own, others⟩
    have none : (earlier.map Prod.fst).find? (fun name => (Value.text (tags name)).isTextOf key) =
        none := by
      refine List.find?_eq_none.mpr fun other inside => ?_
      obtain ⟨entry, registered, rfl⟩ := List.mem_map.mp inside
      simpa [Value.isTextOf] using others entry registered
    rw [List.map_append, firstWith, List.find?_append, none]
    simp [Value.isTextOf, own]

/-- The first function with a tag is what is registered under its name. -/
theorem IsFirst.lookup (first : IsFirst tags registry key name f) :
    registry.lookup name = some f := by
  obtain ⟨earlier, later, rfl, own, others⟩ := first
  refine List.lookup_eq_some_iff.mpr ⟨earlier, later, rfl, fun other inside => ?_⟩
  rw [bne_iff_ne]
  rintro rfl
  exact others other inside own

/-! ## Classification -/

/-- The call of a function for a node, with resolved arguments and perhaps the data before them, and
what then becomes of its result or failure. -/
def applying (e : Engine) (name : String) (f : Value) (arguments : List Value) : Run Value :=
  (trace e.tracing ("CALL " ++ name ++ " argc " ++ toString arguments.length ++ " bind " ++
      e.config.bindData.display)).andThen fun _ =>
    (Run.invocation name arguments
      (e.call f (if e.config.bindData.truthy then e.data :: arguments else arguments))
      (e.applyToData name)).handle fun failure => .fail (callFailure name arguments failure)

/-- What is invoked by name is the function that is registered under it. -/
theorem invoke_eq_applying {e : Engine} (known : e.config.functions.lookup name = some f) :
    e.invoke name = e.applying name f := by
  funext arguments
  simp only [invoke, known, Option.getD_some, applying]

/-- An engine is made for every registry in which a tag strategy gives each name a text as its tag, no
matter which names share one. For this engine a value is a call node exactly if it is a mapping with
one entry whose key is the tag of a registered function. It names the first function with this tag, its
arguments stand in the entry's value, and its evaluation calls this very function with them. Every
other value is literal. -/
theorem classify_first {c : Config}
    (gives : ∀ function ∈ c.functions, ∀ past,
      ((call c.tag [.text function.1]).after past).outcome = .ok (.text (tags function.1)))
    (tracing : Bool) (data : Value) (past : List Event) :
    ∃ e, ((make call tracing c data).after past).outcome = .ok e ∧
      ∀ v,
        (∀ name source, callNode? e.index v = some (name, source) ↔
          ∃ key f, v = .mapping [(.text key, source)] ∧ IsFirst tags c.functions key name f) ∧
        (callNode? e.index v = none ↔ ∀ key source name f, v = .mapping [(.text key, source)] →
          ¬ IsFirst tags c.functions key name f) ∧
        ∀ key source name f, v = .mapping [(.text key, source)] →
          IsFirst tags c.functions key name f → ∀ deep, e.evaluate deep v =
            (e.evaluateAll deep (normalizeArguments source)).andThen (e.applying name f) := by
  have given : Gives call c.tag (fun name => .text (tags name)) (c.functions.map Prod.fst) := by
    intro name inside
    obtain ⟨function, registered, rfl⟩ := List.mem_map.mp inside
    exact ⟨rfl, gives function registered⟩
  obtain ⟨index, made, found⟩ := exists_engine given tracing data past
  refine ⟨_, made, fun v => ?_⟩
  have named : ∀ name source, callNode? index v = some (name, source) ↔
      ∃ key f, v = .mapping [(.text key, source)] ∧ IsFirst tags c.functions key name f := by
    intro name source
    rw [callNode?_eq_some]
    simp only [found, firstWith_eq_some, exists_and_left]
  refine ⟨named, ?_, ?_⟩
  · rw [Option.eq_none_iff_forall_ne_some]
    constructor
    · rintro literal key source name f rfl first
      exact literal (name, source) ((named name source).mpr ⟨key, f, rfl, first⟩)
    · rintro none ⟨name, source⟩ call
      obtain ⟨key, f, same, first⟩ := (named name source).mp call
      exact none key source name f same first
  · intro key source name f same first deep
    rw [evaluate_of_callNode _ ((named name source).mpr ⟨key, f, same, first⟩),
      invoke_eq_applying first.lookup]

/-- The sample registry, with one tag for all functions. -/
def sharing : Config := { Sample.config with tag := .routine (.tag .constant) [] }

/-- The shared tag calls the first function of the registry, and the name of a function calls none. -/
theorem sharing_first :
    ∃ e, ((make Sample.call false sharing .null).after []).outcome = .ok e ∧
      callNode? e.index (.mapping [(.text "$same", .list [.int 1, .int 2])]) =
        some ("add", .list [.int 1, .int 2]) ∧
      callNode? e.index (Sample.calling "add" (.list [.int 1, .int 2])) = none := by
  obtain ⟨e, made, classified⟩ := @classify_first Sample.call (fun _ => "$same") sharing
    (fun _ _ _ => rfl) false .null []
  refine ⟨e, made, ((classified _).1 _ _).mpr ⟨"$same", _, rfl, [], _, rfl, rfl, ?_⟩,
    (classified _).2.1.mpr fun key source name f same first => ?_⟩
  · simp
  · obtain ⟨earlier, later, -, own, -⟩ := first
    subst own
    simp [Sample.calling] at same

end Engine

end LiveDoc
