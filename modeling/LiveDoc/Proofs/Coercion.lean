import LiveDoc.Library.Call
import LiveDoc.Proofs.Course
import LiveDoc.Proofs.Formats
import LiveDoc.Proofs.JsonText

/-!
# Coercing a configuration again

A configuration is checked when it is made, and two of its settings are brought into a form of their
own: nothing becomes no functions, and the name of a format is taken in lower case. Both forms pass
their checks and stay as they are. So putting options over a configuration comes to the same as putting
them over the options that it was made from: the same configuration, or a fault of the same class. All
ways to revive a document that coerce more than once therefore act on the configuration of a single
coercion.
-/

namespace LiveDoc

/-! ## Texts as keys -/

namespace Entries

variable {es : Entries} {key name : String} {value : Value}

theorem text_eqv {v : Value} : (Value.text key).eqv v = true ↔ v = .text key := by
  cases v with
  | text s => simp only [Value.eqv, beq_iff_eq, Value.text.injEq, eq_comm (a := s)]
  | _ => simp [Value.eqv]

theorem text_eqv_text (key name : String) : (Value.text name).eqv (.text key) = (name == key) := rfl

theorem text?_cons (entry : Value × Value) (es : Entries) (name : String) :
    text? (entry :: es) name =
      if (Value.text name).eqv entry.1 then some entry.2 else text? es name := by
  cases equal : (Value.text name).eqv entry.1 <;> simp [text?, get?, equal]

/-- A text that is put into a mapping has its new value, and every other one the value it had. -/
theorem text?_insert (es : Entries) (key : String) (value : Value) (name : String) :
    text? (insert (.text key) value es) name = if name = key then some value else text? es name := by
  induction es with
  | nil => simp [insert, text?_cons, text_eqv_text]
  | cons entry es ih =>
    by_cases equal : (Value.text key).eqv entry.1 = true
    · rw [insert, if_pos equal, text?_cons, text?_cons, text_eqv.mp equal, text_eqv_text]
      by_cases asked : name = key <;> simp [asked]
    · rw [insert, if_neg equal, text?_cons, text?_cons, ih]
      by_cases asked : (Value.text name).eqv entry.1 = true
      · have apart : name ≠ key := fun clash => equal (clash ▸ asked)
        rw [if_pos asked, if_pos asked, if_neg apart]
      · rw [if_neg asked, if_neg asked]

/-- What holds of all keys holds of those with one more. -/
theorem forall_keys_insert {p : Value → Prop} (es : Entries) (key : String) (value : Value) :
    (∀ entry ∈ insert (.text key) value es, p entry.1) ↔
      p (.text key) ∧ ∀ entry ∈ es, p entry.1 := by
  induction es with
  | nil => simp [insert]
  | cons entry es ih =>
    by_cases equal : (Value.text key).eqv entry.1 = true
    · rw [insert, if_pos equal, List.forall_mem_cons, List.forall_mem_cons, text_eqv.mp equal,
        ← and_assoc, and_self]
    · rw [insert, if_neg equal, List.forall_mem_cons, List.forall_mem_cons, ih, and_left_comm]

/-- A mapping with named values put into it, one after the other. -/
def extended (es : Entries) (options : Options) : Entries :=
  (options.map fun o => (Value.text o.1, o.2)).foldl (fun es o => insert o.1 o.2 es) es

theorem forall_keys_extended {p : Value → Prop} (es : Entries) (options : Options) :
    (∀ entry ∈ extended es options, p entry.1) ↔
      (∀ o ∈ options, p (.text o.1)) ∧ ∀ entry ∈ es, p entry.1 := by
  induction options generalizing es with
  | nil => simp [extended]
  | cons o options ih =>
    have step : extended es (o :: options) = extended (insert (.text o.1) o.2 es) options := rfl
    rw [step, ih, forall_keys_insert, List.forall_mem_cons, and_left_comm, and_assoc]

/-- Under a name there is the value that was put there, or else the one that was there before. -/
theorem text?_extended (es : Entries) {options : Options}
    (distinct : (options.map Prod.fst).Nodup) (name : String) :
    text? (extended es options) name = (options.lookup name).or (text? es name) := by
  induction options generalizing es with
  | nil => rfl
  | cons o options ih =>
    obtain ⟨fresh, distinct⟩ := List.nodup_cons.mp distinct
    have step : extended es (o :: options) = extended (insert (.text o.1) o.2 es) options := rfl
    rw [step, ih _ distinct, text?_insert, List.lookup_cons]
    by_cases same : name = o.1
    · subst same
      have none : options.lookup o.1 = none := by
        refine List.lookup_eq_none_iff.mpr fun p inside => ?_
        have apart : o.1 ≠ p.1 := fun clash => fresh (clash ▸ List.mem_map_of_mem inside)
        simpa using apart
      simp [none]
    · have other : (name == o.1) = false := beq_eq_false_iff_ne.mpr same
      simp only [same, if_false, other]

end Entries

namespace Config

variable {options later : Options} {name : String}

/-! ## Options over options -/

/-- Named values with others added to them: a name that is given again keeps its place and takes the new
value. -/
def merge (first later : Options) : Options :=
  first.map (fun o => (o.1, (later.lookup o.1).getD o.2)) ++
    later.filter fun o => (first.lookup o.1).isNone

theorem lookup_map (g : String → Value → Value) (options : Options) (name : String) :
    (options.map fun o => (o.1, g o.1 o.2)).lookup name = (options.lookup name).map (g name) := by
  induction options with
  | nil => rfl
  | cons o options ih =>
    rw [List.map_cons, List.lookup_cons, List.lookup_cons, ih]
    by_cases same : name = o.1
    · simp [same]
    · simp [beq_eq_false_iff_ne.mpr same]

theorem lookup_filter (p : String → Bool) (options : Options) (name : String) :
    (options.filter fun o => p o.1).lookup name = if p name then options.lookup name else none := by
  induction options with
  | nil => simp
  | cons o options ih =>
    obtain ⟨key, v⟩ := o
    by_cases same : name = key
    · subst same
      cases holds : p name <;> simp [holds, ih]
    · have other : (name == key) = false := beq_eq_false_iff_ne.mpr same
      rw [List.filter_cons, List.lookup_cons, other]
      split
      · rw [List.lookup_cons, other, ih]
      · exact ih

/-- Among merged values there is the later one of a name, if there is one. -/
theorem lookup_merge (first later : Options) (name : String) :
    (merge first later).lookup name = (later.lookup name).or (first.lookup name) := by
  rw [merge, List.lookup_append, lookup_map fun name v => (later.lookup name).getD v,
    lookup_filter fun name => (first.lookup name).isNone]
  cases first.lookup name <;> cases later.lookup name <;> rfl

theorem lookup_override (base later : Options) (name : String) :
    (override base later).lookup name = (later.lookup name).or (base.lookup name) := by
  rw [override, List.lookup_append, lookup_filter fun name => (later.lookup name).isNone]
  cases later.lookup name <;> simp

/-- Merging repeats no name. -/
theorem nodup_merge {first : Options} (distinct : (first.map Prod.fst).Nodup)
    (apart : (later.map Prod.fst).Nodup) : ((merge first later).map Prod.fst).Nodup := by
  have kept : first.map (fun o => o.1) = first.map Prod.fst := rfl
  rw [merge, List.map_append, List.map_map, Function.comp_def, kept, List.nodup_append]
  refine ⟨distinct, (List.filter_sublist.map _).nodup apart, ?_⟩
  rintro name old _ new rfl
  obtain ⟨o, remains, rfl⟩ := List.mem_map.mp new
  obtain ⟨p, inside, same⟩ := List.mem_map.mp old
  have absent := List.lookup_eq_none_iff.mp (Option.isNone_iff_eq_none.mp (List.mem_filter.mp remains).2)
  simpa [same] using absent p inside

/-- What holds of all names that are merged holds of both parts. -/
theorem forall_merge {first : Options} {p : String → Prop} :
    (∀ o ∈ merge first later, p o.1) ↔ (∀ o ∈ first, p o.1) ∧ ∀ o ∈ later, p o.1 := by
  rw [merge, List.forall_mem_append, List.forall_mem_map]
  refine and_congr_right fun old => ⟨fun new o inside => ?_, fun all o inside => ?_⟩
  · cases given : first.lookup o.1 with
    | none => exact new o (List.mem_filter.mpr ⟨inside, by rw [given]; rfl⟩)
    | some v =>
      obtain ⟨before, after, whole, -⟩ := List.lookup_eq_some_iff.mp given
      exact old (o.1, v) (by rw [whole]; simp)
  · exact all o (List.mem_filter.mp inside).1

/-! ## What a configuration is made of -/

variable {c : Config}

/-- What a configuration takes from the options that it is made from, and what the checks of these have
found. -/
structure MadeFrom (options : Options) (c : Config) : Prop where
  functions : functionsOf (option options "functions") = .ok c.functions
  tag : option options "tag" = c.tag
  callable : c.tag.isCallable = true
  bindData : option options "bind_data_to_function" = c.bindData
  callReturned : option options "call_functions_returned_with_data" = c.callReturned
  mode : option options "stringify_first" = c.stringifyFirst
  accepted : modeValues.any c.stringifyFirst.eqv = true
  format : formatOf (option options "fmt") = .ok c.format
  diagnostic : option options "diagnostic" = c.diagnostic

theorem madeFrom_of_ofOptions (made : ofOptions options = .ok c) : MadeFrom options c := by
  unfold ofOptions at made
  obtain ⟨functions, listed, made⟩ := Json.bind_ok made
  dsimp only at made
  cases callable : (option options "tag").isCallable with
  | false => simp [callable] at made
  | true =>
    cases accepted : modeValues.any (option options "stringify_first").eqv with
    | false => simp [callable, accepted] at made
    | true =>
      simp only [callable, accepted, Bool.not_true, Bool.false_eq_true, if_false] at made
      obtain ⟨format, named, made⟩ := Json.bind_ok made
      obtain rfl := Except.ok.inj made
      exact ⟨listed, rfl, callable, rfl, rfl, rfl, accepted, named, rfl⟩

/-! ## The forms of settings -/

theorem callable_of_checkFunctions {es : Entries} {functions : Options}
    (listed : checkFunctions es = .ok functions) : ∀ f ∈ functions, f.2.isCallable = true := by
  induction es generalizing functions with
  | nil =>
    obtain rfl := Except.ok.inj listed
    simp
  | cons entry es ih =>
    obtain ⟨key, f⟩ := entry
    cases key with
    | text name =>
      unfold checkFunctions at listed
      cases callable : f.isCallable with
      | false => simp [callable] at listed
      | true =>
        simp only [callable, if_true] at listed
        obtain ⟨rest, others, made⟩ := Json.bind_ok listed
        obtain rfl := Except.ok.inj made
        exact List.forall_mem_cons.mpr ⟨callable, ih others⟩
    | _ => cases listed

/-- The functions of a configuration can all be called. -/
theorem callable_of_functionsOf {v : Value} {functions : Options}
    (listed : functionsOf v = .ok functions) : ∀ f ∈ functions, f.2.isCallable = true := by
  cases v with
  | null =>
    obtain rfl := Except.ok.inj listed
    simp
  | mapping es => exact callable_of_checkFunctions listed
  | _ => cases listed

/-- Functions that can be called pass their check again. -/
theorem checkFunctions_again {functions : Options}
    (callable : ∀ f ∈ functions, f.2.isCallable = true) :
    checkFunctions (functions.map fun f => (.text f.1, f.2)) = .ok functions := by
  induction functions with
  | nil => rfl
  | cons f functions ih =>
    obtain ⟨own, others⟩ := List.forall_mem_cons.mp callable
    simp only [List.map_cons, checkFunctions, own, if_true, ih others, bind, Except.bind]

/-- A format is found under its name. -/
theorem formatOf_name (f : Format) : formatOf (.text f.name) = .ok f := by
  have present : (Value.text f.name).truthy = true := by cases f <;> rfl
  simp only [formatOf, present, if_true, Document.ofName?_name]

/-! ## Options that make the same configuration -/

/-- Whether two lists of options make the same configuration. Their settings are the same, those that are
brought into a form of their own by that form. -/
structure Alike (a b : Options) : Prop where
  functions : functionsOf (option a "functions") = functionsOf (option b "functions")
  tag : option a "tag" = option b "tag"
  bindData : option a "bind_data_to_function" = option b "bind_data_to_function"
  callReturned : option a "call_functions_returned_with_data" =
    option b "call_functions_returned_with_data"
  mode : option a "stringify_first" = option b "stringify_first"
  format : formatOf (option a "fmt") = formatOf (option b "fmt")
  diagnostic : option a "diagnostic" = option b "diagnostic"

namespace Alike

variable {a b : Options}

theorem ofOptions_eq (alike : Alike a b) : ofOptions a = ofOptions b := by
  simp only [ofOptions, alike.functions, alike.tag, alike.bindData, alike.callReturned, alike.mode,
    alike.format, alike.diagnostic]

/-- An option is the one that was put over the others, if there is one. -/
theorem option_over {base all : Options}
    (put : ∀ name, all.lookup name = (later.lookup name).or (base.lookup name)) (name : String) :
    option all name = (later.lookup name).getD (option base name) := by
  rw [option, option, put]
  cases later.lookup name <;> rfl

/-- Options that are put over both keep the configurations the same. -/
theorem overridden (alike : Alike a b) {a' b' : Options}
    (first : ∀ name, a'.lookup name = (later.lookup name).or (a.lookup name))
    (second : ∀ name, b'.lookup name = (later.lookup name).or (b.lookup name)) : Alike a' b' := by
  have same {β : Type} (form : Value → β) (name : String)
      (before : form (option a name) = form (option b name)) :
      form (option a' name) = form (option b' name) := by
    rw [option_over first, option_over second]
    cases later.lookup name with
    | none => exact before
    | some v => rfl
  exact {
    functions := same functionsOf _ alike.functions
    tag := same id _ alike.tag
    bindData := same id _ alike.bindData
    callReturned := same id _ alike.callReturned
    mode := same id _ alike.mode
    format := same formatOf _ alike.format
    diagnostic := same id _ alike.diagnostic }

end Alike

/-- A configuration has options that make it again. -/
theorem alike_toOptions (made : MadeFrom options c) : Alike c.toOptions options where
  functions := by
    rw [made.functions]
    exact checkFunctions_again (callable_of_functionsOf made.functions)
  tag := made.tag.symm
  bindData := made.bindData.symm
  callReturned := made.callReturned.symm
  mode := made.mode.symm
  format := (formatOf_name c.format).trans made.format.symm
  diagnostic := made.diagnostic.symm

/-! ## Configurations as values -/

/-- A configuration is found again in its value. -/
theorem ofValue?_toValue (callable : ∀ f ∈ c.functions, f.2.isCallable = true) :
    ofValue? c.toValue = some c := by
  have named : Format.ofName? c.format.name = some c.format := by cases c.format <;> rfl
  unfold toValue toOptions
  simp only [List.map_cons, List.map_nil, ofValue?, checkFunctions_again callable, named]

/-- The functions of a configuration that a value stands for can all be called. -/
theorem callable_of_ofValue? {v : Value} (found : ofValue? v = some c) :
    ∀ f ∈ c.functions, f.2.isCallable = true := by
  unfold ofValue? at found
  split at found
  · split at found
    · rename_i listed _
      obtain rfl := Option.some.inj found
      exact callable_of_checkFunctions listed
    · contradiction
  · contradiction

/-- Named options make a configuration if all of them are known, and else there is a fault of types. -/
theorem ofNamed_cases (options : Options) :
    (∀ o ∈ options, isOption o.1 = true) ∧ ofNamed options = ofOptions options ∨
      (¬ ∀ o ∈ options, isOption o.1 = true) ∧
        ∃ f, ofNamed options = .error f ∧ f.cls = .typeError := by
  unfold ofNamed
  cases found : options.find? fun o => !isOption o.1 with
  | none =>
    have known := List.find?_eq_none.mp found
    exact .inl ⟨fun o inside => by simpa using known o inside, rfl⟩
  | some o =>
    have unknown : isOption o.1 = false := by simpa using List.find?_some found
    refine .inr ⟨fun known => ?_, ?_⟩
    · rw [known o (List.mem_of_find?_eq_some found)] at unknown
      contradiction
    · dsimp only
      split
      · exact ⟨_, rfl, rfl⟩
      · exact ⟨_, rfl, rfl⟩

/-- What named options make, options make. -/
theorem ofOptions_of_ofNamed (made : ofNamed options = .ok c) : ofOptions options = .ok c := by
  rcases ofNamed_cases options with ⟨-, same⟩ | ⟨-, f, refused, -⟩
  · rw [← same, made]
  · rw [refused] at made
    contradiction

theorem cls_unknownFault (keys : List Value) : (unknownFault keys).cls = .typeError := by
  unfold unknownFault
  dsimp only
  split
  · rfl
  · split <;> rfl

/-- The options in a mapping are found under their names if all keys are known, and else there is a fault
of types. -/
theorem optionsOf_cases (es : Entries) :
    (∀ entry ∈ es, isOptionKey entry.1 = true) ∧
        (∃ options, optionsOf es = .ok options ∧
          ∀ name, options.lookup name = Entries.text? es name) ∨
      (¬ ∀ entry ∈ es, isOptionKey entry.1 = true) ∧
        ∃ f, optionsOf es = .error f ∧ f.cls = .typeError := by
  unfold optionsOf
  cases unknown : es.filter fun e => !isOptionKey e.1 with
  | nil =>
    refine .inl ⟨fun entry inside => ?_, _, rfl, fun name => ?_⟩
    · simpa using List.filter_eq_nil_iff.mp unknown entry inside
    · clear unknown
      induction es with
      | nil => rfl
      | cons entry es ih =>
        obtain ⟨key, v⟩ := entry
        rw [Entries.text?_cons, ← ih]
        cases key with
        | text s =>
          rw [List.filterMap_cons, Entries.text_eqv_text, List.lookup_cons]
          cases name == s <;> rfl
        | _ => rfl
  | cons entry rest =>
    refine .inr ⟨fun known => ?_, _, rfl, cls_unknownFault _⟩
    have inside : entry ∈ es.filter fun e => !isOptionKey e.1 := by
      rw [unknown]
      exact List.mem_cons_self
    obtain ⟨inside, other⟩ := List.mem_filter.mp inside
    simp [known entry inside] at other

/-- A mapping with options over it makes a configuration if all keys and names are known, and else there
is a fault of types. -/
theorem coerce_mapping_cases (es : Entries) (distinct : (options.map Prod.fst).Nodup) :
    ((∀ o ∈ options, isOption o.1 = true) ∧ ∀ entry ∈ es, isOptionKey entry.1 = true) ∧
        (∃ all, (∀ name, all.lookup name = (options.lookup name).or (Entries.text? es name)) ∧
          coerce (.mapping es) options = ofOptions all) ∨
      (¬ ((∀ o ∈ options, isOption o.1 = true) ∧ ∀ entry ∈ es, isOptionKey entry.1 = true)) ∧
        ∃ f, coerce (.mapping es) options = .error f ∧ f.cls = .typeError := by
  have coerced : coerce (.mapping es) options =
      optionsOf (Entries.extended es options) >>= ofOptions := rfl
  have keys : (∀ entry ∈ Entries.extended es options, isOptionKey entry.1 = true) ↔
      (∀ o ∈ options, isOption o.1 = true) ∧ ∀ entry ∈ es, isOptionKey entry.1 = true :=
    Entries.forall_keys_extended (p := fun key => isOptionKey key = true) es options
  rw [coerced, ← keys]
  rcases optionsOf_cases (Entries.extended es options) with ⟨known, all, read, found⟩ |
    ⟨unknown, f, read, cls⟩
  · refine .inl ⟨known, all, fun name => ?_, by rw [read]; rfl⟩
    rw [found, Entries.text?_extended es distinct]
  · exact .inr ⟨unknown, f, by rw [read]; rfl, cls⟩

/-! ## Coercing again -/

/-- A value that stands for a configuration is coerced to it, or to what its options with others put over
them make. -/
theorem coerce_of_ofValue? {v : Value} (found : ofValue? v = some c) (overrides : Options) :
    coerce v overrides =
      if overrides.isEmpty then .ok c else ofNamed (override c.toOptions overrides) := by
  unfold coerce
  dsimp only
  split
  · cases found
  · cases found
  · rw [found]

/-- Without options over it a configuration is coerced to itself. -/
theorem coerce_toValue_nil (callable : ∀ f ∈ c.functions, f.2.isCallable = true) :
    coerce c.toValue [] = .ok c :=
  coerce_of_ofValue? (ofValue?_toValue callable) []

/-- A configuration with options over it is made from its own options with those put over them. -/
theorem coerce_toValue (made : ofOptions options = .ok c) (later : Options) :
    coerce c.toValue later = ofNamed (override c.toOptions later) := by
  have checked := madeFrom_of_ofOptions made
  have callable := callable_of_functionsOf checked.functions
  cases later with
  | nil =>
    have whole : override c.toOptions [] = c.toOptions := by simp [override]
    have again : ofNamed c.toOptions = ofOptions c.toOptions := rfl
    rw [coerce_toValue_nil callable, whole, again, (alike_toOptions checked).ofOptions_eq, made]
  | cons o later => exact coerce_of_ofValue? (ofValue?_toValue callable) (o :: later)

/-- The names of the options that make a configuration again are known, so only those that are put over
them may be unknown. -/
theorem forall_override (c : Config) (later : Options) :
    (∀ o ∈ override c.toOptions later, isOption o.1 = true) ↔ ∀ o ∈ later, isOption o.1 = true := by
  have known : ∀ o ∈ c.toOptions, isOption o.1 = true := by
    simp only [toOptions, List.forall_mem_cons, List.not_mem_nil, false_imp_iff, implies_true, and_true]
    decide +kernel
  rw [override, List.forall_mem_append]
  exact and_iff_left fun o inside => known o (List.mem_filter.mp inside).1

/-- Putting options over a configuration that was made from a mapping and options comes to the same as
putting all options over the mapping: the same configuration, or a fault of the same class. -/
theorem coerce_again {es : Entries} {first : Options} (distinct : (first.map Prod.fst).Nodup)
    (apart : (later.map Prod.fst).Nodup) (coerced : coerce (.mapping es) first = .ok c) :
    (coerce c.toValue later).mapError Fault.cls =
      (coerce (.mapping es) (merge first later)).mapError Fault.cls := by
  obtain ⟨⟨firstKnown, keysKnown⟩, base, baseFound, made⟩ :=
    (coerce_mapping_cases es distinct).resolve_right fun ⟨_, f, refused, _⟩ => by
      rw [refused] at coerced
      contradiction
  rw [coerced] at made
  rw [coerce_toValue made.symm]
  have mergedKnown : (∀ o ∈ merge first later, isOption o.1 = true) ↔
      ∀ o ∈ later, isOption o.1 = true :=
    (forall_merge (p := fun name => isOption name = true)).trans (and_iff_right firstKnown)
  rcases ofNamed_cases (override c.toOptions later) with ⟨known, named⟩ | ⟨unknown, f, named, cls⟩
  · rw [forall_override] at known
    obtain ⟨-, all, allFound, whole⟩ :=
      (coerce_mapping_cases es (nodup_merge distinct apart)).resolve_right fun ⟨unknown, _⟩ =>
        unknown ⟨mergedKnown.mpr known, keysKnown⟩
    have alike : Alike (override c.toOptions later) all := by
      refine (alike_toOptions (madeFrom_of_ofOptions made.symm)).overridden (lookup_override _ later) ?_
      intro name
      rw [allFound, baseFound, lookup_merge, Option.or_assoc]
    rw [named, whole, alike.ofOptions_eq]
  · rw [forall_override] at unknown
    obtain ⟨-, g, whole, other⟩ :=
      (coerce_mapping_cases es (nodup_merge distinct apart)).resolve_left fun ⟨known, _⟩ =>
        unknown (mergedKnown.mp known.1)
    rw [named, whole, Except.mapError, Except.mapError, cls, other]

/-- A coerced configuration is made from options, or it is the one that was given. -/
theorem coerce_cases {config : Value} (coerced : coerce config options = .ok c) :
    (∃ all, ofOptions all = .ok c) ∨ ofValue? config = some c := by
  unfold coerce at coerced
  dsimp only at coerced
  split at coerced
  · obtain ⟨all, -, made⟩ := Json.bind_ok coerced
    exact .inl ⟨all, made⟩
  · obtain ⟨all, -, made⟩ := Json.bind_ok coerced
    exact .inl ⟨all, made⟩
  · split at coerced
    · rename_i found
      split at coerced
      · obtain rfl := Except.ok.inj coerced
        exact .inr found
      · exact .inl ⟨_, ofOptions_of_ofNamed coerced⟩
    · contradiction

/-- The functions of a coerced configuration can all be called. -/
theorem callable_of_coerce {config : Value} (coerced : coerce config options = .ok c) :
    ∀ f ∈ c.functions, f.2.isCallable = true := by
  rcases coerce_cases coerced with ⟨all, made⟩ | found
  · exact callable_of_functionsOf (madeFrom_of_ofOptions made).functions
  · exact callable_of_ofValue? found

end Config

/-! ## Entry points -/

namespace Surroundings

/-- The transform that is made for a configuration, given a document and then data. -/
def transformInTurn (s : Surroundings) (call : Caller) (config : Value) (overrides : Options)
    (document data : Value) : Run Value :=
  (Run.ofFault (Service.transformCurried config overrides)).andThen fun withDocument =>
    (s.applyValue call withDocument [document]).andThen fun withData =>
      s.applyValue call withData [data]

/-- A closure that is given as many arguments as it takes is applied to them. -/
theorem applyValue_closure (s : Surroundings) (call : Caller) {n : ClosureName}
    {captured arguments : List Value}
    (counted : (Routine.closure n).checkCount arguments.length = .ok ()) :
    s.applyValue call (.routine (.closure n) captured) arguments =
      n.apply call s captured arguments := by
  change (Run.ofFault ((Routine.closure n).checkCount arguments.length)).andThen _ = _
  rw [counted, Run.ofFault, Run.done_andThen]

/-- Given its arguments in turn, the transform coerces once and then again. -/
theorem transformInTurn_eq (s : Surroundings) (call : Caller) (config : Value) (overrides : Options)
    (document data : Value) :
    s.transformInTurn call config overrides document data =
      (Run.ofFault (Config.coerce config overrides)).andThen fun c =>
        transform call s.tracing c.toValue document data [] := by
  cases coerced : Config.coerce config overrides with
  | error f => simp only [transformInTurn, Service.transformCurried, coerced]; rfl
  | ok c =>
    have made : Service.transformCurried config overrides =
        .ok (.routine (.closure .withDocument) [c.toValue]) := by
      rw [Service.transformCurried, coerced]
      rfl
    have withDocument :
        s.applyValue call (.routine (.closure .withDocument) [c.toValue]) [document] =
          .done (.routine (.closure .withData) [c.toValue, document]) := s.applyValue_closure call rfl
    have withData :
        s.applyValue call (.routine (.closure .withData) [c.toValue, document]) [data] =
          transform call s.tracing c.toValue document data [] := s.applyValue_closure call rfl
    rw [transformInTurn, made, Run.ofFault, Run.done_andThen, withDocument, Run.done_andThen,
      withData, Run.ofFault, Run.done_andThen]

end Surroundings

/-- Whether all ways to revive a document under a configuration, with options put over it, act on the same
checked configuration. -/
structure ActsOn (config : Value) (overrides : Options) (c : Config) : Prop where
  atOnce : ∀ call tracing document data,
    transform call tracing config document data overrides =
      transformWith call tracing c document data
  inTurn : ∀ (s : Surroundings) call document data,
    s.transformInTurn call config overrides document data =
      transformWith call s.tracing c document data
  hook : ∀ call tracing data,
    Service.makeReviver call tracing config data overrides =
      (Engine.make call tracing c data).andThen fun e => .done e.toValue
  report : ∀ call tracing document data,
    Report.ofRun (transform call tracing config document data overrides) =
      Report.handle call tracing c document data

/-- Everything acts on the configuration of a single coercion. -/
theorem actsOn_of_coerce {config : Value} {overrides : Options} {c : Config}
    (coerced : Config.coerce config overrides = .ok c) : ActsOn config overrides c := by
  have again := Config.coerce_toValue_nil (Config.callable_of_coerce coerced)
  have atOnce {config : Value} {overrides : Options} (made : Config.coerce config overrides = .ok c)
      (call : Caller) (tracing : Bool) (document data : Value) :
      transform call tracing config document data overrides =
        transformWith call tracing c document data := by
    rw [transform, made, Run.ofFault, Run.done_andThen]
  refine ⟨atOnce coerced, fun s call document data => ?_, fun call tracing data => ?_,
    fun call tracing document data => ?_⟩
  · rw [Surroundings.transformInTurn_eq, coerced, Run.ofFault, Run.done_andThen, atOnce again]
  · rw [Service.makeReviver, coerced, Run.ofFault, Run.done_andThen]
  · rw [atOnce coerced, Report.handle]

namespace Config

/-- Coercing composes. Putting options over a coerced configuration comes to the same as putting all
options over the mapping at once: the same configuration, or a fault of the same class. The configuration
itself stays as it is, and whatever coerces once or again acts on the configuration of a single
coercion. -/
theorem coerce_coerce {es : Entries} {first later : Options} {c : Config}
    (distinct : (first.map Prod.fst).Nodup) (apart : (later.map Prod.fst).Nodup)
    (coerced : coerce (.mapping es) first = .ok c) :
    (coerce c.toValue later).mapError Fault.cls =
        (coerce (.mapping es) (merge first later)).mapError Fault.cls ∧
      coerce c.toValue [] = .ok c ∧
      ActsOn (.mapping es) first c ∧ ActsOn c.toValue [] c ∧
      ∀ d, coerce c.toValue later = .ok d →
        ActsOn c.toValue later d ∧ ActsOn (.mapping es) (merge first later) d := by
  have composed := coerce_again distinct apart coerced
  have unchanged := coerce_toValue_nil (callable_of_coerce coerced)
  refine ⟨composed, unchanged, actsOn_of_coerce coerced, actsOn_of_coerce unchanged,
    fun d made => ⟨actsOn_of_coerce made, actsOn_of_coerce ?_⟩⟩
  rw [made] at composed
  cases whole : coerce (.mapping es) (merge first later) with
  | ok e =>
    rw [whole] at composed
    exact congrArg Except.ok (Except.ok.inj composed).symm
  | error f =>
    rw [whole] at composed
    contradiction

/-- A format in upper case is taken, an unsupported one put over it is not, in one step or two. -/
theorem coerce_unsupported_format :
    let es : Entries := [(.text "fmt", .text "YAML")]
    let first : Options := [("functions", .null), ("stringify_first", .int 0)]
    ∃ c, coerce (.mapping es) first = .ok c ∧ c.format = .yaml ∧
      (coerce c.toValue [("fmt", .text "xml")]).mapError Fault.cls = .error .valueError ∧
      ActsOn (.mapping es) first c ∧ ActsOn c.toValue [] c := by
  intro es first
  have distinct : (first.map Prod.fst).Nodup := by decide
  have apart : (([("fmt", .text "xml")] : Options).map Prod.fst).Nodup := by decide
  have composed := @coerce_coerce es first _ _ distinct apart rfl
  exact ⟨_, rfl, rfl, composed.1.trans rfl, composed.2.2.1, composed.2.2.2.1⟩

end Config

end LiveDoc
