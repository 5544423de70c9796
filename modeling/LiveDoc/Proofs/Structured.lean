import LiveDoc.Proofs.DecodedText

/-!
# Structured documents through a reader

A document that is given as a value reaches a reader-driven engine as the text that is written for
it. Tuples become lists on the way and keys become texts, so a document without call nodes comes back
as it was, tuples apart, exactly if all its keys are texts. Other keys change, may coincide with
another one, or may come to be a tag.
-/

namespace LiveDoc

namespace Value

mutual

/-- Whether a value is built from JSON scalars, lists, tuples and mappings. Its binary64 numbers are in
canonical form, and the keys of its mappings are hashable and different from one another. -/
def IsStructured : Value → Prop
  | .null => True
  | .bool _ => True
  | .int _ => True
  | .float x => x.Canonical
  | .text _ => True
  | .list xs => AreStructured xs
  | .tuple xs => AreStructured xs
  | .mapping es => HoldStructured es
  | _ => False

/-- Whether this holds of the items of a list. -/
def AreStructured : List Value → Prop
  | [] => True
  | x :: xs => x.IsStructured ∧ AreStructured xs

/-- Whether this holds of the values of entries with different hashable keys. -/
def HoldStructured : List (Value × Value) → Prop
  | [] => True
  | (k, v) :: es => k.unhashable? = none ∧ (∀ entry ∈ es, entry.1.eqv k = false) ∧
      v.IsStructured ∧ HoldStructured es

end

mutual

/-- A value with its tuples turned into lists. -/
def listed : Value → Value
  | .list xs => .list (listedAll xs)
  | .tuple xs => .list (listedAll xs)
  | .mapping es => .mapping (listedEntries es)
  | v => v

/-- The items of a list with their tuples turned into lists. -/
def listedAll : List Value → List Value
  | [] => []
  | x :: xs => x.listed :: listedAll xs

/-- Entries with the tuples in their values turned into lists. -/
def listedEntries : List (Value × Value) → List (Value × Value)
  | [] => []
  | (k, v) :: es => (k, v.listed) :: listedEntries es

end

/-- Whether a value is a text. -/
def isString : Value → Bool
  | .text _ => true
  | _ => false

mutual

/-- Whether all keys of mappings in a value are texts. -/
def isTextKeyed : Value → Bool
  | .list xs => areTextKeyed xs
  | .tuple xs => areTextKeyed xs
  | .mapping es => holdTextKeyed es
  | _ => true

/-- Whether this holds of the items of a list. -/
def areTextKeyed : List Value → Bool
  | [] => true
  | x :: xs => x.isTextKeyed && areTextKeyed xs

/-- Whether the keys of entries are texts and this holds of their values. -/
def holdTextKeyed : List (Value × Value) → Bool
  | [] => true
  | (k, v) :: es => k.isString && v.isTextKeyed && holdTextKeyed es

end

mutual

/-- Turning tuples into lists keeps the keys. -/
theorem isTextKeyed_listed : ∀ v : Value, v.listed.isTextKeyed = v.isTextKeyed
  | .list xs => areTextKeyed_listed xs
  | .tuple xs => areTextKeyed_listed xs
  | .mapping es => holdTextKeyed_listed es
  | .null | .bool _ | .int _ | .float _ | .text _ | .bytes _ | .buffer _ | .set _ | .date _
  | .moment _ | .clock _ | .span _ | .zone _ | .routine _ _ | .deferred _ _ | .record _ _ => rfl

theorem areTextKeyed_listed : ∀ xs : List Value, areTextKeyed (listedAll xs) = areTextKeyed xs
  | [] => rfl
  | x :: xs => by
    rw [listedAll, areTextKeyed, areTextKeyed, isTextKeyed_listed x, areTextKeyed_listed xs]

theorem holdTextKeyed_listed : ∀ es : List (Value × Value),
    holdTextKeyed (listedEntries es) = holdTextKeyed es
  | [] => rfl
  | (_, v) :: es => by
    rw [listedEntries, holdTextKeyed, holdTextKeyed, isTextKeyed_listed v,
      holdTextKeyed_listed es]

end

/-- Turning tuples into lists keeps the keys of entries as they are. -/
theorem listedEntries_keys (es : List (Value × Value)) :
    (listedEntries es).map (·.1) = es.map (·.1) := by
  induction es with
  | nil => rfl
  | cons entry es ih => simp [listedEntries, ih]

end Value

namespace Json.Tree

mutual

/-- The keys in the value of a tree are texts. -/
theorem isTextKeyed_of_distinct : ∀ t : Tree, t.Distinct → t.toValue.isTextKeyed = true
  | .array ts, distinct => areTextKeyed_of_distinct ts distinct
  | .object ms, distinct => by
    rw [toValue_object distinct]
    exact holdTextKeyed_of_distinct ms distinct
  | .null, _ | .bool _, _ | .int _, _ | .float _, _ | .text _, _ => rfl

theorem areTextKeyed_of_distinct : ∀ ts : List Tree, DistinctAll ts →
    Value.areTextKeyed (toValues ts) = true
  | [], _ => rfl
  | t :: ts, distinct => by
    rw [toValues, Value.areTextKeyed, isTextKeyed_of_distinct t distinct.1,
      areTextKeyed_of_distinct ts distinct.2, Bool.and_self]

theorem holdTextKeyed_of_distinct : ∀ ms : List (String × Tree), DistinctMembers ms →
    Value.holdTextKeyed (toPairs ms) = true
  | [], _ => rfl
  | (k, t) :: ms, distinct => by
    rw [toPairs, Value.holdTextKeyed, isTextKeyed_of_distinct t distinct.2.1,
      holdTextKeyed_of_distinct ms distinct.2.2]
    rfl

end

/-- Repeated keys or not, the keys in the value of a tree are texts. -/
theorem isTextKeyed_toValue (t : Tree) : t.toValue.isTextKeyed = true := by
  rw [← collapsed_toValue]
  exact isTextKeyed_of_distinct t.collapsed (distinct_collapsed t)

mutual

/-- What tells a value tells it with its tuples turned into lists. -/
theorem tells_listed : ∀ (v : Value) (t : Tree), Tells v t → Tells v.listed t
  | .list xs, _, ⟨ts, same, tells⟩ => ⟨ts, same, tellAll_listed xs ts tells⟩
  | .tuple xs, _, ⟨ts, same, tells⟩ => ⟨ts, same, tellAll_listed xs ts tells⟩
  | .mapping es, _, ⟨ms, same, tells⟩ => ⟨ms, same, tellEntries_listed es ms tells⟩
  | .null, _, tells | .bool _, _, tells | .int _, _, tells | .float _, _, tells
  | .text _, _, tells => tells

theorem tellAll_listed : ∀ (xs : List Value) (ts : List Tree), TellAll xs ts →
    TellAll (Value.listedAll xs) ts
  | [], _, tells => tells
  | x :: xs, _, ⟨t, ts, same, first, rest⟩ =>
    ⟨t, ts, same, tells_listed x t first, tellAll_listed xs ts rest⟩

theorem tellEntries_listed : ∀ (es : List (Value × Value)) (ms : List (String × Tree)),
    TellEntries es ms → TellEntries (Value.listedEntries es) ms
  | [], _, tells => tells
  | (_, v) :: es, _, ⟨name, t, ms, same, key, first, rest⟩ =>
    ⟨name, t, ms, same, key, tells_listed v t first, tellEntries_listed es ms rest⟩

end

mutual

/-- A structured value that can be written is a JSON document if its keys are texts and its tuples are
turned into lists. -/
theorem isJson_listed : ∀ (v : Value) (t : Tree), v.IsStructured → v.isTextKeyed = true →
    Tells v t → v.listed.IsJson
  | .list xs, _, structured, keyed, ⟨ts, _, tells⟩ => areJson_listed xs ts structured keyed tells
  | .tuple xs, _, structured, keyed, ⟨ts, _, tells⟩ => areJson_listed xs ts structured keyed tells
  | .mapping es, _, structured, keyed, ⟨ms, _, tells⟩ =>
    holdJson_listed es ms structured keyed tells
  | .null, _, _, _, _ | .bool _, _, _, _, _ | .text _, _, _, _, _ => trivial
  | .int _, _, _, _, ⟨_, few⟩ => few
  | .float _, _, canonical, _, _ => canonical

theorem areJson_listed : ∀ (xs : List Value) (ts : List Tree), Value.AreStructured xs →
    Value.areTextKeyed xs = true → TellAll xs ts → Value.AreJson (Value.listedAll xs)
  | [], _, _, _, _ => trivial
  | x :: xs, _, structured, keyed, ⟨t, ts, _, first, rest⟩ => by
    obtain ⟨own, others⟩ := Bool.and_eq_true_iff.mp keyed
    exact ⟨isJson_listed x t structured.1 own first, areJson_listed xs ts structured.2 others rest⟩

theorem holdJson_listed : ∀ (es : List (Value × Value)) (ms : List (String × Tree)),
    Value.HoldStructured es → Value.holdTextKeyed es = true → TellEntries es ms →
      Value.HoldJson (Value.listedEntries es)
  | [], _, _, _, _ => trivial
  | (k, v) :: es, _, ⟨_, new, own, structured⟩, keyed, ⟨_, t, ms, _, _, first, rest⟩ => by
    simp only [Value.holdTextKeyed, Bool.and_eq_true] at keyed
    obtain ⟨⟨textual, value⟩, others⟩ := keyed
    obtain ⟨name, rfl⟩ : ∃ name, k = .text name := by
      cases k <;> first | exact ⟨_, rfl⟩ | cases textual
    refine ⟨⟨name, rfl⟩, fun entry inside same => ?_, isJson_listed v t own value first,
      holdJson_listed es ms structured others rest⟩
    have key : entry.1 ∈ es.map (·.1) :=
      Value.listedEntries_keys es ▸ List.mem_map_of_mem inside
    obtain ⟨old, member, equal⟩ := List.mem_map.mp key
    have apart := new old member
    rw [equal, same] at apart
    simp [Value.eqv] at apart

end

end Json.Tree

namespace Engine

open Json (Tree)

variable {index : TagIndex} {document : Value}

/-- Values that hold no call nodes hold none if tuples are turned into lists in each of them. -/
theorem callNodesAll_listed {xs : List Value}
    (items : ∀ x ∈ xs, callNodes index true x = [] → callNodes index true x.listed = [])
    (none : callNodesAll index true xs = []) :
    callNodesAll index true (Value.listedAll xs) = [] := by
  induction xs with
  | nil => rfl
  | cons x xs ih =>
    obtain ⟨first, rest⟩ := List.append_eq_nil_iff.mp none
    rw [Value.listedAll, callNodesAll, items x List.mem_cons_self first,
      ih (fun y inside => items y (List.mem_cons_of_mem x inside)) rest]
    rfl

/-- The same for the values of entries. -/
theorem callNodesOfEntries_listed {es : Entries}
    (entries : ∀ entry ∈ es, callNodes index true entry.2 = [] →
      callNodes index true entry.2.listed = [])
    (none : callNodesOfEntries index true es = []) :
    callNodesOfEntries index true (Value.listedEntries es) = [] := by
  induction es with
  | nil => rfl
  | cons entry es ih =>
    obtain ⟨first, rest⟩ := List.append_eq_nil_iff.mp none
    rw [Value.listedEntries, callNodesOfEntries, entries entry List.mem_cons_self first,
      ih (fun other inside => entries other (List.mem_cons_of_mem entry inside)) rest]
    rfl

/-- Turning tuples into lists makes no call nodes. -/
theorem callNodes_listed (v : Value) (none : callNodes index true v = []) :
    callNodes index true v.listed = [] := by
  induction v using documentInduction index with
  | call v name source call => simp [callNodes_of_callNode call] at none
  | list xs items => exact callNodesAll_listed items none
  | tuple xs items => exact callNodesAll_listed items none
  | mapping es literal entries =>
    rw [callNodes_mapping literal] at none
    rw [Value.listed, callNodes_mapping (callNode?_of_keys literal (Value.listedEntries_keys es))]
    exact callNodesOfEntries_listed entries none
  | leaf v leaf => cases v <;> first | exact none | cases leaf

variable (e : Engine)

/-- The tree of a structured document without call nodes is literal, and has the value of the document
with its tuples turned into lists, if the keys are texts. -/
theorem literal_of_textKeyed {t : Tree} (structured : document.IsStructured)
    (keyed : document.isTextKeyed = true) (tells : t.Tells document)
    (none : callNodes index true document = []) :
    t.isLiteral index = true ∧ t.toValue = document.listed := by
  have json := Tree.isJson_listed document t structured keyed tells
  obtain ⟨same, distinct⟩ := Tree.toValue_of_tells json (Tree.tells_listed document t tells)
  refine ⟨Tree.isLiteral_of_distinct t distinct ?_, same⟩
  rw [same]
  exact callNodes_listed document none

/-- A structured document without call nodes is given to a reader-driven engine as the text that is
written for it. If there is none, the run fails with the reason for that. Otherwise it goes through
the tree of that text, which tells the document. The run invokes nothing and either fails in this way
or comes to the document with its tuples turned into lists if and only if the document cannot be
written or has texts as its only keys. -/
theorem transform_structured (call : Caller) (tracing : Bool) (c : Config) (document data : Value)
    (past start : List Event) (e : Engine) (structured : document.IsStructured)
    (other : document.isText = false) (driven : Mode.select document c = .driverFed)
    (starts : Starts call tracing c document data past e start)
    (none : callNodes e.index true document = []) :
    let course := (transformWith call tracing c document data).after past
    (∀ cause, Json.write .compact .strict document = .error cause →
      course.calls = [] ∧ course.outcome = .error (.encode cause)) ∧
    (∀ s, Json.write .compact .strict document = .ok s →
      ∃ t : Tree, Json.read s.toList = .ok t ∧ t.Tells document ∧
        course.calls = ((t.resolve e.revive).after start).calls ∧
        course.outcome = ((t.resolve e.revive).after start).outcome) ∧
    ((course.calls = [] ∧ ((∃ cause, course.outcome = .error (.encode cause)) ∨
        course.outcome = .ok document.listed)) ↔
      (∃ cause, Json.write .compact .strict document = .error cause) ∨
        document.isTextKeyed = true) := by
  intro course
  obtain ⟨calls, outcome⟩ := starts.transform
  change course.calls = _ at calls
  change course.outcome = _ at outcome
  rw [driven] at calls outcome
  have source : jsonSource document e.config = written document :=
    jsonSource_of_value e.config other
  cases text : Json.write .compact .strict document with
  | error cause =>
    have refused : jsonSource document e.config = .error (.encode cause) := by
      rw [source]
      simp only [written, Document.write, text]
    rw [run_unsourced e refused] at calls outcome
    refine ⟨fun _ same => ?_, fun _ same => by contradiction, fun _ => .inl ⟨cause, rfl⟩,
      fun _ => ⟨calls, .inl ⟨cause, outcome⟩⟩⟩
    obtain rfl := Except.error.inj same
    exact ⟨calls, outcome⟩
  | ok s =>
    obtain ⟨t, read, tells⟩ := Json.read_of_write text
    have sourced : jsonSource document e.config = .ok (.text s) := by
      rw [source]
      simp only [written, Document.write, text]
    rw [run_of_source e sourced rfl read] at calls outcome
    refine ⟨fun _ same => by contradiction, fun _ same => ?_, ?_, ?_⟩
    · obtain rfl := Except.ok.inj same
      exact ⟨t, read, tells, calls, outcome⟩
    · rintro ⟨silent, ended⟩
      right
      have literal := (calls_resolve_eq_nil_iff e t start).mp (calls ▸ silent)
      rw [outcome, resolve_literal e t literal] at ended
      rcases ended with ⟨cause, failed⟩ | same
      · contradiction
      · rw [← Value.isTextKeyed_listed, ← Except.ok.inj same]
        exact Tree.isTextKeyed_toValue t
    · rintro (⟨cause, same⟩ | keyed)
      · contradiction
      · obtain ⟨literal, same⟩ := literal_of_textKeyed structured keyed tells none
        rw [calls, outcome, resolve_literal e t literal, same]
        exact ⟨rfl, .inr rfl⟩

/-- A pair of a number and a mapping with another pair in it. -/
def nestedPair : Value :=
  .tuple [.int 1, .mapping [(.text "a", .tuple [.bool true, .null])]]

/-- A reader turns its tuples into lists and leaves the rest alone. -/
theorem nestedPair_listed :
    let course := (transformWith Sample.call false Sample.config nestedPair .null).after []
    course.calls = [] ∧ ((∃ cause, course.outcome = .error (.encode cause)) ∨
      course.outcome = .ok nestedPair.listed) := by
  have started : startsAt Sample.call false Sample.config nestedPair .null []
      (fun e _ => (callNodes e.index true nestedPair).isEmpty) = true := by decide +kernel
  obtain ⟨e, start, starts, none⟩ := exists_starts started
  have structured : nestedPair.IsStructured :=
    ⟨trivial, ⟨rfl, by simp, ⟨trivial, trivial, trivial⟩, trivial⟩, trivial⟩
  exact (transform_structured Sample.call false Sample.config nestedPair .null [] start e structured
    rfl rfl starts (List.isEmpty_iff.mp none)).2.2.mpr (.inr rfl)

/-- A mapping with the number one and the text of it as its keys. -/
def numberKeyed : Value := .mapping [(.int 1, .text "a"), (.text "1", .text "b")]

/-- Whether a run comes to a mapping with one entry. -/
def comesToEntry (course : Course Value) : Bool :=
  match course.outcome with
  | .ok (.mapping [_]) => true
  | _ => false

theorem exists_entry {course : Course Value} (single : comesToEntry course = true) :
    ∃ entry, course.outcome = .ok (.mapping [entry]) := by
  unfold comesToEntry at single
  split at single
  · exact ⟨_, ‹_›⟩
  · contradiction

/-- A reader merges its entries, though it is structured and holds no call node. -/
theorem numberKeyed_merged :
    numberKeyed.IsStructured ∧
      startsAt Sample.call false Sample.config numberKeyed .null []
        (fun e _ => (callNodes e.index true numberKeyed).isEmpty) = true ∧
      ∃ entry, ((transformWith Sample.call false Sample.config numberKeyed .null).after
          []).outcome = .ok (.mapping [entry]) ∧ Value.mapping [entry] ≠ numberKeyed.listed := by
  refine ⟨⟨rfl, ?_, trivial, rfl, by simp, trivial, trivial⟩, by decide +kernel, ?_⟩
  · intro entry inside
    rw [List.mem_singleton.mp inside]
    rfl
  · obtain ⟨entry, single⟩ := @exists_entry
      ((transformWith Sample.call false Sample.config numberKeyed .null).after [])
      (by decide +kernel)
    refine ⟨entry, single, fun same => ?_⟩
    have count := congrArg List.length (Value.mapping.inj same)
    exact absurd count (by simp [Value.listedEntries])

end Engine

end LiveDoc
