import LiveDoc.Proofs.EngineFailures
import LiveDoc.Proofs.Gathering
import LiveDoc.Proofs.JsonText
import LiveDoc.Proofs.Samples
import LiveDoc.Proofs.Tracing
import LiveDoc.Proofs.Transformation

/-!
# Agreement of the modes

A JSON document, given as a value or as text, takes the same course whether the reader of its text
drives the revival or the engine goes through the document itself, as long as the results within the
arguments of every call settle. Both modes take their functions, tags and flags from the same
configuration, of which only the mode option differs.
-/

namespace LiveDoc

/-- A configuration with another mode option. -/
def Config.withMode (option : Value) (c : Config) : Config := { c with stringifyFirst := option }

namespace Engine

open Json (Tree)

/-- A document that presents a JSON value: the value itself unless it is a text, which stands for what
it writes, or, in a JSON configuration, text that writes the value without repeating a key. -/
inductive Presents (format : Format) : Value → Value → Prop where
  | structured {v : Value} : v.IsJson → v.isText = false → Presents format v v
  | text {document : Value} {s : String} {t : Tree} : format = .json → document.isText = true →
      Document.contents Document.defaultEncoding document = .ok s → Json.read s.toList = .ok t →
      t.Distinct → Presents format document t.toValue

/-- The text that is written for a JSON document presents it. -/
theorem presents_write {v : Value} (json : v.IsJson) (layout : Json.Layout) :
    ∃ s, Json.write layout .strict v = .ok s ∧ Presents .json (.text s) v := by
  obtain ⟨s, t, written, read, rfl, distinct⟩ := Json.read_write json layout
  exact ⟨s, written, .text rfl rfl rfl read distinct⟩

/-- What is written for a value, as the document that a reader is given. -/
def written (v : Value) : Except Failure Value :=
  match Document.write .json .compact .strict v with
  | .ok s => .ok (.text s)
  | .error f => .error f

variable {document : Value} {s : String} {t : Tree}

/-- A document that is no text is written for the reader. -/
theorem jsonSource_of_value (c : Config) (value : document.isText = false) :
    jsonSource document c = written document := by
  simp only [jsonSource, value]
  rfl

/-- An engine that a reader drives revives the tree that is read from its source. -/
theorem run_of_source (e : Engine) {source : Value}
    (sourced : jsonSource document e.config = .ok source)
    (contents : Document.contents Document.defaultEncoding source = .ok s)
    (read : Json.read s.toList = .ok t) : e.run .driverFed document = t.resolve e.revive := by
  simp only [run, sourced, Run.ofExcept, Run.done_andThen, Document.readWith, contents,
    e.decodeWith_revive read]

/-- Without a source it fails. -/
theorem run_unsourced (e : Engine) {f : Failure} (unsourced : jsonSource document e.config = .error f) :
    e.run .driverFed document = .fail f := by
  simp only [run, unsourced, Run.ofExcept]
  rfl

/-- In either mode an engine revives the tree that JSON text is read as. -/
theorem run_of_read (e : Engine) (json : e.config.format = .json) (text : document.isText = true)
    (contents : Document.contents Document.defaultEncoding document = .ok s)
    (read : Json.read s.toList = .ok t) :
    e.run .driverFed document = t.resolve e.revive ∧
      e.run .selfDriven document = e.evaluate true t.toValue := by
  constructor
  · have sourced : jsonSource document e.config = .ok document := by
      simp only [jsonSource, text, json, Bool.not_true, Bool.false_eq_true, if_false]
    exact run_of_source e sourced contents read
  · simp only [run, tree, text, json, if_true, Document.read, Document.decode, contents,
      Json.decode, read, bind, Except.bind, Run.ofExcept, Run.done_andThen]

/-- In either mode an engine revives the tree that a document presents. -/
theorem run_of_presents (e : Engine) {document v : Value}
    (presents : Presents e.config.format document v) :
    ∃ t : Tree, t.toValue = v ∧ t.Distinct ∧ e.run .driverFed document = t.resolve e.revive ∧
      e.run .selfDriven document = e.evaluate true v := by
  cases presents with
  | structured json value =>
    obtain ⟨s, t, text, read, same, distinct⟩ := Json.read_write json .compact
    have sourced : jsonSource document e.config = .ok (.text s) := by
      rw [jsonSource_of_value e.config value]
      simp only [written, Document.write, text]
    refine ⟨t, same, distinct, run_of_source e sourced rfl read, ?_⟩
    simp only [run, tree, value, Bool.false_eq_true, if_false, Run.ofExcept, Run.done_andThen]
  | @text s t format text contents read distinct =>
    obtain ⟨fed, own⟩ := run_of_read e format text contents read
    exact ⟨t, rfl, distinct, fed, own⟩

/-- Whether results settle at every call node that the engine reaches by itself in a document. -/
def Settles (e : Engine) (document : Value) (past : List Event) : Prop :=
  ∀ visit ∈ e.visits true (e.resolving true) (callNodes e.index true document) [] past,
    visit.Settled e.index

instance (e : Engine) (document : Value) (past : List Event) : Decidable (e.Settles document past) :=
  inferInstanceAs (Decidable (∀ visit ∈ _, _))

/-- The modes of an engine agree on a document if the results in it settle. -/
theorem run_agrees (e : Engine) {document v : Value} {past : List Event}
    (presents : Presents e.config.format document v) (settles : e.Settles v past) :
    (e.run .driverFed document).after past = (e.run .selfDriven document).after past := by
  obtain ⟨t, rfl, distinct, fed, own⟩ := run_of_presents e presents
  rw [fed, own, resolve_eq_evaluate e distinct settles]

/-! ## The mode option -/

/-- An engine with another mode option. -/
def steered (mode : Value) (e : Engine) : Engine :=
  { e with config := e.config.withMode mode }

/-- The mode option has no part in executing call nodes. -/
theorem execute_steered (e : Engine) (mode : Value) (deep : Bool) (nodes : List CallNode)
    (prior : List Value) :
    (e.steered mode).execute deep ((e.steered mode).resolving deep) nodes prior =
      e.execute deep (e.resolving deep) nodes prior := by
  induction nodes generalizing prior with
  | nil => rfl
  | cons node nodes ih =>
    rw [execute_cons, execute_cons, funext fun v => congrArg (Run.andThen · _) (ih (prior ++ [v]))]
    rfl

/-- Nor has it one in evaluation. -/
theorem evaluate_steered (e : Engine) (mode : Value) (deep : Bool) (v : Value) :
    (e.steered mode).evaluate deep v = e.evaluate deep v := by
  rw [evaluate_eq_execute _ v [], evaluate_eq_execute e v []]
  exact congrArg (Run.andThen · _) (execute_steered e mode deep (callNodes e.index deep v) [])

/-- Nor in a whole run. -/
theorem run_steered (e : Engine) (option : Value) (mode : Mode) (document : Value) :
    (e.steered option).run mode document = e.run mode document := by
  have evaluate (deep : Bool) : (e.steered option).evaluate deep = e.evaluate deep :=
    funext (evaluate_steered e option deep)
  have revive : (e.steered option).revive = e.revive := evaluate false
  cases mode with
  | driverFed =>
    simp only [run, revive]
    rfl
  | selfDriven =>
    simp only [run, evaluate]
    rfl

/-- Preparing an engine does not look at the mode option. -/
theorem prepare_steered (call : Caller) (tracing : Bool) (c : Config) (data option : Value) :
    prepare call tracing (c.withMode option) data =
      (prepare call tracing c data).andThen fun e => .done (e.steered option) := by
  simp only [prepare, make, Run.andThen_assoc, Run.done_andThen]
  rfl

/-- A document with calls within the arguments of calls, two and a half among them. -/
def packed : Value :=
  Sample.calling "pack" (.list [
    Sample.calling "identity" (.float (.finite false (5 * 2 ^ 50) (-51))),
    .list [Sample.calling "count" (.list [.int 1, .bool true, Sample.calling "nothing" .null])],
    .mapping [(.text "a", .text "b"), (.text "c", .null)] ])

theorem packed_isJson : packed.IsJson := by
  have one : Value.isOversized 1 = false := by decide +kernel
  have half : Binary64.Canonical (.finite false (5 * 2 ^ 50) (-51)) := by
    unfold Binary64.Canonical
    decide
  simp only [packed, Sample.calling, Value.IsJson, Value.AreJson, Value.HoldJson, one, half]
  simp

end Engine

end LiveDoc
