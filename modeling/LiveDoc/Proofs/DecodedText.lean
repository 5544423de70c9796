import LiveDoc.Proofs.Formats
import LiveDoc.Proofs.JsonReading
import LiveDoc.Proofs.Modes
import LiveDoc.Proofs.RepeatedKeys

/-!
# Text and what it decodes to

A JSON document may be given as text or as the value that the text decodes to. An engine that goes
through documents itself cannot tell the two apart. A reader that drives the engine meets all members
that the text writes, but of the value only those that are left of them. The two come to the same if
the objects of the text are steady; a call in a member that is dropped is heard of in the text alone.
-/

namespace LiveDoc

namespace Engine

open Json (Tree)
open Json.Grammar (Convertible WellFormed)

variable {document : Value} {s : String} {t : Tree}

/-- What text decodes to if JSON is asked for. -/
def decoded (document : Value) : Except Failure Value :=
  Document.deserialize document .null (.text Format.json.name)

/-- Text that is read as a tree decodes to the value of the tree. -/
theorem decoded_of_read (contents : Document.contents Document.defaultEncoding document = .ok s)
    (read : Json.read s.toList = .ok t) : decoded document = .ok t.toValue := by
  rw [decoded, Document.deserialize_named .json contents, Document.decode, Json.decode, read]

variable (e : Engine)

/-- In either mode an engine takes the same course on text and on the value that it decodes to, if
the objects of the text are steady wherever the reader drives. -/
theorem run_decoded (json : e.config.format = .json) (text : document.isText = true)
    (contents : Document.contents Document.defaultEncoding document = .ok s)
    (read : Json.read s.toList = .ok t) (value : t.toValue.isText = false) (mode : Mode)
    (steady : mode = .driverFed → t.isSteady e.index = true) :
    e.run mode document = e.run mode t.toValue := by
  obtain ⟨fed, own⟩ := run_of_read e json text contents read
  have structured := Tree.isJson_of_regular (Json.Grammar.wellFormed_of_read read).2
  obtain ⟨u, same, distinct, fedValue, ownValue⟩ :=
    run_of_presents e (.structured structured value)
  cases mode with
  | driverFed =>
    have collapsed := Tree.distinct_collapsed t
    rw [fed, fedValue, resolve_collapsed e t (steady rfl), resolve_eq_execute e _ collapsed [],
      resolve_eq_execute e u distinct [], Tree.collapsed_toValue, same]
  | selfDriven => rw [own, ownValue]

/-- A run of a JSON document does not heed the trace if the functions do not. -/
theorem unheeding_run (unheeding : e.call.Unheeding) {v : Value} (structured : v.IsJson)
    (value : v.isText = false) (mode : Mode) : (e.run mode v).Unheeding := by
  obtain ⟨u, same, distinct, fed, own⟩ := run_of_presents e (.structured structured value)
  cases mode with
  | driverFed =>
    rw [fed]
    exact unheeding_resolve unheeding distinct
  | selfDriven =>
    rw [own, evaluate_eq_execute e v []]
    exact Run.unheeding_andThen
      (unheeding_execute unheeding (fun _ _ => Run.unheeding_done _) _ _) fun _ =>
        Run.unheeding_done _

/-- In a JSON configuration text is revived in the same mode as any other document. -/
theorem select_of_json {c : Config} (json : c.format = .json) (v w : Value) :
    Mode.select v c = Mode.select w c := by
  have yaml : (c.format == .yaml) = false := by rw [json]; rfl
  simp only [Mode.select, yaml, Bool.and_false]

/-- Well-formed JSON text with integers that are converted decodes to a value. Unless that is a text
itself, transforming the text and transforming the value invoke the same functions with the same
arguments, come to the same outcome and show the same events, lines of the trace apart. Where the
reader drives the engine, it is enough for this that the objects of the text are steady, so that
merging the members of an object neither drops nor moves one that holds calls. While tracing the
functions must not heed the trace, which tells the type of the document. -/
theorem transform_decoded (call : Caller) (tracing : Bool) (c : Config) (document data : Value)
    (past : List Event) (json : c.format = .json) (text : document.isText = true)
    (contents : Document.contents Document.defaultEncoding document = .ok s)
    (formed : WellFormed Convertible s.toList) :
    ∃ t : Tree, Json.read s.toList = .ok t ∧ decoded document = .ok t.toValue ∧
      (t.toValue.isText = false → (tracing = true → call.Unheeding) →
        (Mode.select document c = .driverFed → ∀ e start,
          Starts call tracing c document data past e start → t.isSteady e.index = true) →
        ((transformWith call tracing c document data).after past).Alike
          ((transformWith call tracing c t.toValue data).after past)) := by
  obtain ⟨t, read⟩ := Json.Grammar.exists_read formed
  refine ⟨t, read, decoded_of_read contents read, fun value unheeding steady => ?_⟩
  have structured := Tree.isJson_of_regular (Json.Grammar.wellFormed_of_read read).2
  have split (v : Value) : transformWith call tracing c v data =
      (prepare call tracing c data).andThen fun e =>
        (trace tracing (modeLine c v)).andThen fun _ => e.run (Mode.select v c) v := by
    rw [transformWith_eq, enter]
    simp only [Run.andThen_assoc, Run.done_andThen]
  rw [split, split]
  cases ended : ((prepare call tracing c data).after past).outcome with
  | error f =>
    rw [Run.after_andThen_of_error ended, Run.after_andThen_of_error ended]
    exact .refl _
  | ok e =>
    rw [Run.after_andThen_of_ok ended, Run.after_andThen_of_ok ended]
    obtain ⟨configured, called⟩ := prepare_made ⟨past, ended⟩
    have agree := run_decoded e (configured ▸ json) text contents read value
      (Mode.select document c) fun driven => steady driven e _ (starts_of_prepared ended rfl)
    have unheeded : tracing = true → (e.run (Mode.select document c) document).Unheeding := by
      intro traced
      rw [agree]
      exact unheeding_run e (called ▸ unheeding traced) structured value _
    rw [select_of_json json t.toValue document]
    exact (Course.Alike.refl _).followedBy (alike_after_trace unheeded (by rw [agree]))

/-! ## A member that is written twice -/

/-- Whether text is read as a tree with steady objects that is no text itself. -/
def readsSteady (text : String) : Bool :=
  match Json.read text.toList with
  | .ok t => t.isSteady e.index && !t.toValue.isText
  | .error _ => false

theorem isSteady_of_readsSteady (passed : e.readsSteady s = true)
    (read : Json.read s.toList = .ok t) :
    t.isSteady e.index = true ∧ t.toValue.isText = false := by
  simpa [readsSteady, read] using passed

/-- Text that writes a member twice. -/
def repeated (first second : String) : String :=
  "\x7b\"a\": " ++ first ++ ", \"a\": " ++ second ++ "\x7d"

/-- A call node as text. -/
def calledText (name : String) : String := "\x7b\"$" ++ name ++ "\": []\x7d"

/-- A call in the member that is left is heard of in the text and in the value. -/
theorem repeated_alike :
    ∃ v, decoded (.text (repeated "1" (calledText "pack"))) = .ok v ∧
      ((transformWith Sample.call false Sample.config (.text (repeated "1" (calledText "pack")))
        .null).after []).Alike
      ((transformWith Sample.call false Sample.config v .null).after []) := by
  -- for any text, as the fixed one must stay closed to be evaluated
  have alike : ∀ text : String, (Json.read text.toList).toBool = true →
      startsAt Sample.call false Sample.config (.text text) .null []
        (fun e _ => e.readsSteady text) = true →
      ∃ v, decoded (.text text) = .ok v ∧
        ((transformWith Sample.call false Sample.config (.text text) .null).after []).Alike
          ((transformWith Sample.call false Sample.config v .null).after []) := by
    intro text whole started
    obtain ⟨t, read, value, alike⟩ := transform_decoded Sample.call false Sample.config
      (.text text) .null [] rfl rfl rfl (Json.Grammar.wellFormed_of_toBool whole)
    obtain ⟨e, start, -, passed⟩ := exists_starts started
    exact ⟨t.toValue, value, alike (isSteady_of_readsSteady e passed read).2
      (fun traced => by cases traced) fun _ e start starts =>
        (isSteady_of_readsSteady e (starts.passes started) read).1⟩
  exact alike _ (by decide +kernel) (by decide +kernel)

/-- Whether text decodes to a value, no text, with which a transformation ends well while it fails with
the text. -/
def failsAsTextOnly (text : String) : Bool :=
  match decoded (.text text) with
  | .ok v => !v.isText &&
      ((transformWith Sample.call false Sample.config v .null).after []).succeeds &&
      !((transformWith Sample.call false Sample.config (.text text) .null).after []).succeeds
  | .error _ => false

theorem outcome_ne_of_failsAsTextOnly (fails : failsAsTextOnly s = true) :
    ∃ v, decoded (.text s) = .ok v ∧ v.isText = false ∧
      ((transformWith Sample.call false Sample.config (.text s) .null).after []).outcome ≠
        ((transformWith Sample.call false Sample.config v .null).after []).outcome := by
  unfold failsAsTextOnly at fails
  cases value : decoded (.text s) with
  | error f => simp [value] at fails
  | ok v =>
    simp only [value, Bool.and_eq_true, Bool.not_eq_true'] at fails
    obtain ⟨⟨other, ends⟩, breaks⟩ := fails
    refine ⟨v, rfl, other, fun same => ?_⟩
    rw [Course.succeeds, same] at breaks
    exact absurd ends (Bool.eq_false_iff.mp breaks)

/-- A call in the member that is dropped is heard of in the text only: it fails there. -/
theorem repeated_hidden :
    WellFormed Convertible (repeated (calledText "boom") "1").toList ∧
      ∃ v, decoded (.text (repeated (calledText "boom") "1")) = .ok v ∧ v.isText = false ∧
        ((transformWith Sample.call false Sample.config
            (.text (repeated (calledText "boom") "1")) .null).after []).outcome ≠
          ((transformWith Sample.call false Sample.config v .null).after []).outcome :=
  ⟨Json.Grammar.wellFormed_of_toBool (by decide +kernel),
    outcome_ne_of_failsAsTextOnly (by decide +kernel)⟩

end Engine

end LiveDoc
