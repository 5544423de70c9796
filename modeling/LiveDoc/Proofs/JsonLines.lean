import LiveDoc.Proofs.JsonRoundTrip
import LiveDoc.Proofs.Reporting
import LiveDoc.Proofs.Samples
import LiveDoc.Proofs.Transformation
import LiveDoc.Proofs.YamlReadsJson
import LiveDoc.Session

/-!
# JSON documents as lines of a dialogue

A dialogue reads its lines as YAML, and a JSON document may be entered as its compact text. The line
revives the document itself exactly if the document is the same in YAML; then the report is that of
the engine that goes through the document.
-/

namespace LiveDoc

/-! ## Lines -/

namespace Session

/-- Whether neither end of a line is blank, and its first character is not that of a mark. -/
structure Bare (cs : List Char) : Prop where
  first : ∃ x rest, cs = x :: rest ∧ Text.isBlank x = false ∧ x ≠ ':'
  last : ∀ c, cs.getLast? = some c → Text.isBlank c = false

/-- Such a line asks for the document that stands there, unless it leaves the dialogue. -/
theorem ofLine_bare {s : String} (bare : Bare s.toList) (stays : s.toList ≠ exitLine) :
    Request.ofLine s = .revive s := by
  obtain ⟨x, rest, text, visible, colon⟩ := bare.first
  have whole : Text.trim s.toList = s.toList := by
    refine Text.strip_of_ends ?_ bare.last
    rw [text]
    rintro c ⟨⟩
    exact visible
  have present : s.toList.isEmpty = false := by simp [text]
  have unmarked : Text.stripLeading? dataMark s.toList = none := by
    rw [text]
    simp [dataMark, Text.stripLeading?, colon.symm]
  simp only [Request.ofLine, whole, present, stays, unmarked, if_false, Bool.false_eq_true,
    String.ofList_toList]

theorem bare_enclosed {x y : Char} (inner : List Char) (first : Text.isBlank x = false)
    (colon : x ≠ ':') (last : Text.isBlank y = false) : Bare (x :: (inner ++ [y])) := by
  refine ⟨⟨x, inner ++ [y], rfl, first, colon⟩, fun c ends => ?_⟩
  rw [← List.cons_append, List.getLast?_concat] at ends
  rwa [← Option.some.inj ends]

theorem bare_word {cs : List Char} (word : Yaml.Progress.IsWord cs) : Bare cs := by
  have visible : ∀ c ∈ cs, Text.isBlank c = false ∧ c ≠ ':' := by
    intro c inside
    have letter := List.all_eq_true.mp word.chars c inside
    exact ⟨Yaml.isBlank_wordChar letter,
      by simpa using Yaml.Progress.ne_wordChar letter (d := ':') rfl⟩
  obtain ⟨x, rest, rfl⟩ := List.exists_cons_of_ne_nil word.present
  obtain ⟨first, colon⟩ := visible x List.mem_cons_self
  exact ⟨⟨x, rest, rfl, first, colon⟩, fun c ends => (visible c (List.mem_of_getLast? ends)).1⟩

/-- The compact text of a JSON document is a line that asks for it. -/
theorem ofLine_json {v : Value} {s : String} (json : v.IsJson)
    (written : Json.write .compact .strict v = .ok s) : Request.ofLine s = .revive s := by
  have stays : s.toList ≠ exitLine := fun same => by
    obtain ⟨t, read, -⟩ := Json.read_of_write written
    have fails : (Json.read exitLine).toBool = false := by decide +kernel
    rw [← same, read] at fails
    contradiction
  refine ofLine_bare ?_ stays
  cases v with
  | null | bool | int | float =>
    exact bare_word (Yaml.isWord_word json (Yaml.word?_of_written rfl written))
  | text s =>
    obtain rfl := Except.ok.inj written
    rw [Yaml.toList_string]
    exact bare_enclosed _ (by decide) (by decide) (by decide)
  | list vs =>
    obtain ⟨ss, -, written⟩ := Json.bind_ok written
    obtain rfl := Except.ok.inj written
    rw [Json.Writer.toList_block_row (o := '[') (c := ']') (by decide) (by decide)]
    exact bare_enclosed _ (by decide) (by decide) (by decide)
  | mapping es =>
    obtain ⟨ss, -, written⟩ := Json.bind_ok written
    obtain rfl := Except.ok.inj written
    rw [Json.Writer.toList_block_row (o := '\x7b') (c := '\x7d') (by decide) (by decide)]
    exact bare_enclosed _ (by decide) (by decide) (by decide)
  | _ => cases json

end Session

namespace Document

/-- Text deserializes to its value in YAML if that is asked for. -/
theorem deserialize_yaml (s : String) :
    deserialize (.text s) .null (.text Format.yaml.name) = Yaml.decode s :=
  deserialize_named .yaml rfl

end Document

theorem Yaml.decode_iff {s : String} {half : Char} {v : Value} :
    decode s half = .ok v ↔ read s.toList half = .ok v := by
  unfold decode
  split <;> simp_all

namespace Report

/-- Only a value is reported as one. -/
theorem concluded_value {outcome : Except Failure Value} {v : Value}
    (same : concluded outcome = .ok (.success v)) : outcome = .ok v := by
  cases outcome with
  | ok w =>
    injection same with same
    injection same with same
    rw [same]
  | error f =>
    cases own : f.isOwn with
    | false =>
      rw [concluded_foreign own] at same
      contradiction
    | true =>
      rcases concluded_own own with ⟨-, report, told, message, place, failed, -⟩ | ⟨-, left⟩
      · rw [told, failed] at same
        cases same
      · rw [left] at same
        contradiction

end Report

namespace Engine

variable {call : Caller} {tracing : Bool} {c : Config} {document data : Value} {e : Engine}

/-! ## Engines that go through documents -/

/-- The run that makes the engine of a configuration, which then goes through what was read of a
document. A line tells the mode before. -/
def drive (call : Caller) (tracing : Bool) (c : Config) (data : Value) (line : String)
    (document : Except Failure Value) : Run Value :=
  (prepare call tracing c data).andThen fun e =>
    (trace tracing line).andThen fun _ => (Run.ofExcept document).andThen (e.evaluate true)

theorem transformWith_selfDriven (mode : Mode.select document c = .selfDriven) :
    transformWith call tracing c document data =
      drive call tracing c data (modeLine c document) (tree document c) := by
  rw [transformWith_eq, enter, mode]
  simp only [Run.andThen_assoc, Run.done_andThen]
  refine Run.ext (funext fun past => ?_)
  cases ended : ((prepare call tracing c data).after past).outcome with
  | error f => rw [drive, Run.after_andThen_of_error ended, Run.after_andThen_of_error ended]
  | ok e =>
    obtain ⟨configured, -⟩ := prepare_made ⟨past, ended⟩
    rw [drive, Run.after_andThen_of_ok ended, Run.after_andThen_of_ok ended, run, configured]

/-- Text that is read as YAML makes the engine go through it, unless the reader is told to drive. -/
theorem select_yaml {s : String} (yaml : c.format = .yaml) (own : c.stringifyFirst ≠ .bool true) :
    Mode.select (.text s) c = .selfDriven := by
  have text : (Value.text s).isText = true := rfl
  have format : (c.format == .yaml) = true := by
    rw [yaml]
    rfl
  unfold Mode.select
  split
  · exact absurd ‹_› own
  · rfl
  · rw [text, format]
    rfl

/-! ## Engines without functions -/

theorem callNode?_untagged (v : Value) : callNode? [] v = none := by
  unfold callNode?
  split <;> rfl

mutual

/-- An engine without tags leaves a document alone. -/
theorem evaluate_untagged (none : e.index = []) : ∀ v : Value, e.evaluate true v = .done v
  | .mapping es => by
    have literal : callNode? e.index (.mapping es) = Option.none := by
      rw [none, callNode?_untagged]
    rw [evaluate_mapping e literal, evaluateEntries_untagged none es, Run.done_andThen]
  | .list xs => by
    rw [evaluate, if_pos rfl, evaluateAll_untagged none xs, Run.done_andThen]
  | .tuple xs => by
    rw [evaluate, if_pos rfl, evaluateAll_untagged none xs, Run.done_andThen]
  | .null | .bool _ | .int _ | .float _ | .text _ | .bytes _ | .buffer _ | .set _ | .date _
  | .moment _ | .clock _ | .span _ | .zone _ | .routine _ _ | .deferred _ _ | .record _ _ => rfl

theorem evaluateAll_untagged (none : e.index = []) : ∀ xs : List Value,
    e.evaluateAll true xs = .done xs
  | [] => rfl
  | x :: xs => by
    rw [evaluateAll, evaluate_untagged none x, Run.done_andThen, evaluateAll_untagged none xs,
      Run.done_andThen]

theorem evaluateEntries_untagged (none : e.index = []) : ∀ es : List (Value × Value),
    e.evaluateEntries true es = .done es
  | [] => rfl
  | (k, x) :: es => by
    rw [evaluateEntries, evaluate_untagged none x, Run.done_andThen,
      evaluateEntries_untagged none es, Run.done_andThen]

end

/-- Such an engine comes to what was read. -/
theorem drive_untagged {past : List Event} (line : String) (document : Except Failure Value)
    (prepared : ((prepare call tracing c data).after past).outcome = .ok e) (none : e.index = []) :
    ((drive call tracing c data line document).after past).outcome = document := by
  rw [drive, Run.after_andThen_of_ok prepared]
  change ((_ : Run Value).after _).outcome = _
  rw [Run.after_andThen_of_ok (trace_outcome tracing line _).1]
  cases document with
  | error f => rfl
  | ok v =>
    rw [Run.ofExcept, Run.done_andThen, evaluate_untagged none]
    rfl

/-- A configuration for YAML without functions. -/
def bareConfig : Config :=
  { Sample.config with
    functions := []
    format := .yaml
    diagnostic := Config.warningDiagnostic }

theorem exists_untagged : ∃ e, ((prepare Sample.call false bareConfig .null).after []).outcome =
    .ok e ∧ e.index = [] := by
  have made : (match ((prepare Sample.call false bareConfig .null).after []).outcome with
      | .ok e => e.index.isEmpty
      | .error _ => false) = true := by decide +kernel
  cases ended : ((prepare Sample.call false bareConfig .null).after []).outcome with
  | error f =>
    rw [ended] at made
    contradiction
  | ok e =>
    rw [ended] at made
    exact ⟨e, rfl, List.isEmpty_iff.mp made⟩

end Engine

namespace Session

open Engine (drive modeLine)

/-- A runner for YAML reports what becomes of the value of a line. -/
theorem handle_yaml {c : Config} (call : Caller) (tracing : Bool) (data : Value) (s : String)
    (yaml : c.format = .yaml) (own : c.stringifyFirst ≠ .bool true) :
    Report.handle call tracing c (.text s) data =
      Report.ofRun (drive call tracing c data (modeLine c (.text s)) (Yaml.decode s)) := by
  rw [Report.handle, Engine.transformWith_selfDriven (Engine.select_yaml yaml own),
    Engine.tree_text, yaml, Document.decode]

/-- Without functions it is the value itself. -/
theorem outcome_bareConfig (line : String) (document : Except Failure Value) :
    ((Report.ofRun (drive Sample.call false Engine.bareConfig .null line document)).after
      []).outcome = Report.concluded document := by
  obtain ⟨e, prepared, none⟩ := Engine.exists_untagged
  rw [Report.after_ofRun]
  exact congrArg Report.concluded (Engine.drive_untagged line document prepared none)

/-- The compact text of a JSON document is a line that revives what it deserializes to as YAML, and
this is the document exactly if the document is the same in YAML. Then a runner for YAML reports
what becomes of the document when the engine goes through it, and only then it does so under every
configuration. -/
theorem revives_json {v : Value} (json : v.IsJson) :
    ∃ s, Document.serialize v (.text Format.json.name) false true = .ok s ∧
      Request.ofLine s = .revive s ∧
      (Document.deserialize (.text s) .null (.text Format.yaml.name) = .ok v ↔
        Yaml.isAlike v = true) ∧
      (Yaml.isAlike v = true → ∀ (call : Caller) (tracing : Bool) (c : Config) (data : Value),
        c.format = .yaml → c.stringifyFirst ≠ .bool true →
          Report.handle call tracing c (.text s) data =
            Report.ofRun (drive call tracing c data (modeLine c (.text s)) (.ok v))) ∧
      ((∀ (call : Caller) (tracing : Bool) (c : Config) (data : Value) (past : List Event),
        c.format = .yaml → c.stringifyFirst ≠ .bool true →
          ((Report.handle call tracing c (.text s) data).after past).outcome =
            ((Report.ofRun (drive call tracing c data (modeLine c (.text s)) (.ok v))).after
              past).outcome) → Yaml.isAlike v = true) := by
  obtain ⟨s, -, written, -⟩ := Json.read_write json .compact
  have alike : Yaml.decode s = .ok v ↔ Yaml.isAlike v = true := by
    rw [Yaml.decode_iff, Yaml.read_json json written]
  refine ⟨s, Document.serialize_json written, ofLine_json json written, ?_, ?_, ?_⟩
  · rw [Document.deserialize_yaml, alike]
  · intro same call tracing c data yaml own
    rw [handle_yaml call tracing data s yaml own, alike.mpr same]
  · intro agree
    have own : Engine.bareConfig.stringifyFirst ≠ .bool true := nofun
    have same := agree Sample.call false Engine.bareConfig .null [] rfl own
    rw [handle_yaml _ _ _ _ rfl own, outcome_bareConfig, outcome_bareConfig] at same
    exact alike.mp (Report.concluded_value same)

/-- A configuration for YAML with the small functions. -/
def sampleConfig : Config := { Sample.config with format := .yaml }

/-- A call with a text that holds a line separator, a tenth, and a mapping. -/
def separated : Value :=
  .mapping [(.text "$pack", .list [.text "a\u2028\"b\"\n",
    .float (.finite false 7205759403792794 (-56)),
    .mapping [(.text "", .int (-7)), (.text "null", .null)]])]

/-- It is the same in YAML, so that the line of its text revives it. -/
theorem separated_revives :
    separated.IsJson ∧
      ∃ s, Document.serialize separated (.text Format.json.name) false true = .ok s ∧
        Request.ofLine s = .revive s ∧
        Document.deserialize (.text s) .null (.text Format.yaml.name) = .ok separated ∧
        Report.handle Sample.call false sampleConfig (.text s) .null =
          Report.ofRun (drive Sample.call false sampleConfig .null
            (modeLine sampleConfig (.text s)) (.ok separated)) := by
  have json : separated.IsJson := by
    have tenth : Binary64.Canonical (.finite false 7205759403792794 (-56)) :=
      ⟨by decide, by decide, by decide, .inr (by decide)⟩
    have few : Value.isOversized (-7) = false := by decide +kernel
    have apart : ∀ entry ∈ [(Value.text "null", Value.null)], entry.1 ≠ .text "" := by simp
    have inner : (Value.mapping [(.text "", .int (-7)), (.text "null", .null)]).IsJson :=
      ⟨⟨_, rfl⟩, apart, few, ⟨_, rfl⟩, nofun, trivial, trivial⟩
    exact ⟨⟨_, rfl⟩, nofun, ⟨trivial, tenth, inner, trivial⟩, trivial⟩
  have alike : Yaml.isAlike separated = true := by decide +kernel
  obtain ⟨s, written, asks, read, reports, -⟩ := revives_json json
  exact ⟨json, s, written, asks, read.mpr alike, reports alike _ _ _ _ rfl nofun⟩

/-- Ten to the power of sixteen, which is written without a point. -/
def large : Value := .float (.finite false 5000000000000000 1)

theorem isJson_large : large.IsJson := ⟨by decide, by decide, by decide, .inr (by decide)⟩

theorem text_large : Json.Writer.float (.finite false 5000000000000000 1) = "1e+16" := by
  decide +kernel

theorem write_large : Json.write .compact .strict large = .ok "1e+16" := by
  rw [← text_large]
  rfl

/-- The text that a document is, if it is one. -/
def textOf? (document : Except Failure Value) : Option String :=
  match document with
  | .ok (.text s) => some s
  | _ => none

/-- The line of a large float revives a text and not the float. -/
theorem large_becomesText :
    large.IsJson ∧ Document.serialize large (.text Format.json.name) false true = .ok "1e+16" ∧
      Request.ofLine "1e+16" = .revive "1e+16" ∧
      Document.deserialize (.text "1e+16") .null (.text Format.yaml.name) = .ok (.text "1e+16") ∧
      Document.deserialize (.text "1e+16") .null (.text Format.yaml.name) ≠ .ok large ∧
      ((Report.handle Sample.call false Engine.bareConfig (.text "1e+16") .null).after
        []).outcome = .ok (.success (.text "1e+16")) ∧
      ((Report.ofRun (drive Sample.call false Engine.bareConfig .null
        (modeLine Engine.bareConfig (.text "1e+16")) (.ok large))).after []).outcome =
          .ok (.success large) := by
  have found : textOf? (Yaml.decode "1e+16") = some "1e+16" := by decide +kernel
  have read : Yaml.decode "1e+16" = .ok (.text "1e+16") := by
    unfold textOf? at found
    split at found
    · rename_i same
      rw [same, Option.some.inj found]
    · contradiction
  have own : Engine.bareConfig.stringifyFirst ≠ .bool true := nofun
  refine ⟨isJson_large, Document.serialize_json write_large, by decide +kernel, ?_, ?_, ?_, ?_⟩
  · rw [Document.deserialize_yaml, read]
  · rw [Document.deserialize_yaml, read]
    nofun
  · rw [handle_yaml _ _ _ _ rfl own, outcome_bareConfig, read]
    rfl
  · exact outcome_bareConfig _ _

end Session

end LiveDoc
