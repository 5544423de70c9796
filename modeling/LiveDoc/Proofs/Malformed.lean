import LiveDoc.Proofs.EngineFailures
import LiveDoc.Proofs.JsonReading
import LiveDoc.Proofs.Literals
import LiveDoc.Proofs.Samples
import LiveDoc.Proofs.Transformation

/-!
# Malformed documents

Text that is not well-formed JSON comes to no value. An engine that goes through documents itself is
not reached then, and the failure is the reader's. A reader that drives the engine has handed over
every object that was complete before it stopped: if one of these makes a call node, a function has
been invoked by then, and if that failed, its failure is the one that is told.
-/

namespace LiveDoc

open Json (Tree)

/-- The trees that reach an engine before the reading of a text stops: those that are complete by
then if the reader drives the engine, and none otherwise. -/
def Mode.handed (mode : Mode) (stop : Json.Stop) : List Tree :=
  match mode with
  | .driverFed => stop.closed
  | .selfDriven => []

namespace Engine

variable {document : Value} {s : String}

/-- Text is either decoded or told to be no text in its encoding. -/
theorem contents_of_isText (text : document.isText = true) :
    (∃ s, Document.contents Document.defaultEncoding document = .ok s) ∨
      ∃ cause, Document.contents Document.defaultEncoding document = .error (.parse cause) := by
  have decoded (bytes : List UInt8) :
      (∃ s, Document.contents Document.defaultEncoding (.bytes bytes) = .ok s) ∨
        ∃ cause, Document.contents Document.defaultEncoding (.bytes bytes) =
          .error (.parse cause) := by
    simp only [Document.contents]
    split
    · exact .inl ⟨_, rfl⟩
    · cases Document.decodeBytes Document.defaultEncoding bytes with
      | ok s => exact .inl ⟨s, rfl⟩
      | error f => exact .inr ⟨_, rfl⟩
  cases document with
  | text s => exact .inl ⟨s, rfl⟩
  | bytes bytes => exact decoded bytes
  | buffer bytes => exact decoded bytes
  | _ => contradiction

variable (e : Engine)

/-- In either mode the run of a JSON document that cannot be decoded fails at once. -/
theorem run_undecoded (json : e.config.format = .json) (text : document.isText = true) {f : Failure}
    (contents : Document.contents Document.defaultEncoding document = .error f) (mode : Mode) :
    e.run mode document = .fail f := by
  cases mode with
  | driverFed =>
    simp only [run, jsonSource, text, json, Document.readWith, contents, Bool.not_true,
      Bool.false_eq_true, if_false, Run.ofExcept, Run.done_andThen]
    rfl
  | selfDriven =>
    simp only [run, tree, text, Document.read, contents, if_true, bind, Except.bind,
      Run.ofExcept]
    rfl

/-- Trees are revived, and then the run fails. -/
def revived (ts : List Tree) (f : Failure) : Run Value :=
  (Tree.resolveList e.revive ts).andThen fun _ => .fail f

/-- In either mode the run of JSON text that is not read revives what the engine was handed, and
then fails with the reader's failure. -/
theorem run_unread (json : e.config.format = .json) (text : document.isText = true)
    (contents : Document.contents Document.defaultEncoding document = .ok s) {stop : Json.Stop}
    (unread : Json.read s.toList = .error stop) (mode : Mode) :
    e.run mode document = e.revived (mode.handed stop) (stop.failure s.toList) := by
  cases mode with
  | driverFed =>
    simp only [run, jsonSource, text, json, Document.readWith, contents, e.decodeWith_unread unread,
      Bool.not_true, Bool.false_eq_true, if_false, Run.ofExcept, Run.done_andThen, Mode.handed,
      revived]
  | selfDriven =>
    simp only [run, tree, text, json, Document.read, Document.decode, Json.decode, contents, unread,
      if_true, bind, Except.bind, Run.ofExcept, Mode.handed, revived, Tree.resolveList, Run.done_andThen]
    rfl

/-- What the reader tells is a fault of the text unless it stopped at an integer that is too long. -/
theorem exists_parse_iff (stop : Json.Stop) (cs : List Char) :
    (∃ cause, stop.failure cs = .parse cause) ↔ ∃ reason, stop.reason = .ok reason := by
  unfold Json.Stop.failure
  cases stop.reason <;> simp

/-- A run that fails after it has revived trees fails at once exactly if these are literal. -/
theorem fails_at_once_iff (ts : List Tree) (f : Failure) (past : List Event) :
    (((revived e ts f).after past).calls = [] ∧
        ∃ cause, ((revived e ts f).after past).outcome = .error (.parse cause)) ↔
      (∃ cause, f = .parse cause) ∧ Tree.allLiteral e.index ts = true := by
  cases literal : Tree.allLiteral e.index ts with
  | false =>
    have invoked : ((revived e ts f).after past).calls ≠ [] :=
      Run.calls_andThen_ne_nil (calls_of_not_allLiteral e ts literal past) _
    simp [invoked]
  | true => simp [revived, resolveList_literal e ts literal]

/-- A transformation of text that is not well-formed JSON ends with the failure of the preparation of
its engine if there is one. Otherwise it revives the trees that the engine is handed before the reader
stops, and then tells why the reader stopped. So it fails because of the text before any function is
invoked if and only if the reader stopped at a fault of the text, not at an integer that is too long,
and none of the trees that the engine was handed by then makes a call node. -/
theorem transform_malformed (call : Caller) (tracing : Bool) (c : Config)
    (document data : Value) (past : List Event) (json : c.format = .json)
    (text : document.isText = true)
    (malformed : ∀ s, Document.contents Document.defaultEncoding document = .ok s →
      ¬ Json.Grammar.WellFormed (fun _ => True) s.toList) :
    let course := (transformWith call tracing c document data).after past
    let mode := Mode.select document c
    (∀ f, ((enter call tracing c document data).after past).outcome = .error f →
      course.calls = [] ∧ course.outcome = .error f) ∧
    ∀ e start, Starts call tracing c document data past e start →
      (∀ s, Document.contents Document.defaultEncoding document = .ok s →
        ∃ stop, Json.read s.toList = .error stop ∧
          let revival := (revived e (mode.handed stop) (stop.failure s.toList)).after start
          course.calls = revival.calls ∧ course.outcome = revival.outcome) ∧
      ((course.calls = [] ∧ ∃ cause, course.outcome = .error (.parse cause)) ↔
        ∀ s, Document.contents Document.defaultEncoding document = .ok s →
          ∃ stop reason, Json.read s.toList = .error stop ∧ stop.reason = .ok reason ∧
            Tree.allLiteral e.index (mode.handed stop) = true) := by
  intro course mode
  have unread : ∀ s, Document.contents Document.defaultEncoding document = .ok s →
      ∃ stop, Json.read s.toList = .error stop := by
    intro s contents
    cases read : Json.read s.toList with
    | ok t =>
      have formed := (Json.Grammar.wellFormed_of_read read).1
      exact absurd (formed.mono fun _ _ _ => trivial) (malformed s contents)
    | error stop => exact ⟨stop, rfl⟩
  refine ⟨fun f failed => ?_, fun e start starts => ?_⟩
  · have ended := Run.after_andThen_of_error failed fun e : Engine => e.run mode document
    simp only [course, transformWith_eq]
    rw [ended]
    exact ⟨silent_enter call tracing c document data past, rfl⟩
  · obtain ⟨calls, outcome⟩ := starts.transform
    change course.calls = ((e.run mode document).after start).calls at calls
    change course.outcome = ((e.run mode document).after start).outcome at outcome
    have format : e.config.format = .json := starts.config ▸ json
    refine ⟨fun s contents => ?_, ?_⟩
    · obtain ⟨stop, read⟩ := unread s contents
      rw [run_unread e format text contents read mode] at calls outcome
      exact ⟨stop, read, calls, outcome⟩
    · rcases contents_of_isText text with ⟨s, contents⟩ | ⟨cause, undecoded⟩
      · obtain ⟨stop, read⟩ := unread s contents
        rw [calls, outcome, run_unread e format text contents read mode, fails_at_once_iff,
          exists_parse_iff]
        simp [contents, read]
      · rw [calls, outcome, run_undecoded e format text undecoded mode]
        simp [undecoded]

/-- A short text that is not read is not well-formed as a document. -/
theorem malformed_of_unread (few : s.toList.length ≤ Value.maxDigits)
    (unread : (Json.read s.toList).toBool = false) :
    ∀ t, Document.contents Document.defaultEncoding (.text s) = .ok t →
      ¬ Json.Grammar.WellFormed (fun _ => True) t.toList := by
  intro t contents
  obtain rfl : s = t := Except.ok.inj contents
  cases read : Json.read s.toList with
  | ok t => simp [read, Except.toBool] at unread
  | error stop => exact Json.Grammar.not_wellFormed_of_short few read

/-- Whether the reader stops at a fault of a text when none of the trees that it has handed to an
engine makes a call node. -/
def stopsAtOnce (mode : Mode) (text : String) : Bool :=
  match Json.read text.toList with
  | .error stop => stop.reason.toBool && Tree.allLiteral e.index (mode.handed stop)
  | .ok _ => false

theorem exists_stop {mode : Mode} (stops : e.stopsAtOnce mode s = true) :
    ∃ stop reason, Json.read s.toList = .error stop ∧ stop.reason = .ok reason ∧
      Tree.allLiteral e.index (mode.handed stop) = true := by
  unfold stopsAtOnce at stops
  cases read : Json.read s.toList with
  | ok t => simp [read] at stops
  | error stop =>
    simp only [read, Bool.and_eq_true] at stops
    cases fault : stop.reason with
    | ok reason => exact ⟨stop, reason, rfl, fault, stops.2⟩
    | error digits => simp [fault, Except.toBool] at stops

/-- An array in which an object is complete before the fault. -/
def brokenArray (key : String) : String := "[\x7b\"" ++ key ++ "\": [1]\x7d, x"

/-- The fault of that array is told at once if the object makes no call node. -/
theorem brokenArray_fails_at_once :
    let course := (transformWith Sample.call false Sample.config (.text (brokenArray "rec"))
      .null).after []
    course.calls = [] ∧ ∃ cause, course.outcome = .error (.parse cause) := by
  have malformed := @malformed_of_unread (brokenArray "rec") (by decide +kernel)
    (by decide +kernel)
  have stops : startsAt Sample.call false Sample.config (.text (brokenArray "rec")) .null []
      (fun e _ => e.stopsAtOnce .driverFed (brokenArray "rec")) = true := by decide +kernel
  obtain ⟨e, start, starts, passed⟩ := exists_starts stops
  have told := (transform_malformed Sample.call false Sample.config (.text (brokenArray "rec")) .null
    [] rfl rfl malformed).2 e start starts
  refine told.2.mpr fun t contents => ?_
  obtain rfl : brokenArray "rec" = t := Except.ok.inj contents
  exact exists_stop e passed

/-- If it makes one, the function is invoked before the fault is found. -/
theorem brokenArray_invokes :
    (∀ t, Document.contents Document.defaultEncoding (.text (brokenArray "$rec")) = .ok t →
        ¬ Json.Grammar.WellFormed (fun _ => True) t.toList) ∧
      ((transformWith Sample.call false Sample.config (.text (brokenArray "$rec")) .null).after
        []).calls ≠ [] :=
  ⟨malformed_of_unread (by decide +kernel) (by decide +kernel), by decide +kernel⟩

end Engine

end LiveDoc
