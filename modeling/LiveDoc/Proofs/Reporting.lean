import LiveDoc.Proofs.OwnFailures
import LiveDoc.Report

/-!
# What a runner reports

A runner reports the value that a transformation comes to, or the text of its failure if that is one of
the library's own. Three kinds of faults leave it: those of decoding the text of a document to a value,
those that a call passes on in place of what it cannot tell, both as they are, and the one of showing the
arguments of a failed call. Nothing else can go wrong under a configuration whose tag and diagnostic end
well.
-/

namespace LiveDoc

/-- Whether the arguments of a failed call can be shown: as lenient JSON text, or else in a form that
has no integer of too many digits in it. -/
def Failure.showsArguments : Failure → Bool
  | .evaluation _ arguments _ _ => arguments.isEmpty ||
      (Json.write .compact .lenient (.list arguments)).toBool ||
      !(Value.list arguments).showsOversized
  | _ => true

namespace Report

/-- Whether a report states a failure with a text. -/
def Explains (report : Report) : Prop :=
  ∃ message place, report = .failure message place ∧ report.errorText ≠ ""

/-- A text with something before it is not empty. -/
theorem append_ne_empty {lead : String} (present : lead ≠ "") (rest : String) : lead ++ rest ≠ "" := by
  simp [String.append_eq_empty_iff, present]

/-- A failure with a message is explained, with its place or without. -/
theorem explains_failure {message : String} (present : message ≠ "")
    (place : Option (Value × Value)) : (Report.failure message place).Explains := by
  refine ⟨message, place, rfl, ?_⟩
  unfold errorText
  split
  · contradiction
  · rename_i same
    cases same
    exact present
  · rename_i same
    cases same
    split
    · exact present
    · exact append_ne_empty (append_ne_empty (append_ne_empty present _) _) _

/-- The arguments of a failed call have a text exactly if they can be shown. -/
theorem argumentsText_eq (name : Value) (arguments : List Value) (message : String)
    (cause : Option FailureClass) (some : arguments.isEmpty = false) :
    (Failure.evaluation name arguments message cause).showsArguments = true ∧
        (∃ s, argumentsText arguments = .ok s) ∨
      (Failure.evaluation name arguments message cause).showsArguments = false ∧
        argumentsText arguments = .error .oversizedInteger := by
  unfold argumentsText Failure.showsArguments
  cases written : Json.write .compact .lenient (.list arguments) <;>
    cases shows : (Value.list arguments).showsOversized <;>
    simp [Document.write, written, shows, some, Except.toBool]

/-- One of the library's own failures is explained if its arguments can be shown, and is a fault of its
own else. -/
theorem ofFailure_of_own {f : Failure} (own : f.isOwn = true) :
    f.showsArguments = true ∧ (∃ report, ofFailure f = .ok report ∧ report.Explains) ∨
      f.showsArguments = false ∧ ofFailure f = .error .oversizedInteger := by
  have led (lead message : String) (present : lead ≠ "") (place : Option (Value × Value)) :
      (Report.failure (lead ++ message) place).Explains :=
    explains_failure (append_ne_empty present message) place
  cases f with
  | fault g => contradiction
  | parse cause => exact .inl ⟨rfl, _, rfl, led "ParseError: " _ (by decide) _⟩
  | encode cause => exact .inl ⟨rfl, _, rfl, led "EncodeError: " _ (by decide) _⟩
  | general message => exact .inl ⟨rfl, _, rfl, led "InternalError: " _ (by decide) _⟩
  | document message => exact .inl ⟨rfl, _, rfl, led "InternalError: " _ (by decide) _⟩
  | evaluation name arguments message cause =>
    cases none : arguments.isEmpty with
    | true =>
      refine .inl ⟨by simp [Failure.showsArguments, none], _, ?_,
        led "EvaluationError: " message (by decide) Option.none⟩
      simp only [ofFailure, none, if_true]
      rfl
    | false =>
      rcases argumentsText_eq name arguments message cause none with ⟨shown, s, text⟩ | ⟨hidden, text⟩
      · refine .inl ⟨shown, _, ?_, led ("EvaluationError: " ++ message ++ "\nArguments: ") s ?_
          Option.none⟩
        · simp only [ofFailure, none, text, Bool.false_eq_true, if_false]
          rfl
        · exact append_ne_empty (append_ne_empty (by decide) _) _
      · refine .inr ⟨hidden, ?_⟩
        simp only [ofFailure, none, text, Bool.false_eq_true, if_false]
        rfl

/-- What a report makes of an outcome. -/
def concluded : Except Failure Value → Except Failure Report
  | .ok v => .ok (.success v)
  | .error f =>
    if f.isOwn then
      match ofFailure f with
      | .ok report => .ok report
      | .error fault => .error (.fault fault)
    else .error f

/-- A failure that is not one of the library's own is passed on. -/
theorem concluded_foreign {f : Failure} (foreign : f.isOwn = false) :
    concluded (.error f) = .error f := by
  simp [concluded, foreign]

/-- An own failure is reported if its arguments can be shown. -/
theorem concluded_own {f : Failure} (own : f.isOwn = true) :
    f.showsArguments = true ∧
        (∃ report, concluded (.error f) = .ok report ∧ report.Explains) ∨
      f.showsArguments = false ∧ concluded (.error f) = .error (.fault .oversizedInteger) := by
  rcases ofFailure_of_own own with ⟨shown, report, told, explains⟩ | ⟨hidden, told⟩
  · exact .inl ⟨shown, report, by simp [concluded, own, told], explains⟩
  · exact .inr ⟨hidden, by simp [concluded, own, told]⟩

/-- A report is returned exactly if a failure, where there is one, can be explained. -/
theorem exists_concluded_iff (outcome : Except Failure Value) :
    (∃ report, concluded outcome = .ok report) ↔
      ∀ f, outcome = .error f → f.isOwn = true ∧ f.showsArguments = true := by
  cases outcome with
  | ok v => exact ⟨fun _ f same => by contradiction, fun _ => ⟨.success v, rfl⟩⟩
  | error f =>
    refine ⟨fun ⟨report, told⟩ g same => ?_, fun all => ?_⟩
    · obtain rfl := Except.error.inj same
      cases own : f.isOwn with
      | false =>
        rw [concluded_foreign own] at told
        contradiction
      | true =>
        rcases concluded_own own with ⟨shown, -⟩ | ⟨-, left⟩
        · exact ⟨rfl, shown⟩
        · rw [left] at told
          contradiction
    · obtain ⟨own, shown⟩ := all f rfl
      rcases concluded_own own with ⟨-, report, told, -⟩ | ⟨hidden, -⟩
      · exact ⟨report, told⟩
      · rw [shown] at hidden
        contradiction

/-- What leaves instead is a failure that is not an own one, or comes from arguments that cannot be
shown. -/
theorem concluded_error {outcome : Except Failure Value} {f : Failure}
    (left : concluded outcome = .error f) :
    (outcome = .error f ∧ f.isOwn = false) ∨
      (f = .fault .oversizedInteger ∧
        ∃ g, outcome = .error g ∧ g.isOwn = true ∧ g.showsArguments = false) := by
  cases outcome with
  | ok v => contradiction
  | error g =>
    cases own : g.isOwn with
    | false =>
      rw [concluded_foreign own] at left
      obtain rfl := Except.error.inj left
      exact .inl ⟨rfl, own⟩
    | true =>
      rcases concluded_own own with ⟨-, report, told, -⟩ | ⟨hidden, told⟩
      · rw [told] at left
        contradiction
      · rw [told] at left
        exact .inr ⟨(Except.error.inj left).symm, g, rfl, own, hidden⟩

/-- A report shows and invokes what the run does, and concludes from its outcome. -/
theorem after_ofRun (r : Run Value) (past : List Event) :
    (ofRun r).after past =
      ⟨(r.after past).log, (r.after past).calls, concluded (r.after past).outcome⟩ := by
  cases course : r.after past with
  | mk log calls outcome =>
    cases outcome with
    | ok v => simp [ofRun, Run.handle, Run.andThen, course, concluded]
    | error f =>
      cases own : f.isOwn with
      | false => simp [ofRun, Run.handle, Run.andThen, course, concluded, own]
      | true =>
        cases told : ofFailure f <;>
          simp [ofRun, Run.handle, Run.andThen, course, concluded, own, told, Run.ofFault,
            Run.fault]

end Report

/-- Whether the callables of a configuration end well: the diagnostic if it is told that there are no
functions, and the tag with a value that can be a key for every name. -/
structure Config.Obliging (call : Caller) (c : Config) : Prop where
  diagnostic : c.functions.isEmpty = true → ∀ past, ∃ v,
    ((call c.diagnostic [.text Engine.noFunctions]).after past).outcome = .ok v
  tag : ∀ name ∈ c.functions.map (·.1), ∀ past, ∃ v,
    ((call c.tag [.text name]).after past).outcome = .ok v ∧ v.unhashable? = none

namespace Engine

variable {call : Caller} {c : Config}

/-- Names are given their tags if the tag ends well with each of them. -/
theorem exists_addTags {tag : Value} {names : List String}
    (obliging : ∀ name ∈ names, ∀ past, ∃ v,
      ((call tag [.text name]).after past).outcome = .ok v ∧ v.unhashable? = none)
    (index : TagIndex) (past : List Event) :
    ∃ made, ((addTags call tag names index).after past).outcome = .ok made := by
  induction names generalizing index past with
  | nil => exact ⟨index, rfl⟩
  | cons name names ih =>
    have later := ih fun other inside => obliging other (List.mem_cons_of_mem name inside)
    obtain ⟨v, ended, hashable⟩ := obliging name List.mem_cons_self past
    have apart : ((call tag [.text name]).apart.after past).outcome = .ok v := ended
    rw [addTags, Run.after_andThen_of_ok apart]
    simp only [Course.followedBy, hashable]
    cases v <;> exact later _ _

/-- An obliging configuration always comes to run an engine. -/
theorem exists_starts_of_obliging (obliging : c.Obliging call) (tracing : Bool)
    (document data : Value) (past : List Event) :
    ∃ e start, Starts call tracing c document data past e start := by
  have diagnosed : ((diagnose call c).after past).outcome = .ok () := by
    unfold diagnose
    cases none : c.functions.isEmpty with
    | false => rfl
    | true =>
      obtain ⟨v, ended⟩ := obliging.diagnostic none past
      have apart : ((call c.diagnostic [.text noFunctions]).apart.after past).outcome = .ok v :=
        ended
      rw [if_pos rfl, Run.after_andThen_of_ok apart]
      rfl
  obtain ⟨index, tagged⟩ := exists_addTags obliging.tag [] (past ++ ((diagnose call c).after past).log)
  have prepared : ((prepare call tracing c data).after past).outcome =
      .ok ⟨call, tracing, c, data, index⟩ := by
    rw [prepare, Run.after_andThen_of_ok diagnosed, make, Course.followedBy, tagIndex,
      Run.after_andThen_of_ok tagged]
    rfl
  exact ⟨_, _, starts_of_prepared prepared rfl⟩

/-- A fault of decoding JSON is that of an integer with too many digits. -/
theorem oversized_of_read {document : Value} {f : Failure} (foreign : f.isOwn = false)
    (text : document.isText = true) (unread : Document.read .json document = .error f) :
    ∃ digits, f = .fault (.oversizedNumeral digits) := by
  rcases contents_of_isText text with ⟨s, contents⟩ | ⟨cause, undecoded⟩
  · cases whole : Json.read s.toList with
    | ok t =>
      simp [Document.read, Document.decode, Json.decode, contents, whole, bind, Except.bind]
        at unread
    | error stop =>
      have same : stop.failure s.toList = f := by
        simpa [Document.read, Document.decode, Json.decode, contents, whole, bind, Except.bind]
          using unread
      cases reason : stop.reason with
      | ok reason =>
        have told : (stop.failure s.toList).isOwn = true := by simp [Json.Stop.failure, reason]; rfl
        rw [same, foreign] at told
        contradiction
      | error digits => exact ⟨digits, by rw [← same]; simp [Json.Stop.failure, reason]⟩
  · have same : Failure.parse cause = f := by
      simpa [Document.read, undecoded, bind, Except.bind] using unread
    rw [← same] at foreign
    contradiction

/-- A transformation under an obliging configuration fails with a failure that is not one of the
library's own only if the document is text that does not decode to a value for that reason, or if one of
its calls passes the failure on. -/
theorem transform_foreign (obliging : c.Obliging call) {tracing : Bool} {document data : Value}
    {past : List Event} {f : Failure} (foreign : f.isOwn = false)
    (failed : ((transformWith call tracing c document data).after past).outcome = .error f) :
    (document.isText = true ∧ Document.read c.format document = .error f) ∨
      ((transformWith call tracing c document data).after past).PassesOn f := by
  obtain ⟨e, start, starts⟩ := exists_starts_of_obliging obliging tracing document data past
  obtain ⟨calls, outcome⟩ := starts.transform
  rw [outcome] at failed
  refine (run_foreign e foreign failed).imp (fun read => ?_) fun passed => ?_
  · rwa [starts.config] at read
  · rwa [Course.PassesOn, calls]

end Engine

namespace Report

/-- A runner shows and invokes what the transformation does. It reports success with exactly the value
that the transformation comes to, and explains a failure that is one of the library's own and whose
arguments can be shown. So a report is returned if and only if every failure of the transformation is
of this kind. What leaves the runner otherwise is a failure that is not one of the library's own, as
the transformation told it, or the fault of an integer with too many digits among the arguments of a
failed call. The former comes from text that does not decode to a value for that reason (in JSON text
from an integer with too many digits), or is passed on in place of a failure of a function that cannot be
told, an interruption or a fault without words. -/
theorem handle_reports (call : Caller) (tracing : Bool) (c : Config) (document data : Value)
    (past : List Event) (obliging : c.Obliging call) :
    let course := (transformWith call tracing c document data).after past
    let reported := (handle call tracing c document data).after past
    reported.log = course.log ∧ reported.calls = course.calls ∧
    (∀ v, course.outcome = .ok v → reported.outcome = .ok (.success v)) ∧
    (∀ f, course.outcome = .error f → f.isOwn = true → f.showsArguments = true →
      ∃ report, reported.outcome = .ok report ∧ report.Explains) ∧
    ((∃ report, reported.outcome = .ok report) ↔
      ∀ f, course.outcome = .error f → f.isOwn = true ∧ f.showsArguments = true) ∧
    (∀ f, reported.outcome = .error f →
      (course.outcome = .error f ∧ f.isOwn = false ∧ document.isText = true ∧
        Document.read c.format document = .error f ∧
        (c.format = .json → ∃ digits, f = .fault (.oversizedNumeral digits))) ∨
      (course.outcome = .error f ∧ f.isOwn = false ∧ course.PassesOn f) ∨
      (f = .fault .oversizedInteger ∧ ∃ g, course.outcome = .error g ∧ g.isOwn = true ∧
        g.showsArguments = false)) := by
  intro course reported
  have concludes : reported = ⟨course.log, course.calls, concluded course.outcome⟩ :=
    after_ofRun (transformWith call tracing c document data) past
  have outcome : reported.outcome = concluded course.outcome := by rw [concludes]
  refine ⟨by rw [concludes], by rw [concludes], fun v ended => ?_, fun f ended own shown => ?_, ?_,
    fun f left => ?_⟩
  · rw [outcome, ended]
    rfl
  · rw [outcome, ended]
    rcases concluded_own own with ⟨-, told⟩ | ⟨hidden, -⟩
    · exact told
    · rw [shown] at hidden
      contradiction
  · rw [outcome]
    exact exists_concluded_iff course.outcome
  · rw [outcome] at left
    rcases concluded_error left with ⟨ended, foreign⟩ | hidden
    · rcases Engine.transform_foreign obliging foreign ended with ⟨text, unread⟩ | passed
      · exact .inl ⟨ended, foreign, text, unread, fun json =>
          Engine.oversized_of_read foreign text (json ▸ unread)⟩
      · exact .inr (.inl ⟨ended, foreign, passed⟩)
    · exact .inr (.inr hidden)

/-- The sample configuration for a format. -/
def sampleFor (format : Format) : Config := { Sample.config with format := format }

theorem sampleFor_obliging (format : Format) : (sampleFor format).Obliging Sample.call where
  diagnostic none := nomatch none
  tag name _ _ := ⟨.text ("$" ++ name), rfl, rfl⟩

/-- Whether a run ends well or with a failure that can be explained. -/
def explainable (course : Course Value) : Bool :=
  match course.outcome with
  | .ok _ => true
  | .error f => f.isOwn && f.showsArguments

theorem own_of_explainable {course : Course Value} (passed : explainable course = true) :
    ∀ f, course.outcome = .error f → f.isOwn = true ∧ f.showsArguments = true := by
  intro f failed
  simpa [explainable, failed] using passed

/-- A failed call is reported. -/
theorem failedCall_reported :
    (sampleFor .json).Obliging Sample.call ∧
      ∃ report, ((handle Sample.call false (sampleFor .json)
        (Sample.calling "boom" (.list [.text "no"])) .null).after []).outcome = .ok report := by
  have explained : explainable ((transformWith Sample.call false (sampleFor .json)
      (Sample.calling "boom" (.list [.text "no"])) .null).after []) = true := by decide +kernel
  exact ⟨sampleFor_obliging .json, (handle_reports Sample.call false (sampleFor .json)
    (Sample.calling "boom" (.list [.text "no"])) .null [] (sampleFor_obliging .json)).2.2.2.2.1.mpr
      (own_of_explainable explained)⟩

/-- The fault of a date that does not exist leaves the runner. -/
theorem badDate_leaves :
    (sampleFor .yaml).Obliging Sample.call ∧
      ∃ f, ((handle Sample.call false (sampleFor .yaml) (.text "2024-13-45") .null).after
        []).outcome = .error f :=
  ⟨sampleFor_obliging .yaml, Course.exists_error (by decide +kernel)⟩

end Report

end LiveDoc
