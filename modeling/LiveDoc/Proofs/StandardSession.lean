import LiveDoc.Proofs.Printing
import LiveDoc.Proofs.Reporting
import LiveDoc.Proofs.StandardEngines

/-!
# Sessions with the standard library

A session that names no modules offers the standard functions to its documents, under one configuration
for each format. As long as its calls keep to plain values, what a document comes to there is a matter of
its text, the data and the clock, and the session shows one thing about it: the printed value, or the
text of the failure.
-/

namespace LiveDoc

open Value

namespace Session

/-- The configuration of a session that names no modules. -/
def standardConfig (format : Format) : Config :=
  { functions := StandardName.registry.map fun e => (e.1, e.2.value)
    tag := Config.dollarTag
    bindData := .bool false
    callReturned := .bool true
    stringifyFirst := .null
    format := format
    diagnostic := Config.warningDiagnostic }

/-- A session that names no modules has that configuration. -/
theorem config_standard {modules : String} (none : moduleNames modules = []) (format : Format) :
    config modules format = .done (standardConfig format) := by
  have offered : functions modules = .ok StandardName.entries := by
    rw [functions, none]
    rfl
  rw [config, offered]
  cases format <;> rfl

/-- The tags of the standard functions. -/
def standardIndex : TagIndex := StandardName.registry.map fun e => ("$" ++ e.1, e.1)

/-- The engine of a session that names no modules. -/
def engine (s : Surroundings) (format : Format) (data : Value) : Engine :=
  ⟨s.call, s.tracing, standardConfig format, data, standardIndex⟩

/-- The tag of a name is the name with a dollar sign in front of it. -/
theorem call_dollarTag (s : Surroundings) (name : String) :
    s.call Config.dollarTag [.text name] = .done (.text ("$" ++ name)) := rfl

theorem prepare_standard (s : Surroundings) (format : Format) (data : Value) :
    Engine.prepare s.call s.tracing (standardConfig format) data =
      .done (engine s format data) := rfl

/-- The configuration of a session always comes to run an engine. -/
theorem standardConfig_obliging (s : Surroundings) (format : Format) :
    (standardConfig format).Obliging s.call where
  diagnostic none := nomatch none
  tag name _ past := ⟨.text ("$" ++ name),
    congrArg (fun run => (run.after past).outcome) (call_dollarTag s name), rfl⟩

/-- A document as a session revives it. -/
def revival (s : Surroundings) (format : Format) (document data : Value) : Run Value :=
  transformWith s.call s.tracing (standardConfig format) document data

/-- What a document comes to in a session. -/
def outcome (s : Surroundings) (format : Format) (document data : Value) : Except Failure Value :=
  (revival s format document data).outcome

/-- Whether the calls of a document keep to plain values. Otherwise one of them has come to what is not
plain, such as a method that is left to itself, or to something else that a method has made. -/
def keepsPlain (sets : Bool) (s : Surroundings) (format : Format) (document data : Value) : Bool :=
  ((revival s format document data).after []).calls.all (·.keepsPlain sets)

/-- Whether all that the revival of a document depends on is plain, in inert surroundings: its value, the
data and what its calls come to. -/
structure Settled (sets : Bool) (s : Surroundings) (format : Format) (source : String)
    (data : Value) : Prop where
  inert : s.Inert sets
  document : ∀ v, Document.decode format source = .ok v → v.isPlain sets = true
  context : data.isPlain sets = true
  calls : keepsPlain sets s format (.text source) data = true

variable {sets : Bool} {s t : Surroundings} {format : Format} {source : String} {data : Value}

/-- Sessions that show the same to the library have twin engines. -/
theorem engine_standard (alike : s.Alike t) (inert : s.Inert sets)
    (whole : data.isPlain sets = true) : (engine s format data).Standard sets t.call where
  serves := Surroundings.call_serves alike inert
  functions f inside := by
    obtain ⟨entry, -, rfl⟩ := List.mem_map.mp inside
    exact ⟨entry.2, rfl⟩
  data := whole

/-- Reviving the text of a document that decodes to a plain value, with plain data, is calm. -/
theorem calm_revival (alike : s.Alike t) (inert : s.Inert sets)
    (document : ∀ v, Document.decode format source = .ok v → v.isPlain sets = true)
    (whole : data.isPlain sets = true) :
    (revival s format (.text source) data).Calm (·.keepsPlain sets) (·.isPlain sets = true)
      (fun _ => True) (revival t format (.text source) data) := by
  unfold revival transformWith
  rw [prepare_standard, prepare_standard, Run.done_andThen, Run.done_andThen, ← alike.tracing]
  have alone : engine t format data = (engine s format data).over t.call := by
    rw [engine, engine, alike.tracing]
    rfl
  rw [alone]
  refine Run.calm_andThen (Engine.quiet_trace _ _).calm fun _ _ =>
    Engine.calm_run (engine_standard alike inert whole) _ fun v found => document v ?_
  rwa [Engine.tree_text] at found

/-- The revival of a settled document is quiet, and the same in sessions that show the same to the
library. -/
theorem Settled.quiet (settled : Settled sets s format source data) (alike : s.Alike t) :
    (revival s format (.text source) data).Quiet (·.isPlain sets = true) (fun _ => True)
      (revival t format (.text source) data) :=
  calm_revival alike settled.inert settled.document settled.context [] (List.all_eq_true.mp settled.calls)

/-- A document that is settled in a session is settled in all that show the same to the library. -/
theorem Settled.alike (settled : Settled sets s format source data) (alike : s.Alike t) :
    Settled sets t format source data where
  inert := .of_alike alike settled.inert
  document := settled.document
  context := settled.context
  calls := by
    rw [keepsPlain, ← (settled.quiet alike).eq]
    exact settled.calls

/-- A settled text comes to a failure that is not one of the library's own only if it does not decode to a
value for that reason. -/
theorem outcome_foreign {f : Failure} (settled : Settled sets s format source data)
    (foreign : f.isOwn = false) (failed : outcome s format (.text source) data = .error f) :
    Document.decode format source = .error f := by
  have silent := (settled.quiet (.refl s)).course []
  rcases Engine.transform_foreign (standardConfig_obliging s format) foreign failed with
    ⟨-, read⟩ | ⟨call, inside, g, ended, instead⟩
  · exact read
  · have told : g.inPlace? = none := silent.calls call inside g ended
    rw [told] at instead
    contradiction

/-! ## What is shown of an outcome -/

/-- Whether an outcome can be shown: a value without integers of too many digits, or one of the library's
own failures whose arguments have none. -/
def isShown : Except Failure Value → Bool
  | .ok v => !v.showsOversized
  | .error f => f.isOwn && f.showsArguments

/-- What is shown of a report, or the failure that keeps it from being shown. -/
def shownReport : Report → Except Failure Event
  | .success v =>
    match Printer.print v with
    | .ok s => .ok (.printed (s ++ "\n"))
    | .error f => .error (.fault f)
  | report => .ok (.reported (report.errorText ++ "\n"))

/-- What is shown of an outcome, or the failure that keeps it from being shown. -/
def shown (outcome : Except Failure Value) : Except Failure Event :=
  (Report.concluded outcome).bind shownReport

theorem shown_of_report {outcome : Except Failure Value} {report : Report}
    (concluded : Report.concluded outcome = .ok report) : shown outcome = shownReport report := by
  rw [shown, concluded]
  rfl

theorem shown_of_failure {outcome : Except Failure Value} {f : Failure}
    (concluded : Report.concluded outcome = .error f) : shown outcome = .error f := by
  rw [shown, concluded]
  rfl

/-- A value is shown by printing it, if that is possible. -/
theorem shown_ok (v : Value) :
    (v.showsOversized = false ∧
      ∃ s, Printer.print v = .ok s ∧ shown (.ok v) = .ok (.printed (s ++ "\n"))) ∨
    (v.showsOversized = true ∧ shown (.ok v) = .error (.fault .oversizedInteger)) := by
  have concluded : shown (.ok v) = shownReport (.success v) := shown_of_report rfl
  rw [concluded, shownReport]
  rcases Printer.prints_print v with ⟨few, s, printed⟩ | ⟨many, printed⟩
  · exact .inl ⟨few, s, printed, by rw [printed]⟩
  · exact .inr ⟨many, by rw [printed]⟩

/-- A failure is shown by reporting it, if it is one of the library's own whose arguments can be shown.
-/
theorem shown_error (f : Failure) :
    (f.isOwn = true ∧ f.showsArguments = true ∧ ∃ report, Report.ofFailure f = .ok report ∧
      report.Explains ∧ shown (.error f) = .ok (.reported (report.errorText ++ "\n"))) ∨
    (f.isOwn = true ∧ f.showsArguments = false ∧
      shown (.error f) = .error (.fault .oversizedInteger)) ∨
    (f.isOwn = false ∧ shown (.error f) = .error f) := by
  cases own : f.isOwn with
  | false => exact .inr (.inr ⟨rfl, shown_of_failure (Report.concluded_foreign own)⟩)
  | true =>
    rcases Report.ofFailure_of_own own with ⟨shows, report, same, explains⟩ | ⟨hides, same⟩
    · have concluded : Report.concluded (.error f) = .ok report := by
        simp [Report.concluded, own, same]
      obtain ⟨message, place, rfl, text⟩ := explains
      exact .inl ⟨rfl, shows, _, same, ⟨message, place, rfl, text⟩, shown_of_report concluded⟩
    · have concluded : Report.concluded (.error f) = .error (.fault .oversizedInteger) := by
        simp [Report.concluded, own, same]
      exact .inr (.inl ⟨rfl, hides, shown_of_failure concluded⟩)

/-- An outcome is shown exactly if it can be. -/
theorem exists_shown_iff (outcome : Except Failure Value) :
    (∃ event, shown outcome = .ok event) ↔ isShown outcome = true := by
  cases outcome with
  | ok v =>
    rcases shown_ok v with ⟨few, s, -, printed⟩ | ⟨many, printed⟩
    · simp [printed, isShown, few]
    · simp [printed, isShown, many]
  | error f =>
    rcases shown_error f with ⟨own, shows, _, -, -, told⟩ | ⟨own, hides, told⟩ | ⟨foreign, told⟩
    · simp [told, isShown, own, shows]
    · simp [told, isShown, hides]
    · simp [told, isShown, foreign]

/-- What keeps an outcome from being shown is its failure, if that is not one of the library's own, or
else an integer of too many digits. -/
theorem shown_failure {outcome : Except Failure Value} {f : Failure}
    (hidden : shown outcome = .error f) :
    (outcome = .error f ∧ f.isOwn = false) ∨ f = .fault .oversizedInteger := by
  cases outcome with
  | ok v =>
    rcases shown_ok v with ⟨-, s, -, told⟩ | ⟨-, told⟩ <;> rw [told] at hidden
    · cases hidden
    · exact .inr (Except.error.inj hidden).symm
  | error g =>
    rcases shown_error g with ⟨-, -, report, -, -, told⟩ | ⟨-, -, told⟩ | ⟨foreign, told⟩ <;>
      rw [told] at hidden
    · cases hidden
    · exact .inr (Except.error.inj hidden).symm
    · obtain rfl := Except.error.inj hidden
      exact .inl ⟨rfl, foreign⟩

/-- Whether an event prints something. -/
def isPrinted : Event → Bool
  | .printed _ => true
  | _ => false

/-- The events that a session shows besides the trace for what there is to show. -/
def events : Except Failure Event → List Event
  | .ok event => [event]
  | .error _ => []

/-- An answer shows what there is to show of a report, and tells whether it is a value. -/
theorem after_answer (report : Report) (past : List Event) :
    untraced ((answer report).after past).log = events (shownReport report) ∧
      ((answer report).after past).outcome = (shownReport report).map isPrinted := by
  cases report with
  | success v =>
    cases printed : Printer.print v <;> simp only [answer, shownReport, printed] <;>
      exact ⟨rfl, rfl⟩
  | failure message place => exact ⟨rfl, rfl⟩

/-- An answer to a document shows what there is to show of its outcome, and tells whether that is a
value. -/
theorem after_answerTo (settled : Settled sets s format source data) (past : List Event) :
    let document := Value.text source
    let course := (answerTo s.call s.tracing (standardConfig format) document data).after past
    untraced course.log = events (shown (outcome s format document data)) ∧
      course.outcome = (shown (outcome s format document data)).map isPrinted := by
  intro document course
  have quiet := settled.quiet (.refl s)
  have silent : untraced ((revival s format document data).after past).log = [] :=
    (quiet.course past).log
  have same : ((revival s format document data).after past).outcome =
      outcome s format document data := by rw [quiet.after past]; rfl
  have handled : (Report.handle s.call s.tracing (standardConfig format) document data).after past =
      ⟨((revival s format document data).after past).log,
        ((revival s format document data).after past).calls,
        Report.concluded (outcome s format document data)⟩ := same ▸ Report.after_ofRun _ past
  unfold shown
  cases concluded : Report.concluded (outcome s format document data) with
  | error f =>
    have ended : course = _ := Run.after_andThen_of_error (by rw [handled, concluded]) answer
    rw [ended, handled]
    exact ⟨silent, rfl⟩
  | ok report =>
    have ended : course = _ := Run.after_andThen_of_ok (by rw [handled, concluded]) answer
    obtain ⟨log, outcome⟩ := after_answer report (past ++ ((revival s format document data).after
      past).log)
    rw [ended, handled]
    exact ⟨by rw [Course.followedBy, untraced_append, silent, log]; rfl, outcome⟩

end Session

end LiveDoc
