import LiveDoc.Library.Call
import LiveDoc.Proofs.Characters
import LiveDoc.Proofs.StandardSession

/-!
# Dialogues

A dialogue hears lines up to the first one that ends it. Each line sees the data that the last line
before it to set any has set, and is answered by what it comes to under these data. As long as there are
no sets, which methods of theirs could change, nothing else passes from one line to the next. So a line
that sets no data can be left out without a change to the answers of the others.
-/

namespace LiveDoc.Session

open Value

/-- The lines that a dialogue hears: those before the first one that ends it. -/
def heard (lines : List String) : List String :=
  lines.takeWhile fun line => Request.ofLine line != .leave

/-- The data that a line sets, if it sets any. -/
def payload? (line : String) : Option Value :=
  match Request.ofLine line with
  | .setData source => (Document.decode .yaml source).toOption
  | _ => none

/-- The data after lines: what the last of them to set any has set, or else the data before them. -/
def context (present : Value) (lines : List String) : Value :=
  (lines.filterMap payload?).getLastD present

/-- Lines, each with the data that it sees. -/
def situations (present : Value) (lines : List String) : List (Value × String) :=
  lines.mapIdx fun i line => (context present (lines.take i), line)

/-- What a line is answered with under the data. -/
def answerOf (s : Surroundings) (data : Value) (line : String) : List Event :=
  match Request.ofLine line with
  | .setData source =>
    match Document.decode .yaml source with
    | .error (.parse cause) => [.reported (dataFailure cause ++ "\n")]
    | _ => []
  | .revive document => events (shown (outcome s .yaml (.text document) data))
  | _ => []

/-- The answers to the lines that a dialogue hears. -/
def answers (s : Surroundings) (lines : List String) : List (List Event) :=
  (situations .null (heard lines)).map fun p => answerOf s p.1 p.2

/-- What a dialogue shows at its start. -/
def opening : List Event := greeting.map fun line => .printed (line ++ "\n")

/-- Answers, each after a prompt. -/
def transcript (answers : List (List Event)) : List Event :=
  answers.flatMap fun answer => .printed prompt :: answer

/-- What a dialogue shows at its end: a prompt for the line that ends it, or a farewell. -/
def ending (lines : List String) : List Event :=
  if heard lines = lines then [.printed (prompt ++ farewell)] else [.printed prompt]

/-- Whether what a line holds decodes to a value or fails to parse. -/
def isReadable (line : String) : Bool :=
  let reads := fun source =>
    match Document.decode .yaml source with
    | .ok _ => true
    | .error (.parse _) => true
    | .error _ => false
  match Request.ofLine line with
  | .setData source => reads source
  | .revive document => reads document
  | _ => true

/-- Whether no integer of too many digits is in the value that an outcome is, or among the arguments of
the call that failed. -/
def hasFewDigits : Except Failure Value → Bool
  | .ok v => !v.showsOversized
  | .error (.evaluation _ arguments _ _) => !(Value.list arguments).showsOversized
  | .error _ => true

/-- Whether this holds of what a line comes to under the data. -/
def comesToFewDigits (s : Surroundings) (data : Value) (line : String) : Bool :=
  match Request.ofLine line with
  | .revive document => hasFewDigits (outcome s .yaml (.text document) data)
  | _ => true

/-- Whether the calls that a line makes under the data keep to plain values. -/
def callsKeepPlain (s : Surroundings) (data : Value) (line : String) : Bool :=
  match Request.ofLine line with
  | .revive document => keepsPlain false s .yaml (.text document) data
  | _ => true

/-- The text of a document or of data that a request holds. -/
def Request.source? : Request → Option String
  | .setData source => some source
  | .revive source => some source
  | _ => none

/-- What is asked of a line under the data: what it holds decodes or fails to parse, writes characters,
and decodes to no sets; and if it is a document, its calls come to plain values again, and no integer of
too many digits is in what it comes to. -/
structure Orderly (s : Surroundings) (data : Value) (line : String) : Prop where
  readable : isReadable line = true
  characters : ∀ source, (Request.ofLine line).source? = some source →
    Document.WritesCharacters .yaml source
  plain : ∀ source v, (Request.ofLine line).source? = some source →
    Document.decode .yaml source = .ok v → v.isPlain false = true
  calls : callsKeepPlain s data line = true
  few : comesToFewDigits s data line = true

/-! ## Data -/

variable {s t : Surroundings} {present data : Value} {line : String} {lines : List String}

@[simp]
theorem context_nil : context present [] = present := rfl

/-- The data after a line and further ones are the data after these, seen from the line on. -/
theorem context_cons :
    context present (line :: lines) = context (context present [line]) lines := by
  cases set : payload? line <;>
    simp only [context, List.filterMap_cons, List.filterMap_nil, set, List.getLastD_cons,
      List.getLastD_nil]

/-- A line that sets no data leaves those that there are. -/
theorem context_of_payload? (sets : payload? line = none) : context present [line] = present := by
  simp [context, sets]

/-- The data that an orderly line sets are plain. -/
theorem Orderly.isPlain_payload? {v : Value} (orderly : Orderly s data line)
    (sets : payload? line = some v) : v.isPlain false = true := by
  unfold payload? at sets
  split at sets
  · rename_i source asks
    cases decoded : Document.decode .yaml source with
    | error f => simp [decoded, Except.toOption] at sets
    | ok w =>
      obtain rfl : w = v := by simpa [decoded, Except.toOption] using sets
      exact orderly.plain source w (by rw [asks]; rfl) decoded
  · contradiction

/-- So the data after it are, if those before it were. -/
theorem Orderly.isPlain_context (orderly : Orderly s data line) (whole : present.isPlain false = true) :
    (context present [line]).isPlain false = true := by
  cases sets : payload? line with
  | none => rwa [context_of_payload? sets]
  | some v => simpa [context, sets] using orderly.isPlain_payload? sets

@[simp]
theorem situations_nil : situations present [] = [] := rfl

/-- The first line sees the present data, and the others those after it. -/
theorem situations_cons : situations present (line :: lines) =
    (present, line) :: situations (context present [line]) lines := by
  have later (i : Nat) : context present ((line :: lines).take (i + 1)) =
      context (context present [line]) (lines.take i) := context_cons
  rw [situations, List.mapIdx_cons]
  simp only [later, List.take_zero, context_nil]
  rfl

/-- Orderly lines see plain data. -/
theorem isPlain_of_situation (whole : present.isPlain false = true)
    (orderly : ∀ p ∈ situations present lines, Orderly s p.1 p.2) {p : Value × String}
    (inside : p ∈ situations present lines) : p.1.isPlain false = true := by
  induction lines generalizing present with
  | nil => contradiction
  | cons line lines ih =>
    rw [situations_cons] at orderly inside
    rcases List.mem_cons.mp inside with rfl | later
    · exact whole
    · have first := orderly _ List.mem_cons_self
      exact ih (first.isPlain_context whole)
        (fun q member => orderly q (List.mem_cons_of_mem _ member)) later

/-- A situation is that of one of the lines. -/
theorem line_of_situation {p : Value × String} (inside : p ∈ situations present lines) :
    p.2 ∈ lines := by
  obtain ⟨i, below, rfl⟩ := List.mem_mapIdx.mp inside
  exact List.getElem_mem below

/-- Leaving out a line that sets no data and does not end the dialogue leaves out its situation. -/
theorem situations_eraseIdx {before after : List String} (stays : Request.ofLine line ≠ .leave)
    (sets : payload? line = none) : situations present (heard (before ++ after)) =
      (situations present (heard (before ++ line :: after))).eraseIdx before.length := by
  induction before generalizing present with
  | nil =>
    have kept : heard (line :: after) = line :: heard after := by simp [heard, stays]
    simp [kept, situations_cons, context_of_payload? sets]
  | cons first before ih =>
    by_cases leaves : Request.ofLine first = .leave
    · simp [heard, leaves]
    · have kept (lines : List String) : heard (first :: lines) = first :: heard lines := by
        simp [heard, leaves]
      simp only [List.cons_append, kept, situations_cons, List.length_cons, List.eraseIdx_cons_succ]
      rw [ih]

/-- So it does with its answer. -/
theorem answers_eraseIdx {before after : List String} (stays : Request.ofLine line ≠ .leave)
    (sets : payload? line = none) : answers s (before ++ after) =
      (answers s (before ++ line :: after)).eraseIdx before.length := by
  rw [answers, answers, situations_eraseIdx stays sets, List.eraseIdx_map]

/-- A dialogue ends in the same way without such a line. -/
theorem ending_eq {before after : List String} (stays : Request.ofLine line ≠ .leave) :
    ending (before ++ after) = ending (before ++ line :: after) := by
  have alike : heard (before ++ after) = before ++ after ↔
      heard (before ++ line :: after) = before ++ line :: after := by
    induction before with
    | nil => simp [heard, stays]
    | cons first before ih =>
      by_cases leaves : Request.ofLine first = .leave
      · simp [heard, leaves]
      · have kept (lines : List String) : heard (first :: lines) = first :: heard lines := by
          simp [heard, leaves]
        simpa [kept] using ih
  simp only [ending, alike]

/-! ## Answers -/

variable {document : String}

/-- What an orderly line asks to revive is settled. -/
theorem Orderly.settled (orderly : Orderly s data line) (inert : s.Inert false)
    (whole : data.isPlain false = true) (asks : Request.ofLine line = .revive document) :
    Settled false s .yaml document data where
  inert := inert
  document v decoded := orderly.plain document v (by rw [asks]; rfl) decoded
  context := whole
  calls := by
    have calls := orderly.calls
    simpa only [callsKeepPlain, asks] using calls

/-- Sessions that show the same to the library come to the same. -/
theorem Settled.outcome_eq (settled : Settled false s .yaml document data) (alike : s.Alike t) :
    outcome s .yaml (.text document) data = outcome t .yaml (.text document) data := by
  rw [outcome, outcome, (settled.quiet alike).eq]

section

variable (orderly : Orderly s data line) (inert : s.Inert false)
  (whole : data.isPlain false = true)
include orderly inert whole

/-- They answer an orderly line in the same way. -/
theorem Orderly.answerOf_eq (alike : s.Alike t) : answerOf s data line = answerOf t data line := by
  unfold answerOf
  split
  · rfl
  · rename_i asks
    rw [(orderly.settled inert whole asks).outcome_eq alike]
  · rfl

/-- A line that is orderly in a session is so in all that show the same to the library. -/
theorem Orderly.alike (alike : s.Alike t) : Orderly t data line where
  readable := orderly.readable
  characters := orderly.characters
  plain := orderly.plain
  calls := by
    unfold callsKeepPlain
    split
    · rename_i asks
      exact ((orderly.settled inert whole asks).alike alike).calls
    · rfl
  few := by
    have few := orderly.few
    unfold comesToFewDigits at few ⊢
    split
    · rename_i asks
      rw [asks] at few
      rwa [← (orderly.settled inert whole asks).outcome_eq alike]
    · rfl

/-- What an orderly line comes to can be shown. -/
theorem Orderly.isShown (asks : Request.ofLine line = .revive document) :
    isShown (outcome s .yaml (.text document) data) = true := by
  have few := orderly.few
  have readable := orderly.readable
  simp only [comesToFewDigits, asks] at few
  cases ended : outcome s .yaml (.text document) data with
  | ok v => simpa [ended, hasFewDigits, Session.isShown] using few
  | error f =>
    have own : f.isOwn = true := by
      by_contra foreign
      have unread :=
        outcome_foreign (orderly.settled inert whole asks) (Bool.eq_false_iff.mpr foreign) ended
      simp only [isReadable, asks, unread] at readable
      cases f <;> contradiction
    have shows : f.showsArguments = true := by
      rw [ended] at few
      cases f with
      | evaluation name arguments message cause =>
        have none : (Value.list arguments).showsOversized = false := by
          simpa [hasFewDigits] using few
        simp [Failure.showsArguments, none]
      | _ => rfl
    simp [Session.isShown, own, shows]

/-- A document is answered by one event: its value, which is plain, is printed, or its failure reported.
-/
theorem Orderly.answerOf_revive (asks : Request.ofLine line = .revive document) :
    ∃ event, answerOf s data line = [event] ∧
      ((∃ v text, outcome s .yaml (.text document) data = .ok v ∧ v.isPlain false = true ∧
          Printer.print v = .ok text ∧ event = .printed (text ++ "\n")) ∨
        ∃ f report, outcome s .yaml (.text document) data = .error f ∧
          Report.ofFailure f = .ok report ∧ report.Explains ∧
          event = .reported (report.errorText ++ "\n")) := by
  have possible := orderly.isShown inert whole asks
  have course := ((orderly.settled inert whole asks).quiet (.refl s)).course []
  simp only [answerOf, asks]
  cases ended : outcome s .yaml (.text document) data with
  | ok v =>
    rcases shown_ok v with ⟨-, text, printed, told⟩ | ⟨many, -⟩
    · exact ⟨_, by rw [told]; rfl, .inl ⟨v, text, rfl, course.value v ended, printed, rfl⟩⟩
    · simp [ended, Session.isShown, many] at possible
  | error f =>
    rcases shown_error f with ⟨-, -, report, same, explains, told⟩ | ⟨-, hides, -⟩ | ⟨foreign, -⟩
    · exact ⟨_, by rw [told]; rfl, .inr ⟨f, report, rfl, same, explains, rfl⟩⟩
    · simp [ended, Session.isShown, hides] at possible
    · simp [ended, Session.isShown, foreign] at possible

/-- A line that does not end the dialogue is answered, and leaves the data after it. -/
theorem Orderly.after_grant (stays : Request.ofLine line ≠ .leave) (past : List Event) :
    let course := (grant s.call s.tracing (standardConfig .yaml) data (.ofLine line)).after past
    untraced course.log = answerOf s data line ∧
      course.outcome = .ok (some (context data [line])) := by
  cases asks : Request.ofLine line with
  | nothing =>
    have sets : payload? line = none := by simp [payload?, asks]
    rw [context_of_payload? sets]
    simp only [grant, answerOf, asks]
    exact ⟨rfl, rfl⟩
  | leave => contradiction
  | setData source =>
    cases decoded : Document.decode .yaml source with
    | ok v =>
      have sets : payload? line = some v := by simp [payload?, asks, decoded, Except.toOption]
      have seen : context data [line] = v := by simp [context, sets]
      unfold grant newData answerOf
      simp only [asks, decoded, seen]
      exact ⟨rfl, rfl⟩
    | error f =>
      have sets : payload? line = none := by simp [payload?, asks, decoded, Except.toOption]
      rw [context_of_payload? sets]
      cases f with
      | parse cause =>
        unfold grant newData answerOf
        simp only [asks, decoded]
        exact ⟨rfl, rfl⟩
      | _ =>
        have readable := orderly.readable
        simp [isReadable, asks, decoded] at readable
  | revive document =>
    have sets : payload? line = none := by simp [payload?, asks]
    rw [context_of_payload? sets]
    obtain ⟨log, ended⟩ := after_answerTo (orderly.settled inert whole asks) past
    obtain ⟨event, told⟩ := (exists_shown_iff _).mpr (orderly.isShown inert whole asks)
    rw [told] at log ended
    simp only [grant, answerOf, asks, told]
    rw [Run.after_andThen_of_ok ended, Course.followedBy, untraced_append, log]
    exact ⟨rfl, rfl⟩

end

/-! ## Whole dialogues -/

theorem transcript_cons (answer : List Event) (others : List (List Event)) :
    transcript (answer :: others) = [.printed prompt] ++ (answer ++ transcript others) := rfl

/-- A dialogue answers all lines that it hears. -/
theorem after_converseFrom (inert : s.Inert false)
    (whole : present.isPlain false = true)
    (orderly : ∀ p ∈ situations present (heard lines), Orderly s p.1 p.2) (past : List Event) :
    let course := (converseFrom s.call s.tracing (standardConfig .yaml) present lines).after past
    course.outcome = .ok () ∧ untraced course.log =
      transcript ((situations present (heard lines)).map fun p => answerOf s p.1 p.2) ++
        ending lines := by
  induction lines generalizing present past with
  | nil => exact ⟨rfl, rfl⟩
  | cons line lines ih =>
    have prompted : (Run.emit (.printed prompt)).after past = ⟨[.printed prompt], [], .ok ()⟩ := rfl
    rw [converseFrom, Run.after_andThen_of_ok (by rw [prompted]), prompted]
    by_cases leaves : Request.ofLine line = .leave
    · have none : heard (line :: lines) = [] := by simp [heard, leaves]
      rw [leaves, none, ending, if_neg (by simp [none])]
      exact ⟨rfl, rfl⟩
    · have kept : heard (line :: lines) = line :: heard lines := by simp [heard, leaves]
      have last : ending (line :: lines) = ending lines := by simp [ending, kept]
      rw [kept, situations_cons] at orderly
      have first := orderly (present, line) List.mem_cons_self
      obtain ⟨log, ended⟩ := first.after_grant inert whole leaves (past ++ [.printed prompt])
      obtain ⟨final, later⟩ := ih (first.isPlain_context whole)
        (fun p inside => orderly p (List.mem_cons_of_mem _ inside))
        (past ++ [.printed prompt] ++ ((grant s.call s.tracing (standardConfig .yaml) present
          (.ofLine line)).after (past ++ [.printed prompt])).log)
      rw [Run.after_andThen_of_ok ended, kept, situations_cons, last]
      refine ⟨final, ?_⟩
      rw [List.map_cons, transcript_cons, Course.followedBy, untraced_append, Course.followedBy,
        untraced_append, log, later]
      simp only [List.append_assoc]
      rfl

/-- What happens before the first line: the greeting is shown, and the configuration made. -/
theorem start_standard (standard : moduleNames s.modules = []) (past : List Event) :
    (start s).after past = ⟨opening, [], .ok (standardConfig .yaml)⟩ := by
  rw [start, config_standard standard]
  rfl

/-- A dialogue with the standard library answers the lines that it hears and then ends. -/
theorem after_converse (standard : moduleNames s.modules = [])
    (inert : s.Inert false)
    (orderly : ∀ p ∈ situations .null (heard s.input), Orderly s p.1 p.2) (past : List Event) :
    ((converse s.call s).after past).outcome = .ok () ∧
      untraced ((converse s.call s).after past).log =
        opening ++ transcript (answers s s.input) ++ ending s.input := by
  have started := start_standard standard past
  obtain ⟨final, log⟩ := after_converseFrom inert rfl orderly (past ++ opening)
  rw [converse, Run.after_andThen_of_ok (by rw [started]), started]
  refine ⟨final, ?_⟩
  simp only [Course.followedBy, untraced_append, log, List.append_assoc]
  rfl

/-- A session with a dialogue in which data are set, and documents succeed and fail. -/
def sampleDialogue : Surroundings :=
  { files := [], now := Moment.midnight default, tracing := false, modules := ""
    input := [":data \x7b\"n\": 4\x7d", "\x7b\"$getCurried\": [\"n\"]\x7d", ":data [",
      "\x7b\"$div\": [1, 0]\x7d", "", "exit", "[1, 2]"] }

/-- The texts that its lines hold write characters and decode to plain values. -/
theorem sampleDialogue_sources (source : String)
    (held : source ∈ (heard sampleDialogue.input).filterMap fun line => (Request.ofLine line).source?) :
    Document.WritesCharacters .yaml source ∧
      ∀ v, Document.decode .yaml source = .ok v → v.isPlain false = true := by
  have sources : ((heard sampleDialogue.input).filterMap fun line => (Request.ofLine line).source?) =
      ["\x7b\"n\": 4\x7d", "\x7b\"$getCurried\": [\"n\"]\x7d", "[", "\x7b\"$div\": [1, 0]\x7d"] := by
    decide +kernel
  have digits (n : Int) (few : Value.isOversized n = false) : (Value.int n).IsJson := few
  rw [sources] at held
  simp only [List.mem_cons, List.not_mem_nil, or_false] at held
  rcases held with rfl | rfl | rfl | rfl
  · exact Document.plain_of_json (v := .mapping [(.text "n", .int 4)])
      ⟨⟨_, rfl⟩, nofun, digits 4 (by decide +kernel), trivial⟩ (by decide +kernel) (by decide +kernel) rfl
  · exact Document.plain_of_json (v := .mapping [(.text "$getCurried", .list [.text "n"])])
      ⟨⟨_, rfl⟩, nofun, ⟨trivial, trivial⟩, trivial⟩ (by decide +kernel) (by decide +kernel) rfl
  · have unread : (Yaml.decode "[").isOk = false := by decide +kernel
    refine ⟨Document.writesCharacters_unread unread, fun v decoded => ?_⟩
    rw [show Yaml.decode "[" = .ok v from decoded] at unread
    contradiction
  · exact Document.plain_of_json (v := .mapping [(.text "$div", .list [.int 1, .int 0])])
      ⟨⟨_, rfl⟩, nofun, ⟨digits 1 (by decide +kernel), digits 0 (by decide +kernel), trivial⟩, trivial⟩
      (by decide +kernel) (by decide +kernel) rfl

/-- A dialogue with one document, of which a trace is shown. -/
def tracedDialogue : Surroundings := { sampleDialogue with tracing := true, input := ["[1]"] }

/-- Two methods of sets: `update` adds the keys of the data to a set, and `issuperset` tells whether they
are in it. An update comes to null, so in a dialogue where nothing else does, the set holds the keys as
soon as null has been printed. -/
def growingSets : Attributes where
  find v name :=
    match v with
    | .set _ => .routine (.method (.other name)) [v]
    | _ => .null
  call name _ _ := ⟨fun past =>
    let updated := past.any fun event => event.outputText == "null\n"
    ⟨[], [], .ok (if name = "issuperset" then .bool updated else .null)⟩⟩

/-- A dialogue that calls `issuperset`, `update` and `issuperset` again for a set within its data. -/
def updatingDialogue : Surroundings :=
  { sampleDialogue with
    attributes := growingSets
    input := [":data \x7bs: !!set \x7ba\x7d, b: 1\x7d",
      "\x7b\"$get\": [\"issuperset\", \x7b\"$getCurried\": [\"s\"]\x7d]\x7d",
      "\x7b\"$get\": [\"update\", \x7b\"$getCurried\": [\"s\"]\x7d]\x7d",
      "\x7b\"$get\": [\"issuperset\", \x7b\"$getCurried\": [\"s\"]\x7d]\x7d"] }

/-- What a dialogue writes after its greeting to the standard output, and to the error output. -/
def written (s : Surroundings) : List (String × String) :=
  ((converse s.call s).log.drop opening.length).map fun event => (event.outputText, event.errorText)

end LiveDoc.Session
