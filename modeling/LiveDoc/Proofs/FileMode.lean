import LiveDoc.Library.Call
import LiveDoc.Proofs.Characters
import LiveDoc.Proofs.StandardSession

/-!
# Sessions with a file

A session with a file loads its document and perhaps data, revives the document, and ends with a status.
Two kinds of faults of loading are reported, a file that is not there and text that does not parse; any
other one leaves the session, and so does a fault of decoding the document to a value. Whatever the bytes
of the files are, what they decode to is plain.
-/

namespace LiveDoc.Session

open Value

/-- What is reported of a failure of loading, if anything is: a file is not there, or the data do not
parse. -/
def loadingMessage? : Failure → Option String
  | .fault (.noSuchFile missing) => some ("Error: file not found: " ++ missing)
  | .parse cause => some (dataFailure cause)
  | _ => none

/-- The format that a session revives the document at a path in. -/
def formatOf (document : String) : Format := (Folder.format? (Folder.tidy document)).getD .json

/-- What a session loads: the text of its document, and the data. -/
def loaded (s : Surroundings) (document : String) (data : Option String) :
    Except Failure (Value × Value) :=
  load s.files (Folder.tidy document) data

/-- What a session shows, or the failure that leaves it. -/
def response (s : Surroundings) (document : String) (data : Option String) :
    Except Failure Event :=
  match loaded s document data with
  | .ok (source, value) => shown (outcome s (formatOf document) source value)
  | .error f =>
    match loadingMessage? f with
    | some message => .ok (.reported (message ++ "\n"))
    | none => .error f

/-- The status that an event stands for. -/
def statusOf (event : Event) : Nat := if isPrinted event then 0 else 1

/-- Whether the text of a file writes characters in a format, if it has a text. -/
def writesCharacters (files : Folder) (path : String) (format : Format) : Prop :=
  ∀ source, files.text path Document.defaultEncoding = .ok source →
    Document.WritesCharacters format source

/-- What is asked of the files of a session: their texts write characters, and the calls of the document
come to plain values again, without the methods of a set. -/
structure Regular (s : Surroundings) (document : String) (data : Option String) : Prop where
  text : writesCharacters s.files (Folder.tidy document) (formatOf document)
  context : ∀ path ∈ data, ∀ format ∈ Folder.format? path, writesCharacters s.files path format
  calls : ∀ text value, loaded s document data = .ok (text, value) →
    keepsPlain true s (formatOf document) text value = true

variable {s : Surroundings} {document : String} {data : Option String}

/-- The data of a file are plain. -/
theorem isPlain_document {files : Folder} {path encoding : String} {v : Value}
    (found : files.document path encoding = .ok v) : v.isPlain true = true := by
  cases read : files.text path encoding with
  | error f => simp [Folder.document, read] at found
  | ok source =>
    cases told : Folder.format? path with
    | none =>
      obtain rfl : Value.text source = v := by simpa [Folder.document, read, told] using found
      rfl
    | some format =>
      simp only [Folder.document, read, told] at found
      exact Document.isPlain_decode found

/-- A session loads a text, and plain data. -/
theorem loaded_ok {text value : Value} (found : loaded s document data = .ok (text, value)) :
    (∃ source, text = .text source) ∧ value.isPlain true = true := by
  unfold loaded load at found
  cases read : s.files.text (Folder.tidy document) Document.defaultEncoding with
  | error f => simp [read, bind, Except.bind] at found
  | ok source =>
    have first : text = .text source ∧ (value = .null ∨
        ∃ path, s.files.document path Document.defaultEncoding = .ok value) := by
      cases data with
      | none =>
        obtain ⟨same, none⟩ : Value.text source = text ∧ .null = value := by
          simpa [read, bind, Except.bind] using found
        exact ⟨same.symm, .inl none.symm⟩
      | some path =>
        cases empty : path.isEmpty with
        | true =>
          obtain ⟨same, none⟩ : Value.text source = text ∧ .null = value := by
            simpa [read, empty, bind, Except.bind] using found
          exact ⟨same.symm, .inl none.symm⟩
        | false =>
          cases held : s.files.document path Document.defaultEncoding with
          | error f => simp [read, empty, held, bind, Except.bind] at found
          | ok v =>
            obtain ⟨same, other⟩ : Value.text source = text ∧ v = value := by
              simpa [read, empty, held, bind, Except.bind] using found
            exact ⟨same.symm, .inr ⟨path, other ▸ held⟩⟩
    obtain ⟨same, rfl | ⟨path, held⟩⟩ := first
    · exact ⟨⟨source, same⟩, rfl⟩
    · exact ⟨⟨source, same⟩, isPlain_document held⟩

/-- The document that a session loads from regular files is settled in inert surroundings. -/
theorem Regular.settled {source : String} {value : Value} (regular : Regular s document data)
    (inert : s.Inert true)
    (found : loaded s document data = .ok (.text source, value)) :
    Settled true s (formatOf document) source value where
  inert := inert
  document _ decoded := Document.isPlain_decode decoded
  context := (loaded_ok found).2
  calls := regular.calls _ _ found

/-- A session whose document is loaded shows what there is to show of its outcome. -/
theorem after_reviveFile_of_ok (standard : moduleNames s.modules = [])
    (inert : s.Inert true) (regular : Regular s document data) {text value : Value}
    (found : loaded s document data = .ok (text, value)) (past : List Event) :
    let course := (reviveFile s.call s document data).after past
    let told := shown (outcome s (formatOf document) text value)
    untraced course.log = events told ∧ course.outcome = told.map statusOf := by
  obtain ⟨⟨source, rfl⟩, -⟩ := loaded_ok found
  have revives : reviveFile s.call s document data =
      (answerTo s.call s.tracing (standardConfig (formatOf document)) (.text source) value).andThen
        fun well => .done (if well then 0 else 1) := by
    unfold loaded at found
    unfold reviveFile formatOf
    simp only [found, config_standard standard, Run.done_andThen]
  obtain ⟨log, ended⟩ := after_answerTo (regular.settled inert found) past
  intro course told
  have result : course = _ := (congrArg (·.after past) revives).trans
    (Run.after_andThen_done _ (fun (well : Bool) => if well then 0 else 1) past)
  rw [result, ended]
  refine ⟨log, ?_⟩
  change Except.map _ (Except.map isPrinted (shown _)) = Except.map _ (shown _)
  cases shown (outcome s (formatOf document) (.text source) value) <;> rfl

/-- A session shows its response, and ends with the status of that. -/
theorem after_reviveFile (standard : moduleNames s.modules = [])
    (inert : s.Inert true) (regular : Regular s document data) (past : List Event) :
    let course := (reviveFile s.call s document data).after past
    untraced course.log = events (response s document data) ∧
      course.outcome = (response s document data).map statusOf := by
  unfold response
  cases found : loaded s document data with
  | ok pair => exact after_reviveFile_of_ok standard inert regular found past
  | error f =>
    unfold loaded at found
    unfold reviveFile
    simp only [found]
    split
    · rename_i absent
      cases absent
      exact ⟨rfl, rfl⟩
    · rename_i unparsed
      cases unparsed
      exact ⟨rfl, rfl⟩
    · rename_i present parses other
      cases other
      have none : loadingMessage? f = none := by
        unfold loadingMessage?
        split
        · exact (present _ rfl).elim
        · exact (parses _ rfl).elim
        · rfl
      rw [none]
      exact ⟨rfl, rfl⟩
    · rename_i impossible
      cases impossible

/-! ## Responses -/

/-- A session responds exactly if there is something to report of its loading, or something to show of
its outcome. -/
theorem exists_response_iff :
    (∃ event, response s document data = .ok event) ↔
      (∃ f, loaded s document data = .error f ∧ (loadingMessage? f).isSome = true) ∨
      ∃ text value, loaded s document data = .ok (text, value) ∧
        isShown (outcome s (formatOf document) text value) = true := by
  unfold response
  cases loaded s document data with
  | ok pair =>
    refine (exists_shown_iff _).trans ⟨fun shows => .inr ⟨pair.1, pair.2, rfl, shows⟩, ?_⟩
    rintro (⟨f, impossible, -⟩ | ⟨text, value, same, shows⟩)
    · cases impossible
    · cases same
      exact shows
  | error f => cases reported : loadingMessage? f <;> simp [reported]

/-- What is reported of a failure is not empty. -/
theorem loadingMessage?_ne_empty {f : Failure} {message : String}
    (told : loadingMessage? f = some message) : message ≠ "" := by
  unfold loadingMessage? at told
  split at told
  · cases told
    exact Report.append_ne_empty (by decide) _
  · cases told
    exact Report.append_ne_empty (by decide) _
  · cases told

/-- A response prints the value of the document, or reports a text. -/
theorem response_ok {event : Event} (responds : response s document data = .ok event) :
    (∃ text value v rendering, loaded s document data = .ok (text, value) ∧
      outcome s (formatOf document) text value = .ok v ∧ Printer.print v = .ok rendering ∧
      event = .printed (rendering ++ "\n")) ∨
    ∃ message, message ≠ "" ∧ event = .reported (message ++ "\n") := by
  unfold response at responds
  cases found : loaded s document data with
  | ok pair =>
    simp only [found] at responds
    cases ended : outcome s (formatOf document) pair.1 pair.2 with
    | ok v =>
      rw [ended] at responds
      rcases shown_ok v with ⟨-, rendering, printed, told⟩ | ⟨-, hidden⟩
      · rw [told] at responds
        exact .inl ⟨pair.1, pair.2, v, rendering, rfl, ended, printed, (Except.ok.inj responds).symm⟩
      · rw [hidden] at responds
        cases responds
    | error f =>
      rw [ended] at responds
      rcases shown_error f with ⟨-, -, report, -, explains, told⟩ | ⟨-, -, hidden⟩ | ⟨-, hidden⟩
      · rw [told] at responds
        obtain ⟨message, place, -, text⟩ := explains
        exact .inr ⟨report.errorText, text, (Except.ok.inj responds).symm⟩
      · rw [hidden] at responds
        cases responds
      · rw [hidden] at responds
        cases responds
  | error f =>
    simp only [found] at responds
    cases told : loadingMessage? f with
    | some message =>
      rw [told] at responds
      exact .inr ⟨message, loadingMessage?_ne_empty told, (Except.ok.inj responds).symm⟩
    | none =>
      rw [told] at responds
      cases responds

/-- What leaves a session instead comes from loading, from decoding the document to a value, or from an
integer of too many digits that would be shown. -/
theorem response_error (inert : s.Inert true) (regular : Regular s document data)
    {f : Failure} (leaves : response s document data = .error f) :
    (loaded s document data = .error f ∧ loadingMessage? f = none) ∨
      (∃ source value, loaded s document data = .ok (.text source, value) ∧
        Document.decode (formatOf document) source = .error f ∧ f.isOwn = false) ∨
      f = .fault .oversizedInteger := by
  unfold response at leaves
  cases found : loaded s document data with
  | ok pair =>
    simp only [found] at leaves
    obtain ⟨text, value⟩ := pair
    obtain ⟨⟨source, rfl⟩, -⟩ := loaded_ok found
    rcases shown_failure leaves with ⟨failed, foreign⟩ | oversized
    · exact .inr (.inl ⟨source, value, rfl,
        outcome_foreign (regular.settled inert found) foreign failed, foreign⟩)
    · exact .inr (.inr oversized)
  | error g =>
    simp only [found] at leaves
    cases told : loadingMessage? g with
    | some message =>
      rw [told] at leaves
      cases leaves
    | none =>
      rw [told] at leaves
      obtain rfl := Except.error.inj leaves
      exact .inl ⟨rfl, told⟩

/-- A session with one file. -/
def sampleFile (contents : List UInt8) : Surroundings :=
  { files := [("d.json", contents)], now := Moment.midnight default, tracing := false, modules := ""
    input := [] }

/-- The sum of one and two, as the document of a file. -/
def sumFile : Surroundings := sampleFile "\x7b\"$add\": [1, 2]\x7d".toUTF8.toList

/-- Its text writes characters. -/
theorem sumFile_regular : Regular sumFile "d.json" none where
  text source read := by
    have text : (sumFile.files.text (Folder.tidy "d.json") Document.defaultEncoding).toOption =
        some "\x7b\"$add\": [1, 2]\x7d" := by decide +kernel
    obtain rfl := Except.ok.inj ((Value.toOption_eq_some.mp text).symm.trans read)
    have format : formatOf "d.json" = .json := by decide +kernel
    have written : (Json.write .compact .strict
        (.mapping [(.text "$add", .list [.int 1, .int 2])])).toOption =
          some "\x7b\"$add\": [1, 2]\x7d" := by decide +kernel
    rw [format]
    exact Document.writesCharacters_json (Value.toOption_eq_some.mp written)
  context _ none := nomatch none
  calls text value found := by
    have calls : (loaded sumFile "d.json" none).toOption.all (fun pair =>
        keepsPlain true sumFile (formatOf "d.json") pair.1 pair.2) = true := by decide +kernel
    rwa [found] at calls

/-- The byte FF on its own, which is no text. -/
def bareByteFile : Surroundings := sampleFile [0xFF]

end LiveDoc.Session
