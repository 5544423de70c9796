import LiveDoc.Proofs.Malformed
import LiveDoc.Proofs.Structured

/-!
# Failures of runs

Once a document is a value, a run on it fails as its engine does, and what cannot be written is told as
such. So a fault that is no failure of the library's own, and that no engine passes on, comes from the
text of a document, from decoding it.
-/

namespace LiveDoc

namespace Engine

open Json (Tree)

variable (e : Engine) {document : Value}

/-- A reader that is given the text that is written for a value fails in this way. -/
theorem failsOwn_of_written {v : Value} (source : jsonSource document e.config = written v) :
    (e.run .driverFed document).FailsOwn := by
  unfold written Document.write at source
  cases text : Json.write .compact .strict v with
  | error cause =>
    simp only [text] at source
    rw [run_unsourced e source]
    exact Run.failsOwn_fail rfl
  | ok s =>
    simp only [text] at source
    obtain ⟨t, read, -⟩ := Json.read_of_write text
    rw [run_of_source e source rfl read]
    exact failsOwn_resolve e t

/-- YAML text that decodes to a value has what is written for the value as its source. -/
theorem jsonSource_of_yaml {c : Config} (yaml : c.format = .yaml) (text : document.isText = true)
    {v : Value} (read : Document.read .yaml document = .ok v) :
    jsonSource document c = written v := by
  simp only [jsonSource, text, yaml, read, Bool.not_true, Bool.false_eq_true, if_false, bind,
    Except.bind]
  rfl

/-- In either mode a run of text that decodes to a value fails in this way. -/
theorem failsOwn_decoded (text : document.isText = true) {v : Value}
    (read : Document.read e.config.format document = .ok v) (mode : Mode) :
    (e.run mode document).FailsOwn := by
  cases mode with
  | selfDriven =>
    have own : e.run .selfDriven document = e.evaluate true v := by
      simp only [run, tree, text, read, if_true, Run.ofExcept, Run.done_andThen]
    rw [own]
    exact failsOwn_evaluate e true v
  | driverFed =>
    cases format : e.config.format with
    | yaml =>
      rw [format] at read
      exact failsOwn_of_written e (jsonSource_of_yaml format text read)
    | json =>
      rw [format] at read
      obtain ⟨s, contents, decoded⟩ := Json.bind_ok read
      cases whole : Json.read s.toList with
      | error stop => simp [Document.decode, Json.decode, whole] at decoded
      | ok t =>
        rw [(run_of_read e format text contents whole).1]
        exact failsOwn_resolve e t

/-- In either mode a run of text that does not decode to a value fails for the reason of that, with an own
failure, or with one that it passes on. -/
theorem run_undecodable (text : document.isText = true) {f g : Failure}
    (unread : Document.read e.config.format document = .error g) {mode : Mode} {past : List Event}
    (failed : ((e.run mode document).after past).outcome = .error f) :
    (f.isOwn = true ∨ ((e.run mode document).after past).PassesOn f) ∨ f = g := by
  cases format : e.config.format with
  | json =>
    rw [format] at unread
    rcases contents_of_isText text with ⟨s, contents⟩ | ⟨cause, undecoded⟩
    · cases whole : Json.read s.toList with
      | ok t =>
        simp [Document.read, Document.decode, Json.decode, contents, whole, bind, Except.bind]
          at unread
      | error stop =>
        have same : stop.failure s.toList = g := by
          simpa [Document.read, Document.decode, Json.decode, contents, whole, bind, Except.bind]
            using unread
        rw [run_unread e format text contents whole mode, revived, same] at failed ⊢
        cases ended : ((Tree.resolveList e.revive (mode.handed stop)).after past).outcome with
        | error h =>
          rw [Run.after_andThen_of_error ended] at failed ⊢
          obtain rfl := Except.error.inj failed
          exact .inl (failsOwn_resolveList e _ past _ ended)
        | ok ts =>
          rw [Run.after_andThen_of_ok ended] at failed
          exact .inr (Except.error.inj failed).symm
    · rw [run_undecoded e format text undecoded mode] at failed
      exact .inl (.inl (Except.error.inj failed ▸ rfl))
  | yaml =>
    right
    rw [format] at unread
    have fails : e.run mode document = .fail g := by
      cases mode with
      | driverFed =>
        simp only [run, jsonSource, text, format, unread, Bool.not_true, Bool.false_eq_true,
          if_false, bind, Except.bind, Run.ofExcept]
        rfl
      | selfDriven =>
        simp only [run, tree, text, format, unread, if_true, Run.ofExcept]
        rfl
    rw [fails] at failed
    exact (Except.error.inj failed).symm

/-- A run that fails with a failure that is not one of the library's own passes it on, or fails because
the document is text that does not decode to a value for that reason. -/
theorem run_foreign {mode : Mode} {past : List Event} {f : Failure} (foreign : f.isOwn = false)
    (failed : ((e.run mode document).after past).outcome = .error f) :
    (document.isText = true ∧ Document.read e.config.format document = .error f) ∨
      ((e.run mode document).after past).PassesOn f := by
  have passes (own : (e.run mode document).FailsOwn) :
      ((e.run mode document).after past).PassesOn f :=
    (own past f failed).resolve_left (by simp [foreign])
  cases text : document.isText with
  | false =>
    refine .inr (passes ?_)
    cases mode with
    | driverFed => exact failsOwn_of_written e (jsonSource_of_value e.config text)
    | selfDriven =>
      have own : e.run .selfDriven document = e.evaluate true document := by
        simp only [run, tree, text, Bool.false_eq_true, if_false, Run.ofExcept, Run.done_andThen]
      rw [own]
      exact failsOwn_evaluate e true document
  | true =>
    cases read : Document.read e.config.format document with
    | ok v => exact .inr (passes (failsOwn_decoded e text read mode))
    | error g =>
      rcases run_undecodable e text read failed with (own | passed) | same
      · simp [own] at foreign
      · exact .inr passed
      · exact .inl ⟨rfl, by rw [same]⟩

end Engine

end LiveDoc
