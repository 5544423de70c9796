import LiveDoc.Proofs.Finding
import LiveDoc.Proofs.JsonLines
import LiveDoc.Proofs.PlainValues

/-!
# Texts that write characters

An escape can write half of a pair of surrogates on its own, which is no character. Whatever a reader lets
stand for it, a text that writes characters only is read in the same way. The texts of JSON documents are
of this kind, as JSON in either layout and as YAML where the document is the same there.
-/

namespace LiveDoc.Document

/-- Whether a text writes characters: it is read in the same way whatever stands for surrogates that it
writes on their own. Of text in YAML that has no value nothing is asked. -/
def WritesCharacters (format : Format) (s : String) : Prop :=
  match format with
  | .json => ∀ spell : Json.Spelling, spell.IsUsual → Json.read s.toList spell = Json.read s.toList
  | .yaml => ∀ (half : Char) (v : Value), Yaml.decode s = .ok v → Yaml.decode s half = .ok v

variable {v : Value} {s : String}

/-- The text of a document in JSON writes characters. -/
theorem writesCharacters_json {layout : Json.Layout} (written : Json.write layout .strict v = .ok s) :
    WritesCharacters .json s := by
  obtain ⟨t, spells, -⟩ := Json.exists_spelling 0 v s written
  intro spell usual
  rw [Json.Reader.read_of_spells spells usual,
    Json.Reader.read_of_spells spells Json.Spelling.plain_char]

/-- So it does in YAML, where the document is the same; if it is plain, so is what the text decodes to. -/
theorem plain_of_json {sets : Bool} (json : v.IsJson)
    (written : (Json.write .compact .strict v).toOption = some s) (alike : Yaml.isAlike v = true)
    (plain : v.isPlain sets = true) :
    WritesCharacters .yaml s ∧ ∀ w, decode .yaml s = .ok w → w.isPlain sets = true := by
  have text : Json.write .compact .strict v = .ok s := Value.toOption_eq_some.mp written
  have same (half : Char) : Yaml.decode s half = .ok v :=
    Yaml.decode_iff.mpr ((Yaml.read_json json text).mpr alike)
  refine ⟨fun half w read => ?_, fun w read => ?_⟩
  · rw [same half, ← read]
    exact (same _).symm
  · obtain rfl := Except.ok.inj ((same _).symm.trans read)
    exact plain

/-- Text that has no value writes characters in YAML. -/
theorem writesCharacters_unread (unread : (Yaml.decode s).isOk = false) : WritesCharacters .yaml s := by
  intro half v read
  rw [read] at unread
  contradiction

end LiveDoc.Document
