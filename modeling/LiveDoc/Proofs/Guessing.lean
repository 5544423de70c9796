import LiveDoc.Proofs.JsonLines

/-!
# JSON text in a guessed format

Where no format is stated, text that starts with a bracket, a brace or a quote is taken for JSON and any
other for YAML. So what the JSON writer writes for a list, a mapping or a text is read as JSON, and what
it writes for a number or a constant is read as YAML. The two agree but for a float whose text has no
point, which comes back as that text.
-/

namespace LiveDoc

namespace Json.Writer

/-- Brackets around items start with the first of them. -/
theorem exists_toList_block (layout : Layout) (level : Nat) {opening : String} {o : Char}
    (opens : opening.toList = [o]) (closing : String) (ss : List String) :
    ∃ rest, (block layout level opening closing ss).toList = o :: rest := by
  unfold block
  split
  · exact ⟨closing.toList, by simp [opens]⟩
  · exact ⟨_, by simp only [String.toList_append, opens, List.append_assoc]; rfl⟩

end Json.Writer

namespace Yaml

variable {s : String} {w : Value}

/-- The tokens of a word. -/
theorem tokens_word (word : Progress.IsWord s.toList) :
    (tokens s.toList).halt = none ∧ (tokens s.toList).items.map (·.kind) =
      .streamStart :: ((Flow.scalar s true).tokens ++ [.streamEnd]) := by
  have all : s.toList.all isAcceptable = true := by
    refine List.all_eq_true.mpr fun c inside => isAcceptable_ascii ?_
    have range := wordChar_range (List.all_eq_true.mp word.chars c inside)
    omega
  have text : (Progress.start s.toList).cursor.rest =
      List.replicate 0 ' ' ++ (s.toList ++ []) := by
    simp [Progress.start]
  obtain ⟨q, reaches⟩ :=
    Progress.reaches_word (Progress.steady_start _ _) word text (.inl rfl)
  rw [String.ofList_toList] at reaches
  exact tokens_reached all reaches

/-- A word is read as the plain scalar that it is. -/
theorem read_word (word : Progress.IsWord s.toList)
    (leaf : ∀ mark, Build.leaf (.scalar (Schema.tagOf s) s mark) = .ok w) :
    read s.toList = .ok w := by
  obtain ⟨halt, kinds⟩ := tokens_word word
  obtain ⟨n, composed, composes⟩ := document?_flow halt kinds rfl
  cases n with
  | scalar tag t mark =>
    obtain ⟨rfl, rfl⟩ := composes
    have built : Built (.scalar (Schema.tagOf t) t mark) w :=
      ⟨Build.collection?_tagOf t, leaf mark⟩
    have value : Build.document (.scalar (Schema.tagOf t) t mark) = .ok w :=
      Build.document_built built
    rw [read, composed]
    exact value
  | _ => cases composes

/-- A number or constant is written in the same way in every layout. -/
theorem write_word {v : Value} (word : word? v = some s) (layout : Json.Layout) :
    Json.write layout .strict v = Json.write .compact .strict v := by
  cases v <;> first | rfl | cases word

end Yaml

namespace Document

variable {v : Value} {s : String}

/-- Text that starts as JSON does is taken for JSON. -/
theorem deserialize_opened {o : Char} {rest : List Char} (text : s.toList = o :: rest)
    (opens : o = '\x7b' ∨ o = '[' ∨ o = '"') :
    deserialize (.text s) .null .null = Json.decode s := by
  have visible : Text.isBlank o = false := by
    rcases opens with rfl | rfl | rfl <;> rfl
  have guessed : formatOfText? s = some .json := by
    simp [formatOfText?, text, Text.trimLeft, visible, opens]
  rw [deserialize_unstated rfl, guessed]
  rfl

/-- A word is taken for YAML. -/
theorem deserialize_word (word : Yaml.Progress.IsWord s.toList) :
    deserialize (.text s) .null .null = Yaml.decode s := by
  obtain ⟨c, rest, text⟩ := List.exists_cons_of_ne_nil word.present
  have letter : Yaml.Progress.isWordChar c = true :=
    List.all_eq_true.mp word.chars c (by simp [text])
  have other : ∀ d, Yaml.Progress.isWordChar d = false → c ≠ d := fun d apart =>
    beq_eq_false_iff_ne.mp (Yaml.Progress.ne_wordChar letter apart)
  have guessed : formatOfText? s = some .yaml := by
    simp [formatOfText?, text, Text.trimLeft, Yaml.isBlank_wordChar letter,
      other '\x7b' rfl, other '[' rfl, other '"' rfl]
  rw [deserialize_unstated rfl, guessed]
  rfl

/-- So the text of a float is read as the float if there is a point in it, and else as itself. -/
theorem deserialize_float {x : Binary64} (canonical : x.Canonical) :
    deserialize (.text (Json.Writer.float x)) .null .null =
      .ok (if Yaml.hasPoint x then .float x else .text (Json.Writer.float x)) := by
  have word := Yaml.isWord_word (v := .float x) canonical rfl
  rw [deserialize_word word, Yaml.decode_iff]
  exact Yaml.read_word word fun _ => Yaml.Build.leaf_writtenFloat canonical

/-- What is written for a JSON document other than a float is read as the document. -/
theorem deserialize_written {layout : Json.Layout} (json : v.IsJson) (other : ∀ x, v ≠ .float x)
    (written : Json.write layout .strict v = .ok s) :
    deserialize (.text s) .null .null = .ok v := by
  have decoded : Json.decode s = .ok v := by
    obtain ⟨t, read, tells⟩ := Json.read_of_write written
    rw [Json.decode, read]
    exact congrArg Except.ok (Json.Tree.toValue_of_tells json tells).1
  cases v with
  | null | bool | int =>
    rw [Yaml.write_word rfl layout] at written
    have word := Yaml.isWord_word json (Yaml.word?_of_written rfl written)
    rw [deserialize_word word, Yaml.decode_iff]
    exact (Yaml.read_json json written).mpr rfl
  | float x => exact absurd rfl (other x)
  | text t =>
    obtain rfl := Except.ok.inj written
    rw [deserialize_opened (Yaml.toList_string t) (.inr (.inr rfl)), decoded]
  | list vs =>
    obtain ⟨ss, -, written⟩ := Json.bind_ok written
    obtain rfl := Except.ok.inj written
    obtain ⟨rest, text⟩ := Json.Writer.exists_toList_block layout 0 (rfl : "[".toList = ['[']) "]" ss
    rw [deserialize_opened text (.inr (.inl rfl)), decoded]
  | mapping es =>
    obtain ⟨ss, -, written⟩ := Json.bind_ok written
    obtain rfl := Except.ok.inj written
    obtain ⟨rest, text⟩ := Json.Writer.exists_toList_block layout 0
      (rfl : Value.openBrace.toList = ['\x7b']) Value.closeBrace ss
    rw [deserialize_opened text (.inl rfl), decoded]
  | _ => cases json

/-- A JSON document can be serialized, pretty or not, and deserialized without a word about the format.
It comes back, unless it is a float whose text has no point; that comes back as its text. -/
theorem deserialize_unstated_serialize {v : Value} (json : v.IsJson) (pretty : Bool) :
    ∃ s, serialize v (.text Format.json.name) pretty true = .ok s ∧
      (deserialize (.text s) .null .null = .ok v ↔ ∀ x, v = .float x → Yaml.hasPoint x = true) ∧
      ∀ x, v = .float x → Yaml.hasPoint x = false →
        deserialize (.text s) .null .null = .ok (.text s) := by
  obtain ⟨s, -, written, -⟩ := Json.read_write json (layoutOf pretty)
  refine ⟨s, serialize_json written, ?_⟩
  by_cases float : ∃ x, v = .float x
  · obtain ⟨x, rfl⟩ := float
    obtain rfl : Json.Writer.float x = s := Except.ok.inj written
    rw [deserialize_float json]
    cases point : Yaml.hasPoint x <;> simp [point]
  · have other : ∀ x, v ≠ .float x := fun x same => float ⟨x, same⟩
    have back := deserialize_written json other written
    exact ⟨iff_of_true back fun x same => absurd same (other x),
      fun x same => absurd same (other x)⟩

/-- One and a half times ten to the power of sixteen, whose text has a point and an exponent. -/
def pointed : Binary64 := .finite false 7500000000000000 1

/-- It comes back. -/
theorem pointed_isRecognised :
    (Value.float pointed).IsJson ∧ Yaml.hasPoint pointed = true ∧
      ∃ s, serialize (.float pointed) (.text Format.json.name) true true = .ok s ∧
        deserialize (.text s) .null .null = .ok (.float pointed) := by
  have json : (Value.float pointed).IsJson :=
    ⟨by decide, by decide, by decide, .inr (by decide)⟩
  have point : Yaml.hasPoint pointed = true := by decide +kernel
  obtain ⟨s, written, back, -⟩ := deserialize_unstated_serialize json true
  refine ⟨json, point, s, written, back.mpr ?_⟩
  rintro x ⟨⟩
  exact point

/-- The text of ten to the power of sixteen comes back instead of the number. -/
theorem large_isTakenForText :
    Session.large.IsJson ∧
      serialize Session.large (.text Format.json.name) false true = .ok "1e+16" ∧
      deserialize (.text "1e+16") .null .null = .ok (.text "1e+16") ∧
      deserialize (.text "1e+16") .null .null ≠ .ok Session.large := by
  have back := deserialize_float (x := .finite false 5000000000000000 1) Session.isJson_large
  have pointless : Yaml.hasPoint (.finite false 5000000000000000 1) = false := by
    rw [Yaml.hasPoint, Session.text_large]
    rfl
  rw [Session.text_large, pointless, if_neg Bool.false_ne_true] at back
  refine ⟨Session.isJson_large, serialize_json Session.write_large, back, ?_⟩
  rw [back]
  rintro ⟨⟩

end Document

end LiveDoc
