import LiveDoc.Proofs.Structured

/-!
# Writing a value as JSON text and reading it back

A value of JSON scalars, lists, tuples and mappings with texts as keys can be written in either layout,
and the text reads as the value with its tuples turned into lists. A reader with a hook that leaves
every object alone reads the same.
-/

namespace LiveDoc

namespace Json

variable {layout : Layout}

mutual

/-- A structured value with texts as keys can be written if it shows no integer of too many digits. -/
theorem exists_text : ∀ (level : Nat) (v : Value), v.IsStructured → v.isTextKeyed = true →
    v.showsOversized = false → ∃ s, Writer.value layout .strict level v = .ok s
  | _, .null | _, .bool _ | _, .float _ | _, .text _ => fun _ _ _ => ⟨_, rfl⟩
  | _, .int n => fun _ _ few => by
    have written : Writer.int n = .ok (toString n) := by
      simp only [Writer.int, show Value.isOversized n = false from few, Bool.false_eq_true, if_false]
    exact ⟨_, written⟩
  | level, .list xs => fun structured keyed few => by
    obtain ⟨ss, written⟩ := exists_texts (level + 1) xs structured keyed few
    exact ⟨_, by simp only [Writer.value, written]; rfl⟩
  | level, .tuple xs => fun structured keyed few => by
    obtain ⟨ss, written⟩ := exists_texts (level + 1) xs structured keyed few
    exact ⟨_, by simp only [Writer.value, written]; rfl⟩
  | level, .mapping es => fun structured keyed few => by
    obtain ⟨ss, written⟩ := exists_member_texts (level + 1) es structured keyed few
    exact ⟨_, by simp only [Writer.value, written]; rfl⟩
  | _, .bytes _ | _, .buffer _ | _, .set _ | _, .date _ | _, .moment _ | _, .clock _ | _, .span _
  | _, .zone _ | _, .routine _ _ | _, .deferred _ _ | _, .record _ _ => fun absent => absent.elim

/-- The same for the items of a list. -/
theorem exists_texts : ∀ (level : Nat) (xs : List Value), Value.AreStructured xs →
    Value.areTextKeyed xs = true → Value.anyOversized xs = false →
      ∃ ss, Writer.values layout .strict level xs = .ok ss
  | _, [] => fun _ _ _ => ⟨[], rfl⟩
  | level, x :: xs => fun structured keyed few => by
    obtain ⟨own, others⟩ := Bool.and_eq_true_iff.mp keyed
    obtain ⟨small, smaller⟩ := Bool.or_eq_false_iff.mp few
    obtain ⟨s, first⟩ := exists_text level x structured.1 own small
    obtain ⟨ss, rest⟩ := exists_texts level xs structured.2 others smaller
    exact ⟨s :: ss, by simp only [Writer.values, first, rest, bind, Except.bind]⟩

/-- The same for the entries of a mapping. -/
theorem exists_member_texts : ∀ (level : Nat) (es : List (Value × Value)),
    Value.HoldStructured es → Value.holdTextKeyed es = true → Value.entriesOversized es = false →
      ∃ ss, Writer.entries layout .strict level es = .ok ss
  | _, [] => fun _ _ _ => ⟨[], rfl⟩
  | level, (k, v) :: es => fun ⟨_, _, own, structured⟩ keyed few => by
    simp only [Value.holdTextKeyed, Bool.and_eq_true] at keyed
    simp only [Value.entriesOversized, Bool.or_eq_false_iff] at few
    obtain ⟨⟨textual, value⟩, others⟩ := keyed
    obtain ⟨⟨-, small⟩, smaller⟩ := few
    obtain ⟨name, rfl⟩ : ∃ name, k = .text name := by
      cases k <;> first | exact ⟨_, rfl⟩ | cases textual
    obtain ⟨s, first⟩ := exists_text level v own value small
    obtain ⟨ss, rest⟩ := exists_member_texts level es structured others smaller
    exact ⟨_, by simp only [Writer.entries, Writer.key, first, rest, bind, Except.bind]; rfl⟩

end

namespace Tree

mutual

/-- A hook that leaves every object alone makes the value of the tree. -/
theorem resolve_done : ∀ t : Tree, t.resolve Run.done = .done t.toValue
  | .null | .bool _ | .int _ | .float _ | .text _ => rfl
  | .array ts => by rw [resolve, resolveList_done ts, Run.done_andThen, toValue]
  | .object ms => by rw [resolve, resolveMembers_done ms, Run.done_andThen, toValue]

theorem resolveList_done : ∀ ts : List Tree, resolveList Run.done ts = .done (toValues ts)
  | [] => rfl
  | t :: ts => by
    rw [resolveList, resolve_done t, Run.done_andThen, resolveList_done ts, Run.done_andThen,
      toValues]

theorem resolveMembers_done : ∀ ms : List (String × Tree),
    resolveMembers Run.done ms = .done (toPairs ms)
  | [] => rfl
  | (k, t) :: ms => by
    rw [resolveMembers, resolve_done t, Run.done_andThen, resolveMembers_done ms, Run.done_andThen,
      toPairs]

end

end Tree

/-- A structured value with texts as keys is written as a text that has a tree with the value as its
own, tuples being lists. -/
theorem exists_reading {v : Value} (structured : v.IsStructured) (keyed : v.isTextKeyed = true)
    (few : v.showsOversized = false) (layout : Layout) :
    ∃ s t, write layout .strict v = .ok s ∧ read s.toList = .ok t ∧ t.toValue = v.listed := by
  obtain ⟨s, written⟩ := @exists_text layout 0 v structured keyed few
  obtain ⟨t, read, tells⟩ := read_of_write written
  have json : v.listed.IsJson := Tree.isJson_listed v t structured keyed tells
  have same : t.toValue = v.listed := (Tree.toValue_of_tells json (Tree.tells_listed v t tells)).1
  exact ⟨s, t, written, read, same⟩

end Json

namespace Document

/-- Serializing in the JSON format is writing JSON text. -/
theorem serialize_json {v : Value} {pretty : Bool} {s : String}
    (written : Json.write (layoutOf pretty) .strict v = .ok s) :
    serialize v (.text Format.json.name) pretty true = .ok s := by
  rw [serialize_named, write, rigorOf, if_pos rfl, written]

/-- A structured value whose keys are texts and whose integers are converted to text is serialized as
JSON, pretty or not. The text deserializes to the value with its tuples turned into lists, entries in
their order, and so it is read with a hook that leaves every object alone. -/
theorem deserialize_serialize {v : Value} (structured : v.IsStructured)
    (keyed : v.isTextKeyed = true) (few : v.showsOversized = false) (pretty : Bool) :
    ∃ s, serialize v (.text Format.json.name) pretty true = .ok s ∧
      deserialize (.text s) .null (.text Format.json.name) = .ok v.listed ∧
      ∀ past, (readWith Run.done (.text s)).after past = ⟨[], [], .ok v.listed⟩ := by
  obtain ⟨s, t, written, read, same⟩ := Json.exists_reading structured keyed few (layoutOf pretty)
  have contents : contents defaultEncoding (.text s) = .ok s := rfl
  have deserialized := Engine.decoded_of_read contents read
  have hooked : readWith Run.done (.text s) = .done t.toValue := by
    rw [readWith, contents, Run.ofExcept, Run.done_andThen, Json.decodeWith, read]
    dsimp only
    rw [Json.Tree.resolve_done, Json.throughReader_done]
  rw [same] at deserialized hooked
  exact ⟨s, serialize_json written, deserialized, fun past => by rw [hooked, Run.after_done]⟩

/-- A mapping with a pair of numbers that are not finite, and with a tenth in a list. -/
def mixedPair : Value :=
  .mapping [(.text "q\"\n\u2028", .tuple [.float .nan, .float (.infinite true)]),
    (.text "", .list [.int (-7), .float (.finite false 7205759403792794 (-56)), .mapping []])]

/-- It comes back with the pair as a list. -/
theorem mixedPair_comesBack :
    mixedPair.IsStructured ∧ mixedPair.isTextKeyed = true ∧ mixedPair.showsOversized = false ∧
      ∃ s, serialize mixedPair (.text Format.json.name) true true = .ok s ∧
        deserialize (.text s) .null (.text Format.json.name) = .ok mixedPair.listed ∧
        ∀ past, (readWith Run.done (.text s)).after past = ⟨[], [], .ok mixedPair.listed⟩ := by
  have structured : mixedPair.IsStructured := by
    have tenth : Binary64.Canonical (.finite false 7205759403792794 (-56)) :=
      ⟨by decide, by decide, by decide, .inr (by decide)⟩
    refine ⟨rfl, ?_, ⟨trivial, trivial, trivial⟩, rfl, by simp, ⟨trivial, tenth, trivial, trivial⟩,
      trivial⟩
    intro entry inside
    rw [List.mem_singleton.mp inside]
    rfl
  have few : mixedPair.showsOversized = false := by decide +kernel
  exact ⟨structured, rfl, few, deserialize_serialize structured rfl few true⟩

end Document

end LiveDoc
