import LiveDoc.Proofs.JsonLines
import LiveDoc.Proofs.YamlBlockNodes
import LiveDoc.Proofs.YamlLeaves
import LiveDoc.Proofs.YamlWrittenTokens

/-!
# Writing a value as YAML text and reading it back

A value is composed into nodes, and their lines are read as a node again. What the reader makes of that is
the value with its tuples turned into lists, if two things are given: the keys that are written without a
mark are short enough to be found again, and no space is lost where a quoted text is broken over lines.
Which texts these are depends on where the lines are broken, so both are conditions on the nodes as they
are laid out.
-/

namespace LiveDoc

namespace Yaml

/-! ## What is read of a text -/

/-- Whether a reader gets the text of a scalar at a margin: no guard of a space slips. -/
def textHolds (margin : Nat) (t s : String) : Bool :=
  Style.choose t s false != .double || Style.guardsHold (Style.isWide true margin) s.toList.tail

theorem seenText_iff (margin : Nat) (t s : String) :
    seenText margin t s = s.toList ↔ textHolds margin t s = true := by
  rw [seenText, Style.seen, textHolds]
  split
  · rename_i double
    rw [Style.reread_eq_self, double]
    simp
  · rename_i other
    simp [other]

theorem seenText_plain {margin : Nat} {t s : String} (plain : Style.choose t s false = .plain) :
    seenText margin t s = s.toList := by
  rw [seenText_iff, textHolds, plain]
  rfl

/-- A plain scalar that shows its type has it, whatever it is, and one in quotes is a string. -/
theorem scalarTag_shown {t s text : String} (shown : IsShown t s) (same : isPlain t s = true → text = s) :
    Block.scalarTag text (isPlain t s) = t := by
  cases plain : isPlain t s with
  | true =>
    rw [same plain]
    exact (Style.choose_plain (eq_of_beq plain)).1
  | false =>
    rcases shown with rfl | ⟨-, other⟩
    · rfl
    · rw [isPlain, other] at plain
      contradiction

theorem scalarTag_seen {margin : Nat} {t s : String} (shown : IsShown t s) :
    Block.scalarTag (String.ofList (seenText margin t s)) (isPlain t s) = t :=
  scalarTag_shown shown fun plain => by
    rw [seenText_plain (eq_of_beq plain), String.ofList_toList]

namespace Node

mutual

/-- Whether a reader gets all texts in a node that is written at a margin, the keys among them. A key
without a mark is on one line, so it has no guards. -/
def holds (margin : Nat) : Node → Bool
  | .scalar t s _ => textHolds margin t s
  | .sequence _ ns _ => itemsHold margin ns
  | .mapping _ es _ => entriesHold margin es

/-- Whether it gets those in items. -/
def itemsHold (margin : Nat) : List Node → Bool
  | [] => true
  | n :: ns => n.holds (margin + 2) && itemsHold margin ns

/-- Whether it gets those in entries. -/
def entriesHold (margin : Nat) : List (Node × Node) → Bool
  | [] => true
  | (k, v) :: es =>
    (Writer.isSimpleKey k || k.holds (margin + 2)) && v.holds (valueMargin margin k v) &&
      entriesHold margin es

end

/-- Whether every text of a node has a value when it is read, which is a value with its tuples turned
into lists exactly if the texts hold. -/
def Reads (n : Node) (v : Value) : Prop := ∀ margin n', (n.block margin).Composes n' →
  ∃ w, Built n' w ∧ (w = v.listed ↔ n.holds margin = true)

/-- The same of items. -/
def ReadItems (ns : List Node) (vs : List Value) : Prop := ∀ margin ns',
  Block.ComposeItems (blockItems margin ns) ns' →
    ∃ ws, BuiltItems ns' ws ∧ (ws = Value.listedAll vs ↔ itemsHold margin ns = true)

/-- The same of entries, none of which is lost. -/
def ReadEntries (ns : List (Node × Node)) (es : List (Value × Value)) : Prop := ∀ margin ns',
  Block.ComposeEntries (blockEntries margin ns) ns' → ∃ ws, BuiltEntries ns' ws ∧
    ws.length = es.length ∧ (ws = Value.listedEntries es ↔ entriesHold margin ns = true)

end Node

variable {t s : String} {v : Value} {vs : List Value} {es : List (Value × Value)}

theorem reads_leaf (leaf : IsLeaf t s v) (single : v.listed = v) :
    IsShown t s ∧ (Node.scalar t s {}).Reads v := by
  obtain ⟨present, plain, read⟩ := leaf
  have shown : IsShown t s := .inr ⟨present, plain⟩
  refine ⟨shown, fun margin n' composes => ?_⟩
  cases n' with
  | scalar t' s' mark =>
    obtain ⟨rfl, rfl⟩ := composes
    rw [scalarTag_seen shown, seenText_plain plain, String.ofList_toList]
    have type := (Style.choose_plain plain).1
    refine ⟨v, ⟨type ▸ Build.collection?_tagOf s, read mark⟩, ?_⟩
    rw [single, Node.holds, textHolds, plain]
    simp
  | _ => cases composes

theorem reads_text (s : String) : (Node.scalar (Schema.tag "str") s {}).Reads (.text s) := by
  intro margin n' composes
  cases n' with
  | scalar t' s' mark =>
    obtain ⟨rfl, rfl⟩ := composes
    rw [scalarTag_seen (.inl rfl)]
    refine ⟨_, ⟨Build.collection?_str, Build.leaf_str⟩, ?_⟩
    change Value.text _ = .text s ↔ textHolds margin _ s = true
    rw [← seenText_iff, Value.text.injEq, ← String.toList_inj, String.toList_ofList]
  | _ => cases composes

/-- A key is read as a string. -/
theorem key_tag (margin : Nat) (mark : Mark) :
    Block.scalarTag (Node.blockKey margin (.scalar (Schema.tag "str") s mark)).text
      (Node.blockKey margin (.scalar (Schema.tag "str") s mark)).plain = Schema.tag "str" := by
  rw [Node.blockKey]
  split
  · exact scalarTag_shown (.inl rfl) fun _ => rfl
  · exact scalarTag_seen (.inl rfl)

/-- What is read of a key is its text, if it holds. -/
theorem key_iff (margin : Nat) (mark : Mark) :
    (Node.blockKey margin (.scalar (Schema.tag "str") s mark)).text = s ↔
      (Writer.isSimpleKey (.scalar (Schema.tag "str") s mark) ||
        (Node.scalar (Schema.tag "str") s mark).holds (margin + 2)) = true := by
  rw [Node.blockKey]
  split
  · rename_i simple
    rw [simple]
    simp
  · rename_i marked
    rw [eq_false_of_ne_true marked, Bool.false_or, Node.holds, ← seenText_iff, ← String.toList_inj,
      String.toList_ofList]

theorem reads_items {ns : List Node} (reads : Node.ReadItems ns vs) :
    (Node.sequence (Schema.tag "seq") ns {}).Reads (.list vs) := by
  intro margin n' composes
  cases n' with
  | sequence tag ns' mark =>
    obtain ⟨rfl, composes⟩ := composes
    obtain ⟨ws, built, same⟩ := reads margin ns' composes
    refine ⟨.list ws, ⟨rfl, ws, rfl, built⟩, ?_⟩
    change Value.list ws = .list (Value.listedAll vs) ↔ Node.itemsHold margin ns = true
    rw [Value.list.injEq, same]
  | _ => cases composes

theorem reads_entries {ns : List (Node × Node)}
    (keys : (∀ k ∈ es.map (·.1), ∃ s, k = .text s) ∧ (es.map (·.1)).Nodup)
    (reads : Node.ReadEntries ns es) :
    (Node.mapping (Schema.tag "map") ns {}).Reads (.mapping es) := by
  intro margin n' composes
  cases n' with
  | mapping tag ns' mark =>
    obtain ⟨rfl, composes⟩ := composes
    obtain ⟨ws, built, count, same⟩ := reads margin ns' composes
    refine ⟨.mapping (Build.gathered [] ws), ⟨rfl, ws, rfl, built⟩, ?_⟩
    change Value.mapping _ = .mapping (Value.listedEntries es) ↔ Node.entriesHold margin ns = true
    rw [Value.mapping.injEq, ← same]
    rw [← Value.listedEntries_keys] at keys
    have length : (Value.listedEntries es).length = es.length := by
      simpa using congrArg List.length (Value.listedEntries_keys es)
    constructor
    · intro all
      have kept : Build.gathered [] ws = [] ++ ws :=
        Build.gathered_of_length (by rw [all, length, count]; simp)
      rw [← all, kept]
      rfl
    · rintro rfl
      exact Build.gathered_texts keys.1 keys.2
  | _ => cases composes

theorem keys_structured (structured : Value.HoldStructured es) (keyed : Value.holdTextKeyed es = true) :
    (∀ k ∈ es.map (·.1), ∃ s, k = .text s) ∧ (es.map (·.1)).Nodup := by
  induction es with
  | nil => exact ⟨nofun, .nil⟩
  | cons e es ih =>
    obtain ⟨k, v⟩ := e
    simp only [Value.holdTextKeyed, Bool.and_eq_true] at keyed
    obtain ⟨-, apart, -, structured⟩ := structured
    obtain ⟨texts, distinct⟩ := ih structured keyed.2
    have key : ∃ s, k = .text s := by
      cases k <;> first | exact ⟨_, rfl⟩ | cases keyed.1.1
    refine ⟨List.forall_mem_cons.mpr ⟨key, texts⟩, List.nodup_cons.mpr ⟨fun inside => ?_, distinct⟩⟩
    obtain ⟨other, among, same⟩ := List.mem_map.mp inside
    obtain ⟨s, rfl⟩ := key
    have different := apart other among
    rw [same] at different
    simp [Value.eqv] at different

mutual

/-- A structured value with texts as keys has a node that is written without tags, and is read as a
value. -/
theorem exists_node : ∀ {v : Value}, v.IsStructured → v.isTextKeyed = true →
    v.showsOversized = false → ∃ n, Node.ofValue v = .ok n ∧ n.Shown ∧ n.Reads v
  | .null => fun _ _ _ => ⟨_, rfl, reads_leaf isLeaf_null rfl⟩
  | .bool b => fun _ _ _ => ⟨_, rfl, reads_leaf (isLeaf_bool b) rfl⟩
  | .int n => fun _ _ few => by
    have few : Value.isOversized n = false := few
    have made : Node.ofValue (.int n) = .ok (Node.ofText "int" (toString n)) := by
      simp only [Node.ofValue, few, Bool.false_eq_true, if_false]
    exact ⟨_, made, reads_leaf (isLeaf_int few) rfl⟩
  | .float .nan => fun _ _ _ => ⟨_, rfl, reads_leaf isLeaf_nan rfl⟩
  | .float (.infinite negative) => fun _ _ _ => ⟨_, rfl, reads_leaf (isLeaf_infinite negative) rfl⟩
  | .float (.finite _ _ _) => fun canonical _ _ => ⟨_, rfl, reads_leaf (isLeaf_finite canonical) rfl⟩
  | .text s => fun _ _ _ => ⟨_, rfl, .inl rfl, reads_text s⟩
  | .list vs => fun structured keyed few => by
    obtain ⟨ns, made, shown, reads⟩ := exists_items structured keyed few
    refine ⟨.sequence (Schema.tag "seq") ns {}, ?_, ⟨rfl, shown⟩, reads_items reads⟩
    simp only [Node.ofValue, made, bind, Except.bind]
  | .tuple vs => fun structured keyed few => by
    obtain ⟨ns, made, shown, reads⟩ := exists_items structured keyed few
    refine ⟨.sequence (Schema.tag "seq") ns {}, ?_, ⟨rfl, shown⟩, reads_items reads⟩
    simp only [Node.ofValue, made, bind, Except.bind]
  | .mapping es => fun structured keyed few => by
    obtain ⟨ns, made, shown, reads⟩ := exists_entries structured keyed few
    refine ⟨.mapping (Schema.tag "map") ns {}, ?_, ⟨rfl, shown⟩, ?_⟩
    · simp only [Node.ofValue, made, bind, Except.bind]
    · exact reads_entries (keys_structured structured keyed) reads
  | .bytes _ | .buffer _ | .set _ | .date _ | .moment _ | .clock _ | .span _ | .zone _
  | .routine _ _ | .deferred _ _ | .record _ _ => fun absent => absent.elim

theorem exists_items : ∀ {vs : List Value}, Value.AreStructured vs → Value.areTextKeyed vs = true →
    Value.anyOversized vs = false →
      ∃ ns, Node.ofValues vs = .ok ns ∧ Node.ShownItems ns ∧ Node.ReadItems ns vs
  | [], _, _, _ => by
    refine ⟨[], rfl, trivial, fun margin ns' composes => ?_⟩
    cases ns' with
    | nil => exact ⟨[], rfl, by simp [Value.listedAll, Node.itemsHold]⟩
    | cons => cases composes
  | v :: vs, ⟨structured, others⟩, keyed, few => by
    obtain ⟨own, keyed⟩ := Bool.and_eq_true_iff.mp keyed
    obtain ⟨small, few⟩ := Bool.or_eq_false_iff.mp few
    obtain ⟨n, made, shown, reads⟩ := exists_node structured own small
    obtain ⟨ns, madeOthers, shownOthers, readOthers⟩ := exists_items others keyed few
    refine ⟨n :: ns, by simp only [Node.ofValues, made, madeOthers, bind, Except.bind],
      ⟨shown, shownOthers⟩, fun margin ns' composes => ?_⟩
    cases ns' with
    | nil => cases composes
    | cons n' ns' =>
      obtain ⟨w, built, same⟩ := reads (margin + 2) n' composes.1
      obtain ⟨ws, builtOthers, sameOthers⟩ := readOthers margin ns' composes.2
      refine ⟨w :: ws, ⟨w, ws, rfl, built, builtOthers⟩, ?_⟩
      rw [Value.listedAll, List.cons.injEq, same, sameOthers, Node.itemsHold, Bool.and_eq_true]

theorem exists_entries : ∀ {es : List (Value × Value)}, Value.HoldStructured es →
    Value.holdTextKeyed es = true → Value.entriesOversized es = false →
      ∃ ns, Node.ofEntries es = .ok ns ∧ Node.ShownEntries ns ∧ Node.ReadEntries ns es
  | [], _, _, _ => by
    refine ⟨[], rfl, trivial, fun margin ns' composes => ?_⟩
    cases ns' with
    | nil => exact ⟨[], rfl, rfl, by simp [Value.listedEntries, Node.entriesHold]⟩
    | cons => cases composes
  | (k, v) :: es, ⟨_, _, structured, others⟩, keyed, few => by
    simp only [Value.holdTextKeyed, Bool.and_eq_true] at keyed
    simp only [Value.entriesOversized, Bool.or_eq_false_iff] at few
    obtain ⟨⟨textual, own⟩, keyed⟩ := keyed
    obtain ⟨⟨-, small⟩, few⟩ := few
    obtain ⟨s, rfl⟩ : ∃ s, k = .text s := by
      cases k <;> first | exact ⟨_, rfl⟩ | cases textual
    obtain ⟨n, made, shown, reads⟩ := exists_node structured own small
    obtain ⟨ns, madeOthers, shownOthers, readOthers⟩ := exists_entries others keyed few
    refine ⟨(.scalar (Schema.tag "str") s {}, n) :: ns, ?_, ⟨⟨s, {}, rfl⟩, shown, shownOthers⟩,
      fun margin ns' composes => ?_⟩
    · simp only [Node.ofEntries, Node.ofValue, made, madeOthers, bind, Except.bind]
      rfl
    cases ns' with
    | nil => cases composes
    | cons e ns' =>
      obtain ⟨k', n'⟩ := e
      obtain ⟨⟨mark, rfl⟩, composes, composeOthers⟩ := composes
      obtain ⟨w, built, same⟩ := reads _ n' composes
      obtain ⟨ws, builtOthers, count, sameOthers⟩ := readOthers margin ns' composeOthers
      refine ⟨(.text (Node.blockKey margin (.scalar (Schema.tag "str") s {})).text, w) :: ws,
        ⟨_, mark, w, ws, ?_, rfl, built, builtOthers⟩, by simp [count], ?_⟩
      · rw [key_tag]
      · rw [Value.listedEntries, List.cons.injEq, Prod.mk.injEq, same, sameOthers, Value.text.injEq,
          key_iff, Node.entriesHold, Bool.and_eq_true, Bool.and_eq_true]

end

/-! ## Whole documents -/

/-- What is written for a value is read as a value if its keys are in reach, which is the same one but
for its tuples exactly if the texts hold. If a key is not in reach, nothing is read. -/
theorem exists_reading (structured : v.IsStructured) (keyed : v.isTextKeyed = true)
    (few : v.showsOversized = false) : ∃ n s, Node.ofValue v = .ok n ∧ write v = .ok s ∧
      if n.inReach n.rootMargin then
        ∃ w, read s.toList = .ok w ∧ (w = v.listed ↔ n.holds n.rootMargin = true)
      else ∀ w, read s.toList ≠ .ok w := by
  obtain ⟨n, made, shown, reads⟩ := exists_node structured keyed few
  have written : write v =
      .ok (String.ofList ((Writer.document n).flatMap fun line => line ++ ['\n'])) := by
    simp only [write, made, bind, Except.bind]
  refine ⟨n, _, made, written, ?_⟩
  rw [String.toList_ofList]
  have tokens := tokens_document shown rfl
  split
  · rename_i near
    rw [if_pos near] at tokens
    obtain ⟨halt, marked, kinds⟩ := tokens
    obtain ⟨n', composed, composes⟩ := document?_block halt kinds
    obtain ⟨w, built, same⟩ := reads _ n' composes
    exact ⟨w, by simp only [read, composed, Build.document_built built, bind, Except.bind], same⟩
  · rename_i far
    rw [if_neg far] at tokens
    exact fun w => read_of_halted tokens.1 tokens.2 w

/-- Whether a value comes back from its YAML text: every key without a mark is in reach of its colon,
and no guard of a space slips in its texts. -/
def comesBack (v : Value) : Bool :=
  match Node.ofValue v with
  | .ok n => n.inReach n.rootMargin && n.holds n.rootMargin
  | .error _ => false

/-- What is written for a value is read as the value with its tuples turned into lists exactly if the
value comes back. -/
theorem exists_reading_iff (structured : v.IsStructured) (keyed : v.isTextKeyed = true)
    (few : v.showsOversized = false) :
    ∃ s, write v = .ok s ∧ (read s.toList = .ok v.listed ↔ comesBack v = true) := by
  obtain ⟨n, s, made, written, reads⟩ := exists_reading structured keyed few
  refine ⟨s, written, ?_⟩
  simp only [comesBack, made]
  split at reads
  · rename_i near
    obtain ⟨w, read, same⟩ := reads
    rw [read, near, Bool.true_and, ← same, Except.ok.injEq]
  · rename_i far
    rw [eq_false_of_ne_true far, Bool.false_and]
    exact iff_of_false (reads _) Bool.false_ne_true

end Yaml

namespace Document

open Yaml (comesBack)

/-- Serializing in the YAML format is writing YAML text, whatever is asked for JSON text. -/
theorem serialize_yaml (v : Value) (pretty strict : Bool) :
    serialize v (.text Format.yaml.name) pretty strict = Yaml.write v := by
  rw [serialize_named, write]

/-- A structured value whose keys are texts and whose integers are converted to text is serialized as
YAML. The text deserializes to the value with its tuples turned into lists, entries in their order,
exactly if every key without a mark is in reach of its colon and no guard of a space slips. -/
theorem deserialize_yaml_serialize {v : Value} (structured : v.IsStructured)
    (keyed : v.isTextKeyed = true) (few : v.showsOversized = false) (pretty strict : Bool) :
    ∃ s, serialize v (.text Format.yaml.name) pretty strict = .ok s ∧
      (deserialize (.text s) .null (.text Format.yaml.name) = .ok v.listed ↔
        comesBack v = true) := by
  obtain ⟨s, written, back⟩ := Yaml.exists_reading_iff structured keyed few
  rw [← Yaml.decode_iff, ← deserialize_yaml] at back
  exact ⟨s, (serialize_yaml v pretty strict).trans written, back⟩

/-- A mapping with texts that look like other values, with floats in a pair, and with a key that needs
a mark. -/
def lookalikes : Value :=
  .mapping [(.text "null", .tuple [.null, .float .nan, .float (.finite false 5000000000000000 1),
      .float (.infinite true)]),
    (.text "", .list [.text "1.0e+16", .text "12", .text " a\n\u2028b: #", .text "<<", .list []]),
    (.text (String.ofList (List.replicate 130 'k')), .mapping [(.text "...", .int (-7))])]

/-- It comes back with the pair as a list. -/
theorem lookalikes_comeBack :
    lookalikes.IsStructured ∧ lookalikes.isTextKeyed = true ∧ lookalikes.showsOversized = false ∧
      comesBack lookalikes = true ∧
      ∃ s, serialize lookalikes (.text Format.yaml.name) false true = .ok s ∧
        (deserialize (.text s) .null (.text Format.yaml.name) = .ok lookalikes.listed ↔
          comesBack lookalikes = true) := by
  have structured : lookalikes.IsStructured := by
    have large : Binary64.Canonical (.finite false 5000000000000000 1) :=
      ⟨by decide, by decide, by decide, .inr (by decide)⟩
    refine ⟨rfl, ?_, ⟨trivial, trivial, large, trivial, trivial⟩, rfl, ?_,
      ⟨trivial, trivial, trivial, trivial, trivial, trivial⟩, rfl, nofun,
      ⟨rfl, nofun, trivial, trivial⟩, trivial⟩
    · exact List.forall_mem_cons.mpr ⟨by decide +kernel, List.forall_mem_singleton.mpr (by decide +kernel)⟩
    · exact List.forall_mem_singleton.mpr (by decide +kernel)
  have few : lookalikes.showsOversized = false := by decide +kernel
  exact ⟨structured, rfl, few, by decide +kernel, deserialize_yaml_serialize structured rfl few _ _⟩

/-- A mapping with a key of 103 characters that are escaped. -/
def longKeyed : Value :=
  .mapping [(.text (String.ofList (List.replicate 103 '😀')), .int 1)]

/-- The key is out of reach of its colon: it is written without a mark, and every character of it is
escaped. -/
theorem keyInReach_longKeyed :
    Yaml.Node.keyInReach 0 (.scalar (Yaml.Schema.tag "str")
      (String.ofList (List.replicate 103 '😀')) {}) = false := by
  have present : (String.ofList (List.replicate 103 '😀')).isEmpty = false := by
    rw [← Bool.not_eq_true, String.isEmpty_iff, ← String.toList_eq_nil_iff, String.toList_ofList]
    exact nofun
  have simple : Yaml.Writer.isSimpleKey (.scalar (Yaml.Schema.tag "str")
      (String.ofList (List.replicate 103 '😀')) {}) = true := by
    simp only [Yaml.Writer.isSimpleKey, String.length_ofList, String.toList_ofList, present]
    decide +kernel
  have double : Yaml.Style.choose (Yaml.Schema.tag "str")
      (String.ofList (List.replicate 103 '😀')) true = .double :=
    Yaml.Style.choose_of_special (by rw [String.toList_ofList]; rfl)
  simp only [Yaml.Node.keyInReach, simple, Yaml.Writer.keyLine, Yaml.Writer.scalar, double,
    String.toList_ofList, reduceCtorEq, if_false, if_true]
  decide +kernel

/-- Its text deserializes to no value at all. -/
theorem longKeyed_isLost :
    longKeyed.IsStructured ∧ longKeyed.isTextKeyed = true ∧ longKeyed.showsOversized = false ∧
      ∃ s, serialize longKeyed (.text Format.yaml.name) false true = .ok s ∧
        ∀ w, deserialize (.text s) .null (.text Format.yaml.name) ≠ .ok w := by
  have structured : longKeyed.IsStructured := ⟨rfl, nofun, trivial, trivial⟩
  have few : longKeyed.showsOversized = false := by decide +kernel
  have one : Value.isOversized 1 = false := by decide +kernel
  have node : Yaml.Node.ofValue longKeyed = .ok (.mapping (Yaml.Schema.tag "map")
      [(Yaml.Node.ofText "str" (String.ofList (List.replicate 103 '😀')),
        Yaml.Node.ofText "int" (toString (1 : Int)))] {}) := by
    simp only [longKeyed, Yaml.Node.ofValue, Yaml.Node.ofEntries, one, Bool.false_eq_true, if_false,
      bind, Except.bind]
  obtain ⟨n, s, made, written, reads⟩ := Yaml.exists_reading structured rfl few
  obtain rfl := Except.ok.inj (node.symm.trans made)
  simp only [Yaml.Node.rootMargin, Yaml.Node.inReach, Yaml.Node.entriesInReach, Yaml.Node.ofText,
    keyInReach_longKeyed, Bool.false_and, Bool.false_eq_true, if_false] at reads
  refine ⟨structured, rfl, few, s, (serialize_yaml ..).trans written, fun w same => reads w ?_⟩
  rwa [deserialize_yaml, Yaml.decode_iff] at same

/-- A value in so many mappings. -/
def nested : Nat → Value → Value
  | 0, v => v
  | depth + 1, v => .mapping [(.text "a", nested depth v)]

theorem structured_nested {v : Value} (structured : v.IsStructured) (depth : Nat) :
    (nested depth v).IsStructured := by
  induction depth with
  | zero => exact structured
  | succ depth ih => exact ⟨rfl, nofun, ih, trivial⟩

/-- A text with an escaped character in front of a space, at a margin of 80 blanks. -/
def deepText : Value := nested 40 (.text "aé bcd")

/-- It comes back as another text: the line is folded directly behind the guard of the space. -/
theorem deepText_changes :
    deepText.IsStructured ∧ deepText.isTextKeyed = true ∧ deepText.showsOversized = false ∧
      ∃ s, serialize deepText (.text Format.yaml.name) false true = .ok s ∧
        deserialize (.text s) .null (.text Format.yaml.name) ≠ .ok deepText.listed := by
  have structured : deepText.IsStructured := structured_nested (v := .text _) trivial 40
  have keyed : deepText.isTextKeyed = true := by decide +kernel
  have few : deepText.showsOversized = false := by decide +kernel
  have slips : comesBack deepText = false := by decide +kernel
  obtain ⟨s, written, back⟩ := Yaml.exists_reading_iff structured keyed few
  refine ⟨structured, keyed, few, s, (serialize_yaml ..).trans written, fun same => ?_⟩
  have read := back.mp (Yaml.decode_iff.mp ((deserialize_yaml s).symm.trans same))
  exact absurd (slips.symm.trans read) Bool.false_ne_true

end Document

end LiveDoc
