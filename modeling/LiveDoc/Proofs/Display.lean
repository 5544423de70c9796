import LiveDoc.Proofs.JsonRoundTrip
import LiveDoc.Proofs.Printing

/-!
# Two ways to show a value

The printer, with two spaces for each level, and the JSON writer, in the indented layout and where what
has no JSON form is shown, write the same text for every value of JSON scalars and calendar values in
lists, tuples and mappings with texts as keys. So what is printed for such a value without calendar
values is JSON text, and reads as the value with its tuples turned into lists.
-/

namespace LiveDoc

/-! ## Values that both can show -/

namespace Value

mutual

/-- Whether a value is made of JSON scalars and calendar values in lists, tuples and mappings. -/
def isDisplayed : Value → Bool
  | .null | .bool _ | .int _ | .float _ | .text _ | .date _ | .moment _ | .clock _ => true
  | .list xs => areDisplayed xs
  | .tuple xs => areDisplayed xs
  | .mapping es => holdDisplayed es
  | _ => false

/-- Whether this holds of the items of a list. -/
def areDisplayed : List Value → Bool
  | [] => true
  | x :: xs => x.isDisplayed && areDisplayed xs

/-- Whether this holds of the values of entries. -/
def holdDisplayed : List (Value × Value) → Bool
  | [] => true
  | (_, v) :: es => v.isDisplayed && holdDisplayed es

end

end Value

/-! ## Texts without escapes -/

namespace Json.Writer

/-- Whether no character of a text is escaped in a string. -/
def Unescaped (s : String) : Prop := ∀ c ∈ s.toList, escapeChar c = [c]

/-- Such a text stands between quotes as it is. -/
theorem string_unescaped {s : String} (unescaped : Unescaped s) :
    string s = "\"" ++ s ++ "\"" := by
  have same : s.toList.flatMap escapeChar = s.toList := by
    rw [List.flatMap_congr unescaped]
    exact List.flatMap_singleton' s.toList
  rw [string, same]
  apply String.toList_injective
  simp

theorem unescaped_append {s t : String} (first : Unescaped s) (second : Unescaped t) :
    Unescaped (s ++ t) := by
  intro c inside
  rw [String.toList_append] at inside
  exact (List.mem_append.mp inside).elim (first c) (second c)

theorem unescaped_ite {p : Prop} [Decidable p] {s t : String} (first : Unescaped s)
    (second : Unescaped t) : Unescaped (if p then s else t) := by
  split
  · exact first
  · exact second

theorem unescaped_empty : Unescaped "" := nofun

/-- Printable characters other than a quote and a backslash are not escaped. -/
theorem escapeChar_printable {c : Char} (printable : 32 ≤ c.toNat) (quote : c ≠ '"')
    (backslash : c ≠ '\\') : escapeChar c = [c] := by
  have above : ∀ d : Char, d.toNat < 32 → c ≠ d := by
    rintro d low rfl
    omega
  simp only [escapeChar, quote, backslash, above '\n' (by decide), above '\r' (by decide),
    above '\t' (by decide), above '\x08' (by decide), above '\x0c' (by decide),
    Nat.not_lt.mpr printable, if_false]

theorem escapeChar_digit {c : Char} (digit : c.isDigit = true) : escapeChar c = [c] := by
  have low : '0' ≤ c := by
    simp only [Char.isDigit, Bool.and_eq_true, decide_eq_true_eq] at digit
    exact digit.1
  have printable : 48 ≤ c.toNat := low
  refine escapeChar_printable (by omega) ?_ ?_ <;>
  · rintro rfl
    contradiction

/-- A mark between the parts of a date or time is not escaped. -/
theorem unescaped_mark {mark : String} (known : mark ∈ ["-", ":", ".", "+", "T"]) :
    Unescaped mark := by
  simp only [List.mem_cons, List.not_mem_nil, or_false] at known
  rcases known with rfl | rfl | rfl | rfl | rfl <;>
    exact fun c inside => List.mem_singleton.mp inside ▸ rfl

theorem unescaped_padded (width n : Nat) : Unescaped (Calendar.padded width n) := by
  intro c inside
  rw [Calendar.padded, String.toList_append, String.toList_ofList] at inside
  rcases List.mem_append.mp inside with zero | digit
  · rw [List.eq_of_mem_replicate zero]
    rfl
  · rw [Nat.toString_eq_ofList_toDigits, String.toList_ofList] at digit
    exact escapeChar_digit (Nat.isDigit_of_mem_toDigits (by decide) (by decide) digit)

theorem unescaped_date (d : Date) : Unescaped d.text := by
  have mark : Unescaped "-" := unescaped_mark (by decide)
  have month := unescaped_append (unescaped_append (unescaped_padded 4 d.year) mark)
    (unescaped_padded 2 d.month)
  exact unescaped_append (unescaped_append month mark) (unescaped_padded 2 d.day)

theorem unescaped_zone (z : Zone) : Unescaped z.text := by
  have colon : Unescaped ":" := unescaped_mark (by decide)
  have sign : Unescaped (if z.offset < 0 then "-" else "+") :=
    unescaped_ite (unescaped_mark (by decide)) (unescaped_mark (by decide))
  refine unescaped_append (unescaped_append (unescaped_append (unescaped_append ?hour colon) ?minute)
    ?second) ?fraction
  case hour => exact unescaped_append sign (unescaped_padded 2 _)
  case minute => exact unescaped_padded 2 _
  case second => exact unescaped_ite unescaped_empty (unescaped_append colon (unescaped_padded 2 _))
  case fraction =>
    exact unescaped_ite unescaped_empty
      (unescaped_append (unescaped_mark (by decide)) (unescaped_padded 6 _))

theorem unescaped_clock (t : ClockTime) : Unescaped t.text := by
  have colon : Unescaped ":" := unescaped_mark (by decide)
  have minute := unescaped_append (unescaped_append (unescaped_padded 2 t.hour) colon)
    (unescaped_padded 2 t.minute)
  have second := unescaped_append (unescaped_append minute colon) (unescaped_padded 2 t.second)
  refine unescaped_append (unescaped_append second ?fraction) ?zone
  case fraction =>
    exact unescaped_ite unescaped_empty
      (unescaped_append (unescaped_mark (by decide)) (unescaped_padded 6 _))
  case zone =>
    split
    · exact unescaped_empty
    · exact unescaped_zone _

theorem unescaped_moment (m : Moment) : Unescaped m.text :=
  unescaped_append (unescaped_append (unescaped_date m.date) (unescaped_mark (by decide)))
    (unescaped_clock m.time)

end Json.Writer

/-! ## Layouts -/

namespace Printer

open Json

/-- Two spaces for each level follow a line break in the indented layout. -/
theorem newline_indentation (level : Nat) :
    Writer.newline .indented level = "\n" ++ indentation "  " level := by
  have spaces : (List.replicate level "  ").flatMap String.toList =
      List.replicate (2 * level) ' ' := by
    induction level with
    | zero => rfl
    | succ level ih =>
      rw [List.replicate_succ, List.flatMap_cons, ih, Nat.mul_succ, Nat.add_comm,
        List.replicate_add]
      rfl
  apply String.toList_injective
  rw [Writer.newline, String.toList_ofList, String.toList_append, indentation, String.toList_join,
    Int.toNat_natCast, spaces]
  rfl

/-- A prefix of every line is one of the first line and of each separator. -/
theorem intercalate_prefixed (separator lead s : String) (ss : List String) :
    separator.intercalate ((s :: ss).map fun l => lead ++ l) =
      lead ++ (separator ++ lead).intercalate (s :: ss) := by
  induction ss generalizing s with
  | nil => simp
  | cons t ss ih =>
    rw [List.map_cons, List.map_cons, String.intercalate_cons_cons, ← List.map_cons, ih t,
      String.intercalate_cons_cons]
    simp only [String.append_assoc]

/-- The lines between brackets are those of the indented layout. -/
theorem block_indented (level : Nat) (opening closing : String) {ss : List String}
    (present : ss ≠ []) :
    block "  " level opening closing ss = Writer.block .indented level opening closing ss := by
  obtain ⟨s, ss, rfl⟩ := List.exists_cons_of_ne_nil present
  have next : ((level : Int) + 1) = ((level + 1 : Nat) : Int) := rfl
  simp only [block, Writer.block, Writer.separator, List.isEmpty_cons, Bool.false_eq_true, if_false,
    newline_indentation, next, intercalate_prefixed, String.append_assoc]
  simp only [← String.append_assoc]
  rfl

/-- Lines that are made in both ways are put between brackets in both ways. -/
theorem shown_block {lines : Except Fault (List String)} {items : Except EncodeCause (List String)}
    {ss : List String} {n : Nat} (level : Nat) (opening closing : String) (printed : lines = .ok ss)
    (written : items = .ok ss) (count : ss.length = n + 1) :
    ∃ s, (lines >>= fun ss => .ok (block "  " level opening closing ss)) = .ok s ∧
      (items >>= fun ss => .ok (Writer.block .indented level opening closing ss)) = .ok s := by
  have same := block_indented level opening closing (List.ne_nil_of_length_eq_add_one count)
  rw [printed, written]
  exact ⟨_, rfl, congrArg Except.ok same.symm⟩

/-! ## The same text -/

/-- A calendar value is shown by its text between quotes, in which nothing is escaped. -/
theorem written_unescaped {s : String} (unescaped : Writer.Unescaped s) :
    (Except.ok (Writer.string s) : Except EncodeCause String) = .ok ("\"" ++ s ++ "\"") := by
  rw [Writer.string_unescaped unescaped]

mutual

/-- A value is printed as it is written for display. -/
theorem exists_shown : ∀ (level : Nat) (v : Value), v.isDisplayed = true → v.isTextKeyed = true →
    v.showsOversized = false → ∃ s, format "  " level v = .ok s ∧
      Writer.value .indented .lenient level v = .ok s
  | _, .null | _, .bool _ | _, .float _ | _, .text _ => fun _ _ _ => ⟨_, rfl, rfl⟩
  | _, .int n => fun _ _ few => by
    have small : Value.isOversized n = false := few
    refine ⟨toString n, ?_, ?_⟩
    · simp only [format, leaf, few, Bool.false_eq_true, if_false]
      rfl
    · simp only [Writer.value, Writer.int, small, Bool.false_eq_true, if_false]
  | _, .date d => fun _ _ _ => ⟨_, rfl, written_unescaped (Writer.unescaped_date d)⟩
  | _, .moment m => fun _ _ _ => ⟨_, rfl, written_unescaped (Writer.unescaped_moment m)⟩
  | _, .clock t => fun _ _ _ => ⟨_, rfl, written_unescaped (Writer.unescaped_clock t)⟩
  | _, .list [] | _, .tuple [] | _, .mapping [] => fun _ _ _ => ⟨_, rfl, rfl⟩
  | level, .list (x :: xs) => fun displayed keyed few => by
    obtain ⟨ss, printed, written, count⟩ :=
      exists_shownAll (level + 1) (x :: xs) displayed keyed few
    exact shown_block level "[" "]" printed written count
  | level, .tuple (x :: xs) => fun displayed keyed few => by
    obtain ⟨ss, printed, written, count⟩ :=
      exists_shownAll (level + 1) (x :: xs) displayed keyed few
    exact shown_block level "[" "]" printed written count
  | level, .mapping (e :: es) => fun displayed keyed few => by
    obtain ⟨ss, printed, written, count⟩ :=
      exists_shownEntries (level + 1) (e :: es) displayed keyed few
    exact shown_block level Value.openBrace Value.closeBrace printed written count
  | _, .bytes _ | _, .buffer _ | _, .set _ | _, .span _ | _, .zone _ | _, .routine _ _
  | _, .deferred _ _ | _, .record _ _ => fun absent => by cases absent

/-- The same for the items of a list. -/
theorem exists_shownAll : ∀ (level : Nat) (xs : List Value), Value.areDisplayed xs = true →
    Value.areTextKeyed xs = true → Value.anyOversized xs = false →
      ∃ ss, formatAll "  " level xs = .ok ss ∧
        Writer.values .indented .lenient level xs = .ok ss ∧ ss.length = xs.length
  | _, [] => fun _ _ _ => ⟨[], rfl, rfl, rfl⟩
  | level, x :: xs => fun displayed keyed few => by
    obtain ⟨own, others⟩ := Bool.and_eq_true_iff.mp displayed
    obtain ⟨named, namedOthers⟩ := Bool.and_eq_true_iff.mp keyed
    obtain ⟨small, smallOthers⟩ := Bool.or_eq_false_iff.mp few
    obtain ⟨s, printed, written⟩ := exists_shown level x own named small
    obtain ⟨ss, printedAll, writtenAll, count⟩ :=
      exists_shownAll level xs others namedOthers smallOthers
    exact ⟨s :: ss, by simp only [formatAll, printed, printedAll, bind, Except.bind],
      by simp only [Writer.values, written, writtenAll, bind, Except.bind], by simp [count]⟩

/-- The same for the entries of a mapping. -/
theorem exists_shownEntries : ∀ (level : Nat) (es : List (Value × Value)),
    Value.holdDisplayed es = true → Value.holdTextKeyed es = true →
      Value.entriesOversized es = false → ∃ ss, formatEntries "  " level es = .ok ss ∧
        Writer.entries .indented .lenient level es = .ok ss ∧ ss.length = es.length
  | _, [] => fun _ _ _ => ⟨[], rfl, rfl, rfl⟩
  | level, (k, v) :: es => fun displayed keyed few => by
    obtain ⟨own, others⟩ := Bool.and_eq_true_iff.mp displayed
    simp only [Value.holdTextKeyed, Bool.and_eq_true] at keyed
    simp only [Value.entriesOversized, Bool.or_eq_false_iff] at few
    obtain ⟨⟨textual, named⟩, namedOthers⟩ := keyed
    obtain ⟨⟨-, small⟩, smallOthers⟩ := few
    obtain ⟨name, rfl⟩ : ∃ name, k = .text name := by
      cases k <;> first | exact ⟨_, rfl⟩ | cases textual
    have shown : key (.text name) = .ok (Writer.string name) := rfl
    obtain ⟨s, printed, written⟩ := exists_shown level v own named small
    obtain ⟨ss, printedAll, writtenAll, count⟩ :=
      exists_shownEntries level es others namedOthers smallOthers
    exact ⟨(Writer.string name ++ ": " ++ s) :: ss,
      by simp only [formatEntries, shown, printed, printedAll, bind, Except.bind],
      by simp only [Writer.entries, Writer.key, written, writtenAll, bind, Except.bind],
      by simp [count]⟩

end

end Printer

/-! ## Rigor -/

namespace Json.Writer

variable {layout : Layout}

mutual

/-- What the strict rule writes, the lenient one writes as well. -/
theorem value_lenient : ∀ {level : Nat} {v : Value} {s : String},
    value layout .strict level v = .ok s → value layout .lenient level v = .ok s
  | _, .list xs, s => fun written => by
    obtain ⟨ss, inner, outer⟩ := bind_ok written
    simp only [value, values_lenient inner, bind, Except.bind]
    exact outer
  | _, .tuple xs, s => fun written => by
    obtain ⟨ss, inner, outer⟩ := bind_ok written
    simp only [value, values_lenient inner, bind, Except.bind]
    exact outer
  | _, .mapping es, s => fun written => by
    obtain ⟨ss, inner, outer⟩ := bind_ok written
    simp only [value, entries_lenient inner, bind, Except.bind]
    exact outer
  | _, .int n, _ => fun written => by
    simp only [value] at written ⊢
    exact written
  | _, .null, _ | _, .bool _, _ | _, .float _, _ | _, .text _, _ => id
  | _, .bytes _, _ | _, .buffer _, _ | _, .set _, _ | _, .date _, _ | _, .moment _, _
  | _, .clock _, _ | _, .span _, _ | _, .zone _, _ | _, .routine _ _, _ | _, .deferred _ _, _
  | _, .record _ _, _ => fun refused => by cases refused

theorem values_lenient : ∀ {level : Nat} {xs : List Value} {ss : List String},
    values layout .strict level xs = .ok ss → values layout .lenient level xs = .ok ss
  | _, [], _ => id
  | _, x :: xs, _ => fun written => by
    obtain ⟨s, first, written⟩ := bind_ok written
    obtain ⟨ss, rest, whole⟩ := bind_ok written
    simp only [values, value_lenient first, values_lenient rest, bind, Except.bind]
    exact whole

theorem entries_lenient : ∀ {level : Nat} {es : List (Value × Value)} {ss : List String},
    entries layout .strict level es = .ok ss → entries layout .lenient level es = .ok ss
  | _, [], _ => id
  | _, (k, v) :: es, _ => fun written => by
    obtain ⟨name, named, written⟩ := bind_ok written
    obtain ⟨s, first, written⟩ := bind_ok written
    obtain ⟨ss, rest, whole⟩ := bind_ok written
    simp only [entries, named, value_lenient first, entries_lenient rest, bind, Except.bind]
    exact whole

end

end Json.Writer

/-! ## The printer and the display form -/

namespace Printer

/-- The usual width is that of two spaces. -/
theorem printAt_usual (v : Value) : printAt usualWidth (.int 0) v = print v := by
  have spaces : (Value.text " ").mul usualWidth = .ok (.text "  ") := by
    simp only [Value.mul, Value.isNumber, usualWidth, Value.repetition?, Value.repetitions]
    rfl
  simp only [printAt, spaces, Value.integer?, print, bind, Except.bind]

/-- A value of JSON scalars and calendar values in lists, tuples and mappings, with texts as keys and
integers that are converted to text, is printed with the usual width exactly as it is serialized for
display. Without calendar values that text is JSON: it deserializes to the value with its tuples
turned into lists. -/
theorem printAt_eq_serialize {v : Value} (displayed : v.isDisplayed = true)
    (keyed : v.isTextKeyed = true) (few : v.showsOversized = false) :
    ∃ s, printAt usualWidth (.int 0) v = .ok s ∧
      Document.serialize v (.text Format.json.name) true false = .ok s ∧
      (v.IsStructured →
        Document.deserialize (.text s) .null (.text Format.json.name) = .ok v.listed) := by
  obtain ⟨s, printed, written⟩ := exists_shown 0 v displayed keyed few
  have serialized : Document.serialize v (.text Format.json.name) true false = .ok s := by
    have display : Json.write .indented .lenient v = .ok s := written
    rw [Document.serialize_named, Document.write, Document.layoutOf, Document.rigorOf, if_pos rfl,
      if_neg Bool.false_ne_true, display]
  refine ⟨s, (printAt_usual v).trans printed, serialized, fun structured => ?_⟩
  obtain ⟨t, tree, strict, read, same⟩ := Json.exists_reading structured keyed few .indented
  obtain rfl : t = s := Except.ok.inj ((Json.Writer.value_lenient strict).symm.trans written)
  rw [Document.deserialize_named .json rfl, Document.decode, Json.decode, read]
  exact congrArg Except.ok same

/-- A moment with an offset in a tuple, and an empty mapping. -/
def stamped : Value :=
  .mapping [(.text "at", .tuple [.moment ⟨63844844700000012, some ⟨-19800000000⟩, by decide⟩,
    .bool true]), (.text "", .mapping [])]

/-- A text to escape and a number that is not finite in a tuple. -/
def quoted : Value := .list [.tuple [.text "a\"\n", .float (.infinite true)], .mapping []]

/-- Both are printed as they are serialized for display, and what is printed for the second one is
JSON text. -/
theorem stamped_agrees :
    (∃ s, printAt usualWidth (.int 0) stamped = .ok s ∧
      Document.serialize stamped (.text Format.json.name) true false = .ok s) ∧
    ∃ s, printAt usualWidth (.int 0) quoted = .ok s ∧
      Document.serialize quoted (.text Format.json.name) true false = .ok s ∧
      Document.deserialize (.text s) .null (.text Format.json.name) = .ok quoted.listed := by
  obtain ⟨s, printed, serialized, -⟩ := printAt_eq_serialize (v := stamped) rfl rfl rfl
  obtain ⟨t, printed', serialized', back⟩ := printAt_eq_serialize (v := quoted) rfl rfl rfl
  have structured : quoted.IsStructured := ⟨⟨trivial, trivial, trivial⟩, trivial, trivial⟩
  exact ⟨⟨s, printed, serialized⟩, t, printed', serialized', back structured⟩

end Printer

end LiveDoc
