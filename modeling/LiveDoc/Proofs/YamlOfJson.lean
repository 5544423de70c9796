import LiveDoc.Proofs.JsonText
import LiveDoc.Proofs.YamlFlow
import LiveDoc.Proofs.YamlKeys
import LiveDoc.Proofs.YamlPlain

/-!
# JSON text as tokens of YAML

Compact JSON text is a document in flow style. A run reads it to the end, unless there is a document
marker in a string that has raw line breaks. All its characters are acceptable if those of its texts
and keys are that are not escaped.
-/

namespace LiveDoc

namespace Value

variable {float float' : Binary64 → Bool} {text text' key key' : String → Bool}

mutual

/-- Whether all floats, texts and keys of a document have the properties given for each. -/
def every (float : Binary64 → Bool) (text key : String → Bool) : Value → Bool
  | .null | .bool _ | .int _ => true
  | .float x => float x
  | .text s => text s
  | .list vs => everyItem float text key vs
  | .mapping es => everyEntry float text key es
  | _ => false

/-- Whether this holds of all items. -/
def everyItem (float : Binary64 → Bool) (text key : String → Bool) : List Value → Bool
  | [] => true
  | v :: vs => v.every float text key && everyItem float text key vs

/-- Whether this holds of all entries, whose keys are texts. -/
def everyEntry (float : Binary64 → Bool) (text key : String → Bool) : List (Value × Value) → Bool
  | [] => true
  | (.text k, v) :: es => key k && v.every float text key && everyEntry float text key es
  | _ => false

end

end Value

namespace Json.Writer

variable {level : Nat} {opening closing : String} {o c : Char} {ss : List String}

/-! ## Items in the compact layout -/

/-- What stands in front of an item that may be the first. -/
def gap (first : Bool) : List Char := if first then [] else [',', ' ']

/-- Items, each behind its gap. -/
def row (first : Bool) : List String → List Char
  | [] => []
  | s :: ss => gap first ++ (s.toList ++ row false ss)

theorem toList_intercalate_row (ss : List String) : (", ".intercalate ss).toList = row true ss := by
  induction ss with
  | nil => rfl
  | cons s ss ih =>
    cases ss with
    | nil => simp [row, gap]
    | cons second ss =>
      rw [Reader.toList_intercalate, ih]
      rfl

theorem toList_block_row (opens : opening.toList = [o]) (closes : closing.toList = [c]) :
    (block .compact level opening closing ss).toList = o :: (row true ss ++ [c]) := by
  cases ss with
  | nil => simp [block, row, opens, closes]
  | cons s ss =>
    have items := toList_intercalate_row (s :: ss)
    have text := Reader.toList_block .compact level opens closes (List.cons_ne_nil s ss) []
    rw [List.append_nil] at text
    rw [text]
    change o :: ([] ++ ((", ".intercalate (s :: ss)).toList ++ ([] ++ [c]))) = _
    rw [items]
    rfl

end Json.Writer

namespace Yaml

open Json (Writer.value Writer.values Writer.entries)
open Json.Writer (gap row)

/-! ## Acceptable characters -/

/-- Whether a character may stand in YAML text as it stands in a JSON string, where control
characters are escaped. -/
def isCarried (c : Char) : Bool := decide (c.toNat < 32) || isAcceptable c

/-- Whether a text has such characters only. -/
def carries (s : String) : Bool := s.toList.all isCarried

theorem isAcceptable_ascii {c : Char} (printable : 32 ≤ c.toNat ∧ c.toNat ≤ 126) :
    isAcceptable c = true := by
  simp [isAcceptable, printable]

theorem all_escapeChar (x : Char) : (Json.Writer.escapeChar x).all isAcceptable = isCarried x := by
  rcases escapeChar_ascii x with ⟨small, printable⟩ | ⟨large, plain⟩
  · have all : (Json.Writer.escapeChar x).all isAcceptable = true :=
      List.all_eq_true.mpr fun c inside => isAcceptable_ascii (printable c inside)
    rw [all, isCarried]
    by_cases control : x.toNat < 32
    · simp [control]
    · simp [isAcceptable_ascii ⟨Nat.le_of_not_lt control, small⟩]
  · have visible : ¬ x.toNat < 32 := Nat.not_lt.mpr large
    simp [plain, isCarried, visible]

theorem all_string (s : String) : (Json.Writer.string s).toList.all isAcceptable = carries s := by
  have quote : isAcceptable '"' = true := by decide
  rw [toList_string, List.all_cons, List.all_append, List.all_flatMap]
  simp [quote, carries, all_escapeChar]

/-- A character of a word is printable. -/
theorem wordChar_range {c : Char} (word : Progress.isWordChar c = true) :
    43 ≤ c.toNat ∧ c.toNat ≤ 122 := by
  change (c.isUpper || c.isLower || c.isDigit || c == '+' || c == '-' || c == '.') = true at word
  simp only [Bool.or_eq_true, beq_iff_eq] at word
  rcases word with ((((upper | lower) | digit) | rfl) | rfl) | rfl
  · have range : 65 ≤ c.toNat ∧ c.toNat ≤ 90 := of_decide_eq_true upper
    omega
  · have range : 97 ≤ c.toNat ∧ c.toNat ≤ 122 :=
      (Bool.and_eq_true_iff.mp lower).imp of_decide_eq_true of_decide_eq_true
    omega
  · have range : 48 ≤ c.toNat ∧ c.toNat ≤ 57 :=
      (Bool.and_eq_true_iff.mp digit).imp of_decide_eq_true of_decide_eq_true
    omega
  all_goals decide

theorem isBlank_wordChar {c : Char} (word : Progress.isWordChar c = true) :
    Text.isBlank c = false := by
  have range := wordChar_range word
  unfold Text.isBlank
  simp only [Bool.or_eq_false_iff, Bool.and_eq_false_iff, decide_eq_false_iff_not,
    beq_eq_false_iff_ne]
  omega

/-- What is written for a value that is no text and no collection is its word. -/
theorem word?_of_written {v : Value} {level : Nat} {s w : String} (word : word? v = some w)
    (written : Writer.value .compact .strict level v = .ok s) : word? v = some s := by
  cases v with
  | null | bool | float =>
    obtain rfl := Except.ok.inj written
    rfl
  | int n =>
    rw [Writer.value] at written
    obtain ⟨-, rfl⟩ := Json.int_written written
    rfl
  | _ => cases word

theorem all_gap (first : Bool) : (gap first).all isAcceptable = true := by
  cases first <;> decide

theorem all_row (first : Bool) (ss : List String) :
    (row first ss).all isAcceptable = ss.all fun s => s.toList.all isAcceptable := by
  induction ss generalizing first with
  | nil => rfl
  | cons s ss ih => simp [row, all_gap, ih]

mutual

/-- The JSON text of a document is acceptable if its texts and keys are, as they are escaped. -/
theorem all_value : ∀ {v : Value} {level : Nat} {s : String}, v.IsJson →
    Writer.value .compact .strict level v = .ok s →
      s.toList.all isAcceptable = v.every (fun _ => true) carries carries
  | .null, _, _, json | .bool _, _, _, json | .int _, _, _, json | .float _, _, _, json => by
    intro written
    have word := isWord_word json (word?_of_written rfl written)
    refine List.all_eq_true.mpr fun c inside => ?_
    have range := wordChar_range (List.all_eq_true.mp word.chars c inside)
    exact isAcceptable_ascii (by omega)
  | .text s, _, _, _ => by
    rintro ⟨⟩
    exact all_string s
  | .list vs, level, s, json => by
    intro written
    obtain ⟨ss, items, written⟩ := Json.bind_ok written
    obtain rfl := Except.ok.inj written
    have others := all_values json items
    rw [Json.Writer.toList_block_row (o := '[') (c := ']') (by decide) (by decide)]
    have marks : isAcceptable '[' = true ∧ isAcceptable ']' = true := by decide
    simp [all_row, marks, others, Value.every]
  | .mapping es, level, s, json => by
    intro written
    obtain ⟨ss, items, written⟩ := Json.bind_ok written
    obtain rfl := Except.ok.inj written
    have others := all_entries json items
    rw [Json.Writer.toList_block_row (o := '\x7b') (c := '\x7d') (by decide) (by decide)]
    have marks : isAcceptable '\x7b' = true ∧ isAcceptable '\x7d' = true := by decide
    simp [all_row, marks, others, Value.every]

/-- This holds of the items of a list. -/
theorem all_values : ∀ {vs : List Value} {level : Nat} {ss : List String}, Value.AreJson vs →
    Writer.values .compact .strict level vs = .ok ss →
      (ss.all fun s => s.toList.all isAcceptable) =
        Value.everyItem (fun _ => true) carries carries vs
  | [], _, _ => by
    rintro - ⟨⟩
    rfl
  | v :: vs, level, ss => by
    rintro ⟨own, json⟩ written
    obtain ⟨s, first, written⟩ := Json.bind_ok written
    obtain ⟨ss, others, written⟩ := Json.bind_ok written
    obtain rfl := Except.ok.inj written
    rw [List.all_cons, all_value own first, all_values json others]
    rfl

/-- This holds of the entries of a mapping. -/
theorem all_entries : ∀ {es : List (Value × Value)} {level : Nat} {ss : List String},
    Value.HoldJson es → Writer.entries .compact .strict level es = .ok ss →
      (ss.all fun s => s.toList.all isAcceptable) =
        Value.everyEntry (fun _ => true) carries carries es
  | [], _, _ => by
    rintro - ⟨⟩
    rfl
  | (k, v) :: es, level, ss => by
    rintro ⟨⟨k, rfl⟩, -, own, json⟩ written
    obtain ⟨name, key, written⟩ := Json.bind_ok written
    obtain ⟨s, first, written⟩ := Json.bind_ok written
    obtain ⟨ss, others, written⟩ := Json.bind_ok written
    obtain rfl := Except.ok.inj key
    obtain rfl := Except.ok.inj written
    have colon : (": ".toList).all isAcceptable = true := by decide
    rw [List.all_cons, all_entries json others, String.toList_append, String.toList_append,
      List.all_append, List.all_append, all_string, colon, all_value own first, Bool.and_true]
    rfl

end

/-! ## Tokens -/

mutual

/-- Whether a document in flow style shows a value. Its texts may be other ones where raw line
breaks in them are folded, and a key is out of reach behind such a break or if it is long. -/
def Shows : Value → Flow → Prop
  | .text s, f => ∃ t, f = .scalar t false ∧ (t = s ↔ Scalar.foldFree s.toList = true)
  | .list vs, f => ∃ fs, f = .sequence fs ∧ ShowItems vs fs
  | .mapping es, f => ∃ fs, f = .mapping fs ∧ ShowEntries es fs
  | v, f => ∃ t, f = .scalar t true ∧ word? v = some t

/-- Whether this holds of items. -/
def ShowItems : List Value → List Flow → Prop
  | [], fs => fs = []
  | v :: vs, fs => ∃ f others, fs = f :: others ∧ Shows v f ∧ ShowItems vs others

/-- Whether this holds of entries. -/
def ShowEntries : List (Value × Value) → List (String × Bool × Flow) → Prop
  | [], fs => fs = []
  | (key, v) :: es, fs => ∃ k t f others, key = .text k ∧
    fs = (t, Progress.keyInReach k, f) :: others ∧ (t = k ↔ Scalar.foldFree k.toList = true) ∧
      Shows v f ∧ ShowEntries es others

end

/-- Whether the reader sees in the JSON text of a document what stands there, if it accepts its
characters: every float has a point, no raw line break is folded, and every key is in reach. -/
def isSeen (v : Value) : Bool := v.every hasPoint (Scalar.foldFree ·.toList) Progress.keyInReach

namespace Progress

variable {p q : Progress} {n : Nat} {rest : List Char}

/-- A run reads brackets or braces with all that it reads between them. -/
theorem reaches_enclosed {α : Type} {unseen : Prop} {shown : α → Prop} {tokens : α → List TokenKind}
    {x y : Char} {inner : List Char} {opening closing : TokenKind} (steady : p.Steady)
    (text : p.cursor.rest = List.replicate n ' ' ++ (x :: (inner ++ [y]) ++ rest))
    (opens : x = '[' ∧ opening = .flowSequenceStart ∨ x = '\x7b' ∧ opening = .flowMappingStart)
    (closes : y = ']' ∧ closing = .flowSequenceEnd ∨ y = '\x7d' ∧ closing = .flowMappingEnd)
    (within : ∀ q : Progress, q.Steady → 0 < q.level → q.allowKey = true →
      q.cursor.rest = inner ++ y :: rest → (Stops q ∧ unseen) ∨ ∃ a allowed r, shown a ∧
        Reaches q inner.length q.level allowed (tokens a) r) :
    (Stops p ∧ unseen) ∨ ∃ a r, shown a ∧ Reaches p (n + (x :: (inner ++ [y])).length) p.level false
      (opening :: (tokens a ++ [closing])) r := by
  have ahead : p.cursor.rest = List.replicate n ' ' ++ x :: (inner ++ y :: rest) := by
    rw [text]
    simp
  obtain ⟨q, first⟩ := reaches_open steady ahead opens
  have floor := steady.level
  have level : 0 < q.level := by
    rw [first.level]
    omega
  have behind : q.cursor.rest = inner ++ y :: rest :=
    first.behind (List.replicate n ' ' ++ [x]) (by rw [ahead]; simp) (by simp)
  rcases within q first.steady level first.allowKey behind with
    ⟨stops, unseen⟩ | ⟨a, allowed, r, shown, items⟩
  · exact .inl ⟨first.leads.stops stops, unseen⟩
  have inside : 0 < r.level := by rwa [items.level]
  obtain ⟨t, last⟩ := reaches_close items.steady inside (items.behind inner behind rfl) closes
  have outside : r.level - 1 = p.level := by
    rw [items.level, first.level]
    omega
  rw [outside] at last
  have width : n + (x :: (inner ++ [y])).length = n + 1 + (inner.length + 1) := by
    simp
    omega
  rw [width]
  exact .inr ⟨a, t, shown, first.trans (items.trans last)⟩

/-- Behind an item there is a comma or what closes the collection. -/
theorem closes_row {ss : List String} (closes : Closes true rest) :
    Closes true (row false ss ++ rest) := by
  cases ss with
  | nil => exact closes
  | cons s ss => exact .inr ⟨rfl, ',', rfl, rfl⟩

/-- A run reads the gap in front of an item up to the blank in it. -/
theorem reaches_gap (first : Bool) (steady : p.Steady) (text : p.cursor.rest = gap first ++ rest) :
    ∃ width n q, width + n = (gap first).length ∧ q.cursor.rest = List.replicate n ' ' ++ rest ∧
      Reaches p width p.level (!first || p.allowKey) (Flow.comma first) q := by
  cases first with
  | true => exact ⟨0, 0, p, rfl, text, Reaches.refl steady⟩
  | false =>
    obtain ⟨q, reaches⟩ := reaches_comma steady text
    exact ⟨1, 1, q, rfl, reaches.behind [','] text rfl, reaches⟩

theorem foldFree_of_inReach {k : String} (reach : keyInReach k = true) :
    Scalar.foldFree k.toList = true := by
  rw [keyInReach, Bool.and_eq_true, Bool.not_eq_true'] at reach
  exact foldFree_of_unbroken reach.1

/-- A run reads the gap in front of an entry, its key and the colon. -/
theorem reaches_name {k : String} (first : Bool) (steady : p.Steady) (inside : 0 < p.level)
    (allow : first = true → p.allowKey = true)
    (text : p.cursor.rest =
      gap first ++ ((Json.Writer.string k).toList ++ (':' :: ' ' :: rest))) :
    (Stops p ∧ keyInReach k = false) ∨ ∃ t width q, (t = k ↔ Scalar.foldFree k.toList = true) ∧
      width = (gap first).length + (Json.Writer.string k).toList.length + 1 ∧
      q.cursor.rest = List.replicate 1 ' ' ++ rest ∧
      Reaches p width p.level false (Flow.comma first ++
        ((if keyInReach k then [.key] else []) ++ [.scalar t false, .value])) q := by
  obtain ⟨width, n, q, count, behind, start⟩ := reaches_gap first steady text
  have level : 0 < q.level := by rwa [start.level]
  have allowed : q.allowKey = true := by
    rw [start.allowKey]
    cases first with
    | true => exact allow rfl
    | false => rfl
  rcases reaches_key start.steady level allowed behind with ⟨stops, folded⟩ | ⟨t, r, same, colon⟩
  · refine .inl ⟨start.leads.stops stops, Bool.eq_false_iff.mpr fun reach => ?_⟩
    rw [foldFree_of_inReach reach] at folded
    contradiction
  · rw [start.level] at colon
    have both := start.trans colon
    have further : r.cursor.rest = ' ' :: rest := both.behind
      (gap first ++ ((Json.Writer.string k).toList ++ [':'])) (by rw [text]; simp) (by simp; omega)
    exact .inr ⟨t, _, r, same, by omega, further, both⟩

/-- A run reads a value and the items or entries behind it, once it has read what stands in front of the
value. -/
theorem reaches_member {α : Type} {seen others : Bool} {shown : α → Prop} {tokens : α → List TokenKind}
    {v : Value} {s : String} {ss : List String} {width : Nat} {ks : List TokenKind} {allowed : Bool}
    (front : Reaches p width p.level allowed ks q) (inside : 0 < p.level)
    (text : q.cursor.rest = List.replicate n ' ' ++ (s.toList ++ (row false ss ++ rest)))
    (closes : Closes true rest)
    (value : Closes q.inFlow (row false ss ++ rest) → (Stops q ∧ seen = false) ∨ ∃ f r, Shows v f ∧
      Reaches q (n + s.toList.length) q.level false f.tokens r)
    (later : ∀ r : Progress, r.Steady → 0 < r.level → r.cursor.rest = row false ss ++ rest →
      (Stops r ∧ others = false) ∨ ∃ a allowed t, shown a ∧
        Reaches r (row false ss).length r.level allowed (tokens a) t) :
    (Stops p ∧ (seen && others) = false) ∨ ∃ f a allowed t, Shows v f ∧ shown a ∧
      Reaches p (width + (n + s.toList.length + (row false ss).length)) p.level allowed
        (ks ++ (f.tokens ++ tokens a)) t := by
  have inFlow : q.inFlow = true := bne_iff_ne.mpr (by rw [front.level]; omega)
  have next : Closes q.inFlow (row false ss ++ rest) := by
    rw [inFlow]
    exact closes_row closes
  rcases value next with ⟨stops, unseen⟩ | ⟨f, r, shows, item⟩
  · exact .inl ⟨front.leads.stops stops, by rw [unseen]; rfl⟩
  have further := item.behind (List.replicate n ' ' ++ s.toList)
    (by rw [text, List.append_assoc]) (by simp)
  have deeper : 0 < r.level := by rwa [item.level, front.level]
  rcases later r item.steady deeper further with ⟨stops, unseen⟩ | ⟨a, allowed, t, shown, rows⟩
  · exact .inl ⟨(front.leads.trans item.leads).stops stops, by rw [unseen, Bool.and_false]⟩
  rw [item.level] at rows
  have both := item.trans rows
  rw [front.level] at both
  exact .inr ⟨f, a, allowed, t, shows, shown, front.trans both⟩

mutual

/-- A run reads the JSON text of a document behind blanks as a document in flow style that shows
it. -/
theorem reaches_value : ∀ {v : Value} {level n : Nat} {s : String} {p : Progress}
    {rest : List Char}, v.IsJson → Writer.value .compact .strict level v = .ok s → p.Steady →
    p.cursor.rest = List.replicate n ' ' ++ (s.toList ++ rest) → Closes p.inFlow rest →
      (Stops p ∧ isSeen v = false) ∨ ∃ f q, Shows v f ∧
        Reaches p (n + s.toList.length) p.level false f.tokens q
  | .null, _, _, _, _, _, json | .bool _, _, _, _, _, _, json | .int _, _, _, _, _, _, json
  | .float _, _, _, _, _, _, json => by
    intro written steady text closes
    have word := word?_of_written rfl written
    obtain ⟨q, reaches⟩ := reaches_word steady (isWord_word json word) text closes
    rw [String.ofList_toList] at reaches
    exact .inr ⟨_, q, ⟨_, rfl, word⟩, reaches⟩
  | .text s, _, _, _, _, _, _ => by
    rintro ⟨⟩ steady text -
    rcases reaches_string steady text with stops | ⟨t, same, reaches⟩
    · exact .inl stops
    · exact .inr ⟨_, _, ⟨t, rfl, same⟩, reaches⟩
  | .list vs, level, n, s, p, rest, json => by
    intro written steady text closes
    obtain ⟨ss, items, written⟩ := Json.bind_ok written
    obtain rfl := Except.ok.inj written
    rw [Json.Writer.toList_block_row (o := '[') (c := ']') (by decide) (by decide)] at text ⊢
    have read := reaches_enclosed steady text (.inl ⟨rfl, rfl⟩) (.inl ⟨rfl, rfl⟩)
      fun q own inside _ behind => reaches_items json items own inside behind
        (.inr ⟨rfl, ']', rfl, rfl⟩)
    rcases read with stops | ⟨fs, q, shown, reaches⟩
    · exact .inl stops
    · exact .inr ⟨_, q, ⟨fs, rfl, shown⟩, reaches⟩
  | .mapping es, level, n, s, p, rest, json => by
    intro written steady text closes
    obtain ⟨ss, items, written⟩ := Json.bind_ok written
    obtain rfl := Except.ok.inj written
    rw [Json.Writer.toList_block_row (o := '\x7b') (c := '\x7d') (by decide) (by decide)] at text ⊢
    have read := reaches_enclosed steady text (.inr ⟨rfl, rfl⟩) (.inr ⟨rfl, rfl⟩)
      fun q own inside allow behind => reaches_entries json items own inside (fun _ => allow) behind
        (.inr ⟨rfl, '\x7d', rfl, rfl⟩)
    rcases read with stops | ⟨fs, q, shown, reaches⟩
    · exact .inl stops
    · exact .inr ⟨_, q, ⟨fs, rfl, shown⟩, reaches⟩

/-- A run reads the items of a list up to what closes it. -/
theorem reaches_items : ∀ {vs : List Value} {level : Nat} {first : Bool} {ss : List String}
    {p : Progress} {rest : List Char}, Value.AreJson vs →
    Writer.values .compact .strict level vs = .ok ss → p.Steady → 0 < p.level →
    p.cursor.rest = row first ss ++ rest → Closes true rest →
      (Stops p ∧ Value.everyItem hasPoint (Scalar.foldFree ·.toList) keyInReach vs = false) ∨
        ∃ fs allowed q, ShowItems vs fs ∧
          Reaches p (row first ss).length p.level allowed (Flow.tokensOfItems first fs) q
  | [], _, _, _, p, _, _ => by
    rintro ⟨⟩ steady - - -
    exact .inr ⟨[], p.allowKey, p, rfl, Reaches.refl steady⟩
  | v :: vs, level, first, ss, p, rest, json => by
    intro written steady inside text closes
    obtain ⟨s, one, written⟩ := Json.bind_ok written
    obtain ⟨ss, others, written⟩ := Json.bind_ok written
    obtain rfl := Except.ok.inj written
    rw [row, List.append_assoc, List.append_assoc] at text
    obtain ⟨width, n, q, count, behind, start⟩ := reaches_gap first steady text
    rcases reaches_member start inside behind closes (reaches_value json.1 one start.steady behind)
      fun r own deeper further => reaches_items json.2 others own deeper further closes with
      stops | ⟨f, fs, allowed, t, shown, shownOthers, reads⟩
    · exact .inl stops
    have length : (row first (s :: ss)).length =
        width + (n + s.toList.length + (row false ss).length) := by
      rw [row, List.length_append, List.length_append]
      omega
    rw [length]
    exact .inr ⟨f :: fs, allowed, t, ⟨f, fs, rfl, shown, shownOthers⟩, reads⟩

/-- A run reads the entries of a mapping up to what closes it, from where a key is allowed. -/
theorem reaches_entries : ∀ {es : List (Value × Value)} {level : Nat} {first : Bool}
    {ss : List String} {p : Progress} {rest : List Char}, Value.HoldJson es →
    Writer.entries .compact .strict level es = .ok ss → p.Steady → 0 < p.level →
    (first = true → p.allowKey = true) → p.cursor.rest = row first ss ++ rest → Closes true rest →
      (Stops p ∧ Value.everyEntry hasPoint (Scalar.foldFree ·.toList) keyInReach es = false) ∨
        ∃ fs allowed q, ShowEntries es fs ∧
          Reaches p (row first ss).length p.level allowed (Flow.tokensOfEntries first fs) q
  | [], _, _, _, p, _, _ => by
    rintro ⟨⟩ steady - - - -
    exact .inr ⟨[], p.allowKey, p, rfl, Reaches.refl steady⟩
  | (k, v) :: es, level, first, ss, p, rest, json => by
    intro written steady inside allow text closes
    obtain ⟨⟨k, rfl⟩, -, own, json⟩ := json
    obtain ⟨name, key, written⟩ := Json.bind_ok written
    obtain ⟨s, one, written⟩ := Json.bind_ok written
    obtain ⟨ss, others, written⟩ := Json.bind_ok written
    obtain rfl : k = name := Except.ok.inj key
    obtain rfl := Except.ok.inj written
    have member : (Json.Writer.string k ++ ": " ++ s).toList =
        (Json.Writer.string k).toList ++ ':' :: ' ' :: s.toList := by simp
    rw [row, member, List.append_assoc, List.append_assoc, List.append_assoc, List.cons_append,
      List.cons_append] at text
    rcases reaches_name first steady inside allow text with
      ⟨stops, unreached⟩ | ⟨t, width, q, same, count, behind, name⟩
    · exact .inl ⟨stops, by simp [Value.everyEntry, unreached]⟩
    rcases reaches_member name inside behind closes (reaches_value own one name.steady behind)
      fun r own deeper further => reaches_entries json others own deeper nofun further closes with
      ⟨stops, unseen⟩ | ⟨f, fs, allowed, u, shown, shownOthers, reads⟩
    · rw [isSeen] at unseen
      exact .inl ⟨stops, by rw [Value.everyEntry, Bool.and_assoc, unseen, Bool.and_false]⟩
    have length : (row first ((Json.Writer.string k ++ ": " ++ s) :: ss)).length =
        width + (1 + s.toList.length + (row false ss).length) := by
      rw [row, member, List.length_append, List.length_append, List.length_append]
      simp only [List.length_cons]
      omega
    rw [List.append_assoc, List.append_assoc] at reads
    rw [length]
    exact .inr ⟨(t, keyInReach k, f) :: fs, allowed, u,
      ⟨k, t, f, fs, rfl, rfl, same, shown, shownOthers⟩, reads⟩

end

end Progress

/-- A text with characters that are not acceptable has no tokens. -/
theorem tokens_unacceptable {text : List Char} (half : Char) (other : text.all isAcceptable = false) :
    ∃ h, tokens text half = ⟨[], some h⟩ := by
  unfold tokens
  cases found : text.findIdx? (!isAcceptable ·) with
  | some i => exact ⟨_, rfl⟩
  | none =>
    rw [List.findIdx?_eq_none_iff] at found
    have all : text.all isAcceptable = true :=
      List.all_eq_true.mpr fun c inside => by simpa using found c inside
    rw [all] at other
    contradiction

/-- Where a run starts in a text. -/
def Progress.start (text : List Char) (half : Char := '\uFFFD') : Progress :=
  { cursor := { rest := text, mark := {}, half := half }, tokens := #[⟨.streamStart, {}, {}⟩] }

theorem Progress.steady_start (text : List Char) (half : Char) : (Progress.start text half).Steady :=
  ⟨rfl, rfl, le_rfl, nofun, by simp [Progress.start, Progress.kinds]⟩

theorem tokens_acceptable {text : List Char} {half : Char} (all : text.all isAcceptable = true) :
    tokens text half = Progress.run (text.length + 2) (Progress.start text half) := by
  have none : text.findIdx? (!isAcceptable ·) = none :=
    List.findIdx?_eq_none_iff.mpr fun c inside => by simp [List.all_eq_true.mp all c inside]
  rw [tokens, none, Progress.start]

/-- The tokens of a text that a run goes through from its start to its end. -/
theorem tokens_reached {text : List Char} {half : Char} {level : Int} {allowKey : Bool}
    {ks : List TokenKind} {q : Progress} (all : text.all isAcceptable = true)
    (reaches : Progress.Reaches (Progress.start text half) (0 + text.length) level allowKey ks q) :
    (tokens text half).halt = none ∧
      (tokens text half).items.map (·.kind) = .streamStart :: (ks ++ [.streamEnd]) := by
  have enough : (Progress.start text half).cursor.rest.length < text.length + 2 := by
    simp [Progress.start]
  obtain ⟨fuel, left, same⟩ := reaches.leads _ enough
  have behind : q.cursor.rest = [] :=
    reaches.behind text (by simp [Progress.start]) (by simp)
  obtain ⟨halt, ended⟩ := Progress.run_end reaches.steady behind (Nat.zero_lt_of_lt left)
  rw [reaches.kinds] at ended
  rw [tokens_acceptable all, same]
  exact ⟨halt, ended⟩

/-- The tokens of the JSON text of a document, if its characters are acceptable: those of a document
in flow style that shows it, unless they stop early. -/
theorem tokens_json {v : Value} {s : String} (half : Char) (json : v.IsJson)
    (written : Json.write .compact .strict v = .ok s) (all : s.toList.all isAcceptable = true) :
    ((∃ h, (tokens s.toList half).halt = some h) ∧
        (∀ t ∈ (tokens s.toList half).items, t.kind ≠ .streamEnd) ∧ isSeen v = false) ∨
      ∃ f, Shows v f ∧ (tokens s.toList half).halt = none ∧
        (tokens s.toList half).items.map (·.kind) = .streamStart :: (f.tokens ++ [.streamEnd]) := by
  have text : (Progress.start s.toList half).cursor.rest =
      List.replicate 0 ' ' ++ (s.toList ++ []) := by
    simp [Progress.start]
  rcases Progress.reaches_value json written (Progress.steady_start _ half) text (.inl rfl) with
    ⟨stops, unseen⟩ | ⟨f, q, shown, reaches⟩
  · rw [tokens_acceptable all]
    obtain ⟨halt, ongoing⟩ := stops (s.toList.length + 2) (by simp [Progress.start])
    exact .inl ⟨halt, ongoing, unseen⟩
  · exact .inr ⟨f, shown, tokens_reached all reaches⟩

end Yaml

end LiveDoc
