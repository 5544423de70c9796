import LiveDoc.Proofs.Canonical
import LiveDoc.Proofs.JsonText

/-!
# The grammar of JSON text

The rules say what a text begins with and what is left of it behind that: a string, a number, a
value, the items of an array, the members of an object. Which integers they admit is a parameter, the
number of digits being what the reader limits. A whole text is well-formed if it is a value between
spaces.

What the reader reads is derived by the rules, with integers of no more digits than are converted,
and gives a tree whose numbers can be written and read back.
-/

namespace LiveDoc.Json

namespace Grammar

open Reader (Blank signText isSpace skip)

/-! ## The rules -/

/-- The letters that may stand behind a backslash in a string, the mark of a code apart. -/
def escapes : List Char := ['"', '\\', '/', 'b', 'f', 'n', 'r', 't']

/-- Whether a character is a hexadecimal digit. -/
def isHexDigit (c : Char) : Bool :=
  ('0' ≤ c && c ≤ '9') || ('a' ≤ c && c ≤ 'f') || ('A' ≤ c && c ≤ 'F')

/-- The characters of a string behind its opening quote, with its closing quote. -/
inductive Chars : List Char → List Char → Prop where
  | close {rest : List Char} : Chars ('"' :: rest) rest
  | plain {c : Char} {cs rest : List Char} : c ≠ '"' → c ≠ '\\' → 32 ≤ c.toNat → Chars cs rest →
      Chars (c :: cs) rest
  | escape {c : Char} {cs rest : List Char} : c ∈ escapes → Chars cs rest →
      Chars ('\\' :: c :: cs) rest
  | code {ds cs rest : List Char} : ds.length = 4 → (∀ d ∈ ds, isHexDigit d = true) →
      Chars cs rest → Chars ('\\' :: 'u' :: (ds ++ cs)) rest

/-- At least one decimal digit. -/
structure IsDigits (ds : List Char) : Prop where
  present : ds ≠ []
  digit : ∀ c ∈ ds, Text.isAsciiDigit c = true

/-- The integer part of a number: one zero, or digits that begin with none. -/
def IsWhole (ds : List Char) : Prop := ds = ['0'] ∨ Decimal.Digits ds

/-- The fraction of a number, which may be missing: a point and digits. -/
def IsFraction (cs : List Char) : Prop := cs = [] ∨ ∃ ds, cs = '.' :: ds ∧ IsDigits ds

/-- The exponent of a number, which may be missing: a mark, perhaps a sign, and digits. -/
def IsExponent (cs : List Char) : Prop :=
  cs = [] ∨ ∃ mark sign ds, cs = mark :: (sign ++ ds) ∧ (mark = 'e' ∨ mark = 'E') ∧
    (sign = [] ∨ sign = ['+'] ∨ sign = ['-']) ∧ IsDigits ds

/-- A number; an integer must have a number of digits that fits. -/
inductive IsNumber (fits : Nat → Prop) : List Char → Prop where
  | integer (negative : Bool) {whole : List Char} : IsWhole whole → fits whole.length →
      IsNumber fits (signText negative whole)
  | decimal (negative : Bool) {whole fraction exponent : List Char} : IsWhole whole →
      IsFraction fraction → IsExponent exponent → fraction ++ exponent ≠ [] →
      IsNumber fits (signText negative (whole ++ (fraction ++ exponent)))

/-- The words that stand for values. -/
def words : List String := ["null", "true", "false", "NaN", "Infinity", "-Infinity"]

/-- Any number of spaces. -/
def Spaces (cs rest : List Char) : Prop := ∃ gap, Blank gap ∧ cs = gap ++ rest

mutual

/-- A value. -/
inductive ValueText (fits : Nat → Prop) : List Char → List Char → Prop where
  | text {cs rest : List Char} : Chars cs rest → ValueText fits ('"' :: cs) rest
  | word {w : String} {rest : List Char} : w ∈ words → ValueText fits (w.toList ++ rest) rest
  | number {cs rest : List Char} : IsNumber fits cs → ValueText fits (cs ++ rest) rest
  | emptyArray {cs rest : List Char} : Spaces cs (']' :: rest) → ValueText fits ('[' :: cs) rest
  | array {cs first rest : List Char} : Spaces cs first → ItemsText fits first rest →
      ValueText fits ('[' :: cs) rest
  | emptyObject {cs rest : List Char} : Spaces cs ('\x7d' :: rest) →
      ValueText fits ('\x7b' :: cs) rest
  | object {cs first rest : List Char} : Spaces cs first → MembersText fits first rest →
      ValueText fits ('\x7b' :: cs) rest

/-- The items of an array from one on, with the bracket behind them. -/
inductive ItemsText (fits : Nat → Prop) : List Char → List Char → Prop where
  | last {cs after rest : List Char} : ValueText fits cs after → Spaces after (']' :: rest) →
      ItemsText fits cs rest
  | more {cs after gap others rest : List Char} : ValueText fits cs after →
      Spaces after (',' :: gap) → Spaces gap others → ItemsText fits others rest →
      ItemsText fits cs rest

/-- The members of an object from one on, with the brace behind them. -/
inductive MembersText (fits : Nat → Prop) : List Char → List Char → Prop where
  | last {cs behind before item after rest : List Char} : Chars cs behind →
      Spaces behind (':' :: before) → Spaces before item → ValueText fits item after →
      Spaces after ('\x7d' :: rest) → MembersText fits ('"' :: cs) rest
  | more {cs behind before item after gap others rest : List Char} : Chars cs behind →
      Spaces behind (':' :: before) → Spaces before item → ValueText fits item after →
      Spaces after (',' :: gap) → Spaces gap others → MembersText fits others rest →
      MembersText fits ('"' :: cs) rest

end

/-- A whole text: a value between spaces. -/
def WellFormed (fits : Nat → Prop) (cs : List Char) : Prop :=
  ∃ text rest, Spaces cs text ∧ ValueText fits text rest ∧ Spaces rest []

/-- The numbers of digits of the integers that are converted. -/
def Convertible (digits : Nat) : Prop := digits ≤ Value.maxDigits

/-! ## Strings -/

variable {cs rest : List Char}

theorem isHexDigit_of_some {c : Char} {n : Nat} (digit : Reader.hexDigit? c = some n) :
    isHexDigit c = true := by
  unfold Reader.hexDigit? at digit
  simp only [isHexDigit, Bool.or_eq_true, Bool.and_eq_true, decide_eq_true_eq]
  split at digit
  · exact .inl (.inl ‹_›)
  · split at digit
    · exact .inl (.inr ‹_›)
    · split at digit
      · exact .inr ‹_›
      · contradiction

/-- A code that is read has four hexadecimal digits. -/
theorem digits_of_hex4? {n : Nat} (code : Reader.hex4? cs = some n) :
    (cs.take 4).length = 4 ∧ ∀ d ∈ cs.take 4, isHexDigit d = true := by
  unfold Reader.hex4? at code
  split at code
  · simp only [bind, Option.bind_eq_some_iff] at code
    obtain ⟨w, first, x, second, y, third, z, fourth, -⟩ := code
    simp [isHexDigit_of_some first, isHexDigit_of_some second, isHexDigit_of_some third,
      isHexDigit_of_some fourth]
  · contradiction

/-- A string may go on with a code that is read. -/
theorem code_of_hex4? {n : Nat} (code : Reader.hex4? cs = some n) (chars : Chars (cs.drop 4) rest) :
    Chars ('\\' :: 'u' :: cs) rest := by
  obtain ⟨four, digits⟩ := digits_of_hex4? code
  have chars := Chars.code four digits chars
  rwa [List.take_append_drop] at chars

theorem mem_escapes {c d : Char} (short : Reader.shortEscape? c = some d) : c ∈ escapes := by
  unfold Reader.shortEscape? at short
  simp only [escapes, List.mem_cons, List.not_mem_nil, or_false]
  repeat' split at short
  all_goals grind

/-- The second half of a surrogate pair is a code. -/
theorem code_of_lowHalf {n : Nat} (low : Reader.lowHalf cs = .ok (some n))
    (chars : Chars (cs.drop 6) rest) : Chars cs rest := by
  unfold Reader.lowHalf at low
  split at low
  · split at low
    · exact absurd (Except.ok.inj low) (by simp)
    · split at low
      · exact code_of_hex4? ‹_› chars
      · contradiction
  · exact absurd (Except.ok.inj low) (by simp)

/-- What is read as a string is one. -/
theorem chars_of_string {opening fuel : Nat} {r : List CodePoint × List Char}
    (read : Reader.string opening fuel cs = .ok r) : Chars cs r.2 := by
  fun_induction Reader.string opening fuel cs generalizing r with
  | case3 =>
    rw [← Except.ok.inj read]
    exact .close
  | case8 fuel cs _ n code after _ m low =>
    rename_i ih
    obtain ⟨s, inner, rfl⟩ := map_ok read
    exact code_of_hex4? code (code_of_lowHalf low (ih inner :))
  | case9 fuel cs _ n code =>
    rename_i ih
    obtain ⟨s, inner, rfl⟩ := map_ok read
    exact code_of_hex4? code (ih inner :)
  | case10 fuel cs _ n code =>
    rename_i ih
    obtain ⟨s, inner, rfl⟩ := map_ok read
    exact code_of_hex4? code (ih inner :)
  | case11 fuel cs _ n code =>
    rename_i ih
    obtain ⟨s, inner, rfl⟩ := map_ok read
    exact code_of_hex4? code (ih inner :)
  | case12 fuel c cs _ d short _ ih =>
    obtain ⟨s, inner, rfl⟩ := map_ok read
    exact .escape (mem_escapes short) (ih inner :)
  | case15 fuel c cs quote slash control ih =>
    obtain ⟨s, inner, rfl⟩ := map_ok read
    exact .plain quote slash (Nat.le_of_not_lt control) (ih inner :)
  | _ => contradiction

/-! ## Numbers -/

/-- Digits at the head of a text are taken off it. -/
theorem isDigits_takeWhile (starts : Reader.startsWithDigit cs = true) :
    IsDigits (cs.takeWhile Text.isAsciiDigit) := by
  constructor
  · cases cs with
    | nil => contradiction
    | cons c cs =>
      have digit : Text.isAsciiDigit c = true := starts
      simp [digit]
  · exact fun c inside => List.all_eq_true.mp List.all_takeWhile c inside

/-- What is read as an integer part is one. -/
theorem whole_of_integerPart? {whole : List Char}
    (read : Reader.integerPart? cs = some (whole, rest)) : cs = whole ++ rest ∧ IsWhole whole := by
  unfold Reader.integerPart? at read
  split at read
  · obtain ⟨rfl, rfl⟩ := Prod.mk.inj (Option.some.inj read)
    exact ⟨rfl, .inl rfl⟩
  · rename_i c tail other
    split at read
    · rename_i digit
      obtain ⟨rfl, rfl⟩ := Prod.mk.inj (Option.some.inj read)
      obtain ⟨present, digits⟩ := @isDigits_takeWhile (c :: tail) digit
      refine ⟨List.takeWhile_append_dropWhile.symm, .inr ⟨present, digits, ?_⟩⟩
      have first : c ≠ '0' := fun zero => other zero
      simp [digit, first]
    · contradiction
  · contradiction

/-- What is read as a fraction is one, and is missing if it has no digits. -/
theorem fraction_of_fractionPart {part : List Char}
    (read : Reader.fractionPart cs = (part, rest)) :
    ∃ fraction, cs = fraction ++ rest ∧ IsFraction fraction ∧ (fraction = [] ↔ part = []) := by
  unfold Reader.fractionPart at read
  split at read
  · rename_i tail
    split at read
    · rename_i starts
      obtain ⟨rfl, rfl⟩ := Prod.mk.inj read
      have digits := isDigits_takeWhile starts
      refine ⟨'.' :: tail.takeWhile Text.isAsciiDigit, ?_, .inr ⟨_, rfl, digits⟩, ?_⟩
      · simp [List.takeWhile_append_dropWhile]
      · simp [digits.present]
    · obtain ⟨rfl, rfl⟩ := Prod.mk.inj read
      exact ⟨[], rfl, .inl rfl, by simp⟩
  · obtain ⟨rfl, rfl⟩ := Prod.mk.inj read
    exact ⟨[], rfl, .inl rfl, by simp⟩

/-- A sign is a minus, a plus or nothing. -/
theorem sign_parts (cs : List Char) :
    ∃ sign, cs = sign ++ (Numeral.sign cs).2 ∧ (sign = [] ∨ sign = ['+'] ∨ sign = ['-']) := by
  unfold Numeral.sign
  split
  · exact ⟨['-'], rfl, by simp⟩
  · exact ⟨['+'], rfl, by simp⟩
  · exact ⟨[], rfl, by simp⟩

/-- What is read as an exponent is one, and is missing if none is read. -/
theorem exponent_of_exponentPart {e : Option Int}
    (read : Reader.exponentPart cs = (e, rest)) :
    ∃ exponent, cs = exponent ++ rest ∧ IsExponent exponent ∧ (exponent = [] ↔ e = none) := by
  unfold Reader.exponentPart at read
  split at read
  · rename_i mark tail
    split at read
    · rename_i marked
      obtain ⟨sign, parts, signs⟩ := sign_parts tail
      dsimp only at read
      split at read
      · rename_i starts
        obtain ⟨rfl, rfl⟩ := Prod.mk.inj read
        refine ⟨_, ?_, .inr ⟨mark, sign, _, rfl, marked, signs, isDigits_takeWhile starts⟩, by simp⟩
        rw [List.cons_append, List.append_assoc, List.takeWhile_append_dropWhile, ← parts]
      · obtain ⟨rfl, rfl⟩ := Prod.mk.inj read
        exact ⟨[], rfl, .inl rfl, by simp⟩
    · obtain ⟨rfl, rfl⟩ := Prod.mk.inj read
      exact ⟨[], rfl, .inl rfl, by simp⟩
  · obtain ⟨rfl, rfl⟩ := Prod.mk.inj read
    exact ⟨[], rfl, .inl rfl, by simp⟩

/-- Digits write a number below the power of ten of their count. -/
theorem natural_lt {ds : List Char} (digits : ∀ c ∈ ds, Text.isAsciiDigit c = true) :
    Reader.natural ds < 10 ^ ds.length := by
  suffices ∀ start, (ds.map fun d => d.toNat - 48).foldl (fun n d => n * 10 + d) start <
      (start + 1) * 10 ^ ds.length by
    simpa [Reader.natural, Numeral.value] using this 0
  induction ds with
  | nil => simp
  | cons d ds ih =>
    intro start
    have small : d.toNat - 48 < 10 := by
      have digit := digits d List.mem_cons_self
      simp only [Text.isAsciiDigit, Bool.and_eq_true, decide_eq_true_eq, Char.le_def,
        UInt32.le_iff_toNat_le] at digit
      have : d.toNat ≤ 57 := digit.2
      omega
    have rest := ih (fun c inside => digits c (List.mem_cons_of_mem d inside))
      (start * 10 + (d.toNat - 48))
    calc ((d :: ds).map fun d => d.toNat - 48).foldl (fun n d => n * 10 + d) start
        < (start * 10 + (d.toNat - 48) + 1) * 10 ^ ds.length := rest
      _ ≤ ((start + 1) * 10) * 10 ^ ds.length := Nat.mul_le_mul_right _ (by omega)
      _ = (start + 1) * 10 ^ (d :: ds).length := by rw [List.length_cons]; ring

theorem IsWhole.digit {whole : List Char} (proper : IsWhole whole) :
    ∀ c ∈ whole, Text.isAsciiDigit c = true := by
  rcases proper with rfl | digits
  · exact fun c inside => List.mem_singleton.mp inside ▸ rfl
  · exact digits.digit

theorem lt_pow {n count limit : Nat} (below : n < 10 ^ count) (few : count ≤ limit) :
    n < Nat.pow 10 limit :=
  below.trans_le (Nat.pow_le_pow_right (by decide) few)

/-- An integer with few digits can be written. -/
theorem isOversized_signed {whole : List Char} (proper : IsWhole whole)
    (few : Convertible whole.length) (negative : Bool) :
    Value.isOversized (Binary64.signed negative (Reader.natural whole)) = false := by
  have magnitude : (Binary64.signed negative (Reader.natural whole)).natAbs =
      Reader.natural whole := by
    unfold Binary64.signed
    split <;> simp
  unfold Value.isOversized
  rw [magnitude]
  exact decide_eq_false (Nat.not_le.mpr (lt_pow (natural_lt proper.digit) few))

end Grammar

namespace Tree

mutual

/-- Whether the numbers of a tree can be written and read back: its integers have no more digits than
are converted, and its binary64 numbers are in canonical form. -/
def Regular : Tree → Prop
  | .int n => Value.isOversized n = false
  | .float x => x.Canonical
  | .array ts => AllRegular ts
  | .object ms => MembersRegular ms
  | _ => True

/-- Whether this holds of every tree of a list. -/
def AllRegular : List Tree → Prop
  | [] => True
  | t :: ts => t.Regular ∧ AllRegular ts

/-- Whether this holds of the trees of all members. -/
def MembersRegular : List (String × Tree) → Prop
  | [] => True
  | (_, t) :: ms => t.Regular ∧ MembersRegular ms

end

end Tree

namespace Grammar

open Reader (Blank signText isSpace skip)

variable {cs rest : List Char}

/-- What is read as a number begins with an integer part behind its sign. -/
theorem integerPart?_of_number {r : Tree × List Char} (read : Reader.number cs = .ok r) :
    ∃ negative body p, cs = signText negative body ∧ Reader.integerPart? body = some p := by
  unfold Reader.number at read
  split at read
  rename_i negative body parts
  split at read
  · contradiction
  · rename_i found
    split at parts
    · obtain ⟨rfl, rfl⟩ := Prod.mk.inj parts
      exact ⟨true, _, _, rfl, found⟩
    · obtain ⟨rfl, rfl⟩ := Prod.mk.inj parts
      exact ⟨false, _, _, rfl, found⟩

/-- What is read as a number is one, with an integer that is converted. -/
theorem number_of_read {t : Tree} (read : Reader.number cs = .ok (t, rest)) :
    ∃ text, cs = text ++ rest ∧ IsNumber Convertible text ∧ t.Regular := by
  obtain ⟨negative, body, ⟨whole, after⟩, rfl, found⟩ := integerPart?_of_number read
  rw [Reader.number_signText negative found] at read
  obtain ⟨rfl, proper⟩ := whole_of_integerPart? found
  cases fractionRead : Reader.fractionPart after with
  | mk part behind =>
    cases exponentRead : Reader.exponentPart behind with
    | mk e last =>
      obtain ⟨fraction, rfl, fractional, noPart⟩ := fraction_of_fractionPart fractionRead
      obtain ⟨exponent, rfl, marked, noMark⟩ := exponent_of_exponentPart exponentRead
      simp only [fractionRead, exponentRead] at read
      split at read
      · rename_i whole
        split at read
        · contradiction
        · rename_i few
          obtain ⟨rfl, rfl⟩ := Prod.mk.inj (Except.ok.inj read)
          simp only [Bool.and_eq_true, List.isEmpty_iff, Option.isNone_iff_eq_none] at whole
          obtain rfl := noPart.mpr whole.1
          obtain rfl := noMark.mpr whole.2
          refine ⟨_, (Reader.signText_append negative _ _).symm,
            .integer negative proper (Nat.le_of_not_lt few), ?_⟩
          exact isOversized_signed proper (Nat.le_of_not_lt few) negative
      · rename_i decimal
        obtain ⟨rfl, rfl⟩ := Prod.mk.inj (Except.ok.inj read)
        refine ⟨_, ?_, .decimal negative proper fractional marked fun none => decimal ?_,
          Binary64.canonical_ofDecimal _ _ _⟩
        · rw [Reader.signText_append]
          simp
        · obtain ⟨rfl, rfl⟩ := List.append_eq_nil_iff.mp none
          simp [noPart.mp rfl, noMark.mp rfl]

/-! ## Values -/

theorem skip_spaces (cs : List Char) : Spaces cs (skip cs) :=
  ⟨cs.takeWhile isSpace, fun _ inside => List.all_eq_true.mp List.all_takeWhile _ inside,
    List.takeWhile_append_dropWhile.symm⟩

/-- A text that is taken off the head of another one stood there. -/
theorem eq_append_of_stripLeading? {lead : List Char}
    (taken : Text.stripLeading? lead cs = some rest) : cs = lead ++ rest := by
  induction lead generalizing cs with
  | nil => exact Option.some.inj taken
  | cons c lead ih =>
    cases cs with
    | nil => contradiction
    | cons d cs =>
      unfold Text.stripLeading? at taken
      split at taken
      · rename_i same
        simp [ih taken, same]
      · contradiction

/-- What is read as a constant is one of the words. -/
theorem word_of_constant? {t : Tree} (read : Reader.constant? cs = some (t, rest)) :
    ValueText Convertible cs rest ∧ t.Regular := by
  obtain ⟨⟨word, u⟩, constant, taken⟩ := List.exists_of_findSome?_eq_some read
  obtain ⟨left, stripped, same⟩ := Option.map_eq_some_iff.mp taken
  obtain ⟨rfl, rfl⟩ := Prod.mk.inj same
  obtain rfl := eq_append_of_stripLeading? stripped
  simp only [Reader.constants, List.mem_cons, Prod.mk.injEq, List.not_mem_nil, or_false] at constant
  rcases constant with ⟨rfl, rfl⟩ | ⟨rfl, rfl⟩ | ⟨rfl, rfl⟩ | ⟨rfl, rfl⟩ | ⟨rfl, rfl⟩ | ⟨rfl, rfl⟩ <;>
    exact ⟨.word (by simp [words]), trivial⟩

variable {spell : Spelling}

/-- What the reader reads with some fuel is derived by the rules. -/
structure Sound (spell : Spelling) (fuel : Nat) : Prop where
  value : ∀ {cs t rest}, Reader.value spell fuel cs = .ok (t, rest) →
    ValueText Convertible cs rest ∧ t.Regular
  items : ∀ {cs ts rest}, Reader.items spell fuel cs = .ok (ts, rest) →
    ItemsText Convertible cs rest ∧ Tree.AllRegular ts
  members : ∀ {cs ms rest}, Reader.members spell fuel cs = .ok (ms, rest) →
    MembersText Convertible cs rest ∧ Tree.MembersRegular ms

theorem value_of_read {fuel : Nat} (sound : Sound spell fuel) {t : Tree}
    (read : Reader.value spell (fuel + 1) cs = .ok (t, rest)) :
    ValueText Convertible cs rest ∧ t.Regular := by
  unfold Reader.value at read
  split at read
  · obtain ⟨⟨s, after⟩, string, ended⟩ := bind_ok read
    obtain ⟨rfl, rfl⟩ := Prod.mk.inj (Except.ok.inj ended)
    exact ⟨.text (chars_of_string string), trivial⟩
  · rename_i inner
    have spaces := skip_spaces inner
    split at read
    · rename_i close
      obtain ⟨rfl, rfl⟩ := Prod.mk.inj (Except.ok.inj read)
      exact ⟨.emptyArray (close ▸ spaces), trivial⟩
    · obtain ⟨⟨ts, after⟩, items, ended⟩ := bind_ok read
      obtain ⟨rfl, rfl⟩ := Prod.mk.inj (Except.ok.inj ended)
      obtain ⟨derived, regular⟩ := sound.items items
      exact ⟨.array spaces derived, regular⟩
  · rename_i inner
    have spaces := skip_spaces inner
    split at read
    · rename_i close
      obtain ⟨rfl, rfl⟩ := Prod.mk.inj (Except.ok.inj read)
      exact ⟨.emptyObject (close ▸ spaces), trivial⟩
    · obtain ⟨⟨ms, after⟩, members, ended⟩ := bind_ok read
      obtain ⟨rfl, rfl⟩ := Prod.mk.inj (Except.ok.inj ended)
      obtain ⟨derived, regular⟩ := sound.members members
      exact ⟨.object spaces derived, regular⟩
  · split at read
    · rename_i constant
      obtain rfl := Except.ok.inj read
      exact word_of_constant? constant
    · obtain ⟨text, rfl, number, regular⟩ := number_of_read read
      exact ⟨.number number, regular⟩

theorem items_of_read {fuel : Nat} (sound : Sound spell fuel) {ts : List Tree}
    (read : Reader.items spell (fuel + 1) cs = .ok (ts, rest)) :
    ItemsText Convertible cs rest ∧ Tree.AllRegular ts := by
  unfold Reader.items at read
  obtain ⟨⟨t, after⟩, item, read⟩ := bind_ok read
  obtain ⟨derived, regular⟩ := sound.value item
  have spaces := skip_spaces after
  dsimp only at read
  split at read
  · rename_i close
    obtain ⟨rfl, rfl⟩ := Prod.mk.inj (Except.ok.inj read)
    exact ⟨.last derived (close ▸ spaces), regular, trivial⟩
  · rename_i gap comma
    split at read
    · rename_i others _ more
      obtain ⟨rfl, rfl⟩ := Prod.mk.inj (Except.ok.inj read)
      obtain ⟨later, all⟩ := sound.items more
      exact ⟨.more derived (comma ▸ spaces) (skip_spaces gap) later, regular, all⟩
    · contradiction
  · contradiction

theorem members_of_read {fuel : Nat} (sound : Sound spell fuel) {ms : List (String × Tree)}
    (read : Reader.members spell (fuel + 1) cs = .ok (ms, rest)) :
    MembersText Convertible cs rest ∧ Tree.MembersRegular ms := by
  unfold Reader.members at read
  split at read
  · rename_i inner
    obtain ⟨⟨k, behind⟩, string, read⟩ := bind_ok read
    have chars := chars_of_string string
    have colon := skip_spaces behind
    dsimp only at read
    split at read
    · rename_i before found
      rw [found] at colon
      obtain ⟨⟨t, after⟩, item, read⟩ := bind_ok read
      obtain ⟨derived, regular⟩ := sound.value item
      have spaces := skip_spaces after
      dsimp only at read
      split at read
      · rename_i close
        obtain ⟨rfl, rfl⟩ := Prod.mk.inj (Except.ok.inj read)
        exact ⟨.last chars colon (skip_spaces before) derived (close ▸ spaces), regular, trivial⟩
      · rename_i gap comma
        split at read
        · rename_i others _ more
          obtain ⟨rfl, rfl⟩ := Prod.mk.inj (Except.ok.inj read)
          obtain ⟨later, all⟩ := sound.members more
          exact ⟨.more chars colon (skip_spaces before) derived (comma ▸ spaces) (skip_spaces gap)
            later, regular, all⟩
        · contradiction
      · contradiction
    · contradiction
  · contradiction

/-- What is read is derived, whatever the fuel. -/
theorem sound (spell : Spelling) (fuel : Nat) : Sound spell fuel := by
  induction fuel with
  | zero =>
    constructor <;>
      intro _ _ _ read <;>
      simp [Reader.value, Reader.items, Reader.members, Reader.stop] at read
  | succ fuel ih => exact ⟨value_of_read ih, items_of_read ih, members_of_read ih⟩

/-- A text that is read is well-formed, and its integers are converted. -/
theorem wellFormed_of_read {t : Tree} (whole : read cs spell = .ok t) :
    WellFormed Convertible cs ∧ t.Regular := by
  unfold read at whole
  split at whole
  · contradiction
  · obtain ⟨⟨u, after⟩, value, ended⟩ := bind_ok whole
    obtain ⟨derived, regular⟩ := (sound _ _).value value
    have spaces := skip_spaces after
    dsimp only at ended
    split at ended
    · rename_i close
      obtain rfl := Except.ok.inj ended
      exact ⟨⟨_, _, skip_spaces _, derived, close ▸ spaces⟩, regular⟩
    · contradiction

end Grammar

end LiveDoc.Json
