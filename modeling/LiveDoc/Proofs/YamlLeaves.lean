import LiveDoc.Proofs.YamlBuild
import LiveDoc.Proofs.YamlLines

/-!
# Values on one line

What is written for a number or constant has the type of the value as a plain text, and is read as the
value. A float whose shortest text has no point gets one, which does not change the number.
-/

namespace LiveDoc

namespace Numeral

open Json.Reader (natural signText)

variable {ds : List Char} {negative : Bool} {m : Nat} {e : Int}

/-! ## Floats with a point -/

/-- Digits are laid out with a point, unless they are a single one with an exponent. Then a point and a
zero may stand between the two. -/
theorem layout_point (proper : Decimal.Digits ds) (last : Int) :
    '.' ∈ (Decimal.layout ds last).toList ∨ ∃ d exponent, ds = [d] ∧
      (Decimal.layout ds last).toList = d :: 'e' :: exponent ∧
        Shape (d :: '.' :: '0' :: 'e' :: exponent) [d] ['0'] ('e' :: exponent) ∧
          exponentValue ('e' :: exponent) = last := by
  obtain ⟨d, part, rfl⟩ := List.exists_cons_of_ne_nil proper.present
  unfold Decimal.layout
  simp only
  split
  · left
    split
    · simp
    · split <;> simp
  · cases part with
    | cons => left; simp
    | nil =>
      right
      obtain ⟨es, text, present, digits, value⟩ := Json.Reader.exponentText_eq last
      have power : last + ([d].length : Int) - 1 = last := by simp
      have first : d ≠ '0' := fun zero => proper.leading (by rw [zero]; rfl)
      have zeros : ∀ c ∈ ['0'], Text.isAsciiDigit c = true := fun c inside =>
        List.mem_singleton.mp inside ▸ rfl
      have read := Json.Reader.exponentPart_digits (decide (last < 0)) present digits
        (show Json.Reader.startsWithDigit [] = false from rfl)
      rw [List.append_nil, Json.Reader.natural_eq, value, Json.Reader.signed_natAbs] at read
      refine ⟨d, mark (decide (last < 0)) :: es, rfl, ?_, ⟨rfl, .inr proper, zeros,
        .inr ⟨d, _, es, rfl, first, rfl, present, digits⟩⟩, ?_⟩
      · rw [power]
        simp [text, mark]
      · rw [exponentValue, mark, read]
        rfl

/-- A zero behind the point does not change a number. -/
theorem rounds_padded {d : Char} {last : Int}
    (rounds : Binary64.Rounds m e (Nat.ofDigitChars 10 [d] 0 * 10 ^ last)) :
    Binary64.Rounds m e (natural [d, '0'] * 10 ^ (last - 1)) := by
  have tens : natural [d, '0'] = Nat.ofDigitChars 10 [d] 0 * 10 := by
    rw [← Json.Reader.natural_eq]
    simp [natural, value]
  have shift : (10 : ℚ) ^ last = 10 * 10 ^ (last - 1) := by
    rw [← zpow_one_add₀ (by norm_num)]
    congr 1
    omega
  rw [shift, ← mul_assoc] at rounds
  rw [tens]
  exact_mod_cast rounds

/-- A float has a text in YAML: its sign, and an unsigned number with a point that is read as its
magnitude. -/
def Pointed (negative : Bool) (m : Nat) (e : Int) : Prop :=
  ∃ body whole part exponent y, Shape body whole part exponent ∧ part ≠ [] ∧
    (Yaml.Node.floatText (.finite negative m e)).toList = signText negative body ∧
    Numeral.float (String.ofList body) = .ok y ∧ (if negative then y.neg else y) = .finite negative m e

/-- A float whose shortest text has a point is written as that text. -/
theorem pointed_of_point (canonical : Binary64.Canonical (.finite negative m e))
    (point : Yaml.hasPoint (.finite negative m e) = true) : Pointed negative m e := by
  obtain ⟨body, whole, part, exponent, y, shape, text, read, same⟩ := exists_body canonical
  have some : part ≠ [] := by
    rw [Yaml.Build.hasPoint_of_shape shape text] at point
    simpa using point
  have written : Yaml.Node.floatText (.finite negative m e) = (Binary64.finite negative m e).text := by
    have here : (Binary64.finite negative m e).text.toList.contains '.' = true := point
    simp only [Yaml.Node.floatText, here, Bool.true_or, if_true]
  exact ⟨body, whole, part, exponent, y, shape, some, by rw [written, text], read, same⟩

/-- A float whose shortest text has no point has a single digit and an exponent, and gets a point and a
zero between the two. -/
theorem pointed_of_pointless (canonical : Binary64.Canonical (.finite negative m e))
    (point : Yaml.hasPoint (.finite negative m e) = false) : Pointed negative m e := by
  have text := Json.Reader.toList_finite negative m e
  have absent : '.' ∉ (Binary64.finite negative m e).text.toList := fun inside => by
    rw [Yaml.hasPoint, ← Bool.not_eq_true, List.contains_iff_mem] at point
    exact point inside
  have large : 0 < m := by
    refine Nat.pos_of_ne_zero ?_
    rintro rfl
    refine absent (text ▸ ?_)
    cases negative <;> simp [signText]
  rw [if_neg large.ne'] at text
  obtain ⟨proper, rounds⟩ := Decimal.shortest_spec (e := e) large
  rcases layout_point proper (Decimal.shortest m e).2 with inside |
    ⟨d, exponent, single, laid, shape, last⟩
  · refine absurd ?_ absent
    rw [text]
    cases negative
    · exact inside
    · exact List.mem_cons_of_mem _ inside
  · have rounds := rounds_padded (single ▸ rounds canonical.1)
    have digit : Text.isAsciiDigit d = true := proper.digit d (single ▸ List.mem_cons_self)
    have other : d ≠ 'e' := by
      rintro rfl
      exact absurd digit (by decide)
    have read := float_of_shape shape
    rw [last] at read
    have value (sign : Bool) : Binary64.ofDecimal sign (natural [d, '0'])
        ((Decimal.shortest m e).2 - 1) = .finite sign m e :=
      Decimal.ofDecimal_of_rounds canonical large rounds
    refine ⟨_, _, _, _, _, shape, List.cons_ne_nil _ _, ?_, read, ?_⟩
    · rw [laid] at text
      have bare : (Binary64.finite negative m e).text.toList.contains '.' = false := point
      simp only [Yaml.Node.floatText]
      rw [bare, text]
      cases negative <;> simp [signText, other]
    · cases negative with
      | true =>
        rw [if_pos rfl, neg_ofDecimal]
        exact value true
      | false => exact value false

theorem pointed (canonical : Binary64.Canonical (.finite negative m e)) : Pointed negative m e := by
  cases point : Yaml.hasPoint (.finite negative m e) with
  | true => exact pointed_of_point canonical point
  | false => exact pointed_of_pointless canonical point

end Numeral

namespace Yaml

open Json.Reader (signText)
open Numeral (isNumberChar)

variable {cs : List Char} {c : Char} {t s : String} {v : Value}

/-! ## Numbers as plain text -/

namespace Style

theorem adjoin_absent {p q : Char → Bool} (absent : ∀ c ∈ cs, p c = false) : adjoin p q cs = false := by
  induction cs with
  | nil => rfl
  | cons c cs ih =>
    obtain ⟨first, others⟩ := List.forall_mem_cons.mp absent
    cases cs with
    | nil => rfl
    | cons d cs => rw [adjoin, first, ih others]; rfl

theorem indicatesWithin_absent {after : Bool} (absent : ∀ c ∈ cs, (c == ':') = false ∧ (c == '#') = false) :
    indicatesWithin after cs = false := by
  induction cs generalizing after with
  | nil => rfl
  | cons c cs ih =>
    obtain ⟨⟨colon, comment⟩, others⟩ := List.forall_mem_cons.mp absent
    rw [indicatesWithin, colon, comment, ih others]
    rfl

/-- The characters of a number have no meaning of their own in a plain text. -/
theorem common_number (number : isNumberChar c = true) : isSpecial c = false ∧ isLineEnd c = false ∧
    (c == ' ') = false ∧ (c == ':') = false ∧ (c == '#') = false := by
  refine of_decide_eq_true (Numeral.of_isNumberChar (p := fun c => decide (isSpecial c = false ∧
    isLineEnd c = false ∧ (c == ' ') = false ∧ (c == ':') = false ∧ (c == '#') = false)) ?_ (by decide)
    number)
  intro c digit
  have bounds : '0' ≤ c ∧ c ≤ '9' := by simpa [Text.isAsciiDigit] using digit
  have range : 48 ≤ c.toNat ∧ c.toNat ≤ 57 := bounds
  have apart : ∀ d : Char, d.toNat < 48 ∨ 57 < d.toNat → (c == d) = false := fun d other =>
    beq_false_of_ne fun same => by rw [same] at range; omega
  have low : ' ' ≤ c := by change 32 ≤ c.toNat; omega
  have high : c ≤ '~' := by change c.toNat ≤ 126; omega
  refine decide_eq_true ⟨by simp [isSpecial, low, high], ?_, apart _ (by decide), apart _ (by decide),
    apart _ (by decide)⟩
  simp only [isLineEnd, apart '\n' (by decide), apart '\u0085' (by decide),
    apart '\u2028' (by decide), apart '\u2029' (by decide), Bool.or_self]

theorem ne_digit {d : Char} (digit : Text.isAsciiDigit c = true) (other : Text.isAsciiDigit d = false) :
    (c == d) = false := by
  refine beq_false_of_ne ?_
  rintro rfl
  rw [digit] at other
  contradiction

/-- No indicator starts the text of a number or stands within it. -/
theorem indicates_number (digit : Text.isAsciiDigit c = true)
    (chars : ∀ d ∈ c :: cs, isNumberChar d = true) (negative : Bool) :
    indicates (signText negative (c :: cs)) = false := by
  have marks : "#,[]\x7b\x7d&*!|>'\"%@\x60".toList.all (!Text.isAsciiDigit ·) = true := by decide
  have first : "#,[]\x7b\x7d&*!|>'\"%@\x60".toList.contains c = false := by
    rw [← Bool.not_eq_true, List.contains_iff_mem]
    intro inside
    have other := List.all_eq_true.mp marks c inside
    rw [digit] at other
    contradiction
  have within : ∀ ds, (∀ d ∈ ds, d ∈ c :: cs) → ∀ after, indicatesWithin after ds = false :=
    fun ds inner after => indicatesWithin_absent fun d inside =>
      (common_number (chars d (inner d inside))).2.2.2
  have minus : c ≠ '-' := ne_of_beq_false (ne_digit digit rfl)
  cases negative with
  | false =>
    have rest := within cs (fun d => List.mem_cons_of_mem c) (isGap c)
    have point : c ≠ '.' := ne_of_beq_false (ne_digit digit rfl)
    have query : c ≠ '?' := ne_of_beq_false (ne_digit digit rfl)
    have colon : c ≠ ':' := ne_of_beq_false (ne_digit digit rfl)
    simpa [signText, indicates, rest, minus, point, query, colon] using first
  | true =>
    have rest := within (c :: cs) (fun _ => id) (isGap '-')
    have gap : isGap c = false := by
      simp only [isGap, isLineEnd, ne_digit digit (d := '\x00') rfl, ne_digit digit (d := ' ') rfl,
        ne_digit digit (d := '\t') rfl, ne_digit digit (d := '\r') rfl,
        ne_digit digit (d := '\n') rfl, ne_digit digit (d := '\u0085') rfl,
        ne_digit digit (d := '\u2028') rfl, ne_digit digit (d := '\u2029') rfl, Bool.or_self]
    simp [signText, indicates, rest, minus, opensGap, gap]

/-- The text of a number may be written plain. -/
theorem allowsPlain_number (digit : Text.isAsciiDigit c = true)
    (chars : ∀ d ∈ c :: cs, isNumberChar d = true) (negative : Bool) :
    allowsPlain (signText negative (c :: cs)) = true := by
  have whole := chars_signText negative chars
  have common := fun d inside => common_number (whole d inside)
  have single : allowsSingle (signText negative (c :: cs)) = true := by
    rw [allowsSingle, List.any_eq_false.mpr fun d inside => by simp [(common d inside).1],
      adjoin_absent fun d inside => (common d inside).2.1,
      adjoin_absent fun d inside => (common d inside).2.2.1]
    rfl
  have line : isMultiline (signText negative (c :: cs)) = false :=
    List.any_eq_false.mpr fun d inside => by simp [(common d inside).2.1]
  have visible : (signText negative (c :: cs)).head? ≠ some ' ' ∧
      (signText negative (c :: cs)).getLast? ≠ some ' ' := by
    refine ⟨fun head => ?_, fun last => ?_⟩
    · exact absurd (common ' ' (List.mem_of_mem_head? head)).2.2.1 (by decide)
    · exact absurd (common ' ' (List.mem_of_getLast? last)).2.2.1 (by decide)
  simp [allowsPlain, single, line, indicates_number digit chars negative, visible]

end Style

/-! ## Leaves -/

/-- Whether a value is read back from a scalar that is written plain. -/
def IsLeaf (t s : String) (v : Value) : Prop :=
  s ≠ "" ∧ Style.choose t s false = .plain ∧ ∀ mark, Build.leaf (.scalar t s mark) = .ok v

theorem choose_of_type {name : String} (type : Schema.typeName s = name) (other : name ≠ "binary")
    (allows : Style.allowsPlain s.toList = true) : Style.choose (Schema.tag name) s false = .plain := by
  have apart : Schema.tag name ≠ Schema.tag "binary" := fun same => other (Build.tag_inj.mp same)
  have own : Schema.tagOf s = Schema.tag name := by rw [Schema.tagOf, type]
  simp [Style.choose, apart, own, allows]

theorem present_of_type {name : String} (type : Schema.typeName s = name) (other : name ≠ "null") :
    s ≠ "" := by
  rintro rfl
  exact other (type.symm.trans (by decide +kernel))

theorem isLeaf_int {n : Int} (few : Value.isOversized n = false) :
    IsLeaf (Schema.tag "int") (toString n) (.int n) := by
  have digits := Numeral.isDigits_of_whole (isWhole_toDigits n.natAbs)
  obtain ⟨c, more, opening⟩ := List.exists_cons_of_ne_nil digits.present
  have type := Schema.typeName_integer (isWhole_toDigits n.natAbs) (decide (n < 0))
  rw [← toString_eq] at type
  have plain : Style.allowsPlain (toString n).toList = true := by
    rw [toString_eq, String.toList_ofList, opening]
    rw [opening] at digits
    exact Style.allowsPlain_number (digits.digit c List.mem_cons_self)
      (fun d inside => Numeral.isNumberChar_digit (digits.digit d inside)) _
  refine ⟨present_of_type type (by decide), choose_of_type type (by decide) plain, fun mark => ?_⟩
  rw [Build.leaf_int, Build.int_toString few]
  rfl

theorem isLeaf_finite {m : Nat} {e : Int} {negative : Bool}
    (canonical : Binary64.Canonical (.finite negative m e)) :
    IsLeaf (Schema.tag "float") (Node.floatText (.finite negative m e))
      (.float (.finite negative m e)) := by
  obtain ⟨body, whole, part, exponent, y, shape, present, text, read, same⟩ :=
    Numeral.pointed canonical
  have numeral : Node.floatText (.finite negative m e) = String.ofList (signText negative body) := by
    rw [← text, String.ofList_toList]
  obtain ⟨c, more, begins, digit⟩ := shape.exists_first
  have plain : Style.allowsPlain (Node.floatText (.finite negative m e)).toList = true := by
    rw [text, begins]
    exact Style.allowsPlain_number digit (begins ▸ shape.chars) negative
  have type := Schema.typeName_point shape present negative
  rw [← numeral] at type
  refine ⟨present_of_type type (by decide), choose_of_type type (by decide) plain, fun mark => ?_⟩
  rw [Build.leaf_float, numeral, Build.float_signText shape read, same]
  rfl

theorem isLeaf_null : IsLeaf (Schema.tag "null") "null" .null :=
  ⟨by decide, by decide +kernel, fun _ => Build.leaf_null⟩

theorem isLeaf_bool (b : Bool) :
    IsLeaf (Schema.tag "bool") (if b then "true" else "false") (.bool b) := by
  have lower : Text.lower (if b then "true" else "false") = if b then "true" else "false" := by
    cases b <;> decide +kernel
  have read : Build.bool (if b then "true" else "false") = .ok (.bool b) := by
    rw [Build.bool, lower]
    cases b <;> rfl
  refine ⟨by cases b <;> decide, by cases b <;> decide +kernel, fun mark => ?_⟩
  rw [Build.leaf_bool, read]
  rfl

/-- The words for floats that are not finite. -/
theorem isLeaf_nan : IsLeaf (Schema.tag "float") ".nan" (.float .nan) := by
  have lower : Text.lower (Build.withoutMarks ".nan") = ".nan" := by decide +kernel
  have signed : Build.signed ".nan" = .ok (false, ".nan") := rfl
  refine ⟨by decide, by decide +kernel, fun mark => ?_⟩
  rw [Build.leaf_float, Build.float, lower, signed]
  rfl

theorem isLeaf_infinite (negative : Bool) : IsLeaf (Schema.tag "float")
    (if negative then "-.inf" else ".inf") (.float (.infinite negative)) := by
  have lower : Text.lower (Build.withoutMarks (if negative then "-.inf" else ".inf")) =
      if negative then "-.inf" else ".inf" := by
    cases negative <;> decide +kernel
  have signed : Build.signed (if negative then "-.inf" else ".inf") = .ok (negative, ".inf") := by
    cases negative <;> rfl
  refine ⟨by cases negative <;> decide, by cases negative <;> decide +kernel, fun mark => ?_⟩
  rw [Build.leaf_float, Build.float, lower, signed]
  cases negative <;> rfl

end Yaml

end LiveDoc
