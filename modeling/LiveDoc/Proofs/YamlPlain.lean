import LiveDoc.Proofs.NumberShape
import LiveDoc.Proofs.YamlSteps
import LiveDoc.Yaml.Build

/-!
# Numbers and constants as plain text

What is written for an integer is read as the integer. A float with a point is read as the float,
and one without a point as a text: an exponent needs a point before it, and the words for what is not
finite are other ones.
-/

namespace LiveDoc.Yaml

open Json.Grammar (IsDigits IsWhole)
open Json.Reader (signText natural)
open Numeral (Shape isNumberChar isDigits_of_whole isNumberChar_digit)

variable {cs ds rest body whole part exponent : List Char} {negative : Bool} {c : Char}

/-! ## The type of a number -/

theorem chars_signText (negative : Bool) (chars : ∀ c ∈ body, isNumberChar c = true) :
    ∀ c ∈ signText negative body, isNumberChar c = true :=
  Json.Reader.forall_signText negative chars rfl

namespace Schema

theorem unsigned_signText (digit : Text.isAsciiDigit c = true) :
    Numeral.sign (signText negative (c :: rest)) = (negative, c :: rest) := by
  cases negative with
  | true => rfl
  | false => exact Numeral.sign_digit digit

theorem dropWhile_digits (digits : ∀ c ∈ ds, Text.isAsciiDigit c = true)
    (stops : ∀ c, rest.head? = some c → isDigitOrMark 10 c = false) :
    (ds ++ rest).dropWhile (isDigitOrMark 10) = rest := by
  have mark : ∀ c ∈ ds, isDigitOrMark 10 c = true := by
    intro c inside
    have digit := digits c inside
    have bounds : '0' ≤ c ∧ c ≤ '9' := by simpa [Text.isAsciiDigit] using digit
    have range : 48 ≤ c.toNat ∧ c.toNat ≤ 57 := bounds
    have small : c.toNat - 48 < 10 := by omega
    simp [isDigitOrMark, digit, small]
  rw [List.dropWhile_append_of_pos mark]
  cases rest with
  | nil => rfl
  | cons c rest => simp [stops c rfl]

/-- What follows digits, when no further ones do. -/
theorem afterDigits?_digits (proper : IsDigits ds)
    (stops : ∀ c, rest.head? = some c → isDigitOrMark 10 c = false) :
    afterDigits? (ds ++ rest) = some rest := by
  have left := dropWhile_digits proper.digit stops
  obtain ⟨c, more, rfl⟩ := List.exists_cons_of_ne_nil proper.present
  rw [List.cons_append] at left ⊢
  simp only [afterDigits?, proper.digit c List.mem_cons_self, if_true, left]

/-- No constant has a digit in it. -/
theorem lookup_words (digit : ∃ c ∈ cs, Text.isAsciiDigit c = true) :
    words.lookup (String.ofList cs) = none := by
  have letters : ∀ p ∈ words, p.1.toList.all (!Text.isAsciiDigit ·) = true := by decide
  obtain ⟨c, inside, digit⟩ := digit
  refine List.lookup_eq_none_iff.mpr fun p known => ?_
  rw [bne_iff_ne]
  rintro same
  have other := List.all_eq_true.mp (letters p known) c (by rw [← same]; simpa using inside)
  rw [digit] at other
  contradiction

/-- The type of a text with digits and other characters of a number is not that of a constant. -/
theorem typeName_of_number (chars : ∀ c ∈ cs, isNumberChar c = true)
    (digit : ∃ c ∈ cs, Text.isAsciiDigit c = true) :
    typeName (String.ofList cs) = if isFloat cs then "float" else if isInteger cs then "int"
      else if isTimestamp cs then "timestamp" else "str" := by
  have open_ : withoutFinalBreak cs = cs := by
    unfold withoutFinalBreak
    rw [if_neg]
    intro last
    have := chars '\n' (List.mem_of_getLast? last)
    contradiction
  have present : (String.ofList cs).isEmpty = false := by
    obtain ⟨c, inside, -⟩ := digit
    cases cs with
    | nil => exact absurd inside List.not_mem_nil
    | cons => simp
  simp only [typeName, String.toList_ofList, open_, lookup_words digit, present, Bool.false_eq_true,
    if_false]

/-! ### Integers -/

/-- The text of an integer has the form of one, and that of no float. -/
theorem forms_integer (proper : IsWhole whole) (negative : Bool) :
    isFloat (signText negative whole) = false ∧ isInteger (signText negative whole) = true := by
  have digits := isDigits_of_whole proper
  obtain ⟨c, more, opening⟩ := List.exists_cons_of_ne_nil digits.present
  have digit : Text.isAsciiDigit c = true := digits.digit c (by simp [opening])
  have behind : afterDigits? whole = some [] := by
    have behind : afterDigits? (whole ++ []) = some [] := afterDigits?_digits digits nofun
    rwa [List.append_nil] at behind
  have signless : unsigned (signText negative whole) = whole := by
    rw [unsigned, opening, unsigned_signText digit]
  constructor
  · unfold isFloat
    simp only [signless]
    split
    · injection opening with same
      rw [← same] at digit
      contradiction
    · rw [behind]
      rfl
  · unfold isInteger
    rw [signless]
    rcases proper with rfl | proper
    · rfl
    · split
      · exact absurd rfl proper.leading
      · rw [behind]
        rfl

theorem exists_digit (proper : IsDigits ds) (negative : Bool) (rest : List Char) :
    ∃ c ∈ signText negative (ds ++ rest), Text.isAsciiDigit c = true := by
  obtain ⟨c, more, rfl⟩ := List.exists_cons_of_ne_nil proper.present
  have digit := proper.digit c List.mem_cons_self
  cases negative with
  | true => exact ⟨c, by simp [signText], digit⟩
  | false => exact ⟨c, by simp [signText], digit⟩

theorem typeName_integer (proper : IsWhole whole) (negative : Bool) :
    typeName (String.ofList (signText negative whole)) = "int" := by
  have digits := isDigits_of_whole proper
  have some := exists_digit digits negative []
  rw [List.append_nil] at some
  have chars := chars_signText negative fun c inside =>
    isNumberChar_digit (digits.digit c inside)
  obtain ⟨float, integer⟩ := forms_integer proper negative
  rw [typeName_of_number chars some, float, integer]
  rfl

/-! ### Floats -/

/-- The exponent of a number, if there is one, is a whole exponent. -/
theorem isExponent_of_shape (shape : Shape body whole part exponent) :
    isExponent exponent = true := by
  rcases shape.form with ⟨rfl, -⟩ | ⟨d, negative, ds, -, -, rfl, digits⟩
  · rfl
  · obtain ⟨d, more, rfl⟩ := List.exists_cons_of_ne_nil digits.present
    have first := digits.digit d List.mem_cons_self
    have others : more.all Text.isAsciiDigit = true :=
      List.all_eq_true.mpr fun c inside => digits.digit c (List.mem_cons_of_mem d inside)
    cases negative <;> simp [isExponent, Numeral.mark, first, others]

theorem stops_exponent (shape : Shape body whole part exponent) :
    ∀ c, exponent.head? = some c → isDigitOrMark 10 c = false := by
  rcases shape.form with ⟨rfl, -⟩ | ⟨d, negative, ds, -, -, rfl, -⟩
  · nofun
  · rintro c ⟨⟩
    rfl

/-- Without a point a number with an exponent is neither an integer nor a timestamp. -/
theorem forms_exponent (shape : Shape body whole [] exponent) (negative : Bool) :
    isFloat (signText negative body) = false ∧ isInteger (signText negative body) = false ∧
      isTimestamp (signText negative body) = false := by
  obtain ⟨-, present⟩ | ⟨d, sign, ds, rfl, nonzero, rfl, -⟩ := shape.form
  · contradiction
  have text : body = d :: 'e' :: Numeral.mark sign :: ds := shape.text
  have digit : Text.isAsciiDigit d = true := (isDigits_of_whole shape.proper).digit d (by simp)
  have behind : afterDigits? body = some ('e' :: Numeral.mark sign :: ds) := by
    rw [text]
    exact afterDigits?_digits (isDigits_of_whole shape.proper) (stops_exponent shape)
  have signless : unsigned (signText negative body) = body := by
    rw [unsigned, text, unsigned_signText digit]
  have sixtieths : afterSixtieths? ('e' :: Numeral.mark sign :: ds) = none := by
    simp [afterSixtieths?, afterSixtieths]
  have point : d ≠ '.' := by
    rintro rfl
    contradiction
  refine ⟨?_, ?_, ?_⟩
  · unfold isFloat
    simp only [signless]
    rw [text] at behind ⊢
    simp [point, behind, sixtieths]
  · unfold isInteger
    rw [signless]
    rw [text] at behind ⊢
    simp [nonzero, behind, sixtieths]
  · rw [text]
    have few : Timestamp.take? 4 4 (signText negative (d :: 'e' :: Numeral.mark sign :: ds)) =
        none := by
      have letter : Text.isAsciiDigit 'e' = false := rfl
      have minus : Text.isAsciiDigit '-' = false := rfl
      cases negative <;> simp [Timestamp.take?, signText, digit, letter, minus]
    simp [isTimestamp, Timestamp.ofChars?, few]

/-- A number with a point is a float. -/
theorem isFloat_point (shape : Shape body whole part exponent) (present : part ≠ [])
    (negative : Bool) : isFloat (signText negative body) = true := by
  obtain ⟨c, more, begins, digit⟩ := shape.exists_first
  have text : body = whole ++ '.' :: (part ++ exponent) := by
    rw [shape.text, Numeral.fraction, if_neg (by simpa using present), List.cons_append]
  have behind : afterDigits? body = some ('.' :: (part ++ exponent)) := by
    rw [text]
    exact afterDigits?_digits (isDigits_of_whole shape.proper) (by rintro c ⟨⟩; rfl)
  have signless : unsigned (signText negative body) = body := by
    rw [unsigned, begins, unsigned_signText digit]
  have point : c ≠ '.' := by
    rintro rfl
    contradiction
  have ends := isExponent_of_shape shape
  have last := dropWhile_digits shape.digits (stops_exponent shape)
  unfold isFloat
  simp only [signless]
  rw [begins] at behind ⊢
  simp [point, behind, last, ends]

theorem typeName_point (shape : Shape body whole part exponent) (present : part ≠ [])
    (negative : Bool) : typeName (String.ofList (signText negative body)) = "float" := by
  have chars := chars_signText negative shape.chars
  have digits := exists_digit (isDigits_of_whole shape.proper) negative
    (Numeral.fraction part ++ exponent)
  rw [← shape.text] at digits
  rw [typeName_of_number chars digits, isFloat_point shape present negative]
  rfl

end Schema

/-! ## The value of a number -/

theorem isWhole_toDigits (n : Nat) : IsWhole (Nat.toDigits 10 n) := by
  rcases Nat.eq_zero_or_pos n with rfl | large
  · exact .inl rfl
  · exact .inr (Decimal.digits_toDigits large)

theorem toString_eq (n : Int) :
    toString n = String.ofList (signText (decide (n < 0)) (Nat.toDigits 10 n.natAbs)) := by
  rw [← Json.Reader.toString_int, String.ofList_toList]


namespace Build

theorem withoutMarks_number (chars : ∀ c ∈ cs, isNumberChar c = true) :
    withoutMarks (String.ofList cs) = String.ofList cs := by
  have marks : cs.filter (· != '_') = cs := List.filter_eq_self.mpr fun c inside => by
    rw [bne_iff_ne]
    rintro rfl
    have := chars '_' inside
    contradiction
  rw [withoutMarks, String.toList_ofList, marks]

theorem signed_number (digit : Text.isAsciiDigit c = true) :
    signed (String.ofList (signText negative (c :: rest))) =
      .ok (negative, String.ofList (c :: rest)) := by
  have present : (String.ofList (signText negative (c :: rest))).isEmpty = false := by
    cases negative <;> simp [signText]
  simp [signed, present, Schema.unsigned_signText digit]

/-- A number has the same characters in lower case. -/
theorem lower_number (chars : ∀ c ∈ cs, isNumberChar c = true) :
    Text.lower (String.ofList cs) = String.ofList cs := by
  have same : ∀ c, isNumberChar c = true → c ≠ Text.capitalSigma ∧ Text.lowerChar c = [c] := by
    intro c number
    refine of_decide_eq_true (Numeral.of_isNumberChar
      (p := fun c => decide (c ≠ Text.capitalSigma ∧ Text.lowerChar c = [c])) ?_ (by decide) number)
    intro c digit
    have bounds : '0' ≤ c ∧ c ≤ '9' := by simpa [Text.isAsciiDigit] using digit
    have range : 48 ≤ c.toNat ∧ c.toNat ≤ 57 := bounds
    refine decide_eq_true ⟨?_, by rw [Text.lowerChar, if_pos (by omega), Numeral.toLower_digit digit]⟩
    rintro rfl
    contradiction
  have each : ∀ cs before : List Char, (∀ c ∈ cs, isNumberChar c = true) →
      Text.lowerFrom before cs = cs := by
    intro cs
    induction cs with
    | nil => intros; rfl
    | cons c cs ih =>
      intro before chars
      obtain ⟨other, lower⟩ := same c (chars c List.mem_cons_self)
      rw [Text.lowerFrom, if_neg other, lower,
        ih _ fun d inside => chars d (List.mem_cons_of_mem c inside)]
      rfl
  rw [Text.lower, String.toList_ofList, each cs [] chars]

/-- The magnitude of an integer in base ten. -/
theorem magnitude_whole (proper : IsWhole whole) (few : whole.length ≤ Value.maxDigits) :
    magnitude (String.ofList whole) = .ok (natural whole) := by
  rcases proper with rfl | proper
  · rfl
  · have digits : IsDigits whole := ⟨proper.present, proper.digit⟩
    have colon : whole.contains ':' = false := by
      rw [← Bool.not_eq_true, List.contains_iff_mem]
      intro inside
      have := proper.digit ':' inside
      contradiction
    unfold magnitude
    rw [String.toList_ofList]
    split
    · exact absurd rfl proper.leading
    · exact absurd rfl proper.leading
    · exact absurd rfl proper.leading
    · exact absurd rfl proper.leading
    · exact absurd rfl proper.present
    · rw [if_neg (by rw [colon]; decide), Numeral.integer_digits digits few]

/-- The text of an integer is read as the integer. -/
theorem int_toString {n : Int} (few : Value.isOversized n = false) :
    int (toString n) = .ok (.int n) := by
  have proper := isWhole_toDigits n.natAbs
  have short : (Nat.toDigits 10 n.natAbs).length ≤ Value.maxDigits :=
    Json.Reader.length_toDigits_le (by decide) (not_le.mp (of_decide_eq_false few))
  have chars := chars_signText (decide (n < 0)) fun c inside =>
    isNumberChar_digit ((isDigits_of_whole proper).digit c inside)
  obtain ⟨c, more, opening⟩ := List.exists_cons_of_ne_nil (isDigits_of_whole proper).present
  have digit : Text.isAsciiDigit c = true := (isDigits_of_whole proper).digit c (by simp [opening])
  have magnitude := magnitude_whole proper short
  rw [opening] at chars magnitude
  rw [toString_eq, opening, int, withoutMarks_number chars, signed_number digit]
  simp only [bind, Except.bind, magnitude]
  rw [← opening, Json.Reader.natural_eq, Nat.ofDigitChars_ten_toDigits]
  exact congrArg (fun n => Except.ok (Value.int n)) (Json.Reader.signed_natAbs n)

/-- A number with a sign is read as YAML reads its magnitude, which is as other text has it. -/
theorem float_signText {y : Binary64} (shape : Shape body whole part exponent)
    (read : Numeral.float (String.ofList body) = .ok y) :
    float (String.ofList (signText negative body)) = .ok (.float (if negative then y.neg else y)) := by
  have chars := chars_signText negative shape.chars
  obtain ⟨c, more, begins, digit⟩ := shape.exists_first
  -- neither a word for what is not finite nor a base sixty numeral
  have word : ∀ w : String, w.toList.head? = some '.' → String.ofList body ≠ w := by
    rintro w point rfl
    rw [String.toList_ofList, begins] at point
    injection point with point
    exact absurd (point ▸ digit) (by decide)
  have colon : (String.ofList body).toList.contains ':' = false := by
    rw [String.toList_ofList, ← Bool.not_eq_true, List.contains_iff_mem]
    exact fun inside => absurd (shape.chars ':' inside) (by decide)
  have signed : signed (String.ofList (signText negative body)) =
      .ok (negative, String.ofList body) := by
    rw [begins, signed_number digit]
  rw [float, withoutMarks_number chars, lower_number chars, signed]
  simp only [bind, Except.bind, colon, read, word ".inf" rfl, word ".nan" rfl, if_false,
    Bool.false_eq_true]

/-- A finite number is read from its text. -/
theorem float_text {m : Nat} {e : Int} (canonical : Binary64.Canonical (.finite negative m e)) :
    float (Binary64.finite negative m e).text = .ok (.float (.finite negative m e)) := by
  obtain ⟨body, whole, part, exponent, y, shape, text, read, same⟩ := Numeral.exists_body canonical
  have numeral : (Binary64.finite negative m e).text = String.ofList (signText negative body) := by
    rw [← text, String.ofList_toList]
  rw [numeral, float_signText shape read, same]

end Build

/-! ## The value of a word -/

/-- Whether a float is written with a point. -/
def hasPoint (x : Binary64) : Bool := (Json.Writer.float x).toList.contains '.'

namespace Build

variable {s : String} {mark : Mark} {v : Value}

theorem tag_inj {a b : String} : Schema.tag a = Schema.tag b ↔ a = b :=
  String.append_right_inj _

theorem leaf_null : leaf (.scalar (Schema.tag "null") s mark) = .ok .null := by
  simp only [leaf, Node.tag, if_true, Node.content, bind, Except.bind]

theorem leaf_bool : leaf (.scalar (Schema.tag "bool") s mark) = ofFault (bool s) := by
  simp only [leaf, Node.tag, tag_inj, String.reduceEq, if_false, if_true, Node.content, bind,
    Except.bind]

theorem leaf_int : leaf (.scalar (Schema.tag "int") s mark) = ofFault (int s) := by
  simp only [leaf, Node.tag, tag_inj, String.reduceEq, if_false, if_true, Node.content, bind,
    Except.bind]

theorem leaf_float : leaf (.scalar (Schema.tag "float") s mark) = ofFault (float s) := by
  simp only [leaf, Node.tag, tag_inj, String.reduceEq, if_false, if_true, Node.content, bind,
    Except.bind]

theorem leaf_str : leaf (.scalar (Schema.tag "str") s mark) = .ok (.text s) := by
  simp only [leaf, Node.tag, tag_inj, String.reduceEq, if_false, if_true, Node.content, bind,
    Except.bind]

theorem hasPoint_of_shape {m : Nat} {e : Int} (shape : Shape body whole part exponent)
    (text : (Binary64.finite negative m e).text.toList = signText negative body) :
    hasPoint (.finite negative m e) = !part.isEmpty := by
  have written : Json.Writer.float (.finite negative m e) =
    (Binary64.finite negative m e).text := rfl
  rw [hasPoint, written, text, Bool.eq_iff_iff, List.contains_iff_mem]
  have sign : '.' ∈ signText negative body ↔ '.' ∈ body := by
    cases negative <;> simp [signText]
  have outside : '.' ∉ whole := fun inside => by
    have := (isDigits_of_whole shape.proper).digit '.' inside
    contradiction
  have behind : '.' ∉ exponent := by
    rcases shape.form with ⟨rfl, -⟩ | ⟨d, negative, ds, -, -, rfl, digits⟩
    · simp
    · have last : '.' ∉ ds := fun inside => by
        have := digits.digit '.' inside
        contradiction
      cases negative <;> simp [Numeral.mark, last]
  rw [sign, shape.text]
  cases part <;> simp [Numeral.fraction, outside, behind]

/-- A finite float is read from its text if there is a point in it, and else its text is. -/
theorem leaf_finite {m : Nat} {e : Int} (canonical : Binary64.Canonical (.finite negative m e)) :
    leaf (.scalar (Schema.tagOf (Binary64.finite negative m e).text)
      (Binary64.finite negative m e).text mark) = .ok (if hasPoint (.finite negative m e) then
        .float (.finite negative m e) else .text (Binary64.finite negative m e).text) := by
  obtain ⟨body, whole, part, exponent, -, shape, text, -⟩ := Numeral.exists_body canonical
  have numeral : (Binary64.finite negative m e).text = String.ofList (signText negative body) := by
    rw [← text, String.ofList_toList]
  have chars := chars_signText negative shape.chars
  have digits := Schema.exists_digit (isDigits_of_whole shape.proper) negative
    (Numeral.fraction part ++ exponent)
  rw [← shape.text] at digits
  have type := Schema.typeName_of_number chars digits
  rw [← numeral] at type
  rw [hasPoint_of_shape shape text, Schema.tagOf, type]
  by_cases point : part = []
  · subst point
    obtain ⟨float, integer, timestamp⟩ := Schema.forms_exponent shape negative
    rw [float, integer, timestamp]
    exact leaf_str
  · have float := Schema.isFloat_point shape point negative
    have some : part.isEmpty = false := by simpa using point
    rw [float, some, if_pos rfl, leaf_float, float_text canonical]
    rfl

/-- So is any float, as the words for those that are not finite have no point and name no other
type. -/
theorem leaf_writtenFloat {x : Binary64} (canonical : x.Canonical) :
    leaf (.scalar (Schema.tagOf (Json.Writer.float x)) (Json.Writer.float x) mark) =
      .ok (if hasPoint x then .float x else .text (Json.Writer.float x)) := by
  cases x with
  | nan =>
    have type : Schema.typeName "NaN" = "str" := by decide +kernel
    have none : hasPoint .nan = false := by decide +kernel
    rw [show Json.Writer.float .nan = "NaN" from rfl, Schema.tagOf, type, leaf_str, none]
    rfl
  | infinite negative =>
    have type : Schema.typeName (Json.Writer.float (.infinite negative)) = "str" := by
      cases negative <;> decide +kernel
    have none : hasPoint (.infinite negative) = false := by
      cases negative <;> decide +kernel
    rw [Schema.tagOf, type, leaf_str, none]
    rfl
  | finite negative m e => exact leaf_finite canonical

end Build

/-- What is written for a value that is no text and no collection. -/
def word? : Value → Option String
  | .null => some "null"
  | .bool b => some (if b then "true" else "false")
  | .int n => some (toString n)
  | .float x => some (Json.Writer.float x)
  | _ => none

/-- A number or constant is read back from what is written for it, a float only if that has a
point. -/
theorem leaf_word {v : Value} {s : String} {mark : Mark} (json : v.IsJson)
    (word : word? v = some s) :
    ∃ w, Build.leaf (.scalar (Schema.tagOf s) s mark) = .ok w ∧
      (w = v ↔ ∀ x, v = .float x → hasPoint x = true) := by
  cases v with
  | null =>
    obtain rfl : "null" = s := Option.some.inj word
    have type : Schema.typeName "null" = "null" := by decide +kernel
    rw [Schema.tagOf, type]
    exact ⟨.null, Build.leaf_null, by simp⟩
  | bool b =>
    obtain rfl : (if b then "true" else "false") = s := Option.some.inj word
    have type : Schema.typeName (if b then "true" else "false") = "bool" := by
      cases b <;> decide +kernel
    have lower : Text.lower (if b then "true" else "false") = if b then "true" else "false" := by
      cases b <;> decide +kernel
    have read : Build.bool (if b then "true" else "false") = .ok (.bool b) := by
      rw [Build.bool, lower]
      cases b <;> rfl
    rw [Schema.tagOf, type]
    exact ⟨.bool b, by rw [Build.leaf_bool, read]; rfl, by simp⟩
  | int n =>
    obtain rfl : toString n = s := Option.some.inj word
    have type : Schema.typeName (toString n) = "int" := by
      rw [toString_eq]
      exact Schema.typeName_integer (isWhole_toDigits n.natAbs) _
    rw [Schema.tagOf, type]
    exact ⟨.int n, by rw [Build.leaf_int, Build.int_toString json]; rfl, by simp⟩
  | float x =>
    obtain rfl : Json.Writer.float x = s := Option.some.inj word
    refine ⟨_, Build.leaf_writtenFloat json, ?_⟩
    by_cases point : hasPoint x = true
    · simp [point]
    · simp [point]
  | _ => cases word

theorem isWordChar_number (number : isNumberChar c = true) : Progress.isWordChar c = true := by
  refine Numeral.of_isNumberChar (fun c digit => ?_) (by decide) number
  have bounds : '0' ≤ c ∧ c ≤ '9' := by simpa [Text.isAsciiDigit] using digit
  have alphanum : c.isAlphanum = true := by
    simp [Char.isAlphanum, Char.isDigit]
    exact .inr bounds
  simp [Progress.isWordChar, alphanum]

theorem isWord_signText (digit : Text.isAsciiDigit c = true)
    (chars : ∀ d ∈ c :: rest, isNumberChar d = true) (negative : Bool) :
    Progress.IsWord (signText negative (c :: rest)) := by
  have bounds : '0' ≤ c ∧ c ≤ '9' := by simpa [Text.isAsciiDigit] using digit
  have alphanum : c.isAlphanum = true := by
    simp [Char.isAlphanum, Char.isDigit]
    exact .inr bounds
  refine ⟨List.all_eq_true.mpr fun d inside => isWordChar_number (chars_signText negative chars d inside),
    c, rest, alphanum, ?_⟩
  cases negative with
  | true => exact .inr rfl
  | false => exact .inl rfl

/-- What is written for a number or constant is a word. -/
theorem isWord_word {v : Value} {s : String} (json : v.IsJson) (word : word? v = some s) :
    Progress.IsWord s.toList := by
  cases v with
  | null =>
    obtain rfl : "null" = s := Option.some.inj word
    exact ⟨by decide, 'n', "ull".toList, by decide, .inl rfl⟩
  | bool b =>
    obtain rfl : (if b then "true" else "false") = s := Option.some.inj word
    cases b with
    | true => exact ⟨by decide, 't', "rue".toList, by decide, .inl rfl⟩
    | false => exact ⟨by decide, 'f', "alse".toList, by decide, .inl rfl⟩
  | int n =>
    obtain rfl : toString n = s := Option.some.inj word
    have digits := isDigits_of_whole (isWhole_toDigits n.natAbs)
    obtain ⟨c, more, opening⟩ := List.exists_cons_of_ne_nil digits.present
    rw [toString_eq, String.toList_ofList, opening]
    rw [opening] at digits
    exact isWord_signText (digits.digit c List.mem_cons_self)
      (fun d inside => isNumberChar_digit (digits.digit d inside)) _
  | float x =>
    obtain rfl : Json.Writer.float x = s := Option.some.inj word
    cases x with
    | nan => exact ⟨by decide, 'N', "aN".toList, by decide, .inl rfl⟩
    | infinite negative =>
      cases negative with
      | true => exact ⟨by decide, 'I', "nfinity".toList, by decide, .inr rfl⟩
      | false => exact ⟨by decide, 'I', "nfinity".toList, by decide, .inl rfl⟩
    | finite negative m e =>
      obtain ⟨body, whole, part, exponent, -, shape, text, -⟩ := Numeral.exists_body json
      obtain ⟨c, more, begins, digit⟩ := shape.exists_first
      have written : Json.Writer.float (.finite negative m e) =
        (Binary64.finite negative m e).text := rfl
      have chars := shape.chars
      rw [begins] at chars
      rw [written, text, begins]
      exact isWord_signText digit chars negative
  | _ => cases word

end LiveDoc.Yaml
