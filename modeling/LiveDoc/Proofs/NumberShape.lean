import LiveDoc.Proofs.JsonReading

/-!
# The shape of a number

A finite number is written with a fraction or an exponent. A text of this shape is read as the
number that JSON reads, and the digits of an integer as the integer.
-/

namespace LiveDoc.Numeral

open Json.Grammar (IsDigits IsWhole)
open Json.Reader (signText natural startsWithDigit)

variable {c : Char} {ds rest body whole part exponent : List Char}
variable {negative : Bool} {m : Nat} {e : Int}

/-! ## Digits -/

theorem digitIn?_digit (digit : Text.isAsciiDigit c = true) :
    digitIn? 10 c = some (c.toNat - 48) := by
  have bounds : '0' ≤ c ∧ c ≤ '9' := by simpa [Text.isAsciiDigit] using digit
  have range : 48 ≤ c.toNat ∧ c.toNat ≤ 57 := bounds
  have ascii : c.toNat < 128 := by omega
  have small : c.toNat - 48 < 10 := by omega
  simp [digitIn?, digit?, Text.digitValue?, ascii, bounds, small]

/-- Whether a text does not go on with digits or the mark between them. -/
def Stops (rest : List Char) : Prop :=
  ∀ c, rest.head? = some c → c ≠ '_' ∧ digitIn? 10 c = none

theorem stops_nil : Stops [] := nofun

theorem run?_digits (digits : ∀ c ∈ ds, Text.isAsciiDigit c = true) (stops : Stops rest)
    {after : Bool} (some : after = true ∨ ds ≠ []) :
    run? 10 after (ds ++ rest) = .some (ds.map fun d => d.toNat - 48, rest) := by
  induction ds generalizing after with
  | nil =>
    obtain rfl : after = true := some.resolve_right fun absent => absent rfl
    cases rest with
    | nil => rfl
    | cons c rest =>
      obtain ⟨mark, other⟩ := stops c rfl
      simp [run?, mark, other]
  | cons d ds ih =>
    have digit := digits d List.mem_cons_self
    have mark : d ≠ '_' := by
      rintro rfl
      contradiction
    have others := ih (fun c inside => digits c (List.mem_cons_of_mem d inside)) (.inl rfl)
    simp [run?, mark, digitIn?_digit digit, others]

theorem digits_of_digits (proper : IsDigits ds) (stops : Stops rest) :
    digits (ds ++ rest) = (ds.map fun d => d.toNat - 48, rest) := by
  rw [digits, run?_digits proper.digit stops (.inr proper.present)]

theorem isBlank_digit (digit : Text.isAsciiDigit c = true) : Text.isBlank c = false := by
  have bounds : '0' ≤ c ∧ c ≤ '9' := by simpa [Text.isAsciiDigit] using digit
  have range : 48 ≤ c.toNat ∧ c.toNat ≤ 57 := bounds
  unfold Text.isBlank
  simp only [Bool.or_eq_false_iff, Bool.and_eq_false_iff, decide_eq_false_iff_not,
    beq_eq_false_iff_ne]
  omega

theorem sign_digit (digit : Text.isAsciiDigit c = true) :
    sign (c :: rest) = (false, c :: rest) := by
  unfold sign
  split
  · rename_i same
    rw [(List.cons.inj same).1] at digit
    contradiction
  · rename_i same
    rw [(List.cons.inj same).1] at digit
    contradiction
  · rfl

/-- Digits that are not too many are read as the integer that they write. -/
theorem integer_digits (proper : IsDigits ds) (few : ds.length ≤ Value.maxDigits) :
    integer 10 (String.ofList ds) = .ok (natural ds) := by
  have plain : dropMark 10 ds = ds := by
    unfold dropMark
    split
    · rfl
    · rfl
  obtain ⟨c, more, rfl⟩ := List.exists_cons_of_ne_nil proper.present
  have read : run? 10 false (c :: more ++ []) = _ :=
    run?_digits proper.digit stops_nil (.inr (by simp))
  rw [List.append_nil] at read
  unfold integer
  have visible : ∀ d ∈ c :: more, Text.isGap d = false := fun d inside =>
    Text.isGap_of_visible (isBlank_digit (proper.digit d inside))
  rw [String.toList_ofList, Text.strip_of_ends (fun d head => visible d (List.mem_of_head? head))
    (fun d last => visible d (List.mem_of_getLast? last)), sign_digit (proper.digit c List.mem_cons_self)]
  simp only [plain, read]
  rw [if_neg (by simp at few ⊢; omega)]
  rfl

/-! ## Numbers with a fraction or an exponent -/

/-- A point and the digits behind it, if there are any. -/
def fraction (part : List Char) : List Char := if part.isEmpty then [] else '.' :: part

/-- The sign of an exponent as it is written. -/
def mark (negative : Bool) : Char := if negative then '-' else '+'

/-- Whether an unsigned number is written with these digits before and behind the point, and with
this exponent. There is a fraction or an exponent, and an exponent follows a single digit before the
point. -/
structure Shape (body whole part exponent : List Char) : Prop where
  text : body = whole ++ (fraction part ++ exponent)
  proper : IsWhole whole
  digits : ∀ c ∈ part, Text.isAsciiDigit c = true
  form : exponent = [] ∧ part ≠ [] ∨ ∃ d negative ds, whole = [d] ∧ d ≠ '0' ∧
    exponent = 'e' :: mark negative :: ds ∧ IsDigits ds

theorem isDigits_of_whole (proper : IsWhole whole) : IsDigits whole := by
  rcases proper with rfl | digits
  · exact ⟨by simp, fun c inside => List.mem_singleton.mp inside ▸ rfl⟩
  · exact ⟨digits.present, digits.digit⟩

theorem shape_point (proper : IsWhole whole) (present : part ≠ [])
    (digits : ∀ c ∈ part, Text.isAsciiDigit c = true) :
    Shape (whole ++ '.' :: part) whole part [] :=
  ⟨by simp [fraction, present], proper, digits, .inl ⟨rfl, present⟩⟩

theorem digits_take {n : Nat} (proper : Decimal.Digits ds) (some : 0 < n) :
    Decimal.Digits (ds.take n) := by
  refine ⟨?_, fun c inside => proper.digit c (List.mem_of_mem_take inside), ?_⟩
  · simp [proper.present]
    omega
  · rw [List.head?_take, if_neg (by omega)]
    exact proper.leading

theorem digits_zeros (proper : Decimal.Digits ds) (n : Nat) :
    Decimal.Digits (ds ++ List.replicate n '0') := by
  refine ⟨by simp [proper.present], fun c inside => ?_, ?_⟩
  · exact (List.mem_append.mp inside).elim (proper.digit c) Json.Reader.isAsciiDigit_of_mem_replicate
  · rw [List.head?_append_of_ne_nil _ proper.present]
    exact proper.leading

/-- A digit, a point with the digits behind it if there are any, and an exponent. -/
theorem shape_exponent {d : Char} (proper : Decimal.Digits (d :: part)) (power : Int) :
    ∃ exponent, Shape (d :: (fraction part ++ 'e' :: (Decimal.exponentText power).toList)) [d]
      part exponent := by
  obtain ⟨es, text, present, digits, -⟩ := Json.Reader.exponentText_eq power
  have first : d ≠ '0' := fun zero => proper.leading (by rw [zero]; rfl)
  have single : Decimal.Digits [d] :=
    ⟨by simp, fun c inside => proper.digit c (by simp at inside; simp [inside]), by simpa using first⟩
  refine ⟨'e' :: mark (decide (power < 0)) :: es, ?_, .inr single,
    fun c inside => proper.digit c (List.mem_cons_of_mem d inside),
    .inr ⟨d, _, es, rfl, first, rfl, present, digits⟩⟩
  simp [text, mark]

/-- The four layouts of digits. -/
theorem exists_shape (proper : Decimal.Digits ds) (last : Int) :
    ∃ whole part exponent, Shape (Decimal.layout ds last).toList whole part exponent := by
  have count : 0 < ds.length := List.length_pos_iff.mpr proper.present
  unfold Decimal.layout
  simp only
  split
  · split
    · have digits : ∀ c ∈ List.replicate (-(last + ds.length)).toNat '0' ++ ds,
          Text.isAsciiDigit c = true := fun c inside => (List.mem_append.mp inside).elim
        Json.Reader.isAsciiDigit_of_mem_replicate (proper.digit c)
      have shape := shape_point (.inl rfl) (by simp [proper.present]) digits
      exact ⟨_, _, _, by simpa using shape⟩
    · split
      · refine ⟨ds.take (last + ds.length).toNat, ds.drop (last + ds.length).toNat, [], ?_⟩
        have part : ds.drop (last + ds.length).toNat ≠ [] := by
          simp
          omega
        have whole : Decimal.Digits (ds.take (last + ds.length).toNat) :=
          digits_take proper (by omega)
        have shape := shape_point (.inr whole) part fun c inside =>
          proper.digit c (List.mem_of_mem_drop inside)
        simpa using shape
      · have digits : ∀ c ∈ ['0'], Text.isAsciiDigit c = true := fun c inside =>
          List.mem_singleton.mp inside ▸ rfl
        have shape := shape_point
          (.inr (digits_zeros proper (last + ds.length - ds.length).toNat)) (by simp) digits
        exact ⟨_, _, _, by simpa using shape⟩
  · obtain ⟨d, part, rfl⟩ := List.exists_cons_of_ne_nil proper.present
    obtain ⟨exponent, shape⟩ := shape_exponent proper (last + (d :: part).length - 1)
    exact ⟨_, _, _, by simpa [fraction] using shape⟩

/-- A number begins with a digit. -/
theorem Shape.exists_first (shape : Shape body whole part exponent) :
    ∃ c more, body = c :: more ∧ Text.isAsciiDigit c = true := by
  have digits := isDigits_of_whole shape.proper
  obtain ⟨c, more, rfl⟩ := List.exists_cons_of_ne_nil digits.present
  exact ⟨c, _, shape.text, digits.digit c List.mem_cons_self⟩

/-- The characters of a number. -/
def isNumberChar (c : Char) : Bool := Text.isAsciiDigit c || "+-.e".toList.contains c

/-- What is true of digits and of the marks of a number is true of all its characters. -/
theorem of_isNumberChar {p : Char → Bool} (digits : ∀ d, Text.isAsciiDigit d = true → p d = true)
    (marks : "+-.e".toList.all p = true) (number : isNumberChar c = true) : p c = true := by
  rcases Bool.or_eq_true_iff.mp number with digit | mark
  · exact digits c digit
  · exact List.all_eq_true.mp marks c (List.contains_iff_mem.mp mark)

theorem isNumberChar_digit (digit : Text.isAsciiDigit c = true) : isNumberChar c = true := by
  rw [isNumberChar, digit, Bool.true_or]

theorem Shape.chars (shape : Shape body whole part exponent) :
    ∀ c ∈ body, isNumberChar c = true := by
  intro c inside
  rw [shape.text, List.mem_append, List.mem_append] at inside
  rcases inside with inside | inside | inside
  · exact isNumberChar_digit ((isDigits_of_whole shape.proper).digit c inside)
  · unfold fraction at inside
    split at inside
    · contradiction
    · rcases List.mem_cons.mp inside with rfl | inside
      · rfl
      · exact isNumberChar_digit (shape.digits c inside)
  · rcases shape.form with ⟨rfl, -⟩ | ⟨d, negative, ds, -, -, rfl, digits⟩
    · contradiction
    · rcases List.mem_cons.mp inside with rfl | inside
      · rfl
      · rcases List.mem_cons.mp inside with rfl | inside
        · cases negative <;> rfl
        · exact isNumberChar_digit (digits.digit c inside)

/-- The value of an exponent. -/
def exponentValue (exponent : List Char) : Int := (Json.Reader.exponentPart exponent).1.getD 0

theorem Shape.stops (shape : Shape body whole part exponent) : Stops exponent := by
  rcases shape.form with ⟨rfl, -⟩ | ⟨d, negative, ds, -, -, rfl, -⟩
  · exact stops_nil
  · intro c head
    cases head
    exact ⟨by decide, by decide⟩

theorem stops_fraction (stops : Stops exponent) : Stops (fraction part ++ exponent) := by
  unfold fraction
  split
  · exact stops
  · intro c head
    cases head
    exact ⟨by decide, by decide⟩

theorem exponent_of_shape (shape : Shape body whole part exponent) :
    Numeral.exponent exponent = (exponentValue exponent, []) := by
  rcases shape.form with ⟨rfl, -⟩ | ⟨d, negative, ds, -, -, rfl, digits⟩
  · rfl
  · have read := Json.Reader.exponentPart_digits negative digits.present digits.digit
      (show startsWithDigit [] = false from rfl)
    have taken := digits_of_digits digits stops_nil
    obtain ⟨c, more, rfl⟩ := List.exists_cons_of_ne_nil digits.present
    rw [List.append_nil] at read taken
    have read : Json.Reader.exponentPart ('e' :: mark negative :: c :: more) =
      (some (Binary64.signed negative (natural (c :: more))), []) := read
    have signed : sign (mark negative :: c :: more) = (negative, c :: more) := by
      cases negative <;> rfl
    rw [exponentValue, read]
    simp only [Numeral.exponent, true_or, if_true, signed, taken, List.map_cons, Option.getD_some]
    rfl

theorem toLower_digit (digit : Text.isAsciiDigit c = true) : c.toLower = c := by
  have bounds : '0' ≤ c ∧ c ≤ '9' := by simpa [Text.isAsciiDigit] using digit
  have range : 48 ≤ c.toNat ∧ c.toNat ≤ 57 := bounds
  unfold Char.toLower
  rw [dif_neg]
  rintro ⟨large, -⟩
  have large : 65 ≤ c.toNat := large
  omega

/-- No number begins like a word for one that is not finite. -/
theorem special?_digit (digit : Text.isAsciiDigit c = true) (negative : Bool) :
    special? negative (c :: rest) = none := by
  have lower := toLower_digit digit
  have other : ∀ w : String, w.toList.head?.all (!Text.isAsciiDigit ·) = true →
      String.ofList ((c :: rest).map Char.toLower) ≠ w := by
    rintro w starts rfl
    simp [lower, digit] at starts
  unfold special?
  simp only [other "inf" (by decide), other "infinity" (by decide), other "nan" (by decide),
    or_self, if_false]

/-- What stands behind the whole digits: a point with more digits, or an exponent. -/
theorem behind_whole (shape : Shape body whole part exponent) :
    (fraction part ++ exponent = '.' :: (part ++ exponent) ∧
      digits (part ++ exponent) = (part.map fun d => d.toNat - 48, exponent)) ∨
    (part = [] ∧ ∃ more, exponent = 'e' :: more) := by
  cases part with
  | nil =>
    rcases shape.form with ⟨-, present⟩ | ⟨d, negative, ds, -, -, rfl, -⟩
    · contradiction
    · exact .inr ⟨rfl, _, rfl⟩
  | cons d part =>
    have proper : IsDigits (d :: part) := ⟨by simp, shape.digits⟩
    exact .inl ⟨rfl, digits_of_digits proper (shape.stops)⟩

/-- An unsigned number with a fraction or an exponent is read as the decimal that it writes. -/
theorem float_of_shape (shape : Shape body whole part exponent) :
    Numeral.float (String.ofList body) =
      .ok (Binary64.ofDecimal false (natural (whole ++ part))
        (exponentValue exponent - part.length)) := by
  have proper := isDigits_of_whole shape.proper
  obtain ⟨c, more, begins, digit⟩ := shape.exists_first
  have visible : ∀ d ∈ body, Text.isGap d = false := by
    intro d inside
    have apart : (!Text.isBlank d) = true := of_isNumberChar (p := (!Text.isBlank ·))
      (fun d digit => by rw [isBlank_digit digit]; rfl) (by decide) (shape.chars d inside)
    exact Text.isGap_of_visible (by simpa using apart)
  have first : digits body = (whole.map fun d => d.toNat - 48, fraction part ++ exponent) := by
    rw [shape.text]
    exact digits_of_digits proper (stops_fraction (shape.stops))
  have signed : sign body = (false, body) := by
    rw [begins]
    exact sign_digit digit
  have special : special? false body = none := by
    rw [begins]
    exact special?_digit digit false
  have present : (whole.map fun d => d.toNat - 48).isEmpty = false := by
    simpa using proper.present
  have last := exponent_of_shape shape
  have value : natural (whole ++ part) = value 10 (whole.map (fun d => d.toNat - 48) ++
    part.map fun d => d.toNat - 48) := by rw [natural, List.map_append]
  unfold Numeral.float
  rw [String.toList_ofList, Text.strip_of_ends (fun d head => visible d (List.mem_of_head? head))
    (fun d last => visible d (List.mem_of_getLast? last)), signed]
  simp only [special, first]
  rcases behind_whole shape with ⟨point, behind⟩ | ⟨rfl, more, rfl⟩
  · rw [point]
    simp only [behind, present, Bool.false_and, Bool.false_eq_true, if_false, last,
      List.isEmpty_nil, Bool.not_false, Bool.and_self, if_true, List.length_map, value]
  · have split : fraction [] ++ 'e' :: more = 'e' :: more := rfl
    rw [split]
    simp [present, last, natural]

/-- The same decimal with a minus sign is the negated number. -/
theorem neg_ofDecimal (k : Nat) (e : Int) :
    (Binary64.ofDecimal false k e).neg = Binary64.ofDecimal true k e := by
  have ratio : ∀ n d, (Binary64.ofRatio false n d).neg = Binary64.ofRatio true n d := by
    intro n d
    unfold Binary64.ofRatio
    simp only
    repeat' split
    all_goals rfl
  unfold Binary64.ofDecimal
  simp only
  repeat' split
  all_goals first | rfl | exact ratio _ _

/-- JSON reads the number in the same way. -/
theorem number_of_shape (shape : Shape body whole part exponent) (negative : Bool) :
    Json.Reader.number (signText negative body) = .ok (.float (Binary64.ofDecimal negative
      (natural (whole ++ part)) (exponentValue exponent - part.length)), []) := by
  have stops : startsWithDigit exponent = false ∧ exponent.head? ≠ some '.' := by
    rcases shape.form with ⟨rfl, -⟩ | ⟨d, negative, ds, -, -, rfl, -⟩
    · exact ⟨rfl, by simp⟩
    · exact ⟨rfl, by simp⟩
  have ends : ∃ x, Json.Reader.exponentPart exponent = (x, []) ∧
      (part.isEmpty && x.isNone) = false := by
    rcases shape.form with ⟨rfl, present⟩ | ⟨d, negative, ds, -, -, rfl, digits⟩
    · exact ⟨none, rfl, by simp [present]⟩
    · have read := Json.Reader.exponentPart_digits negative digits.present digits.digit
        (show startsWithDigit [] = false from rfl)
      rw [List.append_nil] at read
      exact ⟨_, read, by simp⟩
  have first : startsWithDigit (fraction part ++ exponent) = false := by
    unfold fraction
    split
    · exact stops.1
    · rfl
  have second : Json.Reader.fractionPart (fraction part ++ exponent) = (part, exponent) := by
    cases part with
    | nil => exact Json.Reader.fractionPart_none stops.2
    | cons d part => exact Json.Reader.fractionPart_digits (by simp) shape.digits stops.1
  obtain ⟨x, third, decimal⟩ := ends
  have integer : Json.Reader.integerPart? body = some (whole, fraction part ++ exponent) := by
    rw [shape.text]
    exact Json.Grammar.integerPart?_of_whole shape.proper first
  have read := Json.Reader.number_float negative integer second third decimal
  rw [read, exponentValue, third]

/-- The text of a finite number: its sign, and an unsigned number that is read as its magnitude. -/
theorem exists_body (canonical : Binary64.Canonical (.finite negative m e)) :
    ∃ body whole part exponent y, Shape body whole part exponent ∧
      (Binary64.finite negative m e).text.toList = signText negative body ∧
      Numeral.float (String.ofList body) = .ok y ∧
      (if negative then y.neg else y) = .finite negative m e := by
  have written : ∃ whole part exponent, Shape (if m = 0 then "0.0" else
      Decimal.layout (Decimal.shortest m e).1 (Decimal.shortest m e).2).toList
        whole part exponent := by
    split
    · exact ⟨['0'], ['0'], [], shape_point (.inl rfl) (by simp) fun c inside =>
        List.mem_singleton.mp inside ▸ rfl⟩
    · exact exists_shape (Decimal.shortest_spec (Nat.pos_of_ne_zero ‹_›)).1 _
  obtain ⟨whole, part, exponent, shape⟩ := written
  have ends : Json.Reader.Ends [] := ⟨rfl, nofun⟩
  have read := Json.Reader.number_of_float canonical ends
  rw [List.append_nil, Json.Reader.toList_finite, number_of_shape shape negative] at read
  have same : Binary64.ofDecimal negative (natural (whole ++ part))
      (exponentValue exponent - part.length) = .finite negative m e := by
    simpa using read
  refine ⟨_, whole, part, exponent, _, shape, Json.Reader.toList_finite negative m e,
    float_of_shape shape, ?_⟩
  cases negative with
  | true => rw [if_pos rfl, neg_ofDecimal, same]
  | false => rw [if_neg (by decide), same]

end LiveDoc.Numeral
