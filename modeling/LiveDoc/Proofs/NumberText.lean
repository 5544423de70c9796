import LiveDoc.Json.Writer
import LiveDoc.Json.Reader
import LiveDoc.Proofs.Shortest

/-!
# Numbers in JSON text

Every number that is written is read back as it was, whatever follows it in the text, as long as that
does not go on with the number. Integers are written with all their digits, and binary64 numbers with
their shortest digits in one of four layouts.
-/

namespace LiveDoc.Json.Reader

open Decimal (Digits)

/-- Whether a text does not go on with a number. -/
def Ends (rest : List Char) : Prop :=
  startsWithDigit rest = false ∧
    ∀ c, rest.head? = some c → c ≠ '.' ∧ c ≠ 'e' ∧ c ≠ 'E'

theorem ends_nil : Ends [] := ⟨rfl, fun _ head => nomatch head⟩

/-- The value of digits in the reader and in the library. -/
theorem natural_eq (ds : List Char) : natural ds = Nat.ofDigitChars 10 ds 0 := by
  suffices ∀ start, (ds.map fun d => d.toNat - 48).foldl (fun n d => n * 10 + d) start =
      Nat.ofDigitChars 10 ds start from this 0
  intro start
  induction ds generalizing start with
  | nil => rfl
  | cons d ds ih => simp [Nat.ofDigitChars_cons, ih, Nat.mul_comm]

variable {ds rest : List Char}

/-- Digits are taken off the head of a text up to what is no digit. -/
theorem takeWhile_digits (digits : ∀ c ∈ ds, Text.isAsciiDigit c = true)
    (stops : startsWithDigit rest = false) :
    (ds ++ rest).takeWhile Text.isAsciiDigit = ds ∧
      (ds ++ rest).dropWhile Text.isAsciiDigit = rest := by
  rw [List.takeWhile_append_of_pos digits, List.dropWhile_append_of_pos digits]
  cases rest with
  | nil => simp
  | cons c rest =>
    have no : Text.isAsciiDigit c = false := stops
    simp [no]

theorem startsWithDigit_append (present : ds ≠ []) (digits : ∀ c ∈ ds, Text.isAsciiDigit c = true) :
    startsWithDigit (ds ++ rest) = true := by
  obtain ⟨c, ds, rfl⟩ := List.exists_cons_of_ne_nil present
  exact digits c List.mem_cons_self

/-- Proper digits are an integer part. -/
theorem integerPart?_digits (proper : Digits ds) (stops : startsWithDigit rest = false) :
    integerPart? (ds ++ rest) = some (ds, rest) := by
  obtain ⟨c, tail, rfl⟩ := List.exists_cons_of_ne_nil proper.present
  have first : c ≠ '0' := fun zero => proper.leading (by rw [zero]; rfl)
  obtain ⟨taken, left⟩ := takeWhile_digits proper.digit stops
  rw [List.cons_append] at taken left ⊢
  unfold integerPart?
  split
  · rename_i same
    exact absurd (List.cons.inj same).1 first
  · rename_i d cs _ same
    obtain ⟨rfl, rfl⟩ := List.cons.inj same
    rw [if_pos (proper.digit c List.mem_cons_self), taken, left]
  · contradiction

/-- A point and digits are a fraction. -/
theorem fractionPart_digits (present : ds ≠ []) (digits : ∀ c ∈ ds, Text.isAsciiDigit c = true)
    (stops : startsWithDigit rest = false) : fractionPart ('.' :: (ds ++ rest)) = (ds, rest) := by
  obtain ⟨taken, left⟩ := takeWhile_digits digits stops
  simp only [fractionPart, startsWithDigit_append present digits, if_true, taken, left]

/-- Without a point there is no fraction. -/
theorem fractionPart_none (point : rest.head? ≠ some '.') : fractionPart rest = ([], rest) := by
  unfold fractionPart
  split
  · contradiction
  · rfl

/-- A mark, a sign and digits are an exponent. -/
theorem exponentPart_digits (negative : Bool) (present : ds ≠ [])
    (digits : ∀ c ∈ ds, Text.isAsciiDigit c = true) (stops : startsWithDigit rest = false) :
    exponentPart ('e' :: (if negative then '-' else '+') :: (ds ++ rest)) =
      (some (Binary64.signed negative (natural ds)), rest) := by
  obtain ⟨taken, left⟩ := takeWhile_digits digits stops
  cases negative <;>
    simp [exponentPart, Numeral.sign, startsWithDigit_append present digits, taken, left, natural]

/-- Without a mark there is no exponent. -/
theorem exponentPart_none (mark : ∀ c, rest.head? = some c → c ≠ 'e' ∧ c ≠ 'E') :
    exponentPart rest = (none, rest) := by
  unfold exponentPart
  split
  · rename_i c cs
    rw [if_neg (not_or.mpr (mark c rfl))]
  · rfl

/-- A text with the sign of a number at its head. -/
def signText (negative : Bool) (body : List Char) : List Char :=
  if negative then '-' :: body else body

variable {whole part after last body : List Char} {x : Option Int}

/-- A number has its sign before its integer part. -/
theorem number_signText (negative : Bool) (integer : integerPart? body = some (whole, after)) :
    number (signText negative body) =
      let (part, rest) := fractionPart after
      let (e, rest) := exponentPart rest
      if part.isEmpty && e.isNone then
        if Value.maxDigits < whole.length then
          .error ⟨[], .error whole.length, (signText negative body).length⟩
        else .ok (.int (Binary64.signed negative (natural whole)), rest)
      else
        .ok (.float (Binary64.ofDecimal negative (natural (whole ++ part))
          (e.getD 0 - part.length)), rest) := by
  have parts : ∀ s b, (s, b) = (negative, body) → s = negative ∧ b = body := by
    rintro s b ⟨⟩
    exact ⟨rfl, rfl⟩
  unfold number
  split
  rename_i s b same
  have split : s = negative ∧ b = body := by
    cases negative with
    | true => exact parts s b same.symm
    | false =>
      split at same
      · rename_i other
        rw [show body = _ from other] at integer
        contradiction
      · exact parts s b same.symm
  obtain ⟨rfl, rfl⟩ := split
  simp only [integer]

/-- A number with neither a fraction nor an exponent is an integer. -/
theorem number_int (negative : Bool) (integer : integerPart? body = some (whole, after))
    (fraction : fractionPart after = ([], last)) (mark : exponentPart last = (none, rest))
    (few : whole.length ≤ Value.maxDigits) :
    number (signText negative body) =
      .ok (.int (Binary64.signed negative (natural whole)), rest) := by
  rw [number_signText negative integer]
  simp only [fraction, mark, List.isEmpty_nil, Option.isNone_none, Bool.and_self, if_true,
    if_neg (Nat.not_lt.mpr few)]

/-- A number with a fraction or an exponent is a binary64 number. -/
theorem number_float (negative : Bool) (integer : integerPart? body = some (whole, after))
    (fraction : fractionPart after = (part, last)) (mark : exponentPart last = (x, rest))
    (decimal : (part.isEmpty && x.isNone) = false) :
    number (signText negative body) =
      .ok (.float (Binary64.ofDecimal negative (natural (whole ++ part)) (x.getD 0 - part.length)),
        rest) := by
  rw [number_signText negative integer]
  simp only [fraction, mark, decimal, Bool.false_eq_true, if_false]

/-- The text of an integer is its sign and the digits of its magnitude. -/
theorem toString_int (n : Int) :
    (toString n).toList = signText (decide (n < 0)) (Nat.toDigits 10 n.natAbs) := by
  rw [Int.toString_eq_repr, Int.repr_eq_if]
  by_cases negative : n < 0
  · rw [if_neg (by omega), show (-n).toNat = n.natAbs by omega]
    simp [signText, negative]
  · rw [if_pos (by omega), show n.toNat = n.natAbs by omega]
    simp [signText, negative]

theorem signText_append (negative : Bool) (front back : List Char) :
    signText negative front ++ back = signText negative (front ++ back) := by
  cases negative <;> rfl

/-- What is true of the minus sign and of all characters behind a sign is true with the sign. -/
theorem forall_signText {p : Char → Prop} {text : List Char} (negative : Bool)
    (chars : ∀ c ∈ text, p c) (minus : p '-') : ∀ c ∈ signText negative text, p c := by
  cases negative with
  | false => exact chars
  | true =>
    intro c inside
    rcases List.mem_cons.mp inside with rfl | later
    · exact minus
    · exact chars c later

theorem length_toDigits_le {n count : Nat} (some : 0 < count) (bound : n < Nat.pow 10 count) :
    (Nat.toDigits 10 n).length ≤ count :=
  (Nat.length_toDigits_le_iff (by decide) some).mpr bound

theorem signed_natAbs (n : Int) : Binary64.signed (decide (n < 0)) n.natAbs = n := by
  unfold Binary64.signed
  split <;> rename_i sign <;> simp at sign <;> omega

/-- The integer that a text writes is read back unless it has too many digits. -/
theorem number_of_int {n : Int} (few : Value.isOversized n = false) (ends : Ends rest) :
    number ((toString n).toList ++ rest) = .ok (.int n, rest) := by
  have short : (Nat.toDigits 10 n.natAbs).length ≤ Value.maxDigits :=
    length_toDigits_le (by decide) (not_le.mp (of_decide_eq_false few))
  have integer : integerPart? (Nat.toDigits 10 n.natAbs ++ rest) =
      some (Nat.toDigits 10 n.natAbs, rest) := by
    rcases Nat.eq_zero_or_pos n.natAbs with zero | large
    · rw [zero]
      rfl
    · exact integerPart?_digits (Decimal.digits_toDigits large) ends.1
  rw [toString_int, signText_append, number_int _ integer
    (fractionPart_none fun head => (ends.2 '.' head).1 rfl)
    (exponentPart_none fun c head => (ends.2 c head).2) short,
    natural_eq, Nat.ofDigitChars_ten_toDigits, signed_natAbs]

/-- Whether a text, with any sign before it and any end after it, is read as a decimal of a value. -/
def Reads (text : List Char) (value : ℚ) : Prop :=
  ∃ (k : Nat) (t : Int), (k : ℚ) * 10 ^ t = value ∧ ∀ negative rest, Ends rest →
    number (signText negative (text ++ rest)) =
      .ok (.float (Binary64.ofDecimal negative k t), rest)

/-- An integer part, a point and digits are read as all of these digits. -/
theorem reads_point (whole part : List Char) (integer : ∀ rest, startsWithDigit rest = false →
      integerPart? (whole ++ rest) = some (whole, rest))
    (present : part ≠ []) (digits : ∀ c ∈ part, Text.isAsciiDigit c = true) :
    Reads (whole ++ '.' :: part)
      (Nat.ofDigitChars 10 (whole ++ part) 0 * 10 ^ (-(part.length : Int))) := by
  refine ⟨natural (whole ++ part), -(part.length : Int), by rw [natural_eq],
    fun negative rest ends => ?_⟩
  rw [List.append_assoc, List.cons_append, number_float negative
    (integer ('.' :: (part ++ rest)) rfl) (fractionPart_digits present digits ends.1)
    (exponentPart_none fun c head => (ends.2 c head).2) (by simp [present])]
  simp

/-- The text of an exponent is a sign and at least two digits. -/
theorem exponentText_eq (e : Int) :
    ∃ ds, (Decimal.exponentText e).toList = (if decide (e < 0) then '-' else '+') :: ds ∧ ds ≠ [] ∧
      (∀ c ∈ ds, Text.isAsciiDigit c = true) ∧ Nat.ofDigitChars 10 ds 0 = e.natAbs := by
  have digits : ∀ c ∈ Nat.toDigits 10 e.natAbs, Text.isAsciiDigit c = true := fun c inside =>
    Decimal.isAsciiDigit_of_mem inside
  have sign : (if e < 0 then "-" else "+").toList = [if decide (e < 0) then '-' else '+'] := by
    by_cases negative : e < 0 <;> simp [negative]
  unfold Decimal.exponentText
  simp only [String.toList_append, sign, List.singleton_append, List.cons.injEq, true_and]
  refine ⟨_, rfl, ?_⟩
  split
  · refine ⟨by simp, fun c inside => ?_, ?_⟩
    · rw [String.toList_append] at inside
      rcases List.mem_append.mp inside with zero | inside
      · obtain rfl := List.mem_singleton.mp zero
        rfl
      · exact digits c (by simpa using inside)
    · simp [Nat.ofDigitChars_cons]
  · refine ⟨by simp, fun c inside => digits c (by simpa using inside), by simp⟩

/-- Digits, the first of them before a point, and an exponent are read as that decimal. -/
theorem reads_exponent (proper : Digits ds) (e : Int) :
    Reads (ds.take 1 ++ (if (ds.drop 1).isEmpty then [] else '.' :: ds.drop 1) ++
        'e' :: (Decimal.exponentText e).toList)
      (Nat.ofDigitChars 10 ds 0 * 10 ^ (e - (ds.drop 1).length)) := by
  obtain ⟨es, text, present, digits, value⟩ := exponentText_eq e
  obtain ⟨c, part, rfl⟩ := List.exists_cons_of_ne_nil proper.present
  have signed : Binary64.signed (decide (e < 0)) e.natAbs = e := signed_natAbs e
  have single : Digits [c] :=
    ⟨by simp, fun d inside => proper.digit d (by simp at inside; simp [inside]), proper.leading⟩
  refine ⟨natural (c :: part), e - part.length, by simp [natural_eq], fun negative rest ends => ?_⟩
  have mark := exponentPart_digits (decide (e < 0)) present digits ends.1
  rw [natural_eq, value, signed] at mark
  rw [text]
  let tail := 'e' :: (if decide (e < 0) then '-' else '+') :: (es ++ rest)
  cases part with
  | nil =>
    have integer : integerPart? ([c] ++ tail) = some ([c], tail) := integerPart?_digits single rfl
    have fraction : fractionPart tail = ([], tail) := fractionPart_none (by simp [tail])
    simpa [tail] using number_float negative integer fraction mark rfl
  | cons d part =>
    have integer : integerPart? ([c] ++ '.' :: (d :: part ++ tail)) =
        some ([c], '.' :: (d :: part ++ tail)) := integerPart?_digits single rfl
    have fraction : fractionPart ('.' :: (d :: part ++ tail)) = (d :: part, tail) :=
      fractionPart_digits (by simp) (fun x inside => proper.digit x (List.mem_cons_of_mem c inside))
        rfl
    simpa [tail] using number_float negative integer fraction mark rfl

theorem isAsciiDigit_of_mem_replicate {n : Nat} {c : Char} (inside : c ∈ List.replicate n '0') :
    Text.isAsciiDigit c = true :=
  List.eq_of_mem_replicate inside ▸ rfl

/-- Digits after a point, with zeros between. -/
theorem reads_fraction (proper : Digits ds) {last : Int} (below : last + ds.length ≤ 0) :
    Reads (['0'] ++ '.' :: (List.replicate (-(last + ds.length)).toNat '0' ++ ds))
      (Nat.ofDigitChars 10 ds 0 * 10 ^ last) := by
  have text := reads_point ['0'] (List.replicate (-(last + ds.length)).toNat '0' ++ ds)
    (fun _ _ => rfl) (by simp [proper.present]) fun c inside =>
      (List.mem_append.mp inside).elim isAsciiDigit_of_mem_replicate (proper.digit c)
  have length : (List.replicate (-(last + ds.length)).toNat '0' ++ ds).length = -last := by
    simp
    omega
  rw [length, neg_neg] at text
  simpa [Nat.ofDigitChars_append, Nat.ofDigitChars_cons] using text

/-- Digits around a point. -/
theorem reads_inside (proper : Digits ds) {p : Nat} (some : 0 < p) (less : p < ds.length) :
    Reads (ds.take p ++ '.' :: ds.drop p)
      (Nat.ofDigitChars 10 ds 0 * 10 ^ ((p : Int) - ds.length)) := by
  have whole : Digits (ds.take p) := by
    refine ⟨?_, fun c inside => proper.digit c (List.mem_of_mem_take inside), ?_⟩
    · simp [proper.present]
      omega
    · rw [List.head?_take, if_neg (by omega)]
      exact proper.leading
  have text := reads_point (ds.take p) (ds.drop p) (fun _ => integerPart?_digits whole)
    (by simp; omega) fun c inside => proper.digit c (List.mem_of_mem_drop inside)
  have length : -((ds.drop p).length : Int) = p - ds.length := by
    simp
    omega
  rwa [List.take_append_drop, length] at text

/-- Digits before a point, with zeros between. -/
theorem reads_whole (proper : Digits ds) (zeros : Nat) :
    Reads (ds ++ List.replicate zeros '0' ++ '.' :: ['0'])
      (Nat.ofDigitChars 10 ds 0 * 10 ^ (zeros : Int)) := by
  have whole : Digits (ds ++ List.replicate zeros '0') := by
    refine ⟨by simp [proper.present], fun c inside => ?_, ?_⟩
    · exact (List.mem_append.mp inside).elim (proper.digit c) isAsciiDigit_of_mem_replicate
    · rw [List.head?_append_of_ne_nil _ proper.present]
      exact proper.leading
  have text := reads_point (ds ++ List.replicate zeros '0') ['0']
    (fun _ => integerPart?_digits whole) (by simp) fun c inside =>
      List.mem_singleton.mp inside ▸ rfl
  convert text using 1
  simp [Nat.ofDigitChars_append, Nat.ofDigitChars_cons]
  ring

/-- The four layouts of digits write the same number. -/
theorem reads_layout (proper : Digits ds) (last : Int) :
    Reads (Decimal.layout ds last).toList (Nat.ofDigitChars 10 ds 0 * 10 ^ last) := by
  have count : 0 < ds.length := List.length_pos_iff.mpr proper.present
  unfold Decimal.layout
  simp only
  split
  · split
    · rename_i below
      simpa using reads_fraction proper below
    · rename_i above
      split
      · rename_i between
        obtain ⟨p, point⟩ : ∃ p : Nat, last + ds.length = p :=
          ⟨_, (Int.toNat_of_nonneg (by omega)).symm⟩
        obtain rfl : last = p - ds.length := by omega
        rw [point, Int.toNat_natCast]
        simpa using reads_inside proper (by omega) (by omega)
      · rename_i large
        obtain ⟨zeros, rfl⟩ : ∃ zeros : Nat, last = zeros :=
          ⟨_, (Int.toNat_of_nonneg (by omega)).symm⟩
        rw [show ((zeros : Int) + ds.length - ds.length).toNat = zeros by omega]
        simpa using reads_whole proper zeros
  · have text := reads_exponent proper (last + ds.length - 1)
    have power : last + ds.length - 1 - (ds.drop 1).length = last := by
      simp
      omega
    rw [power] at text
    simpa using text

/-- The text of a binary64 number, with its sign. -/
theorem toList_finite (negative : Bool) (m : Nat) (e : Int) :
    (Binary64.finite negative m e).text.toList = signText negative (if m = 0 then "0.0" else
      Decimal.layout (Decimal.shortest m e).1 (Decimal.shortest m e).2).toList := by
  cases negative <;> simp [Binary64.text, signText]

theorem reads_zero : Reads "0.0".toList 0 := by
  have text := reads_point ['0'] ['0'] (fun _ _ => rfl) (by simp)
    (fun c inside => List.mem_singleton.mp inside ▸ rfl)
  simpa [Nat.ofDigitChars_cons] using text

/-- What is written for a finite binary64 number is read as one, whatever its form. -/
theorem exists_float (negative : Bool) (m : Nat) (e : Int) :
    ∃ y, ∀ rest, Ends rest →
      number ((Binary64.finite negative m e).text.toList ++ rest) = .ok (.float y, rest) := by
  have body : ∃ value, Reads (if m = 0 then "0.0" else
      Decimal.layout (Decimal.shortest m e).1 (Decimal.shortest m e).2).toList value := by
    split
    · exact ⟨0, reads_zero⟩
    · exact ⟨_, reads_layout (Decimal.shortest_spec (Nat.pos_of_ne_zero ‹_›)).1 _⟩
  obtain ⟨value, k, t, -, read⟩ := body
  refine ⟨Binary64.ofDecimal negative k t, fun rest ends => ?_⟩
  rw [toList_finite, signText_append]
  exact read negative rest ends

/-- A binary64 number in canonical form is read back from its text. -/
theorem number_of_float {negative : Bool} {m : Nat} {e : Int}
    (canonical : Binary64.Canonical (.finite negative m e)) (ends : Ends rest) :
    number ((Binary64.finite negative m e).text.toList ++ rest) =
      .ok (.float (.finite negative m e), rest) := by
  rw [toList_finite, signText_append]
  rcases Nat.eq_zero_or_pos m with rfl | large
  · obtain ⟨k, t, value, read⟩ := reads_zero
    have nonzero : (10 : ℚ) ^ t ≠ 0 := by positivity
    have none : k = 0 := by simpa [nonzero] using value
    have least : e = Binary64.minExponent := by
      rcases canonical.2.2.2 with least | full
      · exact least
      · simp [Binary64.precision] at full
    rw [if_pos rfl, read negative rest ends, none, least]
    rfl
  · obtain ⟨proper, rounds⟩ := Decimal.shortest_spec (e := e) large
    obtain ⟨k, t, value, read⟩ := reads_layout proper (Decimal.shortest m e).2
    rw [if_neg large.ne', read negative rest ends,
      Decimal.ofDecimal_of_rounds canonical large (value ▸ rounds canonical.1)]

end LiveDoc.Json.Reader
