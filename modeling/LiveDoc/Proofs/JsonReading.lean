import LiveDoc.Proofs.JsonGrammar

/-!
# What the reader accepts

Every text that the rules of the grammar derive is read, as long as the integers in it have no more
digits than are converted. Together with the other direction: the reader reads exactly these texts.
-/

namespace LiveDoc.Json.Grammar

open Reader (Blank Ends Opens Plain signText isSpace skip)

variable {fits : Nat → Prop} {cs rest : List Char}

/-! ## Strings -/

theorem hexDigit?_of_isHexDigit {c : Char} (digit : isHexDigit c = true) :
    ∃ n, Reader.hexDigit? c = some n := by
  simp only [isHexDigit, Bool.or_eq_true, Bool.and_eq_true, decide_eq_true_eq] at digit
  unfold Reader.hexDigit?
  repeat' split
  all_goals first | exact ⟨_, rfl⟩ | simp_all

/-- Four hexadecimal digits are a code. -/
theorem hex4?_of_digits {ds : List Char} (four : ds.length = 4)
    (digits : ∀ d ∈ ds, isHexDigit d = true) (cs : List Char) :
    ∃ n, Reader.hex4? (ds ++ cs) = some n := by
  obtain ⟨a, b, c, d, rfl⟩ := List.length_eq_four.mp four
  simp only [List.mem_cons, List.not_mem_nil, or_false, forall_eq_or_imp, forall_eq] at digits
  obtain ⟨first, second, third, fourth⟩ := digits
  obtain ⟨w, first⟩ := hexDigit?_of_isHexDigit first
  obtain ⟨x, second⟩ := hexDigit?_of_isHexDigit second
  obtain ⟨y, third⟩ := hexDigit?_of_isHexDigit third
  obtain ⟨z, fourth⟩ := hexDigit?_of_isHexDigit fourth
  exact ⟨_, by simp [Reader.hex4?, first, second, third, fourth]; rfl⟩

theorem shortEscape?_of_mem {c : Char} (short : c ∈ escapes) :
    ∃ d, Reader.shortEscape? c = some d := by
  simp only [escapes, List.mem_cons, List.not_mem_nil, or_false] at short
  rcases short with rfl | rfl | rfl | rfl | rfl | rfl | rfl | rfl <;> exact ⟨_, rfl⟩

/-- A string goes on at least to its closing quote. -/
theorem Chars.ne_nil (chars : Chars cs rest) : cs ≠ [] := by
  cases chars <;> simp

/-- Behind a code mark in a string there are four digits and more. -/
theorem Chars.of_code (chars : Chars ('\\' :: 'u' :: cs) rest) :
    ¬ cs.length ≤ 4 ∧ (∃ n, Reader.hex4? cs = some n) ∧ Chars (cs.drop 4) rest := by
  cases chars with
  | plain _ slash => exact absurd rfl slash
  | escape letter => exact absurd letter (by decide)
  | @code ds cs _ four digits chars =>
    refine ⟨?_, hex4?_of_digits four digits cs, by rwa [List.drop_left' four]⟩
    have := List.length_pos_iff.mpr chars.ne_nil
    simp
    omega

/-- Behind an escaped letter a string goes on. -/
theorem Chars.of_escape {c : Char} (chars : Chars ('\\' :: c :: cs) rest) (letter : c ≠ 'u') :
    c ∈ escapes ∧ Chars cs rest := by
  cases chars with
  | plain _ slash => exact absurd rfl slash
  | escape short chars => exact ⟨short, chars⟩
  | code => exact absurd rfl letter

/-- Behind a plain character a string goes on. -/
theorem Chars.of_plain {c : Char} (chars : Chars (c :: cs) rest) (quote : c ≠ '"')
    (slash : c ≠ '\\') : 32 ≤ c.toNat ∧ Chars cs rest := by
  cases chars with
  | close => exact absurd rfl quote
  | plain _ _ control chars => exact ⟨control, chars⟩
  | escape => exact absurd rfl slash
  | code => exact absurd rfl slash

/-- Behind a high surrogate there is either a code or something else that a string goes on with. -/
theorem Chars.lowHalf (chars : Chars cs rest) :
    Reader.lowHalf cs = .ok none ∨ ∃ m, Reader.lowHalf cs = .ok (some m) ∧ Chars (cs.drop 6) rest := by
  unfold Reader.lowHalf
  split
  · obtain ⟨long, ⟨m, code⟩, later⟩ := chars.of_code
    rw [if_neg long, code]
    exact .inr ⟨m, rfl, later⟩
  · exact .inl rfl

theorem map_of_ok {α β : Type} {r : Except Stop α} {f : α → β} {a : α} (ok : r = .ok a) :
    r.map f = .ok (f a) := by
  rw [ok]
  rfl

theorem length_behind_code {fuel : Nat} (enough : ('\\' :: 'u' :: cs).length ≤ fuel + 1) :
    (cs.drop 4).length ≤ fuel := by
  simp at enough ⊢
  omega

/-- A string is read up to its closing quote. -/
theorem string_of_chars (opening : Nat) {fuel : Nat} (chars : Chars cs rest) (enough : cs.length ≤ fuel) :
    ∃ s, Reader.string opening fuel cs = .ok (s, rest) := by
  fun_induction Reader.string opening fuel cs with
  | case1 => exact absurd (List.length_eq_zero_iff.mp (Nat.le_zero.mp enough)) chars.ne_nil
  | case2 => exact absurd rfl chars.ne_nil
  | case3 =>
    cases chars with
    | close => exact ⟨[], rfl⟩
    | plain quote => exact absurd rfl quote
  | case4 =>
    cases chars with
    | plain _ slash => exact absurd rfl slash
  | case5 fuel cs short => exact absurd short chars.of_code.1
  | case6 fuel cs _ none =>
    obtain ⟨-, ⟨n, code⟩, -⟩ := chars.of_code
    exact absurd (code.symm.trans none) (by simp)
  | case7 fuel cs _ n code after _ _ broken =>
    rcases chars.of_code.2.2.lowHalf with low | ⟨m, low, -⟩
    all_goals exact absurd (low.symm.trans broken) (by simp)
  | case8 fuel cs _ n code after _ m low =>
    rename_i ih
    rcases chars.of_code.2.2.lowHalf with none | ⟨-, -, later⟩
    · exact absurd (none.symm.trans low) (by simp)
    · have shorter := (cs.drop 4).drop_suffix 6 |>.length_le
      obtain ⟨s, read⟩ := ih later (shorter.trans (length_behind_code enough))
      exact ⟨_, map_of_ok read⟩
  | case9 | case10 | case11 =>
    rename_i ih
    obtain ⟨s, read⟩ := ih chars.of_code.2.2 (length_behind_code enough)
    exact ⟨_, map_of_ok read⟩
  | case12 fuel c cs letter d short _ ih =>
    obtain ⟨s, read⟩ := ih (chars.of_escape letter).2 (by simp at enough; omega)
    exact ⟨_, map_of_ok read⟩
  | case13 fuel c cs letter none =>
    obtain ⟨d, short⟩ := shortEscape?_of_mem (chars.of_escape letter).1
    exact absurd (short.symm.trans none) (by simp)
  | case14 fuel c cs quote slash control =>
    exact absurd control (Nat.not_lt.mpr (chars.of_plain quote slash).1)
  | case15 fuel c cs quote slash _ ih =>
    obtain ⟨s, read⟩ := ih (chars.of_plain quote slash).2 (by simpa using enough)
    exact ⟨_, map_of_ok read⟩

/-! ## Numbers -/

theorem IsDigits.starts {ds : List Char} (digits : IsDigits ds) (rest : List Char) :
    Reader.startsWithDigit (ds ++ rest) = true :=
  Reader.startsWithDigit_append digits.present digits.digit

/-- An integer part is read up to its last digit. -/
theorem integerPart?_of_whole {whole : List Char} (proper : IsWhole whole)
    (stops : Reader.startsWithDigit rest = false) :
    Reader.integerPart? (whole ++ rest) = some (whole, rest) := by
  rcases proper with rfl | digits
  · rfl
  · exact Reader.integerPart?_digits digits stops

/-- A fraction is read up to its last digit. -/
theorem fractionPart_of_fraction {fraction : List Char} (fractional : IsFraction fraction) :
    ∃ part, (part = [] ↔ fraction = []) ∧ ∀ rest, Reader.startsWithDigit rest = false →
      rest.head? ≠ some '.' → Reader.fractionPart (fraction ++ rest) = (part, rest) := by
  rcases fractional with rfl | ⟨ds, rfl, digits⟩
  · exact ⟨[], by simp, fun rest _ point => Reader.fractionPart_none point⟩
  · exact ⟨ds, by simp [digits.present], fun rest stops _ =>
      Reader.fractionPart_digits digits.present digits.digit stops⟩

/-- A sign before digits is taken off. -/
theorem sign_of_digits {sign ds : List Char} (signs : sign = [] ∨ sign = ['+'] ∨ sign = ['-'])
    (digits : IsDigits ds) :
    ∃ negative, ∀ rest, Numeral.sign (sign ++ (ds ++ rest)) = (negative, ds ++ rest) := by
  rcases signs with rfl | rfl | rfl
  · obtain ⟨d, tail, rfl⟩ := List.exists_cons_of_ne_nil digits.present
    have digit := digits.digit d List.mem_cons_self
    refine ⟨false, fun rest => ?_⟩
    unfold Numeral.sign
    split
    · rename_i same
      exact absurd digit (by rw [(List.cons.inj same).1]; decide)
    · rename_i same
      exact absurd digit (by rw [(List.cons.inj same).1]; decide)
    · rfl
  · exact ⟨false, fun rest => rfl⟩
  · exact ⟨true, fun rest => rfl⟩

/-- An exponent is read up to its last digit. -/
theorem exponentPart_of_exponent {exponent : List Char} (marked : IsExponent exponent) :
    ∃ e, (e = none ↔ exponent = []) ∧ ∀ rest, Ends rest →
      Reader.exponentPart (exponent ++ rest) = (e, rest) := by
  rcases marked with rfl | ⟨mark, sign, ds, rfl, either, signs, digits⟩
  · exact ⟨none, by simp, fun rest ends => Reader.exponentPart_none fun c head => (ends.2 c head).2⟩
  · obtain ⟨negative, signed⟩ := sign_of_digits signs digits
    refine ⟨some (Binary64.signed negative (Reader.natural ds)), by simp, fun rest ends => ?_⟩
    obtain ⟨taken, left⟩ := Reader.takeWhile_digits digits.digit ends.1
    rw [List.cons_append, List.append_assoc, Reader.exponentPart, if_pos either]
    simp only [signed, Reader.startsWithDigit_append digits.present digits.digit, if_true, taken,
      left]
    rfl

/-- An exponent does not go on with an integer part or a fraction. -/
theorem exponent_stops {exponent : List Char} (marked : IsExponent exponent) (ends : Ends rest) :
    Reader.startsWithDigit (exponent ++ rest) = false ∧ (exponent ++ rest).head? ≠ some '.' := by
  rcases marked with rfl | ⟨mark, sign, ds, rfl, rfl | rfl, -⟩
  · exact ⟨ends.1, fun head => (ends.2 '.' head).1 rfl⟩
  · exact ⟨rfl, by simp⟩
  · exact ⟨rfl, by simp⟩

/-- A fraction does not go on with an integer part. -/
theorem fraction_stops {fraction : List Char} (fractional : IsFraction fraction)
    (stops : Reader.startsWithDigit rest = false) :
    Reader.startsWithDigit (fraction ++ rest) = false := by
  rcases fractional with rfl | ⟨ds, rfl, -⟩
  · exact stops
  · rfl

/-- A number is read up to its end. -/
theorem number_reads (number : IsNumber Convertible cs) :
    ∃ t, ∀ rest, Ends rest → Reader.number (cs ++ rest) = .ok (t, rest) := by
  cases number with
  | @integer negative whole proper few =>
    refine ⟨.int (Binary64.signed negative (Reader.natural whole)), fun rest ends => ?_⟩
    rw [Reader.signText_append]
    exact Reader.number_int negative (integerPart?_of_whole proper ends.1)
      (Reader.fractionPart_none fun head => (ends.2 '.' head).1 rfl)
      (Reader.exponentPart_none fun c head => (ends.2 c head).2) few
  | @decimal negative whole fraction exponent proper fractional marked more =>
    obtain ⟨part, noPart, fractionRead⟩ := fractionPart_of_fraction fractional
    obtain ⟨e, noMark, exponentRead⟩ := exponentPart_of_exponent marked
    refine ⟨.float (Binary64.ofDecimal negative (Reader.natural (whole ++ part))
      (e.getD 0 - part.length)), fun rest ends => ?_⟩
    obtain ⟨stops, point⟩ := exponent_stops marked ends
    rw [Reader.signText_append, List.append_assoc, List.append_assoc]
    refine Reader.number_float negative
      (integerPart?_of_whole proper (fraction_stops fractional stops))
      (fractionRead _ stops point) (exponentRead rest ends) ?_
    refine Bool.eq_false_iff.mpr fun none => more ?_
    simp only [Bool.and_eq_true, List.isEmpty_iff, Option.isNone_iff_eq_none] at none
    rw [noPart.mp none.1, noMark.mp none.2]
    rfl

/-! ## Values -/

/-- What derives as a value begins as one. -/
theorem ValueText.opens (value : ValueText Convertible cs rest) : Opens cs := by
  cases value with
  | text => exact ⟨'"', _, rfl, by decide⟩
  | emptyArray => exact ⟨'[', _, rfl, by decide⟩
  | array => exact ⟨'[', _, rfl, by decide⟩
  | emptyObject => exact ⟨'\x7b', _, rfl, by decide⟩
  | object => exact ⟨'\x7b', _, rfl, by decide⟩
  | word known =>
    simp only [words, List.mem_cons, List.not_mem_nil, or_false] at known
    rcases known with rfl | rfl | rfl | rfl | rfl | rfl <;> exact ⟨_, _, rfl, by decide⟩
  | number number =>
    obtain ⟨t, reads⟩ := number_reads number
    exact Reader.opens_append (Reader.spells_number reads).opens _

theorem ItemsText.opens (items : ItemsText Convertible cs rest) : Opens cs := by
  cases items with
  | last value => exact value.opens
  | more value => exact value.opens

theorem MembersText.opens (members : MembersText Convertible cs rest) : Opens cs := by
  cases members <;> exact ⟨'"', _, rfl, by decide⟩

/-- Spaces are skipped up to a mark. -/
theorem skip_to_mark {c : Char} (spaces : Spaces cs (c :: rest)) (mark : isSpace c = false) :
    skip cs = c :: rest := by
  obtain ⟨gap, blank, rfl⟩ := spaces
  exact Reader.skip_mark blank mark

/-- Spaces are skipped up to a value. -/
theorem skip_to_value (spaces : Spaces cs rest) (opens : Opens rest) : skip cs = rest := by
  obtain ⟨gap, blank, rfl⟩ := spaces
  exact Reader.skip_blank blank opens

/-- Spaces are skipped up to the end. -/
theorem skip_to_end (spaces : Spaces cs []) : skip cs = [] := by
  obtain ⟨gap, blank, rfl⟩ := spaces
  exact List.dropWhile_append_of_pos blank

theorem ends_spaces {c : Char} (spaces : Spaces cs (c :: rest)) (ends : Ends (c :: rest)) :
    Ends cs := by
  obtain ⟨gap, blank, rfl⟩ := spaces
  exact Reader.ends_blank blank ends

/-- A word is one of the constants. -/
theorem constant_of_word {w : String} (known : w ∈ words) :
    ∃ t, (w.toList, t) ∈ Reader.constants := by
  simp only [words, List.mem_cons, List.not_mem_nil, or_false] at known
  rcases known with rfl | rfl | rfl | rfl | rfl | rfl <;>
    exact ⟨_, by simp [Reader.constants]; rfl⟩

theorem Spaces.length_le (spaces : Spaces cs rest) : rest.length ≤ cs.length := by
  obtain ⟨gap, -, rfl⟩ := spaces
  simp

theorem Chars.length_lt (chars : Chars cs rest) : rest.length < cs.length := by
  induction chars with
  | close => simp
  | plain => simp; omega
  | escape => simp; omega
  | code => simp; omega

/-- The value of a member is shorter than the text from its key on. -/
theorem item_length_lt {behind before item : List Char} (chars : Chars cs behind)
    (colon : Spaces behind (':' :: before)) (gap : Spaces before item) :
    item.length + 1 < cs.length := by
  have name := chars.length_lt
  have mark := colon.length_le
  have value := gap.length_le
  simp only [List.length_cons] at mark
  omega

/-- What follows a comma is shorter than the text before it. -/
theorem others_length_lt {after gap others : List Char} (comma : Spaces after (',' :: gap))
    (spaces : Spaces gap others) : others.length < after.length := by
  have mark := comma.length_le
  have next := spaces.length_le
  simp only [List.length_cons] at mark
  omega

theorem IsWhole.length_pos {whole : List Char} (proper : IsWhole whole) : 0 < whole.length := by
  rcases proper with rfl | digits
  · exact Nat.one_pos
  · exact List.length_pos_iff.mpr digits.present

theorem length_signText (negative : Bool) (cs : List Char) :
    cs.length ≤ (signText negative cs).length := by
  cases negative <;> simp [signText]

theorem IsNumber.length_pos (number : IsNumber fits cs) : 0 < cs.length := by
  cases number with
  | integer negative proper => exact proper.length_pos.trans_le (length_signText negative _)
  | decimal negative proper =>
    refine Nat.lt_of_lt_of_le ?_ (length_signText negative _)
    simp [proper.length_pos]

mutual

/-- A value takes up text. -/
theorem ValueText.length_lt {cs rest : List Char} :
    ValueText fits cs rest → rest.length < cs.length
  | .text chars => by simpa using Nat.lt_succ_of_lt chars.length_lt
  | .word known => by
    obtain ⟨t, constant⟩ := constant_of_word known
    obtain ⟨c, tail, same, -⟩ := (Reader.spells_constant constant).opens
    rw [List.length_append, same, List.length_cons]
    omega
  | .number number => by
    have := number.length_pos
    rw [List.length_append]
    omega
  | .emptyArray spaces | .emptyObject spaces => by
    have := spaces.length_le
    grind
  | .array spaces items => by
    have := spaces.length_le
    have := items.length_lt
    grind
  | .object spaces members => by
    have := spaces.length_le
    have := members.length_lt
    grind

theorem ItemsText.length_lt {cs rest : List Char} :
    ItemsText fits cs rest → rest.length < cs.length
  | .last value close => by
    have := value.length_lt
    have := close.length_le
    grind
  | .more value comma gap items => by
    have := value.length_lt
    have := others_length_lt comma gap
    have := items.length_lt
    omega

theorem MembersText.length_lt {cs rest : List Char} :
    MembersText fits cs rest → rest.length < cs.length
  | .last chars colon before value close => by
    have := item_length_lt chars colon before
    have := value.length_lt
    have := close.length_le
    grind
  | .more chars colon before value comma gap members => by
    have := item_length_lt chars colon before
    have := value.length_lt
    have := others_length_lt comma gap
    have := members.length_lt
    grind

end

variable {spell : Spelling}

mutual

/-- Enough fuel reads a value that is followed by what does not go on with a number. -/
theorem value_of_text {cs rest : List Char} (fuel : Nat) (enough : 2 * cs.length ≤ fuel)
    (ends : Ends rest) :
    ValueText Convertible cs rest → ∃ t, Reader.value spell fuel cs = .ok (t, rest)
  | @ValueText.text _ inner _ chars => by
    obtain ⟨fuel, rfl⟩ := Nat.exists_eq_add_one_of_ne_zero (show fuel ≠ 0 by grind)
    obtain ⟨s, string⟩ := string_of_chars ('"' :: inner).length chars le_rfl
    exact ⟨.text (spell s), by simp only [Reader.value, string]; rfl⟩
  | .word known => by
    obtain ⟨t, constant⟩ := constant_of_word known
    refine ⟨t, (Reader.value_constant constant fuel rest ?_).2⟩
    simp at enough ⊢
    omega
  | .number number => by
    obtain ⟨t, reads⟩ := number_reads number
    refine ⟨t, (Reader.value_number reads).2 spell fuel rest ?_ ends⟩
    simp at enough
    omega
  | .emptyArray spaces => by
    obtain ⟨fuel, rfl⟩ := Nat.exists_eq_add_one_of_ne_zero (show fuel ≠ 0 by grind)
    exact ⟨.array [], by simp only [Reader.value, skip_to_mark spaces (by decide)]⟩
  | .array spaces items => by
    obtain ⟨fuel, rfl⟩ := Nat.exists_eq_add_one_of_ne_zero (show fuel ≠ 0 by grind)
    have shorter := spaces.length_le
    obtain ⟨ts, read⟩ := items_of_text fuel (by grind) items
    obtain ⟨c, tail, rfl, -, bracket, -⟩ := items.opens
    refine ⟨.array ts, ?_⟩
    simp only [Reader.value, skip_to_value spaces items.opens]
    split
    · rename_i same
      exact absurd (List.cons.inj same).1 bracket
    · simp only [bind, Except.bind, read]
  | .emptyObject spaces => by
    obtain ⟨fuel, rfl⟩ := Nat.exists_eq_add_one_of_ne_zero (show fuel ≠ 0 by grind)
    exact ⟨.object [], by simp only [Reader.value, skip_to_mark spaces (by decide)]⟩
  | .object spaces members => by
    obtain ⟨fuel, rfl⟩ := Nat.exists_eq_add_one_of_ne_zero (show fuel ≠ 0 by grind)
    have shorter := spaces.length_le
    obtain ⟨ms, read⟩ := members_of_text fuel (by grind) members
    obtain ⟨c, tail, rfl, -, -, brace, -⟩ := members.opens
    refine ⟨.object ms, ?_⟩
    simp only [Reader.value, skip_to_value spaces members.opens]
    split
    · rename_i same
      exact absurd (List.cons.inj same).1 brace
    · simp only [bind, Except.bind, read]

/-- Enough fuel reads the items of an array up to its bracket. -/
theorem items_of_text {cs rest : List Char} (fuel : Nat) (enough : 2 * cs.length < fuel) :
    ItemsText Convertible cs rest → ∃ ts, Reader.items spell fuel cs = .ok (ts, rest)
  | .last value close => by
    obtain ⟨fuel, rfl⟩ := Nat.exists_eq_add_one_of_ne_zero (Nat.ne_zero_of_lt enough)
    obtain ⟨t, item⟩ := value_of_text fuel (by omega) (ends_spaces close Reader.ends_bracket) value
    refine ⟨[t], ?_⟩
    simp only [Reader.items, item, bind, Except.bind, skip_to_mark close (by decide)]
  | .more value comma gap items => by
    obtain ⟨fuel, rfl⟩ := Nat.exists_eq_add_one_of_ne_zero (Nat.ne_zero_of_lt enough)
    have ends := ends_spaces comma Reader.ends_comma
    obtain ⟨t, item⟩ := value_of_text fuel (by omega) ends value
    have item_short := value.length_lt
    have others_short := others_length_lt comma gap
    obtain ⟨ts, others⟩ := items_of_text fuel (by omega) items
    refine ⟨t :: ts, ?_⟩
    simp only [Reader.items, item, bind, Except.bind, skip_to_mark comma (by decide),
      skip_to_value gap items.opens, others]

/-- Enough fuel reads the members of an object up to its brace. -/
theorem members_of_text {cs rest : List Char} (fuel : Nat) (enough : 2 * cs.length < fuel) :
    MembersText Convertible cs rest → ∃ ms, Reader.members spell fuel cs = .ok (ms, rest)
  | @MembersText.last _ inner _ _ _ _ _ chars colon before value close => by
    obtain ⟨fuel, rfl⟩ := Nat.exists_eq_add_one_of_ne_zero (Nat.ne_zero_of_lt enough)
    have item_short := item_length_lt chars colon before
    obtain ⟨k, string⟩ := string_of_chars ('"' :: inner).length chars le_rfl
    obtain ⟨t, item⟩ := value_of_text fuel (by grind) (ends_spaces close Reader.ends_brace) value
    refine ⟨[(spell k, t)], ?_⟩
    simp only [Reader.members, string, bind, Except.bind, skip_to_mark colon (by decide),
      skip_to_value before value.opens, item, skip_to_mark close (by decide)]
  | @MembersText.more _ inner _ _ _ _ _ _ _ chars colon before value comma gap members => by
    obtain ⟨fuel, rfl⟩ := Nat.exists_eq_add_one_of_ne_zero (Nat.ne_zero_of_lt enough)
    have item_short := item_length_lt chars colon before
    have item_taken := value.length_lt
    have others_short := others_length_lt comma gap
    obtain ⟨k, string⟩ := string_of_chars ('"' :: inner).length chars le_rfl
    have ends := ends_spaces comma Reader.ends_comma
    obtain ⟨t, item⟩ := value_of_text fuel (by grind) ends value
    obtain ⟨ms, others⟩ := members_of_text fuel (by grind) members
    refine ⟨(spell k, t) :: ms, ?_⟩
    simp only [Reader.members, string, bind, Except.bind, skip_to_mark colon (by decide),
      skip_to_value before value.opens, item, skip_to_mark comma (by decide),
      skip_to_value gap members.opens, others]

end

/-! ## Whole texts -/

/-- A well-formed text is read, if its integers are converted. -/
theorem exists_read (formed : WellFormed Convertible cs) (spell : Spelling := .plain) :
    ∃ t, read cs spell = .ok t := by
  obtain ⟨text, rest, before, value, after⟩ := formed
  have ends : Ends rest := by
    obtain ⟨gap, blank, rfl⟩ := after
    cases gap with
    | nil => exact Reader.ends_nil
    | cons c gap => exact Reader.ends_space (blank c List.mem_cons_self)
  have shorter := before.length_le
  obtain ⟨t, reads⟩ : ∃ t, Reader.value spell (Reader.steps cs) text = .ok (t, rest) :=
    value_of_text (Reader.steps cs) (by unfold Reader.steps; omega) ends value
  refine ⟨t, ?_⟩
  unfold read
  split
  · obtain ⟨gap, blank, same⟩ := before
    obtain ⟨c, tail, rfl, -, -, -, mark⟩ := value.opens
    cases gap with
    | nil => exact absurd (List.cons.inj same).1.symm mark
    | cons d gap =>
      have space := blank d List.mem_cons_self
      rw [← (List.cons.inj same).1] at space
      contradiction
  · simp only [skip_to_value before value.opens, reads, bind, Except.bind, skip_to_end after]

/-- What the reader reads are the well-formed texts whose integers are converted. -/
theorem exists_read_iff : (∃ t, read cs spell = .ok t) ↔ WellFormed Convertible cs :=
  ⟨fun ⟨_, whole⟩ => (wellFormed_of_read whole).1, fun formed => exists_read formed spell⟩

/-- A text that is read is well-formed. -/
theorem wellFormed_of_toBool (whole : (read cs).toBool = true) : WellFormed Convertible cs := by
  cases ended : read cs with
  | ok t => exact (wellFormed_of_read ended).1
  | error stop => simp [ended, Except.toBool] at whole

/-! ## Texts whatever their integers -/

variable {other : Nat → Prop} {limit : Nat}

theorem IsNumber.mono (weaker : ∀ n ≤ limit, fits n → other n) (short : cs.length ≤ limit)
    (number : IsNumber fits cs) : IsNumber other cs := by
  cases number with
  | integer negative proper few =>
    exact .integer negative proper (weaker _ ((length_signText negative _).trans short) few)
  | decimal negative proper fractional marked more =>
    exact .decimal negative proper fractional marked more

mutual

/-- A value is one as well where more integers are admitted of those that are short enough for it. -/
theorem ValueText.mono (weaker : ∀ n ≤ limit, fits n → other n) {cs rest : List Char}
    (short : cs.length ≤ limit) : ValueText fits cs rest → ValueText other cs rest
  | .text chars => .text chars
  | .word known => .word known
  | .number number => .number (number.mono weaker (by simp at short; omega))
  | .emptyArray spaces => .emptyArray spaces
  | .array spaces items =>
    .array spaces (items.mono weaker ((spaces.length_le.trans (Nat.le_succ _)).trans short))
  | .emptyObject spaces => .emptyObject spaces
  | .object spaces members =>
    .object spaces (members.mono weaker ((spaces.length_le.trans (Nat.le_succ _)).trans short))

theorem ItemsText.mono (weaker : ∀ n ≤ limit, fits n → other n) {cs rest : List Char}
    (short : cs.length ≤ limit) : ItemsText fits cs rest → ItemsText other cs rest
  | .last value close => .last (value.mono weaker short) close
  | .more value comma gap items => by
    have := value.length_lt
    have := others_length_lt comma gap
    exact .more (value.mono weaker short) comma gap (items.mono weaker (by omega))

theorem MembersText.mono (weaker : ∀ n ≤ limit, fits n → other n) {cs rest : List Char}
    (short : cs.length ≤ limit) : MembersText fits cs rest → MembersText other cs rest
  | .last chars colon before value close => by
    have := item_length_lt chars colon before
    exact .last chars colon before (value.mono weaker (by grind)) close
  | .more chars colon before value comma gap members => by
    have := item_length_lt chars colon before
    have := value.length_lt
    have := others_length_lt comma gap
    exact .more chars colon before (value.mono weaker (by grind)) comma gap
      (members.mono weaker (by grind))

end

/-- A text is well-formed as well where more integers are admitted of those that are short enough for
it. -/
theorem WellFormed.mono (weaker : ∀ n ≤ cs.length, fits n → other n) :
    WellFormed fits cs → WellFormed other cs
  | ⟨text, rest, before, value, after⟩ =>
    ⟨text, rest, before, value.mono weaker before.length_le, after⟩

/-- A short text that is not read is not well-formed, whatever its integers. -/
theorem not_wellFormed_of_short (short : Convertible cs.length) {stop : Stop}
    (unread : read cs spell = .error stop) : ¬ WellFormed (fun _ => True) cs := by
  intro formed
  obtain ⟨t, whole⟩ := exists_read (formed.mono fun n few _ => few.trans short) spell
  rw [unread] at whole
  contradiction

end LiveDoc.Json.Grammar
