import LiveDoc.Proofs.YamlFolded
import LiveDoc.Proofs.YamlKeys

/-!
# Lines of text between quotes

A quoted scalar is read in runs, with spaces and breaks between them. Each character of what lines
spell has its own law, so what is read follows the description of the lines.
-/

namespace LiveDoc.Yaml.Scalar

variable {start : Mark} {quote x : Char} {fuel n k : Nat} {c d e : Cursor}
  {rest tail cs r bs w : List Char}

/-! ## Runs and what follows them -/

/-- What is read of a quoted scalar behind a run: nothing more, or spaces and further runs. -/
def quotedTail (quote : Char) (start : Mark) (fuel : Nat) (c : Cursor) :
    Except Halt (List Char × Cursor) :=
  if c.peek = quote then .ok ([], c)
  else do
    let (blanks, c) ← quotedSpaces start c
    let (more, c) ← quotedText quote start fuel c
    .ok (blanks ++ more, c)

/-- A text is read behind a run and some spaces, up to the closing quote. -/
def ReadsTail (quote : Char) (start : Mark) (k : Nat) (c : Cursor) (cs : List Char) (d : Cursor) :
    Prop :=
  ∀ b : Cursor, b.rest = List.replicate k ' ' ++ c.rest → b.skip k = c →
    ∀ fuel, k + c.rest.length ≤ fuel →
      quotedTail quote start fuel b = .ok (List.replicate k ' ' ++ cs, d)

/-- A text is read within a run and behind it, up to the closing quote. -/
def ReadsRun (quote : Char) (start : Mark) (c : Cursor) (cs : List Char) (d : Cursor) : Prop :=
  ∃ r u e, cs = r ++ u ∧ e.rest.length ≤ c.rest.length ∧
    (∀ fuel, c.rest.length < fuel → quotedRun (quote == '"') start fuel c = .ok (r, e)) ∧
    ReadsTail quote start 0 e u d

theorem quotedText_run (reads : ReadsRun quote start c cs d) (enough : c.rest.length < fuel) :
    quotedText quote start fuel c = .ok (cs, d) := by
  obtain ⟨r, u, e, rfl, shorter, run, later⟩ := reads
  obtain ⟨fuel, rfl⟩ := Nat.exists_eq_add_of_le' (Nat.zero_lt_of_lt enough)
  have behind := later e rfl rfl fuel (by omega)
  rw [List.replicate_zero, List.nil_append, quotedTail] at behind
  rw [quotedText]
  simp only [run _ (Nat.lt_succ_self _), bind, Except.bind]
  split at behind
  · rename_i closing
    obtain ⟨rfl, rfl⟩ := Prod.mk.inj (Except.ok.inj behind)
    rw [if_pos closing, List.append_nil]
  · rename_i open_
    rw [if_neg open_]
    cases spaces : quotedSpaces start e with
    | error h =>
      rw [spaces] at behind
      contradiction
    | ok p =>
      simp only [spaces, bind, Except.bind] at behind ⊢
      cases more : quotedText quote start fuel p.2 with
      | error h =>
        rw [more] at behind
        contradiction
      | ok q =>
        simp only [more] at behind ⊢
        obtain ⟨same, rfl⟩ := Prod.mk.inj (Except.ok.inj behind)
        rw [← same, List.append_assoc]

theorem length_next (text : c.rest = x :: rest) : c.next.rest.length + 1 = c.rest.length := by
  rw [Cursor.next_cons text, text, List.length_cons]

/-- A part of a run in front of what is read. -/
theorem ReadsRun.part (reads : ReadsRun quote start e cs d) (shorter : e.rest.length < c.rest.length)
    (step : ∀ fuel, e.rest.length < fuel → quotedRun (quote == '"') start (fuel + 1) c =
      (quotedRun (quote == '"') start fuel e).map fun p => (r ++ p.1, p.2)) :
    ReadsRun quote start c (r ++ cs) d := by
  obtain ⟨s, u, b, rfl, less, run, later⟩ := reads
  refine ⟨r ++ s, u, b, (List.append_assoc ..).symm, by omega, fun fuel enough => ?_, later⟩
  obtain ⟨fuel, rfl⟩ := Nat.exists_eq_add_of_le' (Nat.zero_lt_of_lt enough)
  rw [step fuel (by omega), run fuel (by omega)]
  rfl

theorem ReadsRun.plain (text : c.rest = x :: rest) (plain : endsRun x = false)
    (reads : ReadsRun quote start c.next cs d) : ReadsRun quote start c (x :: cs) d := by
  have count := length_next text
  obtain ⟨s, u, b, rfl, less, run, later⟩ := reads
  refine ⟨x :: s, u, b, rfl, by omega, fun fuel enough => ?_, later⟩
  obtain ⟨fuel, rfl⟩ := Nat.exists_eq_add_of_le' (Nat.zero_lt_of_lt enough)
  rw [quotedRun_plain text plain, run (fuel + 1) (by omega)]
  rfl

/-- A character that only ends runs between the other quotes. -/
theorem ReadsRun.other (text : c.rest = x :: rest)
    (other : quote = '"' ∧ x = '\'' ∨ quote = '\'' ∧ (x = '"' ∨ x = '\\'))
    (reads : ReadsRun quote start c.next cs d) : ReadsRun quote start c (x :: cs) d := by
  have count := length_next text
  refine reads.part (r := [x]) (by omega) fun fuel _ => quotedRun_other text ?_
  exact other.imp (fun own => ⟨by rw [own.1]; rfl, own.2⟩) fun own => ⟨by rw [own.1]; rfl, own.2⟩

/-- A quote that is written twice. -/
theorem ReadsRun.doubled (text : c.rest = '\'' :: '\'' :: rest)
    (reads : ReadsRun '\'' start (c.skip 2) cs d) : ReadsRun '\'' start c ('\'' :: cs) d := by
  have run : c.takeWhile (!endsRun ·) = [] := by
    rw [Cursor.takeWhile, text]
    rfl
  have second : c.peek 1 = '\'' := by simp [Cursor.peek, text]
  refine reads.part (r := ['\'']) ?_ fun fuel _ => ?_
  · rw [Cursor.skip_rest, text]
    change rest.length < rest.length + 1 + 1
    omega
  · rw [show ('\'' == '"') = false from rfl, quotedRun]
    simp only [run, List.length_nil, Cursor.skip, Cursor.peek_cons text, second]
    cases quotedRun false start fuel (c.skip 2) <;> rfl

/-- What an escape stands for. -/
theorem ReadsRun.escape (text : c.rest = '\\' :: rest) (read : escape start c.next = .ok (r, e))
    (shorter : e.rest.length < c.rest.length) (reads : ReadsRun '"' start e cs d) :
    ReadsRun '"' start c (r ++ cs) d :=
  reads.part shorter fun _ _ => quotedRun_escape text read

/-- A run stops at a space, a break and the closing quote. -/
theorem ReadsRun.stop (text : c.rest = x :: rest)
    (stops : x = ' ' ∨ x = '\n' ∨ x = quote ∧ (x = '"' ∨ x = '\'' ∧ c.peek 1 ≠ '\''))
    (reads : ReadsTail quote start 0 c cs d) : ReadsRun quote start c cs d := by
  have ends : endsRun x = true := by rcases stops with rfl | rfl | ⟨-, rfl | ⟨rfl, -⟩⟩ <;> rfl
  refine ⟨[], cs, c, rfl, Nat.le_refl _, fun fuel enough => ?_, reads⟩
  obtain ⟨fuel, rfl⟩ := Nat.exists_eq_add_of_le' (Nat.zero_lt_of_lt enough)
  refine quotedRun_stop text ends ?_ ?_
  · rcases stops with rfl | rfl | ⟨rfl, rfl | ⟨rfl, -⟩⟩
    · split <;> decide
    · split <;> decide
    · decide
    · decide
  · rcases stops with rfl | rfl | ⟨rfl, rfl | ⟨rfl, open_⟩⟩
    · exact .inr (.inl (by decide))
    · exact .inr (.inl (by decide))
    · exact .inl rfl
    · exact .inr (.inr open_)

theorem ReadsTail.closing (text : c.rest = quote :: rest) : ReadsTail quote start 0 c [] c := by
  intro b _ moved fuel _
  obtain rfl : b = c := moved
  exact if_pos (Cursor.peek_cons text)

/-- A cursor that stands behind some spaces, one of which is next, stands behind one more. -/
theorem past_blank {b : Cursor} (text : c.rest = ' ' :: rest)
    (ahead : b.rest = List.replicate k ' ' ++ c.rest) (moved : b.skip k = c) :
    b.rest = List.replicate (k + 1) ' ' ++ c.next.rest ∧ b.skip (k + 1) = c.next := by
  constructor
  · rw [ahead, text, Cursor.next_cons text, List.append_cons, ← List.replicate_succ']
  · rw [← moved, Cursor.skip_next]

theorem ReadsTail.blank (text : c.rest = ' ' :: rest)
    (reads : ReadsTail quote start (k + 1) c.next cs d) : ReadsTail quote start k c (' ' :: cs) d := by
  intro b ahead moved fuel enough
  have count := length_next text
  obtain ⟨ahead, moved⟩ := past_blank text ahead moved
  rw [List.append_cons, ← List.replicate_succ']
  exact reads b ahead moved fuel (by omega)

theorem ReadsTail.run (text : c.rest = x :: rest) (visible : isSpace x = false)
    (inner : isBreakOrEnd x = false) (other : quote ≠ ' ') (reads : ReadsRun quote start c cs d) :
    ReadsTail quote start (k + 1) c cs d := by
  intro b ahead moved fuel enough
  have blanks : b.takeWhile isSpace = List.replicate (k + 1) ' ' := by
    rw [Cursor.takeWhile, ahead, List.takeWhile_append_of_pos (by simp [isSpace]), text]
    simp [visible]
  obtain ⟨present, unbroken⟩ : x ≠ endOfText ∧ isBreak x = false := by
    simpa [isBreakOrEnd] using inner
  have spaces : quotedSpaces start b = .ok (List.replicate (k + 1) ' ', c) := by
    simp only [quotedSpaces, blanks, List.length_replicate, moved, Cursor.peek_cons text]
    rw [if_neg present, Cursor.lineBreak_none text unbroken]
  have open_ : b.peek ≠ quote := by
    rw [Cursor.peek_cons (ahead.trans (List.cons_append ..))]
    exact other.symm
  rw [quotedTail, if_neg open_, spaces]
  simp only [bind, Except.bind, quotedText_run reads (show c.rest.length < fuel by omega)]

/-! ## Breaks -/

/-- Some breaks are read behind another one. -/
def ReadsBreaks (start : Mark) (c : Cursor) (bs : List Char) (d : Cursor) : Prop :=
  d.rest.length ≤ c.rest.length ∧
    ∀ fuel, c.rest.length < fuel → quotedBreaks start fuel c = .ok (bs, d)

/-- Behind the breaks the text goes on at a margin. -/
theorem ReadsBreaks.margin (inset : 0 < n) (text : c.rest = List.replicate n ' ' ++ x :: rest)
    (visible : isSpace x = false) (inner : isBreak x = false) :
    ReadsBreaks start c [] (c.skip n) := by
  have blanks : (c.rest.takeWhile isSpace).length = n := by
    rw [text, List.takeWhile_append_of_pos (by simp [isSpace])]
    simp [visible]
  have ahead := Cursor.skip_blanks text
  have unmarked := Cursor.atSeparator_margin inset text
  refine ⟨by rw [Cursor.skip_rest, List.length_drop]; omega, fun fuel enough => ?_⟩
  obtain ⟨fuel, rfl⟩ := Nat.exists_eq_add_of_le' (Nat.zero_lt_of_lt enough)
  rw [quotedBreaks, unmarked]
  simp only [Bool.false_eq_true, if_false, Cursor.skipWhile, blanks, Cursor.lineBreak_none ahead inner]

theorem lineBreak_newline (text : c.rest = '\n' :: rest) : c.lineBreak = (some '\n', c.next) := by
  unfold Cursor.lineBreak
  rw [text]
  rfl

theorem ReadsBreaks.cons (text : c.rest = '\n' :: rest) (reads : ReadsBreaks start c.next bs d) :
    ReadsBreaks start c ('\n' :: bs) d := by
  have count := length_next text
  have unmarked := Cursor.atSeparator_of_ne text (by decide) (by decide)
  have still : c.skipWhile isSpace = c := by
    rw [Cursor.skipWhile, text]
    rfl
  obtain ⟨shorter, read⟩ := reads
  refine ⟨by omega, fun fuel enough => ?_⟩
  obtain ⟨fuel, rfl⟩ := Nat.exists_eq_add_of_le' (Nat.zero_lt_of_lt enough)
  rw [quotedBreaks, unmarked]
  simp only [Bool.false_eq_true, if_false, still, lineBreak_newline text, bind, Except.bind,
    read fuel (by omega)]

/-- A single break is a space, and of several ones the first does not count. -/
theorem ReadsTail.breaks (text : c.rest = '\n' :: rest) (other : quote ≠ '\n')
    (breaks : ReadsBreaks start c.next bs e) (reads : ReadsRun quote start e cs d) :
    ReadsTail quote start 0 c ((if bs.isEmpty then [' '] else bs) ++ cs) d := by
  intro b _ moved fuel enough
  obtain rfl : b = c := moved
  have count := length_next text
  have blanks : b.takeWhile isSpace = [] := by
    rw [Cursor.takeWhile, text]
    rfl
  have spaces : quotedSpaces start b = .ok (if bs.isEmpty then [' '] else bs, e) := by
    simp only [quotedSpaces, blanks, List.length_nil, Cursor.skip, Cursor.peek_cons text]
    rw [if_neg (by decide), lineBreak_newline text]
    simp only [breaks.2 _ (Nat.lt_succ_self _), bind, Except.bind]
    cases bs <;> rfl
  have shorter := breaks.1
  have later := quotedText_run reads (show e.rest.length < fuel by omega)
  rw [quotedTail, if_neg (by rw [Cursor.peek_cons text]; exact other.symm), spaces]
  simp only [bind, Except.bind, later, List.replicate_zero, List.nil_append]

/-! ## Escapes -/

theorem hexValue_append (ds : List Char) (d : Char) : Lexeme.hexValue (ds ++ [d]) =
    Lexeme.hexValue ds * 16 + (if Text.isAsciiDigit d then d.toNat - 48 else d.toNat % 32 + 9) := by
  simp [Lexeme.hexValue, Numeral.value]

/-- A number in capital hexadecimal digits. -/
theorem hexValue_digits (m : Nat) :
    ((Nat.toDigits 16 m).map Char.toUpper).all Lexeme.isHexDigit = true ∧
      Lexeme.hexValue ((Nat.toDigits 16 m).map Char.toUpper) = m := by
  have single : ∀ d < 16, Lexeme.isHexDigit (Nat.digitChar d).toUpper = true ∧
      Lexeme.hexValue [(Nat.digitChar d).toUpper] = d := by decide
  induction m using Nat.strongRecOn with
  | ind m ih =>
    by_cases small : m < 16
    · rw [Nat.toDigits_of_lt_base small]
      simpa using single m small
    · obtain ⟨hex, value⟩ := ih (m / 16) (by omega)
      obtain ⟨last, code⟩ := single (m % 16) (by omega)
      have code : (if Text.isAsciiDigit (Nat.digitChar (m % 16)).toUpper then
          (Nat.digitChar (m % 16)).toUpper.toNat - 48
        else (Nat.digitChar (m % 16)).toUpper.toNat % 32 + 9) = m % 16 := by
        simpa [Lexeme.hexValue, Numeral.value] using code
      rw [Nat.toDigits_of_base_le (by decide) (by omega), List.map_append, List.map_singleton]
      refine ⟨by simp [List.all_append, hex, last], ?_⟩
      rw [hexValue_append, value, code]
      omega

theorem hexValue_zeros (k : Nat) (ds : List Char) :
    Lexeme.hexValue (List.replicate k '0' ++ ds) = Lexeme.hexValue ds := by
  induction k with
  | zero => rfl
  | succ k ih =>
    rw [← ih]
    rfl

/-- The code of a character has as many digits as it should, and is that of the character. -/
theorem code_digits {width : Nat} (fits : x.toNat < 16 ^ width) (wide : 0 < width) :
    (Style.code width x).all Lexeme.isHexDigit = true ∧ (Style.code width x).length = width ∧
      Lexeme.hexValue (Style.code width x) = x.toNat := by
  obtain ⟨hex, value⟩ := hexValue_digits x.toNat
  have short : (Nat.toDigits 16 x.toNat).length ≤ width :=
    (Nat.length_toDigits_le_iff (by decide) wide).mpr fits
  have zero : Char.toUpper '0' = '0' := rfl
  have digit : Lexeme.isHexDigit '0' = true := rfl
  rw [Style.code, Text.hex, List.map_append, List.map_replicate, zero]
  refine ⟨?_, ?_, ?_⟩
  · simp [List.all_append, hex, digit]
  · simp
    omega
  · rw [hexValue_zeros, value]

/-- An escape means the character that it was written for. -/
theorem escape_written {es : List Char} (escaped : Style.escape? x = some es)
    (text : c.rest = es ++ rest) : escape start c.next = .ok ([x], c.skip es.length) := by
  have letters : ∀ p ∈ Style.escapeLetters, shortEscapes.lookup p.2 = some p.1 := by decide
  unfold Style.escape? at escaped
  split at escaped
  · rename_i letter found
    obtain rfl := Option.some.inj escaped
    obtain ⟨front, back, known, -⟩ := List.lookup_eq_some_iff.mp found
    have short := letters (x, letter) (by rw [known]; simp)
    exact escape_letter (Cursor.next_cons text) short
  · split at escaped
    · contradiction
    · have widest : x.toNat < 16 ^ 8 := by
        rcases x.valid with low | ⟨-, high⟩
        · exact Nat.lt_trans low (by decide)
        · exact Nat.lt_trans high (by decide)
      have coded : ∀ {letter : Char} {width : Nat}, x.toNat < 16 ^ width → 0 < width →
          shortEscapes.lookup letter = none → codeLength? letter = some width →
          es = '\\' :: letter :: Style.code width x →
            escape start c.next = .ok ([x], c.skip es.length) := by
        rintro letter width fits wide other long rfl
        obtain ⟨hex, count, value⟩ := code_digits fits wide
        rw [escape_digits (Cursor.next_cons text) other long hex count value, List.length_cons,
          List.length_cons, count]
        rfl
      split at escaped
      · exact coded (by assumption) (by decide) rfl rfl (Option.some.inj escaped).symm
      · split at escaped
        · exact coded (by assumption) (by decide) rfl rfl (Option.some.inj escaped).symm
        · exact coded widest (by decide) rfl rfl (Option.some.inj escaped).symm

/-- An escaped break and the margin behind it stand for nothing. -/
theorem escape_break (inset : 0 < n)
    (text : c.rest = '\n' :: (List.replicate n ' ' ++ x :: rest)) (visible : isSpace x = false)
    (inner : isBreak x = false) : escape start c = .ok ([], c.next.skip n) := by
  have behind := Cursor.next_cons text
  have breaks : ReadsBreaks start c.next [] (c.next.skip n) := .margin inset behind visible inner
  have read := breaks.2 _ (Nat.lt_succ_self _)
  have short : shortEscapes.lookup '\n' = none := rfl
  have long : codeLength? '\n' = none := rfl
  unfold escape
  rw [Cursor.peek_cons text, short, long, lineBreak_newline text]
  exact read

/-! ## Lines between double quotes -/

/-- A character that is not escaped is printable, and neither a quote nor a backslash. -/
theorem printable_of_plain (plain : Style.escape? x = none) :
    32 ≤ x.toNat ∧ x.toNat ≤ 126 ∧ x ≠ '"' ∧ x ≠ '\\' := by
  unfold Style.escape? at plain
  split at plain
  · contradiction
  · rename_i other
    split at plain
    · rename_i range
      refine ⟨range.1, range.2, ?_, ?_⟩ <;>
      · rintro rfl
        contradiction
    · split at plain
      · contradiction
      · split at plain <;> contradiction

/-- Printable characters other than spaces end neither a word nor a line. -/
theorem isSpaceOrEnd_printable (low : 32 ≤ x.toNat) (high : x.toNat ≤ 126) (other : x ≠ ' ') :
    isSpaceOrEnd x = false := by
  rw [isSpaceOrEnd_large low]
  simp [isInner, isRawBreak_ascii high, other]

theorem visible_of_word (word : isSpaceOrEnd x = false) :
    isSpace x = false ∧ isBreakOrEnd x = false := by
  simp only [isSpaceOrEnd, Bool.or_eq_false_iff] at word
  exact ⟨by simp [isSpace, word.1], word.2⟩

theorem isBreak_of_word (word : isSpaceOrEnd x = false) : isBreak x = false :=
  (Bool.or_eq_false_iff.mp (visible_of_word word).2).2

/-- A text is read within a run and behind spaces, up to the closing quote, which other text
follows. -/
structure Reads (quote : Char) (start : Mark) (c : Cursor) (cs w tail : List Char) (d : Cursor) :
    Prop where
  closing : d.rest = quote :: tail
  next : d.next = c.skip w.length
  run : ReadsRun quote start c cs d

variable {es : List Char}

/-- A text with other lines in front of it. -/
theorem Reads.behind (reads : Reads quote start e cs w tail d) (front : List Char)
    (moved : e = c.skip front.length) (run : ReadsRun quote start c bs d) :
    Reads quote start c bs (front ++ w) tail d := by
  refine ⟨reads.closing, ?_, run⟩
  rw [reads.next, moved, Cursor.skip_skip, List.length_append]

/-- What starts with a visible character is read behind spaces as it is within a run. -/
theorem Reads.visible (reads : Reads quote start c cs w tail d) (text : c.rest = x :: rest)
    (word : isSpaceOrEnd x = false) (other : quote ≠ ' ') (k : Nat) :
    ReadsTail quote start (k + 1) c cs d :=
  .run text (visible_of_word word).1 (visible_of_word word).2 other reads.run

/-- What is written up to a double quote is read as a text, within a run and behind spaces. -/
def ReadsDouble (start : Mark) (c : Cursor) (cs w tail : List Char) : Prop :=
  ∃ d, Reads '"' start c cs w tail d ∧ ∀ k, ReadsTail '"' start (k + 1) c cs d

/-- A visible character is enough for what stands behind spaces. -/
theorem ReadsDouble.of_visible (reads : Reads '"' start c cs w tail d) (text : c.rest = x :: rest)
    (word : isSpaceOrEnd x = false) : ReadsDouble start c cs w tail :=
  ⟨d, reads, reads.visible text word (by decide)⟩

theorem ReadsDouble.closing (text : c.rest = '"' :: tail) : ReadsDouble start c [] ['"'] tail :=
  .of_visible ⟨text, rfl, .stop text (.inr (.inr ⟨rfl, .inl rfl⟩)) (.closing text)⟩ text rfl

/-- A character that stands for itself. -/
theorem ReadsDouble.char (plain : Style.escape? x = none) (text : c.rest = x :: (w ++ tail))
    (reads : ReadsDouble start c.next cs w tail) : ReadsDouble start c (x :: cs) (x :: w) tail := by
  obtain ⟨low, high, quote, slash⟩ := printable_of_plain plain
  obtain ⟨d, reads, behind⟩ := reads
  by_cases space : x = ' '
  · subst space
    have run := ReadsRun.stop text (.inl rfl) (.blank text (behind 0))
    exact ⟨d, reads.behind [' '] rfl run, fun k => .blank text (behind (k + 1))⟩
  · have word := isSpaceOrEnd_printable low high space
    have inner : isInner x = true := by
      rw [isSpaceOrEnd_large low] at word
      simpa using word
    refine .of_visible (reads.behind [x] rfl ?_) text word
    by_cases single : x = '\''
    · exact .other text (.inl ⟨rfl, single⟩) reads.run
    · exact .plain text (by simp [endsRun_inner low inner quote slash, single]) reads.run

/-- A character that is written as an escape. -/
theorem ReadsDouble.escape (escaped : Style.escape? x = some es) (text : c.rest = es ++ (w ++ tail))
    (reads : ReadsDouble start (c.skip es.length) cs w tail) :
    ReadsDouble start c (x :: cs) (es ++ w) tail := by
  obtain ⟨d, reads, -⟩ := reads
  have read : Scalar.escape start c.next = .ok ([x], c.skip es.length) := escape_written escaped text
  obtain ⟨letter, more, rfl⟩ := Style.exists_escape escaped
  have shorter : (c.skip ('\\' :: letter :: more).length).rest.length < c.rest.length := by
    rw [Cursor.skip_append text, text]
    simp
    omega
  exact .of_visible (reads.behind _ rfl (.escape text read shorter reads.run)) text rfl

/-- A space with a guard in front of it. -/
theorem ReadsDouble.space (text : c.rest = '\\' :: ' ' :: (w ++ tail))
    (reads : ReadsDouble start c.next.next cs w tail) :
    ReadsDouble start c (' ' :: cs) ('\\' :: ' ' :: w) tail := by
  obtain ⟨d, reads, -⟩ := reads
  have behind := Cursor.next_cons text
  have read : Scalar.escape start c.next = .ok ([' '], c.next.next) := escape_letter behind rfl
  have shorter : c.next.next.rest.length < c.rest.length := by
    rw [Cursor.next_cons behind, text, List.length_cons, List.length_cons]
    omega
  exact .of_visible (reads.behind ['\\', ' '] rfl (.escape text read shorter reads.run)) text rfl

/-- A fold in front of a visible character stands for nothing. -/
theorem ReadsDouble.fold (inset : 0 < n) (word : isSpaceOrEnd x = false)
    (text : c.rest = '\\' :: '\n' :: (List.replicate n ' ' ++ x :: (w ++ tail)))
    (reads : ReadsDouble start (c.next.next.skip n) cs (x :: w) tail) :
    ReadsDouble start c cs ('\\' :: '\n' :: (List.replicate n ' ' ++ x :: w)) tail := by
  obtain ⟨d, reads, -⟩ := reads
  have behind := Cursor.next_cons text
  have read : Scalar.escape start c.next = .ok ([], c.next.next.skip n) :=
    escape_break inset behind (visible_of_word word).1 (isBreak_of_word word)
  have here : (c.next.next.skip n).rest = x :: (w ++ tail) :=
    Cursor.skip_blanks (Cursor.next_cons behind)
  have shorter : (c.next.next.skip n).rest.length < c.rest.length := by
    rw [here, text]
    simp
    omega
  have moved : c.next.next.skip n = c.skip ('\\' :: '\n' :: List.replicate n ' ').length := by
    simp [Cursor.skip]
  have reads := reads.behind _ moved (.escape text read shorter reads.run)
  exact .of_visible (by simpa using reads) text rfl

/-- A fold behind the guard of a space: the guard is read as a backslash, the fold as a space, and the
space that was guarded follows, with a guard of its own. -/
theorem ReadsDouble.slip (inset : 0 < n)
    (text : c.rest = '\\' :: '\\' :: '\n' :: (List.replicate n ' ' ++ '\\' :: ' ' :: (w ++ tail)))
    (reads : ReadsDouble start (c.next.next.next.skip n).next.next cs w tail) :
    ReadsDouble start c ('\\' :: ' ' :: ' ' :: cs)
      ('\\' :: '\\' :: '\n' :: (List.replicate n ' ' ++ '\\' :: ' ' :: w)) tail := by
  obtain ⟨d, reads, -⟩ := reads
  have second := Cursor.next_cons text
  have third := Cursor.next_cons second
  have fourth := Cursor.next_cons third
  have here := Cursor.skip_blanks fourth
  have behind := Cursor.next_cons here
  have slash : Scalar.escape start c.next = .ok (['\\'], c.next.next) := escape_letter second rfl
  have space : Scalar.escape start (c.next.next.next.skip n).next =
      .ok ([' '], (c.next.next.next.skip n).next.next) := escape_letter behind rfl
  have shorter : c.next.next.rest.length < c.rest.length := by
    rw [third, text]
    simp
  have shortest : (c.next.next.next.skip n).next.next.rest.length <
      (c.next.next.next.skip n).rest.length := by
    rw [Cursor.next_cons behind, here, List.length_cons, List.length_cons]
    omega
  have inner : ReadsRun '"' start (c.next.next.next.skip n) (' ' :: cs) d :=
    .escape here space shortest reads.run
  have breaks : ReadsBreaks start c.next.next.next [] (c.next.next.next.skip n) :=
    .margin inset fourth rfl rfl
  have broken : ReadsRun '"' start c.next.next (' ' :: ' ' :: cs) d :=
    .stop third (.inr (.inl rfl)) (.breaks third (by decide) breaks inner)
  have moved : (c.next.next.next.skip n).next.next =
      c.skip ('\\' :: '\\' :: '\n' :: (List.replicate n ' ' ++ ['\\', ' '])).length := by
    rw [Cursor.skip_next, Cursor.skip_next]
    simp [Cursor.skip]
  have reads := reads.behind _ moved (.escape text slash shorter broken)
  exact .of_visible (by simpa using reads) text rfl

/-- What lines between double quotes start with ends neither a word nor a line, unless it is a space. -/
theorem isSpaceOrEnd_double (double : Style.Double n cs (x :: w)) (other : x ≠ ' ') :
    isSpaceOrEnd x = false := by
  obtain ⟨y, more, starts, rfl | rfl | ⟨-, plain⟩⟩ := double.head
  · rw [(List.cons.inj starts).1]
    rfl
  · rw [(List.cons.inj starts).1]
    rfl
  · obtain ⟨low, high, -⟩ := printable_of_plain plain
    rw [← (List.cons.inj starts).1] at low high
    exact isSpaceOrEnd_printable low high other

/-- What a reader makes of lines between double quotes. -/
theorem reads_double (inset : 0 < n) (double : Style.Double n cs w) (start : Mark)
    (text : c.rest = w ++ tail) : ReadsDouble start c cs w tail := by
  induction double generalizing c with
  | nil => exact .closing text
  | char plain _ ih => exact .char plain text (ih (Cursor.next_cons text))
  | escape escaped _ ih =>
    rw [List.append_assoc] at text
    exact .escape escaped text (ih (Cursor.skip_append text))
  | space _ ih => exact .space text (ih (Cursor.next_cons (Cursor.next_cons text)))
  | @fold x cs w other double ih =>
    have text : c.rest = '\\' :: '\n' :: (List.replicate n ' ' ++ x :: (w ++ tail)) := by
      simpa using text
    have behind := Cursor.next_cons (Cursor.next_cons text)
    exact .fold inset (isSpaceOrEnd_double double other) text (ih (Cursor.skip_blanks behind))
  | @slip cs w _ ih =>
    have text : c.rest = '\\' :: '\\' :: '\n' :: (List.replicate n ' ' ++ '\\' :: ' ' ::
        (w ++ tail)) := by simpa using text
    have behind := Cursor.next_cons (Cursor.next_cons (Cursor.next_cons text))
    have here := Cursor.next_cons (Cursor.next_cons (Cursor.skip_blanks behind))
    exact .slip inset text (ih here)

/-! ## Lines between single quotes -/

/-- A character that needs no double quotes is a line break or printable. -/
theorem printable_of_common (common : Style.isSpecial x = false) (inner : x ≠ '\n') :
    32 ≤ x.toNat ∧ x.toNat ≤ 126 := by
  have other : (x != '\n') = true := bne_iff_ne.mpr inner
  rw [Style.isSpecial, other, Bool.true_and, Bool.not_eq_false', Bool.and_eq_true, decide_eq_true_eq,
    decide_eq_true_eq] at common
  exact common

/-- What lines between single quotes go on with where neither a space nor a break is next. -/
theorem isSpaceOrEnd_single (common : ∀ x ∈ cs, Style.isSpecial x = false) (inner : x ≠ '\n')
    (visible : x ≠ ' ') (known : x = '\'' ∨ x ∈ cs) : isSpaceOrEnd x = false := by
  rcases known with rfl | inside
  · rfl
  · obtain ⟨low, high⟩ := printable_of_common (common x inside) inner
    exact isSpaceOrEnd_printable low high visible

/-- A text that starts with line breaks is read behind the first break that was written for them. -/
def ReadsBroken (start : Mark) (c : Cursor) (cs : List Char) (d : Cursor) : Prop :=
  ∃ bs u e, bs ≠ [] ∧ cs = bs ++ u ∧ ReadsBreaks start c.next bs e ∧ ReadsRun '\'' start e u d

theorem ReadsBroken.run (text : c.rest = '\n' :: rest) (reads : ReadsBroken start c cs d) :
    ReadsRun '\'' start c cs d := by
  obtain ⟨bs, u, e, several, rfl, breaks, run⟩ := reads
  have tail := ReadsTail.breaks text (by decide) breaks run
  rw [if_neg (by simpa using several)] at tail
  exact .stop text (.inr (.inl rfl)) tail

/-- What is written up to a single quote is read as a text: within a run, behind spaces where lines
may go on with it, and behind its first break if the text starts with one. -/
structure ReadsSingle (start : Mark) (after : Bool) (c : Cursor) (cs w tail : List Char) (d : Cursor) :
    Prop where
  reads : Reads '\'' start c cs w tail d
  behindBlanks : after = true → ∀ k, ReadsTail '\'' start (k + 1) c cs d
  broken : cs.head? = some '\n' → ReadsBroken start c cs d

variable {after : Bool}

theorem ReadsSingle.of_visible (reads : Reads '\'' start c cs w tail d) (text : c.rest = x :: rest)
    (word : isSpaceOrEnd x = false) (unbroken : cs.head? ≠ some '\n') :
    ReadsSingle start after c cs w tail d :=
  ⟨reads, fun _ => reads.visible text word (by decide), fun broken => absurd broken unbroken⟩

/-- A text that starts with a break is read within a run as it is behind the break. -/
theorem ReadsSingle.of_broken (text : c.rest = '\n' :: rest) (broken : ReadsBroken start c cs d)
    (reads : Reads '\'' start e bs w tail d) (front : List Char) (moved : e = c.skip front.length) :
    ReadsSingle start false c cs (front ++ w) tail d :=
  ⟨reads.behind front moved (broken.run text), by simp, fun _ => broken⟩

/-- A quote that no other quote follows. -/
theorem ReadsSingle.closing (text : c.rest = '\'' :: tail) (ends : tail.head? ≠ some '\'') :
    ReadsSingle start after c [] ['\''] tail c := by
  have open_ : c.peek 1 ≠ '\'' := by
    cases tail with
    | nil => simp [Cursor.peek, text, endOfText]
    | cons y more => simpa [Cursor.peek, text] using ends
  have run : ReadsRun '\'' start c [] c :=
    .stop text (.inr (.inr ⟨rfl, .inr ⟨rfl, open_⟩⟩)) (.closing text)
  exact .of_visible ⟨text, rfl, run⟩ text rfl (by simp)

/-- A quote that is written twice. -/
theorem ReadsSingle.doubled (text : c.rest = '\'' :: '\'' :: (w ++ tail))
    (reads : ReadsSingle start false c.next.next cs w tail d) :
    ReadsSingle start after c ('\'' :: cs) ('\'' :: '\'' :: w) tail d :=
  have run := ReadsRun.doubled text reads.reads.run
  .of_visible (reads.reads.behind ['\'', '\''] rfl run) text rfl (by simp)

/-- A character that stands for itself. -/
theorem ReadsSingle.char (common : Style.isSpecial x = false) (inner : x ≠ '\n') (other : x ≠ '\'')
    (text : c.rest = x :: (w ++ tail)) (reads : ReadsSingle start (x == ' ') c.next cs w tail d) :
    ReadsSingle start after c (x :: cs) (x :: w) tail d := by
  obtain ⟨low, high⟩ := printable_of_common common inner
  obtain ⟨reads, behind, -⟩ := reads
  have unbroken : (x :: cs).head? ≠ some '\n' := fun same => inner (Option.some.inj same)
  by_cases space : x = ' '
  · subst space
    have run := ReadsRun.stop text (.inl rfl) (.blank text (behind rfl 0))
    exact ⟨reads.behind [' '] rfl run, fun _ k => .blank text (behind rfl (k + 1)),
      fun broken => absurd broken unbroken⟩
  · have word := isSpaceOrEnd_printable low high space
    refine .of_visible (reads.behind [x] rfl ?_) text word unbroken
    by_cases ending : x = '"' ∨ x = '\\'
    · exact .other text (.inr ⟨rfl, ending⟩) reads.run
    · obtain ⟨quote, slash⟩ := not_or.mp ending
      have inner : isInner x = true := by
        rw [isSpaceOrEnd_large low] at word
        simpa using word
      exact .plain text (by simp [endsRun_inner low inner quote slash, other]) reads.run

/-- A space at which the line is folded. -/
theorem ReadsSingle.fold (inset : 0 < n) (word : isSpaceOrEnd x = false)
    (text : c.rest = '\n' :: (List.replicate n ' ' ++ x :: (w ++ tail)))
    (reads : ReadsSingle start true (c.next.skip n) cs (x :: w) tail d) :
    ReadsSingle start false c (' ' :: cs) ('\n' :: (List.replicate n ' ' ++ x :: w)) tail d := by
  have breaks : ReadsBreaks start c.next [] (c.next.skip n) :=
    .margin inset (Cursor.next_cons text) (visible_of_word word).1 (isBreak_of_word word)
  have run : ReadsRun '\'' start c (' ' :: cs) d :=
    .stop text (.inr (.inl rfl)) (.breaks text (by decide) breaks reads.reads.run)
  have moved : c.next.skip n = c.skip ('\n' :: List.replicate n ' ').length := by
    simp [Cursor.skip]
  exact ⟨by simpa using reads.reads.behind _ moved run, by simp, fun broken => by simp at broken⟩

/-- The last of several breaks, which the margin of the next line follows. -/
theorem ReadsSingle.last (inset : 0 < n) (word : isSpaceOrEnd x = false)
    (text : c.rest = '\n' :: '\n' :: (List.replicate n ' ' ++ x :: (w ++ tail)))
    (reads : ReadsSingle start false (c.next.next.skip n) cs (x :: w) tail d) :
    ReadsSingle start false c ('\n' :: cs)
      ('\n' :: '\n' :: (List.replicate n ' ' ++ x :: w)) tail d := by
  have second := Cursor.next_cons text
  have breaks : ReadsBreaks start c.next ['\n'] (c.next.next.skip n) :=
    .cons second (.margin inset (Cursor.next_cons second) (visible_of_word word).1
      (isBreak_of_word word))
  have broken : ReadsBroken start c ('\n' :: cs) d :=
    ⟨['\n'], cs, _, by simp, rfl, breaks, reads.reads.run⟩
  have moved : c.next.next.skip n = c.skip ('\n' :: '\n' :: List.replicate n ' ').length := by
    simp [Cursor.skip]
  simpa using ReadsSingle.of_broken text broken reads.reads _ moved

/-- A break in front of another one. -/
theorem ReadsSingle.more (text : c.rest = '\n' :: '\n' :: (w ++ tail))
    (reads : ReadsSingle start false c.next ('\n' :: cs) ('\n' :: w) tail d) :
    ReadsSingle start false c ('\n' :: '\n' :: cs) ('\n' :: '\n' :: w) tail d := by
  obtain ⟨bs, u, e, several, split, breaks, run⟩ := reads.broken rfl
  have broken : ReadsBroken start c ('\n' :: '\n' :: cs) d :=
    ⟨'\n' :: bs, u, e, by simp, by rw [split]; rfl, .cons (Cursor.next_cons text) breaks, run⟩
  exact .of_broken text broken reads.reads ['\n'] rfl

/-- What a reader makes of lines between single quotes. -/
theorem reads_single (inset : 0 < n) (single : Style.Single n after cs w) (start : Mark)
    (common : ∀ x ∈ cs, Style.isSpecial x = false) (ends : tail.head? ≠ some '\'')
    (text : c.rest = w ++ tail) : ∃ d, ReadsSingle start after c cs w tail d := by
  induction single generalizing c with
  | nil => exact ⟨c, .closing text ends⟩
  | quote _ ih =>
    obtain ⟨-, common⟩ := List.forall_mem_cons.mp common
    obtain ⟨d, reads⟩ := ih common (Cursor.next_cons (Cursor.next_cons text))
    exact ⟨d, .doubled text reads⟩
  | char inner other _ ih =>
    obtain ⟨own, common⟩ := List.forall_mem_cons.mp common
    obtain ⟨d, reads⟩ := ih common (Cursor.next_cons text)
    exact ⟨d, .char own inner other text reads⟩
  | @fold x cs w blank inner single ih =>
    obtain ⟨-, common⟩ := List.forall_mem_cons.mp common
    obtain ⟨y, more, rfl, unbroken, other, known⟩ := single.head
      (fun same => inner (Option.some.inj same)) (fun same => blank (Option.some.inj same))
    have text : c.rest = '\n' :: (List.replicate n ' ' ++ y :: (more ++ tail)) := by simpa using text
    obtain ⟨d, reads⟩ := ih common (Cursor.skip_blanks (Cursor.next_cons text))
    exact ⟨d, .fold inset (isSpaceOrEnd_single common unbroken other known) text reads⟩
  | @last cs w unbroken blank single ih =>
    obtain ⟨-, common⟩ := List.forall_mem_cons.mp common
    obtain ⟨y, more, rfl, inner, other, known⟩ := single.head unbroken blank
    have text : c.rest = '\n' :: '\n' :: (List.replicate n ' ' ++ y :: (more ++ tail)) := by
      simpa using text
    obtain ⟨d, reads⟩ := ih common (Cursor.skip_blanks (Cursor.next_cons (Cursor.next_cons text)))
    exact ⟨d, .last inset (isSpaceOrEnd_single common inner other known) text reads⟩
  | @more cs w single ih =>
    obtain ⟨-, common⟩ := List.forall_mem_cons.mp common
    obtain ⟨v, rfl⟩ := single.exists_break
    obtain ⟨d, reads⟩ := ih common (Cursor.next_cons text)
    exact ⟨d, .more text reads⟩

/-! ## Quoted scalars -/

/-- A quoted scalar is what is read up to the closing quote. -/
theorem quoted_reads (text : c.rest = quote :: (w ++ tail))
    (reads : Reads quote c.mark c.next cs w tail d) :
    quoted c = .ok (Lexeme.token c.mark (c.skip (quote :: w).length)
      (.scalar (String.ofList cs) false)) := by
  have enough : c.next.rest.length < c.rest.length + 1 := by
    rw [Cursor.next_cons text, text, List.length_cons]
    omega
  have moved : d.next = c.skip (quote :: w).length := by
    rw [reads.next]
    rfl
  rw [quoted, Cursor.peek_cons text, quotedText_run reads.run enough]
  simp only [bind, Except.bind, moved]

end LiveDoc.Yaml.Scalar
