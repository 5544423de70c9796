import LiveDoc.Proofs.JsonText
import LiveDoc.Proofs.YamlCursor
import LiveDoc.Proofs.YamlFolding
import LiveDoc.Yaml.Scalar

/-!
# JSON strings as quoted scalars

A JSON string is a double-quoted scalar. Its characters stand in it as they are, or as escapes that mean
the same in YAML, so the reader comes upon the runs, spaces and breaks of the string itself. What it makes
of them is a matter of folding.
-/

namespace LiveDoc.Yaml.Scalar

variable {start : Mark} {fuel n : Nat} {c : Cursor} {b x : Char} {o : Except Halt (List Char)}
  {rest cs r t u : List Char} {double : Bool}

/-! ## Escapes -/

/-- The characters of a text as they stand in a JSON string. -/
def escaped (cs : List Char) : List Char := cs.flatMap Json.Writer.escapeChar

theorem escaped_cons (c : Char) (cs : List Char) :
    escaped (c :: cs) = Json.Writer.escapeChar c ++ escaped cs := List.flatMap_cons

theorem escaped_append (cs ds : List Char) : escaped (cs ++ ds) = escaped cs ++ escaped ds :=
  List.flatMap_append

/-- No control character is another one. -/
theorem ne_control (large : 32 ≤ x.toNat) {d : Char} (small : d.toNat < 32) : (x == d) = false :=
  beq_false_of_ne fun same => by
    rw [same] at large
    omega

theorem isInner_control (small : x.toNat < 32) : isInner x = true := by
  have differs : ∀ d : Char, 32 ≤ d.toNat → (x == d) = false := fun d large =>
    BEq.comm.trans (ne_control large small)
  simp only [isInner, isRawBreak, bne, differs ' ' (by decide), differs '\u0085' (by decide),
    differs '\u2028' (by decide), differs '\u2029' (by decide)]
  rfl

/-- Beyond control characters only spaces and the three breaks end a word. -/
theorem isSpaceOrEnd_large (large : 32 ≤ x.toNat) : isSpaceOrEnd x = !isInner x := by
  have control : ∀ d : Char, d.toNat < 32 → (x == d) = false := fun _ => ne_control large
  simp only [isSpaceOrEnd, isBreakOrEnd, isBreak, endOfText, control '\t' (by decide),
    control '\x00' (by decide), control '\r' (by decide), control '\n' (by decide), isInner, bne,
    isRawBreak, Bool.not_and, Bool.not_not, Bool.or_false, Bool.false_or]

/-- A character stands in a string as a letter behind a backslash, as a code, or as it is. -/
theorem escapeChar_cases (x : Char) :
    (∃ letter, Json.Writer.escapeChar x = ['\\', letter] ∧ shortEscapes.lookup letter = some x ∧
      isInner x = true) ∨
    (x.toNat < 32 ∧ Json.Writer.escapeChar x = '\\' :: 'u' :: Text.hex 4 x.toNat) ∨
    (32 ≤ x.toNat ∧ x ≠ '"' ∧ x ≠ '\\' ∧ Json.Writer.escapeChar x = [x]) := by
  unfold Json.Writer.escapeChar
  iterate 7
    split
    · subst_vars
      exact .inl ⟨_, rfl, rfl, by decide⟩
  split
  · exact .inr (.inl ⟨‹_›, rfl⟩)
  · exact .inr (.inr ⟨by omega, ‹_›, ‹_›, rfl⟩)

theorem escapeChar_outer (outer : isInner x = false) : Json.Writer.escapeChar x = [x] := by
  rcases outer_cases outer with rfl | rfl | rfl | rfl <;> rfl

/-- The code of a control character has four digits and is read back. -/
theorem control_code : ∀ n < 32, (Text.hex 4 n).all Lexeme.isHexDigit = true ∧
    (Text.hex 4 n).length = 4 ∧ Lexeme.hexValue (Text.hex 4 n) = n := by
  decide +kernel

theorem escape_letter {letter : Char} (text : c.rest = letter :: rest)
    (short : shortEscapes.lookup letter = some x) : escape start c = .ok ([x], c.next) := by
  unfold escape
  rw [Cursor.peek_cons text, short]

theorem escape_digits {letter : Char} {digits : List Char} {width : Nat}
    (text : c.rest = letter :: (digits ++ rest)) (other : shortEscapes.lookup letter = none)
    (long : codeLength? letter = some width) (hex : digits.all Lexeme.isHexDigit = true)
    (count : digits.length = width) (code : Lexeme.hexValue digits = x.toNat) :
    escape start c = .ok ([x], c.skip (width + 1)) := by
  have behind : c.next.rest = digits ++ rest := Cursor.next_cons text
  have none : ((List.range width).find? fun k => !Lexeme.isHexDigit (c.next.peek k)) =
      Option.none := by
    rw [List.find?_eq_none]
    intro k inside
    have less : k < digits.length := by
      rw [count]
      exact List.mem_range.mp inside
    have digit := List.all_eq_true.mp hex _ (List.getElem_mem less)
    simp [Cursor.peek, behind, List.getElem?_append_left less, List.getElem?_eq_getElem less, digit]
  have read : c.next.rest.take width = digits := by rw [behind, List.take_left' count]
  have valid : x.toNat.isValidChar := x.valid
  unfold escape
  rw [Cursor.peek_cons text, other, long]
  simp only [none, read, code, ofCode, if_pos valid, Char.ofNat_toNat, bind, Except.bind]
  rfl

theorem escape_code (text : c.rest = 'u' :: (Text.hex 4 x.toNat ++ rest)) (small : x.toNat < 32) :
    escape start c = .ok ([x], c.skip 5) := by
  obtain ⟨digits, width, code⟩ := control_code _ small
  exact escape_digits text rfl rfl digits width code

/-! ## Runs -/

theorem endsRun_inner (large : 32 ≤ x.toNat) (inner : isInner x = true) (quote : x ≠ '"')
    (slash : x ≠ '\\') : endsRun x = (x == '\'') := by
  rw [endsRun, isSpaceOrEnd_large large, inner, beq_false_of_ne quote, beq_false_of_ne slash]
  simp

/-- A character that ends no run is a part of it. -/
theorem quotedRun_plain (text : c.rest = x :: rest) (plain : endsRun x = false) :
    quotedRun double start (fuel + 1) c =
      (quotedRun double start (fuel + 1) c.next).map fun p => (x :: p.1, p.2) := by
  have run : c.takeWhile (!endsRun ·) = x :: c.next.takeWhile (!endsRun ·) := by
    simp [Cursor.takeWhile, text, Cursor.next_cons text, plain]
  rw [quotedRun, quotedRun]
  simp only [run, List.length_cons, Cursor.skip]
  generalize c.next.skip (c.next.takeWhile (!endsRun ·)).length = d
  split_ifs
  · cases quotedRun double start fuel d.next.next <;> rfl
  · cases quotedRun double start fuel d.next <;> rfl
  · cases escape start d.next with
    | error h => rfl
    | ok p => cases more : quotedRun double start fuel p.2 <;>
        simp [bind, Except.bind, more, Except.map]
  · rfl

/-- So is a character that ends runs between the other quotes only. -/
theorem quotedRun_other (text : c.rest = x :: rest)
    (other : double = true ∧ x = '\'' ∨ double = false ∧ (x = '"' ∨ x = '\\')) :
    quotedRun double start (fuel + 1) c =
      (quotedRun double start fuel c.next).map fun p => (x :: p.1, p.2) := by
  have ends : endsRun x = true := by rcases other with ⟨-, rfl⟩ | ⟨-, rfl | rfl⟩ <;> rfl
  have run : c.takeWhile (!endsRun ·) = [] := by simp [Cursor.takeWhile, text, ends]
  rw [quotedRun]
  simp only [run, List.length_nil, Cursor.skip, Cursor.peek_cons text]
  rcases other with ⟨rfl, rfl⟩ | ⟨rfl, rfl | rfl⟩ <;>
    cases quotedRun _ start fuel c.next <;> rfl

/-- So is what an escape stands for. -/
theorem quotedRun_escape {ds : List Char} {d : Cursor} (text : c.rest = '\\' :: rest)
    (read : escape start c.next = .ok (ds, d)) :
    quotedRun true start (fuel + 1) c =
      (quotedRun true start fuel d).map fun p => (ds ++ p.1, p.2) := by
  have run : c.takeWhile (!endsRun ·) = [] := by
    rw [Cursor.takeWhile, text]
    rfl
  rw [quotedRun]
  simp only [run, List.length_nil, Cursor.skip, Cursor.peek_cons text, read, bind, Except.bind]
  cases quotedRun true start fuel d <;> rfl

/-- A run stops at a character that has no part in it. -/
theorem quotedRun_stop (text : c.rest = x :: rest) (ends : endsRun x = true)
    (own : x ≠ (if double then '\'' else '"') ∧ x ≠ '\\')
    (single : double = true ∨ x ≠ '\'' ∨ c.peek 1 ≠ '\'') :
    quotedRun double start (fuel + 1) c = .ok ([], c) := by
  have run : c.takeWhile (!endsRun ·) = [] := by simp [Cursor.takeWhile, text, ends]
  rw [quotedRun]
  simp only [run, List.length_nil, Cursor.skip, Cursor.peek_cons text]
  cases double with
  | true => simp_all
  | false =>
    have apart : ¬ (x = '\'' ∧ c.peek 1 = '\'') := fun same =>
      (single.resolve_left Bool.false_ne_true).elim (· same.1) (· same.2)
    simp_all

/-- A run ends at a double quote, a space and a break. -/
theorem quotedRun_end (text : c.rest = x :: rest) (ends : x = '"' ∨ isInner x = false) :
    quotedRun true start (fuel + 1) c = .ok ([], c) := by
  have ended : endsRun x = true ∧ x ≠ '\'' ∧ x ≠ '\\' := by
    rcases ends with rfl | outer
    · decide
    · rcases outer_cases outer with rfl | rfl | rfl | rfl <;> decide
  exact quotedRun_stop text ended.1 ended.2 (.inl rfl)

/-- What is left behind the text of a character. -/
theorem skip_escaped (text : c.rest = escaped (x :: cs) ++ rest) :
    (c.skip (Json.Writer.escapeChar x).length).rest = escaped cs ++ rest := by
  rw [escaped_cons, List.append_assoc] at text
  exact Cursor.skip_append text

/-- The inner characters of a string are read up to what ends their run. -/
theorem quotedRun_escaped {y : Char} (inner : r.all isInner = true)
    (ends : y = '"' ∨ isInner y = false) (enough : r.length < fuel)
    (text : c.rest = escaped r ++ y :: rest) :
    quotedRun true start fuel c = .ok (r, c.skip (escaped r).length) := by
  induction r generalizing c fuel with
  | nil =>
    obtain ⟨fuel, rfl⟩ := Nat.exists_eq_succ_of_ne_zero (Nat.ne_of_gt enough)
    exact quotedRun_end text ends
  | cons x r ih =>
    obtain ⟨fuel, rfl⟩ := Nat.exists_eq_succ_of_ne_zero (Nat.ne_of_gt (Nat.zero_lt_of_lt enough))
    obtain ⟨own, others⟩ := Bool.and_eq_true_iff.mp inner
    have less : r.length < fuel := Nat.lt_of_succ_lt_succ enough
    have behind := skip_escaped text
    have whole : c.skip (escaped (x :: r)).length =
        (c.skip (Json.Writer.escapeChar x).length).skip (escaped r).length := by
      rw [Cursor.skip_skip, escaped_cons, List.length_append]
    have joined : ∀ more, r.length < more →
        ((quotedRun true start more (c.skip (Json.Writer.escapeChar x).length)).map fun p =>
          (x :: p.1, p.2)) = .ok (x :: r, c.skip (escaped (x :: r)).length) := by
      intro more large
      rw [ih others large behind, whole]
      rfl
    rw [escaped_cons, List.append_assoc] at text
    rcases escapeChar_cases x with ⟨letter, form, short, -⟩ | ⟨small, form⟩ |
      ⟨large, quote, slash, form⟩
    · rw [form] at text joined
      rw [quotedRun_escape text (escape_letter (Cursor.next_cons text) short)]
      exact joined fuel less
    · rw [form] at text joined
      rw [quotedRun_escape text (escape_code (Cursor.next_cons text) small)]
      rw [List.length_cons, List.length_cons, (control_code _ small).2.1] at joined
      exact joined fuel less
    · rw [form] at text joined
      by_cases single : x = '\''
      · subst single
        rw [quotedRun_other text (.inl ⟨rfl, rfl⟩)]
        exact joined fuel less
      · have plain : endsRun x = false := by
          rw [endsRun_inner large own quote slash]
          exact beq_false_of_ne single
        rw [quotedRun_plain text plain]
        exact joined (fuel + 1) (Nat.lt_succ_of_lt less)

/-! ## What follows a run -/

/-- A string that goes on with an inner character, or ends, goes on with one as it is written. -/
theorem head_escaped (inner : startsInner t = true) (rest : List Char) :
    ∃ y more, escaped t ++ '"' :: rest = y :: more ∧ 32 ≤ y.toNat ∧ isInner y = true := by
  cases t with
  | nil => exact ⟨'"', rest, rfl, by decide, by decide⟩
  | cons x t =>
    rw [escaped_cons]
    rcases escapeChar_cases x with ⟨letter, form, -, -⟩ | ⟨-, form⟩ | ⟨large, -, -, form⟩
    · exact ⟨'\\', _, by rw [form]; rfl, by decide, by decide⟩
    · exact ⟨'\\', _, by rw [form]; rfl, by decide, by decide⟩
    · exact ⟨x, _, by rw [form]; rfl, large, by simpa [startsInner] using inner⟩

theorem lineBreak_inner (text : c.rest = x :: rest) (large : 32 ≤ x.toNat) (inner : isInner x = true) :
    c.lineBreak = (none, c) := by
  have visible := isSpaceOrEnd_large large
  rw [inner] at visible
  simp only [isSpaceOrEnd, isBreakOrEnd, Bool.not_true, Bool.or_eq_false_iff] at visible
  exact Cursor.lineBreak_none text visible.2.2

theorem lineBreak_raw (text : c.rest = b :: rest) (raw : isRawBreak b = true) :
    c.lineBreak = (some (folded b), c.next) := by
  unfold Cursor.lineBreak
  rw [text]
  rcases outer_cases (outer_of_raw raw) with rfl | rfl | rfl | rfl
  · contradiction
  all_goals rfl

/-- A mark that needs no escape begins a string as it is written where it begins the string. -/
theorem starts_escaped {m : Char} (plain : Json.Writer.escapeChar m = [m])
    (bare : m ≠ '\\' ∧ m ≠ '"') (rest : List Char) (P : List Char → Prop) (n : Nat) (t : List Char) :
    ((escaped t ++ '"' :: rest).take n = List.replicate n m ∧ P ((escaped t ++ '"' :: rest).drop n)) ↔
      (t.take n = List.replicate n m ∧ P (escaped (t.drop n) ++ '"' :: rest)) := by
  induction n generalizing t with
  | zero => simp
  | succ n ih =>
    cases t with
    | nil => simp [escaped, List.replicate_succ, Ne.symm bare.2]
    | cons x t =>
      by_cases same : x = m
      · subst same
        simp only [escaped_cons, plain, List.cons_append, List.take_succ_cons, List.drop_succ_cons,
          List.replicate_succ, List.cons.injEq, true_and]
        exact ih t
      · have differs : ∀ more, ¬(escaped (x :: t) ++ '"' :: rest).take (n + 1) = m :: more := by
          intro more
          rw [escaped_cons]
          rcases escapeChar_cases x with ⟨letter, form, -, -⟩ | ⟨-, form⟩ | ⟨-, -, -, form⟩ <;>
            simp [form, Ne.symm bare.1, same]
        simp [List.replicate_succ, differs, same]

theorem isSpaceOrEnd_escaped (u : List Char) :
    isSpaceOrEnd ((escaped u ++ '"' :: rest).headD endOfText) = u.head?.any (!isInner ·) := by
  cases u with
  | nil => rfl
  | cons x u =>
    rw [escaped_cons]
    rcases escapeChar_cases x with ⟨letter, form, -, inner⟩ | ⟨small, form⟩ | ⟨large, -, -, form⟩
    · simp [form, inner, show isSpaceOrEnd '\\' = false from rfl]
    · simp [form, isInner_control small, show isSpaceOrEnd '\\' = false from rfl]
    · simp [form, isSpaceOrEnd_large large]

theorem atMarker_escaped {m : Char} (plain : Json.Writer.escapeChar m = [m])
    (bare : m ≠ '\\' ∧ m ≠ '"') (text : c.rest = escaped t ++ '"' :: rest) :
    c.atMarker m = (t.take 3 == [m, m, m] && (t.drop 3).head?.any (!isInner ·)) := by
  have peek : c.peek 3 = ((escaped t ++ '"' :: rest).drop 3).headD endOfText := by
    simp [Cursor.peek, text, List.head?_drop]
  have starts := starts_escaped plain bare rest
    (fun cs => isSpaceOrEnd (cs.headD endOfText) = true) 3 t
  rw [isSpaceOrEnd_escaped] at starts
  rw [Bool.eq_iff_iff, Cursor.atMarker, peek, text]
  simpa using starts

/-- Document markers stand in a string as it is written where they stand in the string. -/
theorem atSeparator_escaped (text : c.rest = escaped t ++ '"' :: rest) :
    c.atSeparator = isMarker t := by
  rw [Cursor.atSeparator, atMarker_escaped rfl (by decide) text,
    atMarker_escaped rfl (by decide) text, isMarker, Bool.and_or_distrib_right]

theorem escaped_blanks (n : Nat) (u : List Char) :
    escaped (List.replicate n ' ' ++ u) = List.replicate n ' ' ++ escaped u := by
  rw [escaped_append]
  congr 1
  induction n with
  | zero => rfl
  | succ n ih =>
    rw [List.replicate_succ, escaped_cons, ih]
    rfl

theorem length_escaped_blanks (n : Nat) : (escaped (List.replicate n ' ')).length = n := by
  simpa [escaped] using congrArg List.length (escaped_blanks n [])

theorem skip_blanks (text : c.rest = escaped (List.replicate n ' ' ++ u) ++ rest) :
    (c.skip n).rest = escaped u ++ rest := by
  rw [escaped_blanks, List.append_assoc] at text
  simpa using Cursor.skip_append text

theorem takeWhile_blanks (text : c.rest = escaped (List.replicate n ' ' ++ u) ++ '"' :: rest)
    (stops : ∀ x, u.head? = some x → x ≠ ' ') : c.takeWhile isSpace = List.replicate n ' ' := by
  have none : (escaped u ++ '"' :: rest).takeWhile isSpace = [] := by
    cases u with
    | nil => rfl
    | cons x u =>
      rw [escaped_cons]
      rcases escapeChar_cases x with ⟨letter, form, -, -⟩ | ⟨-, form⟩ | ⟨large, -, -, form⟩
      · rw [form]
        rfl
      · rw [form]
        rfl
      · simp [form, isSpace, beq_false_of_ne (stops x rfl), ne_control large (d := '\t') (by decide)]
  rw [Cursor.takeWhile, text, escaped_blanks, List.append_assoc, List.takeWhile_append_of_pos, none,
    List.append_nil]
  intro x inside
  rw [List.eq_of_mem_replicate inside]
  rfl

/-! ## Breaks -/

theorem skip_behind_break (raw : isRawBreak b = true) (gap : List Char) :
    (c.skip n).next.skip (escaped gap).length =
      c.skip (escaped (List.replicate n ' ' ++ b :: gap)).length := by
  rw [Cursor.skip_next, Cursor.skip_skip, escaped_append, escaped_cons,
    escapeChar_outer (outer_of_raw raw)]
  simp only [List.length_append, length_escaped_blanks, List.length_cons, List.length_nil]
  rw [Nat.add_assoc, Nat.zero_add]

/-- A break behind spaces in a string as it is written. -/
theorem raw_ahead (text : c.rest = escaped (List.replicate n ' ' ++ b :: t) ++ rest)
    (raw : isRawBreak b = true) : (c.skip n).rest = b :: (escaped t ++ rest) := by
  rw [skip_blanks text, escaped_cons, escapeChar_outer (outer_of_raw raw)]
  rfl

/-- Behind a break the reader finds a document marker, or the breaks and the tail of the text. -/
theorem quotedBreaks_escaped (start : Mark) (enough : t.length < fuel)
    (text : c.rest = escaped t ++ '"' :: rest) :
    (∃ h, quotedBreaks start fuel c = .error h ∧
      ∀ b, isRawBreak b = true → foldFree (b :: t) = false) ∨
    ∃ breaks gap tail, Folds t breaks gap tail ∧
      quotedBreaks start fuel c = .ok (breaks, c.skip (escaped gap).length) := by
  induction fuel generalizing c t with
  | zero => contradiction
  | succ fuel ih =>
    rw [quotedBreaks, atSeparator_escaped text]
    cases marked : isMarker t with
    | true =>
      refine .inl ⟨_, if_pos rfl, fun b raw => ?_⟩
      simp [foldFree_raw raw, marked]
    | false =>
      obtain ⟨n, u, rfl, other⟩ := exists_blanks t
      have blanks : c.skipWhile isSpace = c.skip n := by
        have taken := takeWhile_blanks text other
        rw [Cursor.takeWhile] at taken
        rw [Cursor.skipWhile, taken, List.length_replicate]
      simp only [Bool.false_eq_true, if_false, blanks]
      cases starts : startsInner u with
      | true =>
        obtain ⟨y, more, head, large, inner⟩ := head_escaped starts rest
        rw [lineBreak_inner ((skip_blanks text).trans head) large inner]
        exact .inr ⟨[], _, u, .blanks marked starts, by rw [length_escaped_blanks]⟩
      | false =>
        obtain ⟨b, t, rfl, raw⟩ := exists_raw starts other
        have here := raw_ahead text raw
        rw [lineBreak_raw here raw]
        simp only
        rcases ih (by simp at enough; omega) (Cursor.next_cons here) with ⟨h, failed, broken⟩ |
          ⟨breaks, gap, tail, folds, read⟩
        · refine .inl ⟨h, by rw [failed]; rfl, fun d other => ?_⟩
          simp [foldFree_raw other, foldFree_blanks_broken raw (broken b raw)]
        · refine .inr ⟨_, _, tail, folds.cons marked raw, ?_⟩
          rw [read, skip_behind_break raw]
          rfl

/-! ## Spaces between runs -/

/-- Spaces are followed by the next run or by a break. -/
theorem quotedSpaces_eq {more : List Char}
    (text : c.rest = escaped (List.replicate n ' ' ++ u) ++ '"' :: rest)
    (stops : ∀ x, u.head? = some x → x ≠ ' ') (head : escaped u ++ '"' :: rest = x :: more)
    (present : x ≠ endOfText) :
    quotedSpaces start c = match (c.skip n).lineBreak with
      | (none, _) => .ok (List.replicate n ' ', c.skip n)
      | (some b, after) =>
        (quotedBreaks start (after.rest.length + 1) after).bind fun p =>
          .ok ((if b ≠ '\n' then [b] else if p.1.isEmpty then [' '] else []) ++ p.1, p.2) := by
  have here : (c.skip n).peek = x := Cursor.peek_cons ((skip_blanks text).trans head)
  simp only [quotedSpaces, takeWhile_blanks text stops, List.length_replicate, here]
  rw [if_neg present]
  rfl

theorem quotedSpaces_blanks (text : c.rest = escaped (List.replicate n ' ' ++ u) ++ '"' :: rest)
    (starts : startsInner u = true) :
    quotedSpaces start c = .ok (List.replicate n ' ', c.skip n) := by
  obtain ⟨y, more, head, large, inner⟩ := head_escaped starts rest
  have present : y ≠ endOfText := by
    rintro rfl
    contradiction
  rw [quotedSpaces_eq text (head_ne_blank starts) head present,
    lineBreak_inner ((skip_blanks text).trans head) large inner]

theorem quotedSpaces_breaks (start : Mark)
    (text : c.rest = escaped (List.replicate n ' ' ++ b :: t) ++ '"' :: rest)
    (raw : isRawBreak b = true) :
    (∃ h, quotedSpaces start c = .error h ∧ foldFree (b :: t) = false) ∨
    ∃ breaks gap tail, Folds t breaks gap tail ∧ quotedSpaces start c =
      .ok (joint b breaks ++ breaks, c.skip (escaped (List.replicate n ' ' ++ b :: gap)).length) := by
  have blank : b ≠ ' ' := by
    rintro rfl
    contradiction
  have present : b ≠ endOfText := by
    rintro rfl
    contradiction
  have here := raw_ahead text raw
  have enough : t.length < (c.skip n).next.rest.length + 1 := by
    have := Json.Reader.length_le_escaped t
    rw [Cursor.next_cons here, List.length_append, escaped]
    omega
  have stops : ∀ x, (b :: t).head? = some x → x ≠ ' ' := fun x same => by
    rw [← Option.some.inj same]
    exact blank
  rw [quotedSpaces_eq text stops ((skip_blanks text).symm.trans here) present, lineBreak_raw here raw]
  rcases quotedBreaks_escaped start enough (Cursor.next_cons here) with ⟨h, failed, broken⟩ |
    ⟨breaks, gap, tail, folds, read⟩
  · exact .inl ⟨h, by simp only [failed]; rfl, broken b raw⟩
  · refine .inr ⟨breaks, gap, tail, folds, ?_⟩
    simp only [read, ← skip_behind_break raw]
    rfl

/-! ## Whole strings -/

/-- A string is read up to its closing quote. -/
def ReadsText (start : Mark) (fuel : Nat) (c : Cursor) (t : List Char) : Prop :=
  ∃ o, Kept t o ∧ quotedText '"' start fuel c = o.map fun cs => (cs, c.skip (escaped t).length)

theorem skip_escaped_append (r s : List Char) :
    (c.skip (escaped r).length).skip (escaped s).length = c.skip (escaped (r ++ s)).length := by
  rw [Cursor.skip_skip, escaped_append, List.length_append]

/-- The first run of a string, with what ends it. -/
theorem quotedRun_ahead {y : Char} {more : List Char} (inner : r.all isInner = true)
    (text : c.rest = escaped r ++ (escaped u ++ '"' :: rest))
    (head : escaped u ++ '"' :: rest = y :: more) (ends : y = '"' ∨ isInner y = false) :
    quotedRun true start (c.rest.length + 1) c = .ok (r, c.skip (escaped r).length) := by
  rw [head] at text
  have shorter := Json.Reader.length_le_escaped r
  have enough : r.length < c.rest.length + 1 := by
    rw [text, List.length_append, escaped]
    omega
  exact quotedRun_escaped inner ends enough text

/-- A string that is one run. -/
theorem readsText_run (inner : r.all isInner = true) (text : c.rest = escaped r ++ '"' :: rest) :
    ReadsText start (fuel + 1) c r := by
  have kept := Kept.nil.behind (noNextLine_run inner) (foldFree_run inner)
  rw [List.append_nil] at kept
  refine ⟨_, kept, ?_⟩
  have here : (c.skip (escaped r).length).peek = '"' := Cursor.peek_cons (Cursor.skip_append text)
  rw [quotedText]
  simp only [beq_self_eq_true, quotedRun_ahead (u := []) inner text rfl (.inl rfl), bind, Except.bind,
    here, if_true, Except.map, List.append_nil]

/-- What is written for a text that does not go on with its run starts with a space or a break. -/
theorem head_outer (outer : startsInner u = false) (rest : List Char) :
    ∃ x more, escaped u ++ '"' :: rest = x :: more ∧ isInner x = false := by
  cases u with
  | nil => contradiction
  | cons x u =>
    refine ⟨x, escaped u ++ '"' :: rest, ?_, outer⟩
    rw [escaped_cons, escapeChar_outer outer]
    rfl

/-- Behind the first run of a string its spaces and breaks are read, and then the rest of it. -/
theorem quotedText_outer (inner : r.all isInner = true)
    (text : c.rest = escaped r ++ (escaped u ++ '"' :: rest)) (outer : startsInner u = false) :
    quotedText '"' start (fuel + 1) c =
      (quotedSpaces start (c.skip (escaped r).length)).bind fun p =>
        (quotedText '"' start fuel p.2).map fun q => (r ++ p.1 ++ q.1, q.2) := by
  obtain ⟨x, more, head, outer⟩ := head_outer outer rest
  have here : (c.skip (escaped r).length).peek = x :=
    Cursor.peek_cons ((Cursor.skip_append text).trans head)
  have opened : x ≠ '"' := by
    rintro rfl
    contradiction
  rw [quotedText]
  simp only [beq_self_eq_true, quotedRun_ahead inner text head (.inr outer), bind, Except.bind, here]
  rw [if_neg opened]
  rfl

/-- A string that is a run, a gap that the reader has made something of, and a tail. -/
theorem readsText_gap {gap made tail : List Char} (inner : r.all isInner = true)
    (text : c.rest = escaped r ++ (escaped (gap ++ tail) ++ '"' :: rest))
    (outer : startsInner (gap ++ tail) = false)
    (spaces : quotedSpaces start (c.skip (escaped r).length) =
      .ok (made, (c.skip (escaped r).length).skip (escaped gap).length))
    (later : ReadsText start fuel ((c.skip (escaped r).length).skip (escaped gap).length) tail)
    (kept : ∀ o, Kept tail o → Kept (gap ++ tail) (o.map (made ++ ·))) :
    ReadsText start (fuel + 1) c (r ++ (gap ++ tail)) := by
  obtain ⟨o, own, read⟩ := later
  refine ⟨_, (kept o own).behind (noNextLine_run inner) (foldFree_run inner), ?_⟩
  rw [quotedText_outer inner text outer, spaces]
  simp only [Except.bind, read]
  rw [skip_escaped_append, skip_escaped_append]
  cases o <;> simp [Except.map]

/-- A string whose first run ends at spaces only. -/
theorem readsText_blanks (inner : r.all isInner = true) (some : n ≠ 0) (starts : startsInner u = true)
    (text : c.rest = escaped r ++ (escaped (List.replicate n ' ' ++ u) ++ '"' :: rest))
    (later : ReadsText start fuel ((c.skip (escaped r).length).skip n) u) :
    ReadsText start (fuel + 1) c (r ++ (List.replicate n ' ' ++ u)) := by
  have outer : startsInner (List.replicate n ' ' ++ u) = false := by
    obtain ⟨n, rfl⟩ := Nat.exists_eq_succ_of_ne_zero some
    rfl
  have width := length_escaped_blanks n
  refine readsText_gap inner text outer ?_ (by rwa [width]) fun o kept =>
    kept.behind (by simp) (foldFree_blanks starts)
  rw [quotedSpaces_blanks (Cursor.skip_append text) starts, width]

/-- A string whose first run ends at a break, perhaps behind spaces: a document marker may stop the
reader behind it. -/
theorem readsText_breaks (inner : r.all isInner = true) (raw : isRawBreak b = true)
    (text : c.rest = escaped r ++ (escaped (List.replicate n ' ' ++ b :: t) ++ '"' :: rest))
    (later : ∀ d u, u.length ≤ t.length → d.rest = escaped u ++ '"' :: rest →
      ReadsText start fuel d u) :
    ReadsText start (fuel + 1) c (r ++ (List.replicate n ' ' ++ b :: t)) := by
  have outer : startsInner (List.replicate n ' ' ++ b :: t) = false := by
    cases n with
    | zero => exact outer_of_raw raw
    | succ n => rfl
  have behind := Cursor.skip_append text
  rcases quotedSpaces_breaks start behind raw with ⟨h, failed, broken⟩ |
    ⟨breaks, gap, tail, folds, read⟩
  · have broken := (foldFree_run inner).trans (foldFree_blanks_broken (n := n) raw broken)
    refine ⟨.error h, .failed broken, ?_⟩
    rw [quotedText_outer inner text outer, failed]
    rfl
  · have parts : List.replicate n ' ' ++ b :: t = (List.replicate n ' ' ++ b :: gap) ++ tail := by
      rw [folds.split]
      simp
    have shorter : tail.length ≤ t.length := by
      have := congrArg List.length folds.split
      rw [List.length_append] at this
      omega
    rw [parts] at text outer behind ⊢
    rw [escaped_append, List.append_assoc] at behind
    refine readsText_gap inner text outer read (later _ tail shorter (Cursor.skip_append behind))
      fun o kept => ?_
    rw [← parts]
    exact kept.breaks raw folds

/-- Every string is read up to its closing quote, unless a document marker stops the reader. -/
theorem quotedText_escaped (start : Mark) (enough : t.length < fuel)
    (text : c.rest = escaped t ++ '"' :: rest) : ReadsText start fuel c t := by
  induction fuel generalizing c t with
  | zero => contradiction
  | succ fuel ih =>
    obtain ⟨r, u, rfl, inner, outer⟩ := exists_run t
    obtain ⟨n, w, rfl, other⟩ := exists_blanks u
    simp only [List.length_append, List.length_replicate] at enough
    rw [escaped_append, List.append_assoc] at text
    cases starts : startsInner w with
    | true =>
      cases n with
      | zero =>
        -- what follows the run is none of its characters, so there is nothing
        obtain rfl : w = [] := by
          cases w with
          | nil => rfl
          | cons x w =>
            have inside : isInner x = true := starts
            rw [outer x rfl] at inside
            contradiction
        rw [List.replicate_zero, List.append_nil, List.append_nil]
        exact readsText_run inner text
      | succ n =>
        have behind := skip_blanks (Cursor.skip_append text)
        exact readsText_blanks inner n.succ_ne_zero starts text (ih (by omega) behind)
    | false =>
      obtain ⟨b, t, rfl, raw⟩ := exists_raw starts other
      rw [List.length_cons] at enough
      exact readsText_breaks inner raw text fun d u less behind => ih (by omega) behind

/-- A JSON string is read as a quoted scalar, unless a document marker stops the reader. Its text is
the one that was written if and only if folding leaves that as it is. -/
theorem quoted_string (s : String) (text : c.rest = (Json.Writer.string s).toList ++ rest) :
    ∃ o, Kept s.toList o ∧ quoted c = o.map fun cs =>
      Lexeme.token c.mark (c.skip (Json.Writer.string s).toList.length)
        (.scalar (String.ofList cs) false) := by
  rw [Json.Reader.toList_string] at text
  have behind : c.next.rest = escaped s.toList ++ '"' :: rest := Cursor.next_cons text
  have enough : s.toList.length < c.rest.length + 1 := by
    have := Json.Reader.length_le_escaped s.toList
    rw [text, List.length_cons, List.length_append]
    omega
  obtain ⟨o, kept, read⟩ := quotedText_escaped c.mark enough behind
  refine ⟨o, kept, ?_⟩
  have width : (Json.Writer.string s).toList.length = (escaped s.toList).length + 2 := by
    simp [Json.Writer.string, escaped]
  have last : (c.next.skip (escaped s.toList).length).next =
      c.skip (Json.Writer.string s).toList.length := by
    rw [Cursor.skip_next, width]
    rfl
  rw [quoted, Cursor.peek_cons text, read]
  cases o with
  | error h => rfl
  | ok cs => simp [bind, Except.bind, Except.map, last]

end LiveDoc.Yaml.Scalar
