import LiveDoc.Proofs.YamlQuotedLines

/-!
# Lines of plain text

A plain scalar in a block goes on to the next line as long as that is indented deeper than the block.
It ends at a line that is not, or at a colon with a gap behind it. Like a quoted scalar it is read in
runs with spaces and breaks between them.
-/

namespace LiveDoc.Yaml

/-! ## Columns -/

/-- Whether a character is a space or another visible character of ASCII. -/
def IsPrintable (x : Char) : Prop := 32 ≤ x.toNat ∧ x.toNat ≤ 126

namespace Cursor

variable {c : Cursor} {front back : List Char} {x : Char} {n : Nat}

theorem next_column (text : c.rest = x :: back) (printable : IsPrintable x) :
    c.next.mark.column = c.mark.column + 1 := by
  have other : ∀ d : Char, d.toNat < 32 ∨ 126 < d.toNat → x ≠ d := by
    rintro d outside rfl
    obtain ⟨low, high⟩ := printable
    omega
  unfold next
  rw [text]
  simp [Mark.after, other '\n' (by decide), other '\u0085' (by decide), other '\u2028' (by decide),
    other '\u2029' (by decide), other '\r' (by decide), other '\uFEFF' (by decide)]

theorem newline_column (text : c.rest = '\n' :: back) : c.next.mark.column = 0 := by
  unfold next
  rw [text]
  rfl

/-- Printable characters take a column each. -/
theorem skip_column (text : c.rest = front ++ back) (printable : ∀ x ∈ front, IsPrintable x) :
    (c.skip front.length).mark.column = c.mark.column + front.length := by
  induction front generalizing c with
  | nil => rfl
  | cons x front ih =>
    have own := next_column text (printable x List.mem_cons_self)
    have others := ih (next_cons text) fun y inside => printable y (List.mem_cons_of_mem x inside)
    rw [List.length_cons, skip, others, own]
    omega

theorem skip_blanks_column (text : c.rest = List.replicate n ' ' ++ back) :
    (c.skip n).mark.column = c.mark.column + n := by
  have column := skip_column text fun x inside => by
    rw [List.eq_of_mem_replicate inside]
    exact ⟨by decide, by decide⟩
  rwa [List.length_replicate] at column

/-- A margin is as wide as the column behind it. -/
theorem margin_column (text : c.rest = '\n' :: (List.replicate n ' ' ++ back)) :
    (c.next.skip n).mark.column = n := by
  rw [skip_blanks_column (next_cons text), newline_column text, Nat.zero_add]

end Cursor

/-! ## What follows a line -/

/-- The break and the spaces between a line and the next token, which stands at a column, or at the end
of the text. The end closes all blocks, so it counts as a column in front of the first one. -/
inductive LineEnd : List Char → Int → List Char → Prop
  | stop : LineEnd ['\n'] (-1) []
  | token (column : Nat) {x : Char} {rest : List Char} : Progress.startsToken x = true →
      LineEnd ('\n' :: List.replicate column ' ') column (x :: rest)

theorem LineEnd.exists_break {gap rest : List Char} {column : Int} (next : LineEnd gap column rest) :
    ∃ more, gap = '\n' :: more := by
  cases next with
  | stop => exact ⟨_, rfl⟩
  | token => exact ⟨_, rfl⟩

namespace Scalar

variable {quote x y : Char} {fuel n k : Nat} {c d e : Cursor} {indent column : Int} {broken : Bool}
  {rest tail gap cs r w : List Char}

/-! ## Runs and what follows them -/

/-- What is read of a plain scalar behind a run. -/
def plainTail (indent : Int) (fuel : Nat) (c : Cursor) : PlainText :=
  let next := plainJoint c
  if next.text.isEmpty || next.cursor.peek == '#' ||
      decide ((next.cursor.mark.column : Int) < indent) then
    ⟨[], c.mark, next⟩
  else plainText false indent fuel c.mark next

theorem plainText_run {stop : Mark} {j : Joint} (other : j.cursor.peek ≠ '#')
    (present : plainRun false j.cursor.rest ≠ []) :
    plainText false indent (fuel + 1) stop j =
      { plainTail indent fuel (j.cursor.skip (plainRun false j.cursor.rest).length) with
        text := j.text ++ plainRun false j.cursor.rest ++
          (plainTail indent fuel (j.cursor.skip (plainRun false j.cursor.rest).length)).text } := by
  have go : ¬ (j.cursor.peek = '#' ∨ (plainRun false j.cursor.rest).isEmpty = true) := by
    simp [other, present]
  rw [plainText]
  simp only [if_neg go, plainTail, Bool.not_false, Bool.true_and]
  split
  · simp
  · rfl

/-- A text is read behind a run and some spaces, up to a cursor; the flag tells whether a break was
passed behind the last run. -/
def ReadsPlainTail (indent : Int) (k : Nat) (c : Cursor) (cs : List Char) (broken : Bool)
    (d : Cursor) : Prop :=
  ∀ b : Cursor, b.rest = List.replicate k ' ' ++ c.rest → b.skip k = c →
    ∀ fuel, k + c.rest.length ≤ fuel →
      (plainTail indent fuel b).text = List.replicate k ' ' ++ cs ∧
        (plainTail indent fuel b).last.broken = broken ∧
        (plainTail indent fuel b).last.cursor = d

/-- A text is read within a run and behind it. -/
def ReadsPlainRun (indent : Int) (c : Cursor) (cs : List Char) (broken : Bool) (d : Cursor) : Prop :=
  ∃ u, cs = plainRun false c.rest ++ u ∧
    ReadsPlainTail indent 0 (c.skip (plainRun false c.rest).length) u broken d

/-- What a run goes on with is part of a word. -/
theorem word_of_goesOn (more : endsPlain false x y = false) : isSpaceOrEnd x = false ∧ x ≠ ' ' := by
  simp only [endsPlain, Bool.or_eq_false_iff] at more
  refine ⟨more.1.1, ?_⟩
  rintro rfl
  exact Bool.noConfusion more.1.1

theorem plainRun_cons (more : endsPlain false x (rest.headD endOfText) = false) :
    plainRun false (x :: rest) = x :: plainRun false rest := by
  rw [plainRun, more]
  rfl

/-- What follows a joint is read from a run on that is not empty. -/
theorem plainText_reads (stop : Mark) {j : Joint} (text : j.cursor.rest = x :: rest)
    (other : x ≠ '#') (more : endsPlain false x (rest.headD endOfText) = false)
    (reads : ReadsPlainRun indent j.cursor cs broken d) (enough : j.cursor.rest.length < fuel) :
    (plainText false indent fuel stop j).text = j.text ++ cs ∧
      (plainText false indent fuel stop j).last.broken = broken ∧
      (plainText false indent fuel stop j).last.cursor = d := by
  obtain ⟨fuel, rfl⟩ := Nat.exists_eq_add_of_le' (Nat.zero_lt_of_lt enough)
  obtain ⟨u, rfl, reads⟩ := reads
  have run : plainRun false j.cursor.rest ≠ [] := by
    rw [text, plainRun_cons more]
    nofun
  have here : j.cursor.peek ≠ '#' := by rwa [Cursor.peek_cons text]
  have shorter : (j.cursor.skip (plainRun false j.cursor.rest).length).rest.length ≤ fuel := by
    rw [Cursor.skip_rest, List.length_drop]
    omega
  obtain ⟨behind, flag, cursor⟩ := reads _ rfl rfl fuel (by omega)
  rw [plainText_run here run]
  refine ⟨?_, flag, cursor⟩
  change _ ++ (plainTail _ _ _).text = _
  rw [behind, List.append_assoc]
  rfl

theorem ReadsPlainRun.char (text : c.rest = x :: rest)
    (more : endsPlain false x (rest.headD endOfText) = false)
    (reads : ReadsPlainRun indent c.next cs broken d) :
    ReadsPlainRun indent c (x :: cs) broken d := by
  obtain ⟨u, rfl, reads⟩ := reads
  rw [Cursor.next_cons text] at reads ⊢
  refine ⟨u, ?_, ?_⟩
  · rw [text, plainRun_cons more]
    rfl
  · rw [text, plainRun_cons more]
    exact reads

theorem ReadsPlainRun.stop (none : plainRun false c.rest = [])
    (reads : ReadsPlainTail indent 0 c cs broken d) : ReadsPlainRun indent c cs broken d := by
  refine ⟨cs, ?_, ?_⟩
  · rw [none]
    rfl
  · rw [none]
    exact reads

theorem plainRun_gap (text : c.rest = x :: rest) (ends : isSpaceOrEnd x = true) :
    plainRun false c.rest = [] := by
  rw [text, plainRun, if_pos (by simp [endsPlain, ends])]

theorem ReadsPlainTail.blank (text : c.rest = ' ' :: rest)
    (reads : ReadsPlainTail indent (k + 1) c.next cs broken d) :
    ReadsPlainTail indent k c (' ' :: cs) broken d := by
  intro b ahead moved fuel enough
  have count := length_next text
  obtain ⟨ahead, moved⟩ := past_blank text ahead moved
  rw [List.append_cons, ← List.replicate_succ']
  exact reads b ahead moved fuel (by omega)

/-- A joint that a run follows within the block. -/
theorem plainTail_joint {joint : List Char} {passed : Bool} (joins : plainJoint e = ⟨joint, passed, c⟩)
    (present : joint ≠ []) (text : c.rest = x :: rest) (other : x ≠ '#')
    (more : endsPlain false x (rest.headD endOfText) = false) (inside : indent ≤ c.mark.column)
    (reads : ReadsPlainRun indent c cs broken d) (enough : c.rest.length < fuel) :
    (plainTail indent fuel e).text = joint ++ cs ∧ (plainTail indent fuel e).last.broken = broken ∧
      (plainTail indent fuel e).last.cursor = d := by
  have goes : ¬ (joint.isEmpty || c.peek == '#' || decide ((c.mark.column : Int) < indent)) = true := by
    have here : (c.peek == '#') = false := by
      rw [Cursor.peek_cons text]
      exact beq_false_of_ne other
    simp [present, here]
    omega
  rw [plainTail, joins]
  simp only [if_neg goes]
  exact plainText_reads _ (j := ⟨joint, passed, c⟩) text other more reads enough

theorem ReadsPlainTail.run (text : c.rest = x :: rest) (other : x ≠ '#')
    (more : endsPlain false x (rest.headD endOfText) = false) (inside : indent ≤ c.mark.column)
    (reads : ReadsPlainRun indent c cs broken d) :
    ReadsPlainTail indent (k + 1) c cs broken d := by
  obtain ⟨word, blank⟩ := word_of_goesOn more
  intro b ahead moved fuel enough
  have joins : plainJoint b = ⟨List.replicate (k + 1) ' ', false, c⟩ := by
    have blanks : b.takeWhile (· == ' ') = List.replicate (k + 1) ' ' := by
      rw [Cursor.takeWhile, ahead, List.takeWhile_append_of_pos (by simp), text]
      simp [blank]
    simp only [plainJoint, blanks, List.length_replicate, moved,
      Cursor.lineBreak_none text (isBreak_of_word word)]
  exact plainTail_joint joins (by simp) text other more inside reads (by omega)

/-- A single break between two lines of a plain scalar is a space. -/
theorem plainJoint_break (text : c.rest = '\n' :: (List.replicate n ' ' ++ rest))
    (unmarked : c.next.atSeparator = false)
    (starts : rest = [] ∨ ∃ x more, rest = x :: more ∧ x ≠ ' ' ∧ isBreak x = false) :
    plainJoint c = ⟨[' '], true, c.next.skip n⟩ := by
  have blanks : c.takeWhile (· == ' ') = [] := by
    rw [Cursor.takeWhile, text]
    rfl
  have behind := Cursor.next_cons text
  have ahead := Cursor.skip_blanks behind
  have margin : c.next.skipWhile (· == ' ') = c.next.skip n := by
    have count : (c.next.rest.takeWhile (· == ' ')).length = n := by
      rw [behind, List.takeWhile_append_of_pos (by simp)]
      rcases starts with rfl | ⟨x, more, rfl, blank, -⟩
      · simp
      · simp [blank]
    rw [Cursor.skipWhile, count]
  have none : (c.next.skip n).lineBreak = (none, c.next.skip n) := by
    rcases starts with rfl | ⟨x, more, rfl, -, unbroken⟩
    · simp [Cursor.lineBreak, ahead]
    · exact Cursor.lineBreak_none ahead unbroken
  have breaks : ∀ fuel, plainBreaks (fuel + 1) c.next = (some [], c.next.skip n) := fun fuel => by
    rw [plainBreaks]
    simp only [margin, none]
  simp only [plainJoint, blanks, List.length_nil, Cursor.skip, lineBreak_newline text, unmarked,
    breaks]
  rfl

/-- A line that is indented goes on with the scalar. -/
theorem ReadsPlainTail.fold (text : c.rest = '\n' :: (List.replicate n ' ' ++ x :: rest))
    (inset : 0 < n) (other : x ≠ '#')
    (more : endsPlain false x (rest.headD endOfText) = false) (inside : indent ≤ n)
    (reads : ReadsPlainRun indent (c.next.skip n) cs broken d) :
    ReadsPlainTail indent 0 c (' ' :: cs) broken d := by
  obtain ⟨word, blank⟩ := word_of_goesOn more
  have behind := Cursor.next_cons text
  have ahead := Cursor.skip_blanks behind
  have column := Cursor.margin_column text
  have unmarked := Cursor.atSeparator_margin inset behind
  have joins := plainJoint_break text unmarked (.inr ⟨x, rest, rfl, blank, isBreak_of_word word⟩)
  intro b _ moved fuel enough
  obtain rfl : b = c := moved
  have shorter : (b.next.skip n).rest.length < fuel := by
    rw [ahead]
    simp only [text, List.length_cons, List.length_append, List.length_replicate] at enough ⊢
    omega
  have all := plainTail_joint joins (by simp) ahead other more (by omega) reads shorter
  exact all

/-- The scalar ends at a document marker. -/
theorem ReadsPlainTail.marker (text : c.rest = '\n' :: rest) (marked : c.next.atSeparator = true) :
    ReadsPlainTail indent 0 c [] true c.next := by
  intro b _ moved fuel _
  obtain rfl : b = c := moved
  have blanks : b.takeWhile (· == ' ') = [] := by
    rw [Cursor.takeWhile, text]
    rfl
  have joins : plainJoint b = ⟨[], true, b.next⟩ := by
    simp only [plainJoint, blanks, List.length_nil, Cursor.skip, lineBreak_newline text, marked,
      if_true]
  rw [plainTail, joins]
  exact ⟨rfl, rfl, rfl⟩

/-- The scalar ends at the end of the text. -/
theorem ReadsPlainTail.ended (text : c.rest = ['\n']) (unmarked : c.next.atSeparator = false) :
    ReadsPlainTail indent 0 c [] true c.next := by
  intro b _ moved fuel _
  obtain rfl : b = c := moved
  have joins : plainJoint b = ⟨[' '], true, b.next⟩ := plainJoint_break (n := 0) text unmarked (.inl rfl)
  have ended : b.next.rest = [] := Cursor.next_cons text
  have start : b.next.mark.column = 0 := Cursor.newline_column text
  have quiet : (b.next.peek == '#') = false := by simp [Cursor.peek, ended, endOfText]
  rw [plainTail, joins]
  simp only [List.isEmpty_cons, Bool.false_or, quiet, start]
  split
  · exact ⟨rfl, rfl, rfl⟩
  -- A block that the end of the text does not close finds no run there.
  · cases fuel with
    | zero => exact ⟨rfl, rfl, rfl⟩
    | succ fuel =>
      rw [plainText, if_pos (.inr (by rw [ended]; rfl))]
      exact ⟨rfl, rfl, rfl⟩

/-- The scalar ends at a line that is not indented deeper than its block. -/
theorem ReadsPlainTail.outdented (text : c.rest = '\n' :: (List.replicate n ' ' ++ x :: rest))
    (starts : Progress.startsToken x = true) (unmarked : c.next.atSeparator = false)
    (outside : (n : Int) < indent) : ReadsPlainTail indent 0 c [] true (c.next.skip n) := by
  intro b _ moved fuel _
  obtain rfl : b = c := moved
  simp only [Progress.startsToken, isBreakOrEnd, Bool.and_eq_true, bne_iff_ne, Bool.not_eq_true',
    Bool.or_eq_false_iff] at starts
  have joins := plainJoint_break text unmarked (.inr ⟨x, rest, rfl, starts.1.1.1, starts.2.2⟩)
  have ends : ([' '].isEmpty || (b.next.skip n).peek == '#' ||
      decide (((b.next.skip n).mark.column : Int) < indent)) = true := by
    rw [Cursor.margin_column text, decide_eq_true outside, Bool.or_true]
  rw [plainTail, joins]
  simp only [if_pos ends]
  exact ⟨rfl, trivial, trivial⟩

/-- A line that a document marker starts is not indented. -/
theorem flush_of_marked (next : LineEnd gap column rest) (text : c.rest = gap ++ rest)
    (marked : c.next.atSeparator = true) : c.skip gap.length = c.next := by
  cases next with
  | stop => rfl
  | token column =>
    rcases Nat.eq_zero_or_pos column with rfl | inset
    · rfl
    · rw [Cursor.atSeparator_margin inset (Cursor.next_cons text)] at marked
      contradiction

/-- A plain scalar ends behind its last line. -/
theorem ReadsPlainTail.last (text : c.rest = gap ++ rest) (next : LineEnd gap column rest)
    (outside : column < indent ∨ c.next.atSeparator = true) :
    ReadsPlainTail indent 0 c [] true (c.skip gap.length) := by
  by_cases marked : c.next.atSeparator = true
  · rw [flush_of_marked next text marked]
    obtain ⟨more, rfl⟩ := next.exists_break
    exact .marker text marked
  · have unmarked : c.next.atSeparator = false := by simpa using marked
    cases next with
    | stop => exact .ended text unmarked
    | token column starts =>
      have moved : c.skip ('\n' :: List.replicate column ' ').length = c.next.skip column := by
        simp [Cursor.skip]
      rw [moved]
      exact .outdented text starts unmarked (outside.resolve_right marked)

/-- The scalar ends at a colon that a gap follows. -/
theorem ReadsPlainTail.colon (text : c.rest = ':' :: rest) : ReadsPlainTail indent 0 c [] false c := by
  intro b _ moved fuel enough
  obtain rfl : b = c := moved
  have blanks : b.takeWhile (· == ' ') = [] := by
    rw [Cursor.takeWhile, text]
    rfl
  have joins : plainJoint b = ⟨[], false, b⟩ := by
    simp only [plainJoint, blanks, List.length_nil, Cursor.skip, Cursor.lineBreak_none text rfl]
  rw [plainTail, joins]
  exact ⟨rfl, rfl, rfl⟩

/-! ## Plain lines -/

theorem isGap_printable (printable : IsPrintable x) : Style.isGap x = (x == ' ') := by
  have other : ∀ d : Char, d.toNat < 32 ∨ 126 < d.toNat → (x == d) = false := fun d outside =>
    beq_false_of_ne fun same => by
      obtain ⟨low, high⟩ := printable
      rw [same] at low high
      omega
  simp [Style.isGap, Style.isLineEnd, other '\x00' (by decide), other '\t' (by decide),
    other '\r' (by decide), other '\n' (by decide), other '\u0085' (by decide),
    other '\u2028' (by decide), other '\u2029' (by decide)]

/-- A character of a plain text that is no space goes on with its run. -/
theorem endsPlain_char (tail : List Char) {after : Bool}
    (printable : ∀ y ∈ x :: cs, IsPrintable y) (visible : x ≠ ' ')
    (apart : Style.indicatesWithin after (x :: cs) = false) (plain : Style.Plain n false cs w) :
    endsPlain false x ((w ++ tail).headD endOfText) = false := by
  obtain ⟨low, high⟩ := printable x List.mem_cons_self
  have word := isSpaceOrEnd_printable low high visible
  by_cases colon : x = ':'
  · have open_ : Style.opensGap cs = false := by
      simp only [Style.indicatesWithin, colon, Bool.or_eq_false_iff] at apart
      simpa using apart.1.1
    cases cs with
    | nil => contradiction
    | cons y cs =>
      have own := printable y (List.mem_cons_of_mem x List.mem_cons_self)
      have other : y ≠ ' ' := by
        have gap : Style.isGap y = false := open_
        rw [isGap_printable own] at gap
        exact ne_of_beq_false gap
      obtain ⟨v, rfl, -⟩ := plain.head other
      have next := isSpaceOrEnd_printable own.1 own.2 other
      rw [List.cons_append, List.headD_cons, endsPlain, word, next]
      simp
  · simp [endsPlain, word, colon]

/-- A comment begins with a mark that stands behind a gap. -/
theorem ne_comment (apart : Style.indicatesWithin true (x :: cs) = false) : x ≠ '#' := by
  rintro rfl
  simp [Style.indicatesWithin] at apart

/-- Plain lines are read as a text up to a cursor: within a run, unless they go on with a space behind
spaces, and behind spaces where the block is not left. -/
structure ReadsPlain (indent : Int) (after : Bool) (c : Cursor) (cs : List Char) (broken : Bool)
    (d : Cursor) : Prop where
  run : after = false ∨ cs.head? ≠ some ' ' → ReadsPlainRun indent c cs broken d
  behindBlanks : after = true → cs ≠ [] → indent ≤ c.mark.column →
    ∀ k, ReadsPlainTail indent (k + 1) c cs broken d

variable {after : Bool}

theorem ReadsPlain.ending (stops : plainRun false c.rest = [])
    (ending : ReadsPlainTail indent 0 c [] broken d) : ReadsPlain indent after c [] broken d :=
  ⟨fun _ => .stop stops ending, fun _ some => absurd rfl some⟩

/-- A space that is not the last character. -/
theorem ReadsPlain.blank (text : c.rest = ' ' :: rest) (more : cs ≠ [])
    (inside : indent ≤ c.next.mark.column) (reads : ReadsPlain indent true c.next cs broken d) :
    ReadsPlain indent after c (' ' :: cs) broken d := by
  have behind := reads.behindBlanks rfl more inside
  exact ⟨fun _ => .stop (plainRun_gap text rfl) (.blank text (behind 0)),
    fun _ _ _ k => .blank text (behind (k + 1))⟩

/-- A character that goes on with a run. -/
theorem ReadsPlain.visible (text : c.rest = x :: rest) (other : after = true → x ≠ '#')
    (more : endsPlain false x (rest.headD endOfText) = false)
    (reads : ReadsPlain indent false c.next cs broken d) :
    ReadsPlain indent after c (x :: cs) broken d := by
  have run := ReadsPlainRun.char text more (reads.run (.inl rfl))
  exact ⟨fun _ => run, fun behind _ here _ => .run text (other behind) more here run⟩

/-- A space at which the line is folded. -/
theorem ReadsPlain.fold (text : c.rest = '\n' :: (List.replicate n ' ' ++ x :: rest)) (inset : 0 < n)
    (other : x ≠ '#') (more : endsPlain false x (rest.headD endOfText) = false)
    (inside : indent ≤ n) (reads : ReadsPlainRun indent (c.next.skip n) cs broken d) :
    ReadsPlain indent false c (' ' :: cs) broken d :=
  ⟨fun _ => .stop (plainRun_gap text rfl) (.fold text inset other more inside reads), by simp⟩

theorem getLast?_behind {x : Char} (last : (x :: cs).getLast? ≠ some ' ') : cs.getLast? ≠ some ' ' := by
  cases cs with
  | nil => simp
  | cons y cs => rwa [List.getLast?_cons_cons] at last

/-- What is read of plain lines is their text, if what follows them ends it. -/
theorem reads_plain (inset : 0 < n) (inside : indent ≤ n) (plain : Style.Plain n after cs w)
    (printable : ∀ x ∈ cs, IsPrintable x) (apart : Style.indicatesWithin after cs = false)
    (visible : cs.getLast? ≠ some ' ') (text : c.rest = w ++ tail)
    (here : indent ≤ c.mark.column + 1) (stops : plainRun false tail = [])
    (ending : ReadsPlainTail indent 0 (c.skip w.length) [] broken d) :
    ReadsPlain indent after c cs broken d := by
  induction plain generalizing c with
  | nil => exact .ending (text ▸ stops) ending
  | @char after x cs w plain ih =>
    have text : c.rest = x :: (w ++ tail) := text
    obtain ⟨own, others⟩ := List.forall_mem_cons.mp printable
    have later : Style.indicatesWithin (x == ' ') cs = false := by
      rw [← isGap_printable own]
      exact (Bool.or_eq_false_iff.mp apart).2
    have column := Cursor.next_column text own
    have reads := ih others later (getLast?_behind visible) (Cursor.next_cons text) (by omega) ending
    by_cases space : x = ' '
    · subst space
      have more : cs ≠ [] := by
        rintro rfl
        exact visible rfl
      exact .blank text more (by omega) reads
    · have word : (x == ' ') = false := beq_false_of_ne space
      rw [word] at plain reads
      refine .visible text ?_ (endsPlain_char tail printable space apart plain) reads
      rintro rfl
      exact ne_comment apart
  | @fold x cs w other plain ih =>
    have text : c.rest = '\n' :: (List.replicate n ' ' ++ (w ++ tail)) := by simpa using text
    obtain ⟨-, others⟩ := List.forall_mem_cons.mp printable
    have later : Style.indicatesWithin true (x :: cs) = false := (Bool.or_eq_false_iff.mp apart).2
    have column := Cursor.margin_column text
    have moved : (c.next.skip n).skip w.length =
        c.skip ('\n' :: (List.replicate n ' ' ++ w)).length := by
      rw [Cursor.skip_skip]
      simp [Cursor.skip]
    have reads := ih others later (getLast?_behind visible)
      (Cursor.skip_blanks (Cursor.next_cons text)) (by omega) (by rwa [moved])
    obtain ⟨v, rfl, inner⟩ := plain.head other
    exact .fold text inset (ne_comment later) (endsPlain_char tail others other later inner) inside
      (reads.run (.inr fun same => other (Option.some.inj same)))

/-! ## Plain scalars -/

/-- What makes a text fit to be written plain: it is printable, no indicator starts it or stands within
it, and no space is at either end. -/
structure Bare (x : Char) (cs : List Char) : Prop where
  printable : ∀ y ∈ x :: cs, IsPrintable y
  apart : Style.indicatesWithin true (x :: cs) = false
  visible : x ≠ ' '
  last : (x :: cs).getLast? ≠ some ' '
  unmarked : ∀ m, m = '-' ∨ m = '.' → (x :: cs).take 3 ≠ [m, m, m]
  opens : "#,[]\x7b\x7d&*!|>'\"%@\x60".toList.contains x = false
  goesOn : x = '?' ∨ x = ':' ∨ x = '-' → Style.opensGap cs = false

theorem bare_of_allowsPlain (allows : Style.allowsPlain (x :: cs) = true) : Bare x cs := by
  simp only [Style.allowsPlain, Style.allowsSingle, Bool.and_eq_true, Bool.not_eq_true',
    Bool.or_eq_false_iff, bne_iff_ne] at allows
  obtain ⟨⟨⟨⟨⟨⟨common, -⟩, -⟩, unbroken⟩, apart⟩, first⟩, last⟩ := allows
  have printable : ∀ y ∈ x :: cs, IsPrintable y := fun y inside => by
    refine printable_of_common (by simpa using List.any_eq_false.mp common y inside) ?_
    rintro rfl
    exact List.any_eq_false.mp unbroken '\n' inside rfl
  have visible : x ≠ ' ' := fun same => first (by rw [same]; rfl)
  simp only [Style.indicates, Bool.or_eq_false_iff] at apart
  obtain ⟨⟨⟨⟨dashes, dots⟩, opens⟩, goesOn⟩, within⟩ := apart
  have goesOn : x = '?' ∨ x = ':' ∨ x = '-' → Style.opensGap cs = false := by
    rintro (rfl | rfl | rfl) <;> simpa using goesOn
  have other : x ≠ '#' := by
    rintro rfl
    simp at opens
  refine ⟨printable, ?_, visible, last, ?_, opens, goesOn⟩
  · have colon : (x == ':' && Style.opensGap cs) = false := by
      by_cases same : x = ':'
      · rw [goesOn (.inr (.inl same)), Bool.and_false]
      · simp [same]
    simp [Style.indicatesWithin, colon, other, within]
  · rintro m (rfl | rfl)
    · simpa using dashes
    · simpa using dots

variable {m : Char}

/-- A bare text is written from its first character on. -/
theorem Bare.starts {after : Bool} (bare : Bare x cs) (plain : Style.Plain n after (x :: cs) w) :
    ∃ v, w = x :: v ∧ Style.Plain n false cs v := plain.head bare.visible

/-- A plain scalar that is read up to a cursor. -/
theorem plain_reads (bare : Bare x cs) (inset : 0 < n) (inside : indent ≤ n)
    (plain : Style.Plain n true (x :: cs) w) (text : c.rest = w ++ tail)
    (here : indent ≤ c.mark.column + 1) (stops : plainRun false tail = [])
    (ending : ReadsPlainTail indent 0 (c.skip w.length) [] broken d) :
    ∃ stop, Scalar.plain false indent c =
      (⟨.scalar (String.ofList (x :: cs)) true, c.mark, stop⟩, broken, d) := by
  have reads := reads_plain inset inside plain bare.printable bare.apart bare.last text here stops
    ending
  have run := reads.run (.inr fun same => bare.visible (Option.some.inj same))
  obtain ⟨v, rfl, inner⟩ := bare.starts plain
  have more := endsPlain_char tail bare.printable bare.visible bare.apart inner
  obtain ⟨texts, flag, cursor⟩ := plainText_reads c.mark (j := ⟨[], false, c⟩) text
    (ne_comment bare.apart) more run (Nat.lt_succ_self _)
  exact ⟨_, by rw [Scalar.plain, texts, flag, cursor]; rfl⟩

/-- A plain scalar at the end of a line. -/
theorem plain_line (bare : Bare x cs) (inset : 0 < n) (inside : indent ≤ n)
    (plain : Style.Plain n true (x :: cs) w) (text : c.rest = w ++ (gap ++ rest))
    (here : indent ≤ c.mark.column + 1) (next : LineEnd gap column rest)
    (outside : column < indent ∨ (c.skip w.length).next.atSeparator = true) :
    ∃ stop, Scalar.plain false indent c =
      (⟨.scalar (String.ofList (x :: cs)) true, c.mark, stop⟩, true,
        c.skip (w.length + gap.length)) := by
  have ahead := Cursor.skip_append text
  have stops : plainRun false (gap ++ rest) = [] := by
    cases next with
    | stop => exact plainRun_gap ahead rfl ▸ ahead ▸ rfl
    | token => exact plainRun_gap ahead rfl ▸ ahead ▸ rfl
  rw [← Cursor.skip_skip]
  exact plain_reads bare inset inside plain text here stops (.last ahead next outside)

/-- A plain scalar in front of a colon that a gap follows. -/
theorem plain_key (bare : Bare x cs) (inset : 0 < n) (inside : indent ≤ n)
    (plain : Style.Plain n true (x :: cs) w) (text : c.rest = w ++ ':' :: y :: rest)
    (here : indent ≤ c.mark.column + 1) (ends : isSpaceOrEnd y = true) :
    ∃ stop, Scalar.plain false indent c =
      (⟨.scalar (String.ofList (x :: cs)) true, c.mark, stop⟩, false, c.skip w.length) := by
  have stops : plainRun false (':' :: y :: rest) = [] := by simp [plainRun, endsPlain, ends]
  exact plain_reads bare inset inside plain text here stops (.colon (Cursor.skip_append text))

end Scalar

end LiveDoc.Yaml
