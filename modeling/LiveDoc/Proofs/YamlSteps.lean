import LiveDoc.Proofs.YamlCursor
import LiveDoc.Yaml.TokenStream

/-!
# Reading tokens in flow style

As long as no block is open, no key is required, and only what it reads can stop the reader. A run then
goes from one such progress to the next: over the marks of flow style and over plain words, up to the end
of the text.
-/

namespace LiveDoc.Yaml.Progress

/-! ## Progress without blocks -/

/-- The kinds of the tokens. -/
def kinds (p : Progress) : List TokenKind := p.tokens.toList.map (·.kind)

/-- Whether no block is open, so that no key is required, and the stream goes on. -/
structure Steady (p : Progress) : Prop where
  outer : p.outer = []
  indent : p.indent = -1
  level : 0 ≤ p.level
  optional : ∀ k ∈ p.pending, k.required = false
  ongoing : .streamEnd ∉ p.kinds

/-- The progress with the cursor behind some characters. -/
def moved (p : Progress) (n : Nat) : Progress := { p with cursor := p.cursor.skip n }

/-- The progress with some of the pending keys. -/
def keeping (p : Progress) (which : PendingKey → Bool) : Progress :=
  { p with pending := p.pending.filter which }

/-- The progress without the keys that are out of reach. -/
def fresh (p : Progress) : Progress := p.keeping (!p.isStale ·)

/-- The progress without the key of the current level. -/
def dropped (p : Progress) : Progress := p.keeping (!·.level == p.level)

/-- The key that the next token may become. -/
def nextKey (p : Progress) : PendingKey :=
  { number := p.tokens.size
    required := !p.inFlow && p.indent == p.column
    level := p.level
    mark := p.cursor.mark }

/-- The progress with that key, where one is allowed. -/
def saved (p : Progress) : Progress :=
  if p.allowKey then { p.dropped with pending := p.dropped.pending ++ [p.nextKey] } else p

variable {p q r : Progress} {n width : Nat} {x : Char} {rest w : List Char} {kind : TokenKind}
  {ks ls : List TokenKind} {level : Int} {allowKey : Bool}

theorem moved_zero (p : Progress) : p.moved 0 = p := rfl

theorem Steady.moved (steady : p.Steady) (n : Nat) : (p.moved n).Steady :=
  ⟨steady.outer, steady.indent, steady.level, steady.optional, steady.ongoing⟩

theorem Steady.keeping (steady : p.Steady) (which : PendingKey → Bool) : (p.keeping which).Steady :=
  ⟨steady.outer, steady.indent, steady.level,
    fun k inside => steady.optional k (List.mem_filter.mp inside).1, steady.ongoing⟩

theorem Steady.fresh (steady : p.Steady) : p.fresh.Steady := steady.keeping _

theorem Steady.dropped (steady : p.Steady) : p.dropped.Steady := steady.keeping _

/-- Every column is beyond the indentation outside of blocks. -/
theorem Steady.saved (steady : p.Steady) : p.saved.Steady := by
  have optional : p.nextKey.required = false := by
    have before : ((-1 : Int) == p.column) = false := beq_false_of_ne (by unfold column; omega)
    simp [nextKey, steady.indent, before]
  unfold Progress.saved
  split
  · refine ⟨steady.outer, steady.indent, steady.level, fun k inside => ?_, steady.ongoing⟩
    rcases List.mem_append.mp inside with inside | inside
    · exact steady.dropped.optional k inside
    · rw [List.mem_singleton.mp inside, optional]
  · exact steady

/-- Saving a key changes the pending keys only. -/
theorem saved_eq (p : Progress) : ∃ pending, p.saved = { p with pending := pending } := by
  unfold saved
  split
  · exact ⟨_, rfl⟩
  · exact ⟨_, rfl⟩

/-- Keys that are not required are given up without fail. -/
theorem giveUp_steady (steady : p.Steady) (which : PendingKey → Bool) :
    p.giveUp which = .ok (p.keeping (!which ·)) := by
  have none : p.pending.find? (fun k => which k && k.required) = none :=
    List.find?_eq_none.mpr fun k inside => by simp [steady.optional k inside]
  rw [giveUp, none]
  rfl

theorem dropStale_steady (steady : p.Steady) : p.dropStale = .ok p.fresh := giveUp_steady steady _

theorem dropKey_steady (steady : p.Steady) : p.dropKey = .ok p.dropped := giveUp_steady steady _

theorem saveKey_steady (steady : p.Steady) : p.saveKey = .ok p.saved := by
  unfold saveKey saved
  rw [dropKey_steady steady]
  split <;> rfl

theorem unwind_steady (steady : p.Steady) (column : Int) : p.unwind column = p := by
  unfold unwind
  rw [steady.outer]
  split <;> rfl

/-- What is out of reach is given up once. -/
theorem fresh_fresh (p : Progress) : p.fresh.fresh = p.fresh := by
  have same : p.fresh.isStale = p.isStale := rfl
  have twice : (p.pending.filter (!p.isStale ·)).filter (!p.isStale ·) =
      p.pending.filter (!p.isStale ·) := by simp
  unfold fresh keeping at same ⊢
  rw [same]
  simp only [twice]

/-! ## Runs -/

/-- A run goes on from another progress, with enough fuel. -/
def Leads (p q : Progress) : Prop := ∀ fuel, p.cursor.rest.length < fuel →
  ∃ fuel', q.cursor.rest.length < fuel' ∧ run fuel p = run fuel' q

/-- A run stops before the end of the stream. -/
def Stops (p : Progress) : Prop := ∀ fuel, p.cursor.rest.length < fuel →
  (∃ h, (run fuel p).halt = some h) ∧ ∀ t ∈ (run fuel p).items, t.kind ≠ .streamEnd

/-- A run comes to a progress behind some characters, with more tokens. -/
structure Reaches (p : Progress) (width : Nat) (level : Int) (allowKey : Bool) (ks : List TokenKind)
    (q : Progress) : Prop where
  leads : Leads p q
  steady : q.Steady
  cursor : q.cursor = p.cursor.skip width
  level : q.level = level
  allowKey : q.allowKey = allowKey
  kinds : q.kinds = p.kinds ++ ks

theorem Leads.trans (first : Leads p q) (second : Leads q r) : Leads p r := by
  intro fuel enough
  obtain ⟨less, enough, same⟩ := first fuel enough
  obtain ⟨least, enough, again⟩ := second less enough
  exact ⟨least, enough, same.trans again⟩

theorem Leads.stops (leads : Leads p q) (stops : Stops q) : Stops p := by
  intro fuel enough
  obtain ⟨less, enough, same⟩ := leads fuel enough
  rw [same]
  exact stops less enough

theorem Reaches.refl (steady : p.Steady) : Reaches p 0 p.level p.allowKey [] p :=
  ⟨fun fuel enough => ⟨fuel, enough, rfl⟩, steady, rfl, rfl, rfl, (List.append_nil _).symm⟩

theorem Reaches.trans {deeper : Int} {allowed : Bool} {wide : Nat}
    (first : Reaches p width level allowKey ks q) (second : Reaches q wide deeper allowed ls r) :
    Reaches p (width + wide) deeper allowed (ks ++ ls) r := by
  refine ⟨first.leads.trans second.leads, second.steady, ?_, second.level, second.allowKey, ?_⟩
  · rw [second.cursor, first.cursor, Cursor.skip_skip]
  · rw [second.kinds, first.kinds, List.append_assoc]

/-- What is ahead of a run that went over a text. -/
theorem Reaches.behind (reaches : Reaches p width level allowKey ks q) (front : List Char)
    (text : p.cursor.rest = front ++ rest) (length : front.length = width) :
    q.cursor.rest = rest := by
  rw [reaches.cursor, Cursor.skip_rest, text, List.drop_left' length]

/-! ## One token -/

/-- Whether a character is none that is skipped between tokens or ends the text. -/
def startsToken (x : Char) : Bool :=
  x != ' ' && x != '#' && x != '\uFEFF' && !isBreakOrEnd x

theorem skipBlanks_blanks (text : p.cursor.rest = List.replicate n ' ' ++ x :: rest)
    (starts : startsToken x = true) (fuel : Nat) : skipBlanks (fuel + 1) p = p.moved n := by
  simp only [startsToken, isBreakOrEnd, Bool.and_eq_true, bne_iff_ne, Bool.not_eq_true',
    Bool.or_eq_false_iff] at starts
  obtain ⟨⟨⟨space, comment⟩, -⟩, -, visible⟩ := starts
  have blanks : (p.cursor.rest.takeWhile (· == ' ')).length = n := by
    rw [text, List.takeWhile_append_of_pos (by simp)]
    simp [space]
  have behind := Cursor.skip_blanks text
  have uncommented : (p.cursor.skip n).skipComment = p.cursor.skip n := by
    rw [Cursor.skipComment, Cursor.peek_cons behind, if_neg comment]
  rw [skipBlanks, Cursor.skipWhile, blanks, uncommented, Cursor.lineBreak_none behind visible]
  rfl

theorem rest_moved (text : p.cursor.rest = List.replicate n ' ' ++ rest) :
    (p.moved n).fresh.cursor.rest = rest :=
  Cursor.skip_blanks text

/-- The next token is behind the blanks. -/
theorem toNextToken_blanks (steady : p.Steady)
    (text : p.cursor.rest = List.replicate n ' ' ++ x :: rest) (starts : startsToken x = true) :
    p.toNextToken = .ok (p.moved n).fresh := by
  have unmarked : (p.cursor.peek == '\uFEFF') = false := by
    cases n with
    | zero =>
      rw [Cursor.peek_cons text]
      simp only [startsToken, Bool.and_eq_true, bne_iff_ne] at starts
      exact beq_false_of_ne starts.1.2
    | succ n =>
      rw [Cursor.peek_cons text]
      rfl
  unfold toNextToken
  simp only [unmarked, Bool.and_false, Bool.false_eq_true, if_false, skipBlanks_blanks text starts,
    dropStale_steady (steady.moved n), bind, Except.bind, unwind_steady (steady.moved n).fresh]

/-- A run reads the token behind the blanks. -/
theorem run_token (steady : p.Steady) (text : p.cursor.rest = List.replicate n ' ' ++ x :: rest)
    (starts : startsToken x = true) (fuel : Nat) :
    run (fuel + 1) p = match (p.moved n).fresh.readToken >>= dropStale with
      | .error h => ⟨p.settled, some h⟩
      | .ok q => run fuel q := by
  have present : (p.moved n).fresh.cursor.peek ≠ endOfText := by
    rw [Cursor.peek_cons (rest_moved text)]
    simp only [startsToken, isBreakOrEnd, Bool.and_eq_true, Bool.not_eq_true',
      Bool.or_eq_false_iff, beq_eq_false_iff_ne] at starts
    exact starts.2.1
  rw [run, toNextToken_blanks steady text starts]
  exact if_neg present

/-- A run goes on behind a token that it reads. -/
theorem leads_token (steady : p.Steady) (text : p.cursor.rest = List.replicate n ' ' ++ x :: rest)
    (starts : startsToken x = true) (read : (p.moved n).fresh.readToken = .ok q) (some : 0 < width)
    (cursor : q.cursor = p.cursor.skip (n + width)) (own : q.Steady) : Leads p q.fresh := by
  intro fuel enough
  obtain ⟨less, rfl⟩ := Nat.exists_eq_add_of_le' (Nat.zero_lt_of_lt enough)
  refine ⟨less, ?_, ?_⟩
  · change q.cursor.rest.length < less
    rw [cursor, Cursor.skip_rest, List.length_drop]
    have := congrArg List.length text
    simp only [List.length_append, List.length_replicate, List.length_cons] at this
    omega
  · rw [run_token steady text starts, read]
    simp only [bind, Except.bind, dropStale_steady own]

theorem reaches_token (steady : p.Steady) (text : p.cursor.rest = List.replicate n ' ' ++ x :: rest)
    (starts : startsToken x = true) (read : (p.moved n).fresh.readToken = .ok q) (some : 0 < width)
    (cursor : q.cursor = p.cursor.skip (n + width)) (own : q.Steady)
    (kinds : q.kinds = p.kinds ++ ks) : Reaches p (n + width) q.level q.allowKey ks q.fresh :=
  ⟨leads_token steady text starts read some cursor own, own.fresh, cursor, rfl, rfl, kinds⟩

theorem settled_ongoing (steady : p.Steady) : ∀ t ∈ p.settled, t.kind ≠ .streamEnd := by
  intro t inside same
  have present : t ∈ p.tokens.toList := by
    unfold settled at inside
    split at inside
    · exact List.mem_of_mem_take inside
    · exact inside
  exact steady.ongoing (same ▸ List.mem_map_of_mem present)

/-- A run stops at a token that it cannot read. -/
theorem stops_token {h : Halt} (steady : p.Steady)
    (text : p.cursor.rest = List.replicate n ' ' ++ x :: rest) (starts : startsToken x = true)
    (read : (p.moved n).fresh.readToken = .error h) : Stops p := by
  intro fuel enough
  obtain ⟨less, rfl⟩ := Nat.exists_eq_add_of_le' (Nat.zero_lt_of_lt enough)
  rw [run_token steady text starts, read]
  exact ⟨⟨h, rfl⟩, settled_ongoing steady⟩

/-! ## Brackets, braces and commas -/

theorem kinds_pushNext (p : Progress) (width : Nat) (kind : TokenKind) :
    (p.pushNext width kind).kinds = p.kinds ++ [kind] := by
  simp [kinds, pushNext]

theorem Steady.pushNext (steady : p.Steady) (floor : 0 ≤ level) (allowKey : Bool) (width : Nat)
    (other : kind ≠ .streamEnd) :
    ({ p with level := level, allowKey := allowKey }.pushNext width kind).Steady := by
  refine ⟨steady.outer, steady.indent, floor, steady.optional, ?_⟩
  have ongoing : .streamEnd ∉ p.kinds := steady.ongoing
  rw [kinds_pushNext, List.mem_append, not_or, List.mem_singleton]
  exact ⟨ongoing, Ne.symm other⟩

/-- A mark of flow style is a token of its own. Reading it may change the pending keys. -/
theorem reaches_mark {m : Progress} (steady : p.Steady)
    (text : p.cursor.rest = List.replicate n ' ' ++ x :: rest) (starts : startsToken x = true)
    (behind : ∃ pending, m = { (p.moved n).fresh with pending := pending } ∧ m.Steady)
    (floor : 0 ≤ level) (other : kind ≠ .streamEnd)
    (read : (p.moved n).fresh.readToken =
      .ok ({ m with level := level, allowKey := allowKey }.pushNext 1 kind)) :
    ∃ q, Reaches p (n + 1) level allowKey [kind] q := by
  obtain ⟨pending, rfl, own⟩ := behind
  exact ⟨_, reaches_token steady text starts read Nat.one_pos (Cursor.skip_skip ..)
    (own.pushNext floor allowKey 1 other) (kinds_pushNext _ _ _)⟩

theorem openFlow_steady (steady : p.Steady) (kind : TokenKind) : p.openFlow kind =
    .ok ({ p.saved with level := p.saved.level + 1, allowKey := true }.pushNext 1 kind) := by
  rw [openFlow, saveKey_steady steady]
  rfl

/-- An opening bracket or brace. -/
theorem reaches_open (steady : p.Steady) (text : p.cursor.rest = List.replicate n ' ' ++ x :: rest)
    (opens : x = '[' ∧ kind = .flowSequenceStart ∨ x = '\x7b' ∧ kind = .flowMappingStart) :
    ∃ q, Reaches p (n + 1) (p.level + 1) true [kind] q := by
  have behind := rest_moved text
  have own := (steady.moved n).fresh
  have read : (p.moved n).fresh.readToken = (p.moved n).fresh.openFlow kind := by
    rcases opens with ⟨rfl, rfl⟩ | ⟨rfl, rfl⟩ <;>
      simp [readToken, Cursor.peek_cons behind, Cursor.atMarker_of_ne behind]
  have starts : startsToken x = true := by
    rcases opens with ⟨rfl, rfl⟩ | ⟨rfl, rfl⟩ <;> rfl
  have other : kind ≠ .streamEnd := by
    rcases opens with ⟨rfl, rfl⟩ | ⟨rfl, rfl⟩ <;> nofun
  obtain ⟨pending, saved⟩ := (p.moved n).fresh.saved_eq
  have level : (p.moved n).fresh.saved.level = p.level := by
    rw [saved]
    rfl
  rw [openFlow_steady own, level] at read
  have floor := steady.level
  exact reaches_mark steady text starts ⟨pending, saved, own.saved⟩ (by omega) other read

/-- A closing bracket or brace. -/
theorem reaches_close (steady : p.Steady) (inside : 0 < p.level)
    (text : p.cursor.rest = x :: rest)
    (closes : x = ']' ∧ kind = .flowSequenceEnd ∨ x = '\x7d' ∧ kind = .flowMappingEnd) :
    ∃ q, Reaches p 1 (p.level - 1) false [kind] q := by
  have own := (steady.moved 0).fresh
  have read : (p.moved 0).fresh.readToken = (p.moved 0).fresh.closeFlow kind := by
    have behind : (p.moved 0).fresh.cursor.rest = x :: rest := text
    rcases closes with ⟨rfl, rfl⟩ | ⟨rfl, rfl⟩ <;>
      simp [readToken, Cursor.peek_cons behind, Cursor.atMarker_of_ne behind]
  have starts : startsToken x = true := by
    rcases closes with ⟨rfl, rfl⟩ | ⟨rfl, rfl⟩ <;> rfl
  have other : kind ≠ .streamEnd := by
    rcases closes with ⟨rfl, rfl⟩ | ⟨rfl, rfl⟩ <;> nofun
  rw [closeFlow, dropKey_steady own] at read
  have floor : 0 ≤ p.level - 1 := by omega
  simpa using reaches_mark (n := 0) steady text starts ⟨_, rfl, own.dropped⟩ floor other read

/-- A comma. -/
theorem reaches_comma (steady : p.Steady) (text : p.cursor.rest = ',' :: rest) :
    ∃ q, Reaches p 1 p.level true [.flowEntry] q := by
  have own := (steady.moved 0).fresh
  have read : (p.moved 0).fresh.readToken = (p.moved 0).fresh.separate := by
    have behind : (p.moved 0).fresh.cursor.rest = ',' :: rest := text
    simp [readToken, Cursor.peek_cons behind, Cursor.atMarker_of_ne behind]
  have other : TokenKind.flowEntry ≠ .streamEnd := nofun
  rw [separate, dropKey_steady own] at read
  simpa using reaches_mark (n := 0) steady text rfl ⟨_, rfl, own.dropped⟩ steady.level other read

/-! ## Lexemes that may be keys -/

/-- The progress behind a lexeme that may be a key. -/
def behindLexeme (p : Progress) (width : Nat) (kind : TokenKind) : Progress :=
  { p.saved with allowKey := false }.pushRead
    (Lexeme.token p.cursor.mark (p.cursor.skip width) kind)

theorem cursor_behindLexeme (p : Progress) (width : Nat) (kind : TokenKind) :
    (p.behindLexeme width kind).cursor = p.cursor.skip width := rfl

theorem tokens_behindLexeme (p : Progress) (width : Nat) (kind : TokenKind) :
    (p.behindLexeme width kind).tokens.toList =
      p.tokens.toList ++ [(Lexeme.token p.cursor.mark (p.cursor.skip width) kind).1] := by
  obtain ⟨pending, saved⟩ := p.saved_eq
  rw [behindLexeme, saved]
  simp [pushRead]

theorem kinds_behindLexeme (p : Progress) (width : Nat) (kind : TokenKind) :
    (p.behindLexeme width kind).kinds = p.kinds ++ [kind] := by
  rw [kinds, tokens_behindLexeme, List.map_append]
  rfl

theorem level_behindLexeme (p : Progress) (width : Nat) (kind : TokenKind) :
    (p.behindLexeme width kind).level = p.level := by
  obtain ⟨pending, saved⟩ := p.saved_eq
  rw [behindLexeme, saved]
  rfl

theorem Steady.behindLexeme (steady : p.Steady) (width : Nat) (other : kind ≠ .streamEnd) :
    (p.behindLexeme width kind).Steady := by
  have own := steady.saved
  refine ⟨own.outer, own.indent, own.level, own.optional, ?_⟩
  rw [kinds_behindLexeme, List.mem_append, not_or, List.mem_singleton]
  exact ⟨steady.ongoing, Ne.symm other⟩

/-- A run goes on behind such a lexeme. -/
theorem reaches_lexeme (steady : p.Steady) (text : p.cursor.rest = List.replicate n ' ' ++ x :: rest)
    (starts : startsToken x = true)
    (read : (p.moved n).fresh.readToken = .ok ((p.moved n).fresh.behindLexeme width kind))
    (some : 0 < width) (other : kind ≠ .streamEnd) :
    Reaches p (n + width) p.level false [kind] ((p.moved n).fresh.behindLexeme width kind).fresh := by
  have own := (steady.moved n).fresh.behindLexeme width other
  have reaches := reaches_token steady text starts read some (Cursor.skip_skip ..) own
    (kinds_behindLexeme _ _ _)
  rwa [level_behindLexeme] at reaches

/-! ## Words -/

/-- Whether a character may stand in a number or a constant. -/
def isWordChar (c : Char) : Bool := c.isAlphanum || c == '+' || c == '-' || c == '.'

/-- Whether a text is written like a number or a constant: a letter or digit, perhaps behind a minus
sign, and more such characters. -/
structure IsWord (w : List Char) : Prop where
  chars : w.all isWordChar = true
  starts : ∃ y more, y.isAlphanum = true ∧ (w = y :: more ∨ w = '-' :: y :: more)

theorem IsWord.present (word : IsWord w) : w ≠ [] := by
  obtain ⟨y, more, -, rfl | rfl⟩ := word.starts <;> nofun

theorem ne_wordChar {d : Char} (word : isWordChar x = true) (other : isWordChar d = false) :
    (x == d) = false :=
  beq_false_of_ne fun same => by
    rw [same, other] at word
    contradiction

theorem ne_alphanum {d : Char} (alphanum : x.isAlphanum = true) (other : d.isAlphanum = false) :
    x ≠ d := by
  rintro rfl
  rw [other] at alphanum
  contradiction

theorem isSpaceOrEnd_wordChar (word : isWordChar x = true) : isSpaceOrEnd x = false := by
  simp only [isSpaceOrEnd, isBreakOrEnd, isBreak, endOfText, ne_wordChar word (d := ' ') rfl,
    ne_wordChar word (d := '\t') rfl, ne_wordChar word (d := '\x00') rfl,
    ne_wordChar word (d := '\r') rfl, ne_wordChar word (d := '\n') rfl,
    ne_wordChar word (d := '\u0085') rfl, ne_wordChar word (d := '\u2028') rfl,
    ne_wordChar word (d := '\u2029') rfl, Bool.or_self]

theorem startsToken_wordChar (word : isWordChar x = true) : startsToken x = true := by
  have visible := isSpaceOrEnd_wordChar word
  simp only [isSpaceOrEnd, Bool.or_eq_false_iff] at visible
  simp only [startsToken, bne, ne_wordChar word (d := ' ') rfl, ne_wordChar word (d := '#') rfl,
    ne_wordChar word (d := '\uFEFF') rfl, visible.2, Bool.not_false, Bool.and_self]

theorem endsPlain_wordChar (word : isWordChar x = true) (inFlow : Bool) (next : Char) :
    Scalar.endsPlain inFlow x next = false := by
  have colon : (x == ':') = false := ne_wordChar word rfl
  have query : (x == '?') = false := ne_wordChar word rfl
  have indicator : Scalar.isFlowIndicator x = false := by
    have others : ",[]\x7b\x7d".toList.all (!isWordChar ·) = true := by decide
    refine Bool.eq_false_iff.mpr fun inside => ?_
    have other := List.all_eq_true.mp others x (List.contains_iff_mem.mp inside)
    rw [word] at other
    contradiction
  simp only [Scalar.endsPlain, isSpaceOrEnd_wordChar word, colon, query, indicator, Bool.false_and,
    Bool.or_self, Bool.and_false]

/-- Whether a text behind a word ends it: there is none, or a mark of flow style is next. -/
def Closes (inFlow : Bool) (rest : List Char) : Prop :=
  rest = [] ∨ inFlow = true ∧ ∃ y, rest.head? = some y ∧ Scalar.isFlowIndicator y = true

theorem plainRun_word {inFlow : Bool} (word : w.all isWordChar = true)
    (closes : Closes inFlow rest) : Scalar.plainRun inFlow (w ++ rest) = w := by
  induction w with
  | nil =>
    rcases closes with rfl | ⟨rfl, y, head, closing⟩
    · rfl
    · cases rest with
      | nil => contradiction
      | cons z rest =>
        obtain rfl : z = y := Option.some.inj head
        simp [Scalar.plainRun, Scalar.endsPlain, closing]
  | cons x w ih =>
    obtain ⟨own, others⟩ := Bool.and_eq_true_iff.mp word
    rw [List.cons_append, Scalar.plainRun, endsPlain_wordChar own, if_neg (by simp), ih others]

/-- Nothing joins a word to what closes it. -/
theorem plainJoint_closes {inFlow : Bool} {c : Cursor} (text : c.rest = rest)
    (closes : Closes inFlow rest) : Scalar.plainJoint c = ⟨[], false, c⟩ := by
  rcases closes with rfl | ⟨-, y, head, closing⟩
  · simp [Scalar.plainJoint, Cursor.takeWhile, text, Cursor.skip, Cursor.lineBreak]
  · have marks : ",[]\x7b\x7d".toList.all (fun d => !(d == ' ') && !isBreak d) = true := by decide
    have mark := List.all_eq_true.mp marks y (List.contains_iff_mem.mp closing)
    rw [Bool.and_eq_true, Bool.not_eq_true', Bool.not_eq_true'] at mark
    obtain ⟨space, unbroken⟩ := mark
    obtain ⟨more, rfl⟩ : ∃ more, rest = y :: more := by
      cases rest with
      | nil => contradiction
      | cons z more => exact ⟨more, by rw [Option.some.inj head]⟩
    have none : c.lineBreak = (none, c) := Cursor.lineBreak_none text unbroken
    simp [Scalar.plainJoint, Cursor.takeWhile, text, space, Cursor.skip, none]

/-- A word is all of a plain scalar. -/
theorem plain_word {inFlow : Bool} {c : Cursor} (indent : Int) (word : IsWord w)
    (text : c.rest = w ++ rest) (closes : Closes inFlow rest) :
    Scalar.plain inFlow indent c = ((Lexeme.token c.mark (c.skip w.length)
      (.scalar (String.ofList w) true)).1, false, c.skip w.length) := by
  have run : Scalar.plainRun inFlow c.rest = w := by rw [text, plainRun_word word.chars closes]
  have comment : c.peek ≠ '#' := by
    obtain ⟨y, more, alphanum, rfl | rfl⟩ := word.starts
    · rw [Cursor.peek_cons text]
      exact ne_alphanum alphanum rfl
    · rw [Cursor.peek_cons text]
      decide
  have joint := plainJoint_closes (Cursor.skip_append text) closes
  have read : Scalar.plainText inFlow indent (c.rest.length + 1) c.mark ⟨[], false, c⟩ =
      ⟨w, (c.skip w.length).mark, ⟨[], false, c.skip w.length⟩⟩ := by
    have go : ¬ (c.peek = '#' ∨ w.isEmpty = true) := by simp [comment, word.present]
    rw [Scalar.plainText]
    simp only [run, if_neg go, joint]
    rfl
  simp only [Scalar.plain, read]
  rfl

theorem atPlain_alphanum (text : p.cursor.rest = x :: rest) (alphanum : x.isAlphanum = true) :
    p.atPlain = true := by
  have others : "-?:,[]\x7b\x7d#&*!|>'\"%@\x60".toList.all (!·.isAlphanum) = true := by decide
  have plain : "-?:,[]\x7b\x7d#&*!|>'\"%@\x60".toList.contains x = false := by
    refine Bool.eq_false_iff.mpr fun inside => ?_
    have other := List.all_eq_true.mp others x (List.contains_iff_mem.mp inside)
    rw [alphanum] at other
    contradiction
  have visible : isSpaceOrEnd x = false := isSpaceOrEnd_wordChar (by simp [isWordChar, alphanum])
  simp only [atPlain, Cursor.peek_cons text, visible, plain, Bool.or_self, Bool.not_false,
    Bool.true_or]

/-- No other token begins like a word: a minus sign stands before a letter or digit. -/
theorem readToken_word (word : IsWord w) (text : p.cursor.rest = w ++ rest) :
    p.readToken = p.plainScalar := by
  obtain ⟨y, more, alphanum, rfl | rfl⟩ := word.starts
  · rw [List.cons_append] at text
    have differs : ∀ d : Char, d.isAlphanum = false → y ≠ d := fun d => ne_alphanum alphanum
    simp [readToken, Cursor.peek_cons text, atPlain_alphanum text alphanum,
      Cursor.atMarker_of_ne text, differs]
  · rw [List.cons_append, List.cons_append] at text
    have visible : isSpaceOrEnd y = false := isSpaceOrEnd_wordChar (by simp [isWordChar, alphanum])
    have next : p.cursor.peek 1 = y := by simp [Cursor.peek, text]
    have other : y ≠ '-' := ne_alphanum alphanum rfl
    have alone : p.standsAlone = false := by rw [standsAlone, next, visible]
    have plain : p.atPlain = true := by simp [atPlain, Cursor.peek_cons text, next, visible]
    have unmarked : p.cursor.atMarker '-' = false := by simp [Cursor.atMarker, text, other]
    simp [readToken, Cursor.peek_cons text, plain, unmarked, Cursor.atMarker_of_ne text, alone]

/-- A run reads a word behind blanks as a plain scalar. -/
theorem reaches_word (steady : p.Steady) (word : IsWord w)
    (text : p.cursor.rest = List.replicate n ' ' ++ (w ++ rest)) (closes : Closes p.inFlow rest) :
    ∃ q, Reaches p (n + w.length) p.level false [.scalar (String.ofList w) true] q := by
  obtain ⟨y, more, opening⟩ := List.exists_cons_of_ne_nil word.present
  have starts : startsToken y = true := by
    have chars := word.chars
    rw [opening, List.all_cons, Bool.and_eq_true] at chars
    exact startsToken_wordChar chars.1
  have first : p.cursor.rest = List.replicate n ' ' ++ y :: (more ++ rest) := by
    rw [text, opening, List.cons_append]
  have behind : (p.moved n).fresh.cursor.rest = w ++ rest := rest_moved text
  have read : (p.moved n).fresh.readToken =
      .ok ((p.moved n).fresh.behindLexeme w.length (.scalar (String.ofList w) true)) := by
    obtain ⟨pending, saved⟩ := (p.moved n).fresh.saved_eq
    have cursor : (p.moved n).fresh.saved.cursor = (p.moved n).fresh.cursor := by rw [saved]
    have inFlow : (p.moved n).fresh.saved.inFlow = p.inFlow := by
      rw [saved]
      rfl
    rw [readToken_word word behind, plainScalar, saveKey_steady (steady.moved n).fresh]
    simp only [bind, Except.bind, cursor, inFlow, plain_word _ word behind closes]
    rfl
  have width : 0 < w.length := List.length_pos_iff.mpr word.present
  exact ⟨_, reaches_lexeme steady first starts read width nofun⟩

/-! ## The end of the text -/

theorem skipBlanks_end (text : p.cursor.rest = []) (fuel : Nat) : skipBlanks (fuel + 1) p = p := by
  have still : p.cursor.skipWhile (· == ' ') = p.cursor := by
    simp [Cursor.skipWhile, text, Cursor.skip]
  have uncommented : p.cursor.skipComment = p.cursor := by
    simp [Cursor.skipComment, Cursor.peek, text, endOfText]
  have none : p.cursor.lineBreak = (none, p.cursor) := by simp [Cursor.lineBreak, text]
  rw [skipBlanks, still, uncommented, none]

/-- At the end of the text the stream ends. -/
theorem run_end (steady : p.Steady) (text : p.cursor.rest = []) {fuel : Nat} (enough : 0 < fuel) :
    (run fuel p).halt = none ∧ (run fuel p).items.map (·.kind) = p.kinds ++ [.streamEnd] := by
  obtain ⟨less, rfl⟩ := Nat.exists_eq_add_of_le' enough
  have ended : p.cursor.peek = endOfText := by simp [Cursor.peek, text]
  have unmarked : (p.cursor.peek == '\uFEFF') = false := by
    rw [ended]
    rfl
  have next : p.toNextToken = .ok p.fresh := by
    unfold toNextToken
    simp only [unmarked, Bool.and_false, Bool.false_eq_true, if_false, skipBlanks_end text,
      dropStale_steady steady, bind, Except.bind, unwind_steady steady.fresh]
  have here : p.fresh.cursor.peek = endOfText := ended
  have final : p.fresh.finish =
      .ok ({ p.fresh.dropped with pending := [] }.pushHere .streamEnd) := by
    rw [finish, unwind_steady steady.fresh, dropKey_steady steady.fresh]
    rfl
  rw [run, next]
  simp only [if_pos here, final]
  refine ⟨trivial, ?_⟩
  simp only [pushHere, push, Array.toList_push, List.map_append]
  rfl

end LiveDoc.Yaml.Progress
