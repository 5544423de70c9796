import LiveDoc.Proofs.YamlPlainLines

/-!
# Reading tokens in blocks

In front of a token the reader closes the blocks that are indented beyond it. What is known of a run
there is said of a progress with the blocks as they were before: the run goes on where that progress
unwinds to. Then a block can be closed in the description when its last entry has been read, although
the reader will only do so at the next token.
-/

namespace LiveDoc.Yaml.Progress

variable {p q r : Progress} {column low high i indent : Int} {outer : List Int} {n : Nat}

/-! ## Closing blocks -/

/-- The progress behind the innermost block, with the indentations around it. -/
def closed (p : Progress) (indent : Int) (outer : List Int) : Progress :=
  { p.pushHere .blockEnd with indent := indent, outer := outer }

theorem unwind_closed (base : p.level = 0) (around : p.outer = i :: outer)
    (beyond : column < p.indent) : p.unwind column = (p.closed i outer).unwind column := by
  have flat : p.inFlow = false := by simp [inFlow, base]
  have still : (p.closed i outer).inFlow = false := flat
  rw [unwind, unwind, flat, still, around, closeBlocks, if_pos beyond]
  rfl

theorem unwind_within (inside : p.indent ≤ column) : p.unwind column = p := by
  unfold unwind
  split
  · rfl
  · cases p.outer with
    | nil => rfl
    | cons i outer => exact if_neg (by omega)

theorem closeBlocks_unwind (base : p.level = 0) (around : p.outer = outer) (lower : low ≤ high) :
    (closeBlocks high outer p).unwind low = p.unwind low := by
  induction outer generalizing p with
  | nil => rfl
  | cons i outer ih =>
    rw [closeBlocks]
    split
    · rename_i beyond
      rw [unwind_closed base around (by omega)]
      exact ih (p := p.closed i outer) base rfl
    · rfl

/-- Blocks may be closed in two steps. -/
theorem unwind_unwind (lower : low ≤ high) : (p.unwind high).unwind low = p.unwind low := by
  by_cases base : p.level = 0
  · have flat : p.inFlow = false := by simp [inFlow, base]
    have shut : p.unwind high = closeBlocks high p.outer p := by
      rw [unwind, flat]
      rfl
    rw [shut]
    exact closeBlocks_unwind base rfl lower
  · have deep : p.inFlow = true := by simp [inFlow, base]
    have still : p.unwind high = p := by
      rw [unwind, deep]
      rfl
    rw [still]

theorem closeBlocks_cursor (column : Int) (outer : List Int) (p : Progress) :
    (closeBlocks column outer p).cursor = p.cursor := by
  induction outer generalizing p with
  | nil => rfl
  | cons i outer ih =>
    rw [closeBlocks]
    split
    · exact ih _
    · rfl

theorem unwind_cursor (p : Progress) (column : Int) : (p.unwind column).cursor = p.cursor := by
  unfold unwind
  split
  · rfl
  · exact closeBlocks_cursor ..

/-! ## Pending keys -/

theorem giveUp_nil (none : p.pending = []) (which : PendingKey → Bool) : p.giveUp which = .ok p := by
  rw [giveUp, none]
  cases p
  simp_all

/-- Keys that are out of reach are given up, unless they are required. -/
theorem dropStale_expired
    (expired : ∀ k ∈ p.pending, k.required = false ∧ p.isStale k = true) :
    p.dropStale = .ok { p with pending := [] } := by
  have optional : p.pending.find? (fun k => p.isStale k && k.required) = none :=
    List.find?_eq_none.mpr fun k inside => by simp [(expired k inside).1]
  have stale : p.pending.filter (!p.isStale ·) = [] :=
    List.filter_eq_nil_iff.mpr fun k inside => by simp [(expired k inside).2]
  rw [dropStale, giveUp, optional, stale]

theorem saveKey_nil (none : p.pending = []) : p.saveKey = .ok p.saved := by
  have dropped : p.dropped = p := by
    rw [dropped, keeping, none]
    cases p
    simp_all
  unfold saveKey saved
  rw [dropKey, giveUp_nil none, dropped]
  split <;> rfl

theorem pending_saved (none : p.pending = []) : ∀ k ∈ p.saved.pending, k = p.nextKey := by
  intro k inside
  unfold saved at inside
  split at inside
  · simpa [dropped, keeping, none] using inside
  · simp [none] at inside

/-! ## States of block structure -/

/-- The tokens so far, and the indentations of the open blocks. -/
structure Stand where
  kinds : List TokenKind
  indent : Int
  outer : List Int

namespace Stand

/-- The state behind further tokens. -/
def push (s : Stand) (ks : List TokenKind) : Stand := { s with kinds := s.kinds ++ ks }

/-- The state in the block of an entry at a column, which opens the block if it is deeper. -/
def entered (s : Stand) (column : Int) (kind : TokenKind) : Stand :=
  if s.indent < column then ⟨s.kinds ++ [kind], column, s.indent :: s.outer⟩ else s

theorem push_push (s : Stand) (ks ls : List TokenKind) : (s.push ks).push ls = s.push (ks ++ ls) := by
  simp [push]

theorem push_nil (s : Stand) : s.push [] = s := by
  simp [push]

/-- The state behind the innermost block. -/
def closed (s : Stand) (indent : Int) (outer : List Int) : Stand :=
  ⟨s.kinds ++ [.blockEnd], indent, outer⟩

end Stand

variable {s : Stand} {allow : Bool} {x : Char} {rest gap w : List Char} {kind : TokenKind}

/-- A progress in a state of block structure, with a text ahead. -/
structure At (p : Progress) (s : Stand) (allow : Bool) (rest : List Char) : Prop where
  level : p.level = 0
  kinds : p.kinds = s.kinds
  indent : p.indent = s.indent
  outer : p.outer = s.outer
  allowKey : p.allowKey = allow
  ongoing : .streamEnd ∉ s.kinds
  ahead : p.cursor.rest = rest

theorem At.inFlow (here : At p s allow rest) : p.inFlow = false := by
  simp [Progress.inFlow, here.level]

/-- A run in front of a token or of the end of the text, whose column counts as one before the first:
from there it goes on where a progress in a state unwinds to. -/
structure Standing (p : Progress) (s : Stand) (allow : Bool) (column : Int) (rest : List Char) :
    Prop where
  next : ∃ q, At q s allow rest ∧ q.pending = [] ∧ (rest ≠ [] → q.column = column) ∧
    p.toNextToken.map (·.unwind column) = .ok (q.unwind column)
  length : rest.length ≤ p.cursor.rest.length
  ongoing : .streamEnd ∉ p.kinds

/-- A block is left where the next token is not in it. -/
theorem Standing.closed (standing : Standing p s allow column rest) (around : s.outer = i :: outer)
    (beyond : column < s.indent) : Standing p (s.closed i outer) allow column rest := by
  obtain ⟨⟨q, here, none, place, same⟩, length, ongoing⟩ := standing
  have within : .streamEnd ∉ (s.closed i outer).kinds := by
    rw [Stand.closed, List.mem_append, not_or, List.mem_singleton]
    exact ⟨here.ongoing, nofun⟩
  have kinds : (q.closed i outer).kinds = (s.closed i outer).kinds := by
    rw [Stand.closed, ← here.kinds]
    simp [Progress.kinds, Progress.closed, pushHere, push]
  refine ⟨⟨q.closed i outer, ⟨here.level, kinds, rfl, rfl, here.allowKey, within, here.ahead⟩, none,
    place, ?_⟩, length, ongoing⟩
  rw [same, unwind_closed here.level (here.outer.trans around) (here.indent ▸ beyond)]

/-- In front of a token in the innermost block nothing is closed. -/
theorem Standing.token (standing : Standing p s allow column (x :: rest))
    (inside : s.indent ≤ column) : ∃ q, At q s allow (x :: rest) ∧ q.pending = [] ∧
      q.column = column ∧ p.toNextToken = .ok q := by
  obtain ⟨⟨q, here, none, place, same⟩, -, -⟩ := standing
  have place : q.column = column := place nofun
  rw [unwind_within (here.indent ▸ inside)] at same
  refine ⟨q, here, none, place, ?_⟩
  unfold toNextToken at same ⊢
  dsimp only at same ⊢
  generalize (skipBlanks _ _).dropStale = o at same ⊢
  cases o with
  | error h => cases same
  | ok r =>
    have same : (r.unwind r.column).unwind column = q := Except.ok.inj same
    have cursor : r.cursor = q.cursor := by rw [← same, unwind_cursor, unwind_cursor]
    have own : r.column = column := by rw [← place, Progress.column, Progress.column, cursor]
    rw [own, unwind_unwind (Int.le_refl _)] at same
    change Except.ok (r.unwind r.column) = _
    rw [own, same]

/-! ## Between two tokens -/

theorem at_moved (here : At p s allow rest) (n : Nat) (allow' : Bool) (pending : List PendingKey) :
    At { p with cursor := p.cursor.skip n, allowKey := allow', pending := pending } s allow'
      (rest.drop n) :=
  ⟨here.level, here.kinds, here.indent, here.outer, rfl, here.ongoing, by
    change (p.cursor.skip n).rest = _
    rw [Cursor.skip_rest, here.ahead]⟩

theorem ne_mark (starts : rest = [] ∨ ∃ x more, rest = x :: more ∧ x ≠ '\uFEFF')
    (ahead : p.cursor.rest = rest) : (p.cursor.peek == '\uFEFF') = false := by
  rcases starts with rfl | ⟨x, more, rfl, other⟩
  · simp [Cursor.peek, ahead, endOfText]
  · rw [Cursor.peek_cons ahead]
    exact beq_false_of_ne other

/-- A run stands in front of what is behind blanks, comments and breaks, if the keys that it gives up
there are not required. -/
theorem At.standing {m : Nat} {allow' : Bool} {rest' : List Char} (here : At p s allow rest)
    (unmarked : (p.cursor.peek == '\uFEFF') = false)
    (skips : skipBlanks (p.cursor.rest.length + 1) p =
      { p with cursor := p.cursor.skip m, allowKey := allow' })
    (expired : ∀ k ∈ p.pending, k.required = false ∧
      k.mark.line ≠ (p.cursor.skip m).mark.line) (behind : rest.drop m = rest')
    (lower : column ≤ (p.cursor.skip m).mark.column)
    (place : rest' ≠ [] → (p.cursor.skip m).mark.column = column) :
    Standing p s allow' column rest' := by
  have stale : ({ p with cursor := p.cursor.skip m, allowKey := allow' } : Progress).dropStale =
      .ok { p with cursor := p.cursor.skip m, allowKey := allow', pending := [] } :=
    dropStale_expired fun k inside => by
      obtain ⟨optional, other⟩ := expired k inside
      exact ⟨optional, by simp [isStale, other]⟩
  have own := at_moved here m allow' []
  rw [behind] at own
  refine ⟨⟨_, own, rfl, place, ?_⟩, ?_, here.kinds ▸ here.ongoing⟩
  · unfold toNextToken
    simp only [unmarked, Bool.and_false, Bool.false_eq_true, if_false, skips, stale, bind, Except.bind,
      Except.map]
    exact congrArg _ (unwind_unwind lower)
  · rw [← behind, here.ahead, List.length_drop]
    omega

/-- In front of a token behind blanks. -/
theorem At.blanks (here : At p s allow (List.replicate n ' ' ++ x :: rest)) (none : p.pending = [])
    (starts : startsToken x = true) : Standing p s allow (p.column + n) (x :: rest) := by
  have text := here.ahead
  have place : (p.cursor.skip n).mark.column = p.cursor.mark.column + n :=
    Cursor.skip_blanks_column text
  have visible : x ≠ '\uFEFF' := by
    rintro rfl
    contradiction
  have unmarked : (p.cursor.peek == '\uFEFF') = false := by
    cases n with
    | zero => exact ne_mark (.inr ⟨x, rest, rfl, visible⟩) text
    | succ n => exact ne_mark (.inr ⟨' ', _, rfl, by decide⟩) text
  refine here.standing (m := n) unmarked ((skipBlanks_blanks text starts _).trans ?_) ?_
    (List.drop_left' (by simp)) ?_ ?_
  · rw [moved, ← here.allowKey]
  · simp [none]
  · simp [Progress.column, place]
  · simp [Progress.column, place]

theorem skipBlanks_lineEnd (base : p.level = 0) (text : p.cursor.rest = gap ++ rest)
    (next : LineEnd gap column rest) (fuel : Nat) : skipBlanks (fuel + 2) p =
      { p with cursor := p.cursor.skip gap.length, allowKey := true } := by
  obtain ⟨more, rfl⟩ := next.exists_break
  have flat : p.inFlow = false := by simp [inFlow, base]
  have still : p.cursor.skipWhile (· == ' ') = p.cursor := by
    rw [Cursor.skipWhile, text]
    rfl
  have uncommented : p.cursor.skipComment = p.cursor := by
    rw [Cursor.skipComment, Cursor.peek_cons text, if_neg (by decide)]
  rw [skipBlanks, still, uncommented, Scalar.lineBreak_newline text]
  simp only [flat, Bool.not_false, Bool.or_true]
  have behind : p.cursor.next.rest = more ++ rest := Cursor.next_cons text
  cases next with
  | stop => exact skipBlanks_end behind fuel
  | token column starts =>
    rw [skipBlanks_blanks (n := column) behind starts fuel]
    simp [moved, Cursor.skip]

/-- What is between two lines has one break. -/
theorem lineEnd_line {c : Cursor} (text : c.rest = gap ++ rest) (next : LineEnd gap column rest) :
    (c.skip gap.length).mark.line = c.mark.line + 1 := by
  have known : '\r' ∉ gap ∧ gap.countP isBreak = 1 := by
    cases next with
    | stop => exact ⟨by decide, rfl⟩
    | token column =>
      have blanks : (List.replicate column ' ').countP isBreak = 0 :=
        List.countP_eq_zero.mpr fun y inside => by
          rw [List.eq_of_mem_replicate inside]
          decide
      refine ⟨?_, ?_⟩
      · rw [List.mem_cons, not_or]
        exact ⟨by decide, fun inside => absurd (List.eq_of_mem_replicate inside) (by decide)⟩
      · rw [List.countP_cons_of_pos (by decide), blanks]
  rw [Cursor.skip_line text known.1, known.2]

/-- It leads to the column of what follows. -/
theorem lineEnd_column {c : Cursor} (text : c.rest = gap ++ rest) (next : LineEnd gap column rest) :
    column ≤ (c.skip gap.length).mark.column ∧
      (rest ≠ [] → ((c.skip gap.length).mark.column : Int) = column) := by
  cases next with
  | stop => exact ⟨by omega, fun some => absurd rfl some⟩
  | token column =>
    have own : (c.next.skip column).mark.column = column := Cursor.margin_column text
    rw [List.length_cons, List.length_replicate, Cursor.skip, own]
    exact ⟨Int.le_refl _, fun _ => rfl⟩

/-- In front of the next token behind a line, or of the end of the text. -/
theorem At.lineEnd (here : At p s allow (gap ++ rest)) (next : LineEnd gap column rest)
    (old : ∀ k ∈ p.pending, k.required = false ∧ k.mark.line ≤ p.cursor.mark.line) :
    Standing p s true column rest := by
  have text := here.ahead
  have line := lineEnd_line text next
  obtain ⟨lower, place⟩ := lineEnd_column text next
  have unmarked : (p.cursor.peek == '\uFEFF') = false := by
    obtain ⟨more, rfl⟩ := next.exists_break
    exact ne_mark (.inr ⟨_, _, rfl, by decide⟩) text
  refine here.standing unmarked ?_ (fun k inside => ?_) (List.drop_left ..) lower place
  · have length : ∃ fuel, p.cursor.rest.length = fuel + 1 := by
      obtain ⟨more, rfl⟩ := next.exists_break
      exact ⟨(more ++ rest).length, by rw [text]; rfl⟩
    obtain ⟨fuel, length⟩ := length
    rw [length]
    exact skipBlanks_lineEnd here.level text next fuel
  · obtain ⟨optional, before⟩ := old k inside
    exact ⟨optional, by omega⟩

/-- Behind what is between two lines, as a plain scalar is read. -/
theorem At.behind_lineEnd (here : At p s true rest) (none : p.pending = [])
    (next : LineEnd gap column rest) (place : rest ≠ [] → p.column = column) :
    Standing p s true column rest := by
  cases next with
  | stop =>
    have text := here.ahead
    refine here.standing (m := 0) (ne_mark (.inl rfl) text) ((skipBlanks_end text _).trans ?_) ?_ rfl
      ?_ (fun some => absurd rfl some)
    · rw [← here.allowKey]
      rfl
    · simp [none]
    · omega
  | token column starts =>
    have standing := At.blanks (n := 0) here none starts
    rwa [Int.natCast_zero, Int.add_zero, place nofun] at standing

/-- A token that is ahead is next, if nothing is given up or closed in front of it. -/
theorem toNextToken_here (text : p.cursor.rest = x :: rest) (starts : startsToken x = true)
    (kept : p.dropStale = .ok p) (still : p.unwind p.column = p) : p.toNextToken = .ok p := by
  have visible : x ≠ '\uFEFF' := by
    rintro rfl
    contradiction
  have unmarked := ne_mark (.inr ⟨x, rest, rfl, visible⟩) text
  have skips : skipBlanks (p.cursor.rest.length + 1) p = p := skipBlanks_blanks (n := 0) text starts _
  unfold toNextToken
  simp only [unmarked, Bool.and_false, Bool.false_eq_true, if_false, skips, kept, bind, Except.bind]
  rw [still]

/-! ## Steps of a run -/

/-- A run goes on behind a token that it reads. -/
theorem leads_read (next : p.toNextToken = .ok q) (present : q.cursor.peek ≠ endOfText)
    (read : q.readToken >>= dropStale = .ok r)
    (shorter : r.cursor.rest.length < p.cursor.rest.length) : Leads p r := by
  intro fuel enough
  obtain ⟨less, rfl⟩ := Nat.exists_eq_add_of_le' (Nat.zero_lt_of_lt enough)
  refine ⟨less, by omega, ?_⟩
  rw [run, next]
  simp only [if_neg present, read]

/-- A run stops at a token that it cannot read. -/
theorem stops_read {h : Halt} (ongoing : .streamEnd ∉ p.kinds) (next : p.toNextToken = .ok q)
    (present : q.cursor.peek ≠ endOfText) (read : q.readToken >>= dropStale = .error h) :
    Stops p := by
  intro fuel enough
  obtain ⟨less, rfl⟩ := Nat.exists_eq_add_of_le' (Nat.zero_lt_of_lt enough)
  rw [run, next]
  simp only [if_neg present, read]
  refine ⟨⟨h, rfl⟩, fun t inside same => ongoing ?_⟩
  have known : t ∈ p.tokens.toList := by
    unfold settled at inside
    split at inside
    · exact List.mem_of_mem_take inside
    · exact inside
  exact same ▸ List.mem_map_of_mem known

/-- A token in front of which the run stands, and its outcome. -/
theorem Standing.leads (standing : Standing p s allow column (x :: rest))
    (next : p.toNextToken = .ok q) (ahead : q.cursor.rest = x :: rest) (present : x ≠ endOfText)
    (read : q.readToken >>= dropStale = .ok r) (shorter : r.cursor.rest.length ≤ rest.length) :
    Leads p r := by
  have length := standing.length
  rw [List.length_cons] at length
  exact leads_read next (by rwa [Cursor.peek_cons ahead]) read (by omega)

theorem present_of_starts (starts : startsToken x = true) : x ≠ endOfText := by
  rintro rfl
  contradiction

/-! ## Indicators -/

/-- The indicators of block style, with the collection that each of them may open and its own kind. -/
inductive Indicator : Char → TokenKind → TokenKind → Prop
  | item : Indicator '-' .blockSequenceStart .blockEntry
  | key : Indicator '?' .blockMappingStart .key
  | value : Indicator ':' .blockMappingStart .value

variable {block : TokenKind} {y : Char}

theorem ongoing_push {ks : List TokenKind} (ongoing : .streamEnd ∉ s.kinds)
    (others : .streamEnd ∉ ks) : .streamEnd ∉ (s.push ks).kinds := by
  rw [Stand.push, List.mem_append, not_or]
  exact ⟨ongoing, others⟩

/-- An entry opens its block where it is deeper than the others. -/
theorem openBlock_at (here : At p s true rest) (other : block ≠ .streamEnd) :
    At (p.openBlock block) (s.entered p.column block) true rest ∧
      (p.openBlock block).pending = p.pending ∧ (p.openBlock block).cursor = p.cursor := by
  unfold openBlock Stand.entered
  rw [here.indent]
  split
  · have kinds : ((p.indented p.column).pushHere block).kinds = s.kinds ++ [block] := by
      rw [← here.kinds]
      simp [Progress.kinds, pushHere, push, indented]
    have ongoing : .streamEnd ∉ s.kinds ++ [block] :=
      ongoing_push (s := s) here.ongoing (by simpa using other.symm)
    have around : p.indent :: p.outer = s.indent :: s.outer := by rw [here.indent, here.outer]
    exact ⟨⟨here.level, kinds, rfl, around, here.allowKey, ongoing, here.ahead⟩, rfl, rfl⟩
  · exact ⟨here, rfl, rfl⟩

theorem At.allowing (here : At p s allow rest) (allow' : Bool) :
    At { p with allowKey := allow' } s allow' rest :=
  ⟨here.level, here.kinds, here.indent, here.outer, rfl, here.ongoing, here.ahead⟩

theorem At.pushNext (here : At p s allow (x :: rest)) (other : kind ≠ .streamEnd) :
    At (p.pushNext 1 kind) (s.push [kind]) allow rest := by
  refine ⟨here.level, ?_, here.indent, here.outer, here.allowKey,
    ongoing_push here.ongoing (by simpa using other.symm), Cursor.next_cons here.ahead⟩
  rw [kinds_pushNext, here.kinds]
  rfl

/-- An indicator with a blank behind it is a token of its own. -/
theorem readToken_indicator (indicator : Indicator x block kind) (here : At p s true (x :: ' ' :: rest))
    (none : p.pending = []) : ∃ q, p.readToken = .ok q ∧
      At q ((s.entered p.column block).push [kind]) true (' ' :: rest) ∧ q.pending = [] ∧
        q.column = p.column + 1 := by
  have text := here.ahead
  have flat := here.inFlow
  have second : p.cursor.peek 1 = ' ' := by simp [Cursor.peek, text]
  have alone : p.standsAlone = true := by
    rw [standsAlone, second]
    rfl
  have other : block ≠ .streamEnd ∧ kind ≠ .streamEnd := by cases indicator <;> simp
  obtain ⟨opened, pending, cursor⟩ := openBlock_at here other.1
  have settled : (p.openBlock block).pending = [] := pending.trans none
  have read : p.readToken = .ok ({ p.openBlock block with allowKey := true }.pushNext 1 kind) := by
    have outcome : ∀ problem, p.enterBlock block problem = .ok (p.openBlock block) := fun problem => by
      rw [enterBlock, flat, here.allowKey]
      rfl
    have still : (p.openBlock block).inFlow = false := opened.inFlow
    have dropped : (p.openBlock block).dropKey = .ok (p.openBlock block) := giveUp_nil settled _
    cases indicator with
    | item =>
      have own : p.readToken = p.blockEntry := by
        simp [readToken, Cursor.peek_cons text, Cursor.atMarker, text, alone]
      rw [own, blockEntry, outcome]
      simp only [bind, Except.bind, dropped]
    | key =>
      have own : p.readToken = p.keyMark := by
        simp [readToken, Cursor.peek_cons text, Cursor.atMarker, text, alone]
      rw [own, keyMark, outcome]
      simp only [bind, Except.bind, dropped, still, Bool.not_false]
    | value =>
      have own : p.readToken = p.valueMark := by
        simp [readToken, Cursor.peek_cons text, Cursor.atMarker, text, alone]
      have found : p.pending.find? (·.level == p.level) = .none := by simp [none]
      rw [own, valueMark]
      simp only [found, outcome, bind, Except.bind, dropped, still, Bool.not_false]
  refine ⟨_, read, (opened.allowing true).pushNext other.2, settled, ?_⟩
  have visible : IsPrintable x := by cases indicator <;> exact ⟨by decide, by decide⟩
  have column := Cursor.next_column text visible
  change (((p.openBlock block).cursor.skip 1).mark.column : Int) = _
  rw [cursor]
  simp [Cursor.skip, column, Progress.column]

/-- A run stands behind an indicator in front of the entry that it marks. -/
theorem comes_indicator (indicator : Indicator x block kind)
    (standing : Standing p s true column (x :: ' ' :: y :: rest)) (starts : startsToken y = true)
    (inside : s.indent ≤ column) : ∃ q, Leads p q ∧
      Standing q ((s.entered column block).push [kind]) true (column + 2) (y :: rest) := by
  obtain ⟨q, here, none, place, next⟩ := standing.token inside
  obtain ⟨r, read, own, fresh, column⟩ := readToken_indicator indicator here none
  have visible : x ≠ endOfText := by cases indicator <;> decide
  refine ⟨r, standing.leads next here.ahead visible ?_ ?_, ?_⟩
  · rw [read]
    exact giveUp_nil fresh _
  · rw [own.ahead]
  · have stands := At.blanks (n := 1) own fresh starts
    rw [place] at stands column
    rwa [column, Int.add_assoc] at stands

/-! ## Empty collections -/

theorem giveUp_optional (optional : ∀ k ∈ p.pending, k.required = false) (which : PendingKey → Bool) :
    p.giveUp which = .ok (p.keeping (!which ·)) := by
  have none : p.pending.find? (fun k => which k && k.required) = none :=
    List.find?_eq_none.mpr fun k inside => by simp [optional k inside]
  rw [giveUp, none]
  rfl

/-- Behind a token the keys that are out of reach are given up. -/
theorem dropStale_read (read : p.readToken = .ok q)
    (optional : ∀ k ∈ q.pending, k.required = false) :
    p.readToken >>= dropStale = .ok q.fresh := by
  rw [read]
  exact giveUp_optional optional _

/-- The brackets of an empty collection, with their kinds. -/
inductive Brackets : Char → Char → TokenKind → TokenKind → Prop
  | square : Brackets '[' ']' .flowSequenceStart .flowSequenceEnd
  | curly : Brackets '\x7b' '\x7d' .flowMappingStart .flowMappingEnd

/-- A key of a deeper column is not required. -/
theorem optional_saved (here : At p s allow rest) (none : p.pending = [])
    (deeper : s.indent < p.column) : ∀ k ∈ p.saved.pending, k.required = false ∧
      k.mark = p.cursor.mark ∧ k.level = 0 := by
  intro k inside
  have other : (p.indent == p.column) = false := beq_false_of_ne (by rw [here.indent]; omega)
  rw [pending_saved none k inside]
  simp [nextKey, here.level, other]

/-- A progress between the brackets of a collection that began at a cursor, with a text ahead. The keys
that are pending were noted where it began, and none of them is required. -/
structure Within (p : Progress) (s : Stand) (start : Cursor) (rest : List Char) : Prop where
  level : p.level = 1
  kinds : p.kinds = s.kinds
  indent : p.indent = s.indent
  outer : p.outer = s.outer
  ongoing : .streamEnd ∉ s.kinds
  cursor : p.cursor = start.next
  ahead : p.cursor.rest = rest
  pending : ∀ k ∈ p.pending, k.required = false ∧ k.mark = start.mark
  fresh : p.fresh = p

variable {start : Cursor} {opening closing : TokenKind}

/-- An opening bracket. -/
theorem At.opened (here : At p s allow (x :: rest)) (none : p.pending = [])
    (deeper : s.indent < p.column) (brackets : Brackets x y opening closing) :
    ∃ q, p.readToken >>= dropStale = .ok q ∧ Within q (s.push [opening]) p.cursor rest := by
  have text := here.ahead
  have known := optional_saved here none deeper
  obtain ⟨pending, saved⟩ := p.saved_eq
  rw [saved] at known
  have own : p.readToken = p.openFlow opening := by
    cases brackets <;> simp [readToken, Cursor.peek_cons text, Cursor.atMarker_of_ne text]
  have read : p.readToken = .ok (({ p with
      pending := pending, level := p.level + 1, allowKey := true } : Progress).pushNext 1 opening) := by
    rw [own, openFlow, saveKey_nil none, saved]
    rfl
  have ongoing : .streamEnd ∉ (s.push [opening]).kinds :=
    ongoing_push here.ongoing (by cases brackets <;> simp)
  refine ⟨_, dropStale_read read fun k inside => (known k inside).1, ?_⟩
  refine ⟨congrArg (· + 1) here.level, ?_, here.indent, here.outer, ongoing, rfl,
    Cursor.next_cons text, fun k inside => ?_, fresh_fresh _⟩
  · rw [Stand.push, ← here.kinds]
    exact kinds_pushNext _ 1 opening
  · obtain ⟨optional, mark, -⟩ := known k (List.mem_filter.mp inside).1
    exact ⟨optional, mark⟩

/-- The next token between the brackets is the one ahead. -/
theorem Within.next (within : Within p s start (x :: rest)) (starts : startsToken x = true) :
    p.toNextToken = .ok p := by
  have kept : p.dropStale = .ok p :=
    (giveUp_optional (fun k inside => (within.pending k inside).1) _).trans (congrArg _ within.fresh)
  have still : p.unwind p.column = p := by simp [unwind, Progress.inFlow, within.level]
  exact toNextToken_here within.ahead starts kept still

/-- A closing bracket. -/
theorem Within.closed (within : Within p s start (y :: rest)) (brackets : Brackets x y opening closing) :
    ∃ q, p.readToken >>= dropStale = .ok q ∧ At q (s.push [closing]) false rest ∧
      q.cursor = start.skip 2 ∧ ∀ k ∈ q.pending, k.required = false ∧ k.mark = start.mark := by
  have text := within.ahead
  have optional : ∀ k ∈ p.pending, k.required = false := fun k inside => (within.pending k inside).1
  have own : p.readToken = p.closeFlow closing := by
    cases brackets <;> simp [readToken, Cursor.peek_cons text, Cursor.atMarker_of_ne text]
  have dropped : p.dropKey = .ok p.dropped := giveUp_optional optional _
  have read : p.readToken = .ok (({ p.dropped with
      level := p.level - 1, allowKey := false } : Progress).pushNext 1 closing) := by
    rw [own, closeFlow, dropped]
    rfl
  have ongoing : .streamEnd ∉ (s.push [closing]).kinds :=
    ongoing_push within.ongoing (by cases brackets <;> simp)
  refine ⟨_, dropStale_read read fun k inside => optional k (List.mem_filter.mp inside).1, ?_, ?_,
    fun k inside => within.pending k (List.mem_filter.mp (List.mem_filter.mp inside).1).1⟩
  · refine ⟨congrArg (· - 1) within.level, ?_, within.indent, within.outer, rfl, ongoing,
      Cursor.next_cons text⟩
    rw [Stand.push, ← within.kinds]
    exact kinds_pushNext _ 1 closing
  · exact congrArg Cursor.next within.cursor

/-- An empty collection is read between two lines. -/
theorem comes_brackets {column' : Int} (brackets : Brackets x y opening closing)
    (standing : Standing p s allow column (x :: y :: (gap ++ rest))) (deeper : s.indent < column)
    (next : LineEnd gap column' rest) : ∃ q, Leads p q ∧
      Standing q (s.push [opening, closing]) true column' rest := by
  have starts : startsToken x = true ∧ startsToken y = true := by cases brackets <;> exact ⟨rfl, rfl⟩
  obtain ⟨q, here, none, place, first⟩ := standing.token (by omega)
  obtain ⟨b, opens, within⟩ := here.opened none (by omega) brackets
  obtain ⟨e, closes, behind, moved, old⟩ := within.closed brackets
  have once : Leads p b :=
    standing.leads first here.ahead (present_of_starts starts.1) opens (by rw [within.ahead])
  have twice : Leads b e := by
    refine leads_read (within.next starts.2) ?_ closes ?_
    · rw [Cursor.peek_cons within.ahead]
      exact present_of_starts starts.2
    · rw [behind.ahead, within.ahead, List.length_cons]
      omega
  have line : e.cursor.mark.line = q.cursor.mark.line := by
    have front : q.cursor.rest = [x, y] ++ (gap ++ rest) := here.ahead
    have crossed := Cursor.skip_line front (by cases brackets <;> decide)
    rw [moved, show 2 = [x, y].length from rfl, crossed]
    cases brackets <;> rfl
  rw [Stand.push_push] at behind
  refine ⟨e, once.trans twice, behind.lineEnd next fun k inside => ?_⟩
  obtain ⟨optional, mark⟩ := old k inside
  exact ⟨optional, by rw [mark, line]⟩

/-! ## The end of a document -/

theorem atMarker_dots {c : Cursor} (text : c.rest = ['.', '.', '.', '\n']) :
    c.atMarker '.' = true := by
  simp [Cursor.atMarker, text, Cursor.peek, isSpaceOrEnd, isBreakOrEnd, isBreak]

/-- Three dots on a line of their own end the document. -/
theorem comes_documentEnd (standing : Standing p s true 0 ['.', '.', '.', '\n']) (base : s.indent = -1) :
    ∃ q, Leads p q ∧ Standing q (s.push [.documentEnd]) true (-1) [] := by
  obtain ⟨q, here, none, place, next⟩ := standing.token (by omega)
  have text : q.cursor.rest = ['.', '.', '.', '\n'] := here.ahead
  have margin : q.cursor.mark.column = 0 := Int.ofNat_eq_zero.mp place
  have dots := atMarker_dots text
  have leave : q.leaveBlocks = .ok { q with allowKey := false } := by
    rw [leaveBlocks, unwind_within (by rw [here.indent, base]), dropKey, giveUp_nil none]
    rfl
  have read : q.readToken = .ok ({ q with allowKey := false }.pushNext 3 .documentEnd) := by
    simp [readToken, Cursor.peek_cons text, margin, Cursor.atMarker_of_ne (m := '-') text (by decide),
      dots, leave, bind, Except.bind]
  have ongoing : .streamEnd ∉ (s.push [.documentEnd]).kinds := ongoing_push here.ongoing (by simp)
  have kinds : ({ q with allowKey := false }.pushNext 3 .documentEnd).kinds =
      (s.push [.documentEnd]).kinds := by
    rw [Stand.push, ← here.kinds]
    exact kinds_pushNext { q with allowKey := false } 3 .documentEnd
  have behind : ({ q with allowKey := false }.pushNext 3 .documentEnd).cursor.rest = ['\n'] := by
    change (q.cursor.skip 3).rest = _
    rw [Cursor.skip_rest, text]
    rfl
  have own : At ({ q with allowKey := false }.pushNext 3 .documentEnd) (s.push [.documentEnd]) false
      (['\n'] ++ []) := ⟨here.level, kinds, here.indent, here.outer, rfl, ongoing, behind⟩
  refine ⟨_, standing.leads next text (by decide) ?_ ?_, own.lineEnd .stop ?_⟩
  · rw [read]
    exact giveUp_nil (p := { q with allowKey := false }.pushNext 3 .documentEnd) none _
  · rw [behind]
    decide
  · intro k inside
    have inside : k ∈ q.pending := inside
    rw [none] at inside
    contradiction

/-! ## The end of the text -/

/-- Outside of all blocks a run ends with the text. -/
theorem run_ended (standing : Standing p s allow (-1) []) (base : s.indent = -1) {fuel : Nat}
    (enough : 0 < fuel) : (run fuel p).halt = none ∧
      (run fuel p).items.map (·.kind) = s.kinds ++ [.streamEnd] := by
  obtain ⟨⟨q, here, none, -, same⟩, -, -⟩ := standing
  obtain ⟨less, rfl⟩ := Nat.exists_eq_add_of_le' enough
  rw [unwind_within (by rw [here.indent, base])] at same
  cases next : p.toNextToken with
  | error h =>
    rw [next] at same
    contradiction
  | ok e =>
    rw [next] at same
    have same : e.unwind (-1) = q := Except.ok.inj same
    have ended : e.cursor.peek = endOfText := by
      rw [← unwind_cursor e (-1), same]
      simp [Cursor.peek, here.ahead]
    have final : e.finish = .ok (({ q with pending := [] } : Progress).pushHere .streamEnd) := by
      rw [finish, same, dropKey, giveUp_nil none]
      rfl
    rw [run, next]
    simp only [if_pos ended, final]
    refine ⟨trivial, ?_⟩
    rw [← here.kinds]
    simp [pushHere, push, Progress.kinds]

end LiveDoc.Yaml.Progress
