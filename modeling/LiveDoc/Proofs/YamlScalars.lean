import LiveDoc.Proofs.YamlBlocks

/-!
# Reading scalars and keys in blocks

A written scalar is read as its text where its line ends, and as a key in front of a colon. Then the key
must not be too long: a key that the reader has given up leaves a colon that stands for nothing.
-/

namespace LiveDoc.Yaml

variable {n k : Nat} {x y m : Char} {cs w es rest tail gap : List Char} {plain : Bool}

/-! ## Written characters -/

/-- Whether a character is printable or ends a line. -/
def IsWritten (x : Char) : Prop := IsPrintable x ∨ x = '\n'

theorem printable_of_hex (hex : Lexeme.isHexDigit x = true) : IsPrintable x := by
  have range : ∀ low high : Char, 32 ≤ low.toNat → high.toNat ≤ 126 → low ≤ x → x ≤ high →
      IsPrintable x := fun low high least most above below =>
    ⟨Nat.le_trans least above, Nat.le_trans below most⟩
  simp only [Lexeme.isHexDigit, Text.isAsciiDigit, Bool.or_eq_true, Bool.and_eq_true,
    decide_eq_true_eq] at hex
  rcases hex with (⟨above, below⟩ | ⟨above, below⟩) | ⟨above, below⟩
  · exact range '0' '9' (by decide) (by decide) above below
  · exact range 'a' 'f' (by decide) (by decide) above below
  · exact range 'A' 'F' (by decide) (by decide) above below

/-- Escapes are printable. -/
theorem printable_escape (escaped : Style.escape? x = some es) : ∀ y ∈ es, IsPrintable y := by
  have letters : ∀ p ∈ Style.escapeLetters, 32 ≤ p.2.toNat ∧ p.2.toNat ≤ 126 := by decide
  have slash : IsPrintable '\\' := ⟨by decide, by decide⟩
  have coded : ∀ {letter : Char} {width : Nat}, IsPrintable letter → x.toNat < 16 ^ width →
      0 < width → some ('\\' :: letter :: Style.code width x) = some es →
        ∀ y ∈ es, IsPrintable y := by
    intro letter width own fits wide same y inside
    obtain rfl := Option.some.inj same
    rcases List.mem_cons.mp inside with rfl | inside
    · exact slash
    · rcases List.mem_cons.mp inside with rfl | inside
      · exact own
      · exact printable_of_hex (List.all_eq_true.mp (Scalar.code_digits fits wide).1 y inside)
  unfold Style.escape? at escaped
  split at escaped
  · rename_i letter found
    obtain ⟨front, back, known, -⟩ := List.lookup_eq_some_iff.mp found
    have own := letters (x, letter) (by rw [known]; simp)
    obtain rfl := Option.some.inj escaped
    intro y inside
    rcases List.mem_cons.mp inside with rfl | inside
    · exact slash
    · rw [List.mem_singleton.mp inside]
      exact own
  · split at escaped
    · contradiction
    · split at escaped
      · exact coded ⟨by decide, by decide⟩ (by assumption) (by decide) escaped
      · split at escaped
        · exact coded ⟨by decide, by decide⟩ (by assumption) (by decide) escaped
        · refine coded ⟨by decide, by decide⟩ ?_ (by decide) escaped
          rcases x.valid with low | ⟨-, high⟩
          · exact Nat.lt_trans low (by decide)
          · exact Nat.lt_trans high (by decide)

theorem isWritten_margin (n : Nat) (line : ∀ y ∈ w, IsWritten y) :
    ∀ y ∈ '\n' :: (List.replicate n ' ' ++ w), IsWritten y := by
  intro y inside
  rcases List.mem_cons.mp inside with rfl | inside
  · exact .inr rfl
  · rcases List.mem_append.mp inside with inside | inside
    · rw [List.eq_of_mem_replicate inside]
      exact .inl ⟨by decide, by decide⟩
    · exact line y inside

theorem isWritten_cons (own : IsWritten x) (line : ∀ y ∈ w, IsWritten y) : ∀ y ∈ x :: w, IsWritten y :=
  List.forall_mem_cons.mpr ⟨own, line⟩

namespace Style

variable {after : Bool}

theorem Plain.written (spells : Plain n after cs w) (known : ∀ x ∈ cs, IsPrintable x) :
    ∀ y ∈ w, IsWritten y := by
  induction spells with
  | nil => nofun
  | char _ ih =>
    exact isWritten_cons (.inl (known _ List.mem_cons_self))
      (ih fun x inside => known x (List.mem_cons_of_mem _ inside))
  | fold _ _ ih =>
    exact isWritten_margin n (ih fun x inside => known x (List.mem_cons_of_mem _ inside))

theorem Single.written (spells : Single n after cs w) (known : ∀ x ∈ cs, isSpecial x = false) :
    ∀ y ∈ w, IsWritten y := by
  have quote : IsWritten '\'' := .inl ⟨by decide, by decide⟩
  induction spells with
  | nil => exact isWritten_cons quote nofun
  | quote _ ih =>
    exact isWritten_cons quote (isWritten_cons quote
      (ih fun x inside => known x (List.mem_cons_of_mem _ inside)))
  | char inner _ _ ih =>
    exact isWritten_cons (.inl (Scalar.printable_of_common (known _ List.mem_cons_self) inner))
      (ih fun x inside => known x (List.mem_cons_of_mem _ inside))
  | fold _ _ _ ih =>
    exact isWritten_margin n (ih fun x inside => known x (List.mem_cons_of_mem _ inside))
  | last _ _ _ ih =>
    exact isWritten_cons (.inr rfl)
      (isWritten_margin n (ih fun x inside => known x (List.mem_cons_of_mem _ inside)))
  | more _ ih =>
    exact isWritten_cons (.inr rfl) (ih fun x inside => known x (List.mem_cons_of_mem _ inside))

theorem Double.written (spells : Double n cs w) : ∀ y ∈ w, IsWritten y := by
  have slash : IsWritten '\\' := .inl ⟨by decide, by decide⟩
  have blank : IsWritten ' ' := .inl ⟨by decide, by decide⟩
  induction spells with
  | nil => exact isWritten_cons (.inl ⟨by decide, by decide⟩) nofun
  | char plain _ ih =>
    obtain ⟨low, high, -⟩ := Scalar.printable_of_plain plain
    exact isWritten_cons (.inl ⟨low, high⟩) ih
  | escape escaped _ ih =>
    exact List.forall_mem_append.mpr ⟨fun y inside => .inl (printable_escape escaped y inside), ih⟩
  | space _ ih => exact isWritten_cons slash (isWritten_cons blank ih)
  | fold _ _ ih => exact isWritten_cons slash (isWritten_margin n ih)
  | slip _ ih =>
    exact isWritten_cons slash (isWritten_cons slash
      (isWritten_margin n (isWritten_cons slash (isWritten_cons blank ih))))

end Style

/-! ## Written scalars -/

/-- How a text may be written at a margin, up to the closing quote if it has one; the flag tells whether
it is plain. What is written between double quotes need not be the text that is read. -/
inductive Written (n : Nat) : List Char → Bool → List Char → Prop
  | plain {x : Char} {cs w : List Char} : Scalar.Bare x cs → Style.Plain n true (x :: cs) w →
      Written n (x :: cs) true w
  | single {after : Bool} {cs w : List Char} : (∀ x ∈ cs, Style.isSpecial x = false) →
      Style.Single n after cs w → Written n cs false ('\'' :: w)
  | double {cs w : List Char} : Style.Double n cs w → Written n cs false ('"' :: w)

theorem Written.chars (written : Written n cs plain w) : ∀ y ∈ w, IsWritten y := by
  cases written with
  | plain bare spells => exact spells.written bare.printable
  | single common spells =>
    exact isWritten_cons (.inl ⟨by decide, by decide⟩) (spells.written common)
  | double spells => exact isWritten_cons (.inl ⟨by decide, by decide⟩) spells.written

/-- A written scalar starts a token. -/
theorem Written.starts (written : Written n cs plain w) :
    ∃ x v, w = x :: v ∧ Progress.startsToken x = true := by
  cases written with
  | @plain x cs w bare spells =>
    obtain ⟨v, rfl, -⟩ := bare.starts spells
    obtain ⟨low, high⟩ := bare.printable x List.mem_cons_self
    have word := Scalar.isSpaceOrEnd_printable low high bare.visible
    have comment := Scalar.ne_comment bare.apart
    have bom : x ≠ '\uFEFF' := by
      rintro rfl
      exact absurd high (by decide)
    refine ⟨x, v, rfl, ?_⟩
    simp [Progress.startsToken, bare.visible, comment, bom, (Scalar.visible_of_word word).2]
  | single => exact ⟨_, _, rfl, rfl⟩
  | double => exact ⟨_, _, rfl, rfl⟩

theorem noReturn_written (chars : ∀ y ∈ w, IsWritten y) : '\r' ∉ w := by
  intro inside
  rcases chars _ inside with ⟨low, -⟩ | same
  · exact absurd low (by decide)
  · exact absurd same (by decide)

theorem printable_unbroken (chars : ∀ y ∈ w, IsWritten y) (unbroken : '\n' ∉ w) :
    ∀ y ∈ w, IsPrintable y := by
  intro y inside
  rcases chars y inside with printable | rfl
  · exact printable
  · exact absurd inside unbroken

namespace Progress

variable {p q r : Progress} {s : Stand} {allow broken : Bool} {column column' : Int} {c : Cursor}

/-! ## Plain scalars are told from other tokens -/

theorem head_marker {after : Bool} {v : List Char} (spells : Style.Plain n after cs w)
    (starts : w ++ tail = m :: v) (inner : m ≠ '\n') (other : tail.head? ≠ some m) :
    ∃ cs' w' after', cs = m :: cs' ∧ v = w' ++ tail ∧ Style.Plain n after' cs' w' := by
  cases spells with
  | nil => exact absurd (by rw [show tail = m :: v from starts]; rfl) other
  | char rest =>
    obtain ⟨rfl, rfl⟩ := List.cons.inj starts
    exact ⟨_, _, _, rfl, rfl, rest⟩
  | fold => exact absurd (List.cons.inj starts).1.symm inner

/-- No document marker starts a plain scalar. -/
theorem atMarker_plain (bare : Scalar.Bare x cs) (spells : Style.Plain n true (x :: cs) w)
    (text : c.rest = w ++ tail) (marker : m = '-' ∨ m = '.') (other : tail.head? ≠ some m) :
    c.atMarker m = false := by
  rw [Cursor.atMarker, text, Bool.and_eq_false_iff]
  refine .inl (beq_false_of_ne fun same => bare.unmarked m marker ?_)
  have inner : m ≠ '\n' := by rcases marker with rfl | rfl <;> decide
  obtain ⟨v, whole⟩ : ∃ v, w ++ tail = m :: m :: m :: v :=
    ⟨_, (List.take_append_drop 3 _).symm.trans (by rw [same]; rfl)⟩
  obtain ⟨cs₁, w₁, _, first, behind, spells⟩ := head_marker spells whole inner other
  obtain ⟨cs₂, w₂, _, second, behind, spells⟩ := head_marker spells behind.symm inner other
  obtain ⟨cs₃, _, _, third, -, -⟩ := head_marker spells behind.symm inner other
  rw [first, second, third]
  rfl

/-- A plain scalar is read as one. -/
theorem readToken_bare (bare : Scalar.Bare x cs) (spells : Style.Plain n true (x :: cs) w)
    (flat : p.inFlow = false) (text : p.cursor.rest = w ++ tail)
    (dash : tail.head? ≠ some '-') (dot : tail.head? ≠ some '.') : p.readToken = p.plainScalar := by
  have dashes := atMarker_plain bare spells text (.inl rfl) dash
  have dots := atMarker_plain bare spells text (.inr rfl) dot
  obtain ⟨v, rfl, inner⟩ := bare.starts spells
  have text : p.cursor.rest = x :: (v ++ tail) := text
  have other : ∀ d : Char, "#,[]\x7b\x7d&*!|>'\"%@\x60".toList.contains d = true → x ≠ d := by
    rintro d inside rfl
    rw [bare.opens] at inside
    contradiction
  have word : isSpaceOrEnd x = false := by
    obtain ⟨low, high⟩ := bare.printable x List.mem_cons_self
    exact Scalar.isSpaceOrEnd_printable low high bare.visible
  have goesOn : x = '?' ∨ x = ':' ∨ x = '-' → isSpaceOrEnd (p.cursor.peek 1) = false := by
    intro indicator
    have open_ := bare.goesOn indicator
    cases cs with
    | nil => contradiction
    | cons y cs =>
      have own := bare.printable y (List.mem_cons_of_mem x List.mem_cons_self)
      have visible : y ≠ ' ' := by
        rintro rfl
        contradiction
      obtain ⟨u, rfl, -⟩ := inner.head visible
      have second : p.cursor.peek 1 = y := by simp [Cursor.peek, text]
      rw [second]
      exact Scalar.isSpaceOrEnd_printable own.1 own.2 visible
  have plain : p.atPlain = true := by
    by_cases indicator : x = '?' ∨ x = ':' ∨ x = '-'
    · have next := goesOn indicator
      rcases indicator with rfl | rfl | rfl <;> simp [atPlain, Cursor.peek_cons text, next, flat]
    · obtain ⟨query, colon, dash⟩ : x ≠ '?' ∧ x ≠ ':' ∧ x ≠ '-' := by simpa using indicator
      have free : "-?:,[]\x7b\x7d#&*!|>'\"%@\x60".toList.contains x = false := by
        have opens := bare.opens
        simp_all
      rw [atPlain, Cursor.peek_cons text, free, word]
      rfl
  have alone : ∀ d, d = '?' ∨ d = ':' ∨ d = '-' → ¬ (x = d ∧ p.standsAlone = true) := by
    rintro d indicator ⟨rfl, stands⟩
    rw [standsAlone, goesOn indicator] at stands
    contradiction
  simp [readToken, Cursor.peek_cons text, flat, plain, dashes, dots, alone '-' (by decide),
    alone '?' (by decide), alone ':' (by decide), other '%' rfl, other '[' rfl, other '\x7b' rfl,
    other ']' rfl, other '\x7d' rfl, other ',' rfl, other '*' rfl, other '&' rfl, other '!' rfl,
    other '|' rfl, other '>' rfl, other '\'' rfl, other '"' rfl]

/-! ## Scalars -/

/-- The progress behind a scalar that has been read. -/
def behind (p : Progress) (allow : Bool) (read : Token × Cursor) : Progress :=
  { p.saved with allowKey := allow }.pushRead read

/-- Whether the scalar at the cursor is read as a text, up to another cursor. -/
def ReadsScalar (p : Progress) (cs : List Char) (plain broken : Bool) (c : Cursor) : Prop :=
  ∃ stop, p.readToken =
    .ok (p.behind broken (⟨.scalar (String.ofList cs) plain, p.cursor.mark, stop⟩, c))

theorem readsScalar_quoted (none : p.pending = []) (written : Written n cs false w) (inset : 0 < n)
    (text : p.cursor.rest = w ++ tail) (ends : tail.head? ≠ some '\'') :
    p.ReadsScalar cs false false (p.cursor.skip w.length) := by
  obtain ⟨quote, v, rfl, opens, read⟩ : ∃ quote v, w = quote :: v ∧ (quote = '\'' ∨ quote = '"') ∧
      Scalar.quoted p.cursor = .ok (Lexeme.token p.cursor.mark (p.cursor.skip w.length)
        (.scalar (String.ofList cs) false)) := by
    cases written with
    | single common spells =>
      obtain ⟨d, reads, -, -⟩ := Scalar.reads_single inset spells p.cursor.mark common ends
        (Cursor.next_cons text)
      exact ⟨_, _, rfl, .inl rfl, Scalar.quoted_reads text reads⟩
    | double spells =>
      obtain ⟨d, reads, -⟩ := Scalar.reads_double inset spells p.cursor.mark (Cursor.next_cons text)
      exact ⟨_, _, rfl, .inr rfl, Scalar.quoted_reads text reads⟩
  have text : p.cursor.rest = quote :: (v ++ tail) := text
  have own : p.readToken = p.keyable Scalar.quoted := by
    rcases opens with rfl | rfl <;>
      simp [readToken, Cursor.peek_cons text, Cursor.atMarker_of_ne text]
  obtain ⟨pending, saved⟩ := p.saved_eq
  have same : p.saved.cursor = p.cursor := by rw [saved]
  refine ⟨(p.cursor.skip (quote :: v).length).mark, ?_⟩
  rw [own, keyable, saveKey_nil none]
  simp only [bind, Except.bind, same, read]
  rfl

/-- A plain scalar that is read up to a cursor. -/
theorem readsScalar_bare (none : p.pending = []) (here : At p s allow (w ++ tail))
    (bare : Scalar.Bare x cs) (spells : Style.Plain n true (x :: cs) w)
    (dash : tail.head? ≠ some '-') (dot : tail.head? ≠ some '.')
    (read : ∃ stop, Scalar.plain false (s.indent + 1) p.cursor =
      (⟨.scalar (String.ofList (x :: cs)) true, p.cursor.mark, stop⟩, broken, c)) :
    p.ReadsScalar (x :: cs) true broken c := by
  obtain ⟨stop, read⟩ := read
  have own := readToken_bare bare spells here.inFlow here.ahead dash dot
  obtain ⟨pending, saved⟩ := p.saved_eq
  have same : Scalar.plain p.saved.inFlow (p.saved.indent + 1) p.saved.cursor =
      Scalar.plain false (s.indent + 1) p.cursor := by
    rw [saved, ← here.indent, ← here.inFlow]
    rfl
  refine ⟨stop, ?_⟩
  rw [own, plainScalar, saveKey_nil none]
  simp only [bind, Except.bind, same, read]
  rfl

/-- A scalar at the end of a line. A plain one is read with what is between the lines. -/
theorem readsScalar_line (none : p.pending = []) (written : Written n cs plain w) (inset : 0 < n)
    (here : At p s allow (w ++ (gap ++ rest))) (indents : s.indent < n) (within : s.indent ≤ p.column)
    (next : LineEnd gap column rest)
    (outside : column ≤ s.indent ∨ (p.cursor.skip w.length).next.atSeparator = true) :
    p.ReadsScalar cs plain plain (p.cursor.skip (w.length + if plain then gap.length else 0)) := by
  obtain ⟨more, first⟩ := next.exists_break
  have head : ∀ d, d ≠ '\n' → (gap ++ rest).head? ≠ some d := by
    intro d other same
    rw [first] at same
    exact other (Option.some.inj same).symm
  have within : s.indent ≤ p.cursor.mark.column := within
  cases plain with
  | false => exact readsScalar_quoted none written inset here.ahead (head _ (by decide))
  | true =>
    cases written with
    | plain bare spells =>
      exact readsScalar_bare none here bare spells (head _ (by decide)) (head _ (by decide))
        (Scalar.plain_line bare inset (by omega) spells here.ahead (by omega) next
          (outside.imp_left (by omega)))

/-- A scalar in front of a colon that a gap follows. -/
theorem readsScalar_key (none : p.pending = []) (written : Written n cs plain w) (inset : 0 < n)
    (here : At p s allow (w ++ ':' :: y :: rest)) (indents : s.indent < n)
    (within : s.indent ≤ p.column) (ends : isSpaceOrEnd y = true) :
    p.ReadsScalar cs plain false (p.cursor.skip w.length) := by
  have within : s.indent ≤ p.cursor.mark.column := within
  cases plain with
  | false => exact readsScalar_quoted none written inset here.ahead (by simp)
  | true =>
    cases written with
    | plain bare spells =>
      exact readsScalar_bare none here bare spells (by simp) (by simp)
        (Scalar.plain_key bare inset (by omega) spells here.ahead (by omega) ends)

theorem cursor_behind (p : Progress) (allow : Bool) (read : Token × Cursor) :
    (p.behind allow read).cursor = read.2 := rfl

theorem pending_behind (p : Progress) (allow : Bool) (read : Token × Cursor) :
    (p.behind allow read).pending = p.saved.pending := rfl

theorem tokens_behind (p : Progress) (allow : Bool) (read : Token × Cursor) :
    (p.behind allow read).tokens.toList = p.tokens.toList ++ [read.1] := by
  obtain ⟨pending, saved⟩ := p.saved_eq
  rw [behind, saved]
  simp [pushRead]

theorem at_behind (read : Token × Cursor) (here : At p s allow rest)
    (other : read.1.kind ≠ .streamEnd) (ahead : read.2.rest = tail) (broken : Bool) :
    At (p.behind broken read) (s.push [read.1.kind]) broken tail := by
  obtain ⟨pending, saved⟩ := p.saved_eq
  refine ⟨?_, ?_, ?_, ?_, rfl, ongoing_push here.ongoing (by simpa using other.symm), ahead⟩
  · rw [behind, saved]
    exact here.level
  · rw [Progress.kinds, tokens_behind, List.map_append, Stand.push, ← here.kinds]
    rfl
  · rw [behind, saved]
    exact here.indent
  · rw [behind, saved]
    exact here.outer

/-- A run goes on behind a scalar. The only key that is pending there is the scalar, if it is still in
reach. -/
theorem leads_scalar (standing : Standing p s allow column (x :: rest)) (starts : startsToken x = true)
    (first : p.toNextToken = .ok q) (here : At q s allow (x :: rest)) (none : q.pending = [])
    (deeper : s.indent < q.column) (read : q.ReadsScalar cs plain broken c) (ahead : c.rest = tail)
    (shorter : tail.length ≤ rest.length) :
    ∃ r, Leads p r ∧ At r (s.push [.scalar (String.ofList cs) plain]) broken tail ∧ r.cursor = c ∧
      ∀ k ∈ r.pending, k.required = false ∧ k.mark = q.cursor.mark ∧ r.isStale k = false := by
  obtain ⟨stop, read⟩ := read
  have known := optional_saved here none deeper
  have own := at_behind
    (⟨.scalar (String.ofList cs) plain, q.cursor.mark, stop⟩, c) here nofun ahead broken
  have pending := q.pending_behind broken
    (⟨.scalar (String.ofList cs) plain, q.cursor.mark, stop⟩, c)
  have cursor := q.cursor_behind broken (⟨.scalar (String.ofList cs) plain, q.cursor.mark, stop⟩, c)
  generalize q.behind broken _ = b at read own pending cursor
  have optional : ∀ k ∈ b.pending, k.required = false := fun k inside =>
    (known k (pending ▸ inside)).1
  have dropped := dropStale_read read optional
  refine ⟨b.fresh, standing.leads first here.ahead (present_of_starts starts) dropped ?_, ?_, cursor,
    fun k inside => ?_⟩
  · change b.cursor.rest.length ≤ _
    rwa [cursor, ahead]
  · exact ⟨own.level, own.kinds, own.indent, own.outer, own.allowKey, own.ongoing, own.ahead⟩
  · obtain ⟨inside, fresh⟩ := List.mem_filter.mp inside
    obtain ⟨optional, mark, -⟩ := known k (pending ▸ inside)
    have fresh : b.isStale k = false := by simpa using fresh
    exact ⟨optional, mark, fresh⟩

/-- A run stands behind a scalar in front of the next line. -/
theorem comes_scalar (written : Written n cs plain w) (inset : 0 < n) (indents : s.indent < n)
    (standing : Standing p s allow column (w ++ (gap ++ rest))) (deeper : s.indent < column)
    (next : LineEnd gap column' rest)
    (outside : column' ≤ s.indent ∨ gap ++ rest = ['\n', '.', '.', '.', '\n']) :
    ∃ q, Leads p q ∧
      Standing q (s.push [.scalar (String.ofList cs) plain]) true column' rest := by
  have chars := written.chars
  obtain ⟨x, v, rfl, starts⟩ := written.starts
  obtain ⟨q, here, none, place, first⟩ := standing.token (by omega)
  have text : q.cursor.rest = (x :: v) ++ (gap ++ rest) := here.ahead
  have behind := Cursor.skip_append text
  have outside : column' ≤ s.indent ∨ (q.cursor.skip (x :: v).length).next.atSeparator = true := by
    refine outside.imp_right fun dots => ?_
    rw [Cursor.atSeparator, atMarker_dots (Cursor.next_cons (behind.trans dots)), Bool.or_true]
  have read := readsScalar_line none written inset here indents (by omega) next outside
  have line := Cursor.skip_line text (noReturn_written chars)
  cases plain with
  | false =>
    obtain ⟨r, leads, own, cursor, pending⟩ := leads_scalar standing starts first here none (by omega)
      read behind (by simp)
    refine ⟨r, leads, own.lineEnd next fun k inside => ?_⟩
    obtain ⟨optional, mark, -⟩ := pending k inside
    refine ⟨optional, ?_⟩
    rw [mark, cursor]
    change _ ≤ (q.cursor.skip (x :: v).length).mark.line
    omega
  | true =>
    have passed := lineEnd_line behind next
    obtain ⟨-, column⟩ := lineEnd_column behind next
    have ahead := Cursor.skip_append behind
    rw [Cursor.skip_skip] at passed column ahead
    obtain ⟨r, leads, own, cursor, pending⟩ := leads_scalar standing starts first here none (by omega)
      read ahead (by simp; omega)
    have none : r.pending = [] := by
      refine List.eq_nil_iff_forall_not_mem.mpr fun k inside => ?_
      obtain ⟨-, mark, fresh⟩ := pending k inside
      simp only [isStale, Bool.or_eq_false_iff, bne_eq_false_iff_eq, mark, cursor] at fresh
      have same : q.cursor.mark.line =
        (q.cursor.skip ((x :: v).length + gap.length)).mark.line := fresh.1
      omega
    refine ⟨r, leads, own.behind_lineEnd none next ?_⟩
    rw [Progress.column, cursor]
    exact column

/-! ## Keys -/

/-- What is known of a key in front of its colon: it is still pending, or it is too long. -/
theorem isStale_key (here : At q s true (w ++ rest)) (chars : ∀ y ∈ w, IsWritten y)
    (unbroken : '\n' ∉ w) (cursor : r.cursor = q.cursor.skip w.length) :
    r.isStale q.nextKey = decide (maxKeySpan < w.length) := by
  have text := here.ahead
  have printable := printable_unbroken chars unbroken
  have none : w.countP isBreak = 0 := List.countP_eq_zero.mpr fun y inside => by
    obtain ⟨low, high⟩ := printable y inside
    simp [isBreak_ascii ⟨low, high⟩]
  have line := Cursor.skip_line text (noReturn_written chars)
  have index := Cursor.skip_index (c := q.cursor) (n := w.length) (by rw [text]; simp)
  have span : r.cursor.mark.index - q.cursor.mark.index = w.length := by
    rw [cursor, index]
    omega
  rw [none, Nat.add_zero] at line
  have same : q.nextKey.mark = q.cursor.mark := rfl
  rw [isStale, same, span, cursor, line]
  simp

/-- A progress with another token among those that have been read. -/
theorem At.insert {ts us : List Token} (here : At p s allow rest) (tokens : p.tokens.toList = ts ++ us)
    (mark : Mark) (other : kind ≠ .streamEnd) : At (p.insert ts.length mark kind)
      { s with kinds := ts.map (·.kind) ++ kind :: us.map (·.kind) } allow rest := by
  have ongoing := here.ongoing
  rw [← here.kinds, Progress.kinds, tokens, List.map_append, List.mem_append, not_or] at ongoing
  refine ⟨here.level, kinds_insert p mark kind tokens, here.indent, here.outer, here.allowKey, ?_,
    here.ahead⟩
  rw [List.mem_append, not_or, List.mem_cons, not_or]
  exact ⟨ongoing.1, other.symm, ongoing.2⟩

theorem At.indented (here : At p s allow rest) (column : Int) :
    At (p.indented column) ⟨s.kinds, column, s.indent :: s.outer⟩ allow rest :=
  ⟨here.level, here.kinds, rfl, congrArg₂ List.cons here.indent here.outer, here.allowKey,
    here.ongoing, here.ahead⟩

/-- The progress without the keys of its level, where no other key is allowed. -/
def unkeyed (p : Progress) : Progress :=
  { p with pending := p.pending.filter (·.level != p.level), allowKey := false }

theorem settleKey_eq (p : Progress) (key : PendingKey) : p.settleKey key =
    if ¬p.inFlow ∧ p.indent < key.mark.column then
      ((p.unkeyed.insert key.number key.mark .key).indented key.mark.column).insert key.number key.mark
        .blockMappingStart
    else p.unkeyed.insert key.number key.mark .key := rfl

/-- A token that has become a key stands behind the mark of a key, which opens the mapping if it is
deeper than the block. -/
theorem settleKey_at {ts us : List Token} {key : PendingKey} (tokens : p.tokens.toList = ts ++ us)
    (number : key.number = ts.length) (front : ts.map (·.kind) = s.kinds)
    (here : At p (s.push (us.map (·.kind))) allow rest) :
    At (p.settleKey key) ((s.entered key.mark.column .blockMappingStart).push
        (.key :: us.map (·.kind))) false rest ∧
      (p.settleKey key).pending = p.pending.filter (·.level != p.level) ∧
      (p.settleKey key).cursor = p.cursor := by
  have bare : At p.unkeyed (s.push (us.map (·.kind))) false rest :=
    ⟨here.level, here.kinds, here.indent, here.outer, rfl, here.ongoing, here.ahead⟩
  have marked := bare.insert tokens key.mark (show TokenKind.key ≠ .streamEnd from nofun)
  have indent : p.indent = s.indent := here.indent
  rw [settleKey_eq, number, Stand.entered, here.inFlow, indent]
  simp only [Bool.false_eq_true, not_false_eq_true, true_and]
  split
  · have opened := (marked.indented key.mark.column).insert
      (tokens_insert p.unkeyed key.mark .key tokens) key.mark
      (show TokenKind.blockMappingStart ≠ .streamEnd from nofun)
    rw [front] at opened
    refine ⟨?_, rfl, rfl⟩
    simpa [Stand.push] using opened
  · rw [front] at marked
    exact ⟨marked, rfl, rfl⟩

theorem dropStale_fresh (fresh : ∀ k ∈ p.pending, p.isStale k = false) : p.dropStale = .ok p := by
  have none : p.pending.find? (fun k => p.isStale k && k.required) = none :=
    List.find?_eq_none.mpr fun k inside => by simp [fresh k inside]
  have all : p.pending.filter (!p.isStale ·) = p.pending :=
    List.filter_eq_self.mpr fun k inside => by simp [fresh k inside]
  rw [dropStale, giveUp, none, all]

/-- A required key must not be given up. -/
theorem dropStale_required {key : PendingKey} (pending : p.pending = [key])
    (required : key.required = true) (stale : p.isStale key = true) : ∃ h, p.dropStale = .error h := by
  refine ⟨.malformed (.within .simpleKey key.mark .missingColon p.cursor.mark), ?_⟩
  simp [dropStale, giveUp, pending, required, stale, failWithin]

/-- A colon that no key comes before, in the middle of a line. -/
theorem readToken_colon_error (here : At p s false (':' :: y :: rest)) (ends : isSpaceOrEnd y = true)
    (none : p.pending = []) : ∃ h, p.readToken = .error h := by
  have text := here.ahead
  have second : p.cursor.peek 1 = y := by simp [Cursor.peek, text]
  have alone : p.standsAlone = true := by rw [standsAlone, second, ends]
  have flat := here.inFlow
  have shut := here.allowKey
  refine ⟨.malformed (.plain .mappingValueNotAllowed p.cursor.mark), ?_⟩
  simp [readToken, Cursor.peek_cons text, Cursor.atMarker, text, alone, valueMark, none, enterBlock, flat,
    shut, failAt, bind, Except.bind]

/-- A progress in front of a colon, behind a token that is pending as a key. -/
structure AtColon (p : Progress) (s : Stand) (kind : TokenKind) (key : PendingKey) (rest : List Char) :
    Prop where
  here : At p (s.push [kind]) false (':' :: rest)
  pending : p.pending = [key]
  level : key.level = 0
  tokens : ∃ ts t, p.tokens.toList = ts ++ [t] ∧ t.kind = kind ∧ ts.map (·.kind) = s.kinds ∧
    key.number = ts.length

namespace AtColon

variable {key : PendingKey}

/-- A colon makes a key of the token in front of it. -/
theorem readToken_eq (colon : AtColon p s kind key (y :: rest)) (ends : isSpaceOrEnd y = true) :
    p.readToken = .ok ((p.settleKey key).pushNext 1 .value) := by
  have text := colon.here.ahead
  have second : p.cursor.peek 1 = y := by simp [Cursor.peek, text]
  have alone : p.standsAlone = true := by rw [standsAlone, second, ends]
  have found : p.pending.find? (·.level == p.level) = some key := by
    simp [colon.pending, colon.level, colon.here.level]
  simp [readToken, Cursor.peek_cons text, Cursor.atMarker, text, alone, valueMark, found]

/-- A key in reach is not given up. -/
theorem dropStale_eq (colon : AtColon p s kind key rest) (fresh : p.isStale key = false) :
    p.dropStale = .ok p :=
  dropStale_fresh fun k inside => by
    rw [colon.pending, List.mem_singleton] at inside
    rw [inside, fresh]

/-- A key in reach makes an entry. -/
theorem leads (colon : AtColon p s kind key (y :: rest)) (ends : isSpaceOrEnd y = true)
    (fresh : p.isStale key = false) (inside : s.indent ≤ p.column) :
    ∃ q, Leads p q ∧ At q ((s.entered key.mark.column .blockMappingStart).push
      [.key, kind, .value]) false (y :: rest) ∧ q.pending = [] ∧ q.column = p.column + 1 := by
  have here := colon.here
  have text := here.ahead
  have next : p.toNextToken = .ok p :=
    toNextToken_here text rfl (colon.dropStale_eq fresh) (unwind_within (here.indent ▸ inside))
  obtain ⟨ts, t, tokens, rfl, front, number⟩ := colon.tokens
  have own : At p (s.push ([t].map (·.kind))) false (':' :: y :: rest) := here
  obtain ⟨settled, left, cursor⟩ := settleKey_at tokens number front own
  have behind := settled.pushNext (show TokenKind.value ≠ .streamEnd from nofun)
  have none : ((p.settleKey key).pushNext 1 .value).pending = [] := by
    change (p.settleKey key).pending = []
    rw [left, colon.pending]
    simp [colon.level, here.level]
  refine ⟨_, leads_read next ?_ ?_ ?_, ?_, none, ?_⟩
  · rw [Cursor.peek_cons text]
    decide
  · rw [colon.readToken_eq ends]
    exact giveUp_nil none _
  · rw [behind.ahead, text]
    simp
  · rwa [Stand.push_push] at behind
  · change (((p.settleKey key).cursor.skip 1).mark.column : Int) = _
    rw [cursor]
    have column := Cursor.next_column text ⟨by decide, by decide⟩
    simp [Cursor.skip, column, Progress.column]

/-- A key out of reach leaves a colon that stands for nothing. -/
theorem stops (colon : AtColon p s kind key (y :: rest)) (ends : isSpaceOrEnd y = true)
    (stale : p.isStale key = true) (inside : s.indent ≤ p.column) :
    (∃ h, p.dropStale = .error h) ∨
      ∃ q, p.dropStale = .ok q ∧ Stops q ∧ q.cursor = p.cursor := by
  cases required : key.required with
  | true => exact .inl (dropStale_required colon.pending required stale)
  | false =>
    have dropped : p.dropStale = .ok { p with pending := [] } := dropStale_expired fun k inside => by
      rw [colon.pending, List.mem_singleton] at inside
      rw [inside]
      exact ⟨required, stale⟩
    have own := colon.here
    have bare : At { p with pending := [] } (s.push [kind]) false (':' :: y :: rest) :=
      ⟨own.level, own.kinds, own.indent, own.outer, own.allowKey, own.ongoing, own.ahead⟩
    have next : ({ p with pending := [] } : Progress).toNextToken = .ok { p with pending := [] } :=
      toNextToken_here bare.ahead rfl (giveUp_nil rfl _) (unwind_within (bare.indent ▸ inside))
    obtain ⟨h, failed⟩ := readToken_colon_error bare ends rfl
    refine .inr ⟨_, dropped, stops_read (h := h) (bare.kinds ▸ bare.ongoing) next ?_ ?_, rfl⟩
    · rw [Cursor.peek_cons bare.ahead]
      decide
    · rw [failed]
      rfl

end AtColon

/-- A run reads a key in front of its colon. The key is out of reach if it is too long. -/
theorem reads_key (written : Written n cs plain w) (unbroken : '\n' ∉ w) (inset : 0 < n)
    (indents : s.indent < n) (here : At q s true (w ++ ':' :: y :: rest)) (none : q.pending = [])
    (ends : isSpaceOrEnd y = true) (inside : s.indent ≤ q.column) :
    ∃ b, q.readToken = .ok b ∧ b.cursor = q.cursor.skip w.length ∧
      AtColon b s (.scalar (String.ofList cs) plain) q.nextKey (y :: rest) ∧
      b.column = q.column + w.length ∧ b.isStale q.nextKey = decide (maxKeySpan < w.length) := by
  have text := here.ahead
  obtain ⟨stop, read⟩ := readsScalar_key none written inset here indents inside ends
  have own := at_behind (⟨.scalar (String.ofList cs) plain, q.cursor.mark, stop⟩,
    q.cursor.skip w.length) here nofun (Cursor.skip_append text) false
  have pending := q.pending_behind false (⟨.scalar (String.ofList cs) plain, q.cursor.mark, stop⟩,
    q.cursor.skip w.length)
  have cursor := q.cursor_behind false (⟨.scalar (String.ofList cs) plain, q.cursor.mark, stop⟩,
    q.cursor.skip w.length)
  have tokens := q.tokens_behind false (⟨.scalar (String.ofList cs) plain, q.cursor.mark, stop⟩,
    q.cursor.skip w.length)
  rw [saved, if_pos here.allowKey] at pending
  refine ⟨_, read, cursor, ⟨own, ?_, here.level, _, _, tokens, rfl, here.kinds, rfl⟩, ?_,
    isStale_key here written.chars unbroken cursor⟩
  · rw [pending]
    simp [dropped, keeping, none]
  · have column := Cursor.skip_column text (printable_unbroken written.chars unbroken)
    rw [Progress.column, cursor, column, Progress.column]
    omega

/-- A run stands behind a key and its colon, if the key is not too long. -/
theorem comes_key (written : Written n cs plain w) (unbroken : '\n' ∉ w) (inset : 0 < n)
    (indents : s.indent < n) (standing : Standing p s true column (w ++ ':' :: y :: rest))
    (ends : isSpaceOrEnd y = true) (inside : s.indent ≤ column) :
    if w.length ≤ maxKeySpan then
      ∃ q, Leads p q ∧ At q ((s.entered column .blockMappingStart).push
        [.key, .scalar (String.ofList cs) plain, .value]) false (y :: rest) ∧ q.pending = [] ∧
          q.column = column + w.length + 1
    else Stops p := by
  obtain ⟨x, v, rfl, starts⟩ := written.starts
  obtain ⟨q, here, none, place, first⟩ := standing.token inside
  obtain ⟨b, read, cursor, colon, further, stale⟩ := reads_key written unbroken inset indents here none
    ends (by omega)
  have present : q.cursor.peek ≠ endOfText := by
    rw [Cursor.peek_cons here.ahead]
    exact present_of_starts starts
  have shorter : b.cursor.rest.length < p.cursor.rest.length := by
    have length := standing.length
    rw [colon.here.ahead]
    simp at length ⊢
    omega
  split
  · rename_i fits
    have fresh : b.isStale q.nextKey = false := by
      rw [stale]
      simpa using fits
    have once : Leads p b := by
      refine leads_read first present ?_ shorter
      rw [read]
      exact colon.dropStale_eq fresh
    obtain ⟨e, twice, final, left, last⟩ := colon.leads ends fresh (by omega)
    have mark : (q.nextKey.mark.column : Int) = column := place
    rw [mark] at final
    exact ⟨e, once.trans twice, final, left, by omega⟩
  · rename_i long
    have stale : b.isStale q.nextKey = true := by
      rw [stale]
      simpa using long
    have ready : q.readToken >>= dropStale = b.dropStale := by
      rw [read]
      rfl
    rcases colon.stops ends stale (by omega) with ⟨h, failed⟩ | ⟨e, dropped, stops, same⟩
    · exact stops_read standing.ongoing first present (ready.trans failed)
    · exact (leads_read first present (ready.trans dropped) (by rwa [same])).stops stops

end Progress

end LiveDoc.Yaml
