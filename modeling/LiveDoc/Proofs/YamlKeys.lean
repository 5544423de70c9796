import LiveDoc.Proofs.YamlQuoted
import LiveDoc.Proofs.YamlSteps

/-!
# Strings and keys in flow style

A run reads a JSON string as a scalar. With a colon behind it the string becomes a key, unless it goes on
to another line or is too long: then it stays a scalar, and the colon stands for a value without a key.
-/

namespace LiveDoc.Yaml

variable {x : Char} {rest : List Char}

/-! ## The characters of a string as it is written -/

/-- A character stands in a string as printable ASCII characters, or as it is. -/
theorem escapeChar_ascii (x : Char) :
    (x.toNat ≤ 126 ∧ ∀ c ∈ Json.Writer.escapeChar x, 32 ≤ c.toNat ∧ c.toNat ≤ 126) ∨
      (32 ≤ x.toNat ∧ Json.Writer.escapeChar x = [x]) := by
  have codes : (List.range 32).all (fun n =>
      (Text.hex 4 n).all fun c => decide (32 ≤ c.toNat ∧ c.toNat ≤ 126)) = true := by decide +kernel
  unfold Json.Writer.escapeChar
  iterate 7
    split
    · subst_vars
      exact .inl ⟨by decide, by simp⟩
  split
  · rename_i small
    refine .inl ⟨by omega, fun c inside => ?_⟩
    rcases List.mem_cons.mp inside with rfl | inside
    · decide
    · rcases List.mem_cons.mp inside with rfl | inside
      · decide
      · have code := List.all_eq_true.mp codes _ (List.mem_range.mpr small)
        exact of_decide_eq_true (List.all_eq_true.mp code c inside)
  · exact .inr ⟨by omega, rfl⟩

theorem isBreak_ascii (printable : 32 ≤ x.toNat ∧ x.toNat ≤ 126) : isBreak x = false := by
  have other : ∀ d : Char, d.toNat < 32 ∨ 126 < d.toNat → (x == d) = false := fun d outside =>
    beq_false_of_ne fun same => by
      rw [same] at printable
      omega
  simp only [isBreak, other '\r' (by decide), other '\n' (by decide), other '\u0085' (by decide),
    other '\u2028' (by decide), other '\u2029' (by decide), Bool.or_self]

theorem isRawBreak_ascii (small : x.toNat ≤ 126) : Scalar.isRawBreak x = false := by
  have other : ∀ d : Char, 126 < d.toNat → (x == d) = false := fun d outside =>
    beq_false_of_ne fun same => by
      rw [same] at small
      omega
  simp only [Scalar.isRawBreak, other '\u0085' (by decide), other '\u2028' (by decide),
    other '\u2029' (by decide), Bool.or_self]

theorem any_isBreak_escapeChar (x : Char) :
    (Json.Writer.escapeChar x).any isBreak = Scalar.isRawBreak x := by
  rcases escapeChar_ascii x with ⟨small, printable⟩ | ⟨large, plain⟩
  · rw [isRawBreak_ascii small]
    exact List.any_eq_false.mpr fun c inside => by simp [isBreak_ascii (printable c inside)]
  · have cr : (x == '\r') = false := Scalar.ne_control large (by decide)
    have lf : (x == '\n') = false := Scalar.ne_control large (by decide)
    rw [plain]
    simp [isBreak, Scalar.isRawBreak, cr, lf]

theorem toList_string (s : String) : (Json.Writer.string s).toList =
    '"' :: (s.toList.flatMap Json.Writer.escapeChar ++ ['"']) := by
  simpa using Json.Reader.toList_string s []

/-- The line breaks in a string are those of its text that are not escaped. -/
theorem any_isBreak_string (s : String) :
    (Json.Writer.string s).toList.any isBreak = s.toList.any Scalar.isRawBreak := by
  have quote : isBreak '"' = false := rfl
  rw [toList_string, List.any_cons, List.any_append, List.any_flatMap]
  simp [any_isBreak_escapeChar, quote]

theorem noReturn_string (s : String) : '\r' ∉ (Json.Writer.string s).toList := by
  rw [toList_string]
  simp only [List.mem_cons, List.mem_append, List.mem_flatMap, not_or, not_exists, not_and,
    List.not_mem_nil, not_false_eq_true, and_true]
  refine ⟨by decide, fun x _ inside => ?_, by decide⟩
  rcases escapeChar_ascii x with ⟨-, printable⟩ | ⟨large, plain⟩
  · exact absurd (printable _ inside).1 (by decide)
  · rw [plain] at inside
    rw [← List.mem_singleton.mp inside] at large
    exact absurd large (by decide)

/-- Without breaks folding has nothing to do. -/
theorem foldFree_of_unbroken {cs : List Char} (unbroken : cs.any Scalar.isRawBreak = false) :
    Scalar.foldFree cs = true := by
  induction cs with
  | nil => rfl
  | cons c cs ih =>
    obtain ⟨own, others⟩ := Bool.or_eq_false_iff.mp unbroken
    have next : cs.head?.any Scalar.isRawBreak = false := by
      cases cs with
      | nil => rfl
      | cons d cs => exact (Bool.or_eq_false_iff.mp others).1
    simp [Scalar.foldFree, own, next, ih others]

namespace Progress

variable {p q r : Progress} {n : Nat} {kind : TokenKind} {s k : String}

/-! ## Strings -/

/-- A JSON string is read as a scalar, or stops the reading. -/
theorem readToken_string (steady : p.Steady)
    (text : p.cursor.rest = (Json.Writer.string s).toList ++ rest) :
    ∃ o, Scalar.Kept s.toList o ∧ p.readToken = o.map fun cs =>
      p.behindLexeme (Json.Writer.string s).toList.length (.scalar (String.ofList cs) false) := by
  obtain ⟨o, kept, read⟩ := Scalar.quoted_string s text
  rw [toList_string, List.cons_append] at text
  have quoted : p.readToken = p.keyable Scalar.quoted := by
    simp [readToken, Cursor.peek_cons text, Cursor.atMarker_of_ne text]
  refine ⟨o, kept, ?_⟩
  obtain ⟨pending, saved⟩ := p.saved_eq
  have same : p.saved.cursor = p.cursor := by rw [saved]
  rw [quoted, keyable, saveKey_steady steady]
  simp only [bind, Except.bind, same, read]
  cases o <;> rfl

/-- A run reads a string behind blanks as a scalar, or it stops at a document marker in it. -/
theorem reaches_string (steady : p.Steady)
    (text : p.cursor.rest = List.replicate n ' ' ++ ((Json.Writer.string s).toList ++ rest)) :
    (Stops p ∧ Scalar.foldFree s.toList = false) ∨
      ∃ t, (t = s ↔ Scalar.foldFree s.toList = true) ∧
        Reaches p (n + (Json.Writer.string s).toList.length) p.level false [.scalar t false]
          ((p.moved n).fresh.behindLexeme (Json.Writer.string s).toList.length
            (.scalar t false)).fresh := by
  obtain ⟨more, opening⟩ : ∃ more, (Json.Writer.string s).toList = '"' :: more :=
    ⟨_, toList_string s⟩
  have starts : p.cursor.rest = List.replicate n ' ' ++ '"' :: (more ++ rest) := by
    rw [text, opening, List.cons_append]
  obtain ⟨o, kept, read⟩ := readToken_string (steady.moved n).fresh (rest_moved text)
  cases o with
  | error h =>
    refine .inl ⟨stops_token steady starts rfl read, ?_⟩
    simpa using mt kept.free.mpr nofun
  | ok cs =>
    have width : 0 < (Json.Writer.string s).toList.length := by simp [opening]
    refine .inr ⟨String.ofList cs, ?_, reaches_lexeme steady starts rfl read width nofun⟩
    rw [← kept.free]
    constructor
    · rintro rfl
      rw [String.toList_ofList]
    · intro same
      rw [Except.ok.inj same, String.ofList_toList]

/-! ## Keys -/

/-- Whether a key is on one line with its colon, and the colon is near enough. -/
def keyInReach (k : String) : Bool :=
  !k.toList.any Scalar.isRawBreak && (Json.Writer.string k).toList.length ≤ maxKeySpan

/-- Behind a string, the key that it may become is out of reach if there was a break in it or it was
too long. -/
theorem isStale_nextKey (text : p.cursor.rest = (Json.Writer.string k).toList ++ rest)
    (cursor : q.cursor = p.cursor.skip (Json.Writer.string k).toList.length) :
    q.isStale p.nextKey = !keyInReach k := by
  have ahead : (Json.Writer.string k).toList.length ≤ p.cursor.rest.length := by simp [text]
  have index := Cursor.skip_index ahead
  have line := Cursor.skip_line text (noReturn_string k)
  have breaks : (p.cursor.mark.line != q.cursor.mark.line) = k.toList.any Scalar.isRawBreak := by
    have count := List.countP_pos_iff (p := isBreak) (l := (Json.Writer.string k).toList)
    rw [cursor, line, ← any_isBreak_string, Bool.eq_iff_iff, bne_iff_ne, List.any_eq_true]
    constructor
    · intro differs
      exact count.mp (by omega)
    · intro some
      have := count.mpr some
      omega
  have span : q.cursor.mark.index - p.cursor.mark.index = (Json.Writer.string k).toList.length := by
    rw [cursor, index]
    omega
  have order : decide (maxKeySpan < (Json.Writer.string k).toList.length) =
      !decide ((Json.Writer.string k).toList.length ≤ maxKeySpan) := by
    rw [Bool.eq_iff_iff]
    simp
  simp only [isStale, nextKey, breaks, span, keyInReach, Bool.not_and, Bool.not_not, order]

theorem pending_behindLexeme (allow : p.allowKey = true) (width : Nat) (kind : TokenKind) :
    (p.behindLexeme width kind).pending = p.dropped.pending ++ [p.nextKey] := by
  have saved : p.saved = { p.dropped with pending := p.dropped.pending ++ [p.nextKey] } :=
    if_pos allow
  rw [behindLexeme, saved]
  rfl

/-- Behind a string that may be a key, that key is the one of its level if it is in reach. -/
theorem find?_behindLexeme (kind : TokenKind)
    (text : p.cursor.rest = (Json.Writer.string k).toList ++ rest) (allow : p.allowKey = true) :
    ((p.behindLexeme (Json.Writer.string k).toList.length kind).fresh.pending.find?
      (·.level == p.level)) = if keyInReach k then some p.nextKey else none := by
  have stale := isStale_nextKey text (cursor_behindLexeme p _ kind)
  have others : p.dropped.pending.find? (fun a =>
      !(p.behindLexeme (Json.Writer.string k).toList.length kind).isStale a && a.level == p.level) =
        none := by
    refine List.find?_eq_none.mpr fun a inside => ?_
    have other : (!a.level == p.level) = true := (List.mem_filter.mp inside).2
    simp_all
  have own : (p.nextKey.level == p.level) = true := beq_self_eq_true _
  rw [fresh, keeping, List.find?_filter, pending_behindLexeme allow]
  simp only [Bool.decide_and, Bool.decide_eq_true]
  rw [List.find?_append, others, List.find?_singleton, stale, own]
  cases keyInReach k <;> rfl

/-! ## Colons -/

theorem valueMark_none (steady : p.Steady) (inside : p.inFlow = true)
    (none : p.pending.find? (·.level == p.level) = none) :
    p.valueMark = .ok ({ p.dropped with allowKey := false }.pushNext 1 .value) := by
  simp only [valueMark, none, enterBlock, inside, if_true, bind, Except.bind, dropKey_steady steady]
  have still : p.dropped.inFlow = true := inside
  rw [still]
  rfl

theorem valueMark_some {k : PendingKey} (inside : p.inFlow = true)
    (found : p.pending.find? (·.level == p.level) = some k) :
    p.valueMark =
      .ok ({ p.dropped.insert k.number k.mark .key with allowKey := false }.pushNext 1 .value) := by
  simp only [valueMark, found, settleKey]
  rw [if_neg]
  · rfl
  · rintro ⟨outside, -⟩
    exact outside inside

theorem insertIdx_append {α : Type} (xs ys : List α) (a : α) :
    (xs ++ ys).insertIdx xs.length a = xs ++ a :: ys := by
  induction xs with
  | nil => rfl
  | cons x xs ih => simp [ih]

/-- The mark of a key goes in front of the tokens from its number on. -/
theorem tokens_insert {ts us : List Token} (p : Progress) (mark : Mark) (kind : TokenKind)
    (tokens : p.tokens.toList = ts ++ us) :
    (p.insert ts.length mark kind).tokens.toList = ts ++ ⟨kind, mark, mark⟩ :: us := by
  have within : ts.length ≤ p.tokens.size := by
    have := congrArg List.length tokens
    simp at this
    omega
  simp only [insert, Array.insertIdxIfInBounds, dif_pos within, Array.toList_insertIdx, tokens,
    insertIdx_append]

theorem kinds_insert {ts us : List Token} (p : Progress) (mark : Mark) (kind : TokenKind)
    (tokens : p.tokens.toList = ts ++ us) :
    (p.insert ts.length mark kind).kinds = ts.map (·.kind) ++ kind :: us.map (·.kind) := by
  rw [kinds, tokens_insert p mark kind tokens]
  simp

theorem readToken_colon (text : p.cursor.rest = ':' :: rest) (inside : p.inFlow = true) :
    p.readToken = p.valueMark := by
  simp [readToken, Cursor.peek_cons text, Cursor.atMarker_of_ne text, inside]

/-- A progress that is steady because another one is. -/
theorem Steady.alike (steady : p.Steady) (outer : q.outer = p.outer) (indent : q.indent = p.indent)
    (level : q.level = p.level) (part : ∀ k ∈ q.pending, k ∈ p.pending)
    (ongoing : .streamEnd ∉ q.kinds) : q.Steady :=
  ⟨outer.trans steady.outer, indent.trans steady.indent, level ▸ steady.level,
    fun k inside => steady.optional k (part k inside), ongoing⟩

/-- What the colon at the cursor comes to: it is a token behind tokens of some kinds. -/
structure ReadsColon (p : Progress) (ks : List TokenKind) (q : Progress) : Prop where
  read : p.readToken = .ok q
  steady : q.Steady
  cursor : q.cursor = p.cursor.skip 1
  level : q.level = p.level
  allowKey : q.allowKey = false
  kinds : q.kinds = ks ++ [.value]

theorem readsColon_none (steady : p.Steady) (inside : p.inFlow = true)
    (text : p.cursor.rest = ':' :: rest) (none : p.pending.find? (·.level == p.level) = none) :
    ∃ q, ReadsColon p p.kinds q := by
  have kinds := kinds_pushNext { p.dropped with allowKey := false } 1 .value
  refine ⟨_, (readToken_colon text inside).trans (valueMark_none steady inside none),
    steady.dropped.alike rfl rfl rfl (fun _ => id) ?_, rfl, rfl, rfl, kinds⟩
  rw [kinds, List.mem_append, not_or]
  exact ⟨steady.ongoing, by decide⟩

theorem readsColon_some (steady : p.Steady) (inside : p.inFlow = true)
    (text : p.cursor.rest = ':' :: rest) {k : PendingKey}
    (found : p.pending.find? (·.level == p.level) = some k) {ts us : List Token}
    (tokens : p.tokens.toList = ts ++ us) (number : k.number = ts.length) :
    ∃ q, ReadsColon p (ts.map (·.kind) ++ .key :: us.map (·.kind)) q := by
  have inserted := kinds_insert p.dropped k.mark .key tokens
  have kinds := kinds_pushNext
    { p.dropped.insert k.number k.mark .key with allowKey := false } 1 .value
  change _ = (p.dropped.insert k.number k.mark .key).kinds ++ _ at kinds
  rw [← number] at inserted
  rw [inserted] at kinds
  refine ⟨_, (readToken_colon text inside).trans (valueMark_some inside found),
    steady.dropped.alike rfl rfl rfl (fun _ => id) ?_, rfl, rfl, rfl, kinds⟩
  have ongoing : .streamEnd ∉ p.kinds := steady.ongoing
  rw [Progress.kinds, tokens, List.map_append, List.mem_append, not_or] at ongoing
  rw [kinds, List.mem_append, List.mem_append, List.mem_cons, not_or, not_or, not_or]
  exact ⟨⟨ongoing.1, by decide, ongoing.2⟩, by decide⟩

/-- The colon behind a string that may be a key makes it one if it is in reach. -/
theorem readsColon_behindLexeme (steady : p.Steady) (inside : 0 < p.level)
    (allow : p.allowKey = true) (t : String)
    (text : p.cursor.rest = (Json.Writer.string k).toList ++ ':' :: rest)
    (same : q = (p.behindLexeme (Json.Writer.string k).toList.length (.scalar t false)).fresh) :
    ∃ r, ReadsColon q (p.kinds ++ ((if keyInReach k then [.key] else []) ++ [.scalar t false])) r := by
  have found := find?_behindLexeme (.scalar t false) text allow
  have first := steady.behindLexeme (Json.Writer.string k).toList.length
    (show TokenKind.scalar t false ≠ .streamEnd from nofun)
  have own : q.Steady := by
    rw [same]
    exact first.fresh
  have level : q.level = p.level := by
    rw [same]
    exact level_behindLexeme p (Json.Writer.string k).toList.length (.scalar t false)
  have tokens : q.tokens.toList = p.tokens.toList ++ [(Lexeme.token p.cursor.mark
      (p.cursor.skip (Json.Writer.string k).toList.length) (.scalar t false)).1] := by
    rw [same]
    exact tokens_behindLexeme p (Json.Writer.string k).toList.length (.scalar t false)
  have colon : q.cursor.rest = ':' :: rest := by
    rw [same]
    exact Cursor.skip_append text
  have inFlow : q.inFlow = true := by
    rw [inFlow, level, bne_iff_ne]
    omega
  rw [← same, ← level] at found
  cases reach : keyInReach k with
  | false =>
    rw [reach] at found
    have kinds : q.kinds = p.kinds ++ ([] ++ [.scalar t false]) := by
      rw [kinds, tokens, List.map_append]
      rfl
    rw [if_neg (by simp), ← kinds]
    exact readsColon_none own inFlow colon found
  | true =>
    rw [reach] at found
    exact readsColon_some own inFlow colon found tokens Array.length_toList.symm

/-- A run reads a string behind blanks and the colon behind it, where a key is allowed, or it stops at a
document marker in the string. -/
theorem reaches_key (steady : p.Steady) (inside : 0 < p.level) (allow : p.allowKey = true)
    (text : p.cursor.rest = List.replicate n ' ' ++ ((Json.Writer.string k).toList ++ ':' :: rest)) :
    (Stops p ∧ Scalar.foldFree k.toList = false) ∨
      ∃ t q, (t = k ↔ Scalar.foldFree k.toList = true) ∧
        Reaches p (n + (Json.Writer.string k).toList.length + 1) p.level false
          ((if keyInReach k then [.key] else []) ++ [.scalar t false, .value]) q := by
  rcases reaches_string steady text with stops | ⟨t, same, first⟩
  · exact .inl stops
  have behind := rest_moved text
  have own : (p.moved n).fresh.Steady := (steady.moved n).fresh
  have within : 0 < (p.moved n).fresh.level := inside
  have allowed : (p.moved n).fresh.allowKey = true := allow
  have before : (p.moved n).fresh.kinds = p.kinds := rfl
  generalize lexeme : ((p.moved n).fresh.behindLexeme (Json.Writer.string k).toList.length
    (.scalar t false)).fresh = b at first
  obtain ⟨q, colon⟩ := readsColon_behindLexeme own within allowed t behind lexeme.symm
  have again : (b.moved 0).fresh = b := by rw [moved_zero, ← lexeme, fresh_fresh]
  have ahead : b.cursor.rest = List.replicate 0 ' ' ++ ':' :: rest := by
    rw [first.cursor, ← Cursor.skip_skip]
    exact Cursor.skip_append behind
  have read : (b.moved 0).fresh.readToken = .ok q := by
    rw [again]
    exact colon.read
  have further := leads_token first.steady ahead rfl read Nat.one_pos colon.cursor colon.steady
  refine .inr ⟨t, q.fresh, same, first.leads.trans further, colon.steady.fresh, ?_,
    colon.level.trans first.level, colon.allowKey, ?_⟩
  · change q.cursor = _
    rw [colon.cursor, first.cursor, Cursor.skip_skip]
  · change q.kinds = _
    rw [colon.kinds, before, List.append_assoc, List.append_assoc]
    rfl

end Progress

end LiveDoc.Yaml
