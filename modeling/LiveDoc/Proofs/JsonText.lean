import LiveDoc.Proofs.JsonDocument
import LiveDoc.Proofs.NumberText

/-!
# Documents in JSON text

What the writer writes for a JSON document, in either layout, the reader reads as a tree of that
document. A text is read as a tree in any surroundings that do not go on with a number, so the texts
of items and members are read within the text of their container.
-/

namespace LiveDoc.Json.Reader

/-! ## Strings -/

/-- A control character in hexadecimal is read back. -/
theorem hex4?_control (rest : List Char) :
    ∀ n < 32, hex4? (Text.hex 4 n ++ rest) = some n ∧ (Text.hex 4 n).length = 4 := by
  intro n small
  interval_cases n <;> exact ⟨rfl, rfl⟩

/-- A character of a string is read back from its escape, whatever follows. -/
theorem string_escapeChar (opening fuel : Nat) (c : Char) {rest : List Char} (more : rest ≠ []) :
    string opening (fuel + 1) (Writer.escapeChar c ++ rest) =
      (string opening fuel rest).map fun r => (.char c :: r.1, r.2) := by
  unfold Writer.escapeChar
  iterate 7
    split
    · subst_vars
      rfl
  split
  · rename_i control
    obtain ⟨code, width⟩ := hex4?_control rest c.toNat control
    have long : ¬ (Text.hex 4 c.toNat ++ rest).length ≤ 4 := by
      have := List.length_pos_iff.mpr more
      simp [width]
      omega
    have left : (Text.hex 4 c.toNat ++ rest).drop 4 = rest :=
      List.drop_left' width
    have unit : ofUnit c.toNat = .char c := by
      rw [ofUnit, if_neg (by omega), Char.ofNat_toNat]
    simp only [List.cons_append, string]
    rw [if_neg (by decide), if_pos trivial, if_neg long, code]
    simp only [left, unit]
    rw [if_neg (by omega)]
  · rename_i quote slash _ _ _ _ _ control
    simp only [List.singleton_append, string]
    rw [if_neg quote, if_neg slash, if_neg control]

/-- The characters of a string are read back up to its closing quote. -/
theorem string_escaped (opening : Nat) (cs rest : List Char) (fuel : Nat) (enough : cs.length < fuel) :
    string opening fuel (cs.flatMap Writer.escapeChar ++ '"' :: rest) = .ok (cs.map .char, rest) := by
  induction cs generalizing fuel with
  | nil =>
    obtain ⟨fuel, rfl⟩ := Nat.exists_eq_succ_of_ne_zero (Nat.ne_of_gt enough)
    rfl
  | cons c cs ih =>
    obtain ⟨fuel, rfl⟩ := Nat.exists_eq_succ_of_ne_zero (Nat.ne_of_gt (Nat.zero_lt_of_lt enough))
    rw [List.flatMap_cons, List.append_assoc, string_escapeChar _ _ _ (by simp),
      ih fuel (by simpa using enough)]
    rfl

/-! ## Spaces and ends -/

/-- Whether a text begins as a value does: not with a space, nor with the end of a container or the
mark that may stand before a whole text. -/
def Opens (cs : List Char) : Prop :=
  ∃ c tail, cs = c :: tail ∧ isSpace c = false ∧ c ≠ ']' ∧ c ≠ '\x7d' ∧ c ≠ '\uFEFF'

/-- Whether a text consists of spaces. -/
def Blank (cs : List Char) : Prop := ∀ c ∈ cs, isSpace c = true

variable {cs gap rest : List Char}

/-- Spaces are skipped up to the beginning of a value. -/
theorem skip_blank (blank : Blank gap) (opens : Opens cs) : skip (gap ++ cs) = cs := by
  obtain ⟨c, tail, rfl, space, -⟩ := opens
  rw [skip, List.dropWhile_append_of_pos blank, List.dropWhile_cons_of_neg (by simp [space])]

theorem skip_opens (opens : Opens cs) : skip cs = cs :=
  skip_blank (fun _ inside => nomatch inside : Blank []) opens

theorem opens_append (opens : Opens cs) (rest : List Char) : Opens (cs ++ rest) := by
  obtain ⟨c, tail, rfl, facts⟩ := opens
  exact ⟨c, tail ++ rest, rfl, facts⟩

theorem skip_colon : skip (':' :: rest) = ':' :: rest := rfl

theorem skip_comma : skip (',' :: rest) = ',' :: rest := rfl

/-- A mark after spaces is found by skipping them. -/
theorem skip_mark {c : Char} (blank : Blank gap) (mark : isSpace c = false) :
    skip (gap ++ c :: rest) = c :: rest := by
  rw [skip, List.dropWhile_append_of_pos blank, List.dropWhile_cons_of_neg (by simp [mark])]

/-- Spaces do not go on with a number. -/
theorem ends_space {c : Char} (space : isSpace c = true) : Ends (c :: rest) := by
  have cases : c = ' ' ∨ c = '\t' ∨ c = '\n' ∨ c = '\r' := by simpa [isSpace, or_assoc] using space
  rcases cases with rfl | rfl | rfl | rfl <;>
    exact ⟨rfl, fun c head => by cases head; decide⟩

theorem ends_blank {c : Char} (blank : Blank gap) (ends : Ends (c :: rest)) :
    Ends (gap ++ c :: rest) := by
  cases gap with
  | nil => exact ends
  | cons d gap => exact ends_space (blank d List.mem_cons_self)

theorem ends_comma : Ends (',' :: rest) := ⟨rfl, fun c head => by cases head; decide⟩

theorem ends_bracket : Ends (']' :: rest) := ⟨rfl, fun c head => by cases head; decide⟩

theorem ends_brace : Ends ('\x7d' :: rest) := ⟨rfl, fun c head => by cases head; decide⟩

/-! ## Scalars -/

variable {spell : Spelling}

/-- Whether a text is read as a tree wherever it stands, in every usual spelling. Twice its length is
enough fuel. -/
structure Spells (cs : List Char) (t : Tree) : Prop where
  opens : Opens cs
  reads : ∀ {spell : Spelling}, spell.IsUsual → ∀ fuel rest, 2 * cs.length ≤ fuel → Ends rest →
    value spell fuel (cs ++ rest) = .ok (t, rest)

theorem length_le_escaped (cs : List Char) : cs.length ≤ (cs.flatMap Writer.escapeChar).length := by
  induction cs with
  | nil => simp
  | cons c cs ih =>
    have one : 1 ≤ (Writer.escapeChar c).length := by
      unfold Writer.escapeChar
      repeat' split
      all_goals simp
    simp only [List.flatMap_cons, List.length_cons, List.length_append]
    omega

/-- A string is read up to its closing quote. -/
theorem string_text (s : String) (opening : Nat) (rest : List Char) :
    let cs := s.toList.flatMap Writer.escapeChar ++ '"' :: rest
    string opening cs.length cs = .ok (s.toList.map .char, rest) := by
  refine string_escaped opening s.toList rest _ ?_
  have := length_le_escaped s.toList
  simp only [List.length_append, List.length_cons]
  omega

theorem toList_string (s : String) (rest : List Char) :
    (Writer.string s).toList ++ rest =
      '"' :: (s.toList.flatMap Writer.escapeChar ++ '"' :: rest) := by
  simp [Writer.string]

theorem spells_text (s : String) : Spells (Writer.string s).toList (.text s) := by
  have text := toList_string s
  refine ⟨⟨'"', _, by simpa using text [], by decide⟩, fun usual fuel rest enough _ => ?_⟩
  obtain ⟨fuel, rfl⟩ : ∃ more, fuel = more + 1 := by
    have := congrArg List.length (text [])
    simp at this
    exact ⟨fuel - 1, by omega⟩
  rw [text, value]
  simp only [string_text, bind, Except.bind, usual s.toList, String.ofList_toList]

/-- Whether a text begins neither as a string nor as a container. -/
def Plain (cs : List Char) : Prop :=
  ∀ c, cs.head? = some c → c ≠ '"' ∧ c ≠ '[' ∧ c ≠ '\x7b'

/-- A text that begins as neither is a constant or a number. -/
theorem value_plain {fuel : Nat} (plain : Plain cs) :
    value spell (fuel + 1) cs =
      match constant? cs with
      | some r => .ok r
      | none => number cs := by
  unfold value
  split
  · exact absurd rfl (plain '"' rfl).1
  · exact absurd rfl (plain '[' rfl).2.1
  · exact absurd rfl (plain '\x7b' rfl).2.2
  · rfl

/-- The constants are read as what they stand for. -/
theorem value_constant {word : List Char} {t : Tree} (constant : (word, t) ∈ constants) (fuel : Nat)
    (rest : List Char) (enough : word.length ≤ fuel) :
    Opens word ∧ value spell fuel (word ++ rest) = .ok (t, rest) := by
  simp only [constants, List.mem_cons, Prod.mk.injEq, List.not_mem_nil, or_false] at constant
  rcases constant with ⟨rfl, rfl⟩ | ⟨rfl, rfl⟩ | ⟨rfl, rfl⟩ | ⟨rfl, rfl⟩ | ⟨rfl, rfl⟩ | ⟨rfl, rfl⟩ <;>
    refine ⟨⟨_, _, rfl, by decide⟩, ?_⟩ <;>
    obtain ⟨fuel, rfl⟩ := Nat.exists_eq_succ_of_ne_zero
      (Nat.ne_of_gt (Nat.lt_of_lt_of_le (by decide) enough)) <;>
    exact value_plain fun c head => by cases head; decide

theorem spells_constant {word : List Char} {t : Tree} (constant : (word, t) ∈ constants) :
    Spells word t :=
  ⟨(@value_constant .plain _ _ constant word.length [] le_rfl).1, fun _ fuel rest enough _ =>
    (value_constant constant fuel rest (by omega)).2⟩

/-- A text that is read as a number begins with a digit or a minus sign before one. -/
theorem digit_of_number {r : Tree × List Char} (read : number cs = .ok r) :
    ∃ negative c tail, cs = signText negative (c :: tail) ∧ Text.isAsciiDigit c = true := by
  have integer : ∀ body p, integerPart? body = some p →
      ∃ c tail, body = c :: tail ∧ Text.isAsciiDigit c = true := by
    intro body p integer
    unfold integerPart? at integer
    split at integer
    · exact ⟨_, _, rfl, rfl⟩
    · rename_i c tail _
      split at integer
      · exact ⟨c, tail, rfl, ‹_›⟩
      · contradiction
    · contradiction
  unfold number at read
  split at read
  rename_i negative body parts
  split at read
  · contradiction
  · rename_i found
    obtain ⟨c, tail, rfl, digit⟩ := integer _ _ found
    split at parts
    · obtain ⟨rfl, rfl⟩ := Prod.mk.inj parts
      exact ⟨true, c, tail, rfl, digit⟩
    · obtain ⟨rfl, rfl⟩ := Prod.mk.inj parts
      exact ⟨false, c, tail, rfl, digit⟩

/-- What begins with a digit, perhaps after a minus sign, is no constant. -/
theorem constant?_digit {c : Char} (digit : Text.isAsciiDigit c = true) (negative : Bool) :
    constant? (signText negative (c :: cs)) = none := by
  have letters : c ≠ 'n' ∧ c ≠ 't' ∧ c ≠ 'f' ∧ c ≠ 'N' ∧ c ≠ 'I' ∧ c ≠ '-' := by
    refine ⟨?_, ?_, ?_, ?_, ?_, ?_⟩ <;> rintro rfl <;> contradiction
  obtain ⟨n, t, f, N, I, minus⟩ := letters
  cases negative <;>
    simp [signText, constant?, constants, List.findSome?, Text.stripLeading?, n.symm, t.symm, f.symm,
      N.symm, I.symm, minus.symm]

/-- What is read as a number on its own is read as a value. -/
theorem value_number {t : Tree}
    (reads : ∀ rest, Ends rest → number (cs ++ rest) = .ok (t, rest)) :
    Opens cs ∧ ∀ spell fuel rest, cs.length ≤ fuel → Ends rest →
      value spell fuel (cs ++ rest) = .ok (t, rest) := by
  obtain ⟨negative, c, tail, text, digit⟩ :=
    digit_of_number (by simpa using reads [] ends_nil)
  have others : isSpace c = false ∧ c ≠ ']' ∧ c ≠ '\x7d' ∧ c ≠ '\uFEFF' ∧ c ≠ '"' ∧ c ≠ '[' ∧
      c ≠ '\x7b' := by
    refine ⟨?_, ?_, ?_, ?_, ?_, ?_, ?_⟩
    · unfold isSpace
      refine Bool.eq_false_iff.mpr fun space => ?_
      simp at space
      rcases space with ((rfl | rfl) | rfl) | rfl <;> contradiction
    all_goals
      rintro rfl
      contradiction
  obtain ⟨space, bracket, closing, mark, quote, opening, brace⟩ := others
  have none (rest : List Char) : constant? (cs ++ rest) = none := by
    rw [text, signText_append]
    exact constant?_digit digit negative
  refine ⟨?_, fun spell fuel rest enough ends => ?_⟩
  · cases negative with
    | true => exact ⟨'-', _, text, by decide⟩
    | false => exact ⟨c, tail, text, space, bracket, closing, mark⟩
  · obtain ⟨fuel, rfl⟩ : ∃ more, fuel = more + 1 := by
      have : 0 < cs.length := by
        rw [text]
        cases negative <;> simp [signText]
      exact ⟨fuel - 1, by omega⟩
    rw [← reads rest ends]
    rw [value_plain, none rest]
    rw [text]
    cases negative with
    | true => exact fun d head => by cases head; decide
    | false => exact fun d head => by cases head; exact ⟨quote, opening, brace⟩

theorem spells_number {t : Tree}
    (reads : ∀ rest, Ends rest → number (cs ++ rest) = .ok (t, rest)) : Spells cs t :=
  ⟨(value_number reads).1, fun _ fuel rest enough ends =>
    (value_number reads).2 _ fuel rest (by omega) ends⟩

/-! ## Containers -/

/-- The text of items with their separators, the first of them apart. -/
theorem toList_intercalate (separator first second : String) (others : List String) :
    (separator.intercalate (first :: second :: others)).toList =
      first.toList ++ (separator.toList ++ (separator.intercalate (second :: others)).toList) := by
  simp [String.intercalate_cons_cons]

variable {separator : String} {gap close : List Char} {ts : List Tree} {ms : List (String × Tree)}
  {ss : List String}

/-- Items between separators open as the first of them. -/
theorem opens_intercalate (separator : String) {s : String} (opens : Opens s.toList)
    (others : List String) :
    Opens (separator.intercalate (s :: others)).toList := by
  cases others with
  | nil => simpa using opens
  | cons second others =>
    rw [toList_intercalate]
    exact opens_append opens _

/-- The items of an array are read up to its end. -/
theorem items_spelled (usual : spell.IsUsual) (comma : separator.toList = ',' :: gap)
    (gapBlank : Blank gap) (closeBlank : Blank close)
    (spelled : List.Forall₂ (fun s t => Spells s.toList t) ss ts)
    (present : ss ≠ []) (rest : List Char) (fuel : Nat)
    (enough : 2 * (separator.intercalate ss).toList.length < fuel) :
    items spell fuel ((separator.intercalate ss).toList ++ (close ++ ']' :: rest)) = .ok (ts, rest) := by
  induction spelled generalizing fuel with
  | nil => contradiction
  | @cons s t others later first spelled ih =>
    obtain ⟨fuel, rfl⟩ := Nat.exists_eq_succ_of_ne_zero (Nat.ne_of_gt (Nat.zero_lt_of_lt enough))
    cases spelled with
    | nil =>
      rw [String.intercalate_singleton] at enough ⊢
      rw [items, first.reads usual fuel _ (by omega) (ends_blank closeBlank ends_bracket)]
      simp only [bind, Except.bind, skip_mark closeBlank (by decide : isSpace ']' = false)]
    | @cons second _ others _ next spelled =>
      rw [toList_intercalate, comma] at enough ⊢
      simp only [List.length_append, List.length_cons] at enough
      have rest' := ih (by simp) fuel (by omega)
      have opens : Opens ((separator.intercalate (second :: others)).toList ++
          (close ++ ']' :: rest)) := opens_append (opens_intercalate separator next.opens others) _
      rw [List.append_assoc, List.append_assoc, List.cons_append, items,
        first.reads usual fuel _ (by omega) ends_comma]
      simp only [bind, Except.bind, skip_comma, skip_blank gapBlank opens, rest']

/-- Whether a text is read as a member wherever it stands: a key as a string, and then its tree. -/
def SpellsMember (s : String) (m : String × Tree) : Prop :=
  ∃ value, s = Writer.string m.1 ++ ": " ++ value ∧ Spells value.toList m.2

theorem opens_member {s : String} {m : String × Tree} (spelled : SpellsMember s m) :
    Opens s.toList := by
  obtain ⟨value, rfl, -⟩ := spelled
  rw [String.append_assoc, String.toList_append]
  exact opens_append (spells_text m.1).opens _

/-- The text of a member up to its tree. -/
theorem toList_member (k value : String) (rest : List Char) :
    (Writer.string k ++ ": " ++ value).toList ++ rest =
      '"' :: (k.toList.flatMap Writer.escapeChar ++
        '"' :: ':' :: ([' '] ++ (value.toList ++ rest))) := by
  simp [Writer.string]

/-- The members of an object are read up to its end. -/
theorem members_spelled (usual : spell.IsUsual) (comma : separator.toList = ',' :: gap)
    (gapBlank : Blank gap) (closeBlank : Blank close) (spelled : List.Forall₂ SpellsMember ss ms) (present : ss ≠ [])
    (rest : List Char) (fuel : Nat)
    (enough : 2 * (separator.intercalate ss).toList.length < fuel) :
    members spell fuel ((separator.intercalate ss).toList ++ (close ++ '\x7d' :: rest)) =
      .ok (ms, rest) := by
  have space : Blank [' '] := fun c inside => List.mem_singleton.mp inside ▸ rfl
  induction spelled generalizing fuel with
  | nil => contradiction
  | @cons s m others later first spelled ih =>
    obtain ⟨fuel, rfl⟩ := Nat.exists_eq_succ_of_ne_zero (Nat.ne_of_gt (Nat.zero_lt_of_lt enough))
    obtain ⟨k, t⟩ := m
    obtain ⟨value, rfl, spells⟩ := first
    have short : 2 * value.toList.length ≤ 2 * (Writer.string k ++ ": " ++ value).toList.length := by
      simp
      omega
    cases spelled with
    | nil =>
      rw [String.intercalate_singleton] at enough ⊢
      dsimp only at enough spells
      rw [toList_member, members]
      simp only [string_text, bind, Except.bind, skip_colon,
        skip_blank space (opens_append spells.opens _),
        spells.reads usual fuel _ (by omega) (ends_blank closeBlank ends_brace),
        skip_mark closeBlank (by decide : isSpace '\x7d' = false), usual k.toList, String.ofList_toList]
    | @cons second _ others _ next spelled =>
      rw [toList_intercalate, comma] at enough ⊢
      dsimp only at spells
      simp only [List.length_append, List.length_cons] at enough short
      have rest' := ih (by simp) fuel (by omega)
      have opens : Opens ((separator.intercalate (second :: others)).toList ++
          (close ++ '\x7d' :: rest)) :=
        opens_append (opens_intercalate separator (opens_member next) others) _
      rw [List.append_assoc, List.append_assoc, List.cons_append, toList_member, members]
      simp only [string_text, bind, Except.bind, skip_colon,
        skip_blank space (opens_append spells.opens _), spells.reads usual fuel _ (by omega) ends_comma,
        skip_comma, skip_blank gapBlank opens, rest', usual k.toList,
        String.ofList_toList]

/-- A line break and its indentation are blank. -/
theorem newline_blank (layout : Layout) (level : Nat) :
    Blank (Writer.newline layout level).toList := by
  cases layout with
  | compact => exact fun c inside => absurd inside (by simp [Writer.newline])
  | indented =>
    intro c inside
    simp only [Writer.newline, String.toList_ofList, List.mem_cons, List.mem_replicate] at inside
    rcases inside with rfl | ⟨-, rfl⟩ <;> rfl

/-- A separator is a comma and a blank. -/
theorem separator_blank (layout : Layout) (level : Nat) :
    ∃ gap, (Writer.separator layout level).toList = ',' :: gap ∧ Blank gap := by
  cases layout with
  | compact =>
    exact ⟨[' '], by simp [Writer.separator], fun c inside => List.mem_singleton.mp inside ▸ rfl⟩
  | indented => exact ⟨_, by simp [Writer.separator], newline_blank .indented level⟩

/-- Items between brackets stand between blanks. -/
theorem toList_block (layout : Layout) (level : Nat) {opening closing : String} {o c : Char}
    (opens : opening.toList = [o]) (closes : closing.toList = [c]) (present : ss ≠ [])
    (rest : List Char) :
    (Writer.block layout level opening closing ss).toList ++ rest =
      o :: ((Writer.newline layout (level + 1)).toList ++
        (((Writer.separator layout (level + 1)).intercalate ss).toList ++
          ((Writer.newline layout level).toList ++ c :: rest))) := by
  simp [Writer.block, present, opens, closes]

/-- The brackets around items leave fuel for them. -/
theorem length_block (layout : Layout) (level : Nat) {opening closing : String} {o c : Char}
    (opens : opening.toList = [o]) (closes : closing.toList = [c]) (present : ss ≠ []) :
    ((Writer.separator layout (level + 1)).intercalate ss).toList.length + 2 ≤
      (Writer.block layout level opening closing ss).toList.length := by
  have length := congrArg List.length (toList_block layout level opens closes present [])
  simp only [List.append_nil, List.length_append, List.length_cons, List.length_nil] at length
  omega

/-- Within brackets the blank before the items is skipped. -/
theorem skip_block (layout : Layout) (level : Nat) {opening closing s : String} {o c : Char}
    (opens : opening.toList = [o]) (closes : closing.toList = [c]) (first : Opens s.toList)
    (others : List String) (rest : List Char) :
    let inner := ((Writer.separator layout (level + 1)).intercalate (s :: others)).toList ++
      ((Writer.newline layout level).toList ++ c :: rest)
    ∃ gap, (Writer.block layout level opening closing (s :: others)).toList ++ rest =
        o :: (gap ++ inner) ∧ skip (gap ++ inner) = inner ∧ Opens inner := by
  intro inner
  have begins : Opens inner :=
    opens_append (opens_intercalate (Writer.separator layout (level + 1)) first others) _
  exact ⟨_, toList_block layout level opens closes (List.cons_ne_nil s others) rest,
    skip_blank (newline_blank layout (level + 1)) begins, begins⟩

/-- Items between brackets are read as an array. -/
theorem spells_array (layout : Layout) (level : Nat)
    (spelled : List.Forall₂ (fun s t => Spells s.toList t) ss ts) :
    Spells (Writer.block layout level "[" "]" ss).toList (.array ts) := by
  have opening : "[".toList = ['['] := by simp
  have closing : "]".toList = [']'] := by simp
  cases spelled with
  | nil =>
    refine ⟨⟨'[', [']'], by simp [Writer.block], by decide⟩, fun usual fuel rest enough _ => ?_⟩
    obtain ⟨fuel, rfl⟩ := Nat.exists_eq_succ_of_ne_zero
      (Nat.ne_of_gt (Nat.lt_of_lt_of_le (by simp [Writer.block]) enough))
    rw [show (Writer.block layout level "[" "]" []).toList = ['[', ']'] by simp [Writer.block]]
    rfl
  | @cons s t others later first spelled =>
    have present : s :: others ≠ [] := List.cons_ne_nil s others
    have text := toList_block layout level opening closing present
    have length := length_block layout level opening closing present
    obtain ⟨gap, comma, blank⟩ := separator_blank layout (level + 1)
    refine ⟨⟨'[', _, by simpa using text [], by decide⟩, fun usual fuel rest enough _ => ?_⟩
    obtain ⟨fuel, rfl⟩ : ∃ more, fuel = more + 1 := ⟨fuel - 1, by omega⟩
    have read := items_spelled usual comma blank (newline_blank layout level)
      (List.Forall₂.cons first spelled) present rest fuel (by omega)
    obtain ⟨space, text, skipped, opens⟩ :=
      skip_block layout level opening closing first.opens others rest
    obtain ⟨c, tail, shape, -, bracket, -⟩ := opens
    rw [shape] at skipped read
    rw [text, value, shape]
    simp only [skipped]
    split
    · rename_i same
      exact absurd (List.cons.inj same).1 bracket
    · simp only [bind, Except.bind, read]

/-- Members between braces are read as an object. -/
theorem spells_object (layout : Layout) (level : Nat) (spelled : List.Forall₂ SpellsMember ss ms) :
    Spells (Writer.block layout level Value.openBrace Value.closeBrace ss).toList (.object ms) := by
  have opening : Value.openBrace.toList = ['\x7b'] := by simp [Value.openBrace]
  have closing : Value.closeBrace.toList = ['\x7d'] := by simp [Value.closeBrace]
  cases spelled with
  | nil =>
    have text : (Writer.block layout level Value.openBrace Value.closeBrace []).toList =
        ['\x7b', '\x7d'] := by simp [Writer.block, opening, closing]
    refine ⟨⟨'\x7b', ['\x7d'], text, by decide⟩, fun usual fuel rest enough _ => ?_⟩
    rw [text] at enough ⊢
    obtain ⟨fuel, rfl⟩ := Nat.exists_eq_succ_of_ne_zero
      (Nat.ne_of_gt (Nat.lt_of_lt_of_le (by simp) enough))
    rfl
  | @cons s m others later first spelled =>
    have present : s :: others ≠ [] := List.cons_ne_nil s others
    have text := toList_block layout level opening closing present
    have length := length_block layout level opening closing present
    obtain ⟨gap, comma, blank⟩ := separator_blank layout (level + 1)
    refine ⟨⟨'\x7b', _, by simpa using text [], by decide⟩, fun usual fuel rest enough _ => ?_⟩
    obtain ⟨fuel, rfl⟩ : ∃ more, fuel = more + 1 := ⟨fuel - 1, by omega⟩
    have read := members_spelled usual comma blank (newline_blank layout level)
      (List.Forall₂.cons first spelled) present rest fuel (by omega)
    obtain ⟨space, text, skipped, opens⟩ :=
      skip_block layout level opening closing (opens_member first) others rest
    obtain ⟨c, tail, shape, -, -, brace, -⟩ := opens
    rw [shape] at skipped read
    rw [text, value, shape]
    simp only [skipped]
    split
    · rename_i same
      exact absurd (List.cons.inj same).1 brace
    · simp only [bind, Except.bind, read]

/-! ## Documents -/

/-- A text that spells a tree is read as that tree. -/
theorem read_of_spells {t : Tree} (spells : Spells cs t) (usual : spell.IsUsual) :
    read cs spell = .ok t := by
  have whole := spells.reads usual (steps cs) [] (by simp [steps]) ends_nil
  have first := skip_opens spells.opens
  obtain ⟨c, tail, rfl, -, -, -, mark⟩ := spells.opens
  unfold read
  split
  · rename_i same
    exact absurd (List.cons.inj same).1 mark
  · rw [List.append_nil] at whole
    simp only [first, whole, bind, Except.bind]
    rfl

end LiveDoc.Json.Reader

namespace LiveDoc.Json

open Reader (Spells SpellsMember)

variable {layout : Layout} {level : Nat}

/-! ## What a tree tells -/

namespace Tree

mutual

/-- Whether a tree tells a value that can be written: tuples are arrays, keys are the texts that they
are written as, and a number that is not in canonical form may be another one. -/
def Tells : Value → Tree → Prop
  | .null, t => t = .null
  | .bool b, t => t = .bool b
  | .int n, t => t = .int n ∧ Value.isOversized n = false
  | .float x, t => ∃ y, t = .float y ∧ (x.Canonical → y = x)
  | .text s, t => t = .text s
  | .list xs, t => ∃ ts, t = .array ts ∧ TellAll xs ts
  | .tuple xs, t => ∃ ts, t = .array ts ∧ TellAll xs ts
  | .mapping es, t => ∃ ms, t = .object ms ∧ TellEntries es ms
  | _, _ => False

/-- Whether trees tell the items of a list. -/
def TellAll : List Value → List Tree → Prop
  | [], ts => ts = []
  | x :: xs, ts => ∃ u us, ts = u :: us ∧ Tells x u ∧ TellAll xs us

/-- Whether members tell the entries of a mapping. -/
def TellEntries : List (Value × Value) → List (String × Tree) → Prop
  | [], ms => ms = []
  | (k, v) :: es, ms => ∃ name u others, ms = (name, u) :: others ∧
      Writer.key .compact k = .ok name ∧ Tells v u ∧ TellEntries es others

end

mutual

/-- A tree that tells a JSON document has it as its value and repeats no key. -/
theorem toValue_of_tells : ∀ {v : Value} {t : Tree}, v.IsJson → Tells v t → t.toValue = v ∧ t.Distinct
  | .null, _, _, rfl | .bool _, _, _, rfl | .text _, _, _, rfl => ⟨rfl, trivial⟩
  | .int _, _, _, ⟨rfl, _⟩ => ⟨rfl, trivial⟩
  | .float _, _, canonical, ⟨_, rfl, same⟩ => ⟨by rw [same canonical]; rfl, trivial⟩
  | .list xs, _, json, ⟨ts, rfl, tells⟩ => by
    obtain ⟨same, distinct⟩ := toValues_of_tells json tells
    exact ⟨by rw [toValue, same], distinct⟩
  | .mapping es, _, json, ⟨ms, rfl, tells⟩ => by
    obtain ⟨same, distinct⟩ := toPairs_of_tells json tells
    exact ⟨by rw [toValue_object distinct, same], distinct⟩

theorem toValues_of_tells : ∀ {xs : List Value} {ts : List Tree}, Value.AreJson xs →
    TellAll xs ts → toValues ts = xs ∧ DistinctAll ts
  | [], _, _, rfl => ⟨rfl, trivial⟩
  | x :: xs, _, json, ⟨t, ts, rfl, first, rest⟩ => by
    obtain ⟨same, distinct⟩ := toValue_of_tells json.1 first
    obtain ⟨equal, apart⟩ := toValues_of_tells json.2 rest
    exact ⟨by rw [toValues, same, equal], distinct, apart⟩

theorem toPairs_of_tells : ∀ {es : List (Value × Value)} {ms : List (String × Tree)},
    Value.HoldJson es → TellEntries es ms → toPairs ms = es ∧ DistinctMembers ms
  | [], _, _, rfl => ⟨rfl, trivial⟩
  | (k, v) :: es, _, ⟨⟨key, textual⟩, new, value, json⟩, ⟨name, t, ms, rfl, named, first, rest⟩ => by
    obtain ⟨same, distinct⟩ := toValue_of_tells value first
    obtain ⟨equal, apart⟩ := toPairs_of_tells json rest
    subst textual
    obtain rfl : key = name := Except.ok.inj named
    refine ⟨by rw [toPairs, same, equal], fun m member clash => ?_, distinct, apart⟩
    have entry : (Value.text m.1) ∈ es.map (·.1) := by
      rw [← equal, toPairs_keys]
      exact List.mem_map_of_mem member
    obtain ⟨e, inside, written⟩ := List.mem_map.mp entry
    exact new e inside (by rw [written, clash])

end

end Tree

/-! ## What the writer writes -/

theorem bind_ok {α β ε : Type} {r : Except ε α} {f : α → Except ε β} {b : β}
    (ok : (r >>= f) = .ok b) : ∃ a, r = .ok a ∧ f a = .ok b := by
  cases r with
  | error stop => contradiction
  | ok a => exact ⟨a, rfl, ok⟩

theorem map_ok {α β ε : Type} {r : Except ε α} {f : α → β} {b : β} (ok : r.map f = .ok b) :
    ∃ a, r = .ok a ∧ f a = b := by
  cases r with
  | error stop => contradiction
  | ok a => exact ⟨a, rfl, Except.ok.inj ok⟩

/-- What is written for a number is read as that number if it is in canonical form, and else as some
number. -/
theorem exists_spells_float (x : Binary64) :
    ∃ y, Spells (Writer.float x).toList (.float y) ∧ (x.Canonical → y = x) := by
  cases x with
  | nan => exact ⟨.nan, Reader.spells_constant (by simp [Writer.float, Reader.constants]), fun _ => rfl⟩
  | infinite negative =>
    refine ⟨.infinite negative, ?_, fun _ => rfl⟩
    cases negative <;> exact Reader.spells_constant (by simp [Writer.float, Reader.constants])
  | finite negative m e =>
    by_cases canonical : Binary64.Canonical (.finite negative m e)
    · exact ⟨.finite negative m e,
        Reader.spells_number fun rest => Reader.number_of_float canonical, fun _ => rfl⟩
    · obtain ⟨y, reads⟩ := Reader.exists_float negative m e
      exact ⟨y, Reader.spells_number reads, fun absent => absurd absent canonical⟩

/-- An integer that is written has no more digits than are converted. -/
theorem int_written {n : Int} {s : String} (written : Writer.int n = .ok s) :
    Value.isOversized n = false ∧ toString n = s := by
  unfold Writer.int at written
  cases few : Value.isOversized n with
  | true => simp [few] at written
  | false => exact ⟨rfl, by simpa [few] using written⟩

/-- The layouts differ in how they refuse a key only. -/
theorem key_compact {k : Value} {name : String} (written : Writer.key layout k = .ok name) :
    Writer.key .compact k = .ok name := by
  cases k <;> first | exact written | cases written

mutual

/-- What is written for a value spells a tree that tells it. -/
theorem exists_spelling : ∀ (level : Nat) (v : Value) (s : String),
    Writer.value layout .strict level v = .ok s → ∃ t, Spells s.toList t ∧ Tree.Tells v t
  | _, .null => by
    rintro s ⟨⟩
    exact ⟨.null, Reader.spells_constant (by simp [Reader.constants]), rfl⟩
  | _, .bool b => by
    rintro s ⟨⟩
    refine ⟨.bool b, ?_, rfl⟩
    cases b <;> exact Reader.spells_constant (by simp [Reader.constants])
  | _, .int n => by
    intro s written
    rw [Writer.value] at written
    obtain ⟨few, rfl⟩ := int_written written
    exact ⟨.int n, Reader.spells_number fun rest => Reader.number_of_int few, rfl, few⟩
  | _, .float x => by
    rintro s ⟨⟩
    obtain ⟨y, spells, same⟩ := exists_spells_float x
    exact ⟨.float y, spells, y, rfl, same⟩
  | _, .text s => by
    rintro s ⟨⟩
    exact ⟨.text _, Reader.spells_text _, rfl⟩
  | level, .list xs => by
    intro s written
    obtain ⟨ss, items, written⟩ := bind_ok written
    obtain ⟨ts, spelled, tells⟩ := exists_spellings (level + 1) xs ss items
    obtain rfl := Except.ok.inj written
    exact ⟨.array ts, Reader.spells_array layout level spelled, ts, rfl, tells⟩
  | level, .tuple xs => by
    intro s written
    obtain ⟨ss, items, written⟩ := bind_ok written
    obtain ⟨ts, spelled, tells⟩ := exists_spellings (level + 1) xs ss items
    obtain rfl := Except.ok.inj written
    exact ⟨.array ts, Reader.spells_array layout level spelled, ts, rfl, tells⟩
  | level, .mapping es => by
    intro s written
    obtain ⟨ss, entries, written⟩ := bind_ok written
    obtain ⟨ms, spelled, tells⟩ := exists_member_spellings (level + 1) es ss entries
    obtain rfl := Except.ok.inj written
    exact ⟨.object ms, Reader.spells_object layout level spelled, ms, rfl, tells⟩
  | _, .bytes _ | _, .buffer _ | _, .set _ | _, .date _ | _, .moment _ | _, .clock _ | _, .span _
  | _, .zone _ | _, .routine _ _ | _, .deferred _ _ | _, .record _ _ => nofun

/-- The same for the items of a list. -/
theorem exists_spellings : ∀ (level : Nat) (xs : List Value) (ss : List String),
    Writer.values layout .strict level xs = .ok ss →
      ∃ ts, List.Forall₂ (fun s t => Spells s.toList t) ss ts ∧ Tree.TellAll xs ts
  | _, [] => by
    rintro ss ⟨⟩
    exact ⟨[], .nil, rfl⟩
  | level, x :: xs => by
    intro ss written
    obtain ⟨s, first, written⟩ := bind_ok written
    obtain ⟨ss, rest, written⟩ := bind_ok written
    obtain rfl := Except.ok.inj written
    obtain ⟨t, spells, tells⟩ := exists_spelling level x s first
    obtain ⟨ts, spelled, others⟩ := exists_spellings level xs ss rest
    exact ⟨t :: ts, .cons spells spelled, t, ts, rfl, tells, others⟩

/-- The same for the entries of a mapping. -/
theorem exists_member_spellings : ∀ (level : Nat) (es : List (Value × Value)) (ss : List String),
    Writer.entries layout .strict level es = .ok ss →
      ∃ ms, List.Forall₂ SpellsMember ss ms ∧ Tree.TellEntries es ms
  | _, [] => by
    rintro ss ⟨⟩
    exact ⟨[], .nil, rfl⟩
  | level, (k, v) :: es => by
    intro ss written
    obtain ⟨name, key, written⟩ := bind_ok written
    obtain ⟨s, value, written⟩ := bind_ok written
    obtain ⟨ss, rest, written⟩ := bind_ok written
    obtain rfl := Except.ok.inj written
    obtain ⟨t, spells, tells⟩ := exists_spelling level v s value
    obtain ⟨ms, spelled, others⟩ := exists_member_spellings level es ss rest
    exact ⟨(name, t) :: ms, .cons ⟨s, rfl, spells⟩ spelled, name, t, ms, rfl, key_compact key, tells,
      others⟩

end

/-- What is written for a value is read as a tree that tells it. -/
theorem read_of_write {v : Value} {s : String} (written : write layout .strict v = .ok s) :
    ∃ t, read s.toList = .ok t ∧ Tree.Tells v t := by
  obtain ⟨t, spells, tells⟩ := exists_spelling 0 v s written
  exact ⟨t, Reader.read_of_spells spells Spelling.plain_char, tells⟩

mutual

/-- A JSON document can be written. -/
theorem exists_written : ∀ (level : Nat) (v : Value), v.IsJson →
    ∃ s, Writer.value layout .strict level v = .ok s
  | _, .null, _ | _, .bool _, _ | _, .float _, _ | _, .text _, _ => ⟨_, rfl⟩
  | _, .int n, few => by
    have written : Writer.int n = .ok (toString n) := by
      simp only [Writer.int, show Value.isOversized n = false from few, Bool.false_eq_true, if_false]
    exact ⟨_, written⟩
  | level, .list xs, json => by
    obtain ⟨ss, written⟩ := exists_written_values (level + 1) xs json
    exact ⟨_, by simp only [Writer.value, written]; rfl⟩
  | level, .mapping es, json => by
    obtain ⟨ss, written⟩ := exists_written_entries (level + 1) es json
    exact ⟨_, by simp only [Writer.value, written]; rfl⟩

theorem exists_written_values : ∀ (level : Nat) (xs : List Value), Value.AreJson xs →
    ∃ ss, Writer.values layout .strict level xs = .ok ss
  | _, [], _ => ⟨[], rfl⟩
  | level, x :: xs, json => by
    obtain ⟨s, first⟩ := exists_written level x json.1
    obtain ⟨ss, rest⟩ := exists_written_values level xs json.2
    exact ⟨s :: ss, by simp only [Writer.values, first, rest, bind, Except.bind]⟩

theorem exists_written_entries : ∀ (level : Nat) (es : List (Value × Value)), Value.HoldJson es →
    ∃ ss, Writer.entries layout .strict level es = .ok ss
  | _, [], _ => ⟨[], rfl⟩
  | level, (k, v) :: es, ⟨⟨key, textual⟩, _, value, json⟩ => by
    obtain ⟨s, first⟩ := exists_written level v value
    obtain ⟨ss, rest⟩ := exists_written_entries level es json
    subst textual
    exact ⟨_, by simp only [Writer.entries, Writer.key, first, rest, bind, Except.bind]; rfl⟩

end

/-- A JSON document is written as text in either layout, and read from that text as it was: the text
has a tree of the document in which no object repeats a key. -/
theorem read_write {v : Value} (json : v.IsJson) (layout : Layout) :
    ∃ s t, write layout .strict v = .ok s ∧ read s.toList = .ok t ∧ t.toValue = v ∧ t.Distinct := by
  obtain ⟨s, written⟩ := @exists_written layout 0 v json
  obtain ⟨t, read, tells⟩ := read_of_write written
  exact ⟨s, t, written, read, Tree.toValue_of_tells json tells⟩

end LiveDoc.Json
