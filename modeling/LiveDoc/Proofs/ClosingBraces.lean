import LiveDoc.Proofs.ClosingOrder
import LiveDoc.Proofs.JsonGrammar

/-!
# Closing braces

The objects of a JSON text close at its braces that stand in no string. What the reader has completed
when it ends or stops are exactly the objects that close before that point, in the order of their
braces.
-/

namespace LiveDoc.Json

open Grammar (Chars)
open Reader (Blank isSpace skip)

/-! ## Braces outside of strings -/

/-- Where a character of a text stands: outside of strings, in one, or behind a backslash in one. -/
inductive Region where
  | outside
  | inside
  | escaped

/-- Where the character behind another one stands. -/
def Region.next : Region → Char → Region
  | .outside, c => if c = '"' then .inside else .outside
  | .inside, c => if c = '"' then .outside else if c = '\\' then .escaped else .inside
  | .escaped, _ => .inside

/-- Whether a character closes an object there. -/
def Region.closes : Region → Char → Bool
  | .outside, c => c == '\x7d'
  | _, _ => false

/-- What stands behind each of the braces that close the objects of a text. -/
def behindBraces (region : Region) : List Char → List (List Char)
  | [] => []
  | c :: cs =>
    if region.closes c then cs :: behindBraces (region.next c) cs
    else behindBraces (region.next c) cs

variable {cs rest behind : List Char} {c : Char} {region : Region}

theorem length_behindBraces (inside : behind ∈ behindBraces region cs) :
    behind.length < cs.length := by
  induction cs generalizing region with
  | nil => contradiction
  | cons c cs ih =>
    rw [behindBraces] at inside
    split at inside
    · rcases List.mem_cons.mp inside with rfl | later
      · exact Nat.lt_succ_self _
      · exact (ih later).trans (Nat.lt_succ_self _)
    · exact (ih inside).trans (Nat.lt_succ_self _)

/-- Outside of strings only braces and quotes matter. -/
theorem behindBraces_plain (quote : c ≠ '"') (brace : c ≠ '\x7d') :
    behindBraces .outside (c :: cs) = behindBraces .outside cs := by
  simp [behindBraces, Region.closes, Region.next, quote, brace]

theorem behindBraces_plain_append {text : List Char} (plain : ∀ c ∈ text, c ≠ '"' ∧ c ≠ '\x7d') :
    behindBraces .outside (text ++ cs) = behindBraces .outside cs := by
  induction text with
  | nil => rfl
  | cons c text ih =>
    obtain ⟨quote, brace⟩ := plain c List.mem_cons_self
    rw [List.cons_append, behindBraces_plain quote brace,
      ih fun d inside => plain d (List.mem_cons_of_mem c inside)]

theorem behindBraces_skip (cs : List Char) :
    behindBraces .outside (skip cs) = behindBraces .outside cs := by
  obtain ⟨gap, blank, same⟩ := Grammar.skip_spaces cs
  have plain : ∀ c ∈ gap, c ≠ '"' ∧ c ≠ '\x7d' := by
    intro c inside
    have space := blank c inside
    constructor <;> rintro rfl <;> contradiction
  conv_rhs => rw [same]
  exact (behindBraces_plain_append plain).symm

/-- In strings only quotes and backslashes matter. -/
theorem behindBraces_character (quote : c ≠ '"') (slash : c ≠ '\\') :
    behindBraces .inside (c :: cs) = behindBraces .inside cs := by
  simp [behindBraces, Region.closes, Region.next, quote, slash]

theorem behindBraces_escape (c : Char) (cs : List Char) :
    behindBraces .inside ('\\' :: c :: cs) = behindBraces .inside cs := by
  simp [behindBraces, Region.closes, Region.next]

theorem behindBraces_quote (cs : List Char) :
    behindBraces .inside ('"' :: cs) = behindBraces .outside cs := by
  simp [behindBraces, Region.closes, Region.next]

theorem behindBraces_string (cs : List Char) :
    behindBraces .outside ('"' :: cs) = behindBraces .inside cs := by
  simp [behindBraces, Region.closes, Region.next]

theorem behindBraces_brace (cs : List Char) :
    behindBraces .outside ('\x7d' :: cs) = cs :: behindBraces .outside cs := by
  simp [behindBraces, Region.closes, Region.next]

theorem behindBraces_digits {ds : List Char} (digits : ∀ d ∈ ds, Grammar.isHexDigit d = true) :
    behindBraces .inside (ds ++ cs) = behindBraces .inside cs := by
  induction ds with
  | nil => rfl
  | cons d ds ih =>
    have digit := digits d List.mem_cons_self
    have quote : d ≠ '"' := by
      rintro rfl
      contradiction
    have slash : d ≠ '\\' := by
      rintro rfl
      contradiction
    rw [List.cons_append, behindBraces_character quote slash,
      ih fun c inside => digits c (List.mem_cons_of_mem d inside)]

/-- No object closes in a string. -/
theorem behindBraces_chars (chars : Chars cs rest) :
    behindBraces .inside cs = behindBraces .outside rest := by
  induction chars with
  | close => exact behindBraces_quote _
  | plain quote slash _ _ ih => rw [behindBraces_character quote slash, ih]
  | escape _ _ ih => rw [behindBraces_escape, ih]
  | code _ digits _ ih => rw [behindBraces_escape, behindBraces_digits digits, ih]

/-! ## Strings that break off -/

/-- A stop under a function comes from a stop. -/
theorem map_error {α β : Type} {r : Except Stop α} {f : α → β} {stop : Stop}
    (stopped : r.map f = .error stop) : r = .error stop := by
  cases r with
  | error other => exact congrArg Except.error (Except.error.inj stopped)
  | ok a => contradiction

theorem behindBraces_hex4? {n : Nat} (code : Reader.hex4? cs = some n) :
    behindBraces .inside cs = behindBraces .inside (cs.drop 4) := by
  conv_lhs => rw [← List.take_append_drop 4 cs]
  exact behindBraces_digits (Grammar.digits_of_hex4? code).2

theorem behindBraces_lowHalf {n : Nat} (low : Reader.lowHalf cs = .ok (some n)) :
    behindBraces .inside cs = behindBraces .inside (cs.drop 6) := by
  unfold Reader.lowHalf at low
  split at low
  · split at low
    · exact absurd (Except.ok.inj low) (by simp)
    · split at low
      · rename_i code
        rw [behindBraces_escape, behindBraces_hex4? code]
        rfl
      · contradiction
  · exact absurd (Except.ok.inj low) (by simp)

/-- A stop in a string at a fault of the text, with nothing completed, before any brace behind the
string. -/
structure BreaksOff (opening : Nat) (cs : List Char) (stop : Stop) : Prop where
  closed : stop.closed = []
  fault : ∃ reason, stop.reason = .ok reason
  left : stop.left ≤ opening
  before : ∀ behind ∈ behindBraces .inside cs, behind.length < stop.left

theorem breaksOff_at {opening left : Nat} {reason : Reason} {stop : Stop}
    (stopped : (⟨[], .ok reason, left⟩ : Stop) = stop) (short : left ≤ opening)
    (before : ∀ behind ∈ behindBraces .inside cs, behind.length < left) :
    BreaksOff opening cs stop := by
  subst stopped
  exact ⟨rfl, ⟨reason, rfl⟩, short, before⟩

theorem BreaksOff.of_eq {opening : Nat} {others : List Char} {stop : Stop}
    (breaks : BreaksOff opening others stop)
    (same : behindBraces .inside cs = behindBraces .inside others) : BreaksOff opening cs stop :=
  { breaks with before := same ▸ breaks.before }

/-- A malformed second half of a surrogate pair begins like a code. -/
theorem code_of_broken {u : Unit} (broken : Reader.lowHalf cs = .error u) :
    ∃ later, cs = '\\' :: 'u' :: later := by
  unfold Reader.lowHalf at broken
  split at broken
  · exact ⟨_, rfl⟩
  · contradiction

/-- Where the reader of a string stops, it breaks off. -/
theorem breaksOff_of_string {opening fuel : Nat} {stop : Stop} (below : cs.length < opening)
    (stopped : Reader.string opening fuel cs = .error stop) : BreaksOff opening cs stop := by
  have here (others : List Char) (behind : List Char)
      (inside : behind ∈ behindBraces .inside ('\\' :: 'u' :: others)) :
      behind.length < ('u' :: others).length := by
    rw [behindBraces_escape] at inside
    exact (length_behindBraces inside).trans (Nat.lt_succ_self _)
  fun_induction Reader.string opening fuel cs with
  | case1 | case2 | case4 =>
    exact breaksOff_at (Except.error.inj stopped) le_rfl fun behind inside =>
      (length_behindBraces inside).trans below
  | case3 => contradiction
  | case5 | case6 =>
    exact breaksOff_at (Except.error.inj stopped) (Nat.le_of_succ_le below.le) (here _)
  | case7 fuel cs _ n code after _ _ broken =>
    obtain ⟨later, second⟩ := code_of_broken broken
    have short : after.length ≤ cs.length := (cs.drop_suffix 4).length_le
    rw [second] at stopped
    refine breaksOff_at (Except.error.inj stopped) ?_ ?_
    · rw [second] at short
      simp at short below ⊢
      omega
    · rw [behindBraces_escape, behindBraces_hex4? code]
      change ∀ behind ∈ behindBraces .inside after, _
      rw [second]
      exact here later
  | case8 fuel cs _ n code after _ m low =>
    rename_i ih
    have short : after.length ≤ cs.length := (cs.drop_suffix 4).length_le
    refine (ih ?_ (map_error stopped)).of_eq ?_
    · simp at short below ⊢
      omega
    · rw [behindBraces_escape, behindBraces_hex4? code, ← behindBraces_lowHalf low]
  | case9 fuel cs _ n code after | case10 fuel cs _ n code after | case11 fuel cs _ n code after =>
    rename_i ih
    have short : after.length ≤ cs.length := (cs.drop_suffix 4).length_le
    refine (ih ?_ (map_error stopped)).of_eq ?_
    · simp at short below ⊢
      omega
    · rw [behindBraces_escape, behindBraces_hex4? code]
  | case12 fuel c cs letter d short _ ih =>
    refine (ih ?_ (map_error stopped)).of_eq (behindBraces_escape _ _)
    simp only [List.length_cons] at below
    omega
  | case13 fuel c cs letter none =>
    exact breaksOff_at (Except.error.inj stopped) below.le fun behind inside =>
      length_behindBraces inside
  | case14 fuel c cs quote slash control =>
    exact breaksOff_at (Except.error.inj stopped) below.le fun behind inside =>
      length_behindBraces inside
  | case15 fuel c cs quote slash _ ih =>
    exact (ih (Nat.lt_of_succ_lt below) (map_error stopped)).of_eq
      (behindBraces_character quote slash)

/-! ## What the reader has passed -/

variable {spell : Spelling}

/-- Somewhere in a text an object with these members is read, and this is what stands behind it. -/
def Closes (spell : Spelling) (cs behind : List Char) (ms : Members) : Prop :=
  ∃ whole fuel, whole <:+ cs ∧ Reader.value spell fuel whole = .ok (.object ms, behind)

theorem Closes.of_suffix {others : List Char} {ms : Members} (closes : Closes spell others behind ms)
    (suffix : others <:+ cs) : Closes spell cs behind ms := by
  obtain ⟨whole, fuel, inside, read⟩ := closes
  exact ⟨whole, fuel, inside.trans suffix, read⟩

theorem forall_closes_of_suffix {others : List Char} {braces : List (List Char)}
    {objects : List Members} (closes : List.Forall₂ (Closes spell others) braces objects)
    (suffix : others <:+ cs) : List.Forall₂ (Closes spell cs) braces objects :=
  closes.imp fun _ _ one => one.of_suffix suffix

/-- From one place in a text to another one, these objects close. -/
structure Passes (spell : Spelling) (cs rest : List Char) (objects : List Members) : Prop where
  suffix : rest <:+ cs
  braces : ∃ braces, behindBraces .outside cs = braces ++ behindBraces .outside rest ∧
    List.Forall₂ (Closes spell cs) braces objects ∧ ∀ behind ∈ braces, rest.length ≤ behind.length

/-- Where no brace stands, no object closes. -/
theorem passes_nil (suffix : rest <:+ cs)
    (same : behindBraces .outside cs = behindBraces .outside rest) : Passes spell cs rest [] :=
  ⟨suffix, [], same, .nil, fun _ inside => absurd inside List.not_mem_nil⟩

theorem Passes.trans {middle : List Char} {objects later : List Members}
    (first : Passes spell cs middle objects) (second : Passes spell middle rest later) :
    Passes spell cs rest (objects ++ later) := by
  obtain ⟨braces, split, closes, within⟩ := first.braces
  obtain ⟨others, otherSplit, otherCloses, otherWithin⟩ := second.braces
  refine ⟨second.suffix.trans first.suffix, braces ++ others, ?_, ?_, fun behind inside => ?_⟩
  · rw [split, otherSplit, List.append_assoc]
  · exact List.rel_append closes (forall_closes_of_suffix otherCloses first.suffix)
  · rcases List.mem_append.mp inside with early | late
    · exact second.suffix.length_le.trans (within behind early)
    · exact otherWithin behind late

/-- Spaces are passed. -/
theorem Passes.skip {objects : List Members} (passes : Passes spell cs rest objects) :
    Passes spell cs (skip rest) objects := by
  have spaces : Passes spell rest (Reader.skip rest) [] :=
    passes_nil (List.dropWhile_suffix _) (behindBraces_skip rest).symm
  exact List.append_nil objects ▸ passes.trans spaces

/-- Marks other than quotes and closing braces are passed. -/
theorem Passes.mark {objects : List Members} (passes : Passes spell cs (c :: rest) objects)
    (quote : c ≠ '"') (brace : c ≠ '\x7d') : Passes spell cs rest objects := by
  have mark : Passes spell (c :: rest) rest [] :=
    passes_nil (List.suffix_cons c rest) (behindBraces_plain quote brace)
  exact List.append_nil objects ▸ passes.trans mark

/-- An object closes at its brace. -/
theorem Passes.close {objects : List Members} {ms : Members}
    (passes : Passes spell cs ('\x7d' :: rest) objects) (closes : Closes spell cs rest ms) :
    Passes spell cs rest (objects ++ [ms]) := by
  obtain ⟨braces, split, inner, within⟩ := passes.braces
  refine ⟨(List.suffix_cons _ _).trans passes.suffix, braces ++ [rest], ?_, ?_, fun behind inside => ?_⟩
  · rw [split, behindBraces_brace, List.append_assoc]
    rfl
  · exact List.rel_append inner (.cons closes .nil)
  · rcases List.mem_append.mp inside with early | late
    · exact Nat.le_of_succ_le (within behind early)
    · rw [List.mem_singleton.mp late]

/-! ## Where the reader stops -/

/-- An integer with more digits than are converted stands where so many characters are left, and
neither a fraction nor an exponent behind it. -/
def HoldsOversized (cs : List Char) (left digits : Nat) : Prop :=
  ∃ negative whole rest, Reader.signText negative whole ++ rest <:+ cs ∧
    (Reader.signText negative whole ++ rest).length = left ∧ Grammar.IsWhole whole ∧
    whole.length = digits ∧ Value.maxDigits < digits ∧ (Reader.fractionPart rest).1 = [] ∧
    (Reader.exponentPart (Reader.fractionPart rest).2).1 = none

/-- The objects that the reader has completed at a stop are those that close before it. -/
structure Halts (spell : Spelling) (cs : List Char) (stop : Stop) : Prop where
  left : stop.left ≤ cs.length
  braces : ∃ braces others, behindBraces .outside cs = braces ++ others ∧
    List.Forall₂ (Closes spell cs) braces (Tree.objectsAll stop.closed) ∧
    (∀ behind ∈ braces, stop.left ≤ behind.length) ∧
    ∀ behind ∈ others, behind.length < stop.left
  oversized : ∀ digits, stop.reason = .error digits → HoldsOversized cs stop.left digits

/-- A stop before anything is completed. -/
theorem halts_of_fault {stop : Stop} (closed : stop.closed = [])
    (fault : ∃ reason, stop.reason = .ok reason) (left : stop.left ≤ cs.length)
    (before : ∀ behind ∈ behindBraces .outside cs, behind.length < stop.left) : Halts spell cs stop := by
  refine ⟨left, ⟨[], _, rfl, ?_, fun _ inside => absurd inside List.not_mem_nil, before⟩, ?_⟩
  · rw [closed]
    exact .nil
  · obtain ⟨reason, same⟩ := fault
    intro digits other
    rw [same] at other
    contradiction

/-- A stop at the head of a text. -/
theorem halts_here {reason : Reason} {stop : Stop}
    (stopped : (⟨[], .ok reason, cs.length⟩ : Stop) = stop) : Halts spell cs stop := by
  subst stopped
  exact halts_of_fault rfl ⟨reason, rfl⟩ le_rfl fun _ inside => length_behindBraces inside

theorem halts_string {stop : Stop} (breaks : BreaksOff (cs.length + 1) cs stop) :
    Halts spell ('"' :: cs) stop :=
  halts_of_fault breaks.closed breaks.fault breaks.left (behindBraces_string cs ▸ breaks.before)

/-- A stop behind a place up to which objects have closed. -/
theorem Passes.halts {stop : Stop} {trees : List Tree}
    (passes : Passes spell cs rest (Tree.objectsAll trees)) (halts : Halts spell rest stop) :
    Halts spell cs { stop with closed := trees ++ stop.closed } := by
  obtain ⟨braces, split, closes, within⟩ := passes.braces
  obtain ⟨left, ⟨others, more, otherSplit, otherCloses, otherWithin, before⟩, oversized⟩ := halts
  refine ⟨left.trans passes.suffix.length_le, ⟨braces ++ others, more, ?_, ?_, ?_, before⟩, ?_⟩
  · rw [split, otherSplit, List.append_assoc]
  · rw [Tree.objectsAll_append]
    exact List.rel_append closes (forall_closes_of_suffix otherCloses passes.suffix)
  · intro behind inside
    rcases List.mem_append.mp inside with early | late
    · exact left.trans (within behind early)
    · exact otherWithin behind late
  · intro digits stopped
    obtain ⟨negative, whole, tail, suffix, facts⟩ := oversized digits stopped
    exact ⟨negative, whole, tail, suffix.trans passes.suffix, facts⟩

/-- A stop behind a place up to which nothing has closed. -/
theorem Passes.halts_first {stop : Stop} (passes : Passes spell cs rest [])
    (halts : Halts spell rest stop) : Halts spell cs stop := by
  have none : Passes spell cs rest (Tree.objectsAll []) := passes
  exact none.halts halts

/-! ## The reader -/

theorem suffix_of_chars (chars : Chars cs rest) : rest <:+ cs := by
  induction chars with
  | close => exact List.suffix_cons _ _
  | plain _ _ _ _ ih => exact ih.trans (List.suffix_cons _ _)
  | escape _ _ ih => exact ih.trans ((List.suffix_cons _ _).trans (List.suffix_cons _ _))
  | @code ds _ _ _ _ _ ih =>
    exact ih.trans ((List.suffix_append ds _).trans
      ((List.suffix_cons _ _).trans (List.suffix_cons _ _)))

/-- What the reader did with a text: it has passed the objects of its result, or stopped. -/
def Accounts {α : Type} (spell : Spelling) (cs : List Char) (ended : List Char → List Char)
    (objects : α → List Members) :
    Except Stop (α × List Char) → Prop
  | .ok r => Passes spell cs (ended r.2) (objects r.1)
  | .error stop => Halts spell cs stop

/-- The reader accounts for all objects with some fuel. Members end at the brace behind them. -/
structure Accounted (spell : Spelling) (fuel : Nat) : Prop where
  value : ∀ cs, Accounts spell cs id Tree.objects (Reader.value spell fuel cs)
  items : ∀ cs, Accounts spell cs id Tree.objectsAll (Reader.items spell fuel cs)
  members : ∀ cs, Accounts spell cs ('\x7d' :: ·) Tree.objectsOfMembers (Reader.members spell fuel cs)

theorem passes_refl (cs : List Char) : Passes spell cs cs [] := passes_nil List.suffix_rfl rfl

/-- A string is passed, and no object closes in it. -/
theorem passes_string {opening fuel : Nat} {r : List CodePoint × List Char}
    (read : Reader.string opening fuel cs = .ok r) : Passes spell ('"' :: cs) r.2 [] := by
  have chars := Grammar.chars_of_string read
  refine passes_nil ((suffix_of_chars chars).trans (List.suffix_cons _ _)) ?_
  rw [behindBraces_string, behindBraces_chars chars]

theorem accounts_items {fuel : Nat} (accounted : Accounted spell fuel) (cs : List Char) :
    Accounts spell cs id Tree.objectsAll (Reader.items spell (fuel + 1) cs) := by
  have first := accounted.value cs
  unfold Reader.items
  cases item : Reader.value spell fuel cs with
  | error stop =>
    rw [item] at first
    exact first
  | ok r =>
    obtain ⟨t, rest⟩ := r
    rw [item] at first
    have passes : Passes spell cs (skip rest) (Tree.objectsAll [t]) :=
      (Tree.objectsAll_singleton t).symm ▸ Passes.skip first
    dsimp only [bind, Except.bind]
    split
    · rename_i after close
      rw [close] at passes
      exact passes.mark (by decide) (by decide)
    · rename_i gap comma
      rw [comma] at passes
      have later := (passes.mark (by decide) (by decide)).skip
      have others := accounted.items (skip gap)
      cases more : Reader.items spell fuel (skip gap) with
      | error stop =>
        rw [more] at others
        exact later.halts others
      | ok r =>
        rw [more] at others
        have all : Passes spell cs r.2 (Tree.objectsAll ([t] ++ r.1)) := by
          rw [Tree.objectsAll_append]
          exact later.trans others
        exact all
    · exact passes.halts (halts_here rfl)

theorem accounts_members {fuel : Nat} (accounted : Accounted spell fuel) (cs : List Char) :
    Accounts spell cs ('\x7d' :: ·) Tree.objectsOfMembers (Reader.members spell (fuel + 1) cs) := by
  unfold Reader.members
  split
  · rename_i inner
    cases string : Reader.string ('"' :: inner).length inner.length inner with
    | error stop => exact halts_string (breaksOff_of_string (Nat.lt_succ_self _) string)
    | ok r =>
      obtain ⟨k, behind⟩ := r
      have named : Passes spell ('"' :: inner) (skip behind) [] := (passes_string string).skip
      dsimp only [bind, Except.bind]
      split
      · rename_i before colon
        rw [colon] at named
        have start := (named.mark (by decide) (by decide)).skip
        have first := accounted.value (skip before)
        cases item : Reader.value spell fuel (skip before) with
        | error stop =>
          rw [item] at first
          exact start.halts_first first
        | ok r =>
          obtain ⟨t, rest⟩ := r
          rw [item] at first
          have passes : Passes spell ('"' :: inner) (skip rest) t.objects := (start.trans first).skip
          have all : Passes spell ('"' :: inner) (skip rest) (Tree.objectsAll [t]) :=
            (Tree.objectsAll_singleton t).symm ▸ passes
          dsimp only
          split
          · rename_i after close
            rw [close] at all
            exact all
          · rename_i gap comma
            rw [comma] at passes all
            have others := accounted.members (skip gap)
            cases more : Reader.members spell fuel (skip gap) with
            | error stop =>
              rw [more] at others
              exact ((all.mark (by decide) (by decide)).skip).halts others
            | ok r =>
              rw [more] at others
              exact ((passes.mark (by decide) (by decide)).skip).trans others
          · exact all.halts (halts_here rfl)
      · exact named.halts_first (halts_here rfl)
  · exact halts_here rfl

/-- An object closes at the brace behind its members, and its own objects before that. -/
theorem accounts_object {fuel : Nat} (accounted : Accounted spell fuel) (inner : List Char) :
    Accounts spell ('\x7b' :: inner) id Tree.objects
      (Reader.value spell (fuel + 1) ('\x7b' :: inner)) := by
  have opening : Passes spell ('\x7b' :: inner) (skip inner) [] :=
    ((passes_refl _).mark (by decide) (by decide)).skip
  have members := accounted.members (skip inner)
  cases read : Reader.value spell (fuel + 1) ('\x7b' :: inner) with
  | error stop =>
    simp only [Reader.value] at read
    split at read
    · contradiction
    · cases ended : Reader.members spell fuel (skip inner) with
      | error other =>
        rw [ended] at read members
        obtain rfl := Except.error.inj read
        exact opening.halts_first members
      | ok r =>
        rw [ended] at read
        contradiction
  | ok r =>
    obtain ⟨t, rest⟩ := r
    have whole := read
    simp only [Reader.value] at read
    split at read
    · rename_i after close
      obtain ⟨rfl, rfl⟩ := Prod.mk.inj (Except.ok.inj read)
      rw [close] at opening
      exact opening.close ⟨_, _, List.suffix_rfl, whole⟩
    · obtain ⟨⟨ms, after⟩, ended, last⟩ := bind_ok read
      obtain ⟨rfl, rfl⟩ := Prod.mk.inj (Except.ok.inj last)
      rw [ended] at members
      have passes : Passes spell ('\x7b' :: inner) ('\x7d' :: after) (Tree.objectsOfMembers ms) :=
        opening.trans members
      exact passes.close ⟨_, _, List.suffix_rfl, whole⟩

/-- Whether a character may stand in a number. -/
def isNumeric (c : Char) : Bool :=
  Text.isAsciiDigit c || c == '-' || c == '+' || c == '.' || c == 'e' || c == 'E'

theorem isNumeric_of_digit {ds : List Char} (digits : ∀ c ∈ ds, Text.isAsciiDigit c = true) :
    ∀ c ∈ ds, isNumeric c = true := by
  intro c inside
  simp [isNumeric, digits c inside]

theorem isNumeric_fraction {fraction : List Char} (fractional : Grammar.IsFraction fraction) :
    ∀ c ∈ fraction, isNumeric c = true := by
  rcases fractional with rfl | ⟨ds, rfl, digits⟩
  · exact fun c inside => absurd inside List.not_mem_nil
  · intro c inside
    rcases List.mem_cons.mp inside with rfl | later
    · rfl
    · exact isNumeric_of_digit digits.digit c later

theorem isNumeric_exponent {exponent : List Char} (marked : Grammar.IsExponent exponent) :
    ∀ c ∈ exponent, isNumeric c = true := by
  rcases marked with rfl | ⟨mark, sign, ds, rfl, marks, signs, digits⟩
  · exact fun c inside => absurd inside List.not_mem_nil
  · intro c inside
    rcases List.mem_cons.mp inside with rfl | later
    · rcases marks with rfl | rfl <;> rfl
    · rcases List.mem_append.mp later with signed | digit
      · rcases signs with rfl | rfl | rfl
        · exact absurd signed List.not_mem_nil
        · exact List.mem_singleton.mp signed ▸ rfl
        · exact List.mem_singleton.mp signed ▸ rfl
      · exact isNumeric_of_digit digits.digit c digit

theorem isNumeric_of_number {fits : Nat → Prop} (number : Grammar.IsNumber fits cs) :
    ∀ c ∈ cs, isNumeric c = true := by
  cases number with
  | integer negative proper =>
    exact Reader.forall_signText negative (isNumeric_of_digit proper.digit) rfl
  | decimal negative proper fractional marked =>
    refine Reader.forall_signText negative (fun c inside => ?_) rfl
    rcases List.mem_append.mp inside with digit | later
    · exact isNumeric_of_digit proper.digit c digit
    · rcases List.mem_append.mp later with fraction | exponent
      · exact isNumeric_fraction fractional c fraction
      · exact isNumeric_exponent marked c exponent

/-- A number is no object. -/
theorem objects_of_number {t : Tree} (read : Reader.number cs = .ok (t, rest)) : t.objects = [] := by
  unfold Reader.number at read
  dsimp only at read
  repeat' split at read
  all_goals first | contradiction | exact (Prod.mk.inj (Except.ok.inj read)).1 ▸ rfl

/-- In a number there is neither a quote nor a brace. -/
theorem passes_number {t : Tree} (read : Reader.number cs = .ok (t, rest)) :
    Passes spell cs rest t.objects := by
  rw [objects_of_number read]
  obtain ⟨text, rfl, number, -⟩ := Grammar.number_of_read read
  refine passes_nil (List.suffix_append text rest) (behindBraces_plain_append fun c inside => ?_)
  have numeric := isNumeric_of_number number c inside
  constructor <;> rintro rfl <;> contradiction

/-- Where a number begins, the reader stops for want of one, or at an integer that is too long. -/
theorem halts_number {stop : Stop} (stopped : Reader.number cs = .error stop) : Halts spell cs stop := by
  unfold Reader.number at stopped
  split at stopped
  rename_i negative body parts
  have signed : cs = Reader.signText negative body := by
    split at parts
    · obtain ⟨rfl, rfl⟩ := Prod.mk.inj parts
      rfl
    · obtain ⟨rfl, rfl⟩ := Prod.mk.inj parts
      rfl
  split at stopped
  · exact halts_here (Except.error.inj stopped)
  · rename_i whole rest found
    obtain ⟨rfl, proper⟩ := Grammar.whole_of_integerPart? found
    dsimp only at stopped
    split at stopped
    · rename_i integer
      simp only [Bool.and_eq_true, List.isEmpty_iff, Option.isNone_iff_eq_none] at integer
      split at stopped
      · rename_i many
        obtain rfl := Except.error.inj stopped
        refine ⟨le_rfl, ⟨[], _, rfl, .nil, ?_, fun _ inside => length_behindBraces inside⟩, ?_⟩
        · exact fun _ inside => absurd inside List.not_mem_nil
        · intro digits same
          obtain rfl := Except.error.inj same
          have text : Reader.signText negative whole ++ rest = cs := by
            rw [Reader.signText_append, signed]
          exact ⟨negative, whole, rest, text ▸ List.suffix_rfl, congrArg List.length text, proper,
            rfl, many, integer⟩
      · contradiction
    · contradiction

/-- In a word there is neither a quote nor a brace, and it stands for no object. -/
theorem constants_plain :
    (Reader.constants.all fun k =>
      k.1.all (fun c => c != '"' && c != '\x7d') && k.2.objects.isEmpty) = true := by
  decide +kernel

theorem passes_constant {t : Tree} (read : Reader.constant? cs = some (t, rest)) :
    Passes spell cs rest t.objects := by
  obtain ⟨⟨word, u⟩, constant, taken⟩ := List.exists_of_findSome?_eq_some read
  obtain ⟨left, stripped, same⟩ := Option.map_eq_some_iff.mp taken
  obtain ⟨rfl, rfl⟩ := Prod.mk.inj same
  obtain rfl := Grammar.eq_append_of_stripLeading? stripped
  have plain := List.all_eq_true.mp constants_plain _ constant
  simp only [Bool.and_eq_true, List.all_eq_true, bne_iff_ne, List.isEmpty_iff] at plain
  rw [plain.2]
  exact passes_nil (List.suffix_append _ _) (behindBraces_plain_append plain.1)

theorem accounts_value {fuel : Nat} (accounted : Accounted spell fuel) (cs : List Char) :
    Accounts spell cs id Tree.objects (Reader.value spell (fuel + 1) cs) := by
  by_cases opens : ∃ inner, cs = '\x7b' :: inner
  · obtain ⟨inner, rfl⟩ := opens
    exact accounts_object accounted inner
  unfold Reader.value
  split
  · rename_i inner
    cases string : Reader.string ('"' :: inner).length inner.length inner with
    | error stop => exact halts_string (breaksOff_of_string (Nat.lt_succ_self _) string)
    | ok r => exact passes_string string
  · rename_i inner
    have opening : Passes spell ('[' :: inner) (skip inner) [] :=
      ((passes_refl _).mark (by decide) (by decide)).skip
    split
    · rename_i after close
      rw [close] at opening
      exact opening.mark (by decide) (by decide)
    · have items := accounted.items (skip inner)
      cases ended : Reader.items spell fuel (skip inner) with
      | error stop =>
        rw [ended] at items
        exact opening.halts_first items
      | ok r =>
        rw [ended] at items
        exact opening.trans items
  · exact absurd ⟨_, rfl⟩ opens
  · split
    · rename_i constant
      exact passes_constant constant
    · cases number : Reader.number cs with
      | error stop => exact halts_number number
      | ok r => exact passes_number number

/-- The reader accounts for all objects, whatever the fuel. -/
theorem accounted (spell : Spelling) (fuel : Nat) : Accounted spell fuel := by
  induction fuel with
  | zero => exact ⟨fun _ => halts_here rfl, fun _ => halts_here rfl, fun _ => halts_here rfl⟩
  | succ fuel ih => exact ⟨accounts_value ih, accounts_items ih, accounts_members ih⟩

/-! ## Whole texts -/

/-- The objects of a text that is read close at its braces. -/
theorem closes_of_read {t : Tree} (whole : read cs spell = .ok t) :
    List.Forall₂ (Closes spell cs) (behindBraces .outside cs) t.objects := by
  unfold read at whole
  split at whole
  · contradiction
  · obtain ⟨⟨u, after⟩, value, ended⟩ := bind_ok whole
    have passes := (accounted spell (Reader.steps cs)).value (skip cs)
    rw [value] at passes
    have all : Passes spell cs (skip after) u.objects := ((passes_refl cs).skip.trans passes).skip
    dsimp only at ended
    split at ended
    · rename_i close
      obtain rfl := Except.ok.inj ended
      rw [close] at all
      obtain ⟨braces, split, closes, -⟩ := all.braces
      rw [split]
      exact (List.append_nil braces).symm ▸ closes
    · contradiction

/-- Where the reading of a text stops, the objects that close before that are complete. -/
theorem halts_of_read {stop : Stop} (stopped : read cs spell = .error stop) : Halts spell cs stop := by
  unfold read at stopped
  split at stopped
  · exact halts_here (Except.error.inj stopped)
  · have account := (accounted spell (Reader.steps cs)).value (skip cs)
    cases value : Reader.value spell (Reader.steps cs) (skip cs) with
    | error other =>
      rw [value] at account stopped
      obtain rfl := Except.error.inj stopped
      exact (passes_refl cs).skip.halts_first account
    | ok r =>
      obtain ⟨t, after⟩ := r
      rw [value] at account stopped
      have all : Passes spell cs (skip after) (Tree.objectsAll [t]) :=
        (Tree.objectsAll_singleton t).symm ▸ ((passes_refl cs).skip.trans account).skip
      dsimp only [bind, Except.bind] at stopped
      split at stopped
      · contradiction
      · obtain rfl := Except.error.inj stopped
        exact all.halts (halts_here rfl)

/-- The braces before a stop are those behind which at least as many characters are left. -/
theorem Halts.closes {stop : Stop} (halts : Halts spell cs stop) :
    List.Forall₂ (Closes spell cs)
      ((behindBraces .outside cs).filter fun behind => stop.left ≤ behind.length)
      (Tree.objectsAll stop.closed) := by
  obtain ⟨braces, others, split, closes, early, late⟩ := halts.braces
  have kept : (braces.filter fun behind => stop.left ≤ behind.length) = braces :=
    List.filter_eq_self.mpr fun behind inside => decide_eq_true (early behind inside)
  have dropped : (others.filter fun behind => stop.left ≤ behind.length) = [] :=
    List.filter_eq_nil_iff.mpr fun behind inside => by
      have := late behind inside
      simpa using this
  rwa [split, List.filter_append, kept, dropped, List.append_nil]

end LiveDoc.Json
