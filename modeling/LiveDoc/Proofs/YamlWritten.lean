import LiveDoc.Proofs.YamlBlockEvents
import LiveDoc.Proofs.YamlLines

/-!
# Tokens of written nodes

What is written for a node in block style is read as a document of its shape. Its texts are those of the
node where no guard of a space slips, and a key without a mark is read if it is not too long.
-/

namespace LiveDoc.Yaml

/-! ## Nodes without tags -/

namespace Node

mutual

/-- Whether a node is written without tags: its scalars show their types, its collections are sequences
and mappings, and its keys are strings. -/
def Shown : Node → Prop
  | .scalar t s _ => IsShown t s
  | .sequence t ns _ => t = Schema.tag "seq" ∧ ShownItems ns
  | .mapping t es _ => t = Schema.tag "map" ∧ ShownEntries es

/-- Whether this holds of items. -/
def ShownItems : List Node → Prop
  | [] => True
  | n :: ns => n.Shown ∧ ShownItems ns

/-- Whether this holds of entries. -/
def ShownEntries : List (Node × Node) → Prop
  | [] => True
  | (k, v) :: es => (∃ s mark, k = .scalar (Schema.tag "str") s mark) ∧ v.Shown ∧ ShownEntries es

end

/-- The margin of a value behind a key without a mark: a sequence is not indented there. -/
def looseMargin (margin : Nat) : Node → Nat
  | .sequence .. => margin
  | _ => margin + 2

/-- The margin of the value of an entry. -/
def valueMargin (margin : Nat) (k v : Node) : Nat :=
  if Writer.isSimpleKey k then v.looseMargin margin else margin + 2

/-- The margin of a node that is a whole document: only a scalar is indented. -/
def rootMargin : Node → Nat
  | .scalar .. => 2
  | _ => 0

theorem rootMargin_le (margin : Nat) (n : Node) : n.rootMargin ≤ margin + 2 := by
  cases n <;> simp [rootMargin]

/-- What a reader makes of a key. -/
def blockKey (margin : Nat) (k : Node) : BlockKey :=
  match k with
  | .scalar t s _ =>
    if Writer.isSimpleKey k then ⟨s, isPlain t s, false⟩
    else ⟨String.ofList (seenText (margin + 2) t s), isPlain t s, true⟩
  | _ => ⟨"", false, true⟩

mutual

/-- What a reader makes of a node that is written at a margin. -/
def block (margin : Nat) : Node → Block
  | .scalar t s _ => .scalar (String.ofList (seenText margin t s)) (isPlain t s)
  | .sequence _ ns _ => .sequence (blockItems margin ns)
  | .mapping _ es _ => .mapping (blockEntries margin es)

/-- What it makes of items. -/
def blockItems (margin : Nat) : List Node → List Block
  | [] => []
  | n :: ns => n.block (margin + 2) :: blockItems margin ns

/-- What it makes of entries. -/
def blockEntries (margin : Nat) : List (Node × Node) → List (BlockKey × Block)
  | [] => []
  | (k, v) :: es => (blockKey margin k, v.block (valueMargin margin k v)) :: blockEntries margin es

end

/-- Whether a key without a mark is near enough to its colon. -/
def keyInReach (margin : Nat) (k : Node) : Bool :=
  !Writer.isSimpleKey k || decide ((Writer.keyLine margin k).length ≤ Progress.maxKeySpan)

mutual

/-- Whether this holds of all keys in a node. -/
def inReach (margin : Nat) : Node → Bool
  | .scalar .. => true
  | .sequence _ ns _ => itemsInReach margin ns
  | .mapping _ es _ => entriesInReach margin es

/-- Whether it holds of all keys in items. -/
def itemsInReach (margin : Nat) : List Node → Bool
  | [] => true
  | n :: ns => n.inReach (margin + 2) && itemsInReach margin ns

/-- Whether it holds of all keys in entries. -/
def entriesInReach (margin : Nat) : List (Node × Node) → Bool
  | [] => true
  | (k, v) :: es =>
    keyInReach margin k && v.inReach (valueMargin margin k v) && entriesInReach margin es

end

variable {k : Node} {s : String} {mark : Mark}

theorem entriesInReach_simple (margin : Nat) (simple : Writer.isSimpleKey k = true) (v : Node)
    (es : List (Node × Node)) : entriesInReach margin ((k, v) :: es) =
      (decide ((Writer.keyLine margin k).length ≤ Progress.maxKeySpan) &&
        v.inReach (v.looseMargin margin) && entriesInReach margin es) := by
  rw [entriesInReach, keyInReach, simple, valueMargin, if_pos simple]
  rfl

theorem entriesInReach_marked (margin : Nat) (marked : Writer.isSimpleKey k = false) (v : Node)
    (es : List (Node × Node)) : entriesInReach margin ((k, v) :: es) =
      (v.inReach (margin + 2) && entriesInReach margin es) := by
  rw [entriesInReach, keyInReach, marked, valueMargin, if_neg (by simp [marked])]
  rfl

theorem tokens_simple (margin : Nat)
    (simple : Writer.isSimpleKey (.scalar (Schema.tag "str") s mark) = true) (v : Node)
    (es : List (Node × Node)) :
    Block.tokensOfEntries (blockEntries margin ((.scalar (Schema.tag "str") s mark, v) :: es)) =
      [.key, .scalar s (isPlain (Schema.tag "str") s), .value] ++
        Block.loosened (v.block (v.looseMargin margin)).tokens ++
        Block.tokensOfEntries (blockEntries margin es) := by
  rw [blockEntries, blockKey, if_pos simple, valueMargin, if_pos simple, Block.tokensOfEntries]
  rfl

theorem tokens_marked (margin : Nat)
    (marked : Writer.isSimpleKey (.scalar (Schema.tag "str") s mark) = false) (v : Node)
    (es : List (Node × Node)) :
    Block.tokensOfEntries (blockEntries margin ((.scalar (Schema.tag "str") s mark, v) :: es)) =
      [.key, .scalar (String.ofList (seenText (margin + 2) (Schema.tag "str") s))
          (isPlain (Schema.tag "str") s), .value] ++
        (v.block (margin + 2)).tokens ++ Block.tokensOfEntries (blockEntries margin es) := by
  rw [blockEntries, blockKey, if_neg (by simp [marked]), valueMargin, if_neg (by simp [marked]),
    Block.tokensOfEntries]
  rfl

end Node

namespace Writer

open Node (Shown ShownItems ShownEntries)

variable {n : Nat} {ls ms : List (List Char)} {w : List Char} {x : Char} {k : Node}

/-! ## Lines in one text -/

/-- Lines below other ones, at a margin. -/
def under (n : Nat) (ls : List (List Char)) : List Char := ls.flatMap fun line => '\n' :: margin n line

/-- The lines of a block in one text. -/
def text (n : Nat) (ls : List (List Char)) : List Char := (labelled none ls).joined n

theorem margin_indent (n : Nat) (line : List Char) : margin n (indent line) = margin (n + 2) line := by
  cases line with
  | nil => rfl
  | cons x line =>
    change List.replicate n ' ' ++ ' ' :: ' ' :: (x :: line) = List.replicate (n + 2) ' ' ++ (x :: line)
    rw [List.replicate_succ', List.replicate_succ']
    simp

theorem under_indent (n : Nat) (ls : List (List Char)) :
    under n (ls.map indent) = under (n + 2) ls := by
  rw [under, under, List.flatMap_map]
  simp only [margin_indent]

theorem text_toList (l : Lines) (ls : List (List Char)) :
    text n (l.toList ++ ls) = l.joined n ++ under n ls := by
  change l.first ++ under n (l.rest ++ ls) = l.first ++ under n l.rest ++ under n ls
  simp [under]

theorem text_behind (indicator : Char) (l : Lines) (ls : List (List Char)) :
    text n (behind indicator l ++ ls) = indicator :: ' ' :: (l.joined (n + 2) ++ under n ls) := by
  change (indicator :: ' ' :: l.first) ++ under n (l.rest.map indent ++ ls) = _
  rw [under, List.flatMap_append, ← under, ← under, under_indent]
  simp [Lines.joined, under]

/-- The first line below other ones stands at the margin. -/
theorem under_text (starts : text n ls = x :: w) (visible : x ≠ '\n') :
    under n ls = '\n' :: (List.replicate n ' ' ++ text n ls) := by
  cases ls with
  | nil => contradiction
  | cons l ls =>
    have some : l ≠ [] := Lines.first_ne_nil (l := ⟨l, ls⟩) starts visible
    change '\n' :: margin n l ++ under n ls = '\n' :: (List.replicate n ' ' ++ (l ++ under n ls))
    simp [margin, some]

/-! ## Lines of nodes -/

theorem label?_tag (name : String) : label? (Schema.tag name) name = none := if_pos rfl

theorem text_items (c : Nat) (m : Node) (ns : List Node) : text c (items c (m :: ns)) =
    '-' :: ' ' :: ((node (c + 2) m).joined (c + 2) ++ under c (items c ns)) := by
  rw [items, text_behind]

/-- The text of an entry whose key has no mark, and of those behind it. -/
theorem text_simple (c : Nat) (simple : isSimpleKey k = true) (v : Node) (es : List (Node × Node)) :
    text c (entries c ((k, v) :: es)) = keyLine c k ++ ':' ::
      ((value c (c + (keyLine c k).length + 1) v).joined c ++ under c (entries c es)) := by
  rw [entries, if_pos simple]
  dsimp only
  rw [text_toList, Lines.joined_lead, List.length_append, List.length_singleton, ← Nat.add_assoc]
  simp

/-- The text of an entry whose key has a mark, and of those behind it. -/
theorem text_marked (c : Nat) (marked : isSimpleKey k = false) (v : Node) (es : List (Node × Node)) :
    text c (entries c ((k, v) :: es)) = '?' :: ' ' :: ((node (c + 2) k).joined (c + 2) ++
      '\n' :: (List.replicate c ' ' ++ ':' :: ' ' ::
        ((node (c + 2) v).joined (c + 2) ++ under c (entries c es)))) := by
  have second := text_behind (n := c) ':' (node (c + 2) v) (entries c es)
  rw [entries, if_neg (by simp [marked]), List.append_assoc, text_behind,
    under_text second (by decide), second]

theorem value_scalar (c after : Nat) (t s : String) (mark : Mark) :
    (value c after (.scalar t s mark)).joined c =
      ' ' :: (scalar false (after + 1) (c + 2) t s).joined (c + 2) := by
  change (' ' :: (scalar false (after + 1) (c + 2) t s).first) ++ under c (List.map indent _) = _
  rw [under_indent]
  rfl

theorem value_items (c after : Nat) (m : Node) (ns : List Node) (mark : Mark) :
    (value c after (.sequence (Schema.tag "seq") (m :: ns) mark)).joined c =
      under c (items c (m :: ns)) := by
  rw [value, label?_tag]
  rfl

theorem value_entries (c after : Nat) (e : Node × Node) (es : List (Node × Node)) (mark : Mark) :
    (value c after (.mapping (Schema.tag "map") (e :: es) mark)).joined c =
      under (c + 2) (entries (c + 2) (e :: es)) := by
  rw [value, label?_tag, ← under_indent]
  rfl

theorem node_items (c : Nat) (m : Node) (ns : List Node) (mark : Mark) :
    (node c (.sequence (Schema.tag "seq") (m :: ns) mark)).joined c = text c (items c (m :: ns)) := by
  rw [node, label?_tag]
  rfl

theorem node_entries (c : Nat) (e : Node × Node) (es : List (Node × Node)) (mark : Mark) :
    (node c (.mapping (Schema.tag "map") (e :: es) mark)).joined c =
      text c (entries c (e :: es)) := by
  rw [node, label?_tag]
  rfl

/-- The text of entries starts a token, as does that of a node. -/
theorem entries_starts (c : Nat) {es : List (Node × Node)} (shown : ShownEntries es)
    (present : es ≠ []) :
    ∃ x w, text c (entries c es) = x :: w ∧ Progress.startsToken x = true := by
  obtain ⟨⟨k, v⟩, es, rfl⟩ := List.exists_cons_of_ne_nil present
  obtain ⟨⟨s, mark, rfl⟩, -, -⟩ := shown
  cases simple : isSimpleKey (.scalar (Schema.tag "str") s mark) with
  | true =>
    obtain ⟨written, -⟩ := written_key simple 0 c
    obtain ⟨x, w, line, starts⟩ := written.starts
    rw [text_simple c simple, line]
    exact ⟨x, _, rfl, starts⟩
  | false =>
    rw [text_marked c simple]
    exact ⟨'?', _, rfl, rfl⟩

theorem entries_ne_nil (c : Nat) {e : Node × Node} {es : List (Node × Node)}
    (shown : ShownEntries (e :: es)) : entries c (e :: es) ≠ [] := by
  obtain ⟨x, w, same, -⟩ := entries_starts c shown (List.cons_ne_nil _ _)
  intro none
  rw [none] at same
  contradiction

theorem items_starts (c : Nat) {ns : List Node} (present : items c ns ≠ []) :
    ∃ x w, text c (items c ns) = x :: w ∧ Progress.startsToken x = true := by
  cases ns with
  | nil => exact absurd rfl present
  | cons m ns => exact ⟨'-', _, text_items c m ns, rfl⟩

theorem node_starts (c : Nat) : ∀ {m : Node}, m.Shown →
    ∃ x w, (node c m).joined c = x :: w ∧ Progress.startsToken x = true
  | .scalar _ _ _, shown => (written_scalar shown c fun _ => Nat.le_succ c).starts
  | .sequence _ [] _, ⟨rfl, _⟩ => ⟨'[', _, rfl, rfl⟩
  | .sequence _ (m :: ns) mark, ⟨rfl, _⟩ => by
    rw [node_items, text_items]
    exact ⟨'-', _, rfl, rfl⟩
  | .mapping _ [] _, ⟨rfl, _⟩ => ⟨'\x7b', _, rfl, rfl⟩
  | .mapping _ (e :: es) mark, ⟨rfl, shown⟩ => by
    rw [node_entries]
    exact entries_starts c shown (List.cons_ne_nil _ _)

/-- A value behind a key without a mark starts with a blank or on a line of its own. -/
theorem value_starts (c after : Nat) : ∀ {v : Node}, v.Shown →
    ∃ y w, (value c after v).joined c = y :: w ∧ isSpaceOrEnd y = true
  | .scalar t s mark, _ => ⟨' ', _, value_scalar c after t s mark, rfl⟩
  | .sequence _ [] _, ⟨rfl, _⟩ => ⟨' ', _, rfl, rfl⟩
  | .sequence _ (m :: ns) mark, ⟨rfl, _⟩ => ⟨'\n', _, value_items c after m ns mark, rfl⟩
  | .mapping _ [] _, ⟨rfl, _⟩ => ⟨' ', _, rfl, rfl⟩
  | .mapping _ (e :: es) mark, ⟨rfl, shown⟩ => by
    obtain ⟨x, w, same, starts⟩ := entries_starts (c + 2) shown (List.cons_ne_nil _ _)
    refine ⟨'\n', _, (value_entries c after e es mark).trans (under_text same ?_), rfl⟩
    rintro rfl
    contradiction

/-! ## Characters of lines -/

/-- Whether the characters of lines are printable, or breaks. -/
def Tidy (ls : List (List Char)) : Prop := ∀ line ∈ ls, ∀ y ∈ line, IsWritten y

theorem isWritten_blank : IsWritten ' ' := .inl ⟨by decide, by decide⟩

theorem isWritten_colon : IsWritten ':' := .inl ⟨by decide, by decide⟩

theorem tidy_cons (own : ∀ y ∈ w, IsWritten y) (tidy : Tidy ls) : Tidy (w :: ls) :=
  List.forall_mem_cons.mpr ⟨own, tidy⟩

theorem tidy_append (front : Tidy ls) (back : Tidy ms) : Tidy (ls ++ ms) := fun line inside =>
  (List.mem_append.mp inside).elim (front line) (back line)

theorem tidy_indent (tidy : Tidy ls) : Tidy (ls.map indent) := by
  intro line inside
  obtain ⟨line, among, rfl⟩ := List.mem_map.mp inside
  unfold indent
  split
  · nofun
  · exact isWritten_cons isWritten_blank (isWritten_cons isWritten_blank (tidy line among))

theorem tidy_labelled (tidy : Tidy ls) : Tidy (labelled none ls).toList := by
  cases ls with
  | nil => exact tidy_cons nofun nofun
  | cons => exact tidy

variable {l : Lines}

theorem tidy_first (tidy : Tidy l.toList) : ∀ y ∈ l.first, IsWritten y :=
  (List.forall_mem_cons.mp tidy).1

theorem tidy_rest (tidy : Tidy l.toList) : Tidy l.rest := (List.forall_mem_cons.mp tidy).2

theorem tidy_lead (front : ∀ y ∈ w, IsWritten y) (tidy : Tidy l.toList) : Tidy (l.lead w).toList := by
  refine tidy_cons (fun y inside => ?_) (tidy_rest (l := l) tidy)
  exact (List.mem_append.mp inside).elim (front y) (tidy_first tidy y)

theorem tidy_behind {indicator : Char} (printable : IsWritten indicator) (tidy : Tidy l.toList) :
    Tidy (behind indicator l) :=
  tidy_cons (isWritten_cons printable (isWritten_cons isWritten_blank (tidy_first tidy)))
    (tidy_indent (tidy_rest tidy))

theorem tidy_joined (written : ∀ y ∈ l.joined n, IsWritten y) : Tidy l.toList := by
  refine tidy_cons (fun y inside => written y (List.mem_append_left _ inside)) ?_
  intro line among y inside
  refine written y (List.mem_append_right _ (List.mem_flatMap.mpr ⟨line, among, ?_⟩))
  have some : line.isEmpty = false := List.isEmpty_eq_false_iff.mpr (List.ne_nil_of_mem inside)
  rw [margin, some]
  exact List.mem_cons_of_mem _ (List.mem_append_right _ inside)

theorem tidy_brackets : Tidy [squareBrackets] ∧ Tidy [curlyBrackets] := by
  constructor <;>
  · refine tidy_cons ?_ nofun
    simp only [squareBrackets, curlyBrackets, List.forall_mem_cons]
    exact ⟨.inl ⟨by decide, by decide⟩, .inl ⟨by decide, by decide⟩, nofun⟩

theorem tidy_scalar {t s : String} {column margin : Nat} (shown : IsShown t s)
    (reaches : margin ≤ column + 1) : Tidy (scalar false column margin t s).toList :=
  tidy_joined (n := 0) (written_scalar shown 0 fun _ => reaches).chars

mutual

theorem tidy_node (c : Nat) : ∀ {m : Node}, m.Shown → Tidy (node c m).toList
  | .scalar _ _ _, shown => tidy_scalar shown (Nat.le_succ c)
  | .sequence _ [] _, ⟨rfl, _⟩ => tidy_brackets.1
  | .sequence _ (m :: ns) mark, ⟨rfl, shown⟩ => by
    rw [node, label?_tag]
    exact tidy_labelled (tidy_items c shown)
  | .mapping _ [] _, ⟨rfl, _⟩ => tidy_brackets.2
  | .mapping _ (e :: es) mark, ⟨rfl, shown⟩ => by
    rw [node, label?_tag]
    exact tidy_labelled (tidy_entries c shown)

theorem tidy_items (c : Nat) : ∀ {ns : List Node}, ShownItems ns → Tidy (items c ns)
  | [], _ => nofun
  | m :: ns, ⟨own, others⟩ => by
    rw [items]
    exact tidy_append (tidy_behind (.inl ⟨by decide, by decide⟩) (tidy_node (c + 2) own))
      (tidy_items c others)

theorem tidy_value (c after : Nat) (reaches : c ≤ after) : ∀ {v : Node}, v.Shown →
    Tidy (value c after v).toList
  | .scalar t s _, shown => by
    have tidy : Tidy (scalar false (after + 1) (c + 2) t s).toList := tidy_scalar shown (by omega)
    rw [value]
    exact tidy_cons (isWritten_cons isWritten_blank (tidy_first tidy)) (tidy_indent (tidy_rest tidy))
  | .sequence _ [] _, ⟨rfl, _⟩ =>
    tidy_lead (isWritten_cons isWritten_blank nofun) tidy_brackets.1
  | .sequence _ (m :: ns) mark, ⟨rfl, shown⟩ => by
    rw [value, label?_tag]
    exact tidy_cons nofun (tidy_items c shown)
  | .mapping _ [] _, ⟨rfl, _⟩ =>
    tidy_lead (isWritten_cons isWritten_blank nofun) tidy_brackets.2
  | .mapping _ (e :: es) mark, ⟨rfl, shown⟩ => by
    rw [value, label?_tag]
    exact tidy_cons nofun (tidy_indent (tidy_entries (c + 2) shown))

theorem tidy_entries (c : Nat) : ∀ {es : List (Node × Node)}, ShownEntries es → Tidy (entries c es)
  | [], _ => nofun
  | (k, v) :: es, ⟨⟨s, mark, same⟩, own, others⟩ => by
    subst same
    rw [entries]
    refine tidy_append ?_ (tidy_entries c others)
    split
    · rename_i simple
      obtain ⟨written, -⟩ := written_key simple 0 c
      refine tidy_lead (fun y inside => ?_) (tidy_value c _ (Nat.le_add_right c _) own)
      rcases List.mem_append.mp inside with line | colon
      · exact written.chars y line
      · rw [List.mem_singleton.mp colon]
        exact isWritten_colon
    · exact tidy_append
        (tidy_behind (.inl ⟨by decide, by decide⟩) (tidy_scalar (.inl rfl) (Nat.le_succ _)))
        (tidy_behind isWritten_colon (tidy_node (c + 2) own))

end

/-! ## Documents -/

theorem flatMap_lines (present : ls ≠ []) :
    (ls.flatMap fun line => line ++ ['\n']) = text 0 ls ++ ['\n'] := by
  obtain ⟨line, ls, rfl⟩ := List.exists_cons_of_ne_nil present
  change _ = line ++ under 0 ls ++ ['\n']
  rw [List.flatMap_cons]
  induction ls generalizing line with
  | nil => simp [under]
  | cons next ls ih =>
    have margin : margin 0 next = next := by
      cases next <;> rfl
    rw [List.flatMap_cons, ih _ (List.cons_ne_nil _ _)]
    simp [under, margin]

/-- A scalar that is a whole document, with the mark behind it if it is plain. -/
theorem text_document (t s : String) (mark : Mark) : text 0 (document (.scalar t s mark)) ++ ['\n'] =
    (scalar false 0 2 t s).joined 2 ++
      (['\n'] ++ if isPlain t s then ['.', '.', '.', '\n'] else []) := by
  have lines (ls : List (List Char)) : text 0 ((scalar false 0 2 t s).first ::
      ((scalar false 0 2 t s).rest.map indent ++ ls)) =
      (scalar false 0 2 t s).joined 2 ++ under 0 ls := by
    change (scalar false 0 2 t s).first ++ under 0 ((scalar false 0 2 t s).rest.map indent ++ ls) = _
    rw [under, List.flatMap_append, ← under, ← under, under_indent]
    simp [Lines.joined, under]
  rw [document]
  change text 0 (_ :: (_ ++ _)) ++ _ = _
  rw [lines, isPlain]
  cases plain : Style.choose t s false == .plain with
  | true =>
    rw [if_pos (eq_of_beq plain)]
    simp [under, margin]
  | false =>
    rw [if_neg (by simpa using plain)]
    simp [under]

/-- A collection that is a whole document is written as a node. -/
theorem document_collection {m : Node} (margin : m.rootMargin = 0) : document m = (node 0 m).toList := by
  cases m with
  | scalar => exact absurd margin (Nat.succ_ne_zero 1)
  | sequence t ns mark => cases ns <;> rfl
  | mapping => rfl

theorem document_ne_nil (m : Node) : document m ≠ [] := by
  cases m with
  | scalar => nofun
  | sequence t ns mark => cases ns <;> nofun
  | mapping => nofun

theorem tidy_document {m : Node} (shown : m.Shown) : Tidy (document m) := by
  by_cases margin : m.rootMargin = 0
  · rw [document_collection margin]
    exact tidy_node 0 shown
  cases m with
  | scalar t s mark =>
    have tidy : Tidy (scalar false 0 2 t s).toList := tidy_joined (n := 0)
      (written_scalar shown 0 fun wide => absurd wide (by decide)).chars
    refine tidy_append (tidy_cons (tidy_first tidy) (tidy_indent (tidy_rest tidy))) ?_
    split
    · exact tidy_cons (by simp [IsWritten, IsPrintable]) nofun
    · exact nofun
  | sequence => exact absurd rfl margin
  | mapping => exact absurd rfl margin

theorem document_starts {m : Node} (shown : m.Shown) :
    ∃ x w, text 0 (document m) ++ ['\n'] = x :: w ∧ Progress.startsToken x = true := by
  by_cases margin : m.rootMargin = 0
  · obtain ⟨x, w, same, starts⟩ := node_starts 0 shown
    refine ⟨x, w ++ ['\n'], ?_, starts⟩
    rw [document_collection margin]
    exact congrArg (· ++ ['\n']) same
  cases m with
  | scalar t s mark =>
    have written : Written 2 (seenText 2 t s) (isPlain t s) ((scalar false 0 2 t s).joined 2) :=
      written_scalar shown 2 fun wide => absurd wide (by decide)
    obtain ⟨x, w, same, starts⟩ := written.starts
    rw [text_document, same]
    exact ⟨x, _, rfl, starts⟩
  | sequence => exact absurd rfl margin
  | mapping => exact absurd rfl margin

end Writer

end LiveDoc.Yaml
