import LiveDoc.Proofs.YamlOfJson
import LiveDoc.Proofs.YamlWritten

/-!
# Tokens of written nodes

What is written for a node has the tokens of the document that a reader makes of it, if all keys without
a mark are in reach of their colons. If one is not, the reader stops there.
-/

namespace LiveDoc.Yaml

namespace Progress

open Node (Shown ShownItems ShownEntries)
open Writer (text under node items entries value)

variable {p q : Progress} {s s' : Stand} {column column' : Int} {rest rest' gap : List Char}
  {fits more allow : Bool} {c : Nat} {ls : List (List Char)}

/-! ## Runs that may stop -/

/-- A run comes in front of a text in a state if what is before it fits, and stops before if it does
not. -/
def Comes (fits : Bool) (p : Progress) (s : Stand) (column : Int) (rest : List Char) : Prop :=
  if fits then ∃ q, Leads p q ∧ Standing q s true column rest else Stops p

theorem Leads.refl (p : Progress) : Leads p p := fun fuel enough => ⟨fuel, enough, rfl⟩

theorem Standing.comes (standing : Standing p s true column rest) : Comes true p s column rest :=
  ⟨p, .refl p, standing⟩

theorem Leads.comes (leads : Leads p q) (comes : Comes fits q s column rest) :
    Comes fits p s column rest := by
  unfold Comes at comes ⊢
  split
  · rename_i yes
    rw [if_pos yes] at comes
    obtain ⟨r, again, standing⟩ := comes
    exact ⟨r, leads.trans again, standing⟩
  · rename_i no
    rw [if_neg no] at comes
    exact leads.stops comes

/-- The parts of a text are read one behind the other. -/
theorem Comes.next (first : Comes fits p s column rest)
    (second : ∀ q, Standing q s true column rest → Comes more q s' column' rest') :
    Comes (fits && more) p s' column' rest' := by
  cases fits with
  | false => exact first
  | true =>
    obtain ⟨q, leads, standing⟩ := first
    exact leads.comes (second q standing)

theorem Comes.map (comes : Comes fits p s column rest)
    (change : ∀ q, Standing q s true column rest → Standing q s' true column' rest') :
    Comes fits p s' column' rest' := by
  cases fits with
  | false => exact comes
  | true =>
    obtain ⟨q, leads, standing⟩ := comes
    exact ⟨q, leads, change q standing⟩

/-- A block is closed behind its last entry. -/
theorem Comes.closed {kind : TokenKind} {ks : List TokenKind}
    (comes : Comes fits p ((s.entered c kind).push ks) column rest) (deeper : s.indent < c)
    (outside : column ≤ s.indent) :
    Comes fits p (s.push (kind :: (ks ++ [.blockEnd]))) column rest := by
  refine comes.map fun q standing => ?_
  rw [Stand.entered, if_pos deeper] at standing
  have closed := standing.closed (i := s.indent) rfl (by change column < (c : Int); omega)
  have same : Stand.closed (Stand.push ⟨s.kinds ++ [kind], c, s.indent :: s.outer⟩ ks) s.indent s.outer =
      s.push (kind :: (ks ++ [.blockEnd])) := by
    simp [Stand.closed, Stand.push]
  rwa [same] at closed

/-! ## Lines at a margin -/

/-- A run stands in front of lines at a margin, or of what is behind them if there are none. -/
structure InFront (p : Progress) (s : Stand) (c : Nat) (ls : List (List Char)) (gap : List Char)
    (column : Int) (rest : List Char) : Prop where
  none : ls = [] → Standing p s true column rest
  some : ls ≠ [] → Standing p s true c (text c ls ++ (gap ++ rest))

theorem inFront_nil (standing : Standing p s true column rest) :
    InFront p s c [] gap column rest := ⟨fun _ => standing, fun some => absurd rfl some⟩

/-- The lines below an entry, and what is behind them, go on with a token at the margin or with what is
behind them. -/
theorem exists_lineEnd (starts : ls ≠ [] → ∃ x w, text c ls = x :: w ∧ startsToken x = true)
    (next : LineEnd gap column rest) (lower : column ≤ c) : ∃ gap' column' rest',
      under c ls ++ (gap ++ rest) = gap' ++ rest' ∧ LineEnd gap' column' rest' ∧ column' ≤ c ∧
        ∀ q s, Standing q s true column' rest' → InFront q s c ls gap column rest := by
  cases ls with
  | nil => exact ⟨gap, column, rest, rfl, next, lower, fun _ _ => inFront_nil⟩
  | cons line ls =>
    obtain ⟨x, w, same, starts⟩ := starts (List.cons_ne_nil _ _)
    have visible : x ≠ '\n' := by
      rintro rfl
      contradiction
    refine ⟨'\n' :: List.replicate c ' ', c, text c (line :: ls) ++ (gap ++ rest), ?_, ?_,
      Int.le_refl _, fun q s standing => ⟨nofun, fun _ => standing⟩⟩
    · rw [Writer.under_text same visible]
      simp
    · rw [same]
      exact .token c starts

theorem entered_indent {kind : TokenKind} (inside : s.indent ≤ column) :
    (s.entered column kind).indent = column := by
  unfold Stand.entered
  split <;> grind

theorem entered_self {kind : TokenKind} (same : s.indent = column) : s.entered column kind = s :=
  if_neg (by omega)

theorem margin_entered (kind : TokenKind) (inside : s.indent ≤ c) (ks : List TokenKind) :
    ((s.entered c kind).push ks).indent = c :=
  entered_indent inside

/-! ## Entries -/

variable {v : Node} {t : String} {mark : Mark} {close : Bool}

/-- An entry whose key has no mark is read as its value is, if the key is in reach of its colon. -/
theorem comes_simple (simple : Writer.isSimpleKey (.scalar (Schema.tag "str") t mark) = true)
    (reach : decide ((Writer.keyLine c (.scalar (Schema.tag "str") t mark)).length ≤ maxKeySpan) = close)
    (shown : v.Shown) (inside : s.indent ≤ c)
    (standing : Standing p s true c (Writer.keyLine c (.scalar (Schema.tag "str") t mark) ++ ':' ::
      ((value c (c + (Writer.keyLine c (.scalar (Schema.tag "str") t mark)).length + 1) v).joined c ++
        rest)))
    (reads : ∀ q after, c ≤ after → At q ((s.entered c .blockMappingStart).push
      [.key, .scalar t (isPlain (Schema.tag "str") t), .value]) false
        ((value c after v).joined c ++ rest) → q.pending = [] → q.column = after →
      Comes fits q s' column rest') :
    Comes (close && fits) p s' column rest' := by
  obtain ⟨written, unbroken⟩ := written_key simple (c + 1) c
  generalize Writer.keyLine c (.scalar (Schema.tag "str") t mark) = line at *
  obtain ⟨y, w, same, ends⟩ := Writer.value_starts c (c + line.length + 1) shown
  rw [same, List.cons_append] at standing
  have key := comes_key written unbroken (Nat.succ_pos c) (by omega) standing ends inside
  rw [String.ofList_toList] at key
  cases close with
  | true =>
    rw [if_pos (of_decide_eq_true reach)] at key
    obtain ⟨q, leads, here, none, place⟩ := key
    rw [← List.cons_append, ← same] at here
    exact leads.comes (reads q _ (by omega) here none place)
  | false =>
    rw [if_neg (of_decide_eq_false reach)] at key
    exact key

/-- An entry whose key has a mark is read as its value is. -/
theorem comes_marked (shown : v.Shown) (inside : s.indent ≤ c)
    (standing : Standing p s true c ('?' :: ' ' ::
      ((node (c + 2) (.scalar (Schema.tag "str") t mark)).joined (c + 2) ++
        '\n' :: (List.replicate c ' ' ++ ':' :: ' ' :: ((node (c + 2) v).joined (c + 2) ++ rest)))))
    (reads : ∀ q, Standing q ((s.entered c .blockMappingStart).push
      [.key, .scalar (String.ofList (seenText (c + 2) (Schema.tag "str") t))
        (isPlain (Schema.tag "str") t), .value]) true (c + 2 : Nat)
          ((node (c + 2) v).joined (c + 2) ++ rest) → Comes fits q s' column rest') :
    Comes fits p s' column rest' := by
  have margin := margin_entered .blockMappingStart inside
  have written : Written (c + 2) (seenText (c + 2) (Schema.tag "str") t)
      (isPlain (Schema.tag "str") t)
      ((node (c + 2) (.scalar (Schema.tag "str") t mark)).joined (c + 2)) :=
    written_scalar (.inl rfl) (c + 2) fun _ => Nat.le_succ _
  generalize (node (c + 2) (.scalar (Schema.tag "str") t mark)).joined (c + 2) = line at *
  obtain ⟨x, w, same, starts⟩ := written.starts
  obtain ⟨y, u, head, opens⟩ := Writer.node_starts (c + 2) shown
  rw [same, List.cons_append] at standing
  obtain ⟨q₁, first, standing⟩ := comes_indicator .key standing starts inside
  rw [head, List.cons_append, ← List.cons_append, ← same] at standing
  have standing : Standing q₁ _ true _ (line ++ (('\n' :: List.replicate c ' ') ++ ':' :: ' ' :: y ::
    (u ++ rest))) := standing
  obtain ⟨q₂, second, standing⟩ := comes_scalar written (Nat.succ_pos _) (by rw [margin]; omega)
    standing (by rw [margin]; omega) (.token c rfl) (.inl (by rw [margin]))
  rw [Stand.push_push] at standing
  obtain ⟨q₃, third, standing⟩ := comes_indicator .value standing opens (by rw [margin])
  rw [entered_self (margin _), Stand.push_push, ← List.cons_append, ← head] at standing
  exact first.comes (second.comes (third.comes (reads q₃ standing)))

/-! ## Nodes -/

mutual

/-- A node is read within a block, if its keys are in reach. -/
theorem comes_node (c : Nat) : ∀ {m : Node} {p : Progress} {s : Stand} {gap rest : List Char}
    {column : Int}, m.Shown → m.rootMargin ≤ c → s.indent < c → LineEnd gap column rest →
      column ≤ s.indent → Standing p s true c ((node c m).joined c ++ (gap ++ rest)) →
      Comes (m.inReach c) p (s.push (m.block c).tokens) column rest
  | .scalar t text _, p, s, gap, rest, column => by
    intro shown inset deeper next outside standing
    have reaches : Style.isWide true c = true → c ≤ c + 1 := fun _ => Nat.le_succ c
    exact comes_scalar (written_scalar shown c reaches) (Nat.zero_lt_of_lt inset) deeper standing
      deeper next (.inl outside)
  | .sequence _ [] _, p, s, gap, rest, column => by
    rintro ⟨rfl, -⟩ - deeper next outside standing
    exact comes_brackets .square standing deeper next
  | .sequence _ (m :: ns) mark, p, s, gap, rest, column => by
    rintro ⟨rfl, shown⟩ - deeper next outside standing
    rw [Writer.node_items] at standing
    have comes := comes_items c shown (Int.le_of_lt deeper) nofun next (by omega)
      ⟨nofun, fun _ => standing⟩
    exact comes.closed deeper outside
  | .mapping _ [] _, p, s, gap, rest, column => by
    rintro ⟨rfl, -⟩ - deeper next outside standing
    exact comes_brackets .curly standing deeper next
  | .mapping _ (e :: es) mark, p, s, gap, rest, column => by
    rintro ⟨rfl, shown⟩ - deeper next outside standing
    rw [Writer.node_entries] at standing
    have comes := comes_entries c shown (Int.le_of_lt deeper) nofun next (by omega)
      ⟨fun none => absurd none (Writer.entries_ne_nil c shown), fun _ => standing⟩
    exact comes.closed deeper outside

/-- Items are read at their margin. -/
theorem comes_items (c : Nat) : ∀ {ns : List Node} {p : Progress} {s : Stand}
    {gap rest : List Char} {column : Int}, ShownItems ns → s.indent ≤ c → (ns = [] → s.indent = c) →
      LineEnd gap column rest → column ≤ c → InFront p s c (items c ns) gap column rest →
      Comes (Node.itemsInReach c ns) p
        ((s.entered c .blockSequenceStart).push (Block.tokensOfItems (Node.blockItems c ns))) column rest
  | [], p, s, gap, rest, column => by
    intro _ _ settled _ _ front
    rw [entered_self (settled rfl), Node.blockItems, Block.tokensOfItems, Stand.push_nil]
    exact (front.none (by rw [items])).comes
  | m :: ns, p, s, gap, rest, column => by
    rintro ⟨own, others⟩ inside - next lower front
    obtain ⟨x, w, same, starts⟩ := Writer.node_starts (c + 2) own
    obtain ⟨gap', column', rest', below, next', lower', goes⟩ :=
      exists_lineEnd (Writer.items_starts c) next lower
    have standing := front.some nofun
    rw [Writer.text_items, List.cons_append, List.cons_append, List.append_assoc, below, same,
      List.cons_append] at standing
    obtain ⟨q, leads, behind⟩ := comes_indicator .item standing starts inside
    rw [← List.cons_append, ← same] at behind
    have margin := margin_entered .blockSequenceStart inside
    have first := comes_node (c + 2) own (Node.rootMargin_le c m) (by rw [margin]; omega) next'
      (by rw [margin]; exact lower') behind
    refine leads.comes (first.next fun r standing => ?_)
    rw [Stand.push_push] at standing
    have comes := comes_items c others (Int.le_of_eq (margin _)) (fun _ => margin _) next lower
      (goes _ _ standing)
    rw [entered_self (margin _), Stand.push_push] at comes
    exact comes

/-- A value is read behind a key without a mark. -/
theorem comes_value (c after : Nat) (behind : c ≤ after) : ∀ {v : Node} {p : Progress} {s : Stand}
    {gap rest : List Char} {column : Int}, v.Shown → s.indent = c → LineEnd gap column rest →
      column ≤ c → At p s false ((value c after v).joined c ++ (gap ++ rest)) → p.pending = [] →
      p.column = after → Comes (v.inReach (v.looseMargin c)) p
        (s.push (Block.loosened (v.block (v.looseMargin c)).tokens)) column rest
  | .scalar t text _, p, s, gap, rest, column => by
    intro shown margin next outside here none place
    have written : Written (c + 2) (seenText (c + 2) t text) (isPlain t text)
        ((Writer.scalar false (after + 1) (c + 2) t text).joined (c + 2)) :=
      written_scalar shown (c + 2) fun _ => by omega
    obtain ⟨x, w, same, starts⟩ := written.starts
    rw [Writer.value_scalar, List.cons_append, same, List.cons_append] at here
    have standing := At.blanks (n := 1) here none starts
    rw [← List.cons_append, ← same] at standing
    exact comes_scalar written (by omega) (by omega) standing (by omega) next (.inl (by omega))
  | .sequence _ [] _, p, s, gap, rest, column => by
    rintro ⟨rfl, -⟩ margin next outside here none place
    have standing := At.blanks (n := 1) here none rfl
    exact comes_brackets .square standing (by omega) next
  | .sequence _ (m :: ns) mark, p, s, gap, rest, column => by
    rintro ⟨rfl, shown⟩ margin next outside here none place
    obtain ⟨gap', column', rest', below, next', -, goes⟩ :=
      exists_lineEnd (Writer.items_starts c) next outside
    rw [Writer.value_items, below] at here
    have front := goes _ _ (here.lineEnd next' (by simp [none]))
    have comes := comes_items c shown (Int.le_of_eq margin) (fun _ => margin) next outside front
    rw [entered_self margin] at comes
    change Comes _ p (s.push (Block.loosened (Block.sequence (m.block (c + 2) ::
      Node.blockItems c ns)).tokens)) column rest
    rw [Block.loosened_sequence]
    exact comes
  | .mapping _ [] _, p, s, gap, rest, column => by
    rintro ⟨rfl, -⟩ margin next outside here none place
    have standing := At.blanks (n := 1) here none rfl
    exact comes_brackets .curly standing (by omega) next
  | .mapping _ (e :: es) mark, p, s, gap, rest, column => by
    rintro ⟨rfl, shown⟩ margin next outside here none place
    have lower : column ≤ (c + 2 : Nat) := by omega
    obtain ⟨gap', column', rest', below, next', -, goes⟩ :=
      exists_lineEnd (fun _ => Writer.entries_starts (c + 2) shown (List.cons_ne_nil _ _)) next lower
    rw [Writer.value_entries, below] at here
    have front := goes _ _ (here.lineEnd next' (by simp [none]))
    have comes := comes_entries (c + 2) shown (by omega) nofun next lower front
    exact comes.closed (by omega) (by omega)

/-- Entries are read at their margin. -/
theorem comes_entries (c : Nat) : ∀ {es : List (Node × Node)} {p : Progress} {s : Stand}
    {gap rest : List Char} {column : Int}, ShownEntries es → s.indent ≤ c → (es = [] → s.indent = c) →
      LineEnd gap column rest → column ≤ c → InFront p s c (entries c es) gap column rest →
      Comes (Node.entriesInReach c es) p
        ((s.entered c .blockMappingStart).push (Block.tokensOfEntries (Node.blockEntries c es)))
        column rest
  | [], p, s, gap, rest, column => by
    intro _ _ settled _ _ front
    rw [entered_self (settled rfl), Node.blockEntries, Block.tokensOfEntries, Stand.push_nil]
    exact (front.none (by rw [entries])).comes
  | (k, v) :: es, p, s, gap, rest, column => by
    rintro ⟨⟨text, mark, rfl⟩, own, others⟩ inside - next lower front
    obtain ⟨gap', column', rest', below, next', lower', goes⟩ :=
      exists_lineEnd (fun some => Writer.entries_starts c others fun none => some (none ▸ rfl)) next lower
    have standing := front.some (Writer.entries_ne_nil c (e := (_, v)) ⟨⟨text, mark, rfl⟩, own, others⟩)
    have margin := margin_entered .blockMappingStart inside
    -- the entries below go on from the state behind this one
    have behind : ∀ ks q, Standing q ((s.entered c .blockMappingStart).push ks) true column' rest' →
        Comes (Node.entriesInReach c es) q ((s.entered c .blockMappingStart).push
          (ks ++ Block.tokensOfEntries (Node.blockEntries c es))) column rest := by
      intro ks q standing
      have comes := comes_entries c others (Int.le_of_eq (margin _)) (fun _ => margin _) next lower
        (goes _ _ standing)
      rwa [entered_self (margin _), Stand.push_push] at comes
    cases simple : Writer.isSimpleKey (.scalar (Schema.tag "str") text mark) with
    | true =>
      rw [Writer.text_simple c simple, List.append_assoc, List.cons_append, List.append_assoc,
        below] at standing
      rw [Node.entriesInReach_simple c simple, Node.tokens_simple c simple, Bool.and_assoc]
      generalize reach : decide (_ ≤ maxKeySpan) = close
      refine comes_simple simple reach own inside standing fun q after deeper here none place => ?_
      have value := comes_value c after deeper own (margin _) next' lower' here none place
      rw [Stand.push_push] at value
      exact value.next (behind _)
    | false =>
      rw [Writer.text_marked c simple] at standing
      rw [Node.entriesInReach_marked c simple, Node.tokens_marked c simple]
      simp only [List.cons_append, List.append_assoc, below] at standing
      refine comes_marked own inside standing fun q standing => ?_
      have value := comes_node (c + 2) own (Node.rootMargin_le c v) (by rw [margin]; omega) next'
        (by rw [margin]; exact lower') standing
      rw [Stand.push_push] at value
      exact value.next (behind _)

end

/-! ## Documents -/

variable {m : Node}

/-- A run stands at the start of a text. -/
theorem standing_start {x : Char} (same : rest = x :: rest') (starts : startsToken x = true) :
    Standing (start rest) ⟨[.streamStart], -1, []⟩ true 0 rest := by
  subst same
  have here : At (start (x :: rest')) ⟨[.streamStart], -1, []⟩ true (x :: rest') :=
    ⟨rfl, rfl, rfl, rfl, rfl, by simp, rfl⟩
  exact At.blanks (n := 0) here rfl starts

/-- A scalar that is a whole document is read. One that is plain ends with a mark. -/
theorem comes_scalarDocument {t text : String} {mark : Mark} (shown : IsShown t text)
    (standing : Standing p ⟨[.streamStart], -1, []⟩ true 0
      (Writer.text 0 (Writer.document (.scalar t text mark)) ++ ['\n'])) :
    ∃ q, Leads p q ∧ Standing q ⟨[.streamStart] ++ ([.scalar (String.ofList (seenText 2 t text))
      (isPlain t text)] ++ Reading.ending (isPlain t text)), -1, []⟩ true (-1) [] := by
  have written : Written 2 (seenText 2 t text) (isPlain t text)
      ((Writer.scalar false 0 2 t text).joined 2) :=
    written_scalar shown 2 fun wide => absurd wide (by decide)
  rw [Writer.text_document] at standing
  cases plain : isPlain t text with
  | false =>
    rw [plain] at standing written
    exact comes_scalar written (by decide) (by decide) standing (by decide) .stop (.inl (Int.le_refl _))
  | true =>
    rw [plain] at standing written
    have dots : LineEnd ['\n'] 0 ['.', '.', '.', '\n'] := .token 0 rfl
    obtain ⟨q, leads, standing⟩ := comes_scalar written (by decide) (by decide) standing (by decide)
      dots (.inr rfl)
    obtain ⟨r, further, standing⟩ := comes_documentEnd standing rfl
    exact ⟨r, leads.trans further, standing⟩

/-- A document is read up to the end of its text. -/
theorem comes_document (shown : m.Shown)
    (written : Writer.text 0 (Writer.document m) ++ ['\n'] = rest)
    (standing : Standing p ⟨[.streamStart], -1, []⟩ true 0 rest) : ∃ marked, Comes (m.inReach m.rootMargin) p
      ⟨[.streamStart] ++ ((m.block m.rootMargin).tokens ++ Reading.ending marked), -1, []⟩ (-1) [] := by
  subst written
  by_cases margin : m.rootMargin = 0
  · rw [Writer.document_collection margin] at standing
    have comes := comes_node 0 shown (Nat.le_of_eq margin) (by decide) .stop (Int.le_refl _) standing
    rw [margin]
    refine ⟨false, ?_⟩
    rw [Reading.ending, if_neg Bool.false_ne_true, List.append_nil]
    exact comes
  cases m with
  | scalar t text mark => exact ⟨isPlain t text, comes_scalarDocument shown standing⟩
  | sequence => exact absurd rfl margin
  | mapping => exact absurd rfl margin

end Progress

open Node (Shown)

variable {m : Node}

theorem isAcceptable_written {x : Char} (written : IsWritten x) : isAcceptable x = true := by
  rcases written with printable | rfl
  · exact isAcceptable_ascii printable
  · decide

/-- The tokens of what is written for a node. -/
theorem tokens_document (shown : m.Shown) {text : List Char}
    (written : (Writer.document m).flatMap (fun line => line ++ ['\n']) = text) :
    if m.inReach m.rootMargin then
      (tokens text).halt = none ∧ ∃ marked, (tokens text).items.map (·.kind) =
        .streamStart :: ((m.block m.rootMargin).tokens ++ (Reading.ending marked ++ [.streamEnd]))
    else (∃ h, (tokens text).halt = some h) ∧ ∀ t ∈ (tokens text).items, t.kind ≠ .streamEnd := by
  have all : text.all isAcceptable = true := by
    rw [← written, List.all_eq_true]
    intro x inside
    obtain ⟨line, among, inside⟩ := List.mem_flatMap.mp inside
    rcases List.mem_append.mp inside with inner | last
    · exact isAcceptable_written (Writer.tidy_document shown line among x inner)
    · exact isAcceptable_written (.inr (List.mem_singleton.mp last))
  obtain ⟨x, w, same, starts⟩ := Writer.document_starts shown
  rw [Writer.flatMap_lines (Writer.document_ne_nil m)] at written
  have standing := Progress.standing_start (written.symm.trans same) starts
  rw [tokens_acceptable all]
  have enough : (Progress.start text).cursor.rest.length < text.length + 2 :=
    Nat.lt_add_of_pos_right (by decide)
  obtain ⟨marked, comes⟩ := Progress.comes_document shown written standing
  unfold Progress.Comes at comes
  split at comes
  · rename_i fits
    obtain ⟨q, leads, standing⟩ := comes
    obtain ⟨fuel, left, same⟩ := leads _ enough
    obtain ⟨halt, kinds⟩ := Progress.run_ended standing rfl (Nat.zero_lt_of_lt left)
    rw [if_pos fits, same]
    exact ⟨halt, marked, kinds.trans (by simp)⟩
  · rename_i far
    rw [if_neg far]
    exact comes _ enough

end LiveDoc.Yaml
