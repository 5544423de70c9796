import LiveDoc.Proofs.YamlFlow

/-!
# Events of text in block style

A document in block style is a scalar, or a sequence or mapping whose start and end are in its tokens,
although not in its text. The end of a sequence that is not indented is seen from the token behind it.
-/

namespace LiveDoc.Yaml

/-- A key in block style: its text, whether it is plain, and whether it has a mark in front of it. -/
structure BlockKey where
  text : String
  plain : Bool
  marked : Bool

/-- A document in block style. -/
inductive Block where
  | scalar (text : String) (plain : Bool)
  | sequence (items : List Block)
  | mapping (entries : List (BlockKey × Block))

namespace Block

/-- The tokens of a value behind a key without a mark: a sequence is not indented there, so it has
neither a start nor an end. -/
def loosened : List TokenKind → List TokenKind
  | .blockSequenceStart :: ks => ks.dropLast
  | ks => ks

mutual

/-- The tokens of a document. Empty collections have brackets. -/
def tokens : Block → List TokenKind
  | .scalar s plain => [.scalar s plain]
  | .sequence [] => [.flowSequenceStart, .flowSequenceEnd]
  | .sequence (b :: bs) => .blockSequenceStart :: (tokensOfItems (b :: bs) ++ [.blockEnd])
  | .mapping [] => [.flowMappingStart, .flowMappingEnd]
  | .mapping (e :: es) => .blockMappingStart :: (tokensOfEntries (e :: es) ++ [.blockEnd])

/-- The tokens of items. -/
def tokensOfItems : List Block → List TokenKind
  | [] => []
  | b :: bs => .blockEntry :: (b.tokens ++ tokensOfItems bs)

/-- The tokens of entries. -/
def tokensOfEntries : List (BlockKey × Block) → List TokenKind
  | [] => []
  | (k, b) :: es =>
    .key :: .scalar k.text k.plain :: .value ::
      ((if k.marked then b.tokens else loosened b.tokens) ++ tokensOfEntries es)

end

/-- How the tag of a scalar is found. -/
def tagging (plain : Bool) : Tagging := if plain then .byText else .byKind

mutual

/-- The events of a document. -/
def events : Block → List EventKind
  | .scalar s plain => [.scalar none (tagging plain) s]
  | .sequence bs => .sequenceStart none .byKind :: (eventsOfItems bs ++ [.sequenceEnd])
  | .mapping es => .mappingStart none .byKind :: (eventsOfEntries es ++ [.mappingEnd])

/-- The events of items. -/
def eventsOfItems : List Block → List EventKind
  | [] => []
  | b :: bs => b.events ++ eventsOfItems bs

/-- The events of entries. -/
def eventsOfEntries : List (BlockKey × Block) → List EventKind
  | [] => []
  | (k, b) :: es => .scalar none (tagging k.plain) k.text :: (b.events ++ eventsOfEntries es)

end

theorem loosened_sequence (b : Block) (bs : List Block) :
    loosened (sequence (b :: bs)).tokens = tokensOfItems (b :: bs) := by
  rw [tokens, loosened, List.dropLast_concat]

/-- Only the start of a sequence is left out. -/
theorem loosened_other {b : Block} (other : ∀ c cs, b ≠ .sequence (c :: cs)) :
    loosened b.tokens = b.tokens := by
  cases b with
  | scalar => rfl
  | sequence bs =>
    cases bs with
    | nil => rfl
    | cons c cs => exact absurd rfl (other c cs)
  | mapping es => cases es <;> rfl

theorem length_loosened (ks : List TokenKind) : ks.length ≤ (loosened ks).length + 2 := by
  unfold loosened
  split
  · rw [List.length_cons, List.length_dropLast]
    omega
  · omega

mutual

/-- There are at least as many tokens as events. -/
theorem length_events : ∀ b : Block, b.events.length ≤ b.tokens.length
  | .scalar _ _ => Nat.le_refl _
  | .sequence [] => Nat.le_refl _
  | .sequence (b :: bs) => by
    have items := length_items (b :: bs)
    simp only [events, tokens, List.length_cons, List.length_append, List.length_nil]
    omega
  | .mapping [] => Nat.le_refl _
  | .mapping (e :: es) => by
    have entries := length_entries (e :: es)
    simp only [events, tokens, List.length_cons, List.length_append, List.length_nil]
    omega

theorem length_items : ∀ bs : List Block, (eventsOfItems bs).length ≤ (tokensOfItems bs).length
  | [] => Nat.le_refl _
  | b :: bs => by
    have own := length_events b
    have others := length_items bs
    simp only [eventsOfItems, tokensOfItems, List.length_cons, List.length_append]
    omega

theorem length_entries : ∀ es : List (BlockKey × Block),
    (eventsOfEntries es).length ≤ (tokensOfEntries es).length
  | [] => Nat.le_refl _
  | (k, b) :: es => by
    have own := length_events b
    have others := length_entries es
    have loose := length_loosened b.tokens
    simp only [eventsOfEntries, tokensOfEntries, List.length_cons, List.length_append]
    split <;> omega

end

end Block

namespace Reading

variable {r r' : Reading} {more ts : List Token} {start stop mark : Mark} {ks : List EventKind}
  {e : Expecting} {es : List Expecting} {t u : Token}

/-! ## Steps within a block -/

theorem node_blockSequence (loose : Bool)
    (ahead : r.tokens = ⟨.blockSequenceStart, start, stop⟩ :: more) :
    node true loose r = .ok (⟨.sequenceStart none .byKind, start⟩,
      r.move more (.item start :: r.expecting)) := by
  unfold node properties
  simp only [peek, ahead, bind, Except.bind, Properties.add?, tagName]
  cases loose <;> simp [found, collectionTag, advance, enter, ahead]

theorem node_blockMapping (loose : Bool)
    (ahead : r.tokens = ⟨.blockMappingStart, start, stop⟩ :: more) :
    node true loose r = .ok (⟨.mappingStart none .byKind, start⟩,
      r.move more (.key start :: r.expecting)) := by
  unfold node properties
  simp only [peek, ahead, bind, Except.bind, Properties.add?, tagName]
  cases loose <;> simp [found, collectionTag, advance, enter, ahead]

/-- A sequence that is not indented starts with its first item. -/
theorem node_loose (ahead : r.tokens = ⟨.blockEntry, start, stop⟩ :: more) :
    node true true r = .ok (⟨.sequenceStart none .byKind, start⟩,
      r.move r.tokens (.looseItem :: r.expecting)) := by
  unfold node properties
  simp only [peek, ahead, bind, Except.bind, Properties.add?, tagName]
  simp [found, collectionTag, enter, ahead]

/-- What is behind a token is a node, if the next token does not show that it is left out. -/
theorem nodeUnless_present {ends : TokenKind → Bool} (inBlock loose : Bool)
    (ahead : r.tokens = t :: u :: more) (expecting : r.expecting = e :: es)
    (present : ends u.kind = false) (next : Expecting) :
    nodeUnless ends inBlock loose next t r =
      node inBlock loose (r.move (u :: more) (next :: es)) := by
  simp only [nodeUnless, advance, expect, expecting, ahead, peek, present, bind, Except.bind,
    Bool.false_eq_true, if_false, List.tail_cons]

theorem next_item (expecting : r.expecting = .item start :: es) (ahead : r.tokens = t :: u :: more)
    (entry : t.kind = .blockEntry) (present : (u.kind == .blockEntry || u.kind == .blockEnd) = false) :
    next (.item start) r = node true false (r.move (u :: more) (.item start :: es)) := by
  have marked : (t.kind == .blockEntry) = true := by rw [entry]; rfl
  have here : r.peek = .ok t := by rw [peek, ahead]
  simp only [next, here, bind, Except.bind, marked, if_true]
  exact nodeUnless_present true false ahead expecting present _

theorem next_item_end (expecting : r.expecting = .item start :: es) (ahead : r.tokens = t :: more)
    (closing : t.kind = .blockEnd) :
    next (.item start) r = .ok (⟨.sequenceEnd, t.start⟩, r.move more es) := by
  have other : (TokenKind.blockEnd == .blockEntry) = false := rfl
  simp only [next, peek, ahead, closing, other, expecting, bind, Except.bind, beq_self_eq_true,
    Bool.false_eq_true, if_false, if_true, found, advance, leave, List.tail_cons]

theorem next_looseItem (expecting : r.expecting = .looseItem :: es)
    (ahead : r.tokens = t :: u :: more) (entry : t.kind = .blockEntry)
    (present : (u.kind == .blockEntry || endsBlockPart u.kind) = false) :
    next .looseItem r = node true false (r.move (u :: more) (.looseItem :: es)) := by
  have marked : (t.kind == .blockEntry) = true := by rw [entry]; rfl
  have here : r.peek = .ok t := by rw [peek, ahead]
  simp only [next, here, bind, Except.bind, marked, if_true]
  exact nodeUnless_present true false ahead expecting present _

theorem next_looseItem_end (expecting : r.expecting = .looseItem :: es)
    (ahead : r.tokens = t :: more) (other : (t.kind == .blockEntry) = false) :
    next .looseItem r = .ok (⟨.sequenceEnd, t.start⟩, r.move (t :: more) es) := by
  simp only [next, peek, ahead, other, expecting, bind, Except.bind, Bool.false_eq_true, if_false,
    found, leave, List.tail_cons]

theorem next_key {s : String} {plain : Bool} (expecting : r.expecting = .key start :: es)
    (ahead : r.tokens = t :: ⟨.scalar s plain, mark, stop⟩ :: more) (entry : t.kind = .key) :
    next (.key start) r = .ok (⟨.scalar none (Block.tagging plain) s, mark⟩,
      r.move more (.value start :: es)) := by
  have marked : (t.kind == .key) = true := by rw [entry]; rfl
  have here : r.peek = .ok t := by rw [peek, ahead]
  simp only [next, here, bind, Except.bind, marked, if_true]
  rw [nodeUnless_present true true ahead expecting rfl]
  exact node_scalar true true rfl

theorem next_key_end (expecting : r.expecting = .key start :: es) (ahead : r.tokens = t :: more)
    (closing : t.kind = .blockEnd) :
    next (.key start) r = .ok (⟨.mappingEnd, t.start⟩, r.move more es) := by
  have other : (TokenKind.blockEnd == .key) = false := rfl
  simp only [next, peek, ahead, closing, other, expecting, bind, Except.bind, beq_self_eq_true,
    Bool.false_eq_true, if_false, if_true, found, advance, leave, List.tail_cons]

theorem next_value (expecting : r.expecting = .value start :: es) (ahead : r.tokens = t :: u :: more)
    (colon : t.kind = .value) (present : endsBlockPart u.kind = false) :
    next (.value start) r = node true true (r.move (u :: more) (.key start :: es)) := by
  have marked : (t.kind == .value) = true := by rw [colon]; rfl
  have here : r.peek = .ok t := by rw [peek, ahead]
  simp only [next, here, valueOf, bind, Except.bind, marked, if_true]
  exact nodeUnless_present true true ahead expecting present _

/-! ## Documents as they are read -/

/-- The outcome of a step is the first of some events, with a reading that makes the others on its way
to another one. -/
def Opens (outcome : Except Halt (Event × Reading)) (ks : List EventKind) (r' : Reading) : Prop :=
  ∃ event next ks', outcome = .ok (event, next) ∧ ks = event.kind :: ks' ∧
    event.kind ≠ .streamEnd ∧ Emits next ks' r'

theorem Opens.emits (expecting : r.expecting = e :: es) (opens : Opens (next e r) ks r') :
    Emits r ks r' := by
  obtain ⟨event, behind, ks, next, rfl, inner, emits⟩ := opens
  exact (emits_next expecting next inner).trans emits

/-- A document in block style starts with a token of its own. -/
theorem exists_block {b : Block} (kinds : ts.map (·.kind) = b.tokens) : ∃ t us, ts = t :: us ∧
    (t.kind == .blockEntry) = false ∧ endsBlockPart t.kind = false ∧ opensDocument t.kind = false := by
  have present : ∃ k ks, b.tokens = k :: ks ∧ (k == .blockEntry) = false ∧ endsBlockPart k = false ∧
      opensDocument k = false := by
    cases b with
    | scalar => exact ⟨_, _, rfl, rfl, rfl, rfl⟩
    | sequence bs => cases bs <;> exact ⟨_, _, rfl, rfl, rfl, rfl⟩
    | mapping es => cases es <;> exact ⟨_, _, rfl, rfl, rfl, rfl⟩
  obtain ⟨k, ks, first, others⟩ := present
  obtain ⟨t, us, rfl, rfl, -⟩ := List.map_eq_cons_iff.mp (kinds.trans first)
  exact ⟨t, us, rfl, others⟩

/-- So does a value, whose tokens may begin with those of an item. -/
theorem exists_value {b : Block} {marked : Bool}
    (kinds : ts.map (·.kind) = if marked then b.tokens else Block.loosened b.tokens) :
    ∃ t us, ts = t :: us ∧ endsBlockPart t.kind = false := by
  by_cases loose : marked = false ∧ ∃ c cs, b = .sequence (c :: cs)
  · obtain ⟨rfl, c, cs, rfl⟩ := loose
    rw [if_neg (by decide), Block.loosened_sequence] at kinds
    obtain ⟨t, us, rfl, kind, -⟩ := List.map_eq_cons_iff.mp kinds
    exact ⟨t, us, rfl, by rw [kind]; rfl⟩
  · have same : ts.map (·.kind) = b.tokens := by
      cases marked with
      | true => exact kinds
      | false =>
        rw [kinds]
        exact Block.loosened_other fun c cs sequence => loose ⟨rfl, c, cs, sequence⟩
    obtain ⟨t, us, rfl, -, present, -⟩ := exists_block same
    exact ⟨t, us, rfl, present⟩

/-- No item begins behind an entry. -/
theorem exists_entry {fs : List (BlockKey × Block)} (kinds : ts.map (·.kind) = Block.tokensOfEntries fs)
    (closing : t.kind = .blockEnd) (more : List Token) :
    ∃ u us, ts ++ t :: more = u :: us ∧ (u.kind == .blockEntry) = false := by
  cases fs with
  | nil =>
    obtain rfl : ts = [] := List.map_eq_nil_iff.mp kinds
    exact ⟨t, more, rfl, by rw [closing]; rfl⟩
  | cons f fs =>
    obtain ⟨u, us, rfl, kind, -⟩ := List.map_eq_cons_iff.mp kinds
    exact ⟨u, us ++ t :: more, rfl, by rw [kind]; rfl⟩

/-- What is expected of items that end at a token: it may be a token of theirs, or only show that there
are no more of them. -/
structure Itemizes (e : Expecting) (t : Token) (more rest : List Token) : Prop where
  entry : ∀ {r : Reading} {es : List Expecting} {t u : Token} {more : List Token},
    r.expecting = e :: es → r.tokens = t :: u :: more → t.kind = .blockEntry →
      (u.kind == .blockEntry) = false → endsBlockPart u.kind = false →
        next e r = node true false (r.move (u :: more) (e :: es))
  ending : ∀ {r : Reading} {es : List Expecting}, r.expecting = e :: es → r.tokens = t :: more →
    next e r = .ok (⟨.sequenceEnd, t.start⟩, r.move rest es)

theorem itemizes_item (start : Mark) (closing : t.kind = .blockEnd) (more : List Token) :
    Itemizes (.item start) t more more := by
  refine ⟨fun expecting ahead entry other present => ?_, fun expecting ahead =>
    next_item_end expecting ahead closing⟩
  have ends : _ = false := (Bool.or_eq_false_iff.mp present).2
  exact next_item expecting ahead entry (by rw [other, ends]; rfl)

theorem itemizes_looseItem (other : (t.kind == .blockEntry) = false) (more : List Token) :
    Itemizes .looseItem t more (t :: more) :=
  ⟨fun expecting ahead entry other present =>
    next_looseItem expecting ahead entry (by rw [other, present]; rfl),
    fun expecting ahead => next_looseItem_end expecting ahead other⟩

/-- A document is read as a node where its tokens are ahead. Behind a key without a mark it is also read
where the tokens are that it has there, if no item follows them. -/
structure ReadsBlock (b : Block) : Prop where
  whole : ∀ {r : Reading} {ts more : List Token}, r.tokens = ts ++ more →
    ts.map (·.kind) = b.tokens → ∀ loose,
      Opens (node true loose r) b.events (r.move more r.expecting)
  loose : ∀ {r : Reading} {ts more : List Token}, r.tokens = ts ++ more →
    ts.map (·.kind) = Block.loosened b.tokens →
    (∃ t us, more = t :: us ∧ (t.kind == .blockEntry) = false) →
      Opens (node true true r) b.events (r.move more r.expecting)

/-- Items are read up to the token that ends them. -/
def ReadsItems (bs : List Block) : Prop :=
  ∀ ⦃r : Reading⦄ ⦃ts more rest : List Token⦄ ⦃t : Token⦄ ⦃e : Expecting⦄ ⦃es : List Expecting⦄,
    r.tokens = ts ++ t :: more → ts.map (·.kind) = Block.tokensOfItems bs →
    Itemizes e t more rest → r.expecting = e :: es →
      Emits r (Block.eventsOfItems bs ++ [.sequenceEnd]) (r.move rest es)

/-- Entries are read up to the end of their mapping. -/
def ReadsEntries (fs : List (BlockKey × Block)) : Prop :=
  ∀ ⦃r : Reading⦄ ⦃ts more : List Token⦄ ⦃t : Token⦄ ⦃start : Mark⦄ ⦃es : List Expecting⦄,
    r.tokens = ts ++ t :: more → ts.map (·.kind) = Block.tokensOfEntries fs → t.kind = .blockEnd →
    r.expecting = .key start :: es →
      Emits r (Block.eventsOfEntries fs ++ [.mappingEnd]) (r.move more es)

variable {b : Block} {bs : List Block} {fs : List (BlockKey × Block)}

/-- Most documents have the same tokens behind a key without a mark. -/
theorem ReadsBlock.of_whole (other : ∀ c cs, b ≠ .sequence (c :: cs))
    (whole : ∀ {r : Reading} {ts more : List Token}, r.tokens = ts ++ more →
      ts.map (·.kind) = b.tokens → ∀ loose,
        Opens (node true loose r) b.events (r.move more r.expecting)) : ReadsBlock b :=
  ⟨whole, fun ahead kinds _ => whole ahead (kinds.trans (Block.loosened_other other)) true⟩

theorem ReadsBlock.scalar (s : String) (plain : Bool) : ReadsBlock (.scalar s plain) := by
  refine .of_whole nofun fun ahead kinds loose => ?_
  obtain ⟨⟨_, start, stop⟩, rfl, rfl⟩ := List.map_eq_singleton_iff.mp kinds
  exact ⟨_, _, [], node_scalar true loose ahead, rfl, nofun, .refl _⟩

theorem ReadsBlock.noItems : ReadsBlock (.sequence []) := by
  refine .of_whole nofun fun {r ts more} ahead kinds loose => ?_
  obtain ⟨⟨_, start, stop⟩, _, rfl, rfl, behind⟩ := List.map_eq_cons_iff.mp kinds
  obtain ⟨t, rfl, closing⟩ := List.map_eq_singleton_iff.mp behind
  have ends := next_flowItem_end
    (r := r.move (t :: more) (.flowItem start true :: r.expecting)) rfl rfl closing
  exact ⟨_, _, _, node_sequence true loose ahead, rfl, nofun, emits_next rfl ends nofun⟩

theorem ReadsBlock.noEntries : ReadsBlock (.mapping []) := by
  refine .of_whole nofun fun {r ts more} ahead kinds loose => ?_
  obtain ⟨⟨_, start, stop⟩, _, rfl, rfl, behind⟩ := List.map_eq_cons_iff.mp kinds
  obtain ⟨t, rfl, closing⟩ := List.map_eq_singleton_iff.mp behind
  have ends := next_flowKey_end
    (r := r.move (t :: more) (.flowKey start true :: r.expecting)) rfl rfl closing
  exact ⟨_, _, _, node_mapping true loose ahead, rfl, nofun, emits_next rfl ends nofun⟩

theorem ReadsItems.block (items : ReadsItems (b :: bs)) : ReadsBlock (.sequence (b :: bs)) := by
  refine ⟨fun {r ts more} ahead kinds loose => ?_, fun {r ts more} ahead kinds behind => ?_⟩
  · obtain ⟨start, stop, inner, t, rfl, within, closing⟩ := exists_inner kinds
    rw [List.cons_append, List.append_assoc] at ahead
    have inside := items (r := r.move (inner ++ t :: more) (.item start :: r.expecting)) rfl within
      (itemizes_item start closing more) rfl
    exact ⟨_, _, _, node_blockSequence loose ahead, rfl, nofun, inside⟩
  · obtain ⟨t, us, rfl, other⟩ := behind
    rw [Block.loosened_sequence] at kinds
    have inside := items (r := r.move r.tokens (.looseItem :: r.expecting)) ahead kinds
      (itemizes_looseItem other us) rfl
    obtain ⟨⟨_, start, stop⟩, _, rfl, rfl, -⟩ := List.map_eq_cons_iff.mp kinds
    exact ⟨_, _, _, node_loose ahead, rfl, nofun, inside⟩

theorem ReadsEntries.block {f : BlockKey × Block} (entries : ReadsEntries (f :: fs)) :
    ReadsBlock (.mapping (f :: fs)) := by
  refine .of_whole nofun fun {r ts more} ahead kinds loose => ?_
  obtain ⟨start, stop, inner, t, rfl, within, closing⟩ := exists_inner kinds
  rw [List.cons_append, List.append_assoc] at ahead
  have inside := entries (r := r.move (inner ++ t :: more) (.key start :: r.expecting)) rfl within
    closing rfl
  exact ⟨_, _, _, node_blockMapping loose ahead, rfl, nofun, inside⟩

theorem ReadsItems.nil : ReadsItems [] := by
  intro r ts more rest t e es ahead kinds itemizes expecting
  obtain rfl : ts = [] := List.map_eq_nil_iff.mp kinds
  exact emits_next expecting (itemizes.ending expecting ahead) nofun

theorem ReadsItems.cons (own : ReadsBlock b) (others : ReadsItems bs) : ReadsItems (b :: bs) := by
  intro r ts more rest t e es ahead kinds itemizes expecting
  rw [Block.tokensOfItems] at kinds
  obtain ⟨entry, _, rfl, marked, behind⟩ := List.map_eq_cons_iff.mp kinds
  obtain ⟨item, remaining, rfl, within, later⟩ := List.map_eq_append_iff.mp behind
  obtain ⟨head, tail, rfl, other, present, -⟩ := exists_block within
  have here : r.tokens = entry :: head :: (tail ++ (remaining ++ t :: more)) := by simpa using ahead
  have next := itemizes.entry expecting here marked other present
  have node := own.whole
    (r := r.move ((head :: tail) ++ (remaining ++ t :: more)) (e :: es)) rfl within false
  have rest := others (r := r.move (remaining ++ t :: more) (e :: es)) rfl later itemizes rfl
  rw [Block.eventsOfItems, List.append_assoc]
  exact (Opens.emits expecting (next ▸ node)).trans rest

theorem ReadsEntries.nil : ReadsEntries [] := by
  intro r ts more t start es ahead kinds closing expecting
  obtain rfl : ts = [] := List.map_eq_nil_iff.mp kinds
  exact emits_next expecting (next_key_end expecting ahead closing) nofun

theorem ReadsEntries.cons (k : BlockKey) (own : ReadsBlock b) (others : ReadsEntries fs) :
    ReadsEntries ((k, b) :: fs) := by
  intro r ts more t start es ahead kinds closing expecting
  rw [Block.tokensOfEntries] at kinds
  obtain ⟨entry, _, rfl, marked, named⟩ := List.map_eq_cons_iff.mp kinds
  obtain ⟨⟨_, mark, stop⟩, _, rfl, rfl, valued⟩ := List.map_eq_cons_iff.mp named
  obtain ⟨colon, _, rfl, value, behind⟩ := List.map_eq_cons_iff.mp valued
  obtain ⟨item, remaining, rfl, within, later⟩ := List.map_eq_append_iff.mp behind
  obtain ⟨head, tail, rfl, present⟩ := exists_value within
  have here : r.tokens = entry :: ⟨.scalar k.text k.plain, mark, stop⟩ ::
      (colon :: head :: (tail ++ (remaining ++ t :: more))) := by simpa using ahead
  have first := emits_next expecting (next_key expecting here marked) nofun
  have second := next_value (r := r.move (colon :: head :: (tail ++ (remaining ++ t :: more)))
    (.value start :: es)) rfl rfl value present
  have opens : Opens (node true true (r.move ((head :: tail) ++ (remaining ++ t :: more))
      (.key start :: es))) b.events (r.move (remaining ++ t :: more) (.key start :: es)) := by
    cases plain : k.marked with
    | true => exact own.whole rfl (by rw [within, if_pos plain]) true
    | false =>
      exact own.loose rfl (by rw [within, if_neg (by simp [plain])]) (exists_entry later closing more)
  have node : Emits (r.move (colon :: head :: (tail ++ (remaining ++ t :: more))) (.value start :: es))
      b.events (r.move (remaining ++ t :: more) (.key start :: es)) :=
    Opens.emits rfl (second ▸ opens)
  have rest := others (r := r.move (remaining ++ t :: more) (.key start :: es)) rfl later closing rfl
  rw [Block.eventsOfEntries, List.cons_append, List.append_assoc]
  exact (first.trans node).trans rest

mutual

theorem readsBlock : ∀ b : Block, ReadsBlock b
  | .scalar s plain => .scalar s plain
  | .sequence [] => .noItems
  | .sequence (b :: bs) => (readsItems (b :: bs)).block
  | .mapping [] => .noEntries
  | .mapping (f :: fs) => (readsEntries (f :: fs)).block

theorem readsItems : ∀ bs : List Block, ReadsItems bs
  | [] => .nil
  | b :: bs => .cons (readsBlock b) (readsItems bs)

theorem readsEntries : ∀ fs : List (BlockKey × Block), ReadsEntries fs
  | [] => .nil
  | (k, b) :: fs => .cons k (readsBlock b) (readsEntries fs)

end

/-! ## Whole documents -/

/-- The mark at the end of a document, if there is one. -/
def ending (marked : Bool) : List TokenKind := if marked then [.documentEnd] else []

/-- A document in block style is read between the ends of its stream. -/
theorem emits_document {b : Block} (opening : Token) {closing : Token} {last : List Token}
    {marked : Bool} (kinds : ts.map (·.kind) = b.tokens) (ends : last.map (·.kind) = ending marked)
    (ended : closing.kind = .streamEnd) (halt : Option Halt) :
    Emits ⟨opening :: (ts ++ (last ++ [closing])), halt, [.streamStart], []⟩
      (.streamStart :: .documentStart :: (b.events ++ [.documentEnd]))
      ⟨[closing], halt, [.document], standardHandles⟩ := by
  obtain ⟨t, us, rfl, -, -, outside⟩ := exists_block kinds
  let behind : Reading := ⟨(t :: us) ++ (last ++ [closing]), halt, [.firstDocument], []⟩
  let inside : Reading :=
    ⟨(t :: us) ++ (last ++ [closing]), halt, [.blockNode, .documentEnd], standardHandles⟩
  let after : Reading := ⟨last ++ [closing], halt, [.documentEnd], standardHandles⟩
  have first : next .streamStart
      ⟨opening :: ((t :: us) ++ (last ++ [closing])), halt, [.streamStart], []⟩ =
        .ok (⟨.streamStart, opening.start⟩, behind) := rfl
  have second : next .firstDocument behind = .ok (⟨.documentStart, t.start⟩, inside) := by
    simp only [next, firstDocument, peek, behind, List.cons_append, bind, Except.bind, outside,
      Bool.false_eq_true, if_false]
    rfl
  have third : Emits inside b.events after :=
    Opens.emits (e := .blockNode) rfl ((readsBlock b).whole (r := inside.leave) rfl kinds false)
  have fourth : ∃ mark, next .documentEnd after = .ok (⟨.documentEnd, mark⟩,
      ⟨[closing], halt, [.document], standardHandles⟩) := by
    cases marked with
    | true =>
      obtain ⟨dots, rfl, kind⟩ := List.map_eq_singleton_iff.mp ends
      refine ⟨dots.start, ?_⟩
      simp only [next, peek, after, List.singleton_append, bind, Except.bind, kind,
        beq_self_eq_true, if_true]
      rfl
    | false =>
      obtain rfl : last = [] := List.map_eq_nil_iff.mp ends
      have other : (TokenKind.streamEnd == .documentEnd) = false := rfl
      refine ⟨closing.start, ?_⟩
      simp only [next, peek, after, List.nil_append, bind, Except.bind, ended, other,
        Bool.false_eq_true, if_false]
      rfl
  obtain ⟨mark, fourth⟩ := fourth
  have opened := (emits_next rfl first (by simp)).trans (emits_next rfl second (by simp))
  exact (opened.trans third).trans (emits_next rfl fourth (by simp))

end Reading

/-- The events of a text with the tokens of a document in block style are those of the document. -/
theorem events_block {text : List Char} {b : Block} {marked : Bool} (halt : (tokens text).halt = none)
    (kinds : (tokens text).items.map (·.kind) =
      .streamStart :: (b.tokens ++ (Reading.ending marked ++ [.streamEnd]))) :
    (events text).halt = none ∧ (events text).items.map (·.kind) =
      .streamStart :: .documentStart :: (b.events ++ [.documentEnd, .streamEnd]) := by
  obtain ⟨opening, _, items, -, behind⟩ := List.map_eq_cons_iff.mp kinds
  obtain ⟨ts, _, rfl, inner, ends⟩ := List.map_eq_append_iff.mp behind
  obtain ⟨last, _, rfl, dots, closes⟩ := List.map_eq_append_iff.mp ends
  obtain ⟨closing, rfl, ended⟩ := List.map_eq_singleton_iff.mp closes
  obtain ⟨-, emits⟩ := Reading.emits_document opening inner dots ended none
  have count : ts.length = b.tokens.length := by simpa using congrArg List.length inner
  have short := b.length_events
  simp only [events, halt, items]
  obtain ⟨rest, enough⟩ : ∃ rest, 4 * (opening :: (ts ++ (last ++ [closing]))).length + 8 =
      (EventKind.streamStart :: .documentStart :: (b.events ++ [.documentEnd])).length +
        (rest + 1) := by
    refine ⟨4 * (opening :: (ts ++ (last ++ [closing]))).length + 8 - b.events.length - 4, ?_⟩
    simp
    omega
  obtain ⟨front, own, run⟩ := emits (rest + 1)
  rw [enough, run, Reading.run_streamEnd ended]
  exact ⟨rfl, by simp [own]⟩

end LiveDoc.Yaml
