import LiveDoc.Proofs.YamlHalted

/-!
# Events of text in flow style

A document in flow style is a scalar, or holds its items between brackets or its entries between
braces. The colon of an entry may be out of the reach of its key. If no colon is, the events are those of
the document; else they stop early, at the first colon whose key was given up.
-/

namespace LiveDoc.Yaml

/-- A document in flow style. The keys of its mappings are quoted texts, and for each it is known whether
its colon makes a key of it. -/
inductive Flow where
  | scalar (text : String) (plain : Bool)
  | sequence (items : List Flow)
  | mapping (entries : List (String × Bool × Flow))

namespace Flow

/-- The comma in front of an item or entry that is not the first. -/
def comma (first : Bool) : List TokenKind := if first then [] else [.flowEntry]

mutual

/-- The tokens of a document. -/
def tokens : Flow → List TokenKind
  | .scalar s plain => [.scalar s plain]
  | .sequence fs => .flowSequenceStart :: (tokensOfItems true fs ++ [.flowSequenceEnd])
  | .mapping es => .flowMappingStart :: (tokensOfEntries true es ++ [.flowMappingEnd])

/-- The tokens of items, from the first one or a later one on. -/
def tokensOfItems (first : Bool) : List Flow → List TokenKind
  | [] => []
  | f :: fs => comma first ++ (f.tokens ++ tokensOfItems false fs)

/-- The tokens of entries. A text that its colon makes a key of has a mark in front. -/
def tokensOfEntries (first : Bool) : List (String × Bool × Flow) → List TokenKind
  | [] => []
  | (k, reached, f) :: es =>
    comma first ++ ((if reached then [.key] else []) ++
      .scalar k false :: .value :: (f.tokens ++ tokensOfEntries false es))

end

mutual

/-- Whether every colon makes a key. -/
def reached : Flow → Bool
  | .scalar _ _ => true
  | .sequence fs => reachedItems fs
  | .mapping es => reachedEntries es

/-- Whether this holds of all items. -/
def reachedItems : List Flow → Bool
  | [] => true
  | f :: fs => f.reached && reachedItems fs

/-- Whether this holds of all entries. -/
def reachedEntries : List (String × Bool × Flow) → Bool
  | [] => true
  | (_, reached, f) :: es => reached && f.reached && reachedEntries es

end

mutual

/-- The events of a document. -/
def events : Flow → List EventKind
  | .scalar s plain => [.scalar none (if plain then .byText else .byKind) s]
  | .sequence fs => .sequenceStart none .byKind :: (eventsOfItems fs ++ [.sequenceEnd])
  | .mapping es => .mappingStart none .byKind :: (eventsOfEntries es ++ [.mappingEnd])

/-- The events of items. -/
def eventsOfItems : List Flow → List EventKind
  | [] => []
  | f :: fs => f.events ++ eventsOfItems fs

/-- The events of entries. -/
def eventsOfEntries : List (String × Bool × Flow) → List EventKind
  | [] => []
  | (k, _, f) :: es => .scalar none .byKind k :: (f.events ++ eventsOfEntries es)

end

end Flow

namespace Reading

/-- The reading with other tokens ahead and other expectations. -/
abbrev move (r : Reading) (tokens : List Token) (expecting : List Expecting) : Reading :=
  { r with tokens := tokens, expecting := expecting }

variable {r : Reading} {more : List Token} {start stop mark : Mark}

/-! ## Nodes without properties -/

theorem node_scalar (inBlock loose : Bool) {s : String} {plain : Bool}
    (ahead : r.tokens = ⟨.scalar s plain, start, stop⟩ :: more) :
    node inBlock loose r = .ok (⟨.scalar none (if plain then .byText else .byKind) s, start⟩,
      r.move more r.expecting) := by
  unfold node properties
  simp only [peek, ahead, bind, Except.bind, Properties.add?, tagName]
  simp [found, scalarTag, advance, ahead]

theorem node_sequence (inBlock loose : Bool)
    (ahead : r.tokens = ⟨.flowSequenceStart, start, stop⟩ :: more) :
    node inBlock loose r = .ok (⟨.sequenceStart none .byKind, start⟩,
      r.move more (.flowItem start true :: r.expecting)) := by
  unfold node properties
  simp only [peek, ahead, bind, Except.bind, Properties.add?, tagName]
  simp [found, collectionTag, advance, enter, ahead]

theorem node_mapping (inBlock loose : Bool)
    (ahead : r.tokens = ⟨.flowMappingStart, start, stop⟩ :: more) :
    node inBlock loose r = .ok (⟨.mappingStart none .byKind, start⟩,
      r.move more (.flowKey start true :: r.expecting)) := by
  unfold node properties
  simp only [peek, ahead, bind, Except.bind, Properties.add?, tagName]
  simp [found, collectionTag, advance, enter, ahead]

/-! ## Runs -/

/-- A run makes events of these kinds on its way to another reading. -/
def Emits (r : Reading) (ks : List EventKind) (r' : Reading) : Prop :=
  .streamEnd ∉ ks ∧ ∀ fuel, ∃ items, items.map (·.kind) = ks ∧
    run (ks.length + fuel) r = ⟨items ++ (run fuel r').items, (run fuel r').halt⟩

/-- With enough fuel a run stops early. -/
def Fails (r : Reading) (width : Nat) : Prop := ∀ fuel, width ≤ fuel → Broken (run fuel r)

/-- A run makes events of these kinds on its way to another reading if all is well, and stops early
otherwise. -/
structure Proceeds (r : Reading) (well : Bool) (ks : List EventKind) (width : Nat) (r' : Reading) :
    Prop where
  fits : ks.length ≤ width
  emits : well = true → Emits r ks r'
  fails : well = false → Fails r width

/-- The outcome of a step is an event with a reading that proceeds. -/
def Yields (outcome : Except Halt (Event × Reading)) (well : Bool) (ks : List EventKind)
    (width : Nat) (r' : Reading) : Prop :=
  ∃ event next ks' width', outcome = .ok (event, next) ∧ ks = event.kind :: ks' ∧
    width = width' + 1 ∧ event.kind ≠ .streamEnd ∧ Proceeds next well ks' width' r'

variable {r' r'' : Reading} {ks ls : List EventKind} {width wide : Nat} {well sound : Bool}
  {e : Expecting} {es : List Expecting} {event : Event}

theorem Emits.refl (r : Reading) : Emits r [] r :=
  ⟨by simp, fun fuel => ⟨[], rfl, by simp⟩⟩

theorem Emits.trans (first : Emits r ks r') (second : Emits r' ls r'') : Emits r (ks ++ ls) r'' := by
  refine ⟨by simp [first.1, second.1], fun fuel => ?_⟩
  obtain ⟨others, kinds, later⟩ := second.2 fuel
  obtain ⟨items, own, run⟩ := first.2 (ls.length + fuel)
  refine ⟨items ++ others, by simp [own, kinds], ?_⟩
  rw [List.length_append, Nat.add_assoc, run, later, List.append_assoc]

theorem Emits.fails (emits : Emits r ks r') (fails : Fails r' width) :
    Fails r (ks.length + width) := by
  intro fuel enough
  obtain ⟨rest, rfl⟩ := Nat.exists_eq_add_of_le (Nat.le_trans (Nat.le_add_right _ _) enough)
  obtain ⟨items, own, run⟩ := emits.2 rest
  obtain ⟨halted, clean⟩ := fails rest (by omega)
  rw [run]
  refine ⟨halted, fun event inside => ?_⟩
  rcases List.mem_append.mp inside with front | back
  · intro same
    exact emits.1 (own ▸ same ▸ List.mem_map_of_mem front)
  · exact clean event back

theorem Fails.widen (fails : Fails r width) (le : width ≤ wide) : Fails r wide :=
  fun fuel enough => fails fuel (Nat.le_trans le enough)

theorem emits_next (expecting : r.expecting = e :: es) (next : next e r = .ok (event, r'))
    (inner : event.kind ≠ .streamEnd) : Emits r [event.kind] r' := by
  refine ⟨by simpa using Ne.symm inner, fun fuel => ⟨[event], rfl, ?_⟩⟩
  rw [List.length_singleton, Nat.add_comm, run, expecting]
  simp only [next]
  rfl

theorem fails_next {h : Halt} (expecting : r.expecting = e :: es) (next : next e r = .error h) :
    Fails r 1 := by
  intro fuel enough
  obtain ⟨rest, rfl⟩ := Nat.exists_eq_add_of_le' enough
  rw [run, expecting]
  simp only [next]
  exact ⟨⟨h, rfl⟩, by simp⟩

namespace Proceeds

theorem widen (proceeds : Proceeds r well ks width r') (le : width ≤ wide) :
    Proceeds r well ks wide r' :=
  ⟨Nat.le_trans proceeds.fits le, proceeds.emits, fun bad => (proceeds.fails bad).widen le⟩

theorem of_emits (emits : Emits r ks r') : Proceeds r true ks ks.length r' :=
  ⟨Nat.le_refl _, fun _ => emits, nofun⟩

theorem trans (first : Proceeds r well ks width r') (second : Proceeds r' sound ls wide r'') :
    Proceeds r (well && sound) (ks ++ ls) (width + wide) r'' := by
  have short := first.fits
  have shorter := second.fits
  refine ⟨by simp; omega, fun good => ?_, fun bad => ?_⟩
  · obtain ⟨good, fine⟩ := Bool.and_eq_true_iff.mp good
    exact (first.emits good).trans (second.emits fine)
  · cases well with
    | true => exact ((first.emits rfl).fails (second.fails bad)).widen (by omega)
    | false => exact (first.fails rfl).widen (by omega)

theorem of_next (expecting : r.expecting = e :: es) (yields : Yields (next e r) well ks width r') :
    Proceeds r well ks width r' := by
  obtain ⟨event, behind, ks, width, next, rfl, rfl, inner, proceeds⟩ := yields
  have step := (of_emits (emits_next expecting next inner)).trans proceeds
  simpa [Nat.add_comm] using step

end Proceeds

theorem Yields.fits {outcome : Except Halt (Event × Reading)}
    (yields : Yields outcome well ks width r') : ks.length ≤ width := by
  obtain ⟨event, behind, ks, width, -, rfl, rfl, -, proceeds⟩ := yields
  exact Nat.succ_le_succ proceeds.fits

/-! ## Steps within a collection -/

variable {t colon : Token} {ts gap : List Token} {first : Bool} {k : String}

/-- The comma that an item or entry needs is read. -/
theorem separated_comma (ahead : r.tokens = gap ++ t :: more)
    (commas : gap.map (·.kind) = Flow.comma first) (context : Context) (start : Mark)
    (problem : String → Problem) :
    separated first context start problem r = .ok (r.move (t :: more) r.expecting) := by
  cases first with
  | true =>
    obtain rfl : gap = [] := List.map_eq_nil_iff.mp commas
    rw [separated, if_pos rfl, move, ← List.nil_append (t :: more), ← ahead]
  | false =>
    obtain ⟨c, rfl, comma⟩ : ∃ c, gap = [c] ∧ c.kind = .flowEntry := by
      simpa [Flow.comma, List.map_eq_singleton_iff] using commas
    rw [List.singleton_append] at ahead
    simp only [separated, peek, ahead, comma, bind, Except.bind, Bool.false_eq_true, if_false,
      beq_self_eq_true, if_true, advance, List.tail_cons]

/-- The next token is a comma or what stands behind it. -/
theorem exists_peek (ahead : r.tokens = gap ++ t :: more)
    (commas : gap.map (·.kind) = Flow.comma first) :
    ∃ d, r.peek = .ok d ∧ (d.kind = .flowEntry ∨ d.kind = t.kind) := by
  cases first with
  | true =>
    obtain rfl : gap = [] := List.map_eq_nil_iff.mp commas
    exact ⟨t, by rw [peek, ahead]; rfl, .inr rfl⟩
  | false =>
    obtain ⟨c, rfl, comma⟩ : ∃ c, gap = [c] ∧ c.kind = .flowEntry := by
      simpa [Flow.comma, List.map_eq_singleton_iff] using commas
    exact ⟨c, by rw [peek, ahead]; rfl, .inl comma⟩

theorem next_flowItem (expecting : r.expecting = .flowItem start first :: es)
    (ahead : r.tokens = gap ++ t :: more) (commas : gap.map (·.kind) = Flow.comma first)
    (entry : (t.kind == .key) = false) (item : (t.kind == .flowSequenceEnd) = false) :
    next (.flowItem start first) r = node false false
      (r.move (t :: more) (.flowItem start false :: es)) := by
  obtain ⟨d, here, kind⟩ := exists_peek ahead commas
  have other : (d.kind == .flowSequenceEnd) = false := by
    rcases kind with comma | same
    · rw [comma]
      rfl
    · rw [same, item]
  rw [next, here]
  change flowItem start first r = _
  rw [flowItem, here]
  simp only [bind, Except.bind, other, separated_comma ahead commas, peek, entry, item, expect,
    expecting, Bool.false_eq_true, if_false, List.tail_cons]

theorem next_flowItem_end (expecting : r.expecting = .flowItem start first :: es)
    (ahead : r.tokens = t :: more) (closing : t.kind = .flowSequenceEnd) :
    next (.flowItem start first) r = .ok (⟨.sequenceEnd, t.start⟩, r.move more es) := by
  simp only [next, flowItem, peek, ahead, closing, expecting, bind, Except.bind, beq_self_eq_true,
    if_true, found, advance, leave, List.tail_cons]

theorem next_flowKey_end (expecting : r.expecting = .flowKey start first :: es)
    (ahead : r.tokens = t :: more) (closing : t.kind = .flowMappingEnd) :
    next (.flowKey start first) r = .ok (⟨.mappingEnd, t.start⟩, r.move more es) := by
  simp only [next, flowKey, peek, ahead, closing, expecting, bind, Except.bind, beq_self_eq_true,
    if_true, found, advance, leave, List.tail_cons]

/-- What comes in place of a key, unless it ends the mapping, is read behind its comma. -/
theorem next_flowKey (ahead : r.tokens = gap ++ t :: more)
    (commas : gap.map (·.kind) = Flow.comma first) (item : (t.kind == .flowMappingEnd) = false) :
    next (.flowKey start first) r =
      if t.kind == .key then
        nodeUnless endsFlowKey false false (.flowValue start) t (r.move (t :: more) r.expecting)
      else node false false ((r.move (t :: more) r.expecting).expect (.flowEmptyValue start)) := by
  obtain ⟨d, here, kind⟩ := exists_peek ahead commas
  have other : (d.kind == .flowMappingEnd) = false := by
    rcases kind with comma | same
    · rw [comma]
      rfl
    · rw [same, item]
  rw [next, here]
  change flowKey start first r = _
  rw [flowKey, here]
  simp only [bind, Except.bind, other, separated_comma ahead commas, peek, item, Bool.false_eq_true,
    if_false]

theorem next_flowKey_key (expecting : r.expecting = .flowKey start first :: es)
    (ahead : r.tokens = gap ++ t :: ⟨.scalar k false, mark, stop⟩ :: more)
    (commas : gap.map (·.kind) = Flow.comma first) (entry : t.kind = .key) :
    next (.flowKey start first) r = .ok (⟨.scalar none .byKind k, mark⟩,
      r.move more (.flowValue start :: es)) := by
  have scalar : endsFlowKey (.scalar k false) = false := rfl
  have read := node_scalar
    (r := r.move (⟨.scalar k false, mark, stop⟩ :: more) (.flowValue start :: es)) false false rfl
  have keyed : (t.kind == .key) = true := by rw [entry]; rfl
  rw [next_flowKey ahead commas (by rw [entry]; rfl), if_pos keyed]
  simp only [nodeUnless, advance, expect, expecting, peek, scalar, bind, Except.bind,
    Bool.false_eq_true, if_false, List.tail_cons]
  exact read

theorem next_flowKey_scalar (expecting : r.expecting = .flowKey start first :: es)
    (ahead : r.tokens = gap ++ ⟨.scalar k false, mark, stop⟩ :: more)
    (commas : gap.map (·.kind) = Flow.comma first) :
    next (.flowKey start first) r = .ok (⟨.scalar none .byKind k, mark⟩,
      r.move more (.flowEmptyValue start :: es)) := by
  have read := node_scalar
    (r := r.move (⟨.scalar k false, mark, stop⟩ :: more) (.flowEmptyValue start :: es)) false false rfl
  rw [next_flowKey ahead commas rfl]
  simp only [expect, expecting, List.tail_cons]
  exact read

theorem next_flowValue (expecting : r.expecting = .flowValue start :: es)
    (ahead : r.tokens = colon :: t :: more) (value : colon.kind = .value)
    (present : endsFlowValue t.kind = false) :
    next (.flowValue start) r = node false false
      (r.move (t :: more) (.flowKey start false :: es)) := by
  simp only [next, valueOf, nodeUnless, peek, ahead, value, present, expecting, expect, advance, bind,
    Except.bind, Bool.false_eq_true, if_false, if_true, List.tail_cons, beq_self_eq_true]

/-- A colon that makes no key stops the reading. -/
theorem fails_flowEmptyValue (expecting : r.expecting = .flowEmptyValue start :: es)
    (ahead : r.tokens = colon :: more) (value : colon.kind = .value) : Fails r 2 := by
  have empty : next (.flowEmptyValue start) r = .ok (⟨.scalar none .byText "", colon.start⟩,
      r.move r.tokens (.flowKey start false :: es)) := by
    simp only [next, peek, ahead, expecting, expect, Reading.empty, found, bind, Except.bind,
      List.tail_cons]
  have refused : next (.flowKey start false) (r.move r.tokens (.flowKey start false :: es)) =
      refuse .flowMapping start .expectedMappingEnd colon := by
    have closes : (TokenKind.value == .flowMappingEnd) = false := rfl
    have comma : (TokenKind.value == .flowEntry) = false := rfl
    simp only [next, flowKey, separated, peek, ahead, value, closes, comma, bind, Except.bind,
      Bool.false_eq_true, if_false]
    rfl
  exact (emits_next expecting empty (by simp)).fails (fails_next rfl refused)

/-! ## Documents as they are read -/

/-- A document starts with a token of its own. -/
theorem exists_head {f : Flow} (kinds : ts.map (·.kind) = f.tokens) : ∃ t us, ts = t :: us ∧
    (t.kind == .key) = false ∧ (t.kind == .flowSequenceEnd) = false ∧
      endsFlowValue t.kind = false ∧ opensDocument t.kind = false := by
  cases f <;>
  · obtain ⟨t, us, rfl, kind, -⟩ := List.map_eq_cons_iff.mp kinds
    refine ⟨t, us, rfl, ?_⟩
    rw [kind]
    exact ⟨rfl, rfl, rfl, rfl⟩

/-- The tokens of a collection are the inner ones between those of its ends. -/
theorem exists_inner {opening closing : TokenKind} {inner : List TokenKind}
    (kinds : ts.map (·.kind) = opening :: (inner ++ [closing])) : ∃ start stop us t,
      ts = ⟨opening, start, stop⟩ :: (us ++ [t]) ∧ us.map (·.kind) = inner ∧ t.kind = closing := by
  obtain ⟨⟨_, start, stop⟩, _, rfl, rfl, behind⟩ := List.map_eq_cons_iff.mp kinds
  obtain ⟨us, ends, rfl, within, closes⟩ := List.map_eq_append_iff.mp behind
  obtain ⟨t, rfl, closing⟩ := List.map_eq_singleton_iff.mp closes
  exact ⟨start, stop, us, t, rfl, within, closing⟩

/-- A document is read as a node where its tokens are ahead. -/
def ReadsFlow (f : Flow) : Prop :=
  ∀ ⦃r : Reading⦄ ⦃ts more : List Token⦄, r.tokens = ts ++ more → ts.map (·.kind) = f.tokens →
    ∀ inBlock loose,
      Yields (node inBlock loose r) f.reached f.events f.tokens.length (r.move more r.expecting)

/-- Items are read up to the bracket behind them. -/
def ReadsFlowItems (fs : List Flow) : Prop :=
  ∀ ⦃first : Bool⦄ ⦃r : Reading⦄ ⦃ts more : List Token⦄ ⦃t : Token⦄ ⦃start : Mark⦄
    ⦃es : List Expecting⦄, r.tokens = ts ++ t :: more →
    ts.map (·.kind) = Flow.tokensOfItems first fs → t.kind = .flowSequenceEnd →
    r.expecting = .flowItem start first :: es →
      Proceeds r (Flow.reachedItems fs) (Flow.eventsOfItems fs ++ [.sequenceEnd])
        ((Flow.tokensOfItems first fs).length + 1) (r.move more es)

/-- Entries are read up to the brace behind them, or to a colon that makes no key. -/
def ReadsFlowEntries (fs : List (String × Bool × Flow)) : Prop :=
  ∀ ⦃first : Bool⦄ ⦃r : Reading⦄ ⦃ts more : List Token⦄ ⦃t : Token⦄ ⦃start : Mark⦄
    ⦃es : List Expecting⦄, r.tokens = ts ++ t :: more →
    ts.map (·.kind) = Flow.tokensOfEntries first fs → t.kind = .flowMappingEnd →
    r.expecting = .flowKey start first :: es →
      Proceeds r (Flow.reachedEntries fs) (Flow.eventsOfEntries fs ++ [.mappingEnd])
        ((Flow.tokensOfEntries first fs).length + 1) (r.move more es)

variable {f : Flow} {fs : List Flow} {ps : List (String × Bool × Flow)}

theorem ReadsFlow.scalar (s : String) (plain : Bool) : ReadsFlow (.scalar s plain) := by
  intro r ts more ahead kinds inBlock loose
  obtain ⟨⟨_, start, stop⟩, rfl, rfl⟩ := List.map_eq_singleton_iff.mp kinds
  exact ⟨_, _, [], 0, node_scalar inBlock loose ahead, rfl, rfl, nofun, .of_emits (.refl _)⟩

theorem ReadsFlowItems.node (items : ReadsFlowItems fs) : ReadsFlow (.sequence fs) := by
  intro r ts more ahead kinds inBlock loose
  rw [Flow.tokens] at kinds
  obtain ⟨start, stop, inner, t, rfl, within, closing⟩ := exists_inner kinds
  rw [List.cons_append, List.append_assoc] at ahead
  have inside := items (r := r.move (inner ++ t :: more) (.flowItem start true :: r.expecting)) rfl
    within closing rfl
  refine ⟨_, _, _, _, node_sequence inBlock loose ahead, rfl, ?_, nofun, inside⟩
  simp [Flow.tokens]

theorem ReadsFlowEntries.node (entries : ReadsFlowEntries ps) : ReadsFlow (.mapping ps) := by
  intro r ts more ahead kinds inBlock loose
  rw [Flow.tokens] at kinds
  obtain ⟨start, stop, inner, t, rfl, within, closing⟩ := exists_inner kinds
  rw [List.cons_append, List.append_assoc] at ahead
  have inside := entries (r := r.move (inner ++ t :: more) (.flowKey start true :: r.expecting)) rfl
    within closing rfl
  refine ⟨_, _, _, _, node_mapping inBlock loose ahead, rfl, ?_, nofun, inside⟩
  simp [Flow.tokens]

theorem ReadsFlowItems.nil : ReadsFlowItems [] := by
  intro first r ts more t start es ahead kinds closing expecting
  obtain rfl : ts = [] := List.map_eq_nil_iff.mp kinds
  exact .of_emits (emits_next expecting (next_flowItem_end expecting ahead closing) nofun)

theorem ReadsFlowItems.cons (own : ReadsFlow f) (others : ReadsFlowItems fs) :
    ReadsFlowItems (f :: fs) := by
  intro first r ts more t start es ahead kinds closing expecting
  rw [Flow.tokensOfItems] at kinds
  obtain ⟨gap, _, rfl, commas, behind⟩ := List.map_eq_append_iff.mp kinds
  obtain ⟨item, remaining, rfl, within, later⟩ := List.map_eq_append_iff.mp behind
  obtain ⟨head, tail, rfl, keyless, present, -⟩ := exists_head within
  have here : r.tokens = gap ++ head :: (tail ++ (remaining ++ t :: more)) := by simpa using ahead
  have next := next_flowItem expecting here commas keyless present
  have node := own (r := r.move ((head :: tail) ++ (remaining ++ t :: more))
    (.flowItem start false :: es)) rfl within false false
  have rest := others (r := r.move (remaining ++ t :: more) (.flowItem start false :: es)) rfl later
    closing rfl
  have both := (Proceeds.of_next expecting (next ▸ node)).trans rest
  rw [Flow.eventsOfItems, List.append_assoc]
  refine both.widen ?_
  simp [Flow.tokensOfItems]
  omega

theorem ReadsFlowEntries.nil : ReadsFlowEntries [] := by
  intro first r ts more t start es ahead kinds closing expecting
  obtain rfl : ts = [] := List.map_eq_nil_iff.mp kinds
  exact .of_emits (emits_next expecting (next_flowKey_end expecting ahead closing) nofun)

/-- The tokens of an entry and of those behind it. -/
theorem exists_entryTokens {reached : Bool}
    (kinds : ts.map (·.kind) = Flow.tokensOfEntries first ((k, reached, f) :: ps)) :
    ∃ gap before mark stop colon head tail others,
      ts = gap ++ (before ++ ⟨.scalar k false, mark, stop⟩ :: colon :: ((head :: tail) ++ others)) ∧
        gap.map (·.kind) = Flow.comma first ∧
        before.map (·.kind) = (if reached then [.key] else []) ∧ colon.kind = .value ∧
        (head :: tail).map (·.kind) = f.tokens ∧ endsFlowValue head.kind = false ∧
        others.map (·.kind) = Flow.tokensOfEntries false ps := by
  rw [Flow.tokensOfEntries] at kinds
  obtain ⟨gap, _, rfl, commas, entry⟩ := List.map_eq_append_iff.mp kinds
  obtain ⟨before, _, rfl, keys, named⟩ := List.map_eq_append_iff.mp entry
  obtain ⟨⟨_, mark, stop⟩, _, rfl, rfl, valued⟩ := List.map_eq_cons_iff.mp named
  obtain ⟨colon, _, rfl, value, behind⟩ := List.map_eq_cons_iff.mp valued
  obtain ⟨item, others, rfl, within, later⟩ := List.map_eq_append_iff.mp behind
  obtain ⟨head, tail, rfl, -, -, present, -⟩ := exists_head within
  exact ⟨gap, before, mark, stop, colon, head, tail, others, rfl, commas, keys, value, within,
    present, later⟩

/-- An entry whose colon makes a key. -/
theorem ReadsFlowEntries.reached (k : String) (own : ReadsFlow f) (others : ReadsFlowEntries ps) :
    ReadsFlowEntries ((k, true, f) :: ps) := by
  intro first r ts more t start es ahead kinds closing expecting
  obtain ⟨gap, _, mark, stop, colon, head, tail, remaining, rfl, commas, keys, value, within, present,
    later⟩ := exists_entryTokens kinds
  obtain ⟨key, rfl, marked⟩ := List.map_eq_singleton_iff.mp keys
  have here : r.tokens = gap ++ key :: ⟨.scalar k false, mark, stop⟩ ::
      (colon :: head :: (tail ++ (remaining ++ t :: more))) := by simpa using ahead
  have first := next_flowKey_key expecting here commas marked
  have second := next_flowValue (r := r.move (colon :: head :: (tail ++ (remaining ++ t :: more)))
    (.flowValue start :: es)) rfl rfl value present
  have node := own (r := r.move ((head :: tail) ++ (remaining ++ t :: more))
    (.flowKey start false :: es)) rfl within false false
  have rest := others (r := r.move (remaining ++ t :: more) (.flowKey start false :: es)) rfl later
    closing rfl
  have all := ((Proceeds.of_emits (emits_next expecting first nofun)).trans
    (.of_next rfl (second ▸ node))).trans rest
  rw [Flow.eventsOfEntries, List.cons_append, List.append_assoc]
  refine all.widen ?_
  simp [Flow.tokensOfEntries]
  omega

/-- An entry whose colon makes no key stops the reading. -/
theorem ReadsFlowEntries.unreached (k : String) (own : ReadsFlow f) (others : ReadsFlowEntries ps) :
    ReadsFlowEntries ((k, false, f) :: ps) := by
  intro first r ts more t start es ahead kinds closing expecting
  obtain ⟨gap, _, mark, stop, colon, head, tail, remaining, rfl, commas, keys, value, within, present,
    later⟩ := exists_entryTokens kinds
  obtain rfl := List.map_eq_nil_iff.mp keys
  have here : r.tokens = gap ++ ⟨.scalar k false, mark, stop⟩ ::
      (colon :: head :: (tail ++ (remaining ++ t :: more))) := by simpa using ahead
  have first := next_flowKey_scalar expecting here commas
  have fails := (emits_next expecting first nofun).fails (fails_flowEmptyValue rfl rfl value)
  have short := (own (r := r.move ((head :: tail) ++ (remaining ++ t :: more))
    (.flowKey start false :: es)) rfl within false false).fits
  have shorter := (others (r := r.move (remaining ++ t :: more) (.flowKey start false :: es)) rfl later
    closing rfl).fits
  refine ⟨?_, nofun, fun _ => fails.widen ?_⟩
  · simp [Flow.tokensOfEntries, Flow.eventsOfEntries] at shorter ⊢
    omega
  · have present := congrArg List.length within
    simp at present
    simp [Flow.tokensOfEntries]
    omega

mutual

theorem readsFlow : ∀ f : Flow, ReadsFlow f
  | .scalar s plain => .scalar s plain
  | .sequence fs => (readsFlowItems fs).node
  | .mapping ps => (readsFlowEntries ps).node

theorem readsFlowItems : ∀ fs : List Flow, ReadsFlowItems fs
  | [] => .nil
  | f :: fs => .cons (readsFlow f) (readsFlowItems fs)

theorem readsFlowEntries : ∀ ps : List (String × Bool × Flow), ReadsFlowEntries ps
  | [] => .nil
  | (k, true, f) :: ps => .reached k (readsFlow f) (readsFlowEntries ps)
  | (k, false, f) :: ps => .unreached k (readsFlow f) (readsFlowEntries ps)

end

/-- A document in flow style is read between the ends of its stream. -/
theorem proceeds_document {f : Flow} {opening closing : Token} (kinds : ts.map (·.kind) = f.tokens)
    (ended : closing.kind = .streamEnd) (halt : Option Halt) :
    ∃ handles, Proceeds ⟨opening :: (ts ++ [closing]), halt, [.streamStart], []⟩ f.reached
      (.streamStart :: .documentStart :: (f.events ++ [.documentEnd])) (f.tokens.length + 3)
      ⟨[closing], halt, [.document], handles⟩ := by
  obtain ⟨t, us, rfl, -, -, -, marked⟩ := exists_head kinds
  let behind : Reading := ⟨(t :: us) ++ [closing], halt, [.firstDocument], []⟩
  let inside : Reading := ⟨(t :: us) ++ [closing], halt, [.blockNode, .documentEnd], standardHandles⟩
  let after : Reading := ⟨[closing], halt, [.documentEnd], standardHandles⟩
  have first : next .streamStart ⟨opening :: ((t :: us) ++ [closing]), halt, [.streamStart], []⟩ =
      .ok (⟨.streamStart, opening.start⟩, behind) := rfl
  have second : next .firstDocument behind = .ok (⟨.documentStart, t.start⟩, inside) := by
    simp only [next, firstDocument, peek, behind, List.cons_append, bind, Except.bind, marked,
      Bool.false_eq_true, if_false]
    rfl
  have third : Proceeds inside f.reached f.events f.tokens.length after :=
    .of_next (e := .blockNode) rfl (readsFlow f (r := inside.leave) rfl kinds true false)
  have fourth : next .documentEnd after = .ok (⟨.documentEnd, closing.start⟩,
      ⟨[closing], halt, [.document], standardHandles⟩) := by
    have other : (TokenKind.streamEnd == .documentEnd) = false := rfl
    simp only [next, peek, after, bind, Except.bind, ended, other, Bool.false_eq_true, if_false]
    rfl
  have opened := (Proceeds.of_emits (emits_next rfl first nofun)).trans
    (.of_emits (emits_next rfl second nofun))
  have all := (opened.trans third).trans (.of_emits (emits_next rfl fourth nofun))
  have enough : 1 + 1 + f.tokens.length + 1 ≤ f.tokens.length + 3 := by omega
  refine ⟨standardHandles, ?_⟩
  simpa using all.widen enough

/-- The end of the stream is the last event. -/
theorem run_streamEnd {closing : Token} (ended : closing.kind = .streamEnd)
    (handles : List (String × String)) (fuel : Nat) :
    run (fuel + 1) ⟨[closing], none, [.document], handles⟩ =
      ⟨[⟨.streamEnd, closing.start⟩], none⟩ := by
  have last : document ⟨[closing], none, [.document], handles⟩ =
      .ok (⟨.streamEnd, closing.start⟩, ⟨[], none, [], handles⟩) := by
    have other : (TokenKind.streamEnd == .documentEnd) = false := rfl
    simp only [document, List.dropWhile, ended, other, peek, bind, Except.bind, beq_self_eq_true,
      if_true]
    rfl
  have step : next .document ⟨[closing], none, [.document], handles⟩ =
      .ok (⟨.streamEnd, closing.start⟩, ⟨[], none, [], handles⟩) := by
    rw [next]
    exact last
  rw [run]
  simp only [step]
  cases fuel <;> rfl

end Reading

/-- The events of a text with the tokens of a document in flow style: those of the document if every
colon makes a key, and else they stop early. -/
theorem events_flow {text : List Char} {half : Char} {f : Flow} (halt : (tokens text half).halt = none)
    (kinds : (tokens text half).items.map (·.kind) = .streamStart :: (f.tokens ++ [.streamEnd])) :
    (f.reached = true → (events text half).halt = none ∧ (events text half).items.map (·.kind) =
      .streamStart :: .documentStart :: (f.events ++ [.documentEnd, .streamEnd])) ∧
    (f.reached = false → Reading.Broken (events text half)) := by
  obtain ⟨opening, _, items, -, behind⟩ := List.map_eq_cons_iff.mp kinds
  obtain ⟨ts, last, rfl, inner, ends⟩ := List.map_eq_append_iff.mp behind
  obtain ⟨closing, rfl, ended⟩ := List.map_eq_singleton_iff.mp ends
  obtain ⟨handles, proceeds⟩ := Reading.proceeds_document inner ended none
  have count : ts.length = f.tokens.length := by simpa using congrArg List.length inner
  have short := proceeds.fits
  simp only [List.length_cons, List.length_append, List.length_nil] at short
  simp only [events, halt, items]
  constructor
  · intro reached
    obtain ⟨-, emits⟩ := proceeds.emits reached
    obtain ⟨rest, enough⟩ : ∃ rest, 4 * (opening :: (ts ++ [closing])).length + 8 =
        (EventKind.streamStart :: .documentStart :: (f.events ++ [.documentEnd])).length +
          (rest + 1) := by
      refine ⟨4 * (opening :: (ts ++ [closing])).length + 8 - f.events.length - 4, ?_⟩
      simp
      omega
    obtain ⟨front, own, run⟩ := emits (rest + 1)
    rw [enough, run, Reading.run_streamEnd ended]
    exact ⟨rfl, by simp [own]⟩
  · intro missed
    exact proceeds.fails missed _ (by simp; omega)

end LiveDoc.Yaml
