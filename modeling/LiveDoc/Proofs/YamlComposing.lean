import LiveDoc.Proofs.YamlFlow

/-!
# Nodes of text in flow style

The events of a document in flow style compose a node of its shape. The node says of every scalar which
type its text has, or that it is a string because it was quoted.
-/

namespace LiveDoc.Yaml

namespace Flow

mutual

/-- Whether a node is that of a document, wherever its parts start. -/
def Composes : Flow → Node → Prop
  | .scalar s plain, .scalar tag t _ =>
    tag = (if plain then Schema.tagOf s else Schema.tag "str") ∧ t = s
  | .sequence fs, .sequence tag ns _ => tag = Schema.tag "seq" ∧ ComposeItems fs ns
  | .mapping es, .mapping tag ns _ => tag = Schema.tag "map" ∧ ComposeEntries es ns
  | _, _ => False

/-- Whether this holds of items, each with its node. -/
def ComposeItems : List Flow → List Node → Prop
  | [], [] => True
  | f :: fs, n :: ns => f.Composes n ∧ ComposeItems fs ns
  | _, _ => False

/-- Whether this holds of entries, each with the nodes of its key and value. -/
def ComposeEntries : List (String × Bool × Flow) → List (Node × Node) → Prop
  | [], [] => True
  | (k, _, f) :: es, (n, v) :: ns =>
    (∃ mark, n = .scalar (Schema.tag "str") k mark) ∧ f.Composes v ∧ ComposeEntries es ns
  | _, _ => False

end

end Flow

namespace Composing

variable {c d : Composing} {more : List Event} {mark : Mark} {fuel : Nat}

theorem node_scalar {s : String} (plain : Bool)
    (ahead : c.events = ⟨.scalar none (if plain then .byText else .byKind) s, mark⟩ :: more) :
    node (fuel + 1) c = .ok (.scalar (if plain then Schema.tagOf s else Schema.tag "str") s mark,
      { c with events := more }) := by
  unfold node
  simp only [peek, ahead, bind, Except.bind, openAnchor, closeAnchor, advance, List.tail_cons]
  cases plain <;> rfl

theorem node_sequence {ns : List Node}
    (ahead : c.events = ⟨.sequenceStart none .byKind, mark⟩ :: more)
    (read : items fuel c.advance = .ok (ns, d)) :
    node (fuel + 1) c = .ok (.sequence (Schema.tag "seq") ns mark, d) := by
  unfold node
  simp only [peek, ahead, bind, Except.bind, openAnchor, closeAnchor, read]
  rfl

theorem node_mapping {ns : List (Node × Node)}
    (ahead : c.events = ⟨.mappingStart none .byKind, mark⟩ :: more)
    (read : entries fuel c.advance = .ok (ns, d)) :
    node (fuel + 1) c = .ok (.mapping (Schema.tag "map") ns mark, d) := by
  unfold node
  simp only [peek, ahead, bind, Except.bind, openAnchor, closeAnchor, read]
  rfl

theorem items_cons {e : Event} {n : Node} {ns : List Node} {behind : Composing}
    (ahead : c.events = e :: more) (other : e.kind ≠ .sequenceEnd) (first : node fuel c = .ok (n, d))
    (rest : items fuel d = .ok (ns, behind)) : items (fuel + 1) c = .ok (n :: ns, behind) := by
  have here : c.peek = .ok e := by rw [peek, ahead]
  simp only [items, here, bind, Except.bind, if_neg other, first, rest]

theorem entries_cons {e : Event} {k v : Node} {es : List (Node × Node)} {middle behind : Composing}
    (ahead : c.events = e :: more) (other : e.kind ≠ .mappingEnd) (key : node fuel c = .ok (k, d))
    (value : node fuel d = .ok (v, middle)) (rest : entries fuel middle = .ok (es, behind)) :
    entries (fuel + 1) c = .ok ((k, v) :: es, behind) := by
  have here : c.peek = .ok e := by rw [peek, ahead]
  simp only [entries, here, bind, Except.bind, if_neg other, key, value, rest]

theorem items_end {e : Event} (ahead : c.events = e :: more) (ended : e.kind = .sequenceEnd) :
    items (fuel + 1) c = .ok ([], { c with events := more }) := by
  simp only [items, peek, ahead, ended, bind, Except.bind, if_true, advance, List.tail_cons]

theorem entries_end {e : Event} (ahead : c.events = e :: more) (ended : e.kind = .mappingEnd) :
    entries (fuel + 1) c = .ok ([], { c with events := more }) := by
  simp only [entries, peek, ahead, ended, bind, Except.bind, if_true, advance, List.tail_cons]

/-! ## Events that compose nodes of a shape -/

/-- Whether a node of a shape is composed of events of these kinds, whatever follows them. -/
def Makes (ks : List EventKind) (shape : Node → Prop) : Prop :=
  ∀ (c : Composing) (es more : List Event) (fuel : Nat), c.events = es ++ more →
    es.map (·.kind) = ks → ks.length ≤ fuel →
      ∃ n, node fuel c = .ok (n, { c with events := more }) ∧ shape n

/-- Whether the items of a sequence are, up to its end. -/
def MakesItems (ks : List EventKind) (shape : List Node → Prop) : Prop :=
  ∀ (c : Composing) (es more : List Event) (closing : Event) (fuel : Nat),
    c.events = es ++ closing :: more → es.map (·.kind) = ks → closing.kind = .sequenceEnd →
      ks.length < fuel → ∃ ns, items fuel c = .ok (ns, { c with events := more }) ∧ shape ns

/-- Whether the entries of a mapping are, up to its end. -/
def MakesEntries (ks : List EventKind) (shape : List (Node × Node) → Prop) : Prop :=
  ∀ (c : Composing) (es more : List Event) (closing : Event) (fuel : Nat),
    c.events = es ++ closing :: more → es.map (·.kind) = ks → closing.kind = .mappingEnd →
      ks.length < fuel → ∃ ns, entries fuel c = .ok (ns, { c with events := more }) ∧ shape ns

variable {ks js : List EventKind} {shape : Node → Prop}

theorem makes_scalar {s : String} (plain : Bool)
    (holds : ∀ mark, shape (.scalar (if plain then Schema.tagOf s else Schema.tag "str") s mark)) :
    Makes [.scalar none (if plain then .byText else .byKind) s] shape := by
  intro c es more fuel ahead kinds enough
  obtain ⟨⟨_, mark⟩, rfl, rfl⟩ := List.map_eq_singleton_iff.mp kinds
  obtain ⟨fuel, rfl⟩ := Nat.exists_eq_add_of_le' enough
  exact ⟨_, node_scalar plain ahead, holds mark⟩

/-- A collection is what stands between the events that start and end it. -/
theorem exists_inside {es : List Event} {opening closing : EventKind}
    (ahead : c.events = es ++ more) (kinds : es.map (·.kind) = opening :: (ks ++ [closing])) :
    ∃ mark inner last, c.events = ⟨opening, mark⟩ :: (inner ++ last :: more) ∧
      inner.map (·.kind) = ks ∧ last.kind = closing := by
  obtain ⟨⟨_, mark⟩, _, rfl, rfl, behind⟩ := List.map_eq_cons_iff.mp kinds
  obtain ⟨inner, _, rfl, within, ends⟩ := List.map_eq_append_iff.mp behind
  obtain ⟨last, rfl, ended⟩ := List.map_eq_singleton_iff.mp ends
  exact ⟨mark, inner, last, by simp [ahead], within, ended⟩

theorem MakesItems.sequence {shapes : List Node → Prop} (inside : MakesItems ks shapes)
    (holds : ∀ ns mark, shapes ns → shape (.sequence (Schema.tag "seq") ns mark)) :
    Makes (.sequenceStart none .byKind :: (ks ++ [.sequenceEnd])) shape := by
  intro c es more fuel ahead kinds enough
  obtain ⟨mark, inner, last, ahead, within, ended⟩ := exists_inside ahead kinds
  simp only [List.length_cons, List.length_append, List.length_nil] at enough
  obtain ⟨fuel, rfl⟩ := Nat.exists_eq_add_of_le' (Nat.le_trans (Nat.le_add_left 1 _) enough)
  have fits : ks.length < fuel := by omega
  have behind : c.advance.events = inner ++ last :: more := by simp [advance, ahead]
  obtain ⟨ns, read, shaped⟩ := inside _ _ _ _ _ behind within ended fits
  exact ⟨_, node_sequence ahead read, holds ns mark shaped⟩

theorem MakesEntries.mapping {shapes : List (Node × Node) → Prop} (inside : MakesEntries ks shapes)
    (holds : ∀ ns mark, shapes ns → shape (.mapping (Schema.tag "map") ns mark)) :
    Makes (.mappingStart none .byKind :: (ks ++ [.mappingEnd])) shape := by
  intro c es more fuel ahead kinds enough
  obtain ⟨mark, inner, last, ahead, within, ended⟩ := exists_inside ahead kinds
  simp only [List.length_cons, List.length_append, List.length_nil] at enough
  obtain ⟨fuel, rfl⟩ := Nat.exists_eq_add_of_le' (Nat.le_trans (Nat.le_add_left 1 _) enough)
  have fits : ks.length < fuel := by omega
  have behind : c.advance.events = inner ++ last :: more := by simp [advance, ahead]
  obtain ⟨ns, read, shaped⟩ := inside _ _ _ _ _ behind within ended fits
  exact ⟨_, node_mapping ahead read, holds ns mark shaped⟩

theorem makesItems_nil {shapes : List Node → Prop} (holds : shapes []) : MakesItems [] shapes := by
  intro c es more closing fuel ahead kinds ended enough
  obtain rfl : es = [] := List.map_eq_nil_iff.mp kinds
  obtain ⟨fuel, rfl⟩ := Nat.exists_eq_add_of_le' enough
  exact ⟨[], items_end ahead ended, holds⟩

theorem makesEntries_nil {shapes : List (Node × Node) → Prop} (holds : shapes []) :
    MakesEntries [] shapes := by
  intro c es more closing fuel ahead kinds ended enough
  obtain rfl : es = [] := List.map_eq_nil_iff.mp kinds
  obtain ⟨fuel, rfl⟩ := Nat.exists_eq_add_of_le' enough
  exact ⟨[], entries_end ahead ended, holds⟩

/-- An item, whose events start with no end of a sequence, in front of others. -/
theorem MakesItems.cons {shapes whole : List Node → Prop} {k : EventKind} (item : Makes (k :: ks) shape)
    (other : k ≠ .sequenceEnd) (others : MakesItems js shapes)
    (holds : ∀ n ns, shape n → shapes ns → whole (n :: ns)) : MakesItems (k :: ks ++ js) whole := by
  intro c es more closing fuel ahead kinds ended enough
  obtain ⟨own, later, rfl, first, behind⟩ := List.map_eq_append_iff.mp kinds
  obtain ⟨head, tail, rfl, starts, -⟩ := List.map_eq_cons_iff.mp first
  rw [List.length_append] at enough
  obtain ⟨fuel, rfl⟩ := Nat.exists_eq_add_of_le' (Nat.zero_lt_of_lt enough)
  have fits : (k :: ks).length ≤ fuel := by omega
  have rest : js.length < fuel := by
    rw [List.length_cons] at enough
    omega
  rw [List.append_assoc] at ahead
  obtain ⟨n, read, shaped⟩ := item _ _ _ _ ahead first fits
  obtain ⟨ns, readAll, shapedAll⟩ := others { c with events := later ++ closing :: more } _ _ _ _ rfl
    behind ended rest
  exact ⟨n :: ns, items_cons ahead (starts ▸ other) read readAll, holds n ns shaped shapedAll⟩

/-- An entry whose key is a scalar in front of others. -/
theorem MakesEntries.cons {shapes whole : List (Node × Node) → Prop} {s : String} (plain : Bool)
    (value : Makes ks shape) (others : MakesEntries js shapes)
    (holds : ∀ v ns mark, shape v → shapes ns →
      whole ((.scalar (if plain then Schema.tagOf s else Schema.tag "str") s mark, v) :: ns)) :
    MakesEntries (.scalar none (if plain then .byText else .byKind) s :: (ks ++ js)) whole := by
  intro c es more closing fuel ahead kinds ended enough
  obtain ⟨⟨_, mark⟩, _, rfl, rfl, behind⟩ := List.map_eq_cons_iff.mp kinds
  obtain ⟨own, later, rfl, first, behind⟩ := List.map_eq_append_iff.mp behind
  rw [List.length_cons, List.length_append] at enough
  obtain ⟨fuel, rfl⟩ := Nat.exists_eq_add_of_le' (Nat.zero_lt_of_lt enough)
  obtain ⟨less, rfl⟩ := Nat.exists_eq_add_of_le' (show 1 ≤ fuel by omega)
  have fits : ks.length ≤ less + 1 := by omega
  have rest : js.length < less + 1 := by omega
  rw [List.cons_append, List.append_assoc] at ahead
  have key := @node_scalar _ _ _ less _ plain ahead
  obtain ⟨v, read, shaped⟩ := value { c with events := _ ++ (later ++ closing :: more) } _ _ _ rfl
    first fits
  obtain ⟨ns, readAll, shapedAll⟩ := others { c with events := later ++ closing :: more } _ _ _ _ rfl
    behind ended rest
  exact ⟨_, entries_cons ahead nofun key read readAll, holds v ns mark shaped shapedAll⟩

/-! ## Documents in flow style -/

/-- The events of a document start with no end of a collection. -/
theorem exists_start (f : Flow) : ∃ k ks, f.events = k :: ks ∧ k ≠ .sequenceEnd := by
  cases f <;> exact ⟨_, _, rfl, nofun⟩

mutual

/-- A document is composed to a node of its shape. -/
theorem makes_flow : ∀ f : Flow, Makes f.events f.Composes
  | .scalar _ plain => makes_scalar plain fun _ => ⟨rfl, rfl⟩
  | .sequence fs => (makesItems_flow fs).sequence fun _ _ composes => ⟨rfl, composes⟩
  | .mapping es => (makesEntries_flow es).mapping fun _ _ composes => ⟨rfl, composes⟩

theorem makesItems_flow : ∀ fs : List Flow, MakesItems (Flow.eventsOfItems fs) (Flow.ComposeItems fs)
  | [] => makesItems_nil trivial
  | f :: fs => by
    obtain ⟨k, ks, starts, other⟩ := exists_start f
    have item := makes_flow f
    rw [Flow.eventsOfItems, starts]
    rw [starts] at item
    exact .cons item other (makesItems_flow fs) fun _ _ first others => ⟨first, others⟩

theorem makesEntries_flow : ∀ es : List (String × Bool × Flow),
    MakesEntries (Flow.eventsOfEntries es) (Flow.ComposeEntries es)
  | [] => makesEntries_nil trivial
  | (_, _, f) :: es =>
    .cons false (makes_flow f) (makesEntries_flow es) fun _ _ mark value others =>
      ⟨⟨mark, rfl⟩, value, others⟩

end

end Composing

/-- The node of a text with the events of a document, which compose a node of some shape. -/
theorem document?_events {text : List Char} {half : Char} {ks : List EventKind} {shape : Node → Prop}
    (none : (events text half).halt = none) (made : (events text half).items.map (·.kind) =
      .streamStart :: .documentStart :: (ks ++ [.documentEnd, .streamEnd]))
    (makes : Composing.Makes ks shape) : ∃ n, document? text half = .ok (some n) ∧ shape n := by
  obtain ⟨started, _, items, -, behind⟩ := List.map_eq_cons_iff.mp made
  obtain ⟨opening, _, rfl, opens, rest⟩ := List.map_eq_cons_iff.mp behind
  obtain ⟨es, last, rfl, inner, ends⟩ := List.map_eq_append_iff.mp rest
  obtain ⟨closing, _, rfl, -, final⟩ := List.map_eq_cons_iff.mp ends
  obtain ⟨ended, rfl, closed⟩ := List.map_eq_singleton_iff.mp final
  have count : es.length = ks.length := by simpa using congrArg List.length inner
  have fits : ks.length ≤ 2 * (opening :: (es ++ [closing, ended])).length + 2 := by
    simp
    omega
  obtain ⟨n, composed, shaped⟩ :=
    makes ⟨es ++ [closing, ended], Option.none, []⟩ es [closing, ended] _ rfl inner fits
  refine ⟨n, ?_, shaped⟩
  have other : opening.kind ≠ .streamEnd := by
    rw [opens]
    nofun
  simp only [document?, items, none, Composing.peek, bind, Except.bind, Composing.advance,
    List.tail_cons, Composing.document?, if_neg other, composed, if_pos closed]

/-- The node of a text with the tokens of a document in flow style, if every colon makes a key. -/
theorem document?_flow {text : List Char} {half : Char} {f : Flow} (halt : (tokens text half).halt = none)
    (kinds : (tokens text half).items.map (·.kind) = .streamStart :: (f.tokens ++ [.streamEnd]))
    (reached : f.reached = true) : ∃ n, document? text half = .ok (some n) ∧ f.Composes n := by
  obtain ⟨none, made⟩ := (events_flow halt kinds).1 reached
  exact document?_events none made (Composing.makes_flow f)

end LiveDoc.Yaml
