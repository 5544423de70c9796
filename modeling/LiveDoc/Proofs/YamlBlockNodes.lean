import LiveDoc.Proofs.YamlBlockEvents
import LiveDoc.Proofs.YamlComposing

/-!
# Nodes of text in block style

The events of a document in block style compose a node of its shape, as those in flow style do. Keys may
be plain there, too.
-/

namespace LiveDoc.Yaml

namespace Block

/-- The tag of a scalar: that of its text if it is plain, and that of strings if it is quoted. -/
def scalarTag (s : String) (plain : Bool) : String :=
  if plain then Schema.tagOf s else Schema.tag "str"

mutual

/-- Whether a node is that of a document, wherever its parts start. -/
def Composes : Block → Node → Prop
  | .scalar s plain, .scalar tag t _ => tag = scalarTag s plain ∧ t = s
  | .sequence bs, .sequence tag ns _ => tag = Schema.tag "seq" ∧ ComposeItems bs ns
  | .mapping es, .mapping tag ns _ => tag = Schema.tag "map" ∧ ComposeEntries es ns
  | _, _ => False

/-- Whether this holds of items, each with its node. -/
def ComposeItems : List Block → List Node → Prop
  | [], [] => True
  | b :: bs, n :: ns => b.Composes n ∧ ComposeItems bs ns
  | _, _ => False

/-- Whether this holds of entries, each with the nodes of its key and value. -/
def ComposeEntries : List (BlockKey × Block) → List (Node × Node) → Prop
  | [], [] => True
  | (k, b) :: es, (n, v) :: ns =>
    (∃ mark, n = .scalar (scalarTag k.text k.plain) k.text mark) ∧ b.Composes v ∧ ComposeEntries es ns
  | _, _ => False

end

end Block

namespace Composing

/-- The events of a document start with no end of a collection. -/
theorem exists_blockStart (b : Block) : ∃ k ks, b.events = k :: ks ∧ k ≠ .sequenceEnd := by
  cases b <;> exact ⟨_, _, rfl, nofun⟩

mutual

/-- A document is composed to a node of its shape. -/
theorem makes_block : ∀ b : Block, Makes b.events b.Composes
  | .scalar _ plain => makes_scalar plain fun _ => ⟨rfl, rfl⟩
  | .sequence bs => (makesItems_block bs).sequence fun _ _ composes => ⟨rfl, composes⟩
  | .mapping es => (makesEntries_block es).mapping fun _ _ composes => ⟨rfl, composes⟩

theorem makesItems_block : ∀ bs : List Block,
    MakesItems (Block.eventsOfItems bs) (Block.ComposeItems bs)
  | [] => makesItems_nil trivial
  | b :: bs => by
    obtain ⟨k, ks, starts, other⟩ := exists_blockStart b
    have item := makes_block b
    rw [Block.eventsOfItems, starts]
    rw [starts] at item
    exact .cons item other (makesItems_block bs) fun _ _ first others => ⟨first, others⟩

theorem makesEntries_block : ∀ es : List (BlockKey × Block),
    MakesEntries (Block.eventsOfEntries es) (Block.ComposeEntries es)
  | [] => makesEntries_nil trivial
  | (k, b) :: es =>
    .cons k.plain (makes_block b) (makesEntries_block es) fun _ _ mark value others =>
      ⟨⟨mark, rfl⟩, value, others⟩

end

end Composing

/-- The node of a text with the tokens of a document in block style. -/
theorem document?_block {text : List Char} {b : Block} {marked : Bool}
    (halt : (tokens text).halt = none)
    (kinds : (tokens text).items.map (·.kind) =
      .streamStart :: (b.tokens ++ (Reading.ending marked ++ [.streamEnd]))) :
    ∃ n, document? text = .ok (some n) ∧ b.Composes n := by
  obtain ⟨none, made⟩ := events_block halt kinds
  exact document?_events none made (Composing.makes_block b)

end LiveDoc.Yaml
