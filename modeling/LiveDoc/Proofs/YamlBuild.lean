import LiveDoc.Proofs.YamlComposing
import LiveDoc.Proofs.YamlPlain

/-!
# Values of plain nodes

A node of scalars, sequences and mappings whose keys are strings has a value: nothing in it is refused,
and no key is merged. No entry replaces another one if all the keys differ.
-/

namespace LiveDoc.Yaml

/-- Entries with further ones added to them one after the other. -/
def Build.gathered (before fs : Entries) : Entries :=
  fs.foldl (fun es e => Build.insert e.1 e.2 es) before

mutual

/-- Whether a node has no other tags than those of flow style, and has a value if its scalars do. -/
def Built : Node → Value → Prop
  | .scalar tag s mark, w => Build.collection? tag = none ∧ Build.leaf (.scalar tag s mark) = .ok w
  | .sequence tag ns _, w => tag = Schema.tag "seq" ∧ ∃ ws, w = .list ws ∧ BuiltItems ns ws
  | .mapping tag es _, w => tag = Schema.tag "map" ∧ ∃ fs, w = .mapping (Build.gathered [] fs) ∧
    BuiltEntries es fs

/-- Whether this holds of items. -/
def BuiltItems : List Node → List Value → Prop
  | [], ws => ws = []
  | n :: ns, ws => ∃ w others, ws = w :: others ∧ Built n w ∧ BuiltItems ns others

/-- Whether this holds of entries, and their keys are strings. -/
def BuiltEntries : List (Node × Node) → List (Value × Value) → Prop
  | [], fs => fs = []
  | (k, n) :: es, fs => ∃ s mark w others, k = .scalar (Schema.tag "str") s mark ∧
    fs = (.text s, w) :: others ∧ Built n w ∧ BuiltEntries es others

end

namespace Build

variable {n : Node} {w : Value} {s : String} {mark start : Mark}

/-! ## Tags -/

theorem collection?_seq : collection? (Schema.tag "seq") = some .sequence := by
  simp [collection?]

theorem collection?_map : collection? (Schema.tag "map") = some .mapping := by
  have other : (Schema.tag "map" == Schema.tag "seq") = false :=
    beq_false_of_ne fun same => absurd (tag_inj.mp same) (by decide)
  simp [collection?, List.lookup_cons, other]

theorem collection?_str : collection? (Schema.tag "str") = none := by
  decide +kernel

/-- No plain text has the tag of a collection. -/
theorem collection?_tagOf (s : String) : collection? (Schema.tagOf s) = none := by
  have names : ∀ p ∈ Schema.words, collection? (Schema.tag p.2) = none := by decide +kernel
  have others : ∀ name ∈ ["null", "float", "int", "timestamp", "str"],
      collection? (Schema.tag name) = none := by decide +kernel
  rw [Schema.tagOf]
  unfold Schema.typeName
  simp only
  split
  · rename_i name found
    obtain ⟨front, back, known, -⟩ := List.lookup_eq_some_iff.mp found
    exact names (String.ofList (Schema.withoutFinalBreak s.toList), name) (by rw [known]; simp)
  · repeat' split
    all_goals exact others _ (by simp)

/-! ## Looking through -/

theorem look_built (built : Built n w) :
    look n = .ok (if (collection? n.tag).isSome then [n] else []) := by
  cases n with
  | scalar tag s mark =>
    obtain ⟨leafy, read⟩ := built
    have leafy : collection? (Node.scalar tag s mark).tag = none := leafy
    simp only [look, leafy, read, bind, Except.bind]
    rfl
  | sequence tag ns mark =>
    obtain ⟨rfl, -⟩ := built
    have kind : collection? (Node.sequence (Schema.tag "seq") ns mark).tag = some .sequence :=
      collection?_seq
    simp only [look, kind]
    rfl
  | mapping tag es mark =>
    obtain ⟨rfl, -⟩ := built
    have kind : collection? (Node.mapping (Schema.tag "map") es mark).tag = some .mapping :=
      collection?_map
    simp only [look, kind]
    rfl

/-- Whether all nodes of a level are built. -/
def Level (ns : List Node) : Prop := ∀ n ∈ ns, ∃ w, Built n w

theorem exists_look (built : Built n w) : ∃ ns, look n = .ok ns ∧ Level ns := by
  refine ⟨_, look_built built, ?_⟩
  split
  · rintro n' inside
    obtain rfl := List.mem_singleton.mp inside
    exact ⟨w, built⟩
  · nofun

theorem level_append {ns ms : List Node} (first : Level ns) (second : Level ms) :
    Level (ns ++ ms) := fun n inside => (List.mem_append.mp inside).elim (first n) (second n)

theorem exists_lookAll {ns : List Node} {ws : List Value} (built : BuiltItems ns ws) :
    ∃ ms, lookAll ns = .ok ms ∧ Level ms := by
  induction ns generalizing ws with
  | nil => exact ⟨[], rfl, nofun⟩
  | cons n ns ih =>
    obtain ⟨w, others, rfl, own, built⟩ := built
    obtain ⟨front, look, first⟩ := exists_look own
    obtain ⟨back, looks, second⟩ := ih built
    refine ⟨front ++ back, ?_, level_append first second⟩
    simp only [lookAll, look, looks, bind, Except.bind]

theorem look_key (s : String) (mark : Mark) : look (.scalar (Schema.tag "str") s mark) = .ok [] :=
  look_built (w := .text s) ⟨collection?_str, leaf_str⟩

theorem exists_lookEntries (start : Mark) {es : List (Node × Node)} {fs : List (Value × Value)}
    (built : BuiltEntries es fs) : ∃ ms, lookEntries start es = .ok ms ∧ Level ms := by
  induction es generalizing fs with
  | nil => exact ⟨[], rfl, nofun⟩
  | cons e es ih =>
    obtain ⟨s, mark, w, others, key, -, own, built⟩ := built
    obtain ⟨k, n⟩ := e
    obtain rfl := key
    obtain ⟨front, look, first⟩ := exists_look own
    obtain ⟨back, looks, second⟩ := ih built
    have leafy : collection? (Node.scalar (Schema.tag "str") s mark).tag = none := collection?_str
    refine ⟨front ++ back, ?_, level_append first second⟩
    simp only [lookEntries, look_key, leafy, look, looks, bind, Except.bind]
    rfl

/-- A mapping without merge keys has its own entries. -/
theorem flatten_built {es : List (Node × Node)} {fs : List (Value × Value)}
    (built : BuiltEntries es fs) : Node.flatten start es = .ok ([], es) := by
  induction es generalizing fs with
  | nil => rfl
  | cons e es ih =>
    obtain ⟨s, mark, w, others, key, -, -, built⟩ := built
    obtain ⟨k, n⟩ := e
    obtain rfl := key
    have merge : (Node.scalar (Schema.tag "str") s mark).tag ≠ Node.mergeTag := fun same =>
      absurd (tag_inj.mp same) (by decide)
    have value : Schema.tag "str" ≠ Node.valueTag := fun same =>
      absurd (tag_inj.mp same) (by decide)
    simp only [Node.flatten, if_neg merge, ih built, bind, Except.bind, Node.plainKey, if_neg value]

theorem entries_built {es : List (Node × Node)} {fs : List (Value × Value)} {tag : String}
    (built : BuiltEntries es fs) : (Node.mapping tag es mark).entries = .ok es := by
  simp only [Node.entries, flatten_built built, bind, Except.bind, List.nil_append]

theorem exists_lookInto (built : Built n w) : ∃ ms, lookInto n = .ok ms ∧ Level ms := by
  cases n with
  | scalar tag s mark =>
    have leafy : collection? (Node.scalar tag s mark).tag = none := built.1
    exact ⟨[], by simp only [lookInto, leafy], nofun⟩
  | sequence tag ns mark =>
    obtain ⟨rfl, ws, rfl, built⟩ := built
    obtain ⟨ms, looks, level⟩ := exists_lookAll built
    have kind : collection? (Node.sequence (Schema.tag "seq") ns mark).tag = some .sequence :=
      collection?_seq
    exact ⟨ms, by simp only [lookInto, kind, Node.items, looks, bind, Except.bind], level⟩
  | mapping tag es mark =>
    obtain ⟨rfl, fs, rfl, built⟩ := built
    obtain ⟨ms, looks, level⟩ := exists_lookEntries mark built
    have kind : collection? (Node.mapping (Schema.tag "map") es mark).tag = some .mapping :=
      collection?_map
    refine ⟨ms, ?_, level⟩
    simp only [lookInto, kind, entries_built built, bind, Except.bind]
    exact looks

theorem exists_lookIntoAll {ns : List Node} (level : Level ns) :
    ∃ ms, lookIntoAll ns = .ok ms ∧ Level ms := by
  induction ns with
  | nil => exact ⟨[], rfl, nofun⟩
  | cons n ns ih =>
    obtain ⟨w, built⟩ := level n List.mem_cons_self
    obtain ⟨front, look, first⟩ := exists_lookInto built
    obtain ⟨back, looks, second⟩ := ih fun m inside => level m (List.mem_cons_of_mem n inside)
    refine ⟨front ++ back, ?_, level_append first second⟩
    simp only [lookIntoAll, look, looks, bind, Except.bind]

/-- Nothing is refused on any level. -/
theorem lookThrough_built {ns : List Node} (fuel : Nat) (level : Level ns) :
    lookThrough fuel ns = .ok () := by
  induction fuel generalizing ns with
  | zero => rfl
  | succ fuel ih =>
    obtain ⟨ms, looks, next⟩ := exists_lookIntoAll level
    rw [lookThrough, looks]
    split
    · rfl
    · exact ih next

/-! ## Values -/

/-- A text that is no key yet is added behind the other entries. -/
theorem insert_text {before : Entries} (value : Value)
    (others : ∀ e ∈ before, ∃ t, e.1 = .text t ∧ t ≠ s) :
    insert (.text s) value before = before ++ [(.text s, value)] := by
  induction before with
  | nil => rfl
  | cons e before ih =>
    obtain ⟨t, key, differs⟩ := others e List.mem_cons_self
    have other : sameKey (.text s) (.text t) = false := by
      have unequal : (s == t) = false := beq_false_of_ne (Ne.symm differs)
      simp [sameKey, Value.eqv, unequal]
    simp only [insert, key, other, Bool.false_eq_true, if_false, List.cons_append,
      ih fun e inside => others e (List.mem_cons_of_mem _ inside)]

theorem gathered_append {before fs : Entries} (texts : ∀ e ∈ before ++ fs, ∃ t, e.1 = .text t)
    (distinct : ((before ++ fs).map (·.1)).Nodup) : gathered before fs = before ++ fs := by
  induction fs generalizing before with
  | nil => rw [List.append_nil]; rfl
  | cons f fs ih =>
    obtain ⟨s, key⟩ := texts f (List.mem_append_right _ List.mem_cons_self)
    rw [List.append_cons] at texts distinct ⊢
    have added : insert f.1 f.2 before = before ++ [f] := by
      rw [← Prod.eta f, key]
      refine insert_text f.2 fun e inside => ?_
      obtain ⟨t, text⟩ := texts e (List.mem_append_left _ (List.mem_append_left _ inside))
      refine ⟨t, text, ?_⟩
      rintro rfl
      rw [List.map_append, List.map_append] at distinct
      have apart := List.disjoint_of_nodup_append (List.nodup_append.mp distinct).1
      exact apart (List.mem_map_of_mem inside) (by simp [text, key])
    exact (congrArg (gathered · fs) added).trans (ih texts distinct)

/-- Entries whose keys are different texts are all added. -/
theorem gathered_texts {fs : Entries} (texts : ∀ k ∈ fs.map (·.1), ∃ t, k = .text t)
    (distinct : (fs.map (·.1)).Nodup) : gathered [] fs = fs :=
  @gathered_append [] fs (fun _ inside => texts _ (List.mem_map_of_mem inside)) distinct

/-- An entry is added, or replaces another one. -/
theorem insert_length (key value : Value) (before : Entries) :
    insert key value before = before ++ [(key, value)] ∨
      (insert key value before).length = before.length := by
  induction before with
  | nil => exact .inl rfl
  | cons e before ih =>
    rw [insert]
    split
    · exact .inr rfl
    · rcases ih with added | replaced
      · exact .inl (congrArg (e :: ·) added)
      · exact .inr (congrArg (· + 1) replaced)

theorem gathered_length (before fs : Entries) :
    (gathered before fs).length ≤ before.length + fs.length := by
  induction fs generalizing before with
  | nil => exact Nat.le_refl _
  | cons f fs ih =>
    have others := ih (insert f.1 f.2 before)
    change (gathered (insert f.1 f.2 before) fs).length ≤ _
    rcases insert_length f.1 f.2 before with added | replaced
    · rw [added, List.length_append, List.length_singleton] at others
      rw [List.length_cons, added]
      omega
    · rw [List.length_cons]
      omega

/-- If none of the entries is lost, they are all added. -/
theorem gathered_of_length {before fs : Entries}
    (all : (gathered before fs).length = before.length + fs.length) :
    gathered before fs = before ++ fs := by
  induction fs generalizing before with
  | nil => rw [List.append_nil]; rfl
  | cons f fs ih =>
    have bound := gathered_length (insert f.1 f.2 before) fs
    change (gathered (insert f.1 f.2 before) fs).length = _ at all
    change gathered (insert f.1 f.2 before) fs = _
    rw [List.length_cons] at all
    rcases insert_length f.1 f.2 before with added | replaced
    · rw [added] at all ⊢
      rw [ih (by rw [all, List.length_append, List.length_singleton]; omega), List.append_assoc]
      rfl
    · omega

theorem value_key {fuel : Nat} (levels : 0 < fuel) (s : String) (mark : Mark) :
    value fuel (.scalar (Schema.tag "str") s mark) = .ok (.text s) := by
  obtain ⟨fuel, rfl⟩ := Nat.exists_eq_add_of_le' levels
  have leafy : collection? (Node.scalar (Schema.tag "str") s mark).tag = none := collection?_str
  simp only [value, leafy, leaf_str]

mutual

/-- The value of a node, with fuel for its levels. -/
theorem value_built : ∀ {n : Node} {w : Value} {fuel : Nat}, Built n w → n.depth ≤ fuel →
    value fuel n = .ok w
  | .scalar tag s mark, w, fuel => by
    rintro ⟨leafy, read⟩ levels
    rw [Node.depth] at levels
    obtain ⟨fuel, rfl⟩ := Nat.exists_eq_add_of_le' levels
    have leafy : collection? (Node.scalar tag s mark).tag = none := leafy
    simp only [value, leafy, read]
  | .sequence tag ns mark, w, fuel => by
    rintro ⟨rfl, ws, rfl, built⟩ levels
    rw [Node.depth] at levels
    obtain ⟨fuel, rfl⟩ := Nat.exists_eq_add_of_le' (Nat.le_of_add_right_le levels)
    have kind : collection? (Node.sequence (Schema.tag "seq") ns mark).tag = some .sequence :=
      collection?_seq
    have items : ns.mapM (value fuel) = .ok ws := values_built built (by omega)
    simp only [value, kind, Node.items, items, bind, Except.bind]
  | .mapping tag es mark, w, fuel => by
    rintro ⟨rfl, fs, rfl, built⟩ levels
    rw [Node.depth] at levels
    obtain ⟨fuel, rfl⟩ := Nat.exists_eq_add_of_le' (Nat.le_of_add_right_le levels)
    have kind : collection? (Node.mapping (Schema.tag "map") es mark).tag = some .mapping :=
      collection?_map
    have entries : addEntries (value fuel) es [] = .ok (gathered [] fs) :=
      addEntries_built built (by omega)
    simp only [value, kind, entries_built built, entries, bind, Except.bind]

/-- The values of items. -/
theorem values_built : ∀ {ns : List Node} {ws : List Value} {fuel : Nat}, BuiltItems ns ws →
    Node.depthOfItems ns ≤ fuel → ns.mapM (value fuel) = .ok ws
  | [], ws, fuel => by
    rintro rfl -
    rfl
  | n :: ns, ws, fuel => by
    rintro ⟨w, others, rfl, own, built⟩ levels
    rw [Node.depthOfItems] at levels
    have first := value_built own (le_of_max_le_left levels)
    have rest := values_built built (le_of_max_le_right levels)
    rw [List.mapM_cons, first, rest]
    rfl

/-- The values of entries are added to those before them. -/
theorem addEntries_built : ∀ {es : List (Node × Node)} {fs before : List (Value × Value)}
    {fuel : Nat}, BuiltEntries es fs → Node.depthOfEntries es ≤ fuel →
      addEntries (value fuel) es before = .ok (gathered before fs)
  | [], fs, before, fuel => by
    rintro rfl -
    rfl
  | (k, n) :: es, fs, before, fuel => by
    rintro ⟨s, mark, w, others, rfl, rfl, own, built⟩ levels
    rw [Node.depthOfEntries, Node.depth] at levels
    have key : value fuel (.scalar (Schema.tag "str") s mark) = .ok (.text s) :=
      value_key (by omega) s mark
    have first : value fuel n = .ok w := value_built own (by omega)
    have rest : addEntries (value fuel) es (insert (.text s) w before) =
      .ok (gathered (insert (.text s) w before) others) := addEntries_built built (by omega)
    simp only [addEntries, key, first, rest, bind, Except.bind]
    rfl

end

/-- The value of a document. -/
theorem document_built (built : Built n w) : document n = .ok w := by
  obtain ⟨ns, looks, level⟩ := exists_look built
  have through := lookThrough_built (n.depth + 1) level
  have read := value_built built (Nat.le_add_right n.depth 1)
  simp only [document, looks, through, read, bind, Except.bind]

end Build

end LiveDoc.Yaml
