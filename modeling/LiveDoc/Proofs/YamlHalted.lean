import LiveDoc.Proofs.JsonText
import LiveDoc.Yaml.Build

/-!
# Text whose reading stops early

A stage of reading hands on what it found before it stopped. If the tokens stop before the end of the
stream, then so do the events that are made of them, and of such events no node is composed. So a text
whose tokens or events stop early has no value.
-/

namespace LiveDoc.Yaml

open Json (bind_ok)

/-- Whether something is expected of the stream, and not of a document in it. -/
def Expecting.isOuter : Expecting → Bool
  | .streamStart => true
  | .firstDocument => true
  | .document => true
  | .documentEnd => true
  | _ => false

namespace Reading

variable {r r' : Reading} {event : Event} {e : Expecting} {es : List Expecting}

/-! ## Steps within a document -/

/-- A reading that another one may come to while the document is read: some tokens are behind it, and
in front of what was expected before, more may be expected of the document. -/
structure Follows (r r' : Reading) (es : List Expecting) : Prop where
  halt : r'.halt = r.halt
  tokens : ∀ t ∈ r'.tokens, t ∈ r.tokens
  expecting : ∃ inner, r'.expecting = inner ++ es ∧ ∀ e ∈ inner, e.isOuter = false

theorem Follows.refl (r : Reading) : Follows r r r.expecting := ⟨rfl, fun _ => id, [], rfl, by simp⟩

/-- A reading that follows one of some of the tokens. -/
theorem Follows.past {s : Reading} (same : s.halt = r.halt) (part : ∀ t ∈ s.tokens, t ∈ r.tokens)
    (follows : Follows s r' es) : Follows r r' es :=
  ⟨follows.halt.trans same, fun t inside => part t (follows.tokens t inside), follows.expecting⟩

theorem Follows.enter (follows : Follows r r' es) (inner : e.isOuter = false) :
    Follows r (r'.enter e) es := by
  obtain ⟨halt, tokens, front, own, all⟩ := follows
  refine ⟨halt, tokens, e :: front, by simp [Reading.enter, own], fun d inside => ?_⟩
  rcases List.mem_cons.mp inside with rfl | inside
  · exact inner
  · exact all d inside

theorem Follows.advance (follows : Follows r r' es) : Follows r r'.advance es :=
  ⟨follows.halt, fun t inside => follows.tokens t (List.mem_of_mem_tail inside), follows.expecting⟩

theorem Follows.behind (follows : Follows r.advance r' es) : Follows r r' es :=
  ⟨follows.halt, fun t inside => List.mem_of_mem_tail (follows.tokens t inside), follows.expecting⟩

/-- Whether an outcome can only be an event within a document, with a reading that follows. -/
def Inner (r : Reading) (es : List Expecting) (outcome : Except Halt (Event × Reading)) : Prop :=
  ∀ event r', outcome = .ok (event, r') → event.kind ≠ .streamEnd ∧ Follows r r' es

theorem inner_found {kind : EventKind} {mark : Mark} (other : kind ≠ .streamEnd)
    (follows : Follows r r' es) : Inner r es (r'.found kind mark) := by
  rintro event next ended
  obtain ⟨rfl, rfl⟩ := Prod.mk.inj (Except.ok.inj ended)
  exact ⟨other, follows⟩

theorem inner_error (h : Halt) : Inner r es (.error h) := by
  intro event next ended
  cases ended

theorem inner_bind {α : Type} {a : Except Halt α} {f : α → Except Halt (Event × Reading)}
    (inner : ∀ x, a = .ok x → Inner r es (f x)) : Inner r es (a >>= f) := by
  intro event next ended
  obtain ⟨x, first, second⟩ := bind_ok ended
  exact inner x first event next second

theorem Inner.past {s : Reading} {outcome : Except Halt (Event × Reading)} (same : s.halt = r.halt)
    (part : ∀ t ∈ s.tokens, t ∈ r.tokens) (inner : Inner s es outcome) : Inner r es outcome :=
  fun event next ended => ⟨(inner event next ended).1, (inner event next ended).2.past same part⟩

/-- The anchor and tag in front of a node are tokens only. -/
theorem follows_properties (fuel : Nat) {ps qs : Properties}
    (read : properties fuel ps r = .ok (qs, r')) :
    Follows r r' r.expecting ∧ r'.expecting = r.expecting := by
  induction fuel generalizing r ps with
  | zero =>
    obtain ⟨rfl, rfl⟩ := Prod.mk.inj (Except.ok.inj read)
    exact ⟨.refl _, rfl⟩
  | succ fuel ih =>
    obtain ⟨t, -, read⟩ := bind_ok read
    cases added : ps.add? t with
    | none =>
      simp only [added] at read
      obtain ⟨rfl, rfl⟩ := Prod.mk.inj (Except.ok.inj read)
      exact ⟨.refl _, rfl⟩
    | some more =>
      simp only [added] at read
      obtain ⟨follows, same⟩ := ih read
      exact ⟨follows.behind, same⟩

/-- A node is an event within a document. -/
theorem inner_node (inBlock loose : Bool) (r : Reading) :
    Inner r r.expecting (node inBlock loose r) := by
  unfold node
  refine inner_bind fun t _ => ?_
  split
  · exact inner_found nofun (Follows.refl r).advance
  · refine inner_bind fun ⟨ps, s⟩ read => ?_
    obtain ⟨follows, same⟩ := follows_properties 2 read
    refine inner_bind fun tag _ => inner_bind fun t _ => ?_
    simp only
    split
    · exact inner_found nofun (follows.enter rfl)
    · exact inner_found nofun follows.advance
    · exact inner_found nofun (follows.advance.enter rfl)
    · exact inner_found nofun (follows.advance.enter rfl)
    · exact inner_found nofun (follows.advance.enter rfl)
    · exact inner_found nofun (follows.advance.enter rfl)
    · split
      · exact inner_found nofun follows
      · exact inner_error _


theorem Inner.behind {outcome : Except Halt (Event × Reading)} (inner : Inner r.advance es outcome) :
    Inner r es outcome :=
  fun event next ended => ⟨(inner event next ended).1, (inner event next ended).2.behind⟩

/-- What is found may be expected to be followed by something of the document. -/
theorem Inner.expected {outcome : Except Halt (Event × Reading)} (inner : e.isOuter = false)
    (own : Inner (r.expect e) (e :: r.expecting.tail) outcome) : Inner r r.expecting.tail outcome := by
  intro event next ended
  obtain ⟨other, halt, tokens, front, expecting, all⟩ := own event next ended
  refine ⟨other, halt, tokens, front ++ [e], by simp [expecting], fun d inside => ?_⟩
  rcases List.mem_append.mp inside with inside | inside
  · exact all d inside
  · rw [List.mem_singleton.mp inside]
    exact inner

theorem inner_nodeUnless (ends : TokenKind → Bool) (inBlock loose : Bool) {e : Expecting} (t : Token)
    (inner : e.isOuter = false) : Inner r r.expecting.tail (nodeUnless ends inBlock loose e t r) := by
  refine Inner.behind (Inner.expected (r := r.advance) inner ?_)
  refine inner_bind fun t _ => ?_
  split
  · exact inner_found nofun (.refl _)
  · exact inner_node _ _ _

theorem inner_empty (inner : e.isOuter = false) (mark : Mark) :
    Inner r r.expecting.tail ((r.expect e).empty mark) :=
  Inner.expected inner (inner_found nofun (.refl _))

theorem inner_valueOf (ends : TokenKind → Bool) (inBlock : Bool) {e : Expecting}
    (inner : e.isOuter = false) : Inner r r.expecting.tail (valueOf ends inBlock e r) := by
  refine inner_bind fun t _ => ?_
  split
  · exact inner_nodeUnless _ _ _ t inner
  · exact inner_empty inner _

theorem inner_leave {kind : EventKind} {mark : Mark} (other : kind ≠ .streamEnd) :
    Inner r r.expecting.tail (r.advance.leave.found kind mark) :=
  inner_found other ⟨rfl, fun _ => List.mem_of_mem_tail, [], rfl, by simp⟩

theorem inner_separated {first : Bool} {context : Context} {start : Mark} {problem : String → Problem}
    {f : Reading → Except Halt (Event × Reading)}
    (inner : ∀ s : Reading, s.expecting = r.expecting → Inner s r.expecting.tail (f s)) :
    Inner r r.expecting.tail (separated first context start problem r >>= f) := by
  refine inner_bind fun s read => ?_
  have same : s.halt = r.halt ∧ (∀ t ∈ s.tokens, t ∈ r.tokens) ∧ s.expecting = r.expecting := by
    unfold separated at read
    split at read
    · obtain rfl := Except.ok.inj read
      exact ⟨rfl, fun _ => id, rfl⟩
    · obtain ⟨t, -, read⟩ := bind_ok read
      split at read
      · obtain rfl := Except.ok.inj read
        exact ⟨rfl, fun _ => List.mem_of_mem_tail, rfl⟩
      · cases read
  exact (inner s same.2.2).past same.1 same.2.1

theorem inner_flowItem (start : Mark) (first : Bool) (r : Reading) :
    Inner r r.expecting.tail (flowItem start first r) := by
  refine inner_bind fun t _ => ?_
  split
  · exact inner_leave nofun
  · refine inner_separated fun s same => inner_bind fun t _ => ?_
    rw [← same]
    split
    · exact Inner.expected rfl (inner_found nofun (.refl _))
    · split
      · exact inner_leave nofun
      · exact Inner.expected rfl (inner_node _ _ _)

theorem inner_flowKey (start : Mark) (first : Bool) (r : Reading) :
    Inner r r.expecting.tail (flowKey start first r) := by
  refine inner_bind fun t _ => ?_
  split
  · exact inner_leave nofun
  · refine inner_separated fun s same => inner_bind fun t _ => ?_
    rw [← same]
    split
    · exact inner_nodeUnless _ _ _ t rfl
    · split
      · exact inner_leave nofun
      · exact Inner.expected rfl (inner_node _ _ _)


theorem inner_node_leave (inBlock loose : Bool) (r : Reading) :
    Inner r r.expecting.tail (node inBlock loose r.leave) :=
  Inner.past (s := r.leave) rfl (fun _ => id) (inner_node inBlock loose r.leave)

/-- Whatever is expected of a document, the next event is within it. -/
theorem inner_next (expecting : r.expecting = e :: es) (within : e.isOuter = false) :
    Inner r es (next e r) := by
  obtain rfl : r.expecting.tail = es := by rw [expecting]; rfl
  refine inner_bind fun t _ => ?_
  cases e with
  | streamStart | firstDocument | document | documentEnd => contradiction
  | documentContent =>
    simp only
    split
    · exact inner_found nofun ⟨rfl, fun _ => id, [], rfl, by simp⟩
    · exact inner_node_leave true false r
  | blockNode => exact inner_node_leave true false r
  | item start =>
    simp only
    split
    · exact inner_nodeUnless _ _ _ t rfl
    · split
      · exact inner_leave nofun
      · exact inner_error _
  | looseItem =>
    simp only
    split
    · exact inner_nodeUnless _ _ _ t rfl
    · exact inner_found nofun ⟨rfl, fun _ => id, [], rfl, by simp⟩
  | key start =>
    simp only
    split
    · exact inner_nodeUnless _ _ _ t rfl
    · split
      · exact inner_leave nofun
      · exact inner_error _
  | value start => exact inner_valueOf _ _ rfl
  | flowItem start first => exact inner_flowItem start first r
  | pairKey start => exact inner_nodeUnless _ _ _ t rfl
  | pairValue start => exact inner_valueOf _ _ rfl
  | pairEnd start => exact Inner.expected rfl (inner_found nofun (.refl _))
  | flowKey start first => exact inner_flowKey start first r
  | flowValue start => exact inner_valueOf _ _ rfl
  | flowEmptyValue start => exact inner_empty rfl _


/-! ## Steps of the stream -/

/-- A reading whose tokens stop early. Below what is expected of the document stands what is expected of
the stream, so that nothing ends before the stream does. -/
structure Halted (r : Reading) : Prop where
  halt : ∃ h, r.halt = some h
  tokens : ∀ t ∈ r.tokens, t.kind ≠ .streamEnd
  expecting : ∃ inner outer, r.expecting = inner ++ [outer] ∧ outer.isOuter = true ∧
    ∀ e ∈ inner, e.isOuter = false

/-- The next token is not the end of the stream. -/
theorem Halted.peek (halted : r.Halted) {t : Token} (read : r.peek = .ok t) :
    t ∈ r.tokens ∧ t.kind ≠ .streamEnd := by
  obtain ⟨h, halt⟩ := halted.halt
  unfold Reading.peek at read
  cases tokens : r.tokens with
  | nil =>
    rw [tokens, halt] at read
    cases read
  | cons u us =>
    rw [tokens] at read
    obtain rfl := Except.ok.inj read
    exact ⟨List.mem_cons_self, halted.tokens u (tokens ▸ List.mem_cons_self)⟩

/-- A reading of some of the tokens that expects something of the stream is halted, too. -/
theorem Halted.inward (halted : r.Halted) {outer : Expecting} {inner : List Expecting}
    (same : r'.halt = r.halt) (part : ∀ t ∈ r'.tokens, t ∈ r.tokens)
    (expecting : r'.expecting = inner ++ [outer]) (base : outer.isOuter = true)
    (within : ∀ e ∈ inner, e.isOuter = false) : r'.Halted :=
  ⟨same ▸ halted.halt, fun t inside => halted.tokens t (part t inside), inner, outer, expecting, base,
    within⟩

theorem follows_directives (fuel : Nat) {versioned : Bool} (read : directives fuel versioned r = .ok r') :
    r'.halt = r.halt ∧ (∀ t ∈ r'.tokens, t ∈ r.tokens) ∧ r'.expecting = r.expecting := by
  induction fuel generalizing r versioned with
  | zero =>
    obtain rfl := Except.ok.inj read
    exact ⟨rfl, fun _ => id, rfl⟩
  | succ fuel ih =>
    obtain ⟨t, -, read⟩ := bind_ok read
    split at read
    · split at read
      · cases read
      · split at read
        · cases read
        · obtain ⟨halt, tokens, expecting⟩ := ih read
          exact ⟨halt, fun u inside => List.mem_of_mem_tail (tokens u inside), expecting⟩
    · split at read
      · cases read
      · obtain ⟨halt, tokens, expecting⟩ := ih read
        exact ⟨halt, fun u inside => List.mem_of_mem_tail (tokens u inside), expecting⟩
    · obtain ⟨halt, tokens, expecting⟩ := ih read
      exact ⟨halt, fun u inside => List.mem_of_mem_tail (tokens u inside), expecting⟩
    · obtain rfl := Except.ok.inj read
      exact ⟨rfl, fun _ => id, rfl⟩

theorem Halted.document {outer : Expecting} (halted : r.Halted) (expecting : r.expecting = [outer])
    (read : document r = .ok (event, r')) : event.kind ≠ .streamEnd ∧ r'.Halted := by
  have part : ∀ t ∈ r.tokens.dropWhile fun t => t.kind == TokenKind.documentEnd, t ∈ r.tokens :=
    fun t inside => (List.dropWhile_sublist _).subset inside
  have later : Halted { r with tokens := r.tokens.dropWhile fun t => t.kind == TokenKind.documentEnd } :=
    ⟨halted.halt, fun t inside => halted.tokens t (part t inside), halted.expecting⟩
  obtain ⟨t, first, read⟩ := bind_ok read
  have other : (t.kind == .streamEnd) = false := beq_false_of_ne (later.peek first).2
  simp only [other, Bool.false_eq_true, if_false] at read
  obtain ⟨s, directed, read⟩ := bind_ok read
  obtain ⟨halt, tokens, same⟩ := follows_directives _ directed
  obtain ⟨u, second, read⟩ := bind_ok read
  split at read
  · obtain ⟨rfl, rfl⟩ := Prod.mk.inj (Except.ok.inj read)
    have expecting : ((s.advance.expect .documentEnd).enter .documentContent).expecting =
        [.documentContent] ++ [.documentEnd] := by
      simp [Reading.enter, Reading.expect, Reading.advance, same, expecting]
    exact ⟨nofun, halted.inward halt
      (fun t inside => part t (tokens t (List.mem_of_mem_tail inside))) expecting rfl
      (by simp [Expecting.isOuter])⟩
  · cases read


/-- What is expected of the stream comes to an event other than its end. -/
theorem Halted.outer (halted : r.Halted) (expecting : r.expecting = [e]) (base : e.isOuter = true)
    (read : next e r = .ok (event, r')) : event.kind ≠ .streamEnd ∧ r'.Halted := by
  obtain ⟨t, first, read⟩ := bind_ok read
  cases e with
  | streamStart =>
    obtain ⟨rfl, rfl⟩ := Prod.mk.inj (Except.ok.inj read)
    have expecting : (r.advance.expect .firstDocument).expecting = [] ++ [.firstDocument] := by
      simp [expect, advance, expecting]
    exact ⟨nofun, halted.inward rfl (fun _ => List.mem_of_mem_tail) expecting rfl (by simp)⟩
  | firstDocument =>
    obtain ⟨u, second, read⟩ := bind_ok read
    split at read
    · exact halted.document expecting read
    · obtain ⟨rfl, rfl⟩ := Prod.mk.inj (Except.ok.inj read)
      have expecting : ((r.expect .documentEnd).enter .blockNode).expecting =
          [.blockNode] ++ [.documentEnd] := by
        simp [Reading.enter, Reading.expect, expecting]
      exact ⟨nofun, halted.inward rfl (fun _ => id) expecting rfl (by simp [Expecting.isOuter])⟩
  | document => exact halted.document expecting read
  | documentEnd =>
    obtain ⟨rfl, rfl⟩ := Prod.mk.inj (Except.ok.inj read)
    split
    · have expecting : (r.advance.expect .document).expecting = [] ++ [.document] := by
        simp [expect, advance, expecting]
      exact ⟨nofun, halted.inward rfl (fun _ => List.mem_of_mem_tail) expecting rfl (by simp)⟩
    · have expecting : (r.expect .document).expecting = [] ++ [.document] := by
        simp [expect, expecting]
      exact ⟨nofun, halted.inward rfl (fun _ => id) expecting rfl (by simp)⟩
  | _ => contradiction

/-- Every step comes to such an event and to a halted reading. -/
theorem Halted.next (halted : r.Halted) (expecting : r.expecting = e :: es)
    (read : next e r = .ok (event, r')) : event.kind ≠ .streamEnd ∧ r'.Halted := by
  obtain ⟨inner, outer, parts, base, within⟩ := halted.expecting
  cases inner with
  | nil =>
    obtain ⟨rfl, rfl⟩ := List.cons.inj (expecting.symm.trans parts)
    exact halted.outer expecting base read
  | cons d inner =>
    obtain ⟨rfl, rfl⟩ := List.cons.inj (expecting.symm.trans parts)
    obtain ⟨other, halt, tokens, front, later, all⟩ :=
      inner_next expecting (within e List.mem_cons_self) event r' read
    have expecting : r'.expecting = (front ++ inner) ++ [outer] :=
      later.trans (List.append_assoc front inner [outer]).symm
    refine ⟨other, halted.inward halt tokens expecting base fun d inside => ?_⟩
    rcases List.mem_append.mp inside with inside | inside
    · exact all d inside
    · exact within d (List.mem_cons_of_mem e inside)

/-- Events that stop early, before the end of the stream. -/
def Broken (s : Stream Event) : Prop :=
  (∃ h, s.halt = some h) ∧ ∀ e ∈ s.items, e.kind ≠ .streamEnd

/-- The events made of halted tokens stop early. -/
theorem Halted.run (halted : r.Halted) (fuel : Nat) : Broken (run fuel r) := by
  induction fuel generalizing r with
  | zero => exact ⟨halted.halt, by simp [Reading.run]⟩
  | succ fuel ih =>
    unfold Reading.run
    split
    · rename_i none
      obtain ⟨inner, outer, parts, -⟩ := halted.expecting
      simp [none] at parts
    · rename_i e es expecting
      split
      · exact ⟨⟨_, rfl⟩, by simp⟩
      · rename_i event r' read
        obtain ⟨other, later⟩ := halted.next expecting read
        obtain ⟨halt, items⟩ := ih later
        refine ⟨halt, fun event inside => ?_⟩
        rcases List.mem_cons.mp inside with rfl | inside
        · exact other
        · exact items event inside

end Reading

namespace Composing

variable {c d : Composing}

/-- A place that has some of the events ahead of another one. -/
structure Past (c d : Composing) : Prop where
  halt : d.halt = c.halt
  events : ∀ e ∈ d.events, e ∈ c.events

theorem Past.refl (c : Composing) : Past c c := ⟨rfl, fun _ => id⟩

theorem Past.trans {e : Composing} (first : Past c d) (second : Past d e) : Past c e :=
  ⟨second.halt.trans first.halt,
    fun event inside => first.events event (second.events event inside)⟩

theorem past_advance (c : Composing) : Past c c.advance := ⟨rfl, fun _ => List.mem_of_mem_tail⟩

theorem past_openAnchor {anchor : Option String} {mark : Mark}
    (read : c.openAnchor anchor mark = .ok d) : Past c d := by
  unfold openAnchor at read
  split at read
  · obtain rfl := Except.ok.inj read
    exact .refl _
  · split at read
    · cases read
    · obtain rfl := Except.ok.inj read
      exact ⟨rfl, fun _ => id⟩

theorem past_closeAnchor (c : Composing) (anchor : Option String) (n : Node) :
    Past c (c.closeAnchor anchor n) := by
  unfold closeAnchor
  split <;> exact ⟨rfl, fun _ => id⟩

variable {fuel : Nat}

/-- A node is composed past its events if its items and entries are. -/
theorem past_node {n : Node} (lists : ∀ c ns d, items fuel c = .ok (ns, d) → Past c d)
    (pairs : ∀ c es d, entries fuel c = .ok (es, d) → Past c d)
    (read : node (fuel + 1) c = .ok (n, d)) : Past c d := by
  obtain ⟨e, -, read⟩ := bind_ok read
  split at read
  · obtain ⟨m, -, read⟩ := bind_ok read
    obtain ⟨-, rfl⟩ := Prod.mk.inj (Except.ok.inj read)
    exact past_advance c
  · obtain ⟨_, opened, read⟩ := bind_ok read
    obtain ⟨-, rfl⟩ := Prod.mk.inj (Except.ok.inj read)
    exact ((past_openAnchor opened).trans (past_advance _)).trans (past_closeAnchor ..)
  · obtain ⟨_, opened, read⟩ := bind_ok read
    obtain ⟨⟨ns, _⟩, inner, read⟩ := bind_ok read
    obtain ⟨-, rfl⟩ := Prod.mk.inj (Except.ok.inj read)
    exact (((past_openAnchor opened).trans (past_advance _)).trans (lists _ _ _ inner)).trans
      (past_closeAnchor ..)
  · obtain ⟨_, opened, read⟩ := bind_ok read
    obtain ⟨⟨ns, _⟩, inner, read⟩ := bind_ok read
    obtain ⟨-, rfl⟩ := Prod.mk.inj (Except.ok.inj read)
    exact (((past_openAnchor opened).trans (past_advance _)).trans (pairs _ _ _ inner)).trans
      (past_closeAnchor ..)
  · obtain ⟨-, rfl⟩ := Prod.mk.inj (Except.ok.inj read)
    exact past_advance c

theorem past_items {ns : List Node} (nodes : ∀ c n d, node fuel c = .ok (n, d) → Past c d)
    (lists : ∀ c ns d, items fuel c = .ok (ns, d) → Past c d)
    (read : items (fuel + 1) c = .ok (ns, d)) : Past c d := by
  obtain ⟨e, -, read⟩ := bind_ok read
  split at read
  · obtain ⟨-, rfl⟩ := Prod.mk.inj (Except.ok.inj read)
    exact past_advance c
  · obtain ⟨⟨n, _⟩, first, read⟩ := bind_ok read
    obtain ⟨⟨ns, _⟩, second, read⟩ := bind_ok read
    obtain ⟨-, rfl⟩ := Prod.mk.inj (Except.ok.inj read)
    exact (nodes _ _ _ first).trans (lists _ _ _ second)

theorem past_entries {es : List (Node × Node)} (nodes : ∀ c n d, node fuel c = .ok (n, d) → Past c d)
    (pairs : ∀ c es d, entries fuel c = .ok (es, d) → Past c d)
    (read : entries (fuel + 1) c = .ok (es, d)) : Past c d := by
  obtain ⟨e, -, read⟩ := bind_ok read
  split at read
  · obtain ⟨-, rfl⟩ := Prod.mk.inj (Except.ok.inj read)
    exact past_advance c
  · obtain ⟨⟨k, _⟩, first, read⟩ := bind_ok read
    obtain ⟨⟨v, _⟩, second, read⟩ := bind_ok read
    obtain ⟨⟨es, _⟩, third, read⟩ := bind_ok read
    obtain ⟨-, rfl⟩ := Prod.mk.inj (Except.ok.inj read)
    exact ((nodes _ _ _ first).trans (nodes _ _ _ second)).trans (pairs _ _ _ third)

/-- Composing goes past events. -/
theorem past_compose (fuel : Nat) :
    (∀ c n d, node fuel c = .ok (n, d) → Past c d) ∧
    (∀ c ns d, items fuel c = .ok (ns, d) → Past c d) ∧
    ∀ c es d, entries fuel c = .ok (es, d) → Past c d := by
  induction fuel with
  | zero =>
    refine ⟨fun c n d read => ?_, fun c ns d read => ?_, fun c es d read => ?_⟩
    · obtain ⟨e, -, read⟩ := bind_ok read
      obtain ⟨-, rfl⟩ := Prod.mk.inj (Except.ok.inj read)
      exact .refl _
    · obtain ⟨-, rfl⟩ := Prod.mk.inj (Except.ok.inj read)
      exact .refl _
    · obtain ⟨-, rfl⟩ := Prod.mk.inj (Except.ok.inj read)
      exact .refl _
  | succ fuel ih =>
    obtain ⟨nodes, lists, pairs⟩ := ih
    exact ⟨fun _ _ _ => past_node lists pairs, fun _ _ _ => past_items nodes lists,
      fun _ _ _ => past_entries nodes pairs⟩

/-- A place whose events stop early. -/
structure Halted (c : Composing) : Prop where
  halt : ∃ h, c.halt = some h
  events : ∀ e ∈ c.events, e.kind ≠ .streamEnd

theorem Halted.past (halted : c.Halted) (past : Past c d) : d.Halted :=
  ⟨past.halt ▸ halted.halt, fun e inside => halted.events e (past.events e inside)⟩

theorem Halted.peek (halted : c.Halted) {e : Event} (read : c.peek = .ok e) : e.kind ≠ .streamEnd := by
  obtain ⟨h, halt⟩ := halted.halt
  unfold Composing.peek at read
  cases events : c.events with
  | nil =>
    rw [events, halt] at read
    cases read
  | cons u us =>
    rw [events] at read
    obtain rfl := Except.ok.inj read
    exact halted.events u (events ▸ List.mem_cons_self)

/-- Nothing is composed of events that stop early. -/
theorem Halted.document? (halted : c.Halted) (n : Option Node) : c.document? ≠ .ok n := by
  intro read
  obtain ⟨e, first, read⟩ := bind_ok read
  rw [if_neg (halted.peek first)] at read
  obtain ⟨⟨m, d⟩, composed, read⟩ := bind_ok read
  have later := (halted.past (past_advance c)).past ((past_compose _).1 _ _ _ composed)
  obtain ⟨_, -, read⟩ := bind_ok read
  obtain ⟨e, last, read⟩ := bind_ok read
  rw [if_neg ((later.past (past_advance d)).peek last)] at read
  cases read

end Composing

/-- A text whose events stop early has no value. -/
theorem read_of_broken {text : List Char} {half : Char}
    (broken : Reading.Broken (events text half)) (v : Value) :
    read text half ≠ .ok v := by
  intro ended
  obtain ⟨n, found, -⟩ := bind_ok ended
  obtain ⟨e, -, found⟩ := bind_ok found
  have halted : Composing.Halted
      { events := (events text half).items, halt := (events text half).halt } :=
    ⟨broken.1, broken.2⟩
  exact (halted.past (Composing.past_advance _)).document? n found

/-- A text whose tokens stop early has no value. -/
theorem read_of_halted {text : List Char} {half : Char} (halt : ∃ h, (tokens text half).halt = some h)
    (tokens : ∀ t ∈ (tokens text half).items, t.kind ≠ .streamEnd) (v : Value) :
    read text half ≠ .ok v := by
  have halted : Reading.Halted
      { tokens := (Yaml.tokens text half).items
        halt := (Yaml.tokens text half).halt
        expecting := [.streamStart]
        handles := [] } :=
    ⟨halt, tokens, [], .streamStart, rfl, rfl, by simp⟩
  exact read_of_broken (halted.run _) v

end LiveDoc.Yaml
