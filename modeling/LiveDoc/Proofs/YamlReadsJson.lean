import LiveDoc.Proofs.YamlBuild
import LiveDoc.Proofs.YamlOfJson

/-!
# JSON text read as YAML

The YAML reader gives back a JSON document from its compact text exactly if the characters of its
texts and keys are carried, no raw line break in a text is folded, every key is in reach of its
colon, and every float has a point. Else it stops, or it reads another value.
-/

namespace LiveDoc

namespace Value

variable {float float' : Binary64 → Bool} {text text' key key' : String → Bool}

mutual

theorem every_and : ∀ v : Value,
    v.every (fun x => float x && float' x) (fun s => text s && text' s) (fun k => key k && key' k) =
      (v.every float text key && v.every float' text' key')
  | .list vs => everyItem_and vs
  | .mapping es => everyEntry_and es
  | .null | .bool _ | .int _ | .float _ | .text _ | .bytes _ | .buffer _ | .tuple _ | .set _
  | .date _ | .moment _ | .clock _ | .span _ | .zone _ | .routine _ _ | .deferred _ _
  | .record _ _ => rfl

theorem everyItem_and : ∀ vs : List Value,
    everyItem (fun x => float x && float' x) (fun s => text s && text' s)
        (fun k => key k && key' k) vs =
      (everyItem float text key vs && everyItem float' text' key' vs)
  | [] => rfl
  | v :: vs => by
    rw [everyItem, everyItem, everyItem, every_and v, everyItem_and vs]
    ac_rfl

theorem everyEntry_and : ∀ es : List (Value × Value),
    everyEntry (fun x => float x && float' x) (fun s => text s && text' s)
        (fun k => key k && key' k) es =
      (everyEntry float text key es && everyEntry float' text' key' es)
  | [] => rfl
  | (k, v) :: es => by
    cases k with
    | text k =>
      rw [everyEntry, everyEntry, everyEntry, every_and v, everyEntry_and es]
      ac_rfl
    | _ => rfl

end

/-- The keys of a JSON mapping are different texts. -/
theorem keys_of_holdJson {es : List (Value × Value)} (json : HoldJson es) :
    (∀ k ∈ es.map (·.1), ∃ s, k = .text s) ∧ (es.map (·.1)).Nodup := by
  induction es with
  | nil => exact ⟨nofun, .nil⟩
  | cons e es ih =>
    obtain ⟨key, apart, -, json⟩ := json
    obtain ⟨texts, distinct⟩ := ih json
    refine ⟨List.forall_mem_cons.mpr ⟨key, texts⟩, List.nodup_cons.mpr ⟨fun inside => ?_, distinct⟩⟩
    obtain ⟨other, among, same⟩ := List.mem_map.mp inside
    exact apart other among same

end Value

namespace Yaml

mutual

/-- If all that stands in a document is seen, every key is reached. -/
theorem reached_of_seen : ∀ {v : Value} {f : Flow}, v.IsJson → Shows v f → isSeen v = true →
    f.reached = true
  | .null, _, _ | .bool _, _, _ | .int _, _, _ | .float _, _, _ => by
    rintro ⟨t, rfl, -⟩ -
    rfl
  | .text s, _, _ => by
    rintro ⟨t, rfl, -⟩ -
    rfl
  | .list vs, _, json => by
    rintro ⟨fs, rfl, shown⟩ seen
    exact reachedItems_of_seen json shown seen
  | .mapping es, _, json => by
    rintro ⟨fs, rfl, shown⟩ seen
    exact reachedEntries_of_seen json shown seen

theorem reachedItems_of_seen : ∀ {vs : List Value} {fs : List Flow}, Value.AreJson vs →
    ShowItems vs fs →
    Value.everyItem hasPoint (Scalar.foldFree ·.toList) Progress.keyInReach vs = true →
      Flow.reachedItems fs = true
  | [], _, _ => by
    rintro rfl -
    rfl
  | v :: vs, _, ⟨own, json⟩ => by
    rintro ⟨f, others, rfl, shown, shownOthers⟩ seen
    obtain ⟨first, rest⟩ := Bool.and_eq_true_iff.mp seen
    exact Bool.and_eq_true_iff.mpr
      ⟨reached_of_seen own shown first, reachedItems_of_seen json shownOthers rest⟩

theorem reachedEntries_of_seen : ∀ {es : List (Value × Value)} {fs : List (String × Bool × Flow)},
    Value.HoldJson es → ShowEntries es fs →
    Value.everyEntry hasPoint (Scalar.foldFree ·.toList) Progress.keyInReach es = true →
      Flow.reachedEntries fs = true
  | [], _, _ => by
    rintro rfl -
    rfl
  | (key, v) :: es, _, ⟨_, _, own, json⟩ => by
    rintro ⟨k, t, f, others, rfl, rfl, -, shown, shownOthers⟩ seen
    simp only [Value.everyEntry, Bool.and_eq_true] at seen
    simp only [Flow.reachedEntries, Bool.and_eq_true]
    exact ⟨⟨seen.1.1, reached_of_seen own shown seen.1.2⟩,
      reachedEntries_of_seen json shownOthers seen.2⟩

end

mutual

/-- A document whose keys are all reached has a value: the document itself exactly if all that
stands in it is seen. -/
theorem exists_built : ∀ {v : Value} {f : Flow} {n : Node}, v.IsJson → Shows v f →
    f.reached = true → f.Composes n → ∃ w, Built n w ∧ (w = v ↔ isSeen v = true)
  | .null, _, n, json | .bool _, _, n, json | .int _, _, n, json | .float _, _, n, json => by
    rintro ⟨t, rfl, word⟩ - composes
    cases n with
    | scalar tag t' mark =>
      obtain ⟨rfl, rfl⟩ := composes
      obtain ⟨w, read, same⟩ := leaf_word json word
      exact ⟨w, ⟨Build.collection?_tagOf t', read⟩, by simpa [isSeen, Value.every] using same⟩
    | _ => cases composes
  | .text s, _, n, _ => by
    rintro ⟨t, rfl, same⟩ - composes
    cases n with
    | scalar tag t' mark =>
      obtain ⟨rfl, rfl⟩ := composes
      exact ⟨.text t', ⟨Build.collection?_str, Build.leaf_str⟩,
        by simpa [isSeen, Value.every] using same⟩
    | _ => cases composes
  | .list vs, _, n, json => by
    rintro ⟨fs, rfl, shown⟩ reached composes
    cases n with
    | sequence tag ns mark =>
      obtain ⟨rfl, composes⟩ := composes
      obtain ⟨ws, built, same⟩ := exists_builtItems json shown reached composes
      exact ⟨.list ws, ⟨rfl, ws, rfl, built⟩, by simpa [isSeen, Value.every] using same⟩
    | _ => cases composes
  | .mapping es, _, n, json => by
    rintro ⟨fs, rfl, shown⟩ reached composes
    cases n with
    | mapping tag ns mark =>
      obtain ⟨rfl, composes⟩ := composes
      obtain ⟨ws, built, keys, same⟩ := exists_builtEntries json shown reached composes
      obtain ⟨texts, distinct⟩ := Value.keys_of_holdJson json
      rw [← keys] at texts distinct
      have added := Build.gathered_texts texts distinct
      refine ⟨.mapping ws, ⟨rfl, ws, by rw [added], built⟩, ?_⟩
      simpa [isSeen, Value.every] using same
    | _ => cases composes

theorem exists_builtItems : ∀ {vs : List Value} {fs : List Flow} {ns : List Node},
    Value.AreJson vs → ShowItems vs fs → Flow.reachedItems fs = true → Flow.ComposeItems fs ns →
      ∃ ws, BuiltItems ns ws ∧ (ws = vs ↔
        Value.everyItem hasPoint (Scalar.foldFree ·.toList) Progress.keyInReach vs = true)
  | [], _, ns, _ => by
    rintro rfl - composes
    cases ns with
    | nil => exact ⟨[], rfl, by simp [Value.everyItem]⟩
    | cons => cases composes
  | v :: vs, _, ns, ⟨own, json⟩ => by
    rintro ⟨f, others, rfl, shown, shownOthers⟩ reached composes
    cases ns with
    | nil => cases composes
    | cons n ns =>
      obtain ⟨first, rest⟩ := Bool.and_eq_true_iff.mp reached
      obtain ⟨w, built, same⟩ := exists_built own shown first composes.1
      obtain ⟨ws, builtOthers, sameOthers⟩ := exists_builtItems json shownOthers rest composes.2
      refine ⟨w :: ws, ⟨w, ws, rfl, built, builtOthers⟩, ?_⟩
      rw [List.cons.injEq, same, sameOthers, Value.everyItem, Bool.and_eq_true]
      rfl

theorem exists_builtEntries : ∀ {es : List (Value × Value)} {fs : List (String × Bool × Flow)}
    {ns : List (Node × Node)}, Value.HoldJson es → ShowEntries es fs →
    Flow.reachedEntries fs = true → Flow.ComposeEntries fs ns →
      ∃ ws, BuiltEntries ns ws ∧ ws.map (·.1) = es.map (·.1) ∧ (ws = es ↔
        Value.everyEntry hasPoint (Scalar.foldFree ·.toList) Progress.keyInReach es = true)
  | [], _, ns, _ => by
    rintro rfl - composes
    cases ns with
    | nil => exact ⟨[], rfl, rfl, by simp [Value.everyEntry]⟩
    | cons => cases composes
  | (key, v) :: es, _, ns, ⟨_, _, own, json⟩ => by
    rintro ⟨k, t, f, others, rfl, rfl, same, shown, shownOthers⟩ reached composes
    cases ns with
    | nil => cases composes
    | cons n ns =>
      obtain ⟨name, n⟩ := n
      obtain ⟨⟨mark, rfl⟩, composes, composeOthers⟩ := composes
      simp only [Flow.reachedEntries, Bool.and_eq_true] at reached
      obtain ⟨⟨near, first⟩, rest⟩ := reached
      -- a key in reach is on one line, so it is not folded
      obtain rfl := same.mpr (Progress.foldFree_of_inReach near)
      obtain ⟨w, built, same⟩ := exists_built own shown first composes
      obtain ⟨ws, builtOthers, keys, sameOthers⟩ :=
        exists_builtEntries json shownOthers rest composeOthers
      refine ⟨(.text t, w) :: ws, ⟨t, mark, w, ws, rfl, rfl, built, builtOthers⟩,
        by simp [keys], ?_⟩
      rw [List.cons.injEq, Prod.mk.injEq, same, sameOthers, Value.everyEntry, near, Bool.true_and,
        Bool.and_eq_true]
      simp [isSeen]

end

/-- Whether a JSON document is the same in YAML: the reader accepts the characters of its texts and
keys, which control characters are escaped to, and sees what stands there. -/
def isAlike (v : Value) : Bool :=
  v.every hasPoint (fun s => carries s && Scalar.foldFree s.toList)
    fun k => carries k && Progress.keyInReach k

theorem isAlike_eq (v : Value) :
    isAlike v = (v.every (fun _ => true) carries carries && isSeen v) := by
  have both : v.every (fun x => true && hasPoint x)
      (fun s => carries s && Scalar.foldFree s.toList)
      (fun k => carries k && Progress.keyInReach k) =
        (v.every (fun _ => true) carries carries && isSeen v) := v.every_and
  exact both

/-- The YAML reader reads a JSON document from its compact text exactly if the document is the same
in YAML. -/
theorem read_json {v : Value} {s : String} {half : Char} (json : v.IsJson)
    (written : Json.write .compact .strict v = .ok s) :
    read s.toList half = .ok v ↔ isAlike v = true := by
  rw [isAlike_eq, ← all_value json written]
  cases all : s.toList.all isAcceptable with
  | false =>
    obtain ⟨h, none⟩ := tokens_unacceptable half all
    have fails := read_of_halted ⟨h, by rw [none]⟩ (by rw [none]; nofun) v
    simp [fails]
  | true =>
    rw [Bool.true_and]
    rcases tokens_json half json written all with ⟨halt, ongoing, unseen⟩ | ⟨f, shown, halt, kinds⟩
    · have fails := read_of_halted halt ongoing v
      simp [fails, unseen]
    · cases reached : f.reached with
      | false =>
        have fails := read_of_broken ((events_flow halt kinds).2 reached) v
        have unseen : isSeen v ≠ true := fun seen => by
          rw [reached_of_seen json shown seen] at reached
          contradiction
        simp [fails, unseen]
      | true =>
        obtain ⟨n, composed, composes⟩ := document?_flow halt kinds reached
        obtain ⟨w, built, same⟩ := exists_built json shown reached composes
        have value : read s.toList half = .ok w := by
          simp only [read, composed, Build.document_built built, bind, Except.bind]
        rw [value, Except.ok.injEq, same]

end Yaml

end LiveDoc
