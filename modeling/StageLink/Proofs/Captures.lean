import StageLink.Proofs.Globals

/-!
# Captures in order

The requests for captures are taken apart one by one, and no two of them ask for the same.  When all
are resolved they are laid out in the order in which they were requested: one after the other in one
buffer, or each at the start of a buffer of its own.
-/

namespace StageLink

theorem map_eq_of_forall₂ {First Second Key : Type} {related : First → Second → Prop}
    {one : First → Key} {other : Second → Key} {firsts : List First} {seconds : List Second}
    (agree : ∀ first second, related first second → one first = other second)
    (all : List.Forall₂ related firsts seconds) : firsts.map one = seconds.map other := by
  rw [← List.forall₂_eq_eq_eq, List.forall₂_map_left_iff, List.forall₂_map_right_iff]
  exact all.imp agree

namespace Capture

/-- The capture is what a text asks for. -/
structure Asks (requested : String) (capture : Capture) : Prop where
  text : capture.requested = requested
  parsed : ResourceName.parse requested = .ok capture.name

theorem parseFrom_asks {requested : List String} :
    ∀ {sofar captures : List Capture}, (sofar.map (·.name)).Nodup →
      (parseFrom sofar requested).Grants captures → (captures.map (·.name)).Nodup ∧
        ∃ parsed, captures = sofar ++ parsed ∧ List.Forall₂ Asks requested parsed ∧
          ∀ capture ∈ parsed, capture.resolved = none := by
  induction requested with
  | nil =>
      intro sofar captures distinct grants
      obtain rfl := Judged.grants_pure.mp grants
      exact ⟨distinct, [], (List.append_nil _).symm, .nil, by simp⟩
  | cons first rest ih =>
      intro sofar captures distinct grants
      obtain ⟨name, parses, following⟩ := Judged.grants_bind.mp grants
      split at following
      · exact absurd following Judged.grants_reject
      · next unknown =>
          have fresh : name ∉ sofar.map (·.name) := by
            intro listed
            obtain ⟨capture, known, named⟩ := List.mem_map.mp listed
            exact unknown (List.any_eq_true.mpr ⟨capture, known, decide_eq_true named⟩)
          obtain ⟨all_distinct, parsed, rfl, asked, unresolved⟩ := ih (by
            rw [List.map_append]
            refine List.nodup_append.mpr ⟨distinct, by simp, fun other known again same equal => ?_⟩
            obtain rfl : again = name := List.mem_singleton.mp same
            exact fresh (equal ▸ known)) following
          exact ⟨all_distinct, _ :: parsed, List.append_assoc .., .cons
            ⟨rfl, Judged.grants_monadLift.mp parses⟩ asked, by simpa using unresolved⟩

/-- Each request gives a capture that is not yet resolved, and no two of them ask for the same. -/
theorem parseAll_asks {requested : List String} {captures : List Capture}
    (grants : (parseAll requested).Grants captures) :
    (captures.map (·.name)).Nodup ∧ List.Forall₂ Asks requested captures ∧
      ∀ capture ∈ captures, capture.resolved = none := by
  obtain ⟨distinct, parsed, rfl, asked⟩ := parseFrom_asks (by simp) grants
  exact ⟨distinct, asked⟩

/-- What a capture asks for, whatever it has been resolved to. -/
def request (capture : Capture) : String × ResourceName := (capture.requested, capture.name)

theorem asks_of_requests {requested : List String} {captures others : List Capture}
    (same : others.map request = captures.map request)
    (asked : List.Forall₂ Asks requested captures) :
    List.Forall₂ Asks requested others := by
  induction asked generalizing others with
  | nil =>
      obtain rfl := List.map_eq_nil_iff.mp same
      exact .nil
  | cons asks _ ih =>
      obtain ⟨other, rest, rfl, equal, same_rest⟩ := List.map_eq_cons_iff.mp same
      obtain ⟨text, named⟩ := Prod.mk.inj equal
      exact .cons ⟨text.trans asks.text, named.symm ▸ asks.parsed⟩ (ih same_rest)

/-! ## Resolving -/

/-- A request that is granted has found an output and comes to what it is resolved to against
that. -/
theorem resolve_grants {producer : Shader} {capture resolved : Capture}
    (grants : (resolve producer capture).Grants resolved) :
    ∃ output captured, findOutput producer capture.name.base producer.globals = .ok (some output) ∧
      resolveAgainst capture output = .ok captured ∧
      resolved = { capture with resolved := some captured } := by
  obtain ⟨found, finds, following⟩ := Judged.grants_bind.mp grants
  cases found with
  | none => simp at following
  | some output =>
      dsimp only at following
      split at following
      · next captured resolves =>
          obtain rfl := Judged.grants_pure.mp following
          exact ⟨output, captured, Judged.grants_monadLift.mp finds, resolves, rfl⟩
      · simp at following

theorem findOutput_eq_some {producer : Shader} {name : String} {output : Variable}
    {ids : List VariableId} (finds : findOutput producer name ids = .ok (some output)) :
    ∃ id ∈ ids, producer.vars.get? id = some output ∧ output.mode = .shaderOut ∧
      output.name = name := by
  induction ids with
  | nil => cases finds
  | cons id ids ih =>
      obtain ⟨declared, fetched, following⟩ := Checked.bind_eq_ok.mp finds
      split at following
      · next chosen =>
          obtain rfl := Option.some.inj (Except.ok.inj following)
          simp only [Bool.and_eq_true, decide_eq_true_eq] at chosen
          exact ⟨id, List.mem_cons_self .., Shader.fetchVariable_eq_ok.mp fetched, chosen⟩
      · obtain ⟨other, listed, found⟩ := ih following
        exact ⟨other, List.mem_cons_of_mem _ listed, found⟩

/-! ## Layout -/

/-- The entry is where a resolved capture goes. -/
structure Fills (capture : Capture) (entry : CapturedVarying) : Prop where
  name : entry.name = capture.requested
  resolved : capture.resolved = some ⟨entry.location, entry.components, entry.ty⟩

theorem place_eq_ok {mode : FeedbackMode} {limits : Limits} {position offset : Nat}
    {capture : Capture} {captured : Captured} {entry : CapturedVarying}
    (placed : place mode limits position offset capture captured = .ok entry) :
    entry.name = capture.requested ∧ captured = ⟨entry.location, entry.components, entry.ty⟩ ∧
      match mode with
      | .interleaved => entry.buffer = 0 ∧ entry.offset = offset ∧
          wrap (offset + entry.components) ≤ limits.interleavedComponents
      | .separate => entry.buffer = position ∧ entry.offset = 0 ∧
          entry.components ≤ limits.separateComponents := by
  cases mode with
  | interleaved =>
      simp only [place] at placed
      split at placed
      · cases placed
      · next fits =>
          obtain rfl := Except.ok.inj placed
          exact ⟨rfl, rfl, rfl, rfl, Nat.le_of_not_lt fits⟩
  | separate =>
      simp only [place] at placed
      split at placed
      · cases placed
      · next fits =>
          obtain rfl := Except.ok.inj placed
          exact ⟨rfl, rfl, rfl, rfl, Nat.le_of_not_lt fits⟩

theorem placeFrom_cons_eq_ok {mode : FeedbackMode} {limits : Limits} {position offset : Nat}
    {capture : Capture} {captures : List Capture} {entries : List CapturedVarying}
    (placed : placeFrom mode limits position offset (capture :: captures) = .ok entries) :
    ∃ captured entry later, capture.resolved = some captured ∧
      place mode limits position offset capture captured = .ok entry ∧
      placeFrom mode limits (position + 1) (wrap (offset + captured.components)) captures =
        .ok later ∧
      entries = entry :: later := by
  rw [placeFrom] at placed
  split at placed
  · cases placed
  · next captured resolved =>
      obtain ⟨entry, here, placed⟩ := except_bind_eq_ok.mp placed
      obtain ⟨later, rest, finish⟩ := except_bind_eq_ok.mp placed
      exact ⟨captured, entry, later, resolved, here, rest, (Except.ok.inj finish).symm⟩

/-- Every capture gets its entry. -/
theorem placeFrom_fills {mode : FeedbackMode} {limits : Limits} {captures : List Capture} :
    ∀ {position offset : Nat} {entries : List CapturedVarying},
      placeFrom mode limits position offset captures = .ok entries →
      List.Forall₂ Fills captures entries := by
  induction captures with
  | nil =>
      intro position offset entries placed
      obtain rfl := Except.ok.inj placed
      exact .nil
  | cons capture captures ih =>
      intro position offset entries placed
      obtain ⟨captured, entry, later, resolved, here, rest, rfl⟩ := placeFrom_cons_eq_ok placed
      obtain ⟨name, rfl, -⟩ := place_eq_ok here
      exact .cons ⟨name, resolved⟩ (ih rest)

/-- In one buffer, each entry starts where those before it end, provided that a word can say where
the last one ends. -/
theorem placeFrom_interleaved {limits : Limits} {captures : List Capture} :
    ∀ {position offset : Nat} {entries : List CapturedVarying},
      placeFrom .interleaved limits position offset captures = .ok entries →
      offset + total (entries.map (·.components)) < UInt32.size →
      (∀ index entry, entries[index]? = some entry → entry.buffer = 0 ∧
        entry.offset = offset + total ((entries.take index).map (·.components))) ∧
      (offset ≤ limits.interleavedComponents →
        offset + total (entries.map (·.components)) ≤ limits.interleavedComponents) := by
  induction captures with
  | nil =>
      intro position offset entries placed _
      obtain rfl := Except.ok.inj placed
      exact ⟨fun _ _ found => by simp at found, fun fits => fits⟩
  | cons capture captures ih =>
      intro position offset entries placed countable
      obtain ⟨captured, entry, later, -, here, rest, rfl⟩ := placeFrom_cons_eq_ok placed
      obtain ⟨-, rfl, buffer, start, fits⟩ := place_eq_ok here
      rw [List.map_cons, total_cons, ← Nat.add_assoc] at countable
      have ends_here : wrap (offset + entry.components) = offset + entry.components :=
        wrap_of_lt (Nat.lt_of_le_of_lt (Nat.le_add_right ..) countable)
      dsimp only at rest
      rw [ends_here] at rest fits
      obtain ⟨follow, ends⟩ := ih rest countable
      refine ⟨fun index other found => ?_, fun _ => ?_⟩
      · cases index with
        | zero =>
            obtain rfl : entry = other := by simpa using found
            exact ⟨buffer, start⟩
        | succ index =>
            obtain ⟨buffer_other, start_other⟩ := follow index other (by simpa using found)
            refine ⟨buffer_other, ?_⟩
            rw [start_other, List.take_succ_cons, List.map_cons, total_cons, Nat.add_assoc]
      · rw [List.map_cons, total_cons, ← Nat.add_assoc]
        exact ends fits

/-- Otherwise, each entry has a buffer of its own. -/
theorem placeFrom_separate {limits : Limits} {captures : List Capture} :
    ∀ {position offset : Nat} {entries : List CapturedVarying},
      placeFrom .separate limits position offset captures = .ok entries →
      ∀ index entry, entries[index]? = some entry → entry.buffer = position + index ∧
        entry.offset = 0 ∧ entry.components ≤ limits.separateComponents := by
  induction captures with
  | nil =>
      intro position offset entries placed
      obtain rfl := Except.ok.inj placed
      exact fun _ _ found => by simp at found
  | cons capture captures ih =>
      intro position offset entries placed index other found
      obtain ⟨captured, entry, later, -, here, rest, rfl⟩ := placeFrom_cons_eq_ok placed
      obtain ⟨-, -, buffer, start, fits⟩ := place_eq_ok here
      cases index with
      | zero =>
          obtain rfl : entry = other := by simpa using found
          exact ⟨buffer, start, fits⟩
      | succ index =>
          obtain ⟨buffer_other, start_other, fits_other⟩ :=
            ih rest index other (by simpa using found)
          exact ⟨by rw [buffer_other]; omega, start_other, fits_other⟩

end Capture

/-- The layout of the feedback buffers: in one buffer the entries follow each other, otherwise each
is alone in the buffer at its position, and all keep to the limits. -/
structure CapturedVarying.LaidOut (mode : FeedbackMode) (limits : Limits)
    (entries : List CapturedVarying) : Prop where
  interleaved : mode = .interleaved →
    (∀ (index : Nat) (entry : CapturedVarying), entries[index]? = some entry → entry.buffer = 0 ∧
      entry.offset = total ((entries.take index).map (·.components))) ∧
    total (entries.map (·.components)) ≤ limits.interleavedComponents
  separate : mode = .separate →
    (∀ (index : Nat) (entry : CapturedVarying), entries[index]? = some entry →
      entry.buffer = index ∧ entry.offset = 0 ∧
      entry.components ≤ limits.separateComponents) ∧
    entries.length ≤ limits.feedbackBuffers

/-- All captures get their entries, which are laid out provided that their components can be
counted. -/
theorem Capture.placeAll_eq_ok {mode : FeedbackMode} {limits : Limits} {captures : List Capture}
    {entries : List CapturedVarying} (placed : placeAll mode limits captures = .ok entries) :
    List.Forall₂ Fills captures entries ∧ (total (entries.map (·.components)) < UInt32.size →
      CapturedVarying.LaidOut mode limits entries) := by
  rw [placeAll] at placed
  split at placed
  · cases placed
  · next few =>
      have fills := placeFrom_fills placed
      refine ⟨fills, fun countable => ⟨fun is_mode => ?_, fun is_mode => ?_⟩⟩
      · subst is_mode
        obtain ⟨follow, ends⟩ := placeFrom_interleaved placed (by rwa [Nat.zero_add])
        rw [Nat.zero_add] at ends
        exact ⟨by simpa using follow, ends (Nat.zero_le _)⟩
      · subst is_mode
        refine ⟨by simpa using placeFrom_separate placed, ?_⟩
        rw [← fills.length_eq]
        simpa using few

end StageLink
