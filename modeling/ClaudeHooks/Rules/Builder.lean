import ClaudeHooks.Rules.Matcher
import ClaudeHooks.Rules.PatternCache

/-!
# Rules — Matcher builder

`matcherBuilder` and `BuildMatcher` (`internal/crashdump/types.go`,
lines 474–578): the four plain conditions become leaves directly, the
five pattern conditions go through a factory that may fail, and the first
failure switches every later `add` off.

The pattern factories of repo, branch, file and command read the
process-wide cache (`GetCachedPattern`); the content factory compiles a
regexp directly. `buildMatcherWith` is the builder over any monad that
supplies patterns; `buildMatcher` runs it on the cache, `compileMatcher`
compiles every pattern afresh. Over a sound cache the two agree
(`buildMatcher_run`), so every fact about the builder is proved once, on
`compileMatcher`.
-/

namespace ClaudeHooks.Rules

/-- `matcherBuilder`: the leaves so far and the first error. -/
structure MatcherBuilder where
  matchers : List Matcher
  err : Option GoError

namespace MatcherBuilder

/-- `addSimple`. -/
def addSimple (b : MatcherBuilder) (m : Matcher) : MatcherBuilder :=
  if b.err.isSome then b else { b with matchers := b.matchers ++ [m] }

variable {M : Type → Type} [Monad M]

/-- `addPatternMatcher`: skipped after an error or for an empty pattern. -/
def addPatternMatcher (b : MatcherBuilder) (pattern : String)
    (factory : String → M (Except GoError Matcher)) : M MatcherBuilder :=
  if b.err.isSome ∨ pattern = "" then pure b
  else do
    match ← factory pattern with
    | .error e => pure { b with err := some e }
    | .ok m => pure { b with matchers := b.matchers ++ [m] }

/-- The four plain conditions of `BuildMatcher` (lines 553–568); the tool
and event leaves compare with `strings.EqualFold`, which reads
`unicode.SimpleFold`. -/
def addSimpleConditions (simpleFold : Char → Char) (m : RuleMatch) (b : MatcherBuilder) :
    MatcherBuilder :=
  let b := if m.validatorType ≠ "" then b.addSimple (.validatorType m.validatorType) else b
  let b := if m.remote ≠ "" then b.addSimple (.remote m.remote) else b
  let b := if m.toolType ≠ "" then b.addSimple (.toolType simpleFold m.toolType) else b
  if m.eventType ≠ "" then b.addSimple (.eventType simpleFold m.eventType) else b

/-- `result`: the error, or no matcher, the single leaf, or their `AND`. -/
def result (b : MatcherBuilder) : Except GoError (Option Matcher) :=
  match b.err with
  | some e => .error e
  | none =>
    match b.matchers with
    | [] => .ok none
    | [m] => .ok (some m)
    | ms => .ok (some (newAndMatcher ms))

end MatcherBuilder

section Factories

variable {M : Type → Type} [Monad M]

/-- The cached pattern factories: `GetCachedPattern`, then the leaf. -/
def newCachedPatternMatcher (leaf : Pattern → Matcher)
    (getPattern : String → M (Except GoError Pattern)) (patternStr : String) :
    M (Except GoError Matcher) := do
  let r ← getPattern patternStr
  pure (r.map leaf)

/-- `NewRepoPatternMatcher`. -/
def newRepoPatternMatcher (getPattern : String → M (Except GoError Pattern)) :
    String → M (Except GoError Matcher) :=
  newCachedPatternMatcher .repoPattern getPattern

/-- `NewBranchPatternMatcher`. -/
def newBranchPatternMatcher (getPattern : String → M (Except GoError Pattern)) :
    String → M (Except GoError Matcher) :=
  newCachedPatternMatcher .branchPattern getPattern

/-- `NewFilePatternMatcher`. -/
def newFilePatternMatcher (getPattern : String → M (Except GoError Pattern)) :
    String → M (Except GoError Matcher) :=
  newCachedPatternMatcher .filePattern getPattern

/-- `NewCommandPatternMatcher`. -/
def newCommandPatternMatcher (getPattern : String → M (Except GoError Pattern)) :
    String → M (Except GoError Matcher) :=
  newCachedPatternMatcher .commandPattern getPattern

/-- `NewContentPatternMatcher`: content patterns are always regexps. -/
def newContentPatternMatcher (eng : Engines) (patternStr : String) : Except GoError Matcher :=
  (newRegexPattern eng patternStr).map .contentPattern

/-- `BuildMatcher`, over a monad that supplies patterns. -/
def buildMatcherWith (eng : Engines) (getPattern : String → M (Except GoError Pattern)) :
    Option RuleMatch → M (Except GoError (Option Matcher))
  | none => pure (.ok none)
  | some m => do
    let b := MatcherBuilder.addSimpleConditions eng.simpleFold m ⟨[], none⟩
    let b ← b.addPatternMatcher m.repoPattern (newRepoPatternMatcher getPattern)
    let b ← b.addPatternMatcher m.branchPattern (newBranchPatternMatcher getPattern)
    let b ← b.addPatternMatcher m.filePattern (newFilePatternMatcher getPattern)
    let b ← b.addPatternMatcher m.contentPattern fun p => pure (newContentPatternMatcher eng p)
    let b ← b.addPatternMatcher m.commandPattern (newCommandPatternMatcher getPattern)
    pure b.result

end Factories

/-- `BuildMatcher`: the pattern leaves come from the process-wide cache. -/
def buildMatcher (eng : Engines) (m : Option RuleMatch) :
    StateM PatternCache (Except GoError (Option Matcher)) :=
  buildMatcherWith eng (fun t => CacheResult.erase <$> getCachedPattern eng t) m

/-- The builder with every pattern compiled afresh. -/
def compileMatcher (eng : Engines) (m : Option RuleMatch) : Except GoError (Option Matcher) :=
  buildMatcherWith (M := Id) eng (fun t => compilePattern eng t) m

/-! ## The cached builder refines the compiling one -/

section Simulation

variable {eng : Engines} {α β : Type}

/-- Run from any sound cache, `x` answers `v` and leaves the cache sound. -/
def Sim (eng : Engines) (x : StateM PatternCache α) (v : α) : Prop :=
  ∀ c : PatternCache, c.Sound eng → (x.run c).1 = v ∧ (x.run c).2.Sound eng

theorem Sim.pure (a : α) : Sim eng (pure a) a := fun _ hc => ⟨rfl, hc⟩

theorem Sim.bind {x : StateM PatternCache α} {f : α → StateM PatternCache β} {v : α} {w : β}
    (hx : Sim eng x v) (hf : Sim eng (f v) w) : Sim eng (x >>= f) w := fun c hc => by
  obtain ⟨h1, h2⟩ := hx c hc
  simpa [StateT.run_bind, h1] using hf _ h2

theorem sim_getCachedPattern (t : String) :
    Sim eng (CacheResult.erase <$> getCachedPattern eng t) (compilePattern eng t) :=
  fun _ hc => hc.get t

theorem sim_newCachedPatternMatcher (leaf : Pattern → Matcher) (t : String) :
    Sim eng (newCachedPatternMatcher leaf (fun t => CacheResult.erase <$> getCachedPattern eng t) t)
      ((compilePattern eng t).map leaf) :=
  Sim.bind (sim_getCachedPattern t) (Sim.pure _)

theorem sim_addPatternMatcher (b : MatcherBuilder) (p : String)
    {factory : String → StateM PatternCache (Except GoError Matcher)}
    {pf : String → Except GoError Matcher} (hf : ∀ t, Sim eng (factory t) (pf t)) :
    Sim eng (b.addPatternMatcher p factory) (b.addPatternMatcher (M := Id) p pf) := by
  unfold MatcherBuilder.addPatternMatcher
  split
  · exact Sim.pure _
  · refine Sim.bind (hf p) ?_
    cases pf p <;> exact Sim.pure _

/-- Over a sound cache, `BuildMatcher` answers what compiling every
pattern afresh answers, and the cache stays sound. -/
theorem buildMatcher_run (m : Option RuleMatch) :
    Sim eng (buildMatcher eng m) (compileMatcher eng m) := by
  cases m with
  | none => exact Sim.pure _
  | some m =>
    refine Sim.bind (sim_addPatternMatcher _ _ (sim_newCachedPatternMatcher _)) ?_
    refine Sim.bind (sim_addPatternMatcher _ _ (sim_newCachedPatternMatcher _)) ?_
    refine Sim.bind (sim_addPatternMatcher _ _ (sim_newCachedPatternMatcher _)) ?_
    refine Sim.bind (sim_addPatternMatcher _ _ fun _ => Sim.pure _) ?_
    refine Sim.bind (sim_addPatternMatcher _ _ (sim_newCachedPatternMatcher _)) ?_
    exact Sim.pure _

end Simulation

/-! ## What the builder computes -/

/-- The leaves of the four plain conditions, in the builder's order. -/
def RuleMatch.simpleLeaves (simpleFold : Char → Char) (m : RuleMatch) : List Matcher :=
  (if m.validatorType ≠ "" then [.validatorType m.validatorType] else []) ++
  (if m.remote ≠ "" then [.remote m.remote] else []) ++
  (if m.toolType ≠ "" then [.toolType simpleFold m.toolType] else []) ++
  (if m.eventType ≠ "" then [.eventType simpleFold m.eventType] else [])

/-- The five pattern conditions in the builder's order, each text with its
compiled leaf: repo, branch, file and command through `CompilePattern`'s
detection, content always as a regexp. -/
def RuleMatch.patternFields (eng : Engines) (m : RuleMatch) :
    List (String × Except GoError Matcher) :=
  [(m.repoPattern, (compilePattern eng m.repoPattern).map .repoPattern),
   (m.branchPattern, (compilePattern eng m.branchPattern).map .branchPattern),
   (m.filePattern, (compilePattern eng m.filePattern).map .filePattern),
   (m.contentPattern, (newRegexPattern eng m.contentPattern).map .contentPattern),
   (m.commandPattern, (compilePattern eng m.commandPattern).map .commandPattern)]

/-- The compile error of the first non-empty field that fails. -/
def firstFailure : List (String × Except GoError Matcher) → Option GoError
  | [] => none
  | (t, r) :: fs =>
    if t = "" then firstFailure fs
    else match r with
      | .error e => some e
      | .ok _ => firstFailure fs

/-- The leaves of the non-empty fields that compile. -/
def presentLeaves (fs : List (String × Except GoError Matcher)) : List Matcher :=
  fs.filterMap fun f => if f.1 = "" then none else f.2.toOption

/-- The leaf of every condition a match sets: the plain ones, then the
pattern ones. -/
def RuleMatch.leaves (eng : Engines) (m : RuleMatch) : List Matcher :=
  m.simpleLeaves eng.simpleFold ++ presentLeaves (m.patternFields eng)

/-- No condition set: all nine fields empty. -/
def RuleMatch.AllEmpty (m : RuleMatch) : Prop :=
  m.validatorType = "" ∧ m.remote = "" ∧ m.toolType = "" ∧ m.eventType = "" ∧
  m.repoPattern = "" ∧ m.branchPattern = "" ∧ m.filePattern = "" ∧
  m.contentPattern = "" ∧ m.commandPattern = ""

/-- What `result` makes of a list of leaves. -/
def resultShape : List Matcher → Option Matcher
  | [] => none
  | [m] => some m
  | ms => some (newAndMatcher ms)

namespace MatcherBuilder

/-- The builder's state as a value: its first error, or its leaves. -/
def outcome (b : MatcherBuilder) : Except GoError (List Matcher) :=
  match b.err with
  | some e => .error e
  | none => .ok b.matchers

theorem result_eq (b : MatcherBuilder) : b.result = b.outcome.map resultShape := by
  unfold result outcome
  rcases b with ⟨ms, _ | e⟩
  · match ms with
    | [] | [_] | _ :: _ :: _ => rfl
  · rfl

/-- One pattern condition as a list of leaves, or its compile error. -/
def fieldLeaf (f : String × Except GoError Matcher) : Except GoError (List Matcher) :=
  if f.1 = "" then .ok [] else f.2.map ([·])

theorem outcome_addPatternMatcher (b : MatcherBuilder) (p : String)
    (pf : String → Except GoError Matcher) :
    (b.addPatternMatcher (M := Id) p pf).outcome =
      b.outcome.bind fun ms => (fieldLeaf (p, pf p)).map (ms ++ ·) := by
  rcases b with ⟨ms, _ | e⟩
  · by_cases hp : p = ""
    · simp [addPatternMatcher, outcome, fieldLeaf, hp, Except.map, Except.bind]
    · cases h : pf p <;>
        simp [addPatternMatcher, outcome, fieldLeaf, hp, h, Except.map, Except.bind]
  · rfl

end MatcherBuilder

/-- The pattern conditions, added in order to an outcome. -/
def addFields (acc : Except GoError (List Matcher)) (fs : List (String × Except GoError Matcher)) :
    Except GoError (List Matcher) :=
  fs.foldl (fun acc f => acc.bind fun ms => (MatcherBuilder.fieldLeaf f).map (ms ++ ·)) acc

theorem addFields_error (e : GoError) (fs : List (String × Except GoError Matcher)) :
    addFields (.error e) fs = .error e := by
  induction fs with
  | nil => rfl
  | cons f fs ih => exact ih

/-- From a list of leaves, the fields add their leaves unless one fails. -/
theorem addFields_ok (ms : List Matcher) (fs : List (String × Except GoError Matcher)) :
    addFields (.ok ms) fs =
      match firstFailure fs with
      | some e => .error e
      | none => .ok (ms ++ presentLeaves fs) := by
  induction fs generalizing ms with
  | nil => simp [addFields, firstFailure, presentLeaves]
  | cons f fs ih =>
    obtain ⟨t, r⟩ := f
    by_cases ht : t = ""
    · simpa [addFields, firstFailure, presentLeaves, MatcherBuilder.fieldLeaf, ht,
        Except.map, Except.bind] using ih ms
    · cases r with
      | error e => simpa [addFields, firstFailure, MatcherBuilder.fieldLeaf, ht, Except.map,
          Except.bind] using addFields_error e fs
      | ok l => simpa [addFields, firstFailure, presentLeaves, MatcherBuilder.fieldLeaf, ht,
          Except.map, Except.bind, Except.toOption] using ih (ms ++ [l])

theorem outcome_addSimpleConditions (simpleFold : Char → Char) (m : RuleMatch) :
    (MatcherBuilder.addSimpleConditions simpleFold m ⟨[], none⟩).outcome =
      .ok (m.simpleLeaves simpleFold) := by
  unfold MatcherBuilder.addSimpleConditions RuleMatch.simpleLeaves
  split_ifs <;> rfl

/-- **The builder's meaning**: the first failing pattern field's error,
else the shape of the leaves of all set conditions. -/
theorem compileMatcher_some (eng : Engines) (m : RuleMatch) :
    compileMatcher eng (some m) =
      match firstFailure (m.patternFields eng) with
      | some e => .error e
      | none => .ok (resultShape (m.leaves eng)) := by
  change MatcherBuilder.result _ = _
  rw [MatcherBuilder.result_eq]
  simp only [MatcherBuilder.outcome_addPatternMatcher, outcome_addSimpleConditions]
  change Except.map resultShape (addFields (.ok (m.simpleLeaves eng.simpleFold)) (m.patternFields eng)) = _
  rw [addFields_ok]
  cases firstFailure (m.patternFields eng) <;> rfl

/-! ## `BuildMatcher`'s contract -/

theorem firstFailure_eq_some {fs : List (String × Except GoError Matcher)} {e : GoError}
    (h : firstFailure fs = some e) : ∃ f ∈ fs, f.1 ≠ "" ∧ f.2 = .error e := by
  induction fs with
  | nil => cases h
  | cons f fs ih =>
    obtain ⟨t, r⟩ := f
    simp only [firstFailure] at h
    split_ifs at h with ht
    · obtain ⟨f, hf, hf'⟩ := ih h; exact ⟨f, .tail _ hf, hf'⟩
    · cases r with
      | error e' => cases h; exact ⟨_, .head _, ht, rfl⟩
      | ok _ => obtain ⟨f, hf, hf'⟩ := ih h; exact ⟨f, .tail _ hf, hf'⟩

theorem firstFailure_eq_none {fs : List (String × Except GoError Matcher)}
    (h : firstFailure fs = none) : ∀ f ∈ fs, f.1 ≠ "" → ∃ l, f.2 = .ok l := by
  induction fs with
  | nil => intro f hf; cases hf
  | cons f fs ih =>
    obtain ⟨t, r⟩ := f
    simp only [firstFailure] at h
    intro f hf hne
    split_ifs at h with ht
    · rcases List.mem_cons.mp hf with rfl | hf
      · exact absurd ht hne
      · exact ih h f hf hne
    · cases r with
      | error _ => cases h
      | ok l =>
        rcases List.mem_cons.mp hf with rfl | hf
        · exact ⟨l, rfl⟩
        · exact ih h f hf hne

theorem presentLeaves_eq_nil {fs : List (String × Except GoError Matcher)}
    (h : firstFailure fs = none) : presentLeaves fs = [] ↔ ∀ f ∈ fs, f.1 = "" := by
  simp only [presentLeaves, List.filterMap_eq_nil_iff]
  refine forall₂_congr fun f hf => ?_
  by_cases ht : f.1 = ""
  · simp [ht]
  · obtain ⟨l, hl⟩ := firstFailure_eq_none h f hf ht
    simp [ht, hl, Except.toOption]

theorem firstFailure_of_allEmpty {eng : Engines} {m : RuleMatch} (h : m.AllEmpty) :
    firstFailure (m.patternFields eng) = none := by
  obtain ⟨-, -, -, -, h1, h2, h3, h4, h5⟩ := h
  simp [RuleMatch.patternFields, firstFailure, h1, h2, h3, h4, h5]

theorem leaves_eq_nil {eng : Engines} {m : RuleMatch}
    (h : firstFailure (m.patternFields eng) = none) : m.leaves eng = [] ↔ m.AllEmpty := by
  rw [RuleMatch.leaves, List.append_eq_nil, presentLeaves_eq_nil h]
  simp [RuleMatch.simpleLeaves, RuleMatch.patternFields, RuleMatch.AllEmpty, and_assoc]

theorem resultShape_eq_none {ms : List Matcher} : resultShape ms = none ↔ ms = [] := by
  match ms with
  | [] | [_] | _ :: _ :: _ => simp [resultShape]

/-- The matcher `result` gives, `AlwaysMatcher` standing in for none,
matches iff every leaf does. -/
theorem resultShape_matches (ms : List Matcher) (ctx : MatchContext) :
    ((resultShape ms).getD .always).matches ctx = ms.all (·.matches ctx) := by
  match ms with
  | [] => rfl
  | [_] => simp [resultShape]
  | _ :: _ :: _ => simp only [resultShape, Option.getD_some, newAndMatcher_matches]

variable {eng : Engines}

/-- **`BuildMatcher`'s contract.** Over a sound cache (every cache a
schedule reaches is one, `CacheSys.Inv.sound`): the build fails iff a
set pattern field does not compile, with the error of the first such
field in the order repo, branch, file, content, command; it yields no
matcher iff there is no match or no condition is set; one set condition
yields its own leaf; and what it yields, with `AlwaysMatcher` for none as
`Registry.Add` substitutes, matches exactly the contexts every set
condition's leaf matches. -/
theorem buildMatcher_spec {c : PatternCache} (hc : c.Sound eng) (m? : Option RuleMatch) :
    let r := ((buildMatcher eng m?).run c).1
    ((∃ e, r = .error e) ↔
      ∃ m, m? = some m ∧ ∃ f ∈ m.patternFields eng, f.1 ≠ "" ∧ ∃ e, f.2 = .error e) ∧
    (∀ e, r = .error e ↔ ∃ m, m? = some m ∧ firstFailure (m.patternFields eng) = some e) ∧
    (r = .ok none ↔ m? = none ∨ ∃ m, m? = some m ∧ m.AllEmpty) ∧
    (∀ m l, m? = some m → firstFailure (m.patternFields eng) = none → m.leaves eng = [l] →
      r = .ok (some l)) ∧
    (∀ o, r = .ok o → ∀ ctx, (o.getD .always).matches ctx =
      (m?.elim [] (·.leaves eng)).all (·.matches ctx)) := by
  intro r
  have hr : r = compileMatcher eng m? := (buildMatcher_run m? c hc).1
  cases m? with
  | none => simp [hr, compileMatcher, buildMatcherWith, Matcher.matches]
  | some m =>
    cases hf : firstFailure (m.patternFields eng) with
    | some e =>
      have hr' : r = .error e := by rw [hr, compileMatcher_some, hf]
      obtain ⟨f, hfm, hne, he⟩ := firstFailure_eq_some hf
      refine ⟨⟨fun _ => ⟨m, rfl, f, hfm, hne, e, he⟩, fun _ => ⟨e, hr'⟩⟩, fun e' => ?_, ?_,
        ?_, ?_⟩
      · simp [hr', hf]
      · rw [hr']
        simp only [reduceCtorEq, false_iff]
        rintro (h | ⟨_, ⟨⟩, hae⟩)
        · cases h
        · simp [firstFailure_of_allEmpty hae] at hf
      · rintro _ _ ⟨⟩ hf' _; simp [hf] at hf'
      · rintro o ho; rw [hr'] at ho; cases ho
    | none =>
      have hr' : r = .ok (resultShape (m.leaves eng)) := by rw [hr, compileMatcher_some, hf]
      refine ⟨⟨fun ⟨_, h⟩ => (by rw [hr'] at h; cases h), ?_⟩, fun e => ?_, ?_, ?_, ?_⟩
      · rintro ⟨_, ⟨⟩, f, hfm, hne, e, he⟩
        obtain ⟨l, hl⟩ := firstFailure_eq_none hf f hfm hne
        rw [hl] at he; cases he
      · simp [hr', hf]
      · rw [hr', Except.ok.injEq, resultShape_eq_none, leaves_eq_nil hf]
        simp
      · rintro _ l ⟨⟩ - hl; simp [hr', hl, resultShape]
      · rintro o ho ctx; rw [hr'] at ho; cases ho; exact resultShape_matches _ ctx

/-- A match setting six fields, under a regexp engine that rejects every
text with a `(`: the content and the command pattern both fail, and the
build fails with the content pattern's error, the earlier field. -/
theorem buildMatcher_spec_content_fails :
    let eng : Engines := { literalEngines with
      regexpCompile := fun p => if containsStr p "(" then .error ⟨"missing closing ): " ++ p⟩ else .ok (· == p) }
    let m : RuleMatch := ⟨"git.push", "klaudiush", "origin", "", "", "(", "git (push", "Bash", ""⟩
    let r := ((buildMatcher eng (some m)).run newPatternCache).1
    newPatternCache.Sound eng ∧
    (((∃ e, r = .error e) ↔
      ∃ m', some m = some m' ∧ ∃ f ∈ m'.patternFields eng, f.1 ≠ "" ∧ ∃ e, f.2 = .error e) ∧
    (∀ e, r = .error e ↔ ∃ m', some m = some m' ∧ firstFailure (m'.patternFields eng) = some e) ∧
    (r = .ok none ↔ some m = none ∨ ∃ m', some m = some m' ∧ m'.AllEmpty) ∧
    (∀ m' l, some m = some m' → firstFailure (m'.patternFields eng) = none → m'.leaves eng = [l] →
      r = .ok (some l)) ∧
    (∀ o, r = .ok o → ∀ ctx, (o.getD .always).matches ctx =
      ((some m).elim [] (·.leaves eng)).all (·.matches ctx))) ∧
    firstFailure (m.patternFields eng) = some ⟨"missing closing ): ("⟩ :=
  ⟨PatternCache.sound_new _, buildMatcher_spec (PatternCache.sound_new _) _, by decide⟩

end ClaudeHooks.Rules
