import ClaudeHooks.Rules.RegistryRefinement

/-!
# Rules — the evaluator

`Evaluator` walks the registry's enabled rules against a `MatchContext`
(`src/internal/rules/evaluator.go`, lines 1–173). `Evaluate` is the
early-exit loop, `EvaluateAll` and `FindMatchingRules` the collect-all
loops, and `FilterByValidator` the pre-filter that rebuilds a context
holding only the validator type.

Each method reads `compiled.Rule.Action` through a pointer; a nil action
would panic. The model answers `none` for that panic, so the theorems
below also show it never happens on a reachable registry: `Add` refuses a
rule without an action.

The main results are `evaluate_first_match` (the early-exit loop returns
the head of what the collect-all loop lists, which is the least matching
rule in the registry order) and `filterByValidator_keeps_winner` (the
pre-filter never drops a rule that matches the full context, so it never
changes the winner).
-/

namespace ClaudeHooks.Rules

/-- Modelled from the spec: `RuleResult`, the outcome of one evaluation. -/
structure RuleResult where
  matched : Bool
  rule : Option Rule
  action : ActionType
  message : String
  reference : String
  deriving DecidableEq, Repr

/-- The result literal for a rule that matched (lines 69–75). -/
def RuleResult.ofMatch (rule : Rule) (action : RuleAction) : RuleResult :=
  ⟨true, some rule, action.type, action.message, action.reference⟩

/-- The result literal for no match: `Matched: false` and the default
action. -/
def RuleResult.unmatched (action : ActionType) : RuleResult := ⟨false, none, action, "", ""⟩

/-- Building the matched result dereferences `compiled.Rule.Action`;
`none` is the nil-pointer panic. -/
def RuleResult.ofCompiled (compiled : CompiledRule) : Option RuleResult :=
  compiled.rule.action?.map (RuleResult.ofMatch compiled.rule)

/-- `Evaluator`. -/
structure Evaluator where
  registry : Option Registry
  stopOnFirstMatch : Bool
  defaultAction : ActionType

/-- `WithStopOnFirstMatch`. -/
def withStopOnFirstMatch (stop : Bool) (e : Evaluator) : Evaluator :=
  { e with stopOnFirstMatch := stop }

/-- `WithDefaultAction`. -/
def withDefaultAction (action : ActionType) (e : Evaluator) : Evaluator :=
  { e with defaultAction := action }

/-- `NewEvaluator`: stop on the first match and allow by default, then
apply the options in order. -/
def newEvaluator (registry : Option Registry) (opts : List (Evaluator → Evaluator)) : Evaluator :=
  opts.foldl (fun e opt => opt e) ⟨registry, true, .allow⟩

namespace Evaluator

/-- `Evaluate`: the first enabled rule whose matcher matches. -/
def evaluate (e : Evaluator) (ctx : MatchContext) : Option RuleResult :=
  match e.registry with
  | none => some (.unmatched e.defaultAction)
  | some registry =>
    let rules := registry.getEnabled
    if rules.isEmpty then some (.unmatched e.defaultAction)
    else match rules.find? (·.matcher.matches ctx) with
      | some compiled => RuleResult.ofCompiled compiled
      | none => some (.unmatched e.defaultAction)

/-- `EvaluateAll`: a result for every enabled rule that matches, in order. -/
def evaluateAll (e : Evaluator) (ctx : MatchContext) : Option (List RuleResult) :=
  match e.registry with
  | none => some []
  | some registry =>
    let rules := registry.getEnabled
    if rules.isEmpty then some []
    else (rules.filter (·.matcher.matches ctx)).mapM RuleResult.ofCompiled

/-- `FindMatchingRules`. -/
def findMatchingRules (e : Evaluator) (ctx : MatchContext) : List Rule :=
  match e.registry with
  | none => []
  | some registry =>
    let rules := registry.getEnabled
    if rules.isEmpty then [] else (rules.filter (·.matcher.matches ctx)).map (·.rule)

/-- The loop body of `FilterByValidator`: keep a rule without a validator
type condition, else ask its `ValidatorTypeMatcher` about the context. -/
def appliesTo (ctx : MatchContext) (compiled : CompiledRule) : Bool :=
  match compiled.rule.match? with
  | none => true
  | some m => m.validatorType = "" || (Matcher.validatorType m.validatorType).matches ctx

/-- `FilterByValidator`, over the minimal context holding only the
validator type. -/
def filterByValidator (e : Evaluator) (validatorType : String) : List CompiledRule :=
  match e.registry with
  | none => []
  | some registry =>
    let rules := registry.getEnabled
    if rules.isEmpty then []
    else
      let ctx : MatchContext := ⟨validatorType, none, none, "", none⟩
      rules.filter (appliesTo ctx)

/-- The enabled rules every method walks; none for a nil registry. -/
def rules (e : Evaluator) : List CompiledRule := e.registry.elim [] Registry.getEnabled

/-! ## The methods over `rules`

The `len(rules) == 0` early returns agree with the loops on an empty
list; each method is one list operation over `rules`. -/

theorem ite_isEmpty {α : Type} {l : List CompiledRule} {x : α} {f : List CompiledRule → α}
    (h : f [] = x) : (if l.isEmpty then x else f l) = f l := by
  cases l <;> simp [h]

theorem evaluate_eq (e : Evaluator) (ctx : MatchContext) :
    e.evaluate ctx = match e.rules.find? (·.matcher.matches ctx) with
      | some compiled => RuleResult.ofCompiled compiled
      | none => some (.unmatched e.defaultAction) := by
  rcases e with ⟨_ | registry, _, d⟩
  · rfl
  · exact ite_isEmpty (f := fun l => match l.find? (·.matcher.matches ctx) with
      | some compiled => RuleResult.ofCompiled compiled
      | none => some (.unmatched d)) rfl

theorem evaluateAll_eq (e : Evaluator) (ctx : MatchContext) :
    e.evaluateAll ctx = (e.rules.filter (·.matcher.matches ctx)).mapM RuleResult.ofCompiled := by
  rcases e with ⟨_ | registry, _, _⟩
  · rfl
  · exact ite_isEmpty (f := fun l => (l.filter (·.matcher.matches ctx)).mapM RuleResult.ofCompiled) rfl

theorem findMatchingRules_eq (e : Evaluator) (ctx : MatchContext) :
    e.findMatchingRules ctx = (e.rules.filter (·.matcher.matches ctx)).map (·.rule) := by
  rcases e with ⟨_ | registry, _, _⟩
  · rfl
  · exact ite_isEmpty (f := fun l => (l.filter (·.matcher.matches ctx)).map (·.rule)) rfl

theorem filterByValidator_eq (e : Evaluator) (validatorType : String) :
    e.filterByValidator validatorType =
      e.rules.filter (appliesTo ⟨validatorType, none, none, "", none⟩) := by
  rcases e with ⟨_ | registry, _, _⟩
  · rfl
  · exact ite_isEmpty (f := fun l => l.filter (appliesTo ⟨validatorType, none, none, "", none⟩)) rfl

/-! ## Over a reachable registry -/

variable {eng : Engines} {sf : SortFunc}

/-- An installed matcher matches iff every set condition's leaf does. -/
theorem compiled_matches {cr : CompiledRule} (h : compiledRule? eng (some cr.rule) = some cr)
    (ctx : MatchContext) :
    cr.matcher.matches ctx = (cr.rule.match?.elim [] (·.leaves eng)).all (·.matches ctx) := by
  obtain ⟨-, -, -, o, ho, hcr⟩ := compiledRule?_eq_some.mp h
  rw [hcr]
  cases hm : cr.rule.match? with
  | none => rw [hm] at ho; cases ho; rfl
  | some m =>
    rw [hm, compileMatcher_some] at ho
    split at ho
    · cases ho
    · cases ho; exact resultShape_matches _ ctx

theorem rules_wf {e : Evaluator} (hr : ∀ r ∈ e.registry, ∃ M, Reach eng sf r M) :
    (e.rules.Sorted fun a b => RuleLt a.rule b.rule) ∧
      ∀ cr ∈ e.rules, compiledRule? eng (some cr.rule) = some cr := by
  rcases e with ⟨_ | r, _, _⟩
  · exact ⟨List.sorted_nil, fun _ h => (by cases h)⟩
  · obtain ⟨M, hM⟩ := hr r rfl
    have hw := (reach_wf hM).1
    exact ⟨hw.sorted.filter _, fun cr h => hw.compiled cr (List.mem_of_mem_filter h)⟩

/-- On rules `Add` accepted, building the result never hits a nil action. -/
theorem mapM_ofCompiled {ms : List CompiledRule}
    (h : ∀ cr ∈ ms, compiledRule? eng (some cr.rule) = some cr) :
    ∃ rs, ms.mapM RuleResult.ofCompiled = some rs ∧
      List.Forall₂ (fun cr res => ∃ a, cr.rule.action? = some a ∧ res = .ofMatch cr.rule a)
        ms rs := by
  induction ms with
  | nil => exact ⟨[], rfl, .nil⟩
  | cons cr ms ih =>
    obtain ⟨rs, hrs, hf⟩ := ih fun x hx => h x (.tail _ hx)
    obtain ⟨-, -, ha, -⟩ := compiledRule?_eq_some.mp (h cr (.head _))
    obtain ⟨a, hact⟩ := Option.isSome_iff_exists.mp ha
    refine ⟨.ofMatch cr.rule a :: rs, ?_, .cons ⟨a, hact, rfl⟩ hf⟩
    rw [List.mapM_cons, hrs]
    simp [RuleResult.ofCompiled, hact]

/-- The early-exit loop's answer is the head of the collected results, and
it is a match iff there is one. -/
theorem first_result {ms : List CompiledRule} {rs : List RuleResult} (d : ActionType)
    (hf : List.Forall₂ (fun cr res => ∃ a, cr.rule.action? = some a ∧ res = .ofMatch cr.rule a)
      ms rs) :
    (match ms.head? with
      | some compiled => RuleResult.ofCompiled compiled
      | none => some (.unmatched d)) = some (rs.headD (.unmatched d)) ∧
    (rs.headD (.unmatched d)).matched = !rs.isEmpty := by
  cases hf with
  | nil => exact ⟨rfl, rfl⟩
  | cons hx _ => obtain ⟨a, ha, rfl⟩ := hx; simp [RuleResult.ofCompiled, ha, RuleResult.ofMatch]

/-- The head of a strictly sorted list comes before every other element. -/
theorem head_lt {ms : List CompiledRule} (h : ms.Sorted fun a b => RuleLt a.rule b.rule) :
    ∀ x ∈ ms.head?, ∀ y ∈ ms, y ≠ x → RuleLt x.rule y.rule := by
  cases ms with
  | nil => intro x hx; cases hx
  | cons z ms =>
    rintro x ⟨⟩ y hy hne
    exact List.rel_of_sorted_cons h y ((List.mem_cons.mp hy).resolve_left hne)

/-- The rules the loops collect: the enabled rules of `GetAll()` whose
matcher matches, in order. -/
theorem rules_filter_matches (e : Evaluator) (ctx : MatchContext) :
    e.rules.filter (·.matcher.matches ctx) =
      (e.registry.elim [] Registry.getAll).filter fun cr => cr.rule.enabled && cr.matcher.matches ctx := by
  rcases e with ⟨_ | r, _, _⟩
  · rfl
  · simp only [Evaluator.rules, Option.elim, Registry.getEnabled, Registry.getAll, List.filter_filter,
      Bool.and_comm]

theorem evaluate_first_match {e : Evaluator} (hr : ∀ r ∈ e.registry, ∃ M, Reach eng sf r M)
    (ctx : MatchContext) :
    let ms := (e.registry.elim [] Registry.getAll).filter fun cr => cr.rule.enabled && cr.matcher.matches ctx
    e.findMatchingRules ctx = ms.map (·.rule) ∧
    ∃ rs, e.evaluateAll ctx = some rs ∧
      List.Forall₂ (fun cr res => ∃ a, cr.rule.action? = some a ∧ res = .ofMatch cr.rule a)
        ms rs ∧
      e.evaluate ctx = some (rs.headD (.unmatched e.defaultAction)) ∧
      (e.evaluate ctx).map (·.matched) = some !rs.isEmpty ∧
      ∀ x ∈ ms.head?, ∀ y ∈ ms, y ≠ x → RuleLt x.rule y.rule := by
  intro ms
  rw [show ms = e.rules.filter (·.matcher.matches ctx) from (rules_filter_matches e ctx).symm]
  obtain ⟨hs, hc⟩ := rules_wf hr
  obtain ⟨rs, hrs, hf⟩ := mapM_ofCompiled fun cr h => hc cr (List.mem_of_mem_filter h)
  obtain ⟨hhead, hmatched⟩ := first_result e.defaultAction hf
  have hev : e.evaluate ctx = some (rs.headD (.unmatched e.defaultAction)) := by
    rw [evaluate_eq, ← List.filter_head?]; exact hhead
  refine ⟨findMatchingRules_eq e ctx, rs, by rw [evaluateAll_eq, hrs], hf, hev,
    by rw [hev, Option.map_some', hmatched], head_lt (hs.filter _)⟩

/-- Four rules: `b` is disabled, `c` is for another validator type, `d`
has no conditions. Of the enabled rules that match, `a` has the highest
priority. -/
theorem evaluate_first_match_four_rules :
    let commit : RuleMatch := ⟨"git.commit", "", "", "", "", "", "", "", ""⟩
    let rules : List Rule := [⟨"a", "", true, 10, some commit, some ⟨.block, "no", ""⟩⟩,
      ⟨"b", "", false, 20, some commit, some ⟨.block, "off", ""⟩⟩,
      ⟨"c", "", true, 30, some { commit with validatorType := "file.markdown" }, some ⟨.warn, "md", ""⟩⟩,
      ⟨"d", "", true, 5, none, some ⟨.warn, "all", ""⟩⟩]
    let e := newEvaluator
      (some ((newRegistry.addAll literalEngines insertionSortFunc (rules.map some)).run newPatternCache).1.2) []
    let ctx : MatchContext := ⟨"git.commit", none, none, "", none⟩
    let ms := (e.registry.elim [] Registry.getAll).filter fun cr => cr.rule.enabled && cr.matcher.matches ctx
    (∀ r ∈ e.registry, ∃ M, Reach literalEngines insertionSortFunc r M) ∧
    (e.findMatchingRules ctx = ms.map (·.rule) ∧
      ∃ rs, e.evaluateAll ctx = some rs ∧
        List.Forall₂ (fun cr res => ∃ a, cr.rule.action? = some a ∧ res = .ofMatch cr.rule a)
          ms rs ∧
        e.evaluate ctx = some (rs.headD (.unmatched e.defaultAction)) ∧
        (e.evaluate ctx).map (·.matched) = some !rs.isEmpty ∧
        ∀ x ∈ ms.head?, ∀ y ∈ ms, y ≠ x → RuleLt x.rule y.rule) ∧
    (e.findMatchingRules ctx).map (·.name) = ["a", "d"] ∧
    (e.evaluate ctx).map (·.message) = some "no" :=
  have hr := fun _ h => ⟨_, by cases h; exact .addAll .new (PatternCache.sound_new _) _⟩
  ⟨hr, evaluate_first_match hr _, by decide, by decide⟩

/-- The pre-filter keeps every installed rule that matches a context with
the same validator type: such a rule's matcher contains its
`ValidatorTypeMatcher` leaf, and that leaf reads only the validator type. -/
theorem appliesTo_of_matches {cr : CompiledRule} (h : compiledRule? eng (some cr.rule) = some cr)
    {ctx : MatchContext} (hm : cr.matcher.matches ctx) :
    appliesTo ⟨ctx.validatorType, none, none, "", none⟩ cr := by
  rw [compiled_matches h] at hm
  unfold appliesTo
  cases hr : cr.rule.match? with
  | none => rfl
  | some m =>
    rw [hr] at hm
    by_cases hv : m.validatorType = ""
    · simp [hv]
    · have hleaf : Matcher.validatorType m.validatorType ∈ m.leaves eng := by
        simp [RuleMatch.leaves, RuleMatch.simpleLeaves, hv]
      have := List.all_eq_true.mp hm _ hleaf
      simp only [Bool.or_eq_true, decide_eq_true_eq]
      exact .inr this

/-- Filtering by a test every wanted element passes keeps the first one. -/
theorem find?_filter_of_imp {l : List CompiledRule} {p q : CompiledRule → Bool}
    (h : ∀ x ∈ l, q x → p x) : (l.filter p).find? q = l.find? q := by
  induction l with
  | nil => rfl
  | cons x l ih =>
    have ih := ih fun y hy => h y (.tail _ hy)
    by_cases hq : q x
    · simp [List.filter_cons, h x (.head _) hq, hq]
    · by_cases hp : p x <;> simp [List.filter_cons, hp, hq, ih]

theorem filterByValidator_keeps_winner {e : Evaluator}
    (hr : ∀ r ∈ e.registry, ∃ M, Reach eng sf r M) (ctx : MatchContext) :
    let fs := e.filterByValidator ctx.validatorType
    fs = e.rules.filter (appliesTo ⟨ctx.validatorType, none, none, "", none⟩) ∧
    fs.Sublist e.rules ∧
    (∀ cr ∈ e.rules, cr.matcher.matches ctx → cr ∈ fs) ∧
    fs.find? (·.matcher.matches ctx) = e.rules.find? (·.matcher.matches ctx) ∧
    ∃ res, e.evaluate ctx = some res ∧
      (fs.find? (·.matcher.matches ctx)).map (·.rule) = res.rule ∧
      ((fs.find? (·.matcher.matches ctx)).isNone ↔ res.matched = false) := by
  intro fs
  have hc := (rules_wf hr).2
  have hfs : fs = e.rules.filter (appliesTo ⟨ctx.validatorType, none, none, "", none⟩) :=
    filterByValidator_eq e ctx.validatorType
  have hfind : fs.find? (·.matcher.matches ctx) = e.rules.find? (·.matcher.matches ctx) := by
    rw [hfs]; exact find?_filter_of_imp fun x hx hm => appliesTo_of_matches (hc x hx) hm
  refine ⟨hfs, hfs ▸ List.filter_sublist _, fun cr hcr hm => ?_, hfind, ?_⟩
  · rw [hfs, List.mem_filter]; exact ⟨hcr, appliesTo_of_matches (hc cr hcr) hm⟩
  · rw [hfind, evaluate_eq]
    cases hx : e.rules.find? (·.matcher.matches ctx) with
    | none => exact ⟨_, rfl, rfl, by simp [RuleResult.unmatched]⟩
    | some cr =>
      obtain ⟨-, -, ha, -⟩ := compiledRule?_eq_some.mp (hc cr (List.mem_of_find?_eq_some hx))
      obtain ⟨a, hact⟩ := Option.isSome_iff_exists.mp ha
      exact ⟨.ofMatch cr.rule a, by simp [RuleResult.ofCompiled, hact], rfl,
        by simp [RuleResult.ofMatch]⟩

/-- The four rules of `evaluate_first_match_four_rules` against a
`git.commit` context: the pre-filter drops `c`, whose validator type
differs, as well as the disabled `b`, and keeps the winner `a`. -/
theorem filterByValidator_keeps_winner_four_rules :
    let commit : RuleMatch := ⟨"git.commit", "", "", "", "", "", "", "", ""⟩
    let rules : List Rule := [⟨"a", "", true, 10, some commit, some ⟨.block, "no", ""⟩⟩,
      ⟨"b", "", false, 20, some commit, some ⟨.block, "off", ""⟩⟩,
      ⟨"c", "", true, 30, some { commit with validatorType := "file.markdown" }, some ⟨.warn, "md", ""⟩⟩,
      ⟨"d", "", true, 5, none, some ⟨.warn, "all", ""⟩⟩]
    let e := newEvaluator
      (some ((newRegistry.addAll literalEngines insertionSortFunc (rules.map some)).run newPatternCache).1.2) []
    let ctx : MatchContext := ⟨"git.commit", none, none, "", none⟩
    let fs := e.filterByValidator ctx.validatorType
    (∀ r ∈ e.registry, ∃ M, Reach literalEngines insertionSortFunc r M) ∧
    (fs = e.rules.filter (appliesTo ⟨ctx.validatorType, none, none, "", none⟩) ∧
      fs.Sublist e.rules ∧
      (∀ cr ∈ e.rules, cr.matcher.matches ctx → cr ∈ fs) ∧
      fs.find? (·.matcher.matches ctx) = e.rules.find? (·.matcher.matches ctx) ∧
      ∃ res, e.evaluate ctx = some res ∧
        (fs.find? (·.matcher.matches ctx)).map (·.rule) = res.rule ∧
        ((fs.find? (·.matcher.matches ctx)).isNone ↔ res.matched = false)) ∧
    e.rules.map (·.rule.name) = ["c", "a", "d"] ∧ fs.map (·.rule.name) = ["a", "d"] :=
  have hr := fun _ h => ⟨_, by cases h; exact .addAll .new (PatternCache.sound_new _) _⟩
  ⟨hr, filterByValidator_keeps_winner hr _, by decide, by decide⟩

end Evaluator

end ClaudeHooks.Rules
