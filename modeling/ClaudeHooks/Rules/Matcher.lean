import ClaudeHooks.Rules.Types
import Mathlib.Data.Char

/-!
# Rules — Matcher

The matcher algebra of `internal/rules/matcher.go` (in the source under
`internal/crashdump/types.go`, lines 100–623): the nine leaf matchers, the
composite `AND`/`OR`/`NOT` matcher and the two constant matchers, as one
closed inductive `Matcher` dispatched by `Matcher.matches` (Go: `Match`).

The five pattern-backed leaves fall into two families that differ only in
the field they read: the git-field family (`RepoPatternMatcher`,
`BranchPatternMatcher`) and the file-field family with a hook-context
fallback (`FilePatternMatcher`, `ContentPatternMatcher`). Each family is
one definition; `CommandPatternMatcher` reads a top-level field first and
keeps its own body. The tool-type and event-type leaves compare with
`strings.EqualFold`, simple Unicode case folding over the `unicode` tables
(`unicode.SimpleFold`), which the leaf is given with its type.
-/

namespace ClaudeHooks.Rules

/-! ## Leaves -/

/-- The git-field family: `if ctx.GitContext == nil || field == "" { return
false }; return m.pattern.Match(field)`. -/
def gitFieldMatch (field : GitContext → String) (p : Pattern) (ctx : MatchContext) : Bool :=
  match ctx.gitContext with
  | none => false
  | some g => if field g = "" then false else p.matches (field g)

/-- The file-field family: when `ctx.FileContext == nil || field == ""` it
falls back to the hook context's value, and to `false` without one. -/
def fileFieldMatch (field : FileContext → String) (hookField : HookContext → String)
    (p : Pattern) (ctx : MatchContext) : Bool :=
  let fallback := match ctx.hookContext with
    | some h => p.matches (hookField h)
    | none => false
  match ctx.fileContext with
  | none => fallback
  | some f => if field f = "" then fallback else p.matches (field f)

/-- `RepoPatternMatcher.Match`. -/
def repoPatternMatch (p : Pattern) (ctx : MatchContext) : Bool :=
  gitFieldMatch GitContext.repoRoot p ctx

/-- `BranchPatternMatcher.Match`. -/
def branchPatternMatch (p : Pattern) (ctx : MatchContext) : Bool :=
  gitFieldMatch GitContext.branch p ctx

/-- `FilePatternMatcher.Match`. -/
def filePatternMatch (p : Pattern) (ctx : MatchContext) : Bool :=
  fileFieldMatch FileContext.path HookContext.filePath p ctx

/-- `ContentPatternMatcher.Match`. -/
def contentPatternMatch (p : Pattern) (ctx : MatchContext) : Bool :=
  fileFieldMatch FileContext.content HookContext.content p ctx

/-- `CommandPatternMatcher.Match`: the top-level `Command` when non-empty,
else the hook context's command. -/
def commandPatternMatch (p : Pattern) (ctx : MatchContext) : Bool :=
  if ctx.command ≠ "" then p.matches ctx.command
  else match ctx.hookContext with
    | some h => p.matches h.command
    | none => false

/-- `RemoteMatcher.Match`: exact remote name. -/
def remoteMatch (remote : String) (ctx : MatchContext) : Bool :=
  match ctx.gitContext with
  | none => false
  | some g => g.remote = remote

/-- `ValidatorTypeMatcher.Match`: `"*"` matches everything, an empty
context type nothing, then the exact type, then a `category.*` pattern
matches every type starting with `category.` (`strings.CutSuffix`, then
`strings.HasPrefix`, on the runes). -/
def validatorTypeMatch (validatorType : String) (ctx : MatchContext) : Bool :=
  if validatorType = validatorAll then true
  else if ctx.validatorType = "" then false
  else if ctx.validatorType = validatorType then true
  else if ".*".data.isSuffixOf validatorType.data then
    (validatorType.data.dropLast.dropLast ++ ['.']).isPrefixOf ctx.validatorType.data
  else false

example : validatorTypeMatch "git.*" ⟨"git.push", none, none, "", none⟩ = true := by decide
example : validatorTypeMatch "git.*" ⟨"github.push", none, none, "", none⟩ = false := by decide

/-- `unicode.MaxRune + 1`: an orbit of `SimpleFold` is a cycle of distinct
runes, so it has at most this many. -/
def runeCount : Nat := 0x110000

/-- The general case of `strings.EqualFold`:
`r := unicode.SimpleFold(sr); for r != sr && r < tr { r = unicode.SimpleFold(r) }`,
then `r == tr`. The loop walks the orbit of `sr` and stops within one
round of it, so `runeCount` rounds of fuel never run out. -/
def orbitReaches (simpleFold : Char → Char) (sr tr : Char) : Nat → Char → Bool
  | 0, r => r == tr
  | fuel + 1, r => if r ≠ sr ∧ r < tr then orbitReaches simpleFold sr tr fuel (simpleFold r) else r == tr

/-- One rune pair of `strings.EqualFold`'s loop: equal runes; else, with
`sr < tr`, an ASCII upper-case letter and its lower case when `tr` is
ASCII, and otherwise `tr` on the case-folding orbit of `sr`. -/
def foldRune (simpleFold : Char → Char) (sr tr : Char) : Bool :=
  if tr = sr then true
  else
    let (sr, tr) := if tr < sr then (tr, sr) else (sr, tr)
    if tr.val < 0x80 then decide ('A' ≤ sr ∧ sr ≤ 'Z' ∧ tr.val = sr.val + ('a'.val - 'A'.val))
    else orbitReaches simpleFold sr tr runeCount (simpleFold sr)

/-- The rune loop of `strings.EqualFold`: false when `t` runs out first,
false at the first pair that does not fold together, and at the end
whether `t` is exhausted too. The byte loop over the ASCII prefix answers
as this loop does there. -/
def equalFoldRunes (simpleFold : Char → Char) : List Char → List Char → Bool
  | [], t => t.isEmpty
  | _ :: _, [] => false
  | sr :: s, tr :: t => foldRune simpleFold sr tr && equalFoldRunes simpleFold s t

/-- `strings.EqualFold`: equality under simple Unicode case folding. -/
def equalFold (simpleFold : Char → Char) (s t : String) : Bool :=
  equalFoldRunes simpleFold s.toList t.toList

/- The orbit of `k` is `K`, `k` and the Kelvin sign; `É` folds to `é`. -/
example : equalFold (fun c => if c = 'K' then 'k' else if c = 'k' then '\u212A'
    else if c = '\u212A' then 'K' else c) "Kelvin" "\u212Aelvin" = true := by decide
example : equalFold (fun c => if c = 'É' then 'é' else if c = 'é' then 'É' else c)
    "ÉDIT" "édit" = true := by decide

/-- `ToolTypeMatcher.Match`; `strings.EqualFold` reads the `unicode`
tables `simpleFold` stands for. -/
def toolTypeMatch (simpleFold : Char → Char) (toolType : String) (ctx : MatchContext) : Bool :=
  match ctx.hookContext with
  | none => false
  | some h => equalFold simpleFold h.toolName toolType

/-- `EventTypeMatcher.Match`. -/
def eventTypeMatch (simpleFold : Char → Char) (eventType : String) (ctx : MatchContext) : Bool :=
  match ctx.hookContext with
  | none => false
  | some h => equalFold simpleFold h.eventType eventType

/-! ## The matcher type -/

/-- `CompositeOp` (`CompositeOpAND`, `CompositeOpOR`, `CompositeOpNOT`);
the field is unexported and only the three constructors set it. -/
inductive CompositeOp where
  | and
  | or
  | not
  deriving DecidableEq, Repr

/-- The implementations of the `Matcher` interface. -/
inductive Matcher where
  | repoPattern (pattern : Pattern)
  | remote (remote : String)
  | branchPattern (pattern : Pattern)
  | filePattern (pattern : Pattern)
  | contentPattern (pattern : Pattern)
  | commandPattern (pattern : Pattern)
  | validatorType (validatorType : String)
  | toolType (simpleFold : Char → Char) (toolType : String)
  | eventType (simpleFold : Char → Char) (eventType : String)
  | composite (matchers : List Matcher) (op : CompositeOp)
  | always
  | never

/-- `NewAndMatcher(matchers...)`. -/
def newAndMatcher (matchers : List Matcher) : Matcher := .composite matchers .and

/-- `NewOrMatcher(matchers...)`. -/
def newOrMatcher (matchers : List Matcher) : Matcher := .composite matchers .or

/-- `NewNotMatcher(matcher)`. -/
def newNotMatcher (matcher : Matcher) : Matcher := .composite [matcher] .not

mutual

/-- `Match`. A composite with no children answers `true` before it looks
at its operator (`if len(m.matchers) == 0 { return true }`). -/
def Matcher.matches : Matcher → MatchContext → Bool
  | .repoPattern p, ctx => repoPatternMatch p ctx
  | .remote r, ctx => remoteMatch r ctx
  | .branchPattern p, ctx => branchPatternMatch p ctx
  | .filePattern p, ctx => filePatternMatch p ctx
  | .contentPattern p, ctx => contentPatternMatch p ctx
  | .commandPattern p, ctx => commandPatternMatch p ctx
  | .validatorType vt, ctx => validatorTypeMatch vt ctx
  | .toolType f t, ctx => toolTypeMatch f t ctx
  | .eventType f e, ctx => eventTypeMatch f e ctx
  | .composite ms op, ctx =>
    if ms.isEmpty then true
    else match op with
      | .and => Matcher.matchAll ms ctx
      | .or => Matcher.matchAny ms ctx
      | .not => !Matcher.matchFirst ms ctx
  | .always, _ => true
  | .never, _ => false

/-- The `AND` loop: `false` at the first child that does not match. -/
def Matcher.matchAll : List Matcher → MatchContext → Bool
  | [], _ => true
  | m :: ms, ctx => if !m.matches ctx then false else Matcher.matchAll ms ctx

/-- The `OR` loop: `true` at the first child that matches. -/
def Matcher.matchAny : List Matcher → MatchContext → Bool
  | [], _ => false
  | m :: ms, ctx => if m.matches ctx then true else Matcher.matchAny ms ctx

/-- `m.matchers[0].Match(ctx)`, read by `NOT` (the list is non-empty there). -/
def Matcher.matchFirst : List Matcher → MatchContext → Bool
  | [], _ => false
  | m :: _, ctx => m.matches ctx

end

/-- `Name`: the diagnostic name. -/
def Matcher.name : Matcher → String
  | .repoPattern p => "repo_pattern:" ++ p.string
  | .remote r => "remote:" ++ r
  | .branchPattern p => "branch_pattern:" ++ p.string
  | .filePattern p => "file_pattern:" ++ p.string
  | .contentPattern p => "content_pattern:" ++ p.string
  | .commandPattern p => "command_pattern:" ++ p.string
  | .validatorType vt => "validator_type:" ++ vt
  | .toolType _ t => "tool_type:" ++ t
  | .eventType _ e => "event_type:" ++ e
  | .composite _ .and => "AND"
  | .composite _ .or => "OR"
  | .composite _ .not => "NOT"
  | .always => "always"
  | .never => "never"

/-! ## The loops as list quantifiers -/

@[simp] theorem Matcher.matchAll_eq (ms : List Matcher) (ctx : MatchContext) :
    Matcher.matchAll ms ctx = ms.all (·.matches ctx) := by
  induction ms with
  | nil => rfl
  | cons m ms ih => cases h : m.matches ctx <;> simp [Matcher.matchAll, h, ih]

@[simp] theorem Matcher.matchAny_eq (ms : List Matcher) (ctx : MatchContext) :
    Matcher.matchAny ms ctx = ms.any (·.matches ctx) := by
  induction ms with
  | nil => rfl
  | cons m ms ih => cases h : m.matches ctx <;> simp [Matcher.matchAny, h, ih]

/-! ## Composite semantics -/

/-- `AND` matches iff every child does (vacuously for none). -/
theorem newAndMatcher_matches (ms : List Matcher) (ctx : MatchContext) :
    (newAndMatcher ms).matches ctx = ms.all (·.matches ctx) := by
  cases ms <;> simp [newAndMatcher, Matcher.matches]

/-- `OR` over at least one child matches iff some child does. -/
theorem newOrMatcher_matches {ms : List Matcher} (hms : ms ≠ []) (ctx : MatchContext) :
    (newOrMatcher ms).matches ctx = ms.any (·.matches ctx) := by
  cases ms with
  | nil => exact absurd rfl hms
  | cons m ms => simp [newOrMatcher, Matcher.matches]

/-- `NOT(m)` matches iff `m` does not. -/
theorem newNotMatcher_matches (m : Matcher) (ctx : MatchContext) :
    (newNotMatcher m).matches ctx = !m.matches ctx := by
  simp [newNotMatcher, Matcher.matches, Matcher.matchFirst]

/-- `OR` with no children matches every context: the empty-list early
return comes before the dispatch on the operator. -/
theorem newOrMatcher_nil_matches (ctx : MatchContext) :
    (newOrMatcher []).matches ctx = true := by
  simp [newOrMatcher, Matcher.matches]

/-! ## What each pattern leaf inspects

The git-field leaves are fail-closed: they match only a non-empty field.
The file-field leaves and the command leaf fall back to the hook context
when their own field is empty, and do not check the hook value. -/

theorem gitFieldMatch_eq_true {field : GitContext → String} {p : Pattern} {ctx : MatchContext} :
    gitFieldMatch field p ctx = true ↔
      ∃ g, ctx.gitContext = some g ∧ field g ≠ "" ∧ p.matches (field g) = true := by
  unfold gitFieldMatch
  split <;> simp_all

theorem fileFieldMatch_eq_true {field : FileContext → String}
    {hookField : HookContext → String} {p : Pattern} {ctx : MatchContext} :
    fileFieldMatch field hookField p ctx = true ↔
      (∃ f, ctx.fileContext = some f ∧ field f ≠ "" ∧ p.matches (field f) = true) ∨
      (ctx.fileContext.elim "" field = "" ∧
        ∃ h, ctx.hookContext = some h ∧ p.matches (hookField h) = true) := by
  rcases ctx with ⟨_, _, _ | f, _, _ | h⟩
  · simp [fileFieldMatch]
  · simp [fileFieldMatch]
  all_goals by_cases hf : field f = "" <;> simp [fileFieldMatch, hf]

theorem commandPatternMatch_eq_true {p : Pattern} {ctx : MatchContext} :
    commandPatternMatch p ctx = true ↔
      (ctx.command ≠ "" ∧ p.matches ctx.command = true) ∨
      (ctx.command = "" ∧ ∃ h, ctx.hookContext = some h ∧ p.matches h.command = true) := by
  unfold commandPatternMatch
  split
  · simp_all
  · split <;> simp_all

/-- On a context whose only source is a hook context with empty values,
the file, content and command leaves answer whether the pattern matches the
empty string, while the repo and branch leaves answer `false`. -/
theorem hookFallback_matches_empty (p : Pattern) (toolName eventType : String) :
    let ctx : MatchContext := ⟨"", none, none, "", some ⟨toolName, eventType, "", "", ""⟩⟩
    (Matcher.filePattern p).matches ctx = p.matches "" ∧
    (Matcher.contentPattern p).matches ctx = p.matches "" ∧
    (Matcher.commandPattern p).matches ctx = p.matches "" ∧
    (Matcher.repoPattern p).matches ctx = false ∧
    (Matcher.branchPattern p).matches ctx = false :=
  ⟨rfl, rfl, rfl, rfl, rfl⟩

/-! ## Trees the constructors build

`MatcherTree` is the shape `NewAndMatcher`, `NewOrMatcher` and
`NewNotMatcher` build over leaves, with every `OR` given at least one child;
`denote` is its Boolean meaning. Over such trees `Match` is the meaning:
the empty-list early return only bites an `OR` with no children. -/

/-- A matcher tree with no childless `OR`. -/
inductive MatcherTree where
  | leaf (m : Matcher)
  | and (children : List MatcherTree)
  | or (first : MatcherTree) (rest : List MatcherTree)
  | not (child : MatcherTree)

mutual

/-- The matcher the constructors build for a tree. -/
def MatcherTree.build : MatcherTree → Matcher
  | .leaf m => m
  | .and ts => newAndMatcher (MatcherTree.buildAll ts)
  | .or t ts => newOrMatcher (t.build :: MatcherTree.buildAll ts)
  | .not t => newNotMatcher t.build

/-- The children's matchers. -/
def MatcherTree.buildAll : List MatcherTree → List Matcher
  | [] => []
  | t :: ts => t.build :: MatcherTree.buildAll ts

end

mutual

/-- The Boolean meaning: `AND` is conjunction (true for none), `OR`
disjunction, `NOT` negation. -/
def MatcherTree.denote : MatcherTree → MatchContext → Bool
  | .leaf m, ctx => m.matches ctx
  | .and ts, ctx => MatcherTree.denoteAll ts ctx
  | .or t ts, ctx => t.denote ctx || MatcherTree.denoteAny ts ctx
  | .not t, ctx => !t.denote ctx

/-- Conjunction of the children's meanings. -/
def MatcherTree.denoteAll : List MatcherTree → MatchContext → Bool
  | [], _ => true
  | t :: ts, ctx => t.denote ctx && MatcherTree.denoteAll ts ctx

/-- Disjunction of the children's meanings. -/
def MatcherTree.denoteAny : List MatcherTree → MatchContext → Bool
  | [], _ => false
  | t :: ts, ctx => t.denote ctx || MatcherTree.denoteAny ts ctx

end

mutual

theorem MatcherTree.build_matches_eq :
    ∀ (t : MatcherTree) (ctx : MatchContext), t.build.matches ctx = t.denote ctx
  | .leaf _, _ => rfl
  | .and ts, ctx => by
    rw [MatcherTree.build, newAndMatcher_matches, MatcherTree.denote,
      MatcherTree.buildAll_all ts ctx]
  | .or t ts, ctx => by
    rw [MatcherTree.build, newOrMatcher_matches (List.cons_ne_nil _ _), List.any_cons,
      MatcherTree.build_matches_eq t ctx, MatcherTree.buildAll_any ts ctx, MatcherTree.denote]
  | .not t, ctx => by
    rw [MatcherTree.build, newNotMatcher_matches, MatcherTree.build_matches_eq t ctx,
      MatcherTree.denote]

theorem MatcherTree.buildAll_all :
    ∀ (ts : List MatcherTree) (ctx : MatchContext),
      (MatcherTree.buildAll ts).all (·.matches ctx) = MatcherTree.denoteAll ts ctx
  | [], _ => rfl
  | t :: ts, ctx => by
    rw [MatcherTree.buildAll, List.all_cons, MatcherTree.build_matches_eq t ctx,
      MatcherTree.buildAll_all ts ctx, MatcherTree.denoteAll]

theorem MatcherTree.buildAll_any :
    ∀ (ts : List MatcherTree) (ctx : MatchContext),
      (MatcherTree.buildAll ts).any (·.matches ctx) = MatcherTree.denoteAny ts ctx
  | [], _ => rfl
  | t :: ts, ctx => by
    rw [MatcherTree.buildAll, List.any_cons, MatcherTree.build_matches_eq t ctx,
      MatcherTree.buildAll_any ts ctx, MatcherTree.denoteAny]

end

/-- On every tree without a childless `OR`, of any depth and width, and on
every context, `Match` is the tree's Boolean meaning. -/
theorem matcherTree_matches_denote (t : MatcherTree) (ctx : MatchContext) :
    t.build.matches ctx = t.denote ctx :=
  t.build_matches_eq ctx

end ClaudeHooks.Rules
