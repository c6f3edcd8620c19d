import ClaudeHooks.Rules.Pattern

/-!
# Rules — Types

The data the rule engine reads: the match context, the rule and its match
conditions and action. Their declarations (`internal/rules/types.go`) and
the hook context (`pkg/hook`) are not in the source; each structure below
is modelled from the spec's data model with the field names the matcher,
builder, registry and evaluator code uses. Optional parts the code tests
against `nil` are `Option`s.
-/

namespace ClaudeHooks.Rules

/-- Modelled from the spec: the git facts of a decision (`GitContext`). -/
structure GitContext where
  repoRoot : String
  remote : String
  branch : String
  deriving DecidableEq, Repr

/-- Modelled from the spec: the file facts of a decision (`FileContext`). -/
structure FileContext where
  path : String
  content : String
  deriving DecidableEq, Repr

/-- Modelled from the spec: the hook context as the matchers read it —
`ToolName.String()`, `EventType.String()`, `GetFilePath()`,
`GetCommand()` and `GetContent()`. -/
structure HookContext where
  toolName : String
  eventType : String
  filePath : String
  command : String
  content : String
  deriving DecidableEq, Repr

/-- Modelled from the spec: `MatchContext`. -/
structure MatchContext where
  validatorType : String
  gitContext : Option GitContext
  fileContext : Option FileContext
  command : String
  hookContext : Option HookContext
  deriving DecidableEq, Repr

/-- Modelled from the spec: `ValidatorAll`, the universal wildcard. -/
def validatorAll : String := "*"

/-- Modelled from the spec: `ActionType` (`ActionBlock`, `ActionWarn`,
`ActionAllow`). -/
inductive ActionType where
  | block
  | warn
  | allow
  deriving DecidableEq, Repr

/-- Modelled from the spec: `RuleAction`. -/
structure RuleAction where
  type : ActionType
  message : String
  reference : String
  deriving DecidableEq, Repr

/-- Modelled from the spec: `RuleMatch`, the nine condition fields; an empty
string is an absent condition. -/
structure RuleMatch where
  validatorType : String
  repoPattern : String
  remote : String
  branchPattern : String
  filePattern : String
  contentPattern : String
  commandPattern : String
  toolType : String
  eventType : String
  deriving DecidableEq, Repr

/-- Modelled from the spec: `Rule`. `Match` and `Action` are pointers the
code compares with `nil`. -/
structure Rule where
  name : String
  description : String
  enabled : Bool
  priority : Int
  match? : Option RuleMatch
  action? : Option RuleAction
  deriving DecidableEq, Repr

end ClaudeHooks.Rules
