import ClaudeHooks.Rules.Pattern
import ClaudeHooks.Rules.Types
import ClaudeHooks.Rules.Matcher
import ClaudeHooks.Rules.PatternCache
import ClaudeHooks.Rules.CacheInterleaving
import ClaudeHooks.Rules.Builder
import ClaudeHooks.Rules.Order
import ClaudeHooks.Rules.Registry
import ClaudeHooks.Rules.RegistryRefinement
import ClaudeHooks.Rules.Evaluator
import ClaudeHooks.Rules.MergeRules
import ClaudeHooks.Validators.Markdown
import ClaudeHooks.Validators.PRTitle
import ClaudeHooks.Parser.Command
import ClaudeHooks.Validators.GitRunner
import ClaudeHooks.Validators.Push
import ClaudeHooks.Validators.CommitParser
import ClaudeHooks.Validators.Commit
import ClaudeHooks.Validators.RealGitRunner
import ClaudeHooks.Validators.FileValidators
import ClaudeHooks.Provider.Sources
import ClaudeHooks.PipelineBlock.Marker
import ClaudeHooks.Doctor.RulesFixer
import ClaudeHooks.Backup.Manager
