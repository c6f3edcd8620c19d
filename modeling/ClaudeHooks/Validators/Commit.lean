import ClaudeHooks.Parser.Command
import ClaudeHooks.Validators.GitRunner

/-!
# Validators — git commit

`CommitValidator.Validate` (`internal/validators/git`) parses a Bash line and
checks the first `git commit` in it: the `-s` and `-S` flags; then, unless
the commit amends, allows an empty commit, or the line also runs `git add`,
that something is staged; then the message given with `-F` or `-m`. The
help templates (`internal/templates`), `validateMessage` and the file system
are not in the source and are parameters.

* `validate_of_first_commit`: only the first `git commit` of a line is
  checked. The commands after it count only through `hasGitAddInChain`, so
  a second `git commit` is never looked at, and a `git add` after the commit
  still skips the staging check.
* `validateCommit_passed_iff`: which commits pass.
-/

namespace ClaudeHooks.Validators

open ClaudeHooks.Rules (GoError)
open ClaudeHooks.Parser

/-- `gitCommand`. -/
def gitCommand : String := "git"

/-- `commitSubcommand`. -/
def commitSubcommand : String := "commit"

/-- `addSubcommand`. -/
def addSubcommand : String := "add"

/-- `commitMessageFlags`. -/
def commitMessageFlags : List String := ["-m", "--message"]

/-- `commitFileFlags`. -/
def commitFileFlags : List String := ["-F", "--file"]

/-- The two help templates the validator fills: `GitCommitFlagsTemplate`
with the joined arguments, and `GitCommitNoStagedTemplate` with the counts
of modified and untracked files. -/
structure Templates where
  gitCommitFlags : String → String
  gitCommitNoStaged : Nat → Nat → String

/-- `CommitValidator`, by its git runner. -/
structure CommitValidator where
  gitRunner : GitRunner

/-- A `git` command whose first argument is `subcommand`. -/
def isGitSubcommand (subcommand : String) (cmd : Command) : Bool :=
  cmd.name == gitCommand && cmd.args.head? == some subcommand

namespace CommitValidator

section

variable (v : CommitValidator) (templates : Templates) (readFile : String → Except GoError String)
  (validateMessage : String → Result)

/-- `checkFlags`. -/
def checkFlags (gitCmd : GitCommand) : Result :=
  let hasSignoff := gitCmd.hasFlag "-s" || gitCmd.hasFlag "--signoff"
  let hasGPGSign := gitCmd.hasFlag "-S" || gitCmd.hasFlag "--gpg-sign"
  if !hasSignoff || !hasGPGSign then
    (Result.fail "Git commit must use -sS flags").addDetail "help"
      (templates.gitCommitFlags (" ".intercalate gitCmd.args))
  else .pass

/-- `getStatusCounts`: a count whose query fails is zero. -/
def getStatusCounts : Nat × Nat :=
  let modified := match v.gitRunner.getModifiedFiles with
    | .ok modifiedFiles => modifiedFiles.length
    | .error _ => 0
  let untracked := match v.gitRunner.getUntrackedFiles with
    | .ok untrackedFiles => untrackedFiles.length
    | .error _ => 0
  (modified, untracked)

/-- `checkStagingArea`. -/
def checkStagingArea (gitCmd : GitCommand) : Result :=
  if gitCmd.hasFlag "-a" || gitCmd.hasFlag "-A" || gitCmd.hasFlag "--all" then .pass
  else if !v.gitRunner.isInRepo then .pass
  else
    match v.gitRunner.getStagedFiles with
    | .error _ => .pass
    | .ok stagedFiles =>
      if stagedFiles.isEmpty then
        (Result.fail "No files staged for commit").addDetail "help"
          (templates.gitCommitNoStaged v.getStatusCounts.1 v.getStatusCounts.2)
      else .pass

/-- `hasGitAddInChain`. -/
def hasGitAddInChain (commands : List Command) : Bool :=
  commands.any (isGitSubcommand addSubcommand)

/-- `getFlagValue`: the first non-empty value of the flags, in order. -/
def getFlagValue (gitCmd : GitCommand) (flags : List String) : String :=
  (flags.findSome? fun flag => let value := gitCmd.getFlagValue flag; if value ≠ "" then some value else none).getD ""

/-- `extractCommitMessage`: the file named by `-F` or `--file`, trimmed, or
the value of `-m` or `--message`. -/
def extractCommitMessage (gitCmd : GitCommand) : Except GoError String :=
  let filePath := getFlagValue gitCmd commitFileFlags
  if filePath ≠ "" then
    match readFile filePath with
    | .error err => .error ⟨"failed to read commit message file " ++ filePath ++ ": " ++ err.message⟩
    | .ok content => .ok (trimSpace content)
  else
    let msg := getFlagValue gitCmd commitMessageFlags
    if msg ≠ "" then .ok msg else .ok ""

/-- The end of `Validate`'s loop body: the message, when there is one. -/
def checkMessage (gitCmd : GitCommand) : Result :=
  match extractCommitMessage readFile gitCmd with
  | .error err => .fail ("Failed to read commit message: " ++ err.message)
  | .ok commitMsg => if commitMsg = "" then .pass else validateMessage commitMsg

/-- The body of `Validate`'s loop for a `git commit` that parsed. -/
def validateCommit (hasGitAdd : Bool) (gitCmd : GitCommand) : Result :=
  let res := checkFlags templates gitCmd
  if !res.passed then res
  else if !gitCmd.hasFlag "--amend" && !gitCmd.hasFlag "--allow-empty" && !hasGitAdd &&
      !(v.checkStagingArea templates gitCmd).passed then
    v.checkStagingArea templates gitCmd
  else checkMessage readFile validateMessage gitCmd

/-- The loop of `Validate`: it returns at the first `git commit`. -/
def validateCommands (parseGitCommand : Command → Except GoError GitCommand) (hasGitAdd : Bool) :
    List Command → Result
  | [] => .pass
  | cmd :: rest =>
    if !isGitSubcommand commitSubcommand cmd then validateCommands parseGitCommand hasGitAdd rest
    else
      match parseGitCommand cmd with
      | .error err => .warn ("Failed to parse git command: " ++ err.message)
      | .ok gitCmd => v.validateCommit templates readFile validateMessage hasGitAdd gitCmd

/-- `Validate`, on the hook's command. -/
def validate (parsers : Parsers) (command : String) : Result :=
  match parsers.parseBash command with
  | .error err => .warn ("Failed to parse command: " ++ err.message)
  | .ok commands =>
    v.validateCommands templates readFile validateMessage parsers.parseGitCommand
      (hasGitAddInChain commands) commands

/-! ## The first commit -/

/-- The loop's result is that of the first `git commit`. -/
theorem validateCommands_append (parseGitCommand : Command → Except GoError GitCommand) (hasGitAdd : Bool)
    {pre : List Command} (hpre : ∀ c ∈ pre, isGitSubcommand commitSubcommand c = false)
    (rest : List Command) :
    v.validateCommands templates readFile validateMessage parseGitCommand hasGitAdd (pre ++ rest) =
      v.validateCommands templates readFile validateMessage parseGitCommand hasGitAdd rest := by
  induction pre with
  | nil => rfl
  | cons c pre ih =>
    rw [List.forall_mem_cons] at hpre
    simp only [List.cons_append, validateCommands, hpre.1, Bool.not_false, ↓reduceIte]
    exact ih hpre.2

/-- Only the first `git commit` of a line is checked: the result is that
commit's, and the rest of the line counts only through whether it runs
`git add`. -/
theorem validate_of_first_commit (parsers : Parsers) (command : String) {pre post : List Command}
    {cmd : Command} (hparse : parsers.parseBash command = .ok (pre ++ cmd :: post))
    (hpre : ∀ c ∈ pre, isGitSubcommand commitSubcommand c = false)
    (hcmd : isGitSubcommand commitSubcommand cmd = true) :
    v.validate templates readFile validateMessage parsers command =
      match parsers.parseGitCommand cmd with
      | .error err => .warn ("Failed to parse git command: " ++ err.message)
      | .ok gitCmd =>
        v.validateCommit templates readFile validateMessage (hasGitAddInChain (pre ++ cmd :: post)) gitCmd := by
  simp only [validate, hparse, validateCommands_append v templates readFile validateMessage _ _ hpre,
    validateCommands, hcmd, Bool.not_true, Bool.false_eq_true, ↓reduceIte]

/-- A line of two commits passes on the first, signed one: the second,
unsigned, is not checked. -/
theorem validate_of_first_commit_second_unchecked :
    isGitSubcommand commitSubcommand ⟨"git", ["commit", "-s", "-S"]⟩ = true ∧
      (⟨⟨true, .ok ["main.go"], .ok [], .ok [], .ok "/repo", fun _ => .ok "", .ok "main", fun _ => .ok "origin",
          .ok []⟩⟩ : CommitValidator).validate ⟨fun _ => "", fun _ _ => ""⟩ (fun _ => .ok "") (fun _ => .pass)
        ⟨fun _ => .ok [⟨"git", ["commit", "-s", "-S"]⟩, ⟨"git", ["commit"]⟩],
          fun c => .ok ⟨c.args.headD "", c.args.tail, c.args.tail.contains, fun _ => ""⟩⟩
        "git commit -s -S && git commit" = .pass :=
  ⟨by decide, (@validate_of_first_commit _ _ _ _ _ _ [] [⟨"git", ["commit"]⟩] ⟨"git", ["commit", "-s", "-S"]⟩ rfl
    (by simp) (by decide)).trans rfl⟩

/-! ## One commit -/

theorem checkFlags_passed (gitCmd : GitCommand) :
    (checkFlags templates gitCmd).passed =
      ((gitCmd.hasFlag "-s" || gitCmd.hasFlag "--signoff") && (gitCmd.hasFlag "-S" || gitCmd.hasFlag "--gpg-sign")) := by
  unfold checkFlags
  dsimp only
  generalize (gitCmd.hasFlag "-s" || gitCmd.hasFlag "--signoff") = signoff
  generalize (gitCmd.hasFlag "-S" || gitCmd.hasFlag "--gpg-sign") = gpgSign
  cases signoff <;> cases gpgSign <;> rfl

theorem checkStagingArea_passed (gitCmd : GitCommand) :
    (v.checkStagingArea templates gitCmd).passed = true ↔
      gitCmd.hasFlag "-a" = true ∨ gitCmd.hasFlag "-A" = true ∨ gitCmd.hasFlag "--all" = true ∨
        v.gitRunner.isInRepo = false ∨ ∀ stagedFiles, v.gitRunner.getStagedFiles = .ok stagedFiles → stagedFiles ≠ [] := by
  unfold checkStagingArea
  by_cases hflags : (gitCmd.hasFlag "-a" || gitCmd.hasFlag "-A" || gitCmd.hasFlag "--all") = true
  · simp only [hflags, ↓reduceIte, Result.pass_passed, true_iff]
    simp only [Bool.or_eq_true] at hflags
    rcases hflags with (h | h) | h <;> simp [h]
  · simp only [Bool.or_eq_true, not_or, Bool.not_eq_true] at hflags
    simp only [hflags.1.1, hflags.1.2, hflags.2, Bool.or_false, Bool.false_eq_true, ↓reduceIte, false_or]
    cases v.gitRunner.isInRepo
    · simp
    · cases v.gitRunner.getStagedFiles with
      | error e => simp
      | ok stagedFiles => by_cases hs : stagedFiles = [] <;> simp [hs]

/-- The message check passes: no message, or a message `validateMessage`
passes. A message file that cannot be read fails. -/
def MessagePasses (gitCmd : GitCommand) : Prop :=
  match extractCommitMessage readFile gitCmd with
  | .error _ => False
  | .ok commitMsg => commitMsg = "" ∨ (validateMessage commitMsg).passed = true

theorem checkMessage_passed (gitCmd : GitCommand) :
    (checkMessage readFile validateMessage gitCmd).passed = true ↔ MessagePasses readFile validateMessage gitCmd := by
  unfold checkMessage MessagePasses
  split
  · simp
  · split <;> simp_all

theorem validateCommit_passed (hasGitAdd : Bool) (gitCmd : GitCommand) :
    (v.validateCommit templates readFile validateMessage hasGitAdd gitCmd).passed =
      ((checkFlags templates gitCmd).passed &&
        (gitCmd.hasFlag "--amend" || gitCmd.hasFlag "--allow-empty" || hasGitAdd ||
          (v.checkStagingArea templates gitCmd).passed) &&
        (checkMessage readFile validateMessage gitCmd).passed) := by
  unfold validateCommit
  dsimp only
  cases hflags : (checkFlags templates gitCmd).passed
  · simp [hflags]
  · cases gitCmd.hasFlag "--amend" <;> cases gitCmd.hasFlag "--allow-empty" <;> cases hasGitAdd <;>
      cases hstaging : (v.checkStagingArea templates gitCmd).passed <;> simp [hstaging]

/-- A commit passes exactly when it is signed off and GPG-signed, when it
amends, allows an empty commit, shares its line with a `git add`, or the
staging check passes, and when its message passes. -/
theorem validateCommit_passed_iff (hasGitAdd : Bool) (gitCmd : GitCommand) :
    (v.validateCommit templates readFile validateMessage hasGitAdd gitCmd).passed = true ↔
      (gitCmd.hasFlag "-s" = true ∨ gitCmd.hasFlag "--signoff" = true) ∧
        (gitCmd.hasFlag "-S" = true ∨ gitCmd.hasFlag "--gpg-sign" = true) ∧
        (gitCmd.hasFlag "--amend" = true ∨ gitCmd.hasFlag "--allow-empty" = true ∨ hasGitAdd = true ∨
          (v.checkStagingArea templates gitCmd).passed = true) ∧
        MessagePasses readFile validateMessage gitCmd := by
  rw [validateCommit_passed, checkFlags_passed, ← checkMessage_passed readFile validateMessage gitCmd]
  simp only [Bool.and_eq_true, Bool.or_eq_true, or_assoc, and_assoc]

end

end CommitValidator

end ClaudeHooks.Validators
