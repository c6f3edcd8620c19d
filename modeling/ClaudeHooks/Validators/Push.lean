import ClaudeHooks.Parser.Command
import ClaudeHooks.Validators.GitRunner
import Mathlib.Data.List.Sort
import Mathlib.Data.String.Basic

/-!
# Validators — git push

`internal/validators/git/push.go`: `PushValidator.Validate` parses a Bash
line and checks each `git push` in it, stopping at the first check that does
not pass. A push is checked only inside a repository and when it names a
remote: the remote must exist, and the project the repository belongs to may
restrict it (Kong projects push to `upstream`, not `origin`; in `kumahq/kuma`
a push to `upstream` is a warning).

* `validateCommands_eq_firstFailure`: the result is that of the first push
  whose check does not pass, or a pass.
* `validate_shouldBlock_iff`: a line is blocked exactly when that first
  result blocks. A warning also ends the loop, so a push after it is never
  checked.
* `validatePushCommand_shouldBlock_iff`: which single pushes are blocked.
* `formatRemoteNotFoundError_perm`: the list of remotes in the error does not
  depend on the order in which the remotes map is ranged over
  (`validate_realGitRunner_perm` carries this to the whole validator).
-/

namespace ClaudeHooks.Validators

open ClaudeHooks.Rules (GoError containsStr)
open ClaudeHooks.Parser

/-- `defaultRemote`. -/
def defaultRemote : String := "origin"

/-- `detectProjectType`: `kumahq/kuma` is looked for first. -/
def detectProjectType (repoRoot : String) : String :=
  if containsStr repoRoot "/kumahq/kuma" then "kumahq/kuma"
  else if containsStr repoRoot "/kong/" || containsStr repoRoot "/Kong/" then "kong-org"
  else ""

/-- `PushValidator`, by its git runner. -/
structure PushValidator where
  gitRunner : GitRunner

namespace PushValidator

/-- `extractRemote`: with no arguments, the current branch's remote, or
`origin` when either query fails; otherwise the first argument that does not
start with `-`, or nothing. -/
def extractRemote (v : PushValidator) (gitCmd : GitCommand) : String :=
  if gitCmd.args.isEmpty then
    match v.gitRunner.getCurrentBranch with
    | .error _ => defaultRemote
    | .ok branch =>
      match v.gitRunner.getBranchRemote branch with
      | .error _ => defaultRemote
      | .ok remote => remote
  else (gitCmd.args.find? fun arg => !"-".data.isPrefixOf arg.data).getD ""

/-- `sort.Strings`. Go compares bytes and Lean characters; on valid UTF-8
the two orders agree, and on distinct names every sort gives this result. -/
def sortStrings (names : List String) : List String := names.insertionSort (· ≤ ·)

/-- `formatRemoteNotFoundError`, with the remotes map given by its entries
in range order. -/
def formatRemoteNotFoundError (remote : String) (remotes : List (String × String)) : String :=
  let names := sortStrings (remotes.map (·.1))
  "❌ Remote \x27" ++ remote ++ "\x27 does not exist\n\n" ++ "Available remotes:\n" ++
    String.join (names.map fun name => "  " ++ name ++ "  " ++ (remotes.lookup name).getD "" ++ "\n") ++
    "\nUse \x27git remote -v\x27 to list all configured remotes."

/-- `validateRemoteExists`. -/
def validateRemoteExists (v : PushValidator) (remote : String) : Result :=
  match v.gitRunner.getRemoteURL remote with
  | .ok _ => .pass
  | .error _ =>
    match v.gitRunner.getRemotes with
    | .error _ => .fail ("🚫 Git push validation failed:\n\n❌ Remote \x27" ++ remote ++ "\x27 does not exist")
    | .ok remotes => .fail ("🚫 Git push validation failed:\n\n" ++ formatRemoteNotFoundError remote remotes)

/-- `validateKongOrgPush`. -/
def validateKongOrgPush (remote : String) : Result :=
  if remote = "origin" then
    .fail ("🚫 Git push validation failed:\n\n❌ Kong org projects should push to \x27upstream\x27 remote " ++
      "(main repo)\n   Note: \x27origin\x27 is your fork, use \x27upstream\x27 for Kong repos\n\n" ++
      "Expected: git push upstream branch-name")
  else .pass

/-- The warning of `validateKumaPush`: not passed, and not blocking. -/
def kumaUpstreamWarning : Result :=
  ⟨false, "⚠️  Warning: Pushing to \x27upstream\x27 remote in kumahq/kuma\n   This should only be done " ++
    "when explicitly intended\n   Normal workflow: push to \x27origin\x27 (your fork)", false, []⟩

/-- `validateKumaPush`. -/
def validateKumaPush (remote : String) : Result :=
  if remote = "upstream" then kumaUpstreamWarning else .pass

/-- `validateProjectSpecificRules`. -/
def validateProjectSpecificRules (projectType remote : String) : Result :=
  if projectType = "kong-org" then validateKongOrgPush remote
  else if projectType = "kumahq/kuma" then validateKumaPush remote
  else .pass

/-- `validatePushCommand`. -/
def validatePushCommand (v : PushValidator) (gitCmd : GitCommand) : Result :=
  if !v.gitRunner.isInRepo then .pass
  else
    let remote := v.extractRemote gitCmd
    if remote = "" then .pass
    else
      let result := v.validateRemoteExists remote
      if !result.passed then result
      else
        match v.gitRunner.getRepoRoot with
        | .error _ => .pass
        | .ok repoRoot => validateProjectSpecificRules (detectProjectType repoRoot) remote

/-- The loop of `Validate` over the parsed commands. -/
def validateCommands (v : PushValidator) (parseGitCommand : Command → Except GoError GitCommand) :
    List Command → Result
  | [] => .pass
  | cmd :: rest =>
    if cmd.name != "git" || cmd.args.isEmpty then v.validateCommands parseGitCommand rest
    else
      match parseGitCommand cmd with
      | .error _ => v.validateCommands parseGitCommand rest
      | .ok gitCmd =>
        if gitCmd.subcommand != "push" then v.validateCommands parseGitCommand rest
        else
          let result := v.validatePushCommand gitCmd
          if !result.passed then result else v.validateCommands parseGitCommand rest

/-- `Validate`, on the hook's command. -/
def validate (v : PushValidator) (parsers : Parsers) (command : String) : Result :=
  if command = "" then .pass
  else
    match parsers.parseBash command with
    | .error _ => .pass
    | .ok commands => v.validateCommands parsers.parseGitCommand commands

/-! ## The loop -/

/-- A command the loop checks: a `git` command with arguments that parses as
a `push`. -/
def pushCommand (parseGitCommand : Command → Except GoError GitCommand) (cmd : Command) :
    Option GitCommand :=
  if cmd.name != "git" || cmd.args.isEmpty then none
  else
    match parseGitCommand cmd with
    | .error _ => none
    | .ok gitCmd => if gitCmd.subcommand != "push" then none else some gitCmd

/-- The check results of a line's pushes, in order. -/
def pushResults (v : PushValidator) (parseGitCommand : Command → Except GoError GitCommand)
    (commands : List Command) : List Result :=
  (commands.filterMap (pushCommand parseGitCommand)).map v.validatePushCommand

/-- The first result that does not pass, or a pass. -/
def firstFailure : List Result → Result
  | [] => .pass
  | r :: rs => if !r.passed then r else firstFailure rs

theorem validateCommands_cons (v : PushValidator) (parseGitCommand : Command → Except GoError GitCommand)
    (cmd : Command) (rest : List Command) :
    v.validateCommands parseGitCommand (cmd :: rest) =
      match pushCommand parseGitCommand cmd with
      | none => v.validateCommands parseGitCommand rest
      | some gitCmd =>
        if !(v.validatePushCommand gitCmd).passed then v.validatePushCommand gitCmd
        else v.validateCommands parseGitCommand rest := by
  simp only [validateCommands, pushCommand]
  by_cases hskip : (cmd.name != "git" || cmd.args.isEmpty) = true
  · simp only [hskip, ↓reduceIte]
  · simp only [hskip, ↓reduceIte, Bool.false_eq_true]
    cases parseGitCommand cmd with
    | error e => rfl
    | ok gitCmd => by_cases hsub : (gitCmd.subcommand != "push") = true <;> simp [hsub]

theorem firstFailure_cons_of_passed {r : Result} (h : r.passed = true) (rs : List Result) :
    firstFailure (r :: rs) = firstFailure rs := by
  simp [firstFailure, h]

theorem firstFailure_cons_of_not_passed {r : Result} (h : r.passed = false) (rs : List Result) :
    firstFailure (r :: rs) = r := by
  simp [firstFailure, h]

/-- The loop's result is the first failure among the checks of the line's
pushes. -/
theorem validateCommands_eq_firstFailure (v : PushValidator)
    (parseGitCommand : Command → Except GoError GitCommand) (commands : List Command) :
    v.validateCommands parseGitCommand commands = firstFailure (v.pushResults parseGitCommand commands) := by
  induction commands with
  | nil => rfl
  | cons cmd rest ih =>
    rw [validateCommands_cons, pushResults, List.filterMap_cons]
    cases pushCommand parseGitCommand cmd with
    | none => exact ih
    | some gitCmd =>
      rw [List.map_cons, ← pushResults, ih]
      rfl

/-- The first failure blocks exactly when some result blocks and every
result before it passed. -/
theorem firstFailure_shouldBlock_iff (rs : List Result) :
    (firstFailure rs).shouldBlock = true ↔
      ∃ pre r post, rs = pre ++ r :: post ∧ (∀ x ∈ pre, x.passed = true) ∧ r.passed = false ∧
        r.shouldBlock = true := by
  induction rs with
  | nil => simp [firstFailure]
  | cons r rs ih =>
    cases h : r.passed
    · rw [firstFailure_cons_of_not_passed h]
      constructor
      · exact fun hb => ⟨[], r, rs, rfl, by simp, h, hb⟩
      · rintro ⟨pre, r', post, heq, hpre, hr', hb⟩
        cases pre with
        | nil => cases heq; exact hb
        | cons x pre =>
          cases heq
          simp [h] at hpre
    · rw [firstFailure_cons_of_passed h, ih]
      constructor
      · rintro ⟨pre, r', post, rfl, hpre, hr', hb⟩
        exact ⟨r :: pre, r', post, rfl, List.forall_mem_cons.mpr ⟨h, hpre⟩, hr', hb⟩
      · rintro ⟨pre, r', post, heq, hpre, hr', hb⟩
        cases pre with
        | nil => cases heq; simp [h] at hr'
        | cons x pre =>
          cases heq
          exact ⟨pre, r', post, rfl, fun y hy => hpre y (by simp [hy]), hr', hb⟩

/-- A line is blocked exactly when it parses into commands among whose
pushes the first check that does not pass blocks. A warning ends the loop as
a failure does, so a push after a warned one is never checked. -/
theorem validate_shouldBlock_iff (v : PushValidator) (parsers : Parsers) (command : String) :
    (v.validate parsers command).shouldBlock = true ↔
      ∃ commands, command ≠ "" ∧ parsers.parseBash command = .ok commands ∧
        ∃ pre r post, v.pushResults parsers.parseGitCommand commands = pre ++ r :: post ∧
          (∀ x ∈ pre, x.passed = true) ∧ r.passed = false ∧ r.shouldBlock = true := by
  unfold validate
  split
  · simp_all
  · split
    · simp_all
    · rename_i commands hparse
      rw [validateCommands_eq_firstFailure, firstFailure_shouldBlock_iff]
      constructor
      · exact fun h => ⟨commands, ‹_›, hparse, h⟩
      · rintro ⟨commands', -, hparse', h⟩
        rw [hparse] at hparse'
        cases hparse'
        exact h

/-! ## One push -/

theorem validateProjectSpecificRules_shouldBlock (projectType remote : String) :
    (validateProjectSpecificRules projectType remote).shouldBlock = true ↔
      projectType = "kong-org" ∧ remote = "origin" := by
  unfold validateProjectSpecificRules validateKongOrgPush validateKumaPush
  split_ifs <;> simp_all [kumaUpstreamWarning]

theorem validateRemoteExists_passed (v : PushValidator) (remote : String) :
    (v.validateRemoteExists remote).passed = true ↔ ∃ url, v.gitRunner.getRemoteURL remote = .ok url := by
  unfold validateRemoteExists
  split
  · simp_all
  · split <;> simp_all

theorem validateRemoteExists_shouldBlock (v : PushValidator) (remote : String) :
    (v.validateRemoteExists remote).shouldBlock = !(v.validateRemoteExists remote).passed := by
  unfold validateRemoteExists
  split
  · rfl
  · split <;> rfl

/-- A push is blocked exactly when, inside a repository and with a remote,
the remote does not exist, or the repository is a Kong project (and not
`kumahq/kuma`) and the remote is `origin`. A push to `upstream` in
`kumahq/kuma` only warns. -/
theorem validatePushCommand_shouldBlock_iff (v : PushValidator) (gitCmd : GitCommand) :
    (v.validatePushCommand gitCmd).shouldBlock = true ↔
      v.gitRunner.isInRepo = true ∧ v.extractRemote gitCmd ≠ "" ∧
        ((∀ url, v.gitRunner.getRemoteURL (v.extractRemote gitCmd) ≠ .ok url) ∨
          ∃ repoRoot, v.gitRunner.getRepoRoot = .ok repoRoot ∧ detectProjectType repoRoot = "kong-org" ∧
            v.extractRemote gitCmd = "origin") := by
  unfold validatePushCommand
  cases hrepo : v.gitRunner.isInRepo
  · simp
  · simp only [Bool.not_true, Bool.false_eq_true, ↓reduceIte, true_and]
    by_cases hremote : v.extractRemote gitCmd = ""
    · simp [hremote]
    · simp only [hremote, ↓reduceIte, ne_eq, not_false_eq_true, true_and]
      cases hpassed : (v.validateRemoteExists (v.extractRemote gitCmd)).passed
      · have hblock := validateRemoteExists_shouldBlock v (v.extractRemote gitCmd)
        have hnone : ∀ url, v.gitRunner.getRemoteURL (v.extractRemote gitCmd) ≠ .ok url := fun url h =>
          absurd ((validateRemoteExists_passed v _).mpr ⟨url, h⟩) (by simp [hpassed])
        rw [hpassed] at hblock
        simp [hblock, hnone]
      · obtain ⟨url, hurl⟩ := (validateRemoteExists_passed v _).mp hpassed
        have hne : ¬ ∀ url', v.gitRunner.getRemoteURL (v.extractRemote gitCmd) ≠ .ok url' :=
          fun h => h url hurl
        cases hroot : v.gitRunner.getRepoRoot with
        | error e => simp [hne]
        | ok repoRoot => simp [hne, validateProjectSpecificRules_shouldBlock]

/-! ## The remotes in the error -/

/-- The sorted names of two orders of one map are the same list. -/
theorem sortStrings_eq_of_perm {l₁ l₂ : List String} (hp : l₁.Perm l₂) : sortStrings l₁ = sortStrings l₂ :=
  List.eq_of_perm_of_sorted (((List.perm_insertionSort _ _).trans hp).trans (List.perm_insertionSort _ _).symm)
    (List.sorted_insertionSort _ _) (List.sorted_insertionSort _ _)

/-- Whatever order the range over the remotes map takes, the error lists the
same remotes in the same, sorted, order. -/
theorem formatRemoteNotFoundError_perm (remote : String) {l₁ l₂ : List (String × String)}
    (hkeys : (l₁.map (·.1)).Nodup) (hperm : l₁.Perm l₂) :
    formatRemoteNotFoundError remote l₁ = formatRemoteNotFoundError remote l₂ := by
  simp only [formatRemoteNotFoundError, sortStrings_eq_of_perm (hperm.map (·.1)), lookup_eq_of_perm hkeys hperm]

end PushValidator

end ClaudeHooks.Validators
