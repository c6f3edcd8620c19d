import ClaudeHooks.Rules.Pattern

/-!
# Validators — results and the git runner

What the validators share. `validator.Result` is what they return; it and
its constructors `Pass`, `Fail`, `Warn` and `WarnWithDetails` are in
`internal/validator`, which is not in the source: a failure blocks the
operation, a warning does not, and `AddDetail` sets one entry of the
result's details.

`GitRunner` (`internal/validators/git`) is the interface through which the
validators query the repository. A validation only queries, so the model
gives a runner by the answers of its queries: one value is the repository
for a whole validation.
-/

namespace ClaudeHooks.Validators

open ClaudeHooks.Rules (GoError)

/-- `validator.Result`, with the fields the git validators set. -/
structure Result where
  passed : Bool
  message : String
  shouldBlock : Bool
  details : List (String × String)
  deriving DecidableEq, Repr

/-- `validator.Pass()`. -/
def Result.pass : Result := ⟨true, "", false, []⟩

/-- `validator.Fail(message)`. -/
def Result.fail (message : String) : Result := ⟨false, message, true, []⟩

/-- `validator.Warn(message)`. -/
def Result.warn (message : String) : Result := ⟨false, message, false, []⟩

/-- `validator.WarnWithDetails(message, details)`. -/
def Result.warnWithDetails (message : String) (details : List (String × String)) : Result :=
  ⟨false, message, false, details⟩

/-- `Result.AddDetail(key, value)`: the details map with `key` set. -/
def Result.addDetail (r : Result) (key value : String) : Result :=
  { r with details := (key, value) :: r.details.filter (·.1 ≠ key) }

@[simp] theorem Result.pass_passed : Result.pass.passed = true := rfl
@[simp] theorem Result.fail_passed (m : String) : (Result.fail m).passed = false := rfl
@[simp] theorem Result.fail_shouldBlock (m : String) : (Result.fail m).shouldBlock = true := rfl
@[simp] theorem Result.warn_passed (m : String) : (Result.warn m).passed = false := rfl
@[simp] theorem Result.warn_shouldBlock (m : String) : (Result.warn m).shouldBlock = false := rfl
@[simp] theorem Result.pass_shouldBlock : Result.pass.shouldBlock = false := rfl
@[simp] theorem Result.warnWithDetails_passed (m : String) (d : List (String × String)) :
    (Result.warnWithDetails m d).passed = false := rfl
@[simp] theorem Result.warnWithDetails_shouldBlock (m : String) (d : List (String × String)) :
    (Result.warnWithDetails m d).shouldBlock = false := rfl
@[simp] theorem Result.addDetail_passed (r : Result) (k v : String) : (r.addDetail k v).passed = r.passed := rfl
@[simp] theorem Result.addDetail_message (r : Result) (k v : String) : (r.addDetail k v).message = r.message := rfl
@[simp] theorem Result.addDetail_shouldBlock (r : Result) (k v : String) :
    (r.addDetail k v).shouldBlock = r.shouldBlock := rfl

/-- `GitRunner`, by the answers of its queries. `GetRemotes` gives the
remotes map as its entries, in the order a range over it visits them. -/
structure GitRunner where
  isInRepo : Bool
  getStagedFiles : Except GoError (List String)
  getModifiedFiles : Except GoError (List String)
  getUntrackedFiles : Except GoError (List String)
  getRepoRoot : Except GoError String
  getRemoteURL : String → Except GoError String
  getCurrentBranch : Except GoError String
  getBranchRemote : String → Except GoError String
  getRemotes : Except GoError (List (String × String))

end ClaudeHooks.Validators
