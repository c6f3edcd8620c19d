import ClaudeHooks.Validators.Markdown
import ClaudeHooks.Validators.GitRunner
import ClaudeHooks.Parser.Command

/-!
# Validators — the file validators

`MarkdownValidator.Validate` and `TerraformValidator.Validate`
(`internal/validators/file`) check the content a tool is about to write.
Both take it with the same `getContent`: only the tool input's content is
read, and an edit, or a call that names only a file, is skipped. The
Terraform validator then runs `tofu fmt` or `terraform fmt`, and `tflint`,
on a temporary file; the model is given what the system answers
(`TerraformEnv`). The hook context's enums are not in the source: the model
is given whether the call is a `PreToolUse` of the `Edit` tool.

* `fileValidators_never_block`: neither validator ever blocks, and both
  pass on every call whose tool input carries no content.
* `TerraformValidator.validate_passed_iff`: the writes the Terraform
  validator lets through without a warning. With neither `tofu` nor
  `terraform` installed, every write it can copy to a temporary file is
  warned about.
-/

namespace ClaudeHooks.Validators

open ClaudeHooks.Rules (GoError)
open ClaudeHooks.Parser (trimSpace)

/-- What `getContent` reads of the hook context: the tool input's content,
whether the call is a `PreToolUse` of `Edit`, and `GetFilePath()`. -/
structure FileHookContext where
  content : String
  preToolUseEdit : Bool
  filePath : String
  deriving DecidableEq, Repr

/-- The `getContent` of the file validators; the two have one body. -/
def getFileContent (ctx : FileHookContext) : Except GoError String :=
  if ctx.content ≠ "" then .ok ctx.content
  else if ctx.preToolUseEdit then .error ⟨"cannot validate Edit operations in PreToolUse"⟩
  else if ctx.filePath ≠ "" then .error ⟨"file-based validation not implemented"⟩
  else .error ⟨"no content found"⟩

/-- `MarkdownValidator.getContent`. -/
def MarkdownValidator.getContent (ctx : FileHookContext) : Except GoError String := getFileContent ctx

/-- `TerraformValidator.getContent`. -/
def TerraformValidator.getContent (ctx : FileHookContext) : Except GoError String := getFileContent ctx

/-- The end of both `Validate`s: the warnings, when there are any, joined
into one warning's details. -/
def warnOf (message : String) (warnings : List String) : Result :=
  if warnings.length > 0 then .warnWithDetails message [("warnings", "\n".intercalate warnings)] else .pass

/-- `MarkdownValidator.Validate`. -/
def MarkdownValidator.validate (ctx : FileHookContext) : Result :=
  match MarkdownValidator.getContent ctx with
  | .error _ => .pass
  | .ok content => if content = "" then .pass else warnOf "Markdown formatting warnings" (analyzeMarkdown content)

/-! ## The Terraform validator -/

/-- The error of a command run: an `*exec.ExitError` with its exit code, or
another error; each with its text. -/
inductive RunError where
  | exit (code : Int) (message : String)
  | other (message : String)
  deriving DecidableEq, Repr

/-- `err.Error()`. -/
def RunError.message : RunError → String
  | .exit _ message => message
  | .other message => message

/-- The exit code `errors.As` finds, when the error is an `*exec.ExitError`. -/
def RunError.exitCode? : RunError → Option Int
  | .exit code _ => some code
  | .other _ => none

/-- How `cmd.Run()` ended (`none` for `nil`), and what the tool printed. -/
structure RunResult where
  err : Option RunError
  stdout : String
  stderr : String
  deriving DecidableEq, Repr

/-- What the Terraform validator asks of the system: whether
`exec.LookPath` finds a tool, the temporary file `os.CreateTemp` makes for a
content, and the runs of `tool fmt -check -diff file` and
`tflint --format=compact file`. -/
structure TerraformEnv where
  lookPath : String → Bool
  createTempFile : String → Except GoError String
  runFmt : String → String → RunResult
  runTflint : String → RunResult

namespace TerraformValidator

variable (env : TerraformEnv)

/-- `detectTool`: `tofu` first. -/
def detectTool : String :=
  if env.lookPath "tofu" then "tofu" else if env.lookPath "terraform" then "terraform" else ""

/-- `filepath.Base`, on the paths `os.CreateTemp` returns: the last element. -/
def pathBase (path : String) : String := ⟨(path.data.reverse.takeWhile (· ≠ '/')).reverse⟩

/-- `checkFormat`: a warning, or nothing when the formatting is right. -/
def checkFormat (tool filePath : String) : String :=
  if tool = "" then "⚠️  Neither \x27tofu\x27 nor \x27terraform\x27 found in PATH - skipping format check"
  else
    let run := env.runFmt tool filePath
    match run.err with
    | none => ""
    | some err =>
      if err.exitCode? = some 3 then
        let diff := if run.stdout = "" then run.stderr else run.stdout
        "⚠️  Terraform formatting issues detected:\n" ++ trimSpace diff ++ "\n   Run \x27" ++ tool ++ " fmt " ++
          pathBase filePath ++ "\x27 to fix"
      else "⚠️  Failed to run \x27" ++ tool ++ " fmt -check\x27: " ++ err.message

/-- `runTflint`: the findings, when `tflint` is installed, fails, and prints
something. -/
def runTflint (filePath : String) : List String :=
  if !env.lookPath "tflint" then []
  else
    let run := env.runTflint filePath
    let output := trimSpace run.stdout
    match run.err with
    | some _ => if output ≠ "" then ["⚠️  tflint findings:\n" ++ output] else []
    | none => []

/-- `TerraformValidator.Validate`; removing the temporary file only logs. -/
def validate (ctx : FileHookContext) : Result :=
  match TerraformValidator.getContent ctx with
  | .error _ => .pass
  | .ok content =>
    if content = "" then .pass
    else
      let tool := detectTool env
      match env.createTempFile content with
      | .error _ => .pass
      | .ok tmpFile =>
        let fmtWarning := checkFormat env tool tmpFile
        let warnings := (if fmtWarning ≠ "" then [fmtWarning] else []) ++ runTflint env tmpFile
        warnOf "Terraform validation warnings" warnings

end TerraformValidator

/-! ## What the file validators never do -/

theorem getFileContent_eq_ok {ctx : FileHookContext} {content : String} :
    getFileContent ctx = .ok content ↔ ctx.content ≠ "" ∧ content = ctx.content := by
  unfold getFileContent
  by_cases h : ctx.content = ""
  · simp only [h, ne_eq, not_true_eq_false, ↓reduceIte, false_and, iff_false]
    split_ifs <;> exact fun h' => by cases h'
  · simp only [h, ne_eq, not_false_eq_true, ↓reduceIte, true_and, Except.ok.injEq]
    exact eq_comm

@[simp] theorem warnOf_shouldBlock (message : String) (warnings : List String) :
    (warnOf message warnings).shouldBlock = false := by
  unfold warnOf
  split_ifs <;> rfl

theorem warnOf_passed (message : String) (warnings : List String) :
    (warnOf message warnings).passed = true ↔ warnings = [] := by
  unfold warnOf
  split_ifs with h <;> simp_all [List.length_pos]

/-- Both validators start alike: a call without content passes, and
otherwise the result is the check of that content. -/
theorem validate_of_getFileContent {f : String → Result} {ctx : FileHookContext} :
    (match getFileContent ctx with
      | .error _ => Result.pass
      | .ok content => if content = "" then .pass else f content) =
      if ctx.content = "" then .pass else f ctx.content := by
  by_cases h : ctx.content = ""
  · have : ∀ content, getFileContent ctx ≠ .ok content := fun _ hc => (getFileContent_eq_ok.mp hc).1 h
    cases hc : getFileContent ctx with
    | error err => simp [h]
    | ok content => exact absurd hc (this content)
  · rw [(@getFileContent_eq_ok ctx ctx.content).mpr ⟨h, rfl⟩]

theorem MarkdownValidator.validate_eq (ctx : FileHookContext) :
    MarkdownValidator.validate ctx =
      if ctx.content = "" then .pass else warnOf "Markdown formatting warnings" (analyzeMarkdown ctx.content) :=
  validate_of_getFileContent

theorem TerraformValidator.validate_eq (env : TerraformEnv) (ctx : FileHookContext) :
    TerraformValidator.validate env ctx =
      if ctx.content = "" then .pass
      else
        match env.createTempFile ctx.content with
        | .error _ => .pass
        | .ok tmpFile =>
          warnOf "Terraform validation warnings"
            ((if checkFormat env (detectTool env) tmpFile ≠ "" then [checkFormat env (detectTool env) tmpFile]
              else []) ++ runTflint env tmpFile) :=
  validate_of_getFileContent

/-- Neither file validator ever blocks, and both pass on every call whose
tool input carries no content: an edit, or a call that names only a file,
is never checked. -/
theorem fileValidators_never_block (env : TerraformEnv) (ctx : FileHookContext) :
    (MarkdownValidator.validate ctx).shouldBlock = false ∧
      (TerraformValidator.validate env ctx).shouldBlock = false ∧
      ∀ preToolUseEdit filePath, MarkdownValidator.validate ⟨"", preToolUseEdit, filePath⟩ = .pass ∧
        TerraformValidator.validate env ⟨"", preToolUseEdit, filePath⟩ = .pass := by
  refine ⟨?_, ?_, fun _ _ => ⟨by simp [MarkdownValidator.validate_eq], by simp [TerraformValidator.validate_eq]⟩⟩
  · rw [MarkdownValidator.validate_eq]
    split_ifs <;> simp
  · rw [TerraformValidator.validate_eq]
    split_ifs
    · rfl
    · split <;> simp

/-! ## Which writes the Terraform validator lets through -/

theorem append_ne_empty_of_left {s : String} (t : String) (hs : s ≠ "") : s ++ t ≠ "" := fun h =>
  hs (String.ext (List.append_eq_nil.mp (congrArg String.data h)).1)

theorem TerraformValidator.checkFormat_eq_empty (env : TerraformEnv) (tool filePath : String) :
    checkFormat env tool filePath = "" ↔ tool ≠ "" ∧ (env.runFmt tool filePath).err = none := by
  unfold checkFormat
  generalize env.runFmt tool filePath = run
  obtain ⟨_ | err, stdout, stderr⟩ := run
  · by_cases htool : tool = "" <;> simp [htool]
  · by_cases htool : tool = ""
    · simp [htool]
    · simp only [htool, ↓reduceIte, ne_eq, not_false_eq_true, reduceCtorEq, and_false, iff_false]
      split_ifs <;> (repeat apply append_ne_empty_of_left) <;> decide

theorem TerraformValidator.runTflint_eq_nil (env : TerraformEnv) (filePath : String) :
    runTflint env filePath = [] ↔
      env.lookPath "tflint" = false ∨ (env.runTflint filePath).err = none ∨
        trimSpace (env.runTflint filePath).stdout = "" := by
  unfold runTflint
  generalize env.runTflint filePath = run
  obtain ⟨_ | err, stdout, stderr⟩ := run <;> cases env.lookPath "tflint" <;> simp

theorem TerraformValidator.detectTool_ne_empty (env : TerraformEnv) :
    detectTool env ≠ "" ↔ env.lookPath "tofu" = true ∨ env.lookPath "terraform" = true := by
  unfold detectTool
  cases env.lookPath "tofu" <;> cases env.lookPath "terraform" <;> simp

/-- The Terraform validator passes a call exactly when it carries no
content, the temporary file cannot be made, or `tofu` or `terraform` is
installed, its format check succeeds, and `tflint` is missing, succeeds or
prints nothing. -/
theorem TerraformValidator.validate_passed_iff (env : TerraformEnv) (ctx : FileHookContext) :
    (validate env ctx).passed = true ↔
      ctx.content = "" ∨ (∃ err, env.createTempFile ctx.content = .error err) ∨
        ∃ tmpFile, env.createTempFile ctx.content = .ok tmpFile ∧
          (env.lookPath "tofu" = true ∨ env.lookPath "terraform" = true) ∧
          (env.runFmt (detectTool env) tmpFile).err = none ∧
          (env.lookPath "tflint" = false ∨ (env.runTflint tmpFile).err = none ∨
            trimSpace (env.runTflint tmpFile).stdout = "") := by
  rw [validate_eq]
  by_cases hcontent : ctx.content = ""
  · simp [hcontent]
  · simp only [hcontent, ↓reduceIte, false_or]
    cases hfile : env.createTempFile ctx.content with
    | error err => simp
    | ok tmpFile =>
      simp only [warnOf_passed, List.append_eq_nil, ite_eq_right_iff, List.cons_ne_nil, imp_false, not_not,
        checkFormat_eq_empty, runTflint_eq_nil, detectTool_ne_empty, reduceCtorEq, exists_false,
        Except.ok.injEq, exists_eq_left', false_or, and_assoc]

/- With no formatter installed, a write is warned about. -/
example : (TerraformValidator.validate ⟨fun _ => false, fun _ => .ok "/tmp/terraform-1.tf",
    fun _ _ => ⟨none, "", ""⟩, fun _ => ⟨none, "", ""⟩⟩ ⟨"locals = 1", false, "main.tf"⟩).passed = false := by
  decide

end ClaudeHooks.Validators
