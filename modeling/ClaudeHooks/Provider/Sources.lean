import ClaudeHooks.Parser.Command
import Mathlib.Data.List.Perm.Basic

/-!
# Provider — the flag and environment sources

`internal/config/provider`: two of the sources the configuration provider
merges. `FlagSource.Load` applies the CLI flags map, `EnvSource.Load` reads
the `KLAUDIUSH_*` environment variables. The configuration schema
(`pkg/config`) is not in the source; `Config` keeps the fields the two
sources write, and the nil pointers of a struct are `none`. `ErrNoConfig`
and `time.ParseDuration` are outside the source too: the first is the
`noConfig` error, the second a parameter.

* `FlagSource.load_perm`: the range over the flags map may take the flags in
  any order; whether `Load` succeeds, and the configuration it builds, do
  not depend on that order (the error's text does).
* `applyFlag_disable_eq_ok`: `--disable` succeeds exactly when every name in
  its list is one of the six it knows, and then disables exactly those.
* `EnvSource.load_eq_noConfig_iff`: `Load` reports that there is no
  configuration exactly when none of its fourteen variables is set, and a
  source that loads reports itself available (`EnvSource.isAvailable_of_load`).
-/

namespace ClaudeHooks.Provider

open ClaudeHooks.Rules (GoError)
open ClaudeHooks.Parser (trimSpace)

/-! ## The configuration the sources write -/

/-- `config.ValidatorConfig`, its two fields the sources set. -/
structure ValidatorConfig where
  enabled : Option Bool := none
  severity : String := ""
  deriving DecidableEq, Repr

/-- `config.GlobalConfig`; a `Duration` is its nanoseconds. -/
structure GlobalConfig where
  useSDKGit : Option Bool := none
  defaultTimeout : Int := 0
  deriving DecidableEq, Repr

/-- `config.GitConfig`; each validator's config is its `ValidatorConfig`. -/
structure GitConfig where
  commit : Option ValidatorConfig := none
  push : Option ValidatorConfig := none
  add : Option ValidatorConfig := none
  deriving DecidableEq, Repr

/-- `config.FileConfig`. -/
structure FileConfig where
  markdown : Option ValidatorConfig := none
  shellScript : Option ValidatorConfig := none
  terraform : Option ValidatorConfig := none
  deriving DecidableEq, Repr

/-- `config.NotificationConfig`. -/
structure NotificationConfig where
  bell : Option ValidatorConfig := none
  deriving DecidableEq, Repr

/-- `config.ValidatorsConfig`. -/
structure ValidatorsConfig where
  git : Option GitConfig := none
  file : Option FileConfig := none
  notification : Option NotificationConfig := none
  deriving DecidableEq, Repr

/-- `config.Config`. -/
structure Config where
  global : Option GlobalConfig := none
  validators : Option ValidatorsConfig := none
  deriving DecidableEq, Repr

/-- The validators whose `ValidatorConfig` a source writes. -/
inductive ValidatorSlot where
  | gitCommit
  | gitPush
  | gitAdd
  | fileMarkdown
  | fileShellScript
  | fileTerraform
  | notificationBell
  deriving DecidableEq, Repr

/-- The `ValidatorConfig` of a validator, when every struct on the way to it
is there. -/
def ValidatorsConfig.get (vs : ValidatorsConfig) : ValidatorSlot → Option ValidatorConfig
  | .gitCommit => vs.git.bind (·.commit)
  | .gitPush => vs.git.bind (·.push)
  | .gitAdd => vs.git.bind (·.add)
  | .fileMarkdown => vs.file.bind (·.markdown)
  | .fileShellScript => vs.file.bind (·.shellScript)
  | .fileTerraform => vs.file.bind (·.terraform)
  | .notificationBell => vs.notification.bind (·.bell)

/-- What each `getValidator` closure of the loaders, and each case of
`disableValidator`, does: create every missing struct on the way to the
validator's `ValidatorConfig`, then change it. -/
def ValidatorsConfig.update (vs : ValidatorsConfig) (slot : ValidatorSlot)
    (f : ValidatorConfig → ValidatorConfig) : ValidatorsConfig :=
  match slot with
  | .gitCommit => let git := vs.git.getD {}; { vs with git := some { git with commit := some (f (git.commit.getD {})) } }
  | .gitPush => let git := vs.git.getD {}; { vs with git := some { git with push := some (f (git.push.getD {})) } }
  | .gitAdd => let git := vs.git.getD {}; { vs with git := some { git with add := some (f (git.add.getD {})) } }
  | .fileMarkdown =>
    let file := vs.file.getD {}; { vs with file := some { file with markdown := some (f (file.markdown.getD {})) } }
  | .fileShellScript =>
    let file := vs.file.getD {}
    { vs with file := some { file with shellScript := some (f (file.shellScript.getD {})) } }
  | .fileTerraform =>
    let file := vs.file.getD {}; { vs with file := some { file with terraform := some (f (file.terraform.getD {})) } }
  | .notificationBell =>
    let notification := vs.notification.getD {}
    { vs with notification := some { notification with bell := some (f (notification.bell.getD {})) } }

/-- The validators struct created when it is missing, then a validator's
config changed. -/
def Config.updateValidator (cfg : Config) (slot : ValidatorSlot) (f : ValidatorConfig → ValidatorConfig) :
    Config :=
  { cfg with validators := some ((cfg.validators.getD {}).update slot f) }

theorem ValidatorsConfig.get_update_self (vs : ValidatorsConfig) (slot : ValidatorSlot)
    (f : ValidatorConfig → ValidatorConfig) : (vs.update slot f).get slot = some (f ((vs.get slot).getD {})) := by
  cases slot <;> rcases vs with ⟨_ | _, _ | _, _ | _⟩ <;> rfl

theorem ValidatorsConfig.get_update_of_ne (vs : ValidatorsConfig) {slot slot' : ValidatorSlot} (h : slot ≠ slot')
    (f : ValidatorConfig → ValidatorConfig) : (vs.update slot f).get slot' = vs.get slot' := by
  cases slot <;> cases slot' <;> first | exact absurd rfl h | rfl | rcases vs with ⟨_ | _, _ | _, _⟩ <;> rfl

/-! ## `strconv.ParseBool` -/

/-- `strconv.ParseBool`; the error quotes the text without escaping it. -/
def parseBool (str : String) : Except GoError Bool :=
  if str ∈ ["1", "t", "T", "TRUE", "true", "True"] then .ok true
  else if str ∈ ["0", "f", "F", "FALSE", "false", "False"] then .ok false
  else .error ⟨"strconv.ParseBool: parsing \"" ++ str ++ "\": invalid syntax"⟩

/-- The errors of a source's `Load`: `ErrNoConfig`, or another error. -/
inductive SourceError where
  | noConfig
  | error (err : GoError)
  deriving DecidableEq, Repr

/-! ## The flag source -/

/-- A value of the flags map (`map[string]any`): the two kinds `applyFlag`
reads, or another. -/
inductive FlagValue where
  | bool (b : Bool)
  | string (s : String)
  | other
  deriving DecidableEq, Repr

/-- The names `disableValidator` knows, with their validators. -/
def validatorOfName (name : String) : Option ValidatorSlot :=
  if name = "commit" then some .gitCommit
  else if name = "push" then some .gitPush
  else if name = "add" then some .gitAdd
  else if name = "markdown" then some .fileMarkdown
  else if name = "shellscript" then some .fileShellScript
  else if name = "terraform" then some .fileTerraform
  else none

/-- `disableValidator`: the validators struct is created whatever the name. -/
def disableValidator (cfg : Config) (name : String) : Except GoError Config :=
  let cfg := { cfg with validators := some (cfg.validators.getD {}) }
  match validatorOfName name with
  | some slot => .ok (cfg.updateValidator slot fun c => { c with enabled := some false })
  | none => .error ⟨"unknown validator: " ++ name⟩

/-- `strings.SplitSeq(s, ",")`. -/
def splitComma (s : String) : List String := (s.data.splitOn ',').map String.mk

/-- `FlagSource.applyFlag`. -/
def applyFlag (parseDuration : String → Except GoError Int) (cfg : Config) (key : String) (value : FlagValue) :
    Except GoError Config :=
  if key = "use-sdk-git" then
    let global := cfg.global.getD {}
    match value with
    | .bool b => .ok { cfg with global := some { global with useSDKGit := some b } }
    | _ => .ok { cfg with global := some global }
  else if key = "timeout" then
    let global := cfg.global.getD {}
    match value with
    | .string s =>
      match parseDuration s with
      | .error err => .error ⟨"invalid timeout duration: " ++ err.message⟩
      | .ok duration => .ok { cfg with global := some { global with defaultTimeout := duration } }
    | _ => .ok { cfg with global := some global }
  else if key = "disable" then
    match value with
    | .string s => (splitComma s).foldlM (fun cfg v => disableValidator cfg (trimSpace v)) cfg
    | _ => .ok cfg
  else .ok cfg

/-- The loop of `FlagSource.Load` over the flags, in range order. -/
def applyFlags (parseDuration : String → Except GoError Int) : Config → List (String × FlagValue) →
    Except GoError Config
  | cfg, [] => .ok cfg
  | cfg, (key, value) :: rest =>
    match applyFlag parseDuration cfg key value with
    | .error err => .error ⟨"failed to apply flag " ++ key ++ ": " ++ err.message⟩
    | .ok cfg => applyFlags parseDuration cfg rest

/-- `FlagSource.Load`, with the flags map given by its entries in the order
the range visits them. -/
def FlagSource.load (parseDuration : String → Except GoError Int) (flags : List (String × FlagValue)) :
    Except SourceError Config :=
  if flags.isEmpty then .error .noConfig
  else
    match applyFlags parseDuration {} flags with
    | .error err => .error (.error err)
    | .ok cfg => .ok cfg

/-- `FlagSource.IsAvailable`. -/
def FlagSource.isAvailable (flags : List (String × FlagValue)) : Bool := !flags.isEmpty

/-! ## The environment source -/

/-- The environment, as `os.Environ` lists it: keys with their values. -/
abbrev Env := List (String × String)

/-- `os.Getenv`: the first value of the key, or nothing. -/
def getenv (env : Env) (key : String) : String := (env.lookup key).getD ""

/-- `os.Environ`. -/
def environ (env : Env) : List String := env.map fun entry => entry.1 ++ "=" ++ entry.2

/-- `loadValidatorBaseEnvVars`, for the validator the closure reaches. -/
def loadValidatorBaseEnvVars (env : Env) (base : String) (slot : ValidatorSlot) (cfg : Config) :
    Except GoError Config :=
  let enabledResult : Except GoError Config :=
    if getenv env (base ++ "_ENABLED") ≠ "" then
      match parseBool (getenv env (base ++ "_ENABLED")) with
      | .error err => .error ⟨"invalid value for " ++ base ++ "_ENABLED: " ++ err.message⟩
      | .ok enabled => .ok (cfg.updateValidator slot fun c => { c with enabled := some enabled })
    else .ok cfg
  enabledResult.bind fun cfg =>
    if getenv env (base ++ "_SEVERITY") ≠ "" then
      .ok (cfg.updateValidator slot fun c => { c with severity := getenv env (base ++ "_SEVERITY") })
    else .ok cfg

/-- `loadGitValidatorEnvVars`. -/
def loadGitValidatorEnvVars (env : Env) (cfg : Config) : Except GoError Config := do
  let cfg ← loadValidatorBaseEnvVars env "KLAUDIUSH_VALIDATORS_GIT_COMMIT" .gitCommit cfg
  let cfg ← loadValidatorBaseEnvVars env "KLAUDIUSH_VALIDATORS_GIT_PUSH" .gitPush cfg
  loadValidatorBaseEnvVars env "KLAUDIUSH_VALIDATORS_GIT_ADD" .gitAdd cfg

/-- `loadFileValidatorEnvVars`. -/
def loadFileValidatorEnvVars (env : Env) (cfg : Config) : Except GoError Config := do
  let cfg ← loadValidatorBaseEnvVars env "KLAUDIUSH_VALIDATORS_FILE_MARKDOWN" .fileMarkdown cfg
  loadValidatorBaseEnvVars env "KLAUDIUSH_VALIDATORS_FILE_SHELLSCRIPT" .fileShellScript cfg

/-- `loadNotificationValidatorEnvVars`. -/
def loadNotificationValidatorEnvVars (env : Env) (cfg : Config) : Except GoError Config :=
  loadValidatorBaseEnvVars env "KLAUDIUSH_VALIDATORS_NOTIFICATION_BELL" .notificationBell cfg

/-- `loadValidatorEnvVars`. -/
def loadValidatorEnvVars (env : Env) (cfg : Config) : Except GoError Config := do
  let cfg ← loadGitValidatorEnvVars env cfg
  let cfg ← loadFileValidatorEnvVars env cfg
  loadNotificationValidatorEnvVars env cfg

/-- The two global variables of `EnvSource.Load`: the configuration and
`hasAny` after them. -/
def loadGlobalEnvVars (parseDuration : String → Except GoError Int) (env : Env) :
    Except GoError (Config × Bool) :=
  let useSDKGitResult : Except GoError (Config × Bool) :=
    if getenv env "KLAUDIUSH_USE_SDK_GIT" ≠ "" then
      match parseBool (getenv env "KLAUDIUSH_USE_SDK_GIT") with
      | .error err => .error ⟨"invalid value for KLAUDIUSH_USE_SDK_GIT: " ++ err.message⟩
      | .ok useSDK => .ok ({ global := some { useSDKGit := some useSDK } }, true)
    else .ok ({}, false)
  useSDKGitResult.bind fun (cfg, hasAny) =>
    if getenv env "KLAUDIUSH_DEFAULT_TIMEOUT" ≠ "" then
      match parseDuration (getenv env "KLAUDIUSH_DEFAULT_TIMEOUT") with
      | .error err => .error ⟨"invalid value for KLAUDIUSH_DEFAULT_TIMEOUT: " ++ err.message⟩
      | .ok duration => .ok ({ cfg with global := some { (cfg.global.getD {}) with defaultTimeout := duration } }, true)
    else .ok (cfg, hasAny)

/-- `EnvSource.Load`. -/
def EnvSource.load (parseDuration : String → Except GoError Int) (env : Env) : Except SourceError Config :=
  match loadGlobalEnvVars parseDuration env with
  | .error err => .error (.error err)
  | .ok (cfg, hasAny) =>
    match loadValidatorEnvVars env cfg with
    | .error err => .error (.error err)
    | .ok cfg =>
      let hasAny := hasAny || cfg.validators.isSome
      if !hasAny then .error .noConfig else .ok cfg

/-- The variables `EnvSource.IsAvailable` looks at first. -/
def envSourceCommonVars : List String :=
  ["KLAUDIUSH_USE_SDK_GIT", "KLAUDIUSH_DEFAULT_TIMEOUT", "KLAUDIUSH_VALIDATORS_GIT_COMMIT_ENABLED",
    "KLAUDIUSH_VALIDATORS_GIT_COMMIT_SEVERITY"]

/-- `EnvSource.IsAvailable`. -/
def EnvSource.isAvailable (env : Env) : Bool :=
  envSourceCommonVars.any (fun key => getenv env key ≠ "") ||
    (environ env).any fun entry => "KLAUDIUSH_".data.isPrefixOf entry.data

/-- A computation followed by another succeeds when the first succeeds and
the second succeeds on its result. -/
theorem bind_eq_ok {α β : Type} {x : Except GoError α} {f : α → Except GoError β} {b : β}
    (h : (x >>= f) = .ok b) : ∃ a, x = .ok a ∧ f a = .ok b := by
  cases x with
  | error err => cases h
  | ok a => exact ⟨a, rfl, h⟩

/-! ## The flag source: any range order -/

/-- What `use-sdk-git` does to the global config. -/
def useSDKGitEffect (value : FlagValue) (global : GlobalConfig) : GlobalConfig :=
  match value with
  | .bool b => { global with useSDKGit := some b }
  | _ => global

/-- What `timeout` does to the global config; `none` when the duration does
not parse. -/
def timeoutEffect (parseDuration : String → Except GoError Int) (value : FlagValue) (global : GlobalConfig) :
    Option GlobalConfig :=
  match value with
  | .string s => (parseDuration s).toOption.map fun duration => { global with defaultTimeout := duration }
  | _ => some global

/-- `disableValidator` reads and writes only the validators. -/
theorem disableValidator_frame (cfg : Config) (name : String) :
    disableValidator cfg name =
      (disableValidator { validators := cfg.validators } name).map fun c => { cfg with validators := c.validators } := by
  unfold disableValidator
  cases validatorOfName name <;> rfl

theorem foldlM_disableValidator_frame (names : List String) (cfg : Config) :
    names.foldlM (fun cfg v => disableValidator cfg (trimSpace v)) cfg =
      (names.foldlM (fun cfg v => disableValidator cfg (trimSpace v)) ({ validators := cfg.validators } : Config)).map
        fun c => { cfg with validators := c.validators } := by
  induction names generalizing cfg with
  | nil => rfl
  | cons name names ih =>
    simp only [List.foldlM_cons]
    rw [disableValidator_frame cfg, disableValidator_frame { validators := cfg.validators }]
    cases disableValidator { validators := cfg.validators } (trimSpace name) with
    | error err => rfl
    | ok c =>
      dsimp only [bind, Except.bind, Except.map]
      rw [ih]
      cases names.foldlM (fun cfg v => disableValidator cfg (trimSpace v)) { validators := c.validators } <;> rfl

/-- What `disable` does to the validators; `none` when a name is unknown. -/
def disableEffect (value : FlagValue) (validators : Option ValidatorsConfig) : Option (Option ValidatorsConfig) :=
  match value with
  | .string s =>
    ((splitComma s).foldlM (fun cfg v => disableValidator cfg (trimSpace v))
      ({ validators := validators } : Config)).toOption.map (·.validators)
  | _ => some validators

/-- What a flag does, by its key: the two global flags change only the
global config, `disable` only the validators, any other key nothing. -/
theorem applyFlag_toOption (parseDuration : String → Except GoError Int) (cfg : Config) (key : String)
    (value : FlagValue) :
    (applyFlag parseDuration cfg key value).toOption =
      if key = "use-sdk-git" then some { cfg with global := some (useSDKGitEffect value (cfg.global.getD {})) }
      else if key = "timeout" then
        (timeoutEffect parseDuration value (cfg.global.getD {})).map fun global => { cfg with global := some global }
      else if key = "disable" then
        (disableEffect value cfg.validators).map fun validators => { cfg with validators := validators }
      else some cfg := by
  unfold applyFlag
  split_ifs
  · cases value <;> rfl
  · cases value with
    | string s =>
      dsimp only [timeoutEffect]
      cases parseDuration s <;> rfl
    | _ => rfl
  · cases value with
    | string s =>
      dsimp only
      rw [foldlM_disableValidator_frame]
      simp only [disableEffect]
      cases (splitComma s).foldlM (fun cfg v => disableValidator cfg (trimSpace v)) ({ validators := cfg.validators } : Config) <;> rfl
    | _ => rfl
  · rfl

theorem timeoutEffect_useSDKGitEffect (parseDuration : String → Except GoError Int) (v v' : FlagValue)
    (global : GlobalConfig) :
    timeoutEffect parseDuration v (useSDKGitEffect v' global) =
      (timeoutEffect parseDuration v global).map (useSDKGitEffect v') := by
  cases v with
  | string s =>
    simp only [timeoutEffect]
    cases (parseDuration s).toOption <;> cases v' <;> rfl
  | _ => cases v' <;> rfl

/-- Two flags with different keys give the same configuration, or both
fail, in either order. -/
theorem applyFlag_comm (parseDuration : String → Except GoError Int) (cfg : Config) {k₁ k₂ : String}
    (h : k₁ ≠ k₂) (v₁ v₂ : FlagValue) :
    (applyFlag parseDuration cfg k₁ v₁).toOption.bind (fun c => (applyFlag parseDuration c k₂ v₂).toOption) =
      (applyFlag parseDuration cfg k₂ v₂).toOption.bind (fun c => (applyFlag parseDuration c k₁ v₁).toOption) := by
  simp only [applyFlag_toOption]
  have hkey : ∀ k : String, k = "use-sdk-git" ∨ k = "timeout" ∨ k = "disable" ∨
      (k ≠ "use-sdk-git" ∧ k ≠ "timeout" ∧ k ≠ "disable") := by
    intro k
    by_cases hu : k = "use-sdk-git" <;> by_cases ht : k = "timeout" <;> by_cases hd : k = "disable" <;> simp_all
  rcases hkey k₁ with rfl | rfl | rfl | ⟨h₁u, h₁t, h₁d⟩ <;>
    rcases hkey k₂ with rfl | rfl | rfl | ⟨h₂u, h₂t, h₂d⟩ <;> clear hkey <;>
    simp only [String.reduceEq, ↓reduceIte, ne_eq, not_true_eq_false, *, Option.some_bind, Option.getD_some,
      Option.map_some', Option.bind_map, Function.comp_def, timeoutEffect_useSDKGitEffect] at h ⊢
  all_goals
    generalize timeoutEffect parseDuration v₁ (cfg.global.getD {}) = t₁
    generalize timeoutEffect parseDuration v₂ (cfg.global.getD {}) = t₂
    generalize disableEffect v₁ cfg.validators = d₁
    generalize disableEffect v₂ cfg.validators = d₂
    cases t₁ <;> cases t₂ <;> cases d₁ <;> cases d₂ <;> rfl

theorem applyFlags_toOption_cons (parseDuration : String → Except GoError Int) (cfg : Config) (key : String)
    (value : FlagValue) (rest : List (String × FlagValue)) :
    (applyFlags parseDuration cfg ((key, value) :: rest)).toOption =
      (applyFlag parseDuration cfg key value).toOption.bind fun c => (applyFlags parseDuration c rest).toOption := by
  simp only [applyFlags]
  cases applyFlag parseDuration cfg key value <;> rfl

/-- The loop over two range orders of one flags map ends alike. -/
theorem applyFlags_perm (parseDuration : String → Except GoError Int) {l₁ l₂ : List (String × FlagValue)}
    (hp : l₁.Perm l₂) (hkeys : (l₁.map (·.1)).Nodup) (cfg : Config) :
    (applyFlags parseDuration cfg l₁).toOption = (applyFlags parseDuration cfg l₂).toOption := by
  induction hp generalizing cfg with
  | nil => rfl
  | cons x _ ih =>
    simp only [List.map_cons, List.nodup_cons] at hkeys
    rw [applyFlags_toOption_cons, applyFlags_toOption_cons]
    exact congrArg _ (funext fun c => ih hkeys.2 c)
  | swap x y l =>
    obtain ⟨k₁, v₁⟩ := x
    obtain ⟨k₂, v₂⟩ := y
    simp only [List.map_cons, List.nodup_cons, List.mem_cons, not_or] at hkeys
    simp only [applyFlags_toOption_cons]
    rw [← Option.bind_assoc, ← Option.bind_assoc, applyFlag_comm parseDuration cfg hkeys.1.1]
  | trans h₁₂ _ ih₁₂ ih₂₃ => rw [ih₁₂ hkeys, ih₂₃ ((h₁₂.map _).nodup_iff.mp hkeys)]

theorem FlagSource.load_toOption (parseDuration : String → Except GoError Int) (flags : List (String × FlagValue)) :
    (FlagSource.load parseDuration flags).toOption =
      if flags.isEmpty then none else (applyFlags parseDuration {} flags).toOption := by
  unfold FlagSource.load
  split
  · rfl
  · cases applyFlags parseDuration {} flags <;> rfl

/-- Whatever order the range over the flags map takes, `Load` succeeds in
one order exactly when it does in another, with the same configuration. -/
theorem FlagSource.load_perm (parseDuration : String → Except GoError Int) {l₁ l₂ : List (String × FlagValue)}
    (hkeys : (l₁.map (·.1)).Nodup) (hp : l₁.Perm l₂) :
    (FlagSource.load parseDuration l₁).toOption = (FlagSource.load parseDuration l₂).toOption := by
  have hempty : l₁.isEmpty = l₂.isEmpty := by
    rcases l₁ with _ | ⟨_, _⟩ <;> rcases l₂ with _ | ⟨_, _⟩ <;> simp_all
  rw [FlagSource.load_toOption, FlagSource.load_toOption, hempty, applyFlags_perm parseDuration hp hkeys]

theorem FlagSource.load_perm_swap :
    (([("timeout", .string "15s"), ("disable", .string "commit")] : List (String × FlagValue)).map (·.1)).Nodup ∧
      (FlagSource.load (fun _ => .ok 15000000000) [("timeout", .string "15s"), ("disable", .string "commit")]).toOption =
        (FlagSource.load (fun _ => .ok 15000000000) [("disable", .string "commit"), ("timeout", .string "15s")]).toOption :=
  ⟨by decide, FlagSource.load_perm _ (by decide) (List.Perm.swap _ _ _)⟩

/- The error's text is the first failing flag's, so it does depend on the order. -/
example : FlagSource.load (fun _ => .error ⟨"bad"⟩) [("timeout", .string "x"), ("disable", .string "bell")] =
    .error (.error ⟨"failed to apply flag timeout: invalid timeout duration: bad"⟩) := rfl
example : FlagSource.load (fun _ => .error ⟨"bad"⟩) [("disable", .string "bell"), ("timeout", .string "x")] =
    .error (.error ⟨"failed to apply flag disable: unknown validator: bell"⟩) := rfl

/-! ## The flag source: `--disable` -/

/-- The validators a `--disable` list names, in its order. -/
def disabledSlots (names : List String) : List ValidatorSlot :=
  names.filterMap fun name => validatorOfName (trimSpace name)

theorem disableValidator_eq_ok {cfg : Config} {name : String} {slot : ValidatorSlot}
    (h : validatorOfName name = some slot) :
    disableValidator cfg name = .ok (cfg.updateValidator slot fun c => { c with enabled := some false }) := by
  simp only [disableValidator, h]
  rfl

theorem foldlM_disableValidator_isOk (names : List String) (cfg : Config) :
    (∃ cfg', names.foldlM (fun cfg v => disableValidator cfg (trimSpace v)) cfg = .ok cfg') ↔
      ∀ name ∈ names, (validatorOfName (trimSpace name)).isSome := by
  induction names generalizing cfg with
  | nil => exact iff_of_true ⟨cfg, rfl⟩ (List.forall_mem_nil _)
  | cons name names ih =>
    rw [List.foldlM_cons, List.forall_mem_cons]
    cases hv : validatorOfName (trimSpace name) with
    | none => simp [disableValidator, hv, bind, Except.bind]
    | some slot => simpa only [disableValidator_eq_ok hv, Option.isSome_some, true_and] using ih _

theorem foldlM_disableValidator_get {names : List String} {cfg cfg' : Config}
    (h : names.foldlM (fun cfg v => disableValidator cfg (trimSpace v)) cfg = .ok cfg') :
    cfg'.global = cfg.global ∧ ∀ slot, (cfg'.validators.getD {}).get slot =
      if slot ∈ disabledSlots names then some { ((cfg.validators.getD {}).get slot).getD {} with enabled := some false }
      else (cfg.validators.getD {}).get slot := by
  induction names generalizing cfg with
  | nil =>
    cases h
    exact ⟨rfl, fun slot => by simp [disabledSlots]⟩
  | cons name names ih =>
    rw [List.foldlM_cons] at h
    obtain ⟨c, hc, h⟩ := bind_eq_ok h
    cases hv : validatorOfName (trimSpace name) with
    | none => simp [disableValidator, hv] at hc
    | some slot₀ =>
      rw [disableValidator_eq_ok hv] at hc
      cases hc
      obtain ⟨hglobal, hget⟩ := ih h
      refine ⟨hglobal, fun slot => ?_⟩
      simp only [hget, disabledSlots, List.filterMap_cons, hv, Config.updateValidator, Option.getD_some]
      by_cases hs : slot₀ = slot
      · subst hs
        simp [ValidatorsConfig.get_update_self]
      · simp [ValidatorsConfig.get_update_of_ne _ hs, Ne.symm hs, disabledSlots]

/-- `--disable` succeeds exactly when every name of its list, spaces
trimmed, is one of the six `disableValidator` knows; it then leaves the
global config alone and disables exactly the named validators, keeping
their other settings. -/
theorem applyFlag_disable_eq_ok (parseDuration : String → Except GoError Int) (cfg : Config) (s : String) :
    ((∃ cfg', applyFlag parseDuration cfg "disable" (.string s) = .ok cfg') ↔
        ∀ name ∈ splitComma s, (validatorOfName (trimSpace name)).isSome) ∧
      ∀ cfg', applyFlag parseDuration cfg "disable" (.string s) = .ok cfg' →
        cfg'.global = cfg.global ∧ ∀ slot, (cfg'.validators.getD {}).get slot =
          if slot ∈ disabledSlots (splitComma s) then
            some { ((cfg.validators.getD {}).get slot).getD {} with enabled := some false }
          else (cfg.validators.getD {}).get slot := by
  have happly : applyFlag parseDuration cfg "disable" (.string s) =
      (splitComma s).foldlM (fun cfg v => disableValidator cfg (trimSpace v)) cfg := by
    simp only [applyFlag, String.reduceEq, ↓reduceIte]
  rw [happly]
  exact ⟨foldlM_disableValidator_isOk _ _, fun _ h => foldlM_disableValidator_get h⟩

/- An empty name is unknown: a trailing comma fails the flag. -/
example : applyFlag (fun _ => .ok 0) {} "disable" (.string "commit,") = .error ⟨"unknown validator: "⟩ := rfl

/-! ## The environment source: when it has a configuration -/

/-- The validators the environment configures, each with the stem of its
two variables, in the order `loadValidatorEnvVars` loads them. -/
def envValidators : List (String × ValidatorSlot) :=
  [("KLAUDIUSH_VALIDATORS_GIT_COMMIT", .gitCommit), ("KLAUDIUSH_VALIDATORS_GIT_PUSH", .gitPush),
    ("KLAUDIUSH_VALIDATORS_GIT_ADD", .gitAdd), ("KLAUDIUSH_VALIDATORS_FILE_MARKDOWN", .fileMarkdown),
    ("KLAUDIUSH_VALIDATORS_FILE_SHELLSCRIPT", .fileShellScript),
    ("KLAUDIUSH_VALIDATORS_NOTIFICATION_BELL", .notificationBell)]

/-- The fourteen variables `EnvSource.Load` reads. -/
def envSourceVariables : List String :=
  "KLAUDIUSH_USE_SDK_GIT" :: "KLAUDIUSH_DEFAULT_TIMEOUT" ::
    envValidators.flatMap fun e => [e.1 ++ "_ENABLED", e.1 ++ "_SEVERITY"]

theorem loadValidatorEnvVars_eq_foldlM (env : Env) (cfg : Config) :
    loadValidatorEnvVars env cfg =
      envValidators.foldlM (fun cfg e => loadValidatorBaseEnvVars env e.1 e.2 cfg) cfg := by
  simp only [loadValidatorEnvVars, loadGitValidatorEnvVars, loadFileValidatorEnvVars,
    loadNotificationValidatorEnvVars, envValidators, List.foldlM_cons, List.foldlM_nil, bind_assoc, bind_pure]

theorem loadValidatorBaseEnvVars_of_unset {env : Env} {base : String} (slot : ValidatorSlot) (cfg : Config)
    (he : getenv env (base ++ "_ENABLED") = "") (hs : getenv env (base ++ "_SEVERITY") = "") :
    loadValidatorBaseEnvVars env base slot cfg = .ok cfg := by
  simp only [loadValidatorBaseEnvVars, he, hs, ne_eq, not_true_eq_false, ↓reduceIte]
  rfl

/-- A validator's variables create the validators struct when either is
set, and change nothing when neither is. -/
theorem loadValidatorBaseEnvVars_validators_isSome {env : Env} {base : String} {slot : ValidatorSlot}
    {cfg cfg' : Config} (h : loadValidatorBaseEnvVars env base slot cfg = .ok cfg') :
    cfg'.validators.isSome ↔
      cfg.validators.isSome ∨ getenv env (base ++ "_ENABLED") ≠ "" ∨ getenv env (base ++ "_SEVERITY") ≠ "" := by
  by_cases he : getenv env (base ++ "_ENABLED") = ""
  · by_cases hs : getenv env (base ++ "_SEVERITY") = ""
    · rw [loadValidatorBaseEnvVars_of_unset slot cfg he hs] at h
      cases h
      simp [he, hs]
    · simp only [loadValidatorBaseEnvVars, he, hs, ne_eq, not_true_eq_false, not_false_eq_true, ↓reduceIte] at h
      cases h
      simp [Config.updateValidator, hs]
  · simp only [loadValidatorBaseEnvVars, he, ne_eq, not_false_eq_true, ↓reduceIte] at h
    cases hp : parseBool (getenv env (base ++ "_ENABLED")) with
    | error err => simp [hp, bind, Except.bind] at h
    | ok b =>
      simp only [hp] at h
      split_ifs at h <;> cases h <;> simp [Config.updateValidator, he]

theorem foldlM_loadValidatorBaseEnvVars_of_unset {env : Env} (vs : List (String × ValidatorSlot)) (cfg : Config)
    (h : ∀ e ∈ vs, getenv env (e.1 ++ "_ENABLED") = "" ∧ getenv env (e.1 ++ "_SEVERITY") = "") :
    vs.foldlM (fun cfg e => loadValidatorBaseEnvVars env e.1 e.2 cfg) cfg = .ok cfg := by
  induction vs with
  | nil => rfl
  | cons e vs ih =>
    rw [List.forall_mem_cons] at h
    rw [List.foldlM_cons, loadValidatorBaseEnvVars_of_unset _ _ h.1.1 h.1.2]
    exact ih h.2

theorem foldlM_loadValidatorBaseEnvVars_validators_isSome {env : Env} {vs : List (String × ValidatorSlot)}
    {cfg cfg' : Config} (h : vs.foldlM (fun cfg e => loadValidatorBaseEnvVars env e.1 e.2 cfg) cfg = .ok cfg') :
    cfg'.validators.isSome ↔ cfg.validators.isSome ∨
      ∃ e ∈ vs, getenv env (e.1 ++ "_ENABLED") ≠ "" ∨ getenv env (e.1 ++ "_SEVERITY") ≠ "" := by
  induction vs generalizing cfg with
  | nil =>
    cases h
    simp
  | cons e vs ih =>
    rw [List.foldlM_cons] at h
    obtain ⟨c, hc, h⟩ := bind_eq_ok h
    rw [ih h, loadValidatorBaseEnvVars_validators_isSome hc]
    simp only [List.mem_cons, or_and_right, exists_or, exists_eq_left, or_assoc]

theorem loadGlobalEnvVars_of_unset (parseDuration : String → Except GoError Int) {env : Env}
    (hu : getenv env "KLAUDIUSH_USE_SDK_GIT" = "") (ht : getenv env "KLAUDIUSH_DEFAULT_TIMEOUT" = "") :
    loadGlobalEnvVars parseDuration env = .ok ({}, false) := by
  simp only [loadGlobalEnvVars, hu, ht, ne_eq, not_true_eq_false, ↓reduceIte]
  rfl

/-- The global variables create no validators, and `hasAny` says whether
either is set. -/
theorem loadGlobalEnvVars_eq_ok {parseDuration : String → Except GoError Int} {env : Env} {cfg : Config}
    {hasAny : Bool} (h : loadGlobalEnvVars parseDuration env = .ok (cfg, hasAny)) :
    cfg.validators = none ∧
      (hasAny = true ↔ getenv env "KLAUDIUSH_USE_SDK_GIT" ≠ "" ∨ getenv env "KLAUDIUSH_DEFAULT_TIMEOUT" ≠ "") := by
  unfold loadGlobalEnvVars at h
  by_cases hu : getenv env "KLAUDIUSH_USE_SDK_GIT" = "" <;>
    by_cases ht : getenv env "KLAUDIUSH_DEFAULT_TIMEOUT" = "" <;>
    simp only [hu, ht, ne_eq, not_true_eq_false, not_false_eq_true, ↓reduceIte] at h
  all_goals repeat' split at h
  all_goals cases h <;> simp_all

theorem forall_envSourceVariables_unset_iff {env : Env} :
    (∀ key ∈ envSourceVariables, getenv env key = "") ↔
      getenv env "KLAUDIUSH_USE_SDK_GIT" = "" ∧ getenv env "KLAUDIUSH_DEFAULT_TIMEOUT" = "" ∧
        ∀ e ∈ envValidators, getenv env (e.1 ++ "_ENABLED") = "" ∧ getenv env (e.1 ++ "_SEVERITY") = "" := by
  simp only [envSourceVariables, List.forall_mem_cons, List.forall_mem_flatMap, List.not_mem_nil, false_implies,
    implies_true, and_true]

theorem EnvSource.load_of_unset (parseDuration : String → Except GoError Int) {env : Env}
    (h : ∀ key ∈ envSourceVariables, getenv env key = "") : EnvSource.load parseDuration env = .error .noConfig := by
  obtain ⟨hu, ht, hvs⟩ := forall_envSourceVariables_unset_iff.mp h
  simp only [EnvSource.load, loadGlobalEnvVars_of_unset parseDuration hu ht, loadValidatorEnvVars_eq_foldlM,
    foldlM_loadValidatorBaseEnvVars_of_unset _ _ hvs]
  rfl

/-- `Load` reports that there is no configuration exactly when none of the
fourteen variables it reads is set. -/
theorem EnvSource.load_eq_noConfig_iff (parseDuration : String → Except GoError Int) (env : Env) :
    EnvSource.load parseDuration env = .error .noConfig ↔ ∀ key ∈ envSourceVariables, getenv env key = "" := by
  refine ⟨fun h => ?_, EnvSource.load_of_unset parseDuration⟩
  unfold EnvSource.load at h
  cases hg : loadGlobalEnvVars parseDuration env with
  | error err => simp [hg] at h
  | ok p =>
    obtain ⟨cfg, hasAny⟩ := p
    obtain ⟨hnone, hany⟩ := loadGlobalEnvVars_eq_ok hg
    cases hv : loadValidatorEnvVars env cfg with
    | error err => simp [hg, hv] at h
    | ok cfg' =>
      have hsome := foldlM_loadValidatorBaseEnvVars_validators_isSome
        ((loadValidatorEnvVars_eq_foldlM env cfg).symm.trans hv)
      simp only [hg, hv] at h
      split_ifs at h with hb
      simp only [Bool.not_eq_true', Bool.or_eq_false_iff] at hb
      simp only [hb.1, hb.2, hnone, Option.isSome_none, false_or, false_iff, Bool.false_eq_true] at hany hsome
      simp only [not_or, not_exists, not_and, ne_eq, not_not] at hany hsome
      exact forall_envSourceVariables_unset_iff.mpr ⟨hany.1, hany.2, hsome⟩

theorem exists_mem_environ_of_getenv {env : Env} {key : String} (h : getenv env key ≠ "") :
    ∃ value, key ++ "=" ++ value ∈ environ env := by
  unfold getenv at h
  cases hl : env.lookup key with
  | none => simp [hl] at h
  | some value => exact ⟨value, List.mem_map.mpr ⟨(key, value), ClaudeHooks.Parser.mem_of_lookup_eq_some hl, rfl⟩⟩

theorem envSourceVariables_startWith :
    ∀ key ∈ envSourceVariables, "KLAUDIUSH_".data.isPrefixOf key.data = true := by
  decide

/-- A source that loads reports itself available. -/
theorem EnvSource.isAvailable_of_load {parseDuration : String → Except GoError Int} {env : Env} {cfg : Config}
    (h : EnvSource.load parseDuration env = .ok cfg) : EnvSource.isAvailable env = true := by
  have hset : ¬∀ key ∈ envSourceVariables, getenv env key = "" := fun hall => by
    rw [EnvSource.load_of_unset parseDuration hall] at h
    cases h
  push_neg at hset
  obtain ⟨key, hkey, hne⟩ := hset
  obtain ⟨value, hmem⟩ := exists_mem_environ_of_getenv hne
  have hstart := List.isPrefixOf_iff_prefix.mp (envSourceVariables_startWith key hkey)
  simp only [EnvSource.isAvailable, Bool.or_eq_true, List.any_eq_true]
  refine Or.inr ⟨_, hmem, List.isPrefixOf_iff_prefix.mpr ?_⟩
  simpa only [String.data_append, List.append_assoc] using hstart.trans (List.prefix_append _ _)

theorem EnvSource.isAvailable_of_load_severity :
    EnvSource.load (fun _ => .ok 0) [("KLAUDIUSH_VALIDATORS_GIT_PUSH_SEVERITY", "warning")] =
        .ok { validators := some { git := some { push := some { severity := "warning" } } } } ∧
      EnvSource.isAvailable [("KLAUDIUSH_VALIDATORS_GIT_PUSH_SEVERITY", "warning")] = true :=
  ⟨rfl, @EnvSource.isAvailable_of_load (fun _ => .ok 0) _ _ rfl⟩

/-- The converse fails: a variable with the prefix that `Load` does not read
makes the source available, while `Load` finds no configuration. -/
theorem EnvSource.isAvailable_of_unread (parseDuration : String → Except GoError Int) {key value : String}
    (hkey : "KLAUDIUSH_".data.isPrefixOf key.data = true) (hunread : key ∉ envSourceVariables) :
    EnvSource.isAvailable [(key, value)] = true ∧
      EnvSource.load parseDuration [(key, value)] = .error .noConfig := by
  refine ⟨?_, EnvSource.load_of_unset parseDuration fun k hk => ?_⟩
  · have hp : key.data <+: (key ++ "=" ++ value).data := ⟨"=".data ++ value.data, by simp [List.append_assoc]⟩
    simp only [EnvSource.isAvailable, environ, List.map_cons, List.map_nil, List.any_cons, List.any_nil,
      Bool.or_false, Bool.or_eq_true]
    exact .inr (List.isPrefixOf_iff_prefix.mpr ((List.isPrefixOf_iff_prefix.mp hkey).trans hp))
  · have hne : key ≠ k := fun h => hunread (h ▸ hk)
    simp only [getenv, List.lookup_cons, beq_false_of_ne (Ne.symm hne), List.lookup_nil, Option.getD_none]

example : EnvSource.isAvailable [("KLAUDIUSH_FOO", "1")] = true ∧
    EnvSource.load (fun _ => .ok 0) [("KLAUDIUSH_FOO", "1")] = .error .noConfig := ⟨rfl, rfl⟩

end ClaudeHooks.Provider
