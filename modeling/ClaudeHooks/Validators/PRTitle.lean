import Mathlib.Data.List.Basic
import Mathlib.Data.String.Basic

/-!
# Validators — pull request titles

`internal/validators/git/pr_title.go`: `validatePRTitle` checks a pull
request title's length in bytes and, unless the title is a revert, that it
follows the semantic commit format `type(scope)!: description` with one of
the valid types and does not use `feat` or `fix` with an infrastructure
scope.

The regular expressions are written out as scanners over the title's
characters. `semanticCommitRegex` and the pattern of `extractPRType` are
built by splicing the valid types, joined with `|`, into the regexp source.
The scanners read each type as a literal alternative, which is what the
regexp does when every type is a word (`WordTypes`: ASCII letters, digits
and `_`); a type holding a metacharacter changes the regexp (`f.x` also
accepts `fix`) or makes `regexp.MustCompile` panic (`fe(at`). The results
about the whole validator therefore assume word types, which the default
types are (`wordTypes_default`). `isRevertCommit` is not in the source and is a
parameter.

`semanticMatches_iff` gives the language the scanner accepts as a
decomposition of the title, and `validatePRTitle_valid_iff` says which
titles pass. The infrastructure-scope check reads `):` right after the
scope, so a breaking-change `!` between them takes a title past it
(`validatePRTitle_infra_scope`).
-/

namespace ClaudeHooks.Validators

/-! ## The semantic commit format -/

/-- `\w`: an ASCII letter or digit, or `_`. -/
def isWordChar (c : Char) : Bool := c.isAlphanum || c = '_'

/-- Valid types that a regexp reads literally: non-empty words. -/
def WordTypes (validTypes : List String) : Prop :=
  ∀ t ∈ validTypes, t ≠ "" ∧ ∀ x ∈ t.data, isWordChar x = true

instance : DecidablePred WordTypes := fun _ => inferInstanceAs (Decidable (∀ _ ∈ _, _))

/-- `defaultValidTypes` (declared outside `src`): the types of
`defaultValidTypesPattern`, which `ValidatePRTitle` passes. -/
def defaultValidTypes : List String :=
  ["build", "chore", "ci", "docs", "feat", "fix", "perf", "refactor", "revert", "style", "test"]

/-- The default types are words, so the results below cover `ValidatePRTitle`. -/
theorem wordTypes_default : WordTypes defaultValidTypes := by
  decide

/-- The scope class of the regular expressions: ASCII letters and digits,
`_`, `/` and `-`. -/
def isScopeChar (c : Char) : Bool := c.isAlphanum || c = '_' || c = '/' || c = '-'

/-- A scope, `(` then one or more scope characters then `)`, at the start
of `cs`: what follows it. -/
def dropScope : List Char → Option (List Char)
  | '(' :: rest =>
    match rest.dropWhile isScopeChar with
    | ')' :: after => if (rest.takeWhile isScopeChar).isEmpty then none else some after
    | _ => none
  | _ => none

/-- `!?: .+` at the start of `cs`; `.` is any character but a newline. -/
def colonDescription : List Char → Bool
  | '!' :: ':' :: ' ' :: c :: _ => c != '\n'
  | ':' :: ' ' :: c :: _ => c != '\n'
  | _ => false

/-- An optional scope, then `!?: .+`, at the start of `cs`. A scope that is
there must be taken: `!` and `:` are not `(`. -/
def afterType (cs : List Char) : Bool := colonDescription ((dropScope cs).getD cs)

/-- The alternatives of `(%s)` filled with `strings.Join(validTypes, "|")`:
the types, or the one empty alternative when there are none. -/
def typeAlternatives (validTypes : List String) : List String :=
  if validTypes.isEmpty then [""] else validTypes

/-- `semanticCommitRegex.MatchString(title)`. -/
def semanticMatches (validTypes : List String) (title : String) : Bool :=
  (typeAlternatives validTypes).any fun t => t.data.isPrefixOf title.data && afterType (title.data.drop t.length)

/-- A scope part of the format: nothing, or a non-empty run of scope
characters in parentheses. -/
def ScopePart (scope : List Char) : Prop :=
  scope = [] ∨ ∃ s, scope = '(' :: s ++ [')'] ∧ s ≠ [] ∧ ∀ x ∈ s, isScopeChar x

/-- The titles `semanticCommitRegex` matches: a valid type, a scope part,
an optional `!`, `": "`, a character other than a newline, and anything. -/
def SemanticTitle (validTypes : List String) (title : List Char) : Prop :=
  ∃ t ∈ typeAlternatives validTypes, ∃ scope bang c rest,
    title = t.data ++ scope ++ bang ++ ':' :: ' ' :: c :: rest ∧
      ScopePart scope ∧ (bang = [] ∨ bang = ['!']) ∧ c ≠ '\n'

theorem colonDescription_iff {cs : List Char} :
    colonDescription cs = true ↔
      ∃ bang c rest, cs = bang ++ ':' :: ' ' :: c :: rest ∧ (bang = [] ∨ bang = ['!']) ∧ c ≠ '\n' := by
  constructor
  · intro h
    unfold colonDescription at h
    split at h
    · exact ⟨['!'], _, _, rfl, .inr rfl, by simpa using h⟩
    · exact ⟨[], _, _, rfl, .inl rfl, by simpa using h⟩
    · cases h
  · rintro ⟨bang, c, rest, rfl, rfl | rfl, hc⟩ <;> simpa [colonDescription] using hc

theorem dropScope_eq_some {cs after : List Char} :
    dropScope cs = some after ↔ ∃ s, cs = '(' :: s ++ ')' :: after ∧ s ≠ [] ∧ ∀ x ∈ s, isScopeChar x := by
  constructor
  · intro h
    unfold dropScope at h
    split at h
    · rename_i rest
      split at h
      · rename_i after' hd
        split at h
        · cases h
        · rename_i hne
          cases h
          refine ⟨rest.takeWhile isScopeChar, ?_, by simpa using hne, fun x hx => List.mem_takeWhile_imp hx⟩
          rw [← hd]
          exact congrArg _ (List.takeWhile_append_dropWhile _ _).symm
      · cases h
    · cases h
  · rintro ⟨s, rfl, hs, hall⟩
    have hclose : ¬ isScopeChar ')' = true := by decide
    have hd : (s ++ ')' :: after).dropWhile isScopeChar = ')' :: after := by
      rw [List.dropWhile_append_of_pos hall, List.dropWhile_cons_of_neg hclose]
    have ht : (s ++ ')' :: after).takeWhile isScopeChar = s := by
      rw [List.takeWhile_append_of_pos hall, List.takeWhile_cons_of_neg hclose, List.append_nil]
    simp [dropScope, hd, ht, hs]

/-- What `!?: .+` accepts does not start with `(`. -/
theorem dropScope_eq_none_of_colonDescription {cs : List Char} (h : colonDescription cs = true) :
    dropScope cs = none := by
  obtain ⟨bang, c, rest, rfl, rfl | rfl, -⟩ := colonDescription_iff.mp h <;> rfl

theorem afterType_iff {cs : List Char} :
    afterType cs = true ↔ ∃ scope rest, cs = scope ++ rest ∧ ScopePart scope ∧ colonDescription rest := by
  unfold afterType
  constructor
  · rcases hd : dropScope cs with _ | after
    · exact fun h => ⟨[], cs, rfl, .inl rfl, h⟩
    · obtain ⟨s, rfl, hs, hall⟩ := dropScope_eq_some.mp hd
      exact fun h => ⟨'(' :: s ++ [')'], after, by simp, .inr ⟨s, rfl, hs, hall⟩, h⟩
  · rintro ⟨scope, rest, rfl, rfl | ⟨s, rfl, hs, hall⟩, h⟩
    · simpa [dropScope_eq_none_of_colonDescription h] using h
    · have hd : dropScope (('(' :: s ++ [')']) ++ rest) = some rest :=
        dropScope_eq_some.mpr ⟨s, by simp, hs, hall⟩
      rw [hd]
      exact h

/-- The scanner accepts exactly the titles of the semantic commit format. -/
theorem semanticMatches_iff (validTypes : List String) (title : String) :
    semanticMatches validTypes title = true ↔ SemanticTitle validTypes title.data := by
  simp only [semanticMatches, List.any_eq_true, Bool.and_eq_true, List.isPrefixOf_iff_prefix,
    afterType_iff, colonDescription_iff, SemanticTitle]
  constructor
  · rintro ⟨t, ht, ⟨u, hu⟩, scope, rest, hdrop, hscope, bang, c, rest', rfl, hbang, hc⟩
    have hu' : u = scope ++ (bang ++ ':' :: ' ' :: c :: rest') := by
      rw [← hdrop, ← hu]
      exact (List.drop_left' rfl).symm
    refine ⟨t, ht, scope, bang, c, rest', ?_, hscope, hbang, hc⟩
    rw [← hu, hu']
    simp
  · rintro ⟨t, ht, scope, bang, c, rest, htitle, hscope, hbang, hc⟩
    rw [htitle, List.append_assoc, List.append_assoc]
    exact ⟨t, ht, ⟨_, rfl⟩, scope, bang ++ ':' :: ' ' :: c :: rest,
      List.drop_left' rfl, hscope, bang, c, rest, rfl, hbang, hc⟩

example : semanticMatches ["feat", "fix"] "feat(api)!: add login" = true := by decide
example : semanticMatches ["feat", "fix"] "feature: add login" = false := by decide
/- With no valid types the alternation is empty and any type passes. -/
example : semanticMatches [] "(api): add login" = true := by decide

/-! ## Feat and fix on infrastructure scopes -/

/-- The types `userFacingInfraRegex` looks for. -/
def userFacingTypes : List String := ["feat", "fix"]

/-- The scopes `userFacingInfraRegex` looks for. -/
def infraScopes : List String := ["ci", "test", "docs", "build"]

theorem infraScopes_scope : ∀ s ∈ infraScopes, s.data ≠ [] ∧ ∀ x ∈ s.data, isScopeChar x := by
  decide

/-- The text `^(feat|fix)\((ci|test|docs|build)\):` matches for a type and
a scope. -/
def infraPrefix (t s : String) : List Char := (t ++ "(" ++ s ++ "):").data

/-- `userFacingInfraRegex.FindStringSubmatch(title)`: the type and scope it
captures. -/
def userFacingInfraMatch (title : String) : Option (String × String) :=
  userFacingTypes.findSome? fun t => infraScopes.findSome? fun s =>
    if (infraPrefix t s).isPrefixOf title.data then some (t, s) else none

/-- A title that uses `feat` or `fix` with an infrastructure scope. -/
def InfraMisuse (title : List Char) : Prop :=
  ∃ t ∈ userFacingTypes, ∃ s ∈ infraScopes, infraPrefix t s <+: title

theorem userFacingInfraMatch_eq_none_iff (title : String) :
    userFacingInfraMatch title = none ↔ ¬ InfraMisuse title.data := by
  simp [userFacingInfraMatch, InfraMisuse, List.findSome?_eq_none_iff]

/-- At most one type and scope match: no infrastructure prefix is a prefix
of another. -/
theorem infraPrefix_prefix_inj : ∀ t ∈ userFacingTypes, ∀ s ∈ infraScopes, ∀ t' ∈ userFacingTypes,
    ∀ s' ∈ infraScopes, infraPrefix t s <+: infraPrefix t' s' → t = t' ∧ s = s' := by
  decide

theorem mem_of_userFacingInfraMatch {title t s : String} (h : userFacingInfraMatch title = some (t, s)) :
    t ∈ userFacingTypes ∧ s ∈ infraScopes ∧ infraPrefix t s <+: title.data := by
  obtain ⟨t', ht', h'⟩ := List.exists_of_findSome?_eq_some h
  obtain ⟨s', hs', h''⟩ := List.exists_of_findSome?_eq_some h'
  split at h''
  · rename_i hp
    cases h''
    exact ⟨ht', hs', List.isPrefixOf_iff_prefix.mp hp⟩
  · cases h''

theorem userFacingInfraMatch_eq_some_iff {title t s : String} :
    userFacingInfraMatch title = some (t, s) ↔
      t ∈ userFacingTypes ∧ s ∈ infraScopes ∧ infraPrefix t s <+: title.data := by
  refine ⟨mem_of_userFacingInfraMatch, fun ⟨ht, hs, hp⟩ => ?_⟩
  rcases hm : userFacingInfraMatch title with _ | ⟨t', s'⟩
  · exact absurd ⟨t, ht, s, hs, hp⟩ ((userFacingInfraMatch_eq_none_iff title).mp hm)
  · obtain ⟨ht', hs', hp'⟩ := mem_of_userFacingInfraMatch hm
    obtain ⟨rfl, rfl⟩ : t' = t ∧ s' = s := by
      rcases List.prefix_or_prefix_of_prefix hp' hp with h | h
      · exact infraPrefix_prefix_inj t' ht' s' hs' t ht s hs h
      · exact (infraPrefix_prefix_inj t ht s hs t' ht' s' hs' h).imp Eq.symm Eq.symm
    rfl

/-- A type and scope followed by `)!` start no infrastructure prefix and
extend none. -/
theorem infraPrefix_not_breaking : ∀ t ∈ userFacingTypes, ∀ s ∈ infraScopes, ∀ t' ∈ userFacingTypes,
    ∀ s' ∈ infraScopes, ¬ infraPrefix t' s' <+: (t ++ "(" ++ s ++ ")!").data ∧
      ¬ (t ++ "(" ++ s ++ ")!").data <+: infraPrefix t' s' := by
  decide

/-! ## The validator -/

/-- `PRTitleValidationResult`. -/
structure PRTitleValidationResult where
  valid : Bool
  errorMessage : String
  details : List String
  deriving DecidableEq, Repr

/-- `validatePRTitle`. -/
def validatePRTitle (isRevertCommit : String → Bool) (title : String) (maxLength : Int)
    (checkConventionalCommits allowUnlimitedRevertTitle : Bool) (validTypes : List String) :
    PRTitleValidationResult :=
  if title = "" then ⟨false, "PR title is empty", []⟩ else
  let isRevert := isRevertCommit title
  if (title.utf8ByteSize : Int) > maxLength ∧ (!allowUnlimitedRevertTitle || !isRevert) then
    ⟨false, "PR title exceeds maximum length of " ++ toString maxLength ++ " characters",
      ["Current length: " ++ toString title.utf8ByteSize,
       "Title: \x27" ++ title ++ "\x27",
       "Note: Revert titles (Revert \"...\") are exempt from this limit"]⟩
  else if checkConventionalCommits && !isRevert then
    if !semanticMatches validTypes title then
      ⟨false, "PR title doesn\x27t follow semantic commit format",
        ["Current: \x27" ++ title ++ "\x27",
         "Expected: type(scope): description",
         "Valid types: " ++ ", ".intercalate validTypes,
         "Alternative: Revert \"original PR title\""]⟩
    else match userFacingInfraMatch title with
      | some (typeMatch, scopeMatch) =>
        ⟨false, "Use \x27" ++ scopeMatch ++ "(...)\x27 not \x27" ++ typeMatch ++ "(" ++ scopeMatch ++
          ")\x27 for infrastructure changes",
          ["feat/fix should only be used for user-facing changes"]⟩
      | none => ⟨true, "", []⟩
  else ⟨true, "", []⟩

/-- `extractPRType`: the first valid type the title starts with, or `""`;
the alternation of `^(%s)` takes its first alternative that matches. -/
def extractPRType (title : String) (validTypes : List String) : String :=
  if validTypes.isEmpty then "" else (validTypes.find? fun t => t.data.isPrefixOf title.data).getD ""

/-- `extractPRType` returns `""` or a valid type the title starts with. -/
theorem extractPRType_spec (title : String) (validTypes : List String) :
    extractPRType title validTypes = "" ∨
      extractPRType title validTypes ∈ validTypes ∧ (extractPRType title validTypes).data <+: title.data := by
  unfold extractPRType
  split
  · exact .inl rfl
  cases h : validTypes.find? (fun t => t.data.isPrefixOf title.data) with
  | none => exact .inl rfl
  | some t => exact .inr ⟨List.mem_of_find?_eq_some h, by simpa using List.find?_some h⟩

/- The type need not end where a word does. -/
example : extractPRType "fixup: typo" ["feat", "fix"] = "fix" := by decide

section Validate

variable (isRevertCommit : String → Bool) (title : String) (maxLength : Int)
  (checkConventionalCommits allowUnlimitedRevertTitle : Bool) (validTypes : List String)

/-- For word types, which the regexp reads literally as the scanner does: a
title passes exactly when it is not empty, fits the length limit (or is
an exempt revert), and, when the format is checked and the title is not a
revert, is in the semantic commit format without using `feat` or `fix`
with an infrastructure scope. -/
theorem validatePRTitle_valid_iff (_hwords : WordTypes validTypes) :
    (validatePRTitle isRevertCommit title maxLength checkConventionalCommits allowUnlimitedRevertTitle
        validTypes).valid = true ↔
      title ≠ "" ∧ ((title.utf8ByteSize : Int) ≤ maxLength ∨ allowUnlimitedRevertTitle ∧ isRevertCommit title) ∧
        (checkConventionalCommits ∧ isRevertCommit title = false →
          SemanticTitle validTypes title.data ∧ ¬ InfraMisuse title.data) := by
  rw [← semanticMatches_iff, ← userFacingInfraMatch_eq_none_iff]
  have hlen : ¬ ((title.utf8ByteSize : Int) > maxLength ∧
      (!allowUnlimitedRevertTitle || !isRevertCommit title) = true) ↔
      ((title.utf8ByteSize : Int) ≤ maxLength ∨ allowUnlimitedRevertTitle ∧ isRevertCommit title) := by
    cases allowUnlimitedRevertTitle <;> cases isRevertCommit title <;> simp [Int.not_lt]
  unfold validatePRTitle
  dsimp only
  split_ifs with he hl hc hs
  · simp [he]
  · simp only [Bool.false_eq_true, false_iff, not_and]
    exact fun _ h => absurd hl (hlen.mpr h)
  · have hc' : checkConventionalCommits = true ∧ isRevertCommit title = false := by simpa using hc
    exact iff_of_false (by simp) fun ⟨_, _, h⟩ => absurd (h hc').1 (by simpa using hs)
  · have hc' : checkConventionalCommits = true ∧ isRevertCommit title = false := by simpa using hc
    rcases userFacingInfraMatch title with _ | ⟨typeMatch, scopeMatch⟩
    · exact iff_of_true rfl ⟨he, hlen.mp hl, fun _ => ⟨by simpa using hs, rfl⟩⟩
    · exact iff_of_false (by simp) fun ⟨_, _, h⟩ => absurd (h hc').2 (by simp)
  · exact iff_of_true rfl ⟨he, hlen.mp hl, fun h => absurd (by simp [h.1, h.2]) hc⟩

theorem validatePRTitle_valid_iff_feat_ci :
    WordTypes defaultValidTypes ∧
    ((validatePRTitle (fun _ => false) "feat(ci): add x" 72 true true defaultValidTypes).valid = true ↔
      "feat(ci): add x" ≠ "" ∧
        (("feat(ci): add x".utf8ByteSize : Int) ≤ 72 ∨ true ∧ (fun _ => false) "feat(ci): add x" = true) ∧
        (true ∧ (fun _ => false) "feat(ci): add x" = false →
          SemanticTitle defaultValidTypes "feat(ci): add x".data ∧ ¬ InfraMisuse "feat(ci): add x".data)) ∧
    (validatePRTitle (fun _ => false) "feat(ci): add x" 72 true true defaultValidTypes).valid = false :=
  ⟨wordTypes_default, validatePRTitle_valid_iff _ _ _ _ _ _ wordTypes_default, by decide⟩

/-- `userFacingInfraRegex` wants `):` right after the scope. For word types:
a title using `feat` or `fix` with an infrastructure scope is rejected
with the message naming them, and the same title with a breaking-change
`!` after the scope passes. -/
theorem validatePRTitle_infra_scope (t s : String) (c : Char) (rest : List Char)
    (_hwords : WordTypes validTypes) (ht : t ∈ userFacingTypes) (hs : s ∈ infraScopes) (hv : t ∈ validTypes)
    (hc : c ≠ '\n')
    (hlen : ((t ++ "(" ++ s ++ ")!: " ++ String.mk (c :: rest)).utf8ByteSize : Int) ≤ maxLength)
    (hplain : isRevertCommit (t ++ "(" ++ s ++ "): " ++ String.mk (c :: rest)) = false)
    (hbang : isRevertCommit (t ++ "(" ++ s ++ ")!: " ++ String.mk (c :: rest)) = false) :
    validatePRTitle isRevertCommit (t ++ "(" ++ s ++ "): " ++ String.mk (c :: rest)) maxLength true
        allowUnlimitedRevertTitle validTypes =
      ⟨false, "Use \x27" ++ s ++ "(...)\x27 not \x27" ++ t ++ "(" ++ s ++ ")\x27 for infrastructure changes",
        ["feat/fix should only be used for user-facing changes"]⟩ ∧
    (validatePRTitle isRevertCommit (t ++ "(" ++ s ++ ")!: " ++ String.mk (c :: rest)) maxLength true
        allowUnlimitedRevertTitle validTypes).valid = true := by
  have e₁ : "(".data = ['('] := rfl
  have e₂ : "): ".data = [')', ':', ' '] := rfl
  have e₃ : ")!: ".data = [')', '!', ':', ' '] := rfl
  have e₄ : ")!".data = [')', '!'] := rfl
  have hsize : (t ++ "(" ++ s ++ "): " ++ String.mk (c :: rest)).utf8ByteSize + 1 =
      (t ++ "(" ++ s ++ ")!: " ++ String.mk (c :: rest)).utf8ByteSize := by
    have key : ∀ s : String, s.utf8ByteSize = String.utf8Len s.data := fun ⟨_⟩ => rfl
    have l₂ : String.utf8Len "): ".data = 3 := by decide
    have l₃ : String.utf8Len ")!: ".data = 4 := by decide
    simp only [key, String.data_append, String.utf8Len_append, l₂, l₃]
    omega
  have hta : t ∈ typeAlternatives validTypes := by
    simpa [typeAlternatives, List.ne_nil_of_mem hv] using hv
  obtain ⟨hne, hall⟩ := infraScopes_scope s hs
  have hsem : ∀ bang : List Char, (bang = [] ∨ bang = ['!']) →
      SemanticTitle validTypes (t.data ++ ('(' :: s.data ++ [')']) ++ bang ++ ':' :: ' ' :: c :: rest) :=
    fun bang hb => ⟨t, hta, _, bang, c, rest, rfl, .inr ⟨s.data, rfl, hne, hall⟩, hb, hc⟩
  constructor
  · have hm : userFacingInfraMatch (t ++ "(" ++ s ++ "): " ++ String.mk (c :: rest)) = some (t, s) :=
      userFacingInfraMatch_eq_some_iff.mpr ⟨ht, hs, ' ' :: c :: rest, by simp [infraPrefix, e₁, e₂]⟩
    have hsm : semanticMatches validTypes (t ++ "(" ++ s ++ "): " ++ String.mk (c :: rest)) = true :=
      (semanticMatches_iff _ _).mpr (by simpa [e₁, e₂] using hsem [] (.inl rfl))
    have hl : ¬ ((t ++ "(" ++ s ++ "): " ++ String.mk (c :: rest)).utf8ByteSize : Int) > maxLength := by
      omega
    simp [validatePRTitle, hl, hplain, hsm, hm, String.ext_iff, e₁, e₂]
  · have hsm : semanticMatches validTypes (t ++ "(" ++ s ++ ")!: " ++ String.mk (c :: rest)) = true :=
      (semanticMatches_iff _ _).mpr (by simpa [e₁, e₃] using hsem ['!'] (.inr rfl))
    have hb : (t ++ "(" ++ s ++ ")!").data <+: (t ++ "(" ++ s ++ ")!: " ++ String.mk (c :: rest)).data :=
      ⟨[':', ' ', c] ++ rest, by simp [e₁, e₃, e₄]⟩
    have hm : userFacingInfraMatch (t ++ "(" ++ s ++ ")!: " ++ String.mk (c :: rest)) = none := by
      refine (userFacingInfraMatch_eq_none_iff _).mpr fun ⟨t', ht', s', hs', hp⟩ => ?_
      have hn := infraPrefix_not_breaking t ht s hs t' ht' s' hs'
      exact (List.prefix_or_prefix_of_prefix hp hb).elim hn.1 hn.2
    simp [validatePRTitle, Int.not_lt.mpr hlen, hbang, hsm, hm, String.ext_iff, e₁, e₃]

theorem validatePRTitle_infra_scope_feat_ci :
    validatePRTitle (fun _ => false) ("feat" ++ "(" ++ "ci" ++ "): " ++ String.mk ['x']) 72 true true
        ["feat", "fix"] =
      ⟨false, "Use \x27" ++ "ci" ++ "(...)\x27 not \x27" ++ "feat" ++ "(" ++ "ci" ++ ")\x27 for infrastructure changes",
        ["feat/fix should only be used for user-facing changes"]⟩ ∧
    (validatePRTitle (fun _ => false) ("feat" ++ "(" ++ "ci" ++ ")!: " ++ String.mk ['x']) 72 true true
        ["feat", "fix"]).valid = true :=
  validatePRTitle_infra_scope (fun _ => false) 72 true ["feat", "fix"] "feat" "ci" 'x' [] (by decide)
    (by decide) (by decide) (by decide) (by decide) (by decide) rfl rfl

end Validate

end ClaudeHooks.Validators
