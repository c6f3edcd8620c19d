import Mathlib.Data.Finset.Basic

/-!
# Doctor — disabling invalid rules

`internal/doctor/fixers/rules.go`: the `fix_invalid_rules` fixer collects
the indices of the rules the rules checker reports as fixable
(`collectFixableRules`) and disables each of them in the configuration
(`disableRules`), marking its description.

`disableRules` ranges over a Go map, so it visits the indices in an order
the program does not choose; the model takes that order as an input. Each
visit disables one rule and disabling is idempotent, so every order gives
the same rules, those at the collected indices disabled and the others
untouched, and a second run changes nothing (`disableRules_spec`). A
negative index, which the checker is not expected to report, makes
`cfg.Rules.Rules[idx]` panic; a panic is `none`.
-/

namespace ClaudeHooks.Doctor

/-- `config.RuleConfig` (`pkg/config/rules.go`), with the two fields the
fixer reads and writes. -/
structure RuleConfig where
  description : String
  enabled : Option Bool
  deriving DecidableEq, Repr

/-- `IsRuleEnabled`: enabled unless set otherwise. -/
def RuleConfig.isRuleEnabled (r : RuleConfig) : Bool := r.enabled.getD true

/-- A finding of the rules checker, with the two fields the fixer reads. -/
structure RuleIssue where
  ruleIndex : Int
  fixable : Bool
  deriving DecidableEq, Repr

/-- `disabledNote`. -/
def disabledNote : String := "DISABLED BY DOCTOR: fix the rule configuration and re-enable"

/-- `disabledSuffix`. -/
def disabledSuffix : String := "[DISABLED BY DOCTOR: fix and re-enable]"

/-- `containsDisabledNote`. `strings.HasSuffix` compares bytes; the suffix
is ASCII, so comparing characters agrees. -/
def containsDisabledNote (desc : String) : Bool :=
  if desc = "" then false else desc = disabledNote || disabledSuffix.data.isSuffixOf desc.data

/-- The body of `disableRules`' loop for an index in range: the rule
disabled, its description noted once. -/
def RuleConfig.disable (r : RuleConfig) : RuleConfig :=
  { r with
    enabled := some false
    description :=
      if r.description = "" then disabledNote
      else if !containsDisabledNote r.description then r.description ++ " " ++ disabledSuffix
      else r.description }

/-- `collectFixableRules`: the keys of the map it builds. -/
def collectFixableRules (issues : List RuleIssue) : Finset Int :=
  ((issues.filter (·.fixable)).map (·.ruleIndex)).toFinset

/-- One visit of `disableRules`' loop: `none` is the panic of a negative
index. -/
def disableRuleAt (rules : List RuleConfig) (idx : Int) : Option (List RuleConfig) :=
  if idx < rules.length then
    if idx < 0 then none else some (rules.modify RuleConfig.disable idx.toNat)
  else some rules

/-- `disableRules`, visiting the map's keys in the order `order`. -/
def disableRules (rules : List RuleConfig) (order : List Int) : Option (List RuleConfig) :=
  order.foldlM disableRuleAt rules

/-- The rules with those at the indices in `keys` disabled. -/
def disabledAt (rules : List RuleConfig) (keys : Int → Prop) [DecidablePred keys] : List RuleConfig :=
  rules.mapIdx fun i r => if keys i then r.disable else r

theorem mem_collectFixableRules {issues : List RuleIssue} {idx : Int} :
    idx ∈ collectFixableRules issues ↔ ∃ issue ∈ issues, issue.fixable ∧ issue.ruleIndex = idx := by
  simp [collectFixableRules, and_assoc]

theorem append_disabledSuffix_ne_empty (desc : String) : desc ++ " " ++ disabledSuffix ≠ "" := by
  intro h
  have hd : (desc ++ " ").data ++ disabledSuffix.data = [] := congrArg String.data h
  exact absurd (List.append_eq_nil.mp hd).2 (by decide)

theorem containsDisabledNote_append (desc : String) :
    containsDisabledNote (desc ++ " " ++ disabledSuffix) = true := by
  simp only [containsDisabledNote, append_disabledSuffix_ne_empty, ↓reduceIte, Bool.or_eq_true, decide_eq_true_eq,
    List.isSuffixOf_iff_suffix, String.data_append]
  exact .inr (List.suffix_append _ _)

theorem isRuleEnabled_disable (r : RuleConfig) : r.disable.isRuleEnabled = false := rfl

/-- Disabling twice is disabling once: the note is added only where none is. -/
theorem RuleConfig.disable_disable (r : RuleConfig) : r.disable.disable = r.disable := by
  have hnote : containsDisabledNote disabledNote = true := by decide
  by_cases he : r.description = ""
  · simp [disable, he, hnote]
  by_cases hc : containsDisabledNote r.description
  · simp [disable, he, hc]
  · simp [disable, he, hc, append_disabledSuffix_ne_empty, containsDisabledNote_append]

theorem disableRuleAt_of_nonneg (rules : List RuleConfig) {idx : Int} (h : 0 ≤ idx) :
    disableRuleAt rules idx = some (rules.modify RuleConfig.disable idx.toNat) := by
  unfold disableRuleAt
  split_ifs with hlt
  · omega
  · rfl
  · rw [List.modify_eq_self (by omega)]

theorem disableRuleAt_of_neg (rules : List RuleConfig) {idx : Int} (h : idx < 0) :
    disableRuleAt rules idx = none := by
  simp [disableRuleAt, h, show idx < rules.length by omega]

/-- One visit, then the rest: disabling at `idx` and then at `keys` is
disabling at `idx` or `keys`. -/
theorem disabledAt_modify (rules : List RuleConfig) (keys : Int → Prop) [DecidablePred keys]
    {idx : Int} (h : 0 ≤ idx) :
    disabledAt (rules.modify RuleConfig.disable idx.toNat) keys =
      disabledAt rules fun i => i = idx ∨ keys i := by
  apply List.ext_getElem?
  intro i
  simp only [disabledAt, List.getElem?_mapIdx, List.getElem?_modify]
  by_cases hi : (i : Int) = idx
  · have : idx.toNat = i := by omega
    cases rules[i]? <;> simp [this, hi, RuleConfig.disable_disable]
  · have : idx.toNat ≠ i := by omega
    simp [this, hi]

/-- Disabling the same indices twice is disabling them once. -/
theorem disabledAt_disabledAt (rules : List RuleConfig) (keys : Int → Prop) [DecidablePred keys] :
    disabledAt (disabledAt rules keys) keys = disabledAt rules keys := by
  apply List.ext_getElem?
  intro i
  simp only [disabledAt, List.getElem?_mapIdx]
  cases rules[i]? <;> by_cases hi : keys i <;> simp [hi, RuleConfig.disable_disable]

/-- Whatever order the loop visits the keys in, it disables exactly the
rules at non-negative keys, and panics when a key is negative. -/
theorem disableRules_eq (order : List Int) :
    ∀ rules : List RuleConfig, disableRules rules order =
      if ∃ x ∈ order, x < 0 then none else some (disabledAt rules (· ∈ order)) := by
  induction order with
  | nil =>
    intro rules
    simp only [disableRules, List.foldlM_nil, List.not_mem_nil, false_and, exists_false, ↓reduceIte,
      disabledAt, if_false]
    exact congrArg some (List.ext_getElem? fun i => by simp).symm
  | cons k ks ih =>
    intro rules
    by_cases hk : k < 0
    · simp [disableRules, disableRuleAt_of_neg rules hk, hk]
    · have step : disableRules rules (k :: ks) = disableRules (rules.modify RuleConfig.disable k.toNat) ks := by
        simp [disableRules, disableRuleAt_of_nonneg rules (Int.not_lt.mp hk)]
      rw [step, ih, disabledAt_modify _ _ (Int.not_lt.mp hk)]
      simp [hk]

example : disableRules [⟨"", none⟩, ⟨"old", some true⟩] [1, 0, 1] =
    some [⟨disabledNote, some false⟩, ⟨"old " ++ disabledSuffix, some false⟩] := by
  decide

/-- `disableRules` over the keys of `collectFixableRules`, in any order the
map range takes: it panics exactly when an index is negative, and otherwise
disables exactly the rules at the collected indices, leaving the others as
they were; running it again on its result changes nothing. -/
theorem disableRules_spec (rules : List RuleConfig) (issues : List RuleIssue) (order : List Int)
    (horder : ∀ x, x ∈ order ↔ x ∈ collectFixableRules issues) :
    disableRules rules order =
      (if ∃ x ∈ collectFixableRules issues, x < 0 then none
        else some (disabledAt rules (· ∈ collectFixableRules issues))) ∧
    ∀ rs, disableRules rules order = some rs → disableRules rs order = some rs := by
  have hord : ∀ rs, disableRules rs order =
      if ∃ x ∈ collectFixableRules issues, x < 0 then none
      else some (disabledAt rs (· ∈ collectFixableRules issues)) := by
    intro rs
    rw [disableRules_eq]
    simp only [horder]
  refine ⟨hord rules, fun rs h => ?_⟩
  rw [hord] at h ⊢
  split_ifs at h ⊢
  obtain rfl := Option.some.inj h
  rw [disabledAt_disabledAt]

theorem disableRules_spec_one :
    disableRules [⟨"", none⟩, ⟨"old", some true⟩] [0] =
      (if ∃ x ∈ collectFixableRules [⟨0, true⟩, ⟨1, false⟩], x < 0 then none
        else some (disabledAt [⟨"", none⟩, ⟨"old", some true⟩]
          (· ∈ collectFixableRules [⟨0, true⟩, ⟨1, false⟩]))) ∧
    ∀ rs, disableRules [⟨"", none⟩, ⟨"old", some true⟩] [0] = some rs →
      disableRules rs [0] = some rs :=
  disableRules_spec _ [⟨0, true⟩, ⟨1, false⟩] [0] fun x => by simp [collectFixableRules]

end ClaudeHooks.Doctor
