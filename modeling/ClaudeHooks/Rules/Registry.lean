import ClaudeHooks.Rules.Builder
import ClaudeHooks.Rules.Order

/-!
# Rules — Registry

`internal/rules/registry.go` (in the source under
`internal/rules/evaluator.go`, lines 174–425): the sorted slice of
compiled rules and its operations. Each method holds the registry's
`RWMutex` for its whole body, so each is one atomic step on the slice.

`Add` compiles through `BuildMatcher`, which reads and updates the
process-wide pattern cache; `Add` and `AddAll` therefore run in
`StateM PatternCache`. `Merge` keeps the source's name-to-index map
(`existing`) as an association list, which is how a Go map behaves.
-/

namespace ClaudeHooks.Rules

/-- `CompiledRule`: a rule and the matcher compiled for it. -/
structure CompiledRule where
  rule : Rule
  matcher : Matcher

/-- `Registry`: the rule slice. -/
structure Registry where
  rules : List CompiledRule

/-- `NewRegistry`. -/
def newRegistry : Registry := ⟨[]⟩

/-- The index of the first entry whose rule has this name: the scans of
`Add` and `Remove`. -/
def indexOfName : List CompiledRule → String → Option Nat
  | [], _ => none
  | cr :: rest, name => if cr.rule.name = name then some 0 else (indexOfName rest name).map (· + 1)

/-- The `existing` map of `Merge` (lines 376–379): each name to its index,
a later entry overwriting an earlier one. -/
def indexByName (rules : List CompiledRule) : AList (fun _ : String => Nat) :=
  rules.enum.foldl (fun existing e => existing.insert e.2.rule.name e.1) ∅

/-- The loop of `Merge` over the source rules (lines 382–391). -/
def mergeLoop : List CompiledRule → AList (fun _ : String => Nat) → List CompiledRule →
    List CompiledRule
  | rules, _, [] => rules
  | rules, existing, src :: srcs =>
    match existing.lookup src.rule.name with
    | some idx => mergeLoop (rules.set idx src) existing srcs
    | none => mergeLoop (rules ++ [src]) (existing.insert src.rule.name rules.length) srcs

/-! ## A rule list as a keyed list -/

/-- A compiled rule as a map entry, keyed by its rule's name. -/
def CompiledRule.entry (cr : CompiledRule) : Σ _ : String, CompiledRule := ⟨cr.rule.name, cr⟩

/-- The rule names of a list, in order. -/
def names (l : List CompiledRule) : List String := l.map (·.rule.name)

@[simp] theorem names_nil : names [] = [] := rfl

@[simp] theorem names_cons (cr : CompiledRule) (l : List CompiledRule) :
    names (cr :: l) = cr.rule.name :: names l := rfl

@[simp] theorem names_append (l₁ l₂ : List CompiledRule) :
    names (l₁ ++ l₂) = names l₁ ++ names l₂ := List.map_append _ _ _

@[simp] theorem keys_map_entry (l : List CompiledRule) :
    (l.map CompiledRule.entry).keys = names l := by
  simp [List.keys, names, CompiledRule.entry, Function.comp_def]

theorem nodupKeys_map_entry {l : List CompiledRule} :
    (l.map CompiledRule.entry).NodupKeys ↔ (names l).Nodup := by
  rw [List.NodupKeys, keys_map_entry]

@[simp] theorem dlookup_entry_self (cr : CompiledRule) (L : List (Σ _ : String, CompiledRule)) :
    (cr.entry :: L).dlookup cr.rule.name = some cr :=
  List.dlookup_cons_eq _ _ _

theorem dlookup_entry_ne {cr : CompiledRule} {n : String} (h : n ≠ cr.rule.name)
    (L : List (Σ _ : String, CompiledRule)) : (cr.entry :: L).dlookup n = L.dlookup n :=
  List.dlookup_cons_ne _ _ h

theorem dlookup_entry_eq_none {l : List CompiledRule} {n : String} :
    (l.map CompiledRule.entry).dlookup n = none ↔ n ∉ names l := by
  rw [List.dlookup_eq_none, keys_map_entry]

/-- `Get`'s scan is the first-entry lookup. -/
theorem find?_name_eq_dlookup (l : List CompiledRule) (n : String) :
    l.find? (fun cr => cr.rule.name = n) = (l.map CompiledRule.entry).dlookup n := by
  induction l with
  | nil => rfl
  | cons cr l ih =>
    by_cases h : cr.rule.name = n
    · subst h; simp
    · rw [List.map_cons, dlookup_entry_ne (Ne.symm h), List.find?_cons_of_neg _ (by simpa using h),
        ih]

theorem indexOfName_eq_none {l : List CompiledRule} {n : String} :
    indexOfName l n = none ↔ n ∉ names l := by
  induction l with
  | nil => simp [indexOfName]
  | cons cr l ih =>
    by_cases h : cr.rule.name = n
    · simp [indexOfName, h]
    · simp [indexOfName, h, ih, Ne.symm h]

theorem names_set_of_indexOfName {l : List CompiledRule} {cr : CompiledRule} {i : Nat}
    (h : indexOfName l cr.rule.name = some i) : names (l.set i cr) = names l := by
  induction l generalizing i with
  | nil => cases h
  | cons x l ih =>
    simp only [indexOfName] at h
    split_ifs at h with hx
    · cases h; simp [hx]
    · obtain ⟨j, hj, rfl⟩ := Option.map_eq_some'.mp h
      simp [ih hj]

/-- Overwriting the first entry of a name changes that name's lookup only. -/
theorem dlookup_set_of_indexOfName {l : List CompiledRule} {cr : CompiledRule} {i : Nat}
    (h : indexOfName l cr.rule.name = some i) (n : String) :
    ((l.set i cr).map CompiledRule.entry).dlookup n =
      if n = cr.rule.name then some cr else (l.map CompiledRule.entry).dlookup n := by
  induction l generalizing i with
  | nil => cases h
  | cons x l ih =>
    simp only [indexOfName] at h
    split_ifs at h with hx
    · cases h
      by_cases hn : n = cr.rule.name
      · subst hn; simp
      · rw [List.set_cons_zero, List.map_cons, dlookup_entry_ne hn, if_neg hn, List.map_cons,
          dlookup_entry_ne (hx ▸ hn)]
    · obtain ⟨j, hj, rfl⟩ := Option.map_eq_some'.mp h
      rw [List.set_cons_succ, List.map_cons, List.map_cons]
      by_cases hn : n = x.rule.name
      · subst hn; simp [hx]
      · rw [dlookup_entry_ne hn, dlookup_entry_ne hn, ih hj]

/-- Appending an entry of a new name adds that name's lookup only. -/
theorem dlookup_append_of_not_mem {l : List CompiledRule} {cr : CompiledRule}
    (hn : cr.rule.name ∉ names l) (n : String) :
    ((l ++ [cr]).map CompiledRule.entry).dlookup n =
      if n = cr.rule.name then some cr else (l.map CompiledRule.entry).dlookup n := by
  rw [List.map_append, List.dlookup_append]
  by_cases h : n = cr.rule.name
  · subst h; simp [dlookup_entry_eq_none.mpr hn, CompiledRule.entry]
  · simp [h, CompiledRule.entry]

/-- Deleting the first entry of a name, in a list of distinct names,
removes that name's lookup only. -/
theorem dlookup_eraseIdx_of_indexOfName {l : List CompiledRule} {n : String} {i : Nat}
    (h : indexOfName l n = some i) (hl : (names l).Nodup) (n' : String) :
    ((l.eraseIdx i).map CompiledRule.entry).dlookup n' =
      if n' = n then none else (l.map CompiledRule.entry).dlookup n' := by
  induction l generalizing i with
  | nil => cases h
  | cons x l ih =>
    simp only [names_cons, List.nodup_cons] at hl
    simp only [indexOfName] at h
    split_ifs at h with hx
    · cases h
      subst hx
      by_cases hn : n' = x.rule.name
      · subst hn; simpa [dlookup_entry_eq_none] using hl.1
      · rw [List.eraseIdx_cons_zero, if_neg hn, List.map_cons, dlookup_entry_ne hn]
    · obtain ⟨j, hj, rfl⟩ := Option.map_eq_some'.mp h
      rw [List.eraseIdx_cons_succ, List.map_cons, List.map_cons]
      by_cases hn : n' = x.rule.name
      · subst hn; simp [hx]
      · rw [dlookup_entry_ne hn, dlookup_entry_ne hn, ih hj hl.2]

/-- Rearranging a list of distinct names keeps every lookup. -/
theorem dlookup_perm {l₁ l₂ : List CompiledRule} (hp : l₁.Perm l₂) (hl : (names l₁).Nodup)
    (n : String) :
    (l₁.map CompiledRule.entry).dlookup n = (l₂.map CompiledRule.entry).dlookup n :=
  List.perm_dlookup n (nodupKeys_map_entry.mpr hl)
    (nodupKeys_map_entry.mpr ((hp.map _).nodup_iff.mp hl)) (hp.map _)

theorem indexOfName_congr {l₁ l₂ : List CompiledRule} (h : names l₁ = names l₂) (n : String) :
    indexOfName l₁ n = indexOfName l₂ n := by
  induction l₁ generalizing l₂ with
  | nil => cases l₂ <;> simp_all
  | cons x l₁ ih =>
    cases l₂ with
    | nil => simp at h
    | cons y l₂ =>
      simp only [names_cons, List.cons.injEq] at h
      simp [indexOfName, h.1, ih h.2]

theorem indexOfName_append_single (l : List CompiledRule) (cr : CompiledRule) (n : String) :
    indexOfName (l ++ [cr]) n =
      (indexOfName l n).or (if cr.rule.name = n then some l.length else none) := by
  induction l with
  | nil => by_cases h : cr.rule.name = n <;> simp [indexOfName, h]
  | cons x l ih =>
    by_cases h : x.rule.name = n
    · simp [indexOfName, h]
    · rw [List.cons_append, indexOfName, if_neg h, ih, indexOfName, if_neg h, List.length_cons]
      cases indexOfName l n <;> split_ifs <;> rfl

/-- On distinct names, `Merge`'s `existing` map is the first-index scan. -/
theorem lookup_indexByName {l : List CompiledRule} (hl : (names l).Nodup) (n : String) :
    (indexByName l).lookup n = indexOfName l n := by
  suffices ∀ (ex : AList fun _ : String => Nat) (k : Nat),
      (l.enumFrom k |>.foldl (fun ex e => ex.insert e.2.rule.name e.1) ex).lookup n =
        match indexOfName l n with
        | some p => some (k + p)
        | none => ex.lookup n by
    rw [indexByName, List.enum, this ∅ 0]
    cases indexOfName l n <;> simp
  induction l with
  | nil => intro ex k; rfl
  | cons x l ih =>
    intro ex k
    simp only [names_cons, List.nodup_cons] at hl
    rw [List.enumFrom_cons, List.foldl_cons, ih hl.2]
    by_cases hx : x.rule.name = n
    · subst hx
      rw [indexOfName_eq_none.mpr hl.1]
      simp [indexOfName]
    · simp only [indexOfName, hx, if_false]
      cases indexOfName l n with
      | none => simp [AList.lookup_insert_ne (Ne.symm hx)]
      | some p => simp; omega

/-- `Merge`'s loop, run from a list of distinct names whose `existing`
map is exact, over source rules of distinct names: every name looks up
its source entry if it has one, its old entry otherwise. -/
theorem mergeLoop_spec {srcs : List CompiledRule} (hs : (names srcs).Nodup) :
    ∀ (acc : List CompiledRule) (ex : AList fun _ : String => Nat),
      (names acc).Nodup → (∀ n, ex.lookup n = indexOfName acc n) →
      (names (mergeLoop acc ex srcs)).Nodup ∧
      ∀ n, ((mergeLoop acc ex srcs).map CompiledRule.entry).dlookup n =
        ((srcs.map CompiledRule.entry).dlookup n).or ((acc.map CompiledRule.entry).dlookup n) := by
  induction srcs with
  | nil => intro acc ex hacc _; exact ⟨hacc, fun n => by simp [mergeLoop]⟩
  | cons s ss ih =>
    intro acc ex hacc hex
    simp only [names_cons, List.nodup_cons] at hs
    have step : ∀ acc' : List CompiledRule, (names acc').Nodup →
        (∀ n, (acc'.map CompiledRule.entry).dlookup n =
          if n = s.rule.name then some s else (acc.map CompiledRule.entry).dlookup n) →
        ∀ n, ((ss.map CompiledRule.entry).dlookup n).or ((acc'.map CompiledRule.entry).dlookup n) =
          (((s :: ss).map CompiledRule.entry).dlookup n).or
            ((acc.map CompiledRule.entry).dlookup n) := by
      intro acc' _ hlk n
      rw [hlk, List.map_cons]
      by_cases hn : n = s.rule.name
      · subst hn; simp [dlookup_entry_eq_none.mpr hs.1]
      · simp [hn, dlookup_entry_ne hn]
    simp only [mergeLoop, hex]
    cases hi : indexOfName acc s.rule.name with
    | some idx =>
      have hnames := names_set_of_indexOfName hi
      obtain ⟨h1, h2⟩ := ih hs.2 (acc.set idx s) ex (hnames ▸ hacc)
        (fun n => (hex n).trans (indexOfName_congr hnames n).symm)
      exact ⟨h1, fun n => (h2 n).trans
        (step _ (hnames ▸ hacc) (dlookup_set_of_indexOfName hi) n)⟩
    | none =>
      have hnot := indexOfName_eq_none.mp hi
      have hacc' : (names (acc ++ [s])).Nodup := by
        simpa [List.nodup_append, hacc] using hnot
      obtain ⟨h1, h2⟩ := ih hs.2 (acc ++ [s]) (ex.insert s.rule.name acc.length) hacc'
        (fun n => by
          rw [indexOfName_append_single]
          by_cases hn : n = s.rule.name
          · subst hn; simp [hi]
          · simp [AList.lookup_insert_ne hn, hex, Ne.symm hn])
      exact ⟨h1, fun n => (h2 n).trans (step _ hacc' (dlookup_append_of_not_mem hnot) n)⟩

namespace Registry

variable (eng : Engines) (sf : SortFunc)

/-- `sortRulesLocked`. -/
def sortRulesLocked (rules : List CompiledRule) : List CompiledRule :=
  sf.sort (fun a b => compareRules a.rule b.rule) rules

/-- The write-locked part of `Add` (lines 232–257): overwrite the entry of
the same name, or append; then sort. -/
def addLocked (r : Registry) (cr : CompiledRule) : Registry :=
  match indexOfName r.rules cr.rule.name with
  | some i => ⟨sortRulesLocked sf (r.rules.set i cr)⟩
  | none => ⟨sortRulesLocked sf (r.rules ++ [cr])⟩

/-- `Add`: validate, compile (`AlwaysMatcher` when no condition is set),
then store. Returns the error, if any, and the registry after the call. -/
def add (r : Registry) : Option Rule → StateM PatternCache (Option GoError × Registry)
  | none => pure (some ⟨"rule cannot be nil"⟩, r)
  | some rule =>
    if rule.name = "" then pure (some ⟨"rule name cannot be empty"⟩, r)
    else if rule.action?.isNone then pure (some ⟨"rule action cannot be nil"⟩, r)
    else do
      match ← buildMatcher eng rule.match? with
      | .error err => pure (some (err.wrap "failed to compile rule matcher"), r)
      | .ok matcher => pure (none, r.addLocked sf ⟨rule, matcher.getD .always⟩)

/-- `AddAll`: `Add` each rule in order, stopping at the first error. -/
def addAll (r : Registry) : List (Option Rule) → StateM PatternCache (Option GoError × Registry)
  | [] => pure (none, r)
  | rule :: rules => do
    let (err, r') ← r.add eng sf rule
    match err with
    | some e => pure (some e, r')
    | none => r'.addAll rules

/-- `Remove`: delete the first entry with this name; report whether one was. -/
def remove (r : Registry) (name : String) : Bool × Registry :=
  match indexOfName r.rules name with
  | some i => (true, ⟨r.rules.eraseIdx i⟩)
  | none => (false, r)

/-- `Get`. -/
def get (r : Registry) (name : String) : Option CompiledRule :=
  r.rules.find? fun cr => cr.rule.name = name

/-- `GetAll`. -/
def getAll (r : Registry) : List CompiledRule := r.rules

/-- `GetEnabled`. -/
def getEnabled (r : Registry) : List CompiledRule := r.rules.filter (·.rule.enabled)

/-- `Size`. -/
def size (r : Registry) : Nat := r.rules.length

/-- `Clear`. -/
def clear (_ : Registry) : Registry := ⟨[]⟩

/-- `Merge`: source rules overwrite same-named entries or are appended,
then the result is sorted; a nil source changes nothing. -/
def merge (r : Registry) : Option Registry → Registry
  | none => r
  | some source => ⟨sortRulesLocked sf (mergeLoop r.rules (indexByName r.rules) source.rules)⟩

/-- `Add` applied to each rule in turn, whatever it answers. -/
def addEach (r : Registry) : List (Option Rule) → StateM PatternCache Registry
  | [] => pure r
  | rule? :: rules => do
    let (_, r') ← r.add eng sf rule?
    r'.addEach rules

section Errors

variable {eng sf}

/-- `Add` answers an error exactly for a nil rule, an empty name, a nil
action or a failing `BuildMatcher`, and then leaves the registry as it was. -/
theorem add_error_iff (r : Registry) (c : PatternCache) (rule? : Option Rule) :
    (((r.add eng sf rule?).run c).1.1.isSome ↔ rule? = none ∨ ∃ rule, rule? = some rule ∧
      (rule.name = "" ∨ rule.action? = none ∨
        ∃ e, ((buildMatcher eng rule.match?).run c).1 = .error e)) ∧
    (((r.add eng sf rule?).run c).1.1.isSome → ((r.add eng sf rule?).run c).1.2 = r) := by
  cases rule? with
  | none => simp [add]
  | some rule =>
    by_cases h1 : rule.name = ""
    · simp [add, h1]
    by_cases h2 : rule.action? = none
    · simp [add, h1, h2]
    have hif : rule.action?.isNone = false := Bool.eq_false_iff.mpr (by simpa using h2)
    simp only [add, h1, hif, Bool.false_eq_true, ↓reduceIte, StateT.run_bind]
    rcases hb : (buildMatcher eng rule.match?).run c with ⟨res | res, c'⟩ <;> simp [hb, h1, h2]

theorem addEach_cons_run (r : Registry) (c : PatternCache) (rule? : Option Rule)
    (rules : List (Option Rule)) :
    (r.addEach eng sf (rule? :: rules)).run c =
      (((r.add eng sf rule?).run c).1.2.addEach eng sf rules).run ((r.add eng sf rule?).run c).2 :=
  rfl

theorem addAll_cons_run (r : Registry) (c : PatternCache) (rule? : Option Rule)
    (rules : List (Option Rule)) :
    (r.addAll eng sf (rule? :: rules)).run c =
      match ((r.add eng sf rule?).run c).1.1 with
      | some e => ((some e, ((r.add eng sf rule?).run c).1.2), ((r.add eng sf rule?).run c).2)
      | none => (((r.add eng sf rule?).run c).1.2.addAll eng sf rules).run
          ((r.add eng sf rule?).run c).2 := by
  simp only [addAll, StateT.run_bind]
  generalize (r.add eng sf rule?).run c = out
  obtain ⟨⟨_ | _, r'⟩, c'⟩ := out <;> rfl

/-- `AddAll` is `Add` on each rule in turn up to the first rejected one. -/
theorem addAll_run_cases (rules : List (Option Rule)) :
    ∀ (r : Registry) (c : PatternCache),
      let before := fun i => (r.addEach eng sf (rules.take i)).run c
      let attempt := fun (i : Nat) (h : i < rules.length) =>
        ((before i).1.add eng sf rules[i]).run (before i).2
      ((r.addAll eng sf rules).run c =
          ((none, ((r.addEach eng sf rules).run c).1), ((r.addEach eng sf rules).run c).2) ∧
        ∀ i (h : i < rules.length), (attempt i h).1.1 = none) ∨
      ∃ i, ∃ h : i < rules.length, (∀ j (hj : j < i), (attempt j (hj.trans h)).1.1 = none) ∧
        (attempt i h).1.1.isSome ∧
        (r.addAll eng sf rules).run c = (((attempt i h).1.1, (before i).1), (attempt i h).2) := by
  induction rules with
  | nil => intro r c; exact .inl ⟨rfl, fun i h => absurd h (Nat.not_lt_zero i)⟩
  | cons rule? rules ih =>
    intro r c
    dsimp only
    rw [addAll_cons_run]
    cases he : ((r.add eng sf rule?).run c).1.1 with
    | some e =>
      refine .inr ⟨0, Nat.succ_pos _, fun j hj => absurd hj (Nat.not_lt_zero j),
        show ((r.add eng sf rule?).run c).1.1.isSome by simp [he], ?_⟩
      have hr : ((r.add eng sf rule?).run c).1.2 = r := (add_error_iff r c rule?).2 (by simp [he])
      simp [addEach, he, hr]
    | none =>
      rcases ih ((r.add eng sf rule?).run c).1.2 ((r.add eng sf rule?).run c).2 with
        ⟨hall, hacc⟩ | ⟨i, hi, hpre, hrej, hall⟩
      · refine .inl ⟨by simpa only [addEach_cons_run] using hall, fun i h => ?_⟩
        cases i with
        | zero => simpa [addEach] using he
        | succ k => exact hacc k (Nat.lt_of_succ_lt_succ h)
      · refine .inr ⟨i + 1, Nat.succ_lt_succ hi, fun j hj => ?_, hrej, hall⟩
        cases j with
        | zero => simpa [addEach] using he
        | succ k => exact hpre k (Nat.lt_of_succ_lt_succ hj)

theorem add_addAll_error_spec (r : Registry) (c : PatternCache) (rule? : Option Rule)
    (rules : List (Option Rule)) :
    (((r.add eng sf rule?).run c).1.1.isSome ↔ rule? = none ∨ ∃ rule, rule? = some rule ∧
      (rule.name = "" ∨ rule.action? = none ∨
        ∃ e, ((buildMatcher eng rule.match?).run c).1 = .error e)) ∧
    (((r.add eng sf rule?).run c).1.1.isSome → ((r.add eng sf rule?).run c).1.2 = r) ∧
    let before := fun i => (r.addEach eng sf (rules.take i)).run c
    let attempt := fun (i : Nat) (h : i < rules.length) =>
      ((before i).1.add eng sf rules[i]).run (before i).2
    ((r.addAll eng sf rules).run c =
        ((none, ((r.addEach eng sf rules).run c).1), ((r.addEach eng sf rules).run c).2) ∧
      ∀ i (h : i < rules.length), (attempt i h).1.1 = none) ∨
    ∃ i, ∃ h : i < rules.length, (∀ j (hj : j < i), (attempt j (hj.trans h)).1.1 = none) ∧
      (attempt i h).1.1.isSome ∧
      (r.addAll eng sf rules).run c = (((attempt i h).1.1, (before i).1), (attempt i h).2) :=
  ⟨(add_error_iff r c rule?).1, (add_error_iff r c rule?).2, addAll_run_cases rules r c⟩

end Errors

end Registry

end ClaudeHooks.Rules
