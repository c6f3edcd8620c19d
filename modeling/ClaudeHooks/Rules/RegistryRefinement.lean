import ClaudeHooks.Rules.Registry
import Mathlib.Data.Finmap

/-!
# Rules — the registry refines a finite map

The registry's slice is a sorted arrangement of a finite map from rule
name to compiled rule. `Registry.WF` is what every reachable slice
satisfies: distinct names, each entry what `Add` stores for its rule, and
strictly sorted. `Registry.toMap` reads the slice as a `Finmap`; the
abstract operations (`absAdd`, `absAddAll`, `Finmap.erase`, `∪`, `∅`)
say what each method does to that map. `Reach` runs both sides over every
sequence of operations from `NewRegistry`, a `Merge` source being any
registry reachable the same way (the receiver itself included), and
`reach_wf` shows the slice always satisfies `WF` and reads as the
abstract map.
-/

namespace ClaudeHooks.Rules

/-- The abstract registry: rule name to compiled rule. -/
abbrev RuleMap := Finmap fun _ : String => CompiledRule

/-- What `Add` stores for a rule when it accepts it: a rule with a name and
an action, and the matcher `BuildMatcher` compiles for it (`AlwaysMatcher`
for none); `none` when `Add` rejects it. -/
def compiledRule? (eng : Engines) : Option Rule → Option CompiledRule
  | none => none
  | some rule =>
    if rule.name = "" ∨ rule.action?.isNone then none
    else match compileMatcher eng rule.match? with
      | .ok m => some ⟨rule, m.getD .always⟩
      | .error _ => none

/-- `Add(r)` sets `M[r.Name] := r` when it succeeds. -/
def absAdd (eng : Engines) (M : RuleMap) (rule? : Option Rule) : RuleMap :=
  match compiledRule? eng rule? with
  | some cr => M.insert cr.rule.name cr
  | none => M

/-- `AddAll`: the `Add`s up to the first rejected rule. -/
def absAddAll (eng : Engines) (M : RuleMap) : List (Option Rule) → RuleMap
  | [] => M
  | rule? :: rules =>
    match compiledRule? eng rule? with
    | some cr => absAddAll eng (M.insert cr.rule.name cr) rules
    | none => M

/-- The slice read as a map. -/
def Registry.toMap (r : Registry) : RuleMap :=
  (r.rules.map CompiledRule.entry).toFinmap

/-- What every reachable registry satisfies. -/
structure Registry.WF (eng : Engines) (r : Registry) : Prop where
  nodup : (names r.rules).Nodup
  compiled : ∀ cr ∈ r.rules, compiledRule? eng (some cr.rule) = some cr
  sorted : r.rules.Sorted fun a b => RuleLt a.rule b.rule

variable {eng : Engines} {sf : SortFunc}

/-! ## Reading the slice as a map -/

theorem lookup_toMap (r : Registry) (n : String) :
    r.toMap.lookup n = (r.rules.map CompiledRule.entry).dlookup n :=
  Finmap.dlookup_list_toFinmap _ _

theorem get_eq_lookup (r : Registry) (n : String) : r.get n = r.toMap.lookup n := by
  rw [lookup_toMap, ← find?_name_eq_dlookup]; rfl

theorem mem_toMap {r : Registry} {n : String} : n ∈ r.toMap ↔ n ∈ names r.rules := by
  rw [← Finmap.lookup_isSome, lookup_toMap, List.dlookup_isSome, keys_map_entry]

theorem dedupKeys_of_nodupKeys {l : List (Σ _ : String, CompiledRule)} (h : l.NodupKeys) :
    l.dedupKeys = l := by
  induction l with
  | nil => rfl
  | cons x l ih =>
    rw [List.nodupKeys_cons] at h
    rw [List.dedupKeys_cons, ih h.2, List.kinsert, List.kerase_of_not_mem_keys h.1]

theorem entries_toMap {r : Registry} (h : (names r.rules).Nodup) :
    r.toMap.entries = ↑(r.rules.map CompiledRule.entry) := by
  rw [Registry.toMap, List.toFinmap, AList.toFinmap_entries]
  exact congrArg _ (dedupKeys_of_nodupKeys (nodupKeys_map_entry.mpr h))

theorem card_keys_toMap {r : Registry} (h : (names r.rules).Nodup) :
    r.toMap.keys.card = r.size := by
  rw [Registry.toMap, List.toFinmap, Finset.card_def, Finmap.keys_val]
  simp [AList.keys, dedupKeys_of_nodupKeys (nodupKeys_map_entry.mpr h), Registry.size, names]

theorem toMap_ext {r' : Registry} {M : RuleMap}
    (h : ∀ n, (r'.rules.map CompiledRule.entry).dlookup n = M.lookup n) : r'.toMap = M :=
  Finmap.ext_lookup fun n => (lookup_toMap r' n).trans (h n)

/-! ## One lemma per operation -/

theorem Registry.WF.sortRulesLocked {l : List CompiledRule} (hn : (names l).Nodup)
    (hc : ∀ cr ∈ l, compiledRule? eng (some cr.rule) = some cr) :
    (⟨Registry.sortRulesLocked sf l⟩ : Registry).WF eng where
  nodup := ((sf.perm _ l).map _).nodup_iff.mpr hn
  compiled cr h := hc cr ((sf.perm _ l).subset h)
  sorted := sort_sorted CompiledRule.rule sf hn

theorem dlookup_sortRulesLocked {l : List CompiledRule} (hn : (names l).Nodup) (n : String) :
    ((Registry.sortRulesLocked sf l).map CompiledRule.entry).dlookup n =
      (l.map CompiledRule.entry).dlookup n :=
  dlookup_perm (sf.perm _ l) (((sf.perm _ l).map _).nodup_iff.mpr hn) n

theorem Registry.WF.addLocked {r : Registry} (hr : r.WF eng) {cr : CompiledRule}
    (hcr : compiledRule? eng (some cr.rule) = some cr) :
    (r.addLocked sf cr).WF eng ∧ (r.addLocked sf cr).toMap = r.toMap.insert cr.rule.name cr := by
  unfold Registry.addLocked
  split
  · rename_i i hi
    have hn : (names (r.rules.set i cr)).Nodup := names_set_of_indexOfName hi ▸ hr.nodup
    refine ⟨Registry.WF.sortRulesLocked hn fun x hx => ?_, toMap_ext fun n => ?_⟩
    · rcases List.mem_or_eq_of_mem_set hx with hx | rfl
      · exact hr.compiled x hx
      · exact hcr
    · rw [dlookup_sortRulesLocked hn, dlookup_set_of_indexOfName hi]
      by_cases h : n = cr.rule.name
      · subst h; simp
      · simp [h, Finmap.lookup_insert_of_ne _ h, lookup_toMap]
  · rename_i hi
    have hnot := indexOfName_eq_none.mp hi
    have hn : (names (r.rules ++ [cr])).Nodup := by
      simpa [List.nodup_append, hr.nodup] using hnot
    refine ⟨Registry.WF.sortRulesLocked hn fun x hx => ?_, toMap_ext fun n => ?_⟩
    · rcases List.mem_append.mp hx with hx | hx
      · exact hr.compiled x hx
      · rw [List.mem_singleton.mp hx]; exact hcr
    · rw [dlookup_sortRulesLocked hn, dlookup_append_of_not_mem hnot]
      by_cases h : n = cr.rule.name
      · subst h; simp
      · simp [h, Finmap.lookup_insert_of_ne _ h, lookup_toMap]

theorem Registry.WF.remove {r : Registry} (hr : r.WF eng) (n : String) :
    (r.remove n).2.WF eng ∧ (r.remove n).2.toMap = r.toMap.erase n ∧
      (r.remove n).1 = decide (n ∈ r.toMap) := by
  unfold Registry.remove
  split
  · rename_i i hi
    have hsub := List.eraseIdx_sublist r.rules i
    have hmem : n ∈ names r.rules := by
      by_contra h; simp [indexOfName_eq_none.mpr h] at hi
    refine ⟨⟨hr.nodup.sublist (hsub.map _), fun x hx => hr.compiled x (hsub.subset hx),
      hr.sorted.sublist hsub⟩, toMap_ext fun n' => ?_, by simp [mem_toMap, hmem]⟩
    rw [dlookup_eraseIdx_of_indexOfName hi hr.nodup]
    by_cases h : n' = n
    · subst h; simp
    · simp [h, Finmap.lookup_erase_ne h, lookup_toMap]
  · rename_i hi
    have hnot := indexOfName_eq_none.mp hi
    refine ⟨hr, Finmap.ext_lookup fun n' => ?_, by simp [mem_toMap, hnot]⟩
    by_cases h : n' = n
    · subst h; rw [Finmap.lookup_erase, Finmap.lookup_eq_none.mpr (mem_toMap.not.mpr hnot)]
    · rw [Finmap.lookup_erase_ne h]

theorem mem_mergeLoop {x : CompiledRule} :
    ∀ {acc srcs : List CompiledRule} {ex : AList fun _ : String => Nat},
      x ∈ mergeLoop acc ex srcs → x ∈ acc ∨ x ∈ srcs
  | acc, [], _, hx => .inl hx
  | acc, s :: ss, ex, hx => by
    simp only [mergeLoop] at hx
    split at hx
    · rcases mem_mergeLoop hx with h | h
      · rcases List.mem_or_eq_of_mem_set h with h | rfl
        · exact .inl h
        · exact .inr (.head _)
      · exact .inr (.tail _ h)
    · rcases mem_mergeLoop hx with h | h
      · rcases List.mem_append.mp h with h | h
        · exact .inl h
        · exact .inr (List.mem_singleton.mp h ▸ .head _)
      · exact .inr (.tail _ h)

theorem Registry.WF.merge {r s : Registry} (hr : r.WF eng) (sf : SortFunc) (hs : s.WF eng) :
    (r.merge sf (some s)).WF eng ∧ (r.merge sf (some s)).toMap = s.toMap ∪ r.toMap := by
  obtain ⟨hn, hlk⟩ := mergeLoop_spec hs.nodup r.rules (indexByName r.rules) hr.nodup
    (lookup_indexByName hr.nodup)
  refine ⟨Registry.WF.sortRulesLocked hn fun x hx => ?_, toMap_ext fun n => ?_⟩
  · rcases mem_mergeLoop hx with h | h
    · exact hr.compiled x h
    · exact hs.compiled x h
  · dsimp only [Registry.merge]
    rw [dlookup_sortRulesLocked hn, hlk, ← lookup_toMap, ← lookup_toMap]
    by_cases h : n ∈ s.toMap
    · obtain ⟨v, hv⟩ := Finmap.mem_iff.mp h
      rw [Finmap.lookup_union_left h, hv]; rfl
    · rw [Finmap.lookup_union_right h, Finmap.lookup_eq_none.mpr h]; rfl

theorem Registry.WF.clear (r : Registry) : r.clear.WF eng ∧ r.clear.toMap = ∅ :=
  ⟨⟨List.nodup_nil, fun _ h => (by cases h), List.sorted_nil⟩, Finmap.toFinmap_nil⟩

theorem Registry.WF.new : newRegistry.WF eng ∧ newRegistry.toMap = ∅ :=
  Registry.WF.clear newRegistry

/-! ## `Add` and `AddAll` over a sound cache -/

theorem compiledRule?_eq_some {rule? : Option Rule} {cr : CompiledRule} :
    compiledRule? eng rule? = some cr ↔
      rule? = some cr.rule ∧ cr.rule.name ≠ "" ∧ cr.rule.action?.isSome ∧
        ∃ m, compileMatcher eng cr.rule.match? = .ok m ∧ cr.matcher = m.getD .always := by
  constructor
  · intro h
    cases rule? with
    | none => cases h
    | some rule =>
      simp only [compiledRule?, not_or] at h
      split_ifs at h with hv
      cases hm : compileMatcher eng rule.match? with
      | error e => simp [hm] at h
      | ok m =>
        simp only [hm, Option.some.injEq] at h
        subst h
        rw [not_or, Bool.not_eq_true, Option.isNone_eq_false_iff] at hv
        exact ⟨rfl, hv.1, hv.2, m, hm, rfl⟩
  · rintro ⟨rfl, h1, h2, m, hm, hcr⟩
    have hn : cr.rule.action?.isNone = false := by simpa [Option.isNone_iff_eq_none,
      Option.isSome_iff_ne_none] using h2
    simp only [compiledRule?, h1, hn, hm, false_or, Bool.false_eq_true, ↓reduceIte, ← hcr]

theorem compiledRule?_rule {rule? : Option Rule} {cr : CompiledRule}
    (h : compiledRule? eng rule? = some cr) : compiledRule? eng (some cr.rule) = some cr := by
  obtain ⟨-, h⟩ := compiledRule?_eq_some.mp h
  exact compiledRule?_eq_some.mpr ⟨rfl, h⟩

/-- Over a sound cache `Add` stores exactly `compiledRule?`, answers
`nil` exactly when it does, and leaves the cache sound. -/
theorem Registry.add_run (sf : SortFunc) (r : Registry) {c : PatternCache} (hc : c.Sound eng)
    (rule? : Option Rule) :
    ((r.add eng sf rule?).run c).1.2 = (compiledRule? eng rule?).elim r (r.addLocked sf) ∧
      (((r.add eng sf rule?).run c).1.1 = none ↔ (compiledRule? eng rule?).isSome) ∧
      ((r.add eng sf rule?).run c).2.Sound eng := by
  cases rule? with
  | none => exact ⟨rfl, by simp [Registry.add, compiledRule?], hc⟩
  | some rule =>
    by_cases h1 : rule.name = ""
    · simp [Registry.add, compiledRule?, h1]; exact hc
    by_cases h2 : rule.action?.isNone
    · simp [Registry.add, compiledRule?, h1, h2]; exact hc
    obtain ⟨hb, hc'⟩ := buildMatcher_run rule.match? c hc
    generalize hbm : (buildMatcher eng rule.match?).run c = out at hb hc'
    obtain ⟨res, c'⟩ := out
    dsimp only at hb hc'
    subst hb
    have hif : rule.action?.isNone = false := Bool.eq_false_iff.mpr h2
    simp only [Registry.add, compiledRule?, h1, hif, Bool.false_eq_true, ↓reduceIte, or_false,
      StateT.run_bind, hbm]
    cases compileMatcher eng rule.match? <;> exact ⟨rfl, by simp, hc'⟩

theorem Registry.WF.add {r : Registry} (hr : r.WF eng) (sf : SortFunc) {c : PatternCache}
    (hc : c.Sound eng) (rule? : Option Rule) :
    ((r.add eng sf rule?).run c).1.2.WF eng ∧
      ((r.add eng sf rule?).run c).1.2.toMap = absAdd eng r.toMap rule? ∧
      ((r.add eng sf rule?).run c).2.Sound eng := by
  obtain ⟨hst, -, hc'⟩ := Registry.add_run sf r hc rule?
  rw [hst, absAdd]
  cases h : compiledRule? eng rule? with
  | none => exact ⟨hr, rfl, hc'⟩
  | some cr => exact (hr.addLocked (compiledRule?_rule h)).elim fun h1 h2 => ⟨h1, h2, hc'⟩

theorem Registry.WF.addAll (sf : SortFunc) (rules : List (Option Rule)) :
    ∀ {r : Registry} {c : PatternCache}, r.WF eng → c.Sound eng →
      ((r.addAll eng sf rules).run c).1.2.WF eng ∧
      ((r.addAll eng sf rules).run c).1.2.toMap = absAddAll eng r.toMap rules ∧
      ((r.addAll eng sf rules).run c).2.Sound eng := by
  induction rules with
  | nil => exact fun hr hc => ⟨hr, rfl, hc⟩
  | cons rule? rules ih =>
    intro r c hr hc
    obtain ⟨hst, herr, hc'⟩ := Registry.add_run sf r hc rule?
    obtain ⟨hwf, hmap, -⟩ := hr.add sf hc rule?
    rw [Registry.addAll_cons_run]
    cases h : compiledRule? eng rule? with
    | none =>
      obtain ⟨e, he⟩ := Option.ne_none_iff_exists'.mp (by simpa [h] using herr)
      rw [he]
      simp only [hst, h, Option.elim, absAddAll]
      exact ⟨hr, trivial, hc'⟩
    | some cr =>
      rw [herr.mpr (by simp [h])]
      simpa only [absAddAll, h, hmap, absAdd] using ih hwf hc'

/-! ## Every reachable registry -/

/-- Registries reachable from `NewRegistry`, each paired with the abstract
map it stands for. `Add` and `AddAll` run over any sound pattern cache: the
process-wide cache starts empty and `Get`, `Clear` and `Add` keep it sound
(`PatternCache.Sound.get`, `Sound.clear`, `Registry.add_run`). -/
inductive Reach (eng : Engines) (sf : SortFunc) : Registry → RuleMap → Prop
  | new : Reach eng sf newRegistry ∅
  | add {r M} (h : Reach eng sf r M) {c : PatternCache} (hc : c.Sound eng) (rule? : Option Rule) :
      Reach eng sf ((r.add eng sf rule?).run c).1.2 (absAdd eng M rule?)
  | addAll {r M} (h : Reach eng sf r M) {c : PatternCache} (hc : c.Sound eng)
      (rules : List (Option Rule)) :
      Reach eng sf ((r.addAll eng sf rules).run c).1.2 (absAddAll eng M rules)
  | remove {r M} (h : Reach eng sf r M) (n : String) : Reach eng sf (r.remove n).2 (M.erase n)
  | merge {r M s Ms} (h : Reach eng sf r M) (hs : Reach eng sf s Ms) :
      Reach eng sf (r.merge sf (some s)) (Ms ∪ M)
  | mergeNil {r M} (h : Reach eng sf r M) : Reach eng sf (r.merge sf none) M
  | clear {r M} (h : Reach eng sf r M) : Reach eng sf r.clear ∅

theorem reach_wf {r : Registry} {M : RuleMap} (h : Reach eng sf r M) :
    r.WF eng ∧ r.toMap = M := by
  induction h with
  | new => exact Registry.WF.new
  | add _ hc rule? ih => obtain ⟨hw, rfl⟩ := ih; exact ⟨(hw.add sf hc rule?).1, (hw.add sf hc rule?).2.1⟩
  | addAll _ hc rules ih =>
    obtain ⟨hw, rfl⟩ := ih; exact ⟨(hw.addAll sf rules hc).1, (hw.addAll sf rules hc).2.1⟩
  | remove _ n ih => obtain ⟨hw, rfl⟩ := ih; exact ⟨(hw.remove n).1, (hw.remove n).2.1⟩
  | merge _ _ ih ihs =>
    obtain ⟨hw, rfl⟩ := ih; obtain ⟨hws, rfl⟩ := ihs; exact hw.merge sf hws
  | mergeNil _ ih => exact ih
  | clear _ _ => exact Registry.WF.clear _

/-- A well-formed slice is determined by the map it reads as. -/
theorem Registry.WF.rules_eq {r r' : Registry} (hr : r.WF eng) (hr' : r'.WF eng)
    (h : r.toMap = r'.toMap) : r.rules = r'.rules := by
  have hp : (r.rules.map CompiledRule.entry).Perm (r'.rules.map CompiledRule.entry) :=
    Quotient.exact ((entries_toMap hr.nodup).symm.trans (h ▸ entries_toMap hr'.nodup))
  have hsnd : ∀ l : List CompiledRule, (l.map CompiledRule.entry).map Sigma.snd = l := fun l => by
    rw [List.map_map]; exact List.map_id' l
  exact sorted_unique CompiledRule.rule (hsnd r.rules ▸ hsnd r'.rules ▸ hp.map Sigma.snd)
    hr.sorted hr'.sorted

theorem registry_refines_map {r : Registry} {M : RuleMap} (h : Reach eng sf r M) :
    (names r.rules).Nodup ∧ (∀ cr ∈ r.rules, cr.rule.name ≠ "" ∧ cr.rule.action?.isSome) ∧
    r.rules.Sorted (fun a b => RuleLt a.rule b.rule) ∧
    (↑(r.getAll.map CompiledRule.entry) : Multiset _) = M.entries ∧
    r.size = M.keys.card ∧ (∀ n, r.get n = M.lookup n) ∧
    r.getEnabled = r.getAll.filter (·.rule.enabled) ∧
    (∀ n, (r.remove n).1 = decide (n ∈ M)) ∧
    (∀ r', Reach eng sf r' M → r'.getAll = r.getAll) := by
  obtain ⟨hw, rfl⟩ := reach_wf h
  refine ⟨hw.nodup, fun cr hcr => ?_, hw.sorted, (entries_toMap hw.nodup).symm,
    (card_keys_toMap hw.nodup).symm, get_eq_lookup r, rfl, fun n => (hw.remove n).2.2,
    fun r' h' => ?_⟩
  · obtain ⟨-, h1, h2, -⟩ := compiledRule?_eq_some.mp (hw.compiled cr hcr)
    exact ⟨h1, h2⟩
  · obtain ⟨hw', hm⟩ := reach_wf h'
    exact hw'.rules_eq hw hm

/-- A run through every kind of step: `a` and `b` added, `a` replaced by a
rule of the same name, `b` removed, and then a registry holding `c` and
another `a` merged in, whose `a` wins. -/
theorem registry_refines_map_run :
    let rule (n : String) (p : Int) : Rule := ⟨n, "", true, p, none, some ⟨.block, n, ""⟩⟩
    let add (r : Registry) (x : Rule) :=
      ((r.add literalEngines insertionSortFunc (some x)).run newPatternCache).1.2
    let absAdd' (M : RuleMap) (x : Rule) := absAdd literalEngines M (some x)
    let src := [some (rule "c" 5), some (rule "a" 4)]
    let r := ((add (add (add newRegistry (rule "a" 1)) (rule "b" 2)) (rule "a" 3)).remove "b").2.merge
      insertionSortFunc (some ((newRegistry.addAll literalEngines insertionSortFunc src).run newPatternCache).1.2)
    let M := absAddAll literalEngines ∅ src ∪
      (absAdd' (absAdd' (absAdd' ∅ (rule "a" 1)) (rule "b" 2)) (rule "a" 3)).erase "b"
    Reach literalEngines insertionSortFunc r M ∧
    ((names r.rules).Nodup ∧ (∀ cr ∈ r.rules, cr.rule.name ≠ "" ∧ cr.rule.action?.isSome) ∧
      r.rules.Sorted (fun a b => RuleLt a.rule b.rule) ∧
      (↑(r.getAll.map CompiledRule.entry) : Multiset _) = M.entries ∧
      r.size = M.keys.card ∧ (∀ n, r.get n = M.lookup n) ∧
      r.getEnabled = r.getAll.filter (·.rule.enabled) ∧
      (∀ n, (r.remove n).1 = decide (n ∈ M)) ∧
      (∀ r', Reach literalEngines insertionSortFunc r' M → r'.getAll = r.getAll)) ∧
    r.getAll.map (fun cr => (cr.rule.name, cr.rule.priority)) = [("c", 5), ("a", 4)] :=
  have h := Reach.merge (Reach.remove (Reach.add (Reach.add (Reach.add .new (PatternCache.sound_new _) _)
    (PatternCache.sound_new _) _) (PatternCache.sound_new _) _) "b")
    (Reach.addAll .new (PatternCache.sound_new _) _)
  ⟨h, registry_refines_map h, by decide⟩

end ClaudeHooks.Rules
