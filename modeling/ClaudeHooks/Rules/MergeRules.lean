import ClaudeHooks.Rules.RegistryRefinement

/-!
# Rules — `MergeRules` against the registry

`MergeRules` (`src/internal/rules/evaluator.go`, lines 396–425) merges two
rule lists by name through a Go map, reads the map back with `range`, and
sorts. Go leaves the `range` order to the runtime; `MapRange` is any order
that lists each value once, and every result below holds for all of them.

The specification is `lastNamed`: for each name, the last rule of that name
in `override`, else the last in `base`. Both `MergeRules` and the registry
routes (`AddAll` then `Merge`, or one `AddAll` of the concatenation) give
the rules `lastNamed` picks, strictly sorted; a strictly sorted list is
determined by its elements (`sorted_eq_of_mem_iff`), so the three agree.
-/

namespace ClaudeHooks.Rules

/-- A Go `map[string]*Rule`. -/
abbrev RuleTable := AList fun _ : String => Rule

/-- `for _, rule := range merged`: the map's values in an order the runtime
picks, each once. -/
structure MapRange where
  values : RuleTable → List Rule
  perm : ∀ m, (values m).Perm (m.entries.map Sigma.snd)

/-- One admissible `range` order: the table's own. -/
def MapRange.inOrder : MapRange := ⟨fun m => m.entries.map Sigma.snd, fun _ => .refl _⟩

/-- `merged[rule.Name] = rule`. -/
def putRule (merged : RuleTable) (rule : Rule) : RuleTable := merged.insert rule.name rule

/-- `MergeRules`: the base rules, then the override rules, put into one map
by name; its values in `range` order, sorted by priority descending then
name ascending. -/
def mergeRules (sf : SortFunc) (it : MapRange) (base override : List Rule) : List Rule :=
  let merged := override.foldl putRule (base.foldl putRule ∅)
  sf.sort (fun a b => compareRules a b) (it.values merged)

/-- The last rule of a list with the given name. -/
def lastNamed (rules : List Rule) (n : String) : Option Rule :=
  rules.reverse.find? (·.name = n)

/-! ## `lastNamed` -/

theorem lastNamed_append (l₁ l₂ : List Rule) (n : String) :
    lastNamed (l₁ ++ l₂) n = (lastNamed l₂ n).or (lastNamed l₁ n) := by
  simp only [lastNamed, List.reverse_append, List.find?_append]

theorem lastNamed_cons (r : Rule) (l : List Rule) (n : String) :
    lastNamed (r :: l) n = (lastNamed l n).or (if r.name = n then some r else none) := by
  rw [← List.singleton_append, lastNamed_append]
  by_cases h : r.name = n <;> simp [lastNamed, h]

theorem lastNamed_eq_some {l : List Rule} {n : String} {x : Rule} (h : lastNamed l n = some x) :
    x.name = n ∧ x ∈ l := by
  unfold lastNamed at h
  exact ⟨by simpa using List.find?_some h, List.mem_reverse.mp (List.mem_of_find?_eq_some h)⟩

/-! ## The Go map -/

theorem lookup_foldl_putRule (rules : List Rule) :
    ∀ (M : RuleTable) (n : String),
      (rules.foldl putRule M).lookup n = (lastNamed rules n).or (M.lookup n) := by
  induction rules with
  | nil => intro M n; rfl
  | cons r rules ih =>
    intro M n
    rw [List.foldl_cons, ih, lastNamed_cons, Option.or_assoc, putRule]
    by_cases h : r.name = n
    · subst h; simp [AList.lookup_insert]
    · simp [h, AList.lookup_insert_ne (Ne.symm h)]

/-- The merged map's lookup is `lastNamed` of the two lists. -/
theorem lookup_merged (base override : List Rule) (n : String) :
    (override.foldl putRule (base.foldl putRule ∅)).lookup n = lastNamed (base ++ override) n := by
  rw [lookup_foldl_putRule, lookup_foldl_putRule, AList.lookup_empty, lastNamed_append]
  cases lastNamed base n <;> rfl

theorem mem_values_merged {base override : List Rule} {x : Rule} :
    x ∈ (override.foldl putRule (base.foldl putRule ∅)).entries.map Sigma.snd ↔
      lastNamed (base ++ override) x.name = some x := by
  rw [List.mem_map]
  constructor
  · rintro ⟨⟨k, y⟩, hs, rfl⟩
    have hk := lookup_merged base override k ▸ AList.mem_lookup_iff.mpr hs
    rw [← (lastNamed_eq_some hk).1] at hk
    exact hk
  · intro h
    rw [← lookup_merged] at h
    exact ⟨⟨x.name, x⟩, AList.mem_lookup_iff.mp h, rfl⟩

theorem names_values_merged (base override : List Rule) :
    ((override.foldl putRule (base.foldl putRule ∅)).entries.map Sigma.snd).map Rule.name =
      (override.foldl putRule (base.foldl putRule ∅)).keys := by
  rw [List.map_map, AList.keys, List.keys]
  refine List.map_congr_left fun s hs => ?_
  have hk := lookup_merged base override s.1 ▸ AList.mem_lookup_iff.mpr hs
  exact (lastNamed_eq_some hk).1

/-! ## `MergeRules` -/

variable (sf : SortFunc) (it : MapRange)

theorem mem_mergeRules {base override : List Rule} {x : Rule} :
    x ∈ mergeRules sf it base override ↔ lastNamed (base ++ override) x.name = some x := by
  rw [mergeRules, ((sf.perm _ _).trans (it.perm _)).mem_iff, mem_values_merged]

theorem mergeRules_sorted (base override : List Rule) :
    (mergeRules sf it base override).Sorted RuleLt := by
  have hn : ((it.values (override.foldl putRule (base.foldl putRule ∅))).map Rule.name).Nodup := by
    rw [((it.perm _).map _).nodup_iff, names_values_merged]
    exact AList.keys_nodup _
  exact sort_sorted id sf hn

/-! ## The registry routes -/

variable {eng : Engines} {sf}

/-- A rule `Add` accepts. -/
def Accepted (eng : Engines) (rule : Rule) : Prop := (compiledRule? eng (some rule)).isSome

theorem or_bind_of_accepted {o b : Option Rule} (h : ∀ r ∈ o, Accepted eng r) :
    (o.bind fun r => compiledRule? eng (some r)).or (b.bind fun r => compiledRule? eng (some r)) =
      (o.or b).bind fun r => compiledRule? eng (some r) := by
  cases o with
  | none => rfl
  | some r => obtain ⟨cr, hcr⟩ := Option.isSome_iff_exists.mp (h r rfl); simp [hcr]

theorem lookup_absAddAll {rules : List Rule} (hv : ∀ r ∈ rules, Accepted eng r) :
    ∀ (M : RuleMap) (n : String), (absAddAll eng M (rules.map some)).lookup n =
      ((lastNamed rules n).bind fun r => compiledRule? eng (some r)).or (M.lookup n) := by
  induction rules with
  | nil => intro M n; rfl
  | cons r rules ih =>
    intro M n
    obtain ⟨cr, hcr⟩ := Option.isSome_iff_exists.mp (hv r (.head _))
    obtain rfl : r = cr.rule := Option.some.inj (compiledRule?_eq_some.mp hcr).1
    simp only [List.map_cons, absAddAll, hcr]
    rw [ih (fun x hx => hv x (.tail _ hx)), lastNamed_cons,
      ← or_bind_of_accepted (fun x hx => hv x (.tail _ (lastNamed_eq_some hx).2)), Option.or_assoc]
    congr 1
    by_cases h : cr.rule.name = n
    · subst h; simp [Finmap.lookup_insert, hcr]
    · simp [Finmap.lookup_insert_of_ne _ (Ne.symm h), h]

theorem lookup_union_or (A B : RuleMap) (n : String) :
    (A ∪ B).lookup n = (A.lookup n).or (B.lookup n) := by
  by_cases h : n ∈ A
  · obtain ⟨v, hv⟩ := Finmap.mem_iff.mp h
    rw [Finmap.lookup_union_left h, hv]; rfl
  · rw [Finmap.lookup_union_right h, Finmap.lookup_eq_none.mpr h]; rfl

theorem mem_rules_iff {r : Registry} (hr : r.WF eng) {cr : CompiledRule} :
    cr ∈ r.rules ↔ r.toMap.lookup cr.rule.name = some cr := by
  rw [lookup_toMap]
  constructor
  · intro h
    exact List.mem_dlookup (nodupKeys_map_entry.mpr hr.nodup) (List.mem_map_of_mem _ h)
  · intro h
    obtain ⟨cr', hcr', he⟩ := List.mem_map.mp (List.of_mem_dlookup h)
    obtain rfl : cr' = cr := congrArg Sigma.snd he
    exact hcr'

/-- The rules of a registry whose map is `lastNamed` of accepted rules are
exactly the rules `lastNamed` picks. -/
theorem mem_getAll_rule_iff {r : Registry} (hr : r.WF eng) {L : List Rule}
    (hv : ∀ x ∈ L, Accepted eng x)
    (hm : ∀ n, r.toMap.lookup n = (lastNamed L n).bind fun x => compiledRule? eng (some x))
    {x : Rule} : x ∈ r.getAll.map (·.rule) ↔ lastNamed L x.name = some x := by
  simp only [Registry.getAll, List.mem_map]
  constructor
  · rintro ⟨cr, hcr, rfl⟩
    rw [mem_rules_iff hr, hm, Option.bind_eq_some] at hcr
    obtain ⟨y, hy, hc⟩ := hcr
    obtain rfl : y = cr.rule := Option.some.inj (compiledRule?_eq_some.mp hc).1
    exact hy
  · intro h
    obtain ⟨cr, hcr⟩ := Option.isSome_iff_exists.mp (hv x (lastNamed_eq_some h).2)
    have hx : cr.rule = x := (Option.some.inj (compiledRule?_eq_some.mp hcr).1).symm
    refine ⟨cr, (mem_rules_iff hr).mpr ?_, hx⟩
    rw [hm, hx, h]; exact hcr

theorem getAll_rule_sorted {r : Registry} (hr : r.WF eng) :
    (r.getAll.map (·.rule)).Sorted RuleLt :=
  List.pairwise_map.mpr hr.sorted

/-- A registry filled from `NewRegistry` by `AddAll` of accepted rules
holds what `lastNamed` picks. -/
theorem addAll_new (sf : SortFunc) {c : PatternCache} (hc : c.Sound eng) {rules : List Rule}
    (hv : ∀ x ∈ rules, Accepted eng x) :
    let out := (newRegistry.addAll eng sf (rules.map some)).run c
    out.1.2.WF eng ∧ out.2.Sound eng ∧
      ∀ n, out.1.2.toMap.lookup n = (lastNamed rules n).bind fun x => compiledRule? eng (some x) := by
  have hnew : newRegistry.WF eng ∧ newRegistry.toMap = ∅ := Registry.WF.new
  obtain ⟨hw, hm, hc'⟩ := hnew.1.addAll sf (rules.map some) hc
  refine ⟨hw, hc', fun n => ?_⟩
  rw [hm, hnew.2, lookup_absAddAll hv, Finmap.lookup_empty, Option.or_none]

theorem accepted_iff {rule : Rule} :
    Accepted eng rule ↔
      rule.name ≠ "" ∧ rule.action?.isSome ∧ ∃ m, compileMatcher eng rule.match? = .ok m := by
  constructor
  · intro h
    obtain ⟨cr, hcr⟩ := Option.isSome_iff_exists.mp h
    obtain ⟨he, h1, h2, m, hm, -⟩ := compiledRule?_eq_some.mp hcr
    obtain rfl : rule = cr.rule := Option.some.inj he
    exact ⟨h1, h2, m, hm⟩
  · rintro ⟨h1, h2, m, hm⟩
    exact Option.isSome_iff_exists.mpr
      ⟨⟨rule, m.getD .always⟩, compiledRule?_eq_some.mpr ⟨rfl, h1, h2, m, hm, rfl⟩⟩

theorem mergeRules_eq_registry (it : MapRange) {c : PatternCache} (hc : c.Sound eng)
    (base override : List Rule)
    (hv : ∀ rule ∈ base ++ override,
      rule.name ≠ "" ∧ rule.action?.isSome ∧ ∃ m, compileMatcher eng rule.match? = .ok m) :
    let rb := (newRegistry.addAll eng sf (base.map some)).run c
    let ro := (newRegistry.addAll eng sf (override.map some)).run rb.2
    mergeRules sf it base override = (rb.1.2.merge sf (some ro.1.2)).getAll.map (·.rule) ∧
    mergeRules sf it base override =
      ((newRegistry.addAll eng sf ((base ++ override).map some)).run c).1.2.getAll.map (·.rule) ∧
    (mergeRules sf it base override).Sorted RuleLt ∧
    (∀ x, x ∈ mergeRules sf it base override ↔
      (lastNamed override x.name).or (lastNamed base x.name) = some x) ∧
    ∀ it' : MapRange, mergeRules sf it' base override = mergeRules sf it base override := by
  intro rb ro
  have hacc : ∀ x ∈ base ++ override, Accepted eng x := fun x hx => accepted_iff.mpr (hv x hx)
  have hb : ∀ x ∈ base, Accepted eng x := fun x hx => hacc x (List.mem_append_left _ hx)
  have ho : ∀ x ∈ override, Accepted eng x := fun x hx => hacc x (List.mem_append_right _ hx)
  obtain ⟨hwb, hcb, hmb⟩ := addAll_new sf hc hb
  obtain ⟨hwo, -, hmo⟩ := addAll_new sf hcb ho
  obtain ⟨hwm, hmm⟩ := hwb.merge sf hwo
  obtain ⟨hwa, -, hma⟩ := addAll_new sf hc hacc
  have hmerge : ∀ n, (rb.1.2.merge sf (some ro.1.2)).toMap.lookup n =
      (lastNamed (base ++ override) n).bind fun x => compiledRule? eng (some x) := fun n => by
    rw [hmm, lookup_union_or, hmo, hmb, or_bind_of_accepted
      (fun x hx => ho x (lastNamed_eq_some hx).2), lastNamed_append]
  have key : ∀ it', mergeRules sf it' base override =
      (rb.1.2.merge sf (some ro.1.2)).getAll.map (·.rule) := fun it' =>
    sorted_eq_of_mem_iff id (mergeRules_sorted sf it' base override) (getAll_rule_sorted hwm)
      fun x => (mem_mergeRules sf it').trans (mem_getAll_rule_iff hwm hacc hmerge).symm
  refine ⟨key it, ?_, mergeRules_sorted sf it base override,
    fun x => (mem_mergeRules sf it).trans (by rw [lastNamed_append]),
    fun it' => (key it').trans (key it).symm⟩
  exact sorted_eq_of_mem_iff id (mergeRules_sorted sf it base override) (getAll_rule_sorted hwa)
    fun x => (mem_mergeRules sf it).trans (mem_getAll_rule_iff hwa hacc hma).symm

/-- `a` twice in the base, `b` in both lists: the base's last `a` and the
override's `b` win, whatever the map's range order. -/
theorem mergeRules_eq_registry_override :
    let rule (n : String) (p : Int) : Rule := ⟨n, "", true, p, none, some ⟨.block, n, ""⟩⟩
    let base := [rule "a" 1, rule "b" 2, rule "a" 3]
    let override := [rule "b" 0, rule "c" 5]
    newPatternCache.Sound literalEngines ∧
    (∀ x ∈ base ++ override, x.name ≠ "" ∧ x.action?.isSome ∧
      ∃ m, compileMatcher literalEngines x.match? = .ok m) ∧
    (let rb := (newRegistry.addAll literalEngines insertionSortFunc (base.map some)).run newPatternCache
    let ro := (newRegistry.addAll literalEngines insertionSortFunc (override.map some)).run rb.2
    mergeRules insertionSortFunc .inOrder base override =
      (rb.1.2.merge insertionSortFunc (some ro.1.2)).getAll.map (·.rule) ∧
    mergeRules insertionSortFunc .inOrder base override =
      ((newRegistry.addAll literalEngines insertionSortFunc ((base ++ override).map some)).run
        newPatternCache).1.2.getAll.map (·.rule) ∧
    (mergeRules insertionSortFunc .inOrder base override).Sorted RuleLt ∧
    (∀ x, x ∈ mergeRules insertionSortFunc .inOrder base override ↔
      (lastNamed override x.name).or (lastNamed base x.name) = some x) ∧
    ∀ it' : MapRange, mergeRules insertionSortFunc it' base override =
      mergeRules insertionSortFunc .inOrder base override) ∧
    (mergeRules insertionSortFunc .inOrder base override).map (fun x => (x.name, x.priority)) =
      [("c", 5), ("a", 3), ("b", 0)] := by
  intro rule base override
  have hv : ∀ x ∈ base ++ override, x.name ≠ "" ∧ x.action?.isSome ∧
      ∃ m, compileMatcher literalEngines x.match? = .ok m := by
    simp only [base, override, List.cons_append, List.nil_append, List.mem_cons, List.not_mem_nil, or_false]
    rintro x (rfl | rfl | rfl | rfl | rfl) <;> exact ⟨by decide, rfl, none, rfl⟩
  exact ⟨PatternCache.sound_new _, hv,
    mergeRules_eq_registry .inOrder (PatternCache.sound_new _) _ _ hv, by decide⟩

end ClaudeHooks.Rules
