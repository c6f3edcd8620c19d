import ClaudeHooks.Rules.Types
import Mathlib.Data.String.Basic
import Mathlib.Data.List.Sort

/-!
# Rules — the rule order and `slices.SortFunc`

`sortRulesLocked` and `MergeRules` sort with the same comparator:
`cmp.Compare(b.Priority, a.Priority)`, then `cmp.Compare(a.Name, b.Name)`
(`compareRules`). It orders rules by priority, highest first, then by
name; `RuleLt` is that strict order.

`slices.SortFunc` is pdqsort: not stable, and its output is specified
only by Go's contract — for a comparator that is a strict weak ordering
the result is a sorted permutation. `SortFunc` is that contract as a
structure, so every result below holds for every sort that meets it;
`mergeSortFunc` shows the contract can be met. On lists whose names are
distinct the order is total, so all such sorts agree (`sorted_unique`).
-/

namespace ClaudeHooks.Rules

/-- The comparator of `sortRulesLocked` and `MergeRules`. -/
def compareRules (a b : Rule) : Ordering :=
  (compare b.priority a.priority).then (compare a.name b.name)

/-- `a` sorts strictly before `b`: higher priority, or equal priority and
smaller name. -/
def RuleLt (a b : Rule) : Prop :=
  b.priority < a.priority ∨ (a.priority = b.priority ∧ a.name < b.name)

theorem compareRules_eq_lt {a b : Rule} : compareRules a b = .lt ↔ RuleLt a b := by
  rw [compareRules, Ordering.then_eq_lt, compare_lt_iff_lt, compare_eq_iff_eq, compare_lt_iff_lt,
    @eq_comm _ b.priority]
  rfl

theorem compareRules_eq_gt {a b : Rule} : compareRules a b = .gt ↔ RuleLt b a := by
  rw [compareRules, Ordering.then_eq_gt, compare_gt_iff_gt, compare_eq_iff_eq, compare_gt_iff_gt]
  rfl

theorem RuleLt.irrefl (a : Rule) : ¬RuleLt a a := by
  simp [RuleLt]

theorem RuleLt.trans {a b c : Rule} (h₁ : RuleLt a b) (h₂ : RuleLt b c) : RuleLt a c := by
  unfold RuleLt at *
  rcases h₁ with h₁ | ⟨h₁, h₁'⟩ <;> rcases h₂ with h₂ | ⟨h₂, h₂'⟩
  · exact .inl (lt_trans h₂ h₁)
  · exact .inl (h₂ ▸ h₁)
  · exact .inl (h₁ ▸ h₂)
  · exact .inr ⟨h₁.trans h₂, h₁'.trans h₂'⟩

/-- Neither before the other: the same priority and the same name. -/
theorem RuleLt.eq_of_not {a b : Rule} (h₁ : ¬RuleLt a b) (h₂ : ¬RuleLt b a) :
    a.priority = b.priority ∧ a.name = b.name := by
  unfold RuleLt at h₁ h₂
  push_neg at h₁ h₂
  have hp : a.priority = b.priority := le_antisymm h₁.1 h₂.1
  exact ⟨hp, le_antisymm (h₂.2 hp.symm) (h₁.2 hp)⟩

/-- Go's requirement on a `SortFunc` comparator (a strict weak ordering):
`a < b` exactly when `b > a`, and "not after" is transitive. -/
structure CmpLawful {α : Type} (cmp : α → α → Ordering) : Prop where
  lt_iff_gt : ∀ a b, cmp a b = .lt ↔ cmp b a = .gt
  trans : ∀ a b c, cmp a b ≠ .gt → cmp b c ≠ .gt → cmp a c ≠ .gt

/-- `slices.SortFunc`, by its contract: a permutation of its input, sorted
whenever the comparator is lawful. -/
structure SortFunc where
  sort : {α : Type} → (α → α → Ordering) → List α → List α
  perm : ∀ {α : Type} (cmp : α → α → Ordering) (l : List α), (sort cmp l).Perm l
  sorted : ∀ {α : Type} (cmp : α → α → Ordering) (l : List α), CmpLawful cmp →
    (sort cmp l).Pairwise fun a b => cmp a b ≠ .gt

/-- Under a lawful comparator any two elements are ordered one way or the
other: `cmp a b = .gt` makes `cmp b a = .lt`. -/
theorem CmpLawful.total {α : Type} {cmp : α → α → Ordering} (h : CmpLawful cmp) (a b : α) :
    cmp a b ≠ .gt ∨ cmp b a ≠ .gt := by
  by_cases hab : cmp a b = .gt
  · exact .inr (by rw [(h.lt_iff_gt b a).mpr hab]; decide)
  · exact .inl hab

/-- A sort meeting the contract: the library's merge sort. -/
def mergeSortFunc : SortFunc where
  sort cmp l := l.mergeSort fun a b => cmp a b != .gt
  perm cmp l := List.mergeSort_perm l _
  sorted cmp l h := by
    have hle : ∀ a b, (cmp a b != .gt) = true ↔ cmp a b ≠ .gt := fun a b => by
      cases cmp a b <;> decide
    refine (List.sorted_mergeSort (fun a b c hab hbc => (hle a c).mpr
      (h.trans a b c ((hle a b).mp hab) ((hle b c).mp hbc))) (fun a b => ?_) l).imp
      fun hab => (hle _ _).mp hab
    rw [Bool.or_eq_true, hle, hle]
    exact h.total a b

/-- Another sort meeting the contract: insertion sort. It recurses on the
list, so a registry it sorts evaluates by `decide` on concrete rules. -/
def insertionSortFunc : SortFunc where
  sort cmp l := l.insertionSort fun a b => cmp a b ≠ .gt
  perm _ l := List.perm_insertionSort _ l
  sorted {α} cmp l h :=
    have : IsTotal α fun a b => cmp a b ≠ .gt := ⟨h.total⟩
    have : IsTrans α fun a b => cmp a b ≠ .gt := ⟨h.trans⟩
    List.sorted_insertionSort _ l

theorem compareRules_lawful {α : Type} (f : α → Rule) :
    CmpLawful fun a b => compareRules (f a) (f b) where
  lt_iff_gt a b := by rw [compareRules_eq_lt, compareRules_eq_gt]
  trans a b c hab hbc := by
    rw [Ne, compareRules_eq_gt] at *
    intro hca
    by_cases hab' : RuleLt (f a) (f b)
    · exact hbc (hca.trans hab')
    · obtain ⟨hp, hn⟩ := RuleLt.eq_of_not hab' hab
      unfold RuleLt at hca hbc
      rw [← hp, ← hn] at hbc
      exact hbc hca

section Sorted

variable {α : Type} (f : α → Rule)

/-- On a list with distinct names, a sort by the rule order is strictly
sorted. -/
theorem sort_sorted (sf : SortFunc) {l : List α} (hl : (l.map fun a => (f a).name).Nodup) :
    (sf.sort (fun a b => compareRules (f a) (f b)) l).Sorted fun a b => RuleLt (f a) (f b) := by
  have hd : (sf.sort (fun a b => compareRules (f a) (f b)) l).Pairwise
      fun a b => (f a).name ≠ (f b).name :=
    List.pairwise_map.mp (((sf.perm _ l).map _).nodup_iff.mpr hl)
  refine ((sf.sorted _ l (compareRules_lawful f)).and hd).imp fun ⟨hab, hn⟩ => ?_
  rw [Ne, compareRules_eq_gt] at hab
  by_contra hba
  exact hn (RuleLt.eq_of_not hba hab).2

/-- Two strictly sorted arrangements of the same elements are equal. -/
theorem sorted_unique {l₁ l₂ : List α} (hp : l₁.Perm l₂)
    (h₁ : l₁.Sorted fun a b => RuleLt (f a) (f b)) (h₂ : l₂.Sorted fun a b => RuleLt (f a) (f b)) :
    l₁ = l₂ :=
  haveI : IsAntisymm α fun a b => RuleLt (f a) (f b) :=
    ⟨fun _ _ hab hba => absurd (hab.trans hba) (RuleLt.irrefl _)⟩
  List.eq_of_perm_of_sorted hp h₁ h₂

/-- A strictly sorted list is determined by its elements. -/
theorem sorted_eq_of_mem_iff {l₁ l₂ : List α} (h₁ : l₁.Sorted fun a b => RuleLt (f a) (f b))
    (h₂ : l₂.Sorted fun a b => RuleLt (f a) (f b)) (h : ∀ x, x ∈ l₁ ↔ x ∈ l₂) : l₁ = l₂ :=
  have nodup : ∀ {l : List α}, (l.Sorted fun a b => RuleLt (f a) (f b)) → l.Nodup :=
    fun hl => hl.imp fun {a b} (hab : RuleLt (f a) (f b)) (heq : a = b) =>
      RuleLt.irrefl (f b) (heq ▸ hab)
  sorted_unique f ((List.perm_ext_iff_of_nodup (nodup h₁) (nodup h₂)).mpr h) h₁ h₂

end Sorted

end ClaudeHooks.Rules
