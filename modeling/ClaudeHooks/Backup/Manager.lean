import Mathlib.Data.List.Basic

/-!
# Backup — the manager's helpers

`internal/backup/manager.go`: the pure helpers `CreateBackup` uses to
classify a config path and to number a new snapshot. The snapshot index and
its chains are declared outside `src`; a chain is given by the sequence
numbers of its snapshots, and a Go string by its bytes.

`contains` is a hand-written substring search: `contains_iff` says it finds
exactly the infixes, so `determineConfigType` calls a path a project
config exactly when it passes through a `.klaudiush` directory.
`getNextSequenceNumber` computes in Go's 64-bit `int`: it gives the least
positive number above every snapshot of the chain, unless a snapshot
already holds `MaxInt64`, where `maxSeq + 1` wraps to `MinInt64`
(`getNextSequenceNumber_spec`).
-/

namespace ClaudeHooks.Backup

/-- The bytes of a Go string. -/
def bytes (s : String) : List UInt8 := s.toUTF8.data.toList

/-- `contains`: the loop `for i := 0; i <= len(s)-len(substr); i++`,
returning at the first `i` with `s[i:i+len(substr)] == substr`. -/
def contains (s substr : List UInt8) : Bool :=
  (List.range (s.length + 1 - substr.length)).any fun i => (s.drop i).take substr.length == substr

/-- The search finds a window exactly when `substr` occurs in `s`. -/
theorem contains_iff (s substr : List UInt8) : contains s substr = true ↔ substr <:+: s := by
  simp only [contains, List.any_eq_true, List.mem_range, beq_iff_eq]
  constructor
  · rintro ⟨i, -, h⟩
    rw [← h]
    exact (List.take_prefix _ _).isInfix.trans (List.drop_suffix _ _).isInfix
  · rintro ⟨a, b, rfl⟩
    refine ⟨a.length, ?_, ?_⟩
    · simp only [List.length_append]
      omega
    · simp

/-- `ConfigType`. -/
inductive ConfigType where
  | global
  | project
  deriving DecidableEq, Repr

/-- `determineConfigType`: a path through a `.klaudiush` directory is a
project config. -/
def determineConfigType (configPath : String) : ConfigType :=
  if contains (bytes configPath) (bytes "/.klaudiush/") then .project else .global

theorem determineConfigType_eq_project (configPath : String) :
    determineConfigType configPath = .project ↔ bytes "/.klaudiush/" <:+: bytes configPath := by
  rw [← contains_iff]
  unfold determineConfigType
  split <;> simp_all

example : determineConfigType "/home/u/repo/.klaudiush/config.toml" = .project := by decide
example : determineConfigType "/home/u/.klaudiush.toml" = .global := by decide

/-- `math.MaxInt64` (`2^63 - 1`), the largest `int` on a 64-bit platform. -/
def maxInt : Int := 9223372036854775807

/-- `math.MinInt64` (`-2^63`). -/
def minInt : Int := -9223372036854775808

/-- Go's `int` arithmetic: the result reduced modulo `2^64` into
`[MinInt64, MaxInt64]`, so `MaxInt64 + 1` is `MinInt64`. -/
def wrapInt (x : Int) : Int := x.bmod 18446744073709551616

theorem wrapInt_of_le {x : Int} (h0 : 0 ≤ x) (h : x ≤ maxInt) : wrapInt x = x := by
  unfold maxInt at h
  have hmod : x % (18446744073709551616 : Nat) = x := Int.emod_eq_of_lt h0 (by omega)
  unfold wrapInt
  rw [Int.bmod_pos x _ (by omega), hmod]

/-- The loop of `getNextSequenceNumber`: the largest sequence number, from
`maxSeq`. -/
def maxSequence (maxSeq : Int) (chain : List Int) : Int :=
  chain.foldl (fun maxSeq seq => if seq > maxSeq then seq else maxSeq) maxSeq

/-- `getNextSequenceNumber`, on the sequence numbers of the chain's
snapshots. -/
def getNextSequenceNumber (chain : List Int) : Int :=
  if chain.isEmpty then 1 else wrapInt (maxSequence 0 chain + 1)

theorem le_maxSequence (maxSeq : Int) (chain : List Int) :
    maxSeq ≤ maxSequence maxSeq chain ∧ ∀ x ∈ chain, x ≤ maxSequence maxSeq chain := by
  induction chain generalizing maxSeq with
  | nil => simp [maxSequence]
  | cons seq chain ih =>
    simp only [maxSequence, List.foldl_cons, List.mem_cons, forall_eq_or_imp] at ih ⊢
    by_cases hgt : seq > maxSeq
    · obtain ⟨h₁, h₂⟩ := ih seq
      rw [if_pos hgt]
      exact ⟨by omega, h₁, h₂⟩
    · obtain ⟨h₁, h₂⟩ := ih maxSeq
      rw [if_neg hgt]
      exact ⟨h₁, by omega, h₂⟩

/-- The loop ends on its start or on a member of the chain. -/
theorem maxSequence_mem (maxSeq : Int) (chain : List Int) :
    maxSequence maxSeq chain = maxSeq ∨ maxSequence maxSeq chain ∈ chain := by
  induction chain generalizing maxSeq with
  | nil => exact .inl rfl
  | cons seq chain ih =>
    simp only [maxSequence, List.foldl_cons, List.mem_cons] at ih ⊢
    by_cases hgt : seq > maxSeq
    · rw [if_pos hgt]
      exact (ih seq).elim (fun h => .inr (.inl h)) (fun h => .inr (.inr h))
    · rw [if_neg hgt]
      exact (ih maxSeq).imp_right .inr

theorem getNextSequenceNumber_eq (chain : List Int) :
    getNextSequenceNumber chain = wrapInt (maxSequence 0 chain + 1) := by
  cases chain
  · rfl
  · rfl

/-- Over a chain of Go `int`s: when no snapshot holds `MaxInt64`, the next
sequence number is the least positive number above every sequence number
of the chain; when one does, it wraps to `MinInt64`, below them all. -/
theorem getNextSequenceNumber_spec (chain : List Int) (hgo : ∀ x ∈ chain, x ≤ maxInt) :
    ((∀ x ∈ chain, x < maxInt) → ∀ n, getNextSequenceNumber chain ≤ n ↔ 1 ≤ n ∧ ∀ x ∈ chain, x < n) ∧
    (maxInt ∈ chain → getNextSequenceNumber chain = minInt) := by
  obtain ⟨h₀, hle⟩ := le_maxSequence 0 chain
  have hmem := maxSequence_mem 0 chain
  rw [getNextSequenceNumber_eq]
  constructor
  · intro hlt n
    have hmax : maxSequence 0 chain < maxInt := hmem.elim (fun h => by rw [h]; decide) (hlt _)
    rw [wrapInt_of_le (by omega) (by omega)]
    constructor
    · exact fun h => ⟨by omega, fun x hx => by have := hle x hx; omega⟩
    · rintro ⟨hn, hlt'⟩
      rcases hmem with h | h
      · omega
      · have := hlt' _ h
        omega
  · intro h
    have hbound : maxSequence 0 chain ≤ maxInt := hmem.elim (fun h => by rw [h]; decide) (hgo _)
    rw [Int.le_antisymm hbound (hle _ h)]
    decide

example : getNextSequenceNumber [3, 1, 2] = 4 := by decide

theorem getNextSequenceNumber_spec_wraps :
    (∀ x ∈ [3, maxInt, 1], x ≤ maxInt) ∧
    (((∀ x ∈ [3, maxInt, 1], x < maxInt) → ∀ n, getNextSequenceNumber [3, maxInt, 1] ≤ n ↔
        1 ≤ n ∧ ∀ x ∈ [3, maxInt, 1], x < n) ∧
      (maxInt ∈ [3, maxInt, 1] → getNextSequenceNumber [3, maxInt, 1] = minInt)) :=
  have hgo : ∀ x ∈ [3, maxInt, 1], x ≤ maxInt := by decide
  ⟨hgo, getNextSequenceNumber_spec _ hgo⟩

end ClaudeHooks.Backup
