import ClaudeHooks.Rules.Pattern
import Mathlib.Data.List.AList
import Mathlib.Data.Finset.Card

/-!
# Rules — PatternCache

`internal/rules/pattern.go`, second half: the memo table of compiled
patterns and of compile errors, keyed by pattern text.

`Get` is two critical sections: the read-locked fast path (a lookup in
both maps) and, on a miss, the write-locked section that looks again,
and only then compiles and stores. They are `PatternCache.cached` and
`PatternCache.getLocked`; the sequential `get` runs one after the other,
and the interleaving model (`CacheInterleaving`) schedules them separately.

Go returns the cached `Pattern` and `error` by reference. The model gives
every value the slow path stores an allocation address (`Ref`), handed
out by the ghost counter `nextAddr`: two results are the same instance
iff their addresses agree.
-/

namespace ClaudeHooks.Rules

/-- A value shared by reference: the allocation that made it and its
contents. -/
structure Ref (α : Type) where
  addr : Nat
  val : α

/-- What `Get` returns: `(p, nil)` or `(nil, err)`. -/
abbrev CacheResult := Except (Ref GoError) (Ref Pattern)

/-- A result without its address: what `CompilePattern` would give. -/
def CacheResult.erase : CacheResult → Except GoError Pattern
  | .ok p => .ok p.val
  | .error e => .error e.val

/-- `PatternCache`: the two Go maps, and the ghost allocation counter. -/
structure PatternCache where
  patterns : AList (fun _ : String => Ref Pattern)
  errors : AList (fun _ : String => Ref GoError)
  nextAddr : Nat

/-- `NewPatternCache`. -/
def newPatternCache : PatternCache := ⟨∅, ∅, 0⟩

namespace PatternCache

/-- The lookup both critical sections make: `c.patterns[t]`, then
`c.errors[t]`. -/
def cached (c : PatternCache) (t : String) : Option CacheResult :=
  match c.patterns.lookup t with
  | some p => some (.ok p)
  | none => (c.errors.lookup t).map .error

/-- Store a fresh compile result at a fresh address (lines 176–184). -/
def store (c : PatternCache) (t : String) : Except GoError Pattern → CacheResult × PatternCache
  | .error e =>
    (.error ⟨c.nextAddr, e⟩,
      { c with errors := c.errors.insert t ⟨c.nextAddr, e⟩, nextAddr := c.nextAddr + 1 })
  | .ok p =>
    (.ok ⟨c.nextAddr, p⟩,
      { c with patterns := c.patterns.insert t ⟨c.nextAddr, p⟩, nextAddr := c.nextAddr + 1 })

/-- The write-locked section of `Get`: the double check, then compile and
store. -/
def getLocked (eng : Engines) (c : PatternCache) (t : String) : CacheResult × PatternCache :=
  match c.cached t with
  | some r => (r, c)
  | none => c.store t (compilePattern eng t)

/-- `Get`, run without interference: the fast path, then on a miss the
write-locked section. -/
def get (eng : Engines) (c : PatternCache) (t : String) : CacheResult × PatternCache :=
  match c.cached t with
  | some r => (r, c)
  | none => c.getLocked eng t

/-- `Clear`: both maps emptied. -/
def clear (c : PatternCache) : PatternCache :=
  { c with patterns := ∅, errors := ∅ }

/-- `Size`: `len(c.patterns)`. -/
def size (c : PatternCache) : Nat :=
  c.patterns.entries.length

/-- `len` of a Go map is its number of keys. -/
theorem size_eq_card (c : PatternCache) : c.size = c.patterns.keys.toFinset.card := by
  rw [List.toFinset_card_of_nodup c.patterns.keys_nodup]
  simp [size, AList.keys, List.keys]

/-! ## Lookups after each update -/

@[simp] theorem cached_clear (c : PatternCache) (t : String) : c.clear.cached t = none := rfl

@[simp] theorem cached_new (t : String) : newPatternCache.cached t = none := rfl

/-- A cached pattern is an entry of the pattern map. -/
theorem cached_eq_some_ok {c : PatternCache} {t : String} {p : Ref Pattern} :
    c.cached t = some (.ok p) ↔ c.patterns.lookup t = some p := by
  unfold cached
  split <;> simp_all

theorem cached_store_self {c : PatternCache} {t : String} (h : c.cached t = none)
    (r : Except GoError Pattern) : (c.store t r).2.cached t = some (c.store t r).1 := by
  have hp : c.patterns.lookup t = none := by
    unfold cached at h; split at h <;> simp_all
  cases r <;> simp [store, cached, hp]

theorem cached_store_ne (c : PatternCache) {t t' : String} (h : t' ≠ t)
    (r : Except GoError Pattern) : (c.store t r).2.cached t' = c.cached t' := by
  cases r <;> simp [store, cached, AList.lookup_insert_ne h]

theorem getLocked_of_cached {eng : Engines} {c : PatternCache} {t : String} {r : CacheResult}
    (h : c.cached t = some r) : c.getLocked eng t = (r, c) := by
  simp [getLocked, h]

/-- Without interference the fast path adds nothing: `Get` is its
write-locked section. -/
theorem get_eq_getLocked (eng : Engines) (c : PatternCache) (t : String) :
    c.get eng t = c.getLocked eng t := by
  unfold get
  split <;> simp_all [getLocked_of_cached]

/-! ## Soundness: every entry is what compiling its key gives -/

/-- Every cached result, addresses aside, is `CompilePattern` of its key. -/
def Sound (eng : Engines) (c : PatternCache) : Prop :=
  ∀ t r, c.cached t = some r → r.erase = compilePattern eng t

theorem sound_new (eng : Engines) : newPatternCache.Sound eng := by
  intro t r h; simp at h

theorem Sound.clear {eng : Engines} {c : PatternCache} (_ : c.Sound eng) :
    c.clear.Sound eng := by
  intro t r h; simp at h

@[simp] theorem erase_store_fst (c : PatternCache) (t : String) (r : Except GoError Pattern) :
    (c.store t r).1.erase = r := by
  cases r <;> rfl

theorem Sound.store {eng : Engines} {c : PatternCache} {t : String} (hc : c.Sound eng)
    (h : c.cached t = none) : (c.store t (compilePattern eng t)).2.Sound eng := by
  intro t' r hr
  by_cases ht : t' = t
  · subst ht
    rw [cached_store_self h] at hr
    cases hr
    exact erase_store_fst _ _ _
  · rw [cached_store_ne _ ht] at hr
    exact hc t' r hr

/-- The write-locked section answers what `CompilePattern` gives and keeps
the cache sound. -/
theorem Sound.getLocked {eng : Engines} {c : PatternCache} (hc : c.Sound eng) (t : String) :
    (c.getLocked eng t).1.erase = compilePattern eng t ∧ (c.getLocked eng t).2.Sound eng := by
  cases h : c.cached t with
  | some r => rw [getLocked_of_cached h]; exact ⟨hc t r h, hc⟩
  | none => simp only [PatternCache.getLocked, h]; exact ⟨erase_store_fst _ _ _, hc.store h⟩

theorem Sound.get {eng : Engines} {c : PatternCache} (hc : c.Sound eng) (t : String) :
    (c.get eng t).1.erase = compilePattern eng t ∧ (c.get eng t).2.Sound eng := by
  rw [get_eq_getLocked]; exact hc.getLocked t

end PatternCache

/-- `GetCachedPattern` over the process-wide cache, threaded as state. -/
def getCachedPattern (eng : Engines) (t : String) : StateM PatternCache CacheResult :=
  fun c => c.get eng t

end ClaudeHooks.Rules
