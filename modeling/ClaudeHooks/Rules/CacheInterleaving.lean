import ClaudeHooks.Rules.PatternCache

/-!
# Rules — PatternCache under interleaving

Any number of callers share one `PatternCache`. Each critical section of
the source runs atomically (it holds the `RWMutex`), and nothing else is
atomic: a `Get` is two steps, its read-locked fast path and, after a miss,
its write-locked section, and any other caller's sections may run between
them. `CacheSys` is the shared cache with every `Get` call made so far and
where each stands; a schedule is a list of `CacheAction`s, one per
critical section, in the order they take the lock.

Two ghost fields record what the code does not keep: `epoch` counts the
`Clear`s, and `compiles` logs every run of `CompilePattern` with the epoch
it ran in and the result it stored. The invariant `CacheSys.Inv` ties the maps to
the log of the current epoch; from it, every schedule compiles each text
at most once per epoch and answers every `Get` decided in one epoch with
the one instance compiled there.
-/

namespace ClaudeHooks.Rules

/-- Where a `Get(t)` call stands. -/
inductive GetPhase where
  /-- called; its read-locked section has not run -/
  | fast
  /-- its fast path missed; it waits for the write lock -/
  | slow
  /-- it returned `r`, decided by a section that ran in epoch `epoch` -/
  | done (r : CacheResult) (epoch : Nat)

/-- One `Get` call: its pattern text and its phase. -/
structure GetCall where
  text : String
  phase : GetPhase

/-- One run of `CompilePattern` by a write-locked section. -/
structure CompileEvent where
  epoch : Nat
  text : String
  result : CacheResult

/-- The shared cache, the calls made on it, and the ghost epoch and log. -/
structure CacheSys where
  cache : PatternCache
  calls : List GetCall
  epoch : Nat
  compiles : List CompileEvent

/-- One critical section taking the lock. -/
inductive CacheAction where
  /-- a caller enters `Get(t)` -/
  | get (t : String)
  /-- call `i` runs its read-locked fast path -/
  | fast (i : Nat)
  /-- call `i` runs its write-locked section -/
  | slow (i : Nat)
  | clear
  | size

namespace CacheSys

/-- A fresh cache, no calls. -/
def init : CacheSys := ⟨newPatternCache, [], 0, []⟩

/-- Call `i` returns `r`, decided in the current epoch. -/
def answer (s : CacheSys) (i : Nat) (t : String) (r : CacheResult) : CacheSys :=
  { s with calls := s.calls.set i ⟨t, .done r s.epoch⟩ }

/-- The read-locked section of call `i` (lines 149–161). -/
def fastSection (s : CacheSys) (i : Nat) (t : String) : CacheSys :=
  match s.cache.cached t with
  | some r => s.answer i t r
  | none => { s with calls := s.calls.set i ⟨t, .slow⟩ }

/-- The write-locked section of call `i` (lines 164–184); the log records
the compile when the double check misses. -/
def slowSection (eng : Engines) (s : CacheSys) (i : Nat) (t : String) : CacheSys :=
  let out := s.cache.getLocked eng t
  let compiles :=
    if (s.cache.cached t).isNone then s.compiles ++ [⟨s.epoch, t, out.1⟩] else s.compiles
  { s with cache := out.2, compiles }.answer i t out.1

/-- One scheduled critical section. An action for a call that is not in
the matching phase is not enabled and changes nothing. -/
def step (eng : Engines) (s : CacheSys) : CacheAction → CacheSys
  | .get t => { s with calls := s.calls ++ [⟨t, .fast⟩] }
  | .fast i =>
    match s.calls[i]? with
    | some ⟨t, .fast⟩ => s.fastSection i t
    | _ => s
  | .slow i =>
    match s.calls[i]? with
    | some ⟨t, .slow⟩ => s.slowSection eng i t
    | _ => s
  | .clear => { s with cache := s.cache.clear, epoch := s.epoch + 1 }
  | .size => s

/-- A schedule, run from `s`. -/
def run (eng : Engines) (s : CacheSys) (acts : List CacheAction) : CacheSys :=
  acts.foldl (step eng) s

/-! ## The invariant -/

/-- The cache holds exactly the current epoch's compiles, each the result
of compiling its text, no text compiled twice in one epoch, and every
answered call answered with its epoch's compile. -/
structure Inv (eng : Engines) (s : CacheSys) : Prop where
  disjoint : ∀ t, t ∈ s.cache.patterns → t ∉ s.cache.errors
  stored : ∀ t r, s.cache.cached t = some r ↔ ⟨s.epoch, t, r⟩ ∈ s.compiles
  past : ∀ ev ∈ s.compiles, ev.epoch ≤ s.epoch
  correct : ∀ ev ∈ s.compiles, ev.result.erase = compilePattern eng ev.text
  once : s.compiles.Pairwise fun a b => a.epoch = b.epoch → a.text ≠ b.text
  answered : ∀ c ∈ s.calls, ∀ r k, c.phase = .done r k → ⟨k, c.text, r⟩ ∈ s.compiles

variable {eng : Engines} {s : CacheSys}

theorem inv_init : init.Inv eng where
  disjoint _ h := by simp [init, newPatternCache] at h
  stored _ _ := by simp [init]
  past _ h := by simp [init] at h
  correct _ h := by simp [init] at h
  once := List.Pairwise.nil
  answered _ h := by simp [init] at h

theorem cached_eq_none {c : PatternCache} {t : String} :
    c.cached t = none ↔ t ∉ c.patterns ∧ t ∉ c.errors := by
  unfold PatternCache.cached
  split <;> simp_all [← AList.lookup_eq_none]

/-- Answering a call with a result the log holds for the current epoch. -/
theorem Inv.answer (hs : s.Inv eng) {i : Nat} {t : String} {r : CacheResult}
    (hr : ⟨s.epoch, t, r⟩ ∈ s.compiles) : (s.answer i t r).Inv eng :=
  { hs with
    answered := fun c hc r' k hk => by
      rcases List.mem_or_eq_of_mem_set hc with hc | rfl
      · exact hs.answered c hc r' k hk
      · cases hk; exact hr }

theorem Inv.fastSection (hs : s.Inv eng) (i : Nat) (t : String) :
    (s.fastSection i t).Inv eng := by
  unfold CacheSys.fastSection
  split
  · exact hs.answer ((hs.stored _ _).mp ‹_›)
  · exact { hs with
      answered := fun c hc r k hk => by
        rcases List.mem_or_eq_of_mem_set hc with hc | rfl
        · exact hs.answered c hc r k hk
        · cases hk }

/-- The compiling branch of the write-locked section: store, log, answer. -/
theorem Inv.compile (hs : s.Inv eng) {t : String} (hmiss : s.cache.cached t = none) :
    ({ s with cache := (s.cache.store t (compilePattern eng t)).2,
               compiles := s.compiles ++ [⟨s.epoch, t, (s.cache.store t (compilePattern eng t)).1⟩] }
      : CacheSys).Inv eng := by
  obtain ⟨hp, he⟩ := cached_eq_none.mp hmiss
  have fresh : ∀ ev ∈ s.compiles, ev.epoch = s.epoch → ev.text ≠ t := by
    rintro ⟨k, t', r⟩ hev rfl rfl
    simp [(hs.stored t' r).mpr hev] at hmiss
  refine ⟨?_, ?_, ?_, ?_, ?_, ?_⟩
  · intro t' ht' he'
    cases hr : compilePattern eng t <;>
      simp only [hr, PatternCache.store, AList.mem_insert] at ht' he'
    · rcases he' with rfl | he'
      · exact hp ht'
      · exact hs.disjoint t' ht' he'
    · rcases ht' with rfl | ht'
      · exact he he'
      · exact hs.disjoint t' ht' he'
  · intro t' r
    by_cases ht : t' = t
    · subst ht
      rw [PatternCache.cached_store_self hmiss]
      simp only [Option.some.injEq, List.mem_append, List.mem_singleton, CompileEvent.mk.injEq,
        true_and]
      constructor
      · rintro rfl; exact .inr rfl
      · rintro (h | rfl)
        · exact absurd rfl (fresh _ h rfl)
        · rfl
    · rw [PatternCache.cached_store_ne _ ht, hs.stored]
      simp [ht]
  · intro ev hev
    rcases List.mem_append.mp hev with h | h
    · exact hs.past ev h
    · simp_all
  · intro ev hev
    rcases List.mem_append.mp hev with h | h
    · exact hs.correct ev h
    · simp_all
  · exact List.pairwise_append.mpr ⟨hs.once, List.pairwise_singleton _ _,
      fun a ha b hb => by simp at hb; subst hb; exact fresh a ha⟩
  · exact fun c hc r k hk => List.mem_append_left _ (hs.answered c hc r k hk)

theorem Inv.slowSection (hs : s.Inv eng) (i : Nat) (t : String) :
    (s.slowSection eng i t).Inv eng := by
  unfold CacheSys.slowSection
  cases hc : s.cache.cached t with
  | some r =>
    simp only [PatternCache.getLocked_of_cached hc, hc, Option.isNone_some]
    exact hs.answer ((hs.stored _ _).mp hc)
  | none =>
    simp only [PatternCache.getLocked, hc, Option.isNone_none, if_true]
    exact (hs.compile hc).answer (List.mem_append_right _ (List.mem_singleton_self _))

theorem Inv.clear (hs : s.Inv eng) :
    ({ s with cache := s.cache.clear, epoch := s.epoch + 1 } : CacheSys).Inv eng :=
  { hs with
    disjoint := fun _ h => by simp [PatternCache.clear] at h
    stored := fun t r => by
      simp only [PatternCache.cached_clear, reduceCtorEq, false_iff]
      exact fun h => Nat.not_succ_le_self _ (hs.past _ h)
    past := fun ev h => Nat.le_succ_of_le (hs.past ev h) }

/-- **Step lemma**: every critical section keeps the invariant. -/
theorem Inv.step (hs : s.Inv eng) : ∀ a, (step eng s a).Inv eng
  | .get t =>
    { hs with
      answered := fun c hc r k hk => by
        rcases List.mem_append.mp hc with hc | hc
        · exact hs.answered c hc r k hk
        · simp at hc; subst hc; cases hk }
  | .fast i => by
    dsimp only [CacheSys.step]; split
    · exact hs.fastSection i _
    · exact hs
  | .slow i => by
    dsimp only [CacheSys.step]; split
    · exact hs.slowSection i _
    · exact hs
  | .clear => hs.clear
  | .size => hs

/-- **Run lemma**: every schedule keeps the invariant. -/
theorem Inv.run (hs : s.Inv eng) (acts : List CacheAction) : (run eng s acts).Inv eng := by
  induction acts generalizing s with
  | nil => exact hs
  | cons a acts ih => exact ih (hs.step a)

/-! ## Consequences -/

/-- Two compiles of one epoch with the same text are the same compile. -/
theorem Inv.compile_unique (hs : s.Inv eng) {a b : CompileEvent} (ha : a ∈ s.compiles)
    (hb : b ∈ s.compiles) (he : a.epoch = b.epoch) (ht : a.text = b.text) : a = b := by
  have hsym : Symmetric fun x y : CompileEvent => x.epoch = y.epoch → x.text ≠ y.text :=
    fun _ _ h he ht => h he.symm ht.symm
  by_contra hne
  exact hs.once.forall hsym ha hb hne he ht

/-- Every cache state of every schedule is sound. -/
theorem Inv.sound (hs : s.Inv eng) : s.cache.Sound eng := fun t r h =>
  hs.correct _ ((hs.stored t r).mp h)

/-- A text has a pattern in the cache exactly when the current epoch's
log holds a compile of it that gave a pattern. -/
theorem Inv.mem_patterns (hs : s.Inv eng) (t : String) :
    t ∈ s.cache.patterns ↔
      ∃ ev ∈ s.compiles, ev.epoch = s.epoch ∧ ev.result.toBool = true ∧ ev.text = t := by
  constructor
  · intro ht
    obtain ⟨p, hp⟩ := Option.isSome_iff_exists.mp (AList.lookup_isSome.mpr ht)
    exact ⟨_, (hs.stored t (.ok p)).mp (PatternCache.cached_eq_some_ok.mpr hp), rfl, rfl, rfl⟩
  · rintro ⟨⟨k, t', _ | p⟩, hev, rfl, hok, rfl⟩
    · cases hok
    · exact AList.lookup_isSome.mp
        (by rw [PatternCache.cached_eq_some_ok.mp ((hs.stored _ _).mpr hev)]; rfl)

/-! ## Progress -/

/-- The write-locked section of a waiting call answers it, in the current
epoch, with what `getLocked` returns. -/
theorem step_slow_calls {i : Nat} {t : String} (hi : s.calls[i]? = some ⟨t, .slow⟩) :
    (step eng s (.slow i)).calls[i]? = some ⟨t, .done (s.cache.getLocked eng t).1 s.epoch⟩ := by
  simp only [step, hi, slowSection, answer]
  exact List.getElem?_set_self (List.getElem?_eq_some_iff.mp hi).1

/-- The read-locked section of a call that has not run answers it from the
cache, or leaves it waiting for the write lock. -/
theorem step_fast_calls {i : Nat} {t : String} (hi : s.calls[i]? = some ⟨t, .fast⟩) :
    (step eng s (.fast i)).calls[i]? = some ⟨t, .slow⟩ ∨
      ∃ r, (step eng s (.fast i)).calls[i]? = some ⟨t, .done r s.epoch⟩ := by
  have hlt := (List.getElem?_eq_some_iff.mp hi).1
  simp only [step, hi, fastSection]
  split
  · exact .inr ⟨_, List.getElem?_set_self hlt⟩
  · exact .inl (List.getElem?_set_self hlt)

/-- A call's entry changes only in its own two sections. -/
theorem step_calls_frame {i : Nat} {c : GetCall} (hi : s.calls[i]? = some c) (a : CacheAction)
    (hf : a ≠ .fast i) (hs : a ≠ .slow i) : (step eng s a).calls[i]? = some c := by
  have hlt := (List.getElem?_eq_some_iff.mp hi).1
  cases a with
  | get t => simp [step, List.getElem?_append_left hlt, hi]
  | fast j =>
    have hj : j ≠ i := fun h => hf (h ▸ rfl)
    simp only [step]
    split
    · simp only [fastSection]
      split <;> simp [answer, List.getElem?_set_ne hj, hi]
    · exact hi
  | slow j =>
    have hj : j ≠ i := fun h => hs (h ▸ rfl)
    simp only [step]
    split
    · simp [slowSection, answer, List.getElem?_set_ne hj, hi]
    · exact hi
  | clear | size => exact hi

/-- An answered call holds what compiling its text gives. -/
theorem Inv.done_correct (hs : s.Inv eng) {i : Nat} {t : String} {r : CacheResult} {k : Nat}
    (h : s.calls[i]? = some ⟨t, .done r k⟩) : r.erase = compilePattern eng t :=
  hs.correct _ (hs.answered _ (List.getElem?_mem h) r k rfl)

/-- **The cache under every schedule.** In every state a schedule reaches
from a fresh cache: the two maps share no key; `Size()` is the number of
keys of the pattern map; no text is compiled twice between two `Clear`s;
every `Get` returns the result its epoch's compile of its text stored,
which is `CompilePattern`'s (a pattern whose `String()` is the text, or
the error); and two `Get`s of one text decided in the same epoch return
the identical instance. And every `Get` ends: the write-locked section of
a waiting call answers it with `CompilePattern`'s result, the read-locked
section of a new call answers it or makes it wait, and no other section
touches the call. -/
theorem patternCache_interleaving_safe (eng : Engines) (acts : List CacheAction) :
    let s := run eng init acts
    (∀ t, t ∈ s.cache.patterns → t ∉ s.cache.errors) ∧
    s.cache.size = s.cache.patterns.keys.toFinset.card ∧
    s.compiles.Pairwise (fun a b => a.epoch = b.epoch → a.text ≠ b.text) ∧
    (∀ c ∈ s.calls, ∀ r k, c.phase = .done r k →
      ⟨k, c.text, r⟩ ∈ s.compiles ∧ r.erase = compilePattern eng c.text ∧
      ∀ p, r = .ok p → p.val.string = c.text) ∧
    (∀ c₁ ∈ s.calls, ∀ c₂ ∈ s.calls, ∀ r₁ r₂ k, c₁.text = c₂.text →
      c₁.phase = .done r₁ k → c₂.phase = .done r₂ k → r₁ = r₂) ∧
    (∀ i t, s.calls[i]? = some ⟨t, .slow⟩ → ∃ r,
      (step eng s (.slow i)).calls[i]? = some ⟨t, .done r s.epoch⟩ ∧ r.erase = compilePattern eng t) ∧
    (∀ i t, s.calls[i]? = some ⟨t, .fast⟩ → (step eng s (.fast i)).calls[i]? = some ⟨t, .slow⟩ ∨
      ∃ r, (step eng s (.fast i)).calls[i]? = some ⟨t, .done r s.epoch⟩ ∧ r.erase = compilePattern eng t) ∧
    (∀ i c a, s.calls[i]? = some c → a ≠ .fast i → a ≠ .slow i → (step eng s a).calls[i]? = some c) := by
  intro s
  have hs : s.Inv eng := inv_init.run acts
  refine ⟨hs.disjoint, s.cache.size_eq_card, hs.once, fun c hc r k hk => ?_,
    fun c₁ h₁ c₂ h₂ r₁ r₂ k ht hk₁ hk₂ => ?_, fun i t hi => ?_, fun i t hi => ?_,
    fun i c a hi => step_calls_frame hi a⟩
  · have hev := hs.answered c hc r k hk
    have hr := hs.correct _ hev
    exact ⟨hev, hr, fun p hp => compilePattern_string (by subst hp; exact hr.symm)⟩
  · exact (CompileEvent.mk.inj
      (hs.compile_unique (hs.answered c₁ h₁ r₁ k hk₁) (hs.answered c₂ h₂ r₂ k hk₂) rfl ht)).2.2
  · have h := @step_slow_calls eng _ _ _ hi
    exact ⟨_, h, (hs.step _).done_correct h⟩
  · rcases @step_fast_calls eng _ _ _ hi with h | ⟨r, h⟩
    · exact .inl h
    · exact .inr ⟨r, h, (hs.step _).done_correct h⟩

/-- **`Size()` counts compiles.** In every state a schedule reaches from a
fresh cache, `Size()` is the number of runs of `CompilePattern` since the
last `Clear` that gave a pattern; those runs are of distinct texts, the
texts the pattern map holds. A `Get` that compiles nothing, or whose
compile fails, leaves `Size()` as it was. -/
theorem size_counts_compiles (eng : Engines) (acts : List CacheAction) :
    let s := run eng init acts
    let compiled := (s.compiles.filter fun ev => decide (ev.epoch = s.epoch) && ev.result.toBool).map
      (·.text)
    s.cache.size = compiled.length ∧ compiled.Nodup ∧ ∀ t, t ∈ compiled ↔ t ∈ s.cache.patterns := by
  intro s compiled
  have hs : s.Inv eng := inv_init.run acts
  have hmem : ∀ t, t ∈ compiled ↔ t ∈ s.cache.patterns := fun t => by
    simp only [compiled, hs.mem_patterns, List.mem_map, List.mem_filter, Bool.and_eq_true,
      decide_eq_true_eq, and_assoc]
  have hnodup : compiled.Nodup := by
    refine List.pairwise_map.mpr ((hs.once.filter _).imp_of_mem fun ha hb h => h ?_)
    simp only [List.mem_filter, Bool.and_eq_true, decide_eq_true_eq] at ha hb
    rw [ha.2.1, hb.2.1]
  refine ⟨?_, hnodup, hmem⟩
  rw [s.cache.size_eq_card, ← List.toFinset_card_of_nodup hnodup]
  congr 1
  ext t
  simp [hmem, AList.mem_keys]

end CacheSys

end ClaudeHooks.Rules
