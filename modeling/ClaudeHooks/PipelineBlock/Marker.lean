import ClaudeHooks.Rules.Pattern
import Mathlib.Logic.Function.Basic

/-!
# Pipeline block — the marker file

`pkg/pipelineblock/marker.go`: when a validator blocks the pipeline, a
`Manager` writes a JSON marker file (`SetBlockMarker`); later hooks read it
back (`CheckBlockMarker`) and keep blocking until the marker expires, is
removed (`ClearBlockMarker`), or `KLAUDIUSH_CLEAR_PIPELINE_BLOCK` is set.

The file system maps each path to its contents, `none` where `os.ReadFile`
fails; a file the process cannot read counts as absent, as
`CheckBlockMarker` treats it. A path stands for the file it resolves to:
the model takes the paths the managers are given as resolved, so two
spellings of one file (the relative default path and its absolute form in
the working directory, `m` and `./m`, a link and its target) are one path
here. A call takes what it meets from outside as
inputs: its `time.Now()`, the environment variable, and the answers of
`os.WriteFile` and `os.Remove`, failures included. `encoding/json` is a
`Codec` carrying the two facts of it the code relies on.

Over every sequence of calls from no marker, by any managers and whatever
the operating system answers, a `CheckBlockMarker` that blocks returns the
marker of the last `SetBlockMarker` that wrote to its path, unexpired
(`checkBlockMarker_last_written`).
-/

namespace ClaudeHooks.PipelineBlock

open ClaudeHooks.Rules (GoError)

/-- `time.Time`, as wall-clock nanoseconds. -/
abbrev Time := Int

/-- `time.Duration`, in nanoseconds. -/
abbrev Duration := Int

/-- `int(d.Seconds())`: whole seconds, truncated towards zero. -/
def Duration.seconds (d : Duration) : Int := d.tdiv 1000000000

/-- `Marker`. -/
structure Marker where
  createdAt : Time
  expiresAt : Time
  errorCode : String
  validator : String
  message : String
  ttlSeconds : Int
  deriving DecidableEq, Repr

/-- `json.MarshalIndent(marker, "", "  ")` and `json.Unmarshal` on a `Marker`.
The code relies on two facts of them: unmarshalling what was marshalled
gives the marker back, and no strict prefix of a marshalled marker
unmarshals, since a JSON object is unfinished before its closing brace. A
prefix is all that a failed `os.WriteFile` can leave behind. -/
structure Codec where
  marshal : Marker → Except GoError (List UInt8)
  unmarshal : List UInt8 → Except GoError Marker
  unmarshal_marshal : ∀ {mk data}, marshal mk = .ok data → unmarshal data = .ok mk
  unmarshal_take : ∀ {mk data k}, marshal mk = .ok data → k < data.length →
    ∀ mk', unmarshal (data.take k) ≠ .ok mk'

/-- A marker that unmarshals from a prefix of a marshalled one is that one. -/
theorem Codec.eq_of_unmarshal_written (codec : Codec) {mk mk' : Marker} {full data : List UInt8}
    (hm : codec.marshal mk = .ok full) (hp : data <+: full) (hu : codec.unmarshal data = .ok mk') :
    mk' = mk := by
  by_cases hlt : data.length < full.length
  · rw [List.prefix_iff_eq_take.mp hp] at hu
    exact absurd hu (codec.unmarshal_take hm hlt mk')
  · rw [hp.eq_of_length_le (Nat.le_of_not_lt hlt), codec.unmarshal_marshal hm] at hu
    exact (Except.ok.inj hu).symm

/-- The files: each path's contents, `none` where `os.ReadFile` fails. -/
abbrev FileSystem := String → Option (List UInt8)

/-- No file anywhere. -/
def FileSystem.empty : FileSystem := fun _ => none

/-- What `os.WriteFile` answers. -/
inductive WriteResult where
  | ok
  /-- It returned `err`. `written` is `none` when it could not open the
  file, which it leaves as it was, and `some k` when it truncated the file
  and then wrote `k` bytes. -/
  | error (err : GoError) (written : Option Nat)
  deriving DecidableEq, Repr

/-- Whether `os.WriteFile` opened, and so truncated, the file. -/
def WriteResult.opened : WriteResult → Bool
  | .error _ none => false
  | _ => true

/-- What the file holds after `os.WriteFile(path, data, 0600)`, given what it held. -/
def WriteResult.contents : WriteResult → List UInt8 → Option (List UInt8) → Option (List UInt8)
  | .ok, data, _ => some data
  | .error _ none, _, old => old
  | .error _ (some k), data, _ => some (data.take k)

/-- An opened file holds a prefix of what was written; an unopened one is unchanged. -/
theorem WriteResult.contents_cases (w : WriteResult) (data : List UInt8) (old : Option (List UInt8)) :
    (w.opened = false ∧ w.contents data old = old) ∨
    (w.opened = true ∧ ∃ d, w.contents data old = some d ∧ d <+: data) := by
  rcases w with _ | ⟨_, _ | k⟩
  · exact .inr ⟨rfl, data, rfl, List.prefix_refl data⟩
  · exact .inl ⟨rfl, rfl⟩
  · exact .inr ⟨rfl, data.take k, rfl, List.take_prefix k data⟩

/-- `Manager`. -/
structure Manager where
  markerPath : String
  ttl : Duration
  enabled : Bool
  deriving DecidableEq, Repr

/-- `NewManager`. -/
def newManager (markerPath : String) (ttl : Duration) (enabled : Bool) : Manager :=
  ⟨markerPath, ttl, enabled⟩

namespace Manager

/-- `IsEnabled`. -/
def isEnabled (m : Manager) : Bool := m.enabled

/-- The marker `SetBlockMarker` builds at `now` (lines 44–52). -/
def newMarker (m : Manager) (now : Time) (errorCode validator message : String) : Marker :=
  ⟨now, now + m.ttl, errorCode, validator, message, Duration.seconds m.ttl⟩

/-- `SetBlockMarker`: its error, and the files after it. -/
def setBlockMarker (codec : Codec) (m : Manager) (now : Time) (errorCode validator message : String)
    (write : WriteResult) (fs : FileSystem) : Option GoError × FileSystem :=
  if !m.enabled then (none, fs) else
  match codec.marshal (m.newMarker now errorCode validator message) with
  | .error err => (some (err.wrap "failed to marshal marker"), fs)
  | .ok data =>
    (match write with
      | .ok => none
      | .error err _ => some (err.wrap "failed to write marker file"),
      Function.update fs m.markerPath (write.contents data (fs m.markerPath)))

/-- `ClearBlockMarker`. `removeErr` is what `os.Remove` returns on an
existing file; on a missing one it returns a not-exist error, which is
ignored. -/
def clearBlockMarker (m : Manager) (removeErr : Option GoError) (fs : FileSystem) :
    Option GoError × FileSystem :=
  if !m.enabled then (none, fs) else
  match fs m.markerPath, removeErr with
  | none, _ => (none, fs)
  | some _, none => (none, Function.update fs m.markerPath none)
  | some _, some err => (some (err.wrap "failed to remove marker file"), fs)

/-- `CheckBlockMarker`: the marker and whether it blocks, and the files
after it. `clearVar` is `os.Getenv("KLAUDIUSH_CLEAR_PIPELINE_BLOCK")`;
`removeErr` is the answer of `os.Remove` to the best-effort clears, whose
error is dropped. -/
def checkBlockMarker (codec : Codec) (m : Manager) (now : Time) (clearVar : String)
    (removeErr : Option GoError) (fs : FileSystem) : (Option Marker × Bool) × FileSystem :=
  if !m.enabled then ((none, false), fs)
  else if clearVar ≠ "" then ((none, false), (m.clearBlockMarker removeErr fs).2)
  else match fs m.markerPath with
  | none => ((none, false), fs)
  | some data =>
    match codec.unmarshal data with
    | .error _ => ((none, false), (m.clearBlockMarker removeErr fs).2)
    | .ok marker =>
      if marker.expiresAt < now then ((none, false), (m.clearBlockMarker removeErr fs).2)
      else ((some marker, true), fs)

variable {codec : Codec} {m : Manager} {fs : FileSystem}

/-- A clear removes the manager's file or changes nothing. -/
theorem clearBlockMarker_snd (removeErr : Option GoError) :
    (m.clearBlockMarker removeErr fs).2 = fs ∨
      (m.clearBlockMarker removeErr fs).2 = Function.update fs m.markerPath none := by
  unfold clearBlockMarker
  split
  · exact .inl rfl
  · split <;> simp

/-- An enabled manager's clear, when removing succeeds, leaves no file. -/
theorem clearBlockMarker_removes (hm : m.enabled) :
    (m.clearBlockMarker none fs).2 m.markerPath = none := by
  unfold clearBlockMarker
  rcases hf : fs m.markerPath <;> simp [hm, hf]

/-- What a check can do: block on an unexpired marker that unmarshals from
an enabled manager's file, leaving the files as they were; or not block,
leaving the files (a disabled manager, or no file to read) or clearing them. -/
theorem checkBlockMarker_cases (now : Time) (clearVar : String) (removeErr : Option GoError) :
    (∃ mk, m.checkBlockMarker codec now clearVar removeErr fs = ((some mk, true), fs) ∧
      m.enabled ∧ clearVar = "" ∧ ∃ data, fs m.markerPath = some data ∧
        codec.unmarshal data = .ok mk ∧ ¬ mk.expiresAt < now) ∨
    (m.checkBlockMarker codec now clearVar removeErr fs = ((none, false), fs) ∧
      (m.enabled = false ∨ clearVar = "" ∧ fs m.markerPath = none)) ∨
    (m.checkBlockMarker codec now clearVar removeErr fs =
      ((none, false), (m.clearBlockMarker removeErr fs).2) ∧ m.enabled) := by
  unfold checkBlockMarker
  cases he : m.enabled
  · exact .inr (.inl ⟨rfl, .inl rfl⟩)
  by_cases hv : clearVar = ""
  · rcases hf : fs m.markerPath with _ | data
    · exact .inr (.inl ⟨by simp [hv, hf], .inr ⟨hv, rfl⟩⟩)
    rcases hu : codec.unmarshal data with _ | mk
    · exact .inr (.inr ⟨by simp [hv, hf, hu], rfl⟩)
    by_cases hx : mk.expiresAt < now
    · exact .inr (.inr ⟨by simp [hv, hf, hu, hx], rfl⟩)
    · exact .inl ⟨mk, by simp [hv, hf, hu, hx], rfl, hv, data, rfl, hu, hx⟩
  · exact .inr (.inr ⟨by simp [hv], rfl⟩)

/-- A check removes the manager's file or changes nothing. -/
theorem checkBlockMarker_snd (now : Time) (clearVar : String) (removeErr : Option GoError) :
    (m.checkBlockMarker codec now clearVar removeErr fs).2 = fs ∨
      (m.checkBlockMarker codec now clearVar removeErr fs).2 = Function.update fs m.markerPath none := by
  rcases checkBlockMarker_cases now clearVar removeErr with ⟨_, h, -⟩ | ⟨h, -⟩ | ⟨h, -⟩
  · exact .inl (by rw [h])
  · exact .inl (by rw [h])
  · rw [h]; exact clearBlockMarker_snd removeErr

/-- A check blocks exactly when it returns a marker, and it does so exactly
for an enabled manager, with the clear variable unset, on a file that
unmarshals to an unexpired marker. -/
theorem checkBlockMarker_valid {now : Time} {clearVar : String} {removeErr : Option GoError}
    {mk : Marker} :
    (m.checkBlockMarker codec now clearVar removeErr fs).1 = (some mk, true) ↔
      m.enabled ∧ clearVar = "" ∧ ∃ data, fs m.markerPath = some data ∧
        codec.unmarshal data = .ok mk ∧ ¬ mk.expiresAt < now := by
  constructor
  · rcases checkBlockMarker_cases now clearVar removeErr with ⟨mk', h, hc⟩ | ⟨h, -⟩ | ⟨h, -⟩ <;>
      rw [h] <;> simp only [Prod.mk.injEq, Option.some.injEq, and_true, reduceCtorEq, false_and,
        false_implies]
    rintro rfl
    exact hc
  · rintro ⟨he, rfl, data, hf, hu, hx⟩
    simp [checkBlockMarker, he, hf, hu, hx]

/-- A check's answer carries a marker exactly when it blocks. -/
theorem checkBlockMarker_fst_isSome (now : Time) (clearVar : String) (removeErr : Option GoError) :
    (m.checkBlockMarker codec now clearVar removeErr fs).1.1.isSome =
      (m.checkBlockMarker codec now clearVar removeErr fs).1.2 := by
  rcases checkBlockMarker_cases now clearVar removeErr with ⟨_, h, -⟩ | ⟨h, -⟩ | ⟨h, -⟩ <;> rw [h] <;> rfl

/-- An enabled check that does not block, when removing succeeds, leaves
no file at the manager's path: a corrupt or expired marker, or one the
clear variable asks to drop, is gone. -/
theorem checkBlockMarker_clears (hm : m.enabled) (now : Time) (clearVar : String)
    (h : (m.checkBlockMarker codec now clearVar none fs).1.2 = false) :
    (m.checkBlockMarker codec now clearVar none fs).2 m.markerPath = none := by
  rcases checkBlockMarker_cases now clearVar none with ⟨_, hc, -⟩ | ⟨hc, hd | ⟨-, hf⟩⟩ | ⟨hc, -⟩ <;>
    rw [hc] at h ⊢
  · cases h
  · simp [hm] at hd
  · exact hf
  · exact clearBlockMarker_removes hm

end Manager

/-! ## Runs of calls -/

/-- One call on a manager, with the clock and the outside answers it meets. -/
inductive MarkerCall where
  | set (m : Manager) (now : Time) (errorCode validator message : String) (write : WriteResult)
  | check (m : Manager) (now : Time) (clearVar : String) (removeErr : Option GoError)
  | clear (m : Manager) (removeErr : Option GoError)

namespace MarkerCall

/-- The manager a call is made on. -/
def manager : MarkerCall → Manager
  | .set m .. | .check m .. | .clear m .. => m

/-- The files after a call. -/
def apply (codec : Codec) : MarkerCall → FileSystem → FileSystem
  | .set m now errorCode validator message write, fs =>
    (m.setBlockMarker codec now errorCode validator message write fs).2
  | .check m now clearVar removeErr, fs => (m.checkBlockMarker codec now clearVar removeErr fs).2
  | .clear m removeErr, fs => (m.clearBlockMarker removeErr fs).2

/-- The path and the marker a call hands to an `os.WriteFile` that opens
the file: what `SetBlockMarker` writes, when its manager is enabled, the
marker marshals and the file opens. -/
def written (codec : Codec) : MarkerCall → Option (String × Marker)
  | .set m now errorCode validator message write =>
    if !m.enabled then none else
    match codec.marshal (m.newMarker now errorCode validator message) with
    | .error _ => none
    | .ok _ => if write.opened then some (m.markerPath, m.newMarker now errorCode validator message) else none
  | .check .. | .clear .. => none

/-- What one call can do to the files: nothing but remove its manager's
file, or write there a prefix of the marshalled marker it hands over. -/
theorem apply_cases (codec : Codec) (c : MarkerCall) (fs : FileSystem) :
    (c.written codec = none ∧
      (c.apply codec fs = fs ∨ c.apply codec fs = Function.update fs c.manager.markerPath none)) ∨
    ∃ mk full d, c.written codec = some (c.manager.markerPath, mk) ∧ codec.marshal mk = .ok full ∧
      d <+: full ∧ c.apply codec fs = Function.update fs c.manager.markerPath (some d) := by
  rcases c with ⟨m, now, e, v, msg, w⟩ | ⟨m, now, cv, re⟩ | ⟨m, re⟩
  · simp only [written, apply, manager, Manager.setBlockMarker]
    cases hm : m.enabled
    · exact .inl ⟨rfl, .inl rfl⟩
    rcases hd : codec.marshal (m.newMarker now e v msg) with _ | data
    · exact .inl ⟨rfl, .inl rfl⟩
    rcases w.contents_cases data (fs m.markerPath) with ⟨ho, hc⟩ | ⟨ho, d, hc, hp⟩
    · exact .inl ⟨by simp [ho], .inl (by simp [hc])⟩
    · exact .inr ⟨_, data, d, by simp [ho], hd, hp, by simp [hc]⟩
  · exact .inl ⟨rfl, Manager.checkBlockMarker_snd now cv re⟩
  · exact .inl ⟨rfl, Manager.clearBlockMarker_snd re⟩

/-- A call changes no file but its manager's. -/
theorem apply_frame (codec : Codec) (c : MarkerCall) (fs : FileSystem) {p : String}
    (hp : p ≠ c.manager.markerPath) : c.apply codec fs p = fs p := by
  rcases apply_cases codec c fs with ⟨-, h | h⟩ | ⟨_, _, _, -, -, -, h⟩ <;> simp [h, hp]

/-- A call on a disabled manager changes nothing. -/
theorem apply_disabled (codec : Codec) (c : MarkerCall) (fs : FileSystem)
    (hm : c.manager.enabled = false) : c.apply codec fs = fs := by
  rcases c with ⟨m, _⟩ | ⟨m, _⟩ | ⟨m, _⟩ <;>
    simp only [manager] at hm <;>
    simp [apply, Manager.setBlockMarker, Manager.checkBlockMarker, Manager.clearBlockMarker, hm]

/-- A marker handed over was built by the call's enabled manager. -/
theorem written_eq_some {codec : Codec} {c : MarkerCall} {p : String} {mk : Marker}
    (h : c.written codec = some (p, mk)) :
    ∃ m now errorCode validator message write, c = .set m now errorCode validator message write ∧
      m.markerPath = p ∧ m.enabled ∧ mk = m.newMarker now errorCode validator message := by
  rcases c with ⟨m, now, e, v, msg, w⟩ | _ | _ <;> simp only [written, reduceCtorEq] at h
  refine ⟨m, now, e, v, msg, w, rfl, ?_⟩
  cases hm : m.enabled <;> simp only [hm, Bool.not_false, Bool.not_true, ↓reduceIte, reduceCtorEq] at h
  split at h
  · cases h
  · split at h <;> simp_all

end MarkerCall

/-- The files after a sequence of calls. -/
def runCalls (codec : Codec) (calls : List MarkerCall) (fs : FileSystem) : FileSystem :=
  calls.foldl (fun fs c => c.apply codec fs) fs

@[simp] theorem runCalls_concat (codec : Codec) (calls : List MarkerCall) (c : MarkerCall)
    (fs : FileSystem) : runCalls codec (calls ++ [c]) fs = c.apply codec (runCalls codec calls fs) := by
  simp [runCalls]

/-- What a run should leave at `path`: the marker of its last call that
wrote there. -/
def lastWritten (codec : Codec) (calls : List MarkerCall) (path : String) : Option Marker :=
  ((calls.filterMap (MarkerCall.written codec)).filter (·.1 == path)).getLast?.map Prod.snd

theorem lastWritten_concat (codec : Codec) (calls : List MarkerCall) (c : MarkerCall) (path : String) :
    lastWritten codec (calls ++ [c]) path =
      match c.written codec with
      | some (q, mk) => if q = path then some mk else lastWritten codec calls path
      | none => lastWritten codec calls path := by
  simp only [lastWritten, List.filterMap_append, List.filterMap_cons, List.filterMap_nil,
    List.filter_append, List.getLast?_append]
  rcases c.written codec with _ | ⟨q, mk⟩
  · simp
  · by_cases hq : q = path <;> simp [hq]

/-- The last marker written to a path was built there by an enabled manager
in one of the run's `SetBlockMarker` calls. -/
theorem lastWritten_eq_some {codec : Codec} {calls : List MarkerCall} {path : String} {mk : Marker}
    (h : lastWritten codec calls path = some mk) :
    ∃ m now errorCode validator message write, MarkerCall.set m now errorCode validator message write ∈ calls ∧
      m.markerPath = path ∧ m.enabled ∧ mk = m.newMarker now errorCode validator message := by
  obtain ⟨⟨q, mk'⟩, hl, rfl⟩ := Option.map_eq_some'.mp h
  obtain ⟨hmem, hq⟩ := List.mem_filter.mp (List.mem_of_getLast?_eq_some hl)
  obtain ⟨c, hc, hw⟩ := List.mem_filterMap.mp hmem
  obtain ⟨m, now, e, v, msg, w, rfl, rfl, hm, rfl⟩ := MarkerCall.written_eq_some hw
  exact ⟨m, now, e, v, msg, w, hc, by simpa using hq, hm, rfl⟩

/-- Every marker file holds a prefix of the marshalled last marker written
to its path. -/
def FilesWritten (codec : Codec) (calls : List MarkerCall) (fs : FileSystem) : Prop :=
  ∀ p data, fs p = some data →
    ∃ mk full, lastWritten codec calls p = some mk ∧ codec.marshal mk = .ok full ∧ data <+: full

theorem filesWritten_nil (codec : Codec) : FilesWritten codec [] .empty := by
  intro p data h
  cases h

theorem FilesWritten.step {codec : Codec} {calls : List MarkerCall} {fs : FileSystem}
    (h : FilesWritten codec calls fs) (c : MarkerCall) :
    FilesWritten codec (calls ++ [c]) (c.apply codec fs) := by
  intro p data hp
  rw [lastWritten_concat]
  rcases MarkerCall.apply_cases codec c fs with ⟨hw, hf | hf⟩ | ⟨mk, full, d, hw, hm, hd, hf⟩ <;>
    rw [hw]
  · exact h p data (hf ▸ hp)
  · by_cases hq : p = c.manager.markerPath
    · simp [hf, hq] at hp
    · exact h p data (by simpa [hf, hq] using hp)
  · by_cases hq : c.manager.markerPath = p
    · subst hq
      simp only [hf, Function.update_same, Option.some.injEq] at hp
      subst hp
      exact ⟨mk, full, by simp, hm, hd⟩
    · simpa [hq] using h p data (by simpa [hf, Ne.symm hq] using hp)

theorem filesWritten_runCalls (codec : Codec) (calls : List MarkerCall) :
    FilesWritten codec calls (runCalls codec calls .empty) := by
  induction calls using List.reverseRecOn with
  | nil => exact filesWritten_nil codec
  | append_singleton calls c ih => simpa using ih.step c

/-- After any sequence of calls from no marker file, by any managers and
whatever the clock and the operating system answer, a `CheckBlockMarker`
that blocks returns the last marker written to its path: built there by an
enabled manager in one of the run's `SetBlockMarker` calls, and not yet
expired. -/
theorem checkBlockMarker_last_written (codec : Codec) (calls : List MarkerCall) (m : Manager)
    (now : Time) (clearVar : String) (removeErr : Option GoError) (mk : Marker)
    (h : (m.checkBlockMarker codec now clearVar removeErr (runCalls codec calls .empty)).1 = (some mk, true)) :
    m.enabled ∧ clearVar = "" ∧ lastWritten codec calls m.markerPath = some mk ∧ now ≤ mk.expiresAt ∧
      ∃ m' t errorCode validator message write,
        MarkerCall.set m' t errorCode validator message write ∈ calls ∧ m'.markerPath = m.markerPath ∧
          m'.enabled ∧ mk = m'.newMarker t errorCode validator message := by
  obtain ⟨hm, hv, data, hf, hu, hx⟩ := Manager.checkBlockMarker_valid.mp h
  obtain ⟨mk', full, hl, hmar, hp⟩ := filesWritten_runCalls codec calls m.markerPath data hf
  obtain rfl := codec.eq_of_unmarshal_written hmar hp hu
  exact ⟨hm, hv, hl, Int.not_lt.mp hx, lastWritten_eq_some hl⟩

/-- A codec that knows two markers, marshalled as the single bytes `1` and
`2`. -/
def Codec.pair (mk₁ mk₂ : Marker) : Codec where
  marshal m := if m = mk₁ then .ok [1] else if m = mk₂ then .ok [2] else .error ⟨"json: unsupported value"⟩
  unmarshal data := if data = [1] then .ok mk₁ else if data = [2] then .ok mk₂
    else .error ⟨"unexpected end of JSON input"⟩
  unmarshal_marshal := by
    intro m data h
    dsimp only at h ⊢
    split_ifs at h with h₁ h₂ <;> cases h
    · rw [if_pos rfl, h₁]
    · rw [if_neg (by decide), if_pos rfl, h₂]
  unmarshal_take := by
    intro m data k h hk mk'
    dsimp only at h ⊢
    obtain rfl : k = 0 := by split_ifs at h <;> (cases h; simpa using hk)
    simp

/-- A run that exercises the last write: a marker write that fails after
truncating the file, a check that finds the truncated file and clears it,
and a second marker written in full. The final check returns the second. -/
theorem checkBlockMarker_last_written_overwrite :
    let m := newManager "/tmp/klaudiush-block" 600000000000 true
    let mkA := m.newMarker 0 "GIT019" "git.commit" "blocked"
    let mkB := m.newMarker 2 "GIT013" "git.push" "blocked"
    let codec := Codec.pair mkA mkB
    let calls := [MarkerCall.set m 0 "GIT019" "git.commit" "blocked" (.error ⟨"no space left on device"⟩ (some 0)),
      .check m 1 "" none, .set m 2 "GIT013" "git.push" "blocked" .ok]
    (m.checkBlockMarker codec 3 "" none (runCalls codec calls .empty)).1 = (some mkB, true) ∧
      m.enabled ∧ "" = "" ∧ lastWritten codec calls m.markerPath = some mkB ∧
      3 ≤ mkB.expiresAt ∧ ∃ m' t errorCode validator message write,
        MarkerCall.set m' t errorCode validator message write ∈ calls ∧ m'.markerPath = m.markerPath ∧
          m'.enabled ∧ mkB = m'.newMarker t errorCode validator message := by
  intro m mkA mkB codec calls
  have h : (m.checkBlockMarker codec 3 "" none (runCalls codec calls .empty)).1 = (some mkB, true) := by
    decide
  exact ⟨h, checkBlockMarker_last_written codec calls m 3 "" none mkB h⟩

end ClaudeHooks.PipelineBlock
