import ClaudeHooks.Validators.Push
import ClaudeHooks.Validators.Commit

/-!
# Validators — the git runner on git's output

`RealGitRunner` (`internal/validators/git`) answers the validators' queries
by running git. The model is given what each git command prints, or how it
fails, and translates what the runner makes of it: a file list is the
trimmed output split into lines, a single answer is the trimmed output, and
`GetRemotes` reads the lines of `git remote -v` into a map.

* `remotesOfOutput_remoteVOutput`: reading back what `git remote -v` prints
  for remotes with distinct names gives those remotes, when names and URLs
  are words (not empty, no space).
* `validate_realGitRunner_perm`: with the real runner, the push validator's
  result does not depend on the order in which a range visits the map
  `GetRemotes` builds.
* `checkStagingArea_realGitRunner`: with the real runner, the commit
  validator finds nothing staged exactly when `git diff --cached` succeeds
  and prints only white space.
-/

namespace ClaudeHooks.Validators

open ClaudeHooks.Rules (GoError)
open ClaudeHooks.Parser

/-- `strings.Fields`: the runs of characters between spaces. -/
def fields (s : String) : List String :=
  ((s.data.splitOnP isGoSpace).filter fun field => !field.isEmpty).map String.mk

/-- The file lists of `GetStagedFiles`, `GetModifiedFiles` and
`GetUntrackedFiles`: the trimmed output split into lines, or no file when
the output is blank. -/
def fileList (output : String) : List String :=
  let files := trimSpace output
  if files = "" then [] else splitLines files

/-- The body of the loop of `GetRemotes`: a line of two fields or more
names a remote and its URL, added unless the remote is in the map already. -/
def addRemoteLine (remotes : List (String × String)) (line : String) : List (String × String) :=
  if line = "" then remotes
  else
    match fields line with
    | remoteName :: remoteURL :: _ =>
      if (remotes.lookup remoteName).isSome then remotes else remotes ++ [(remoteName, remoteURL)]
    | _ => remotes

/-- `GetRemotes` on the output of `git remote -v`: the map by its entries,
in the order they were added. -/
def remotesOfOutput (output : String) : List (String × String) :=
  (splitLines (trimSpace output)).foldl addRemoteLine []

/-- What the git commands `RealGitRunner` runs print, or how they fail;
`gitDir` is whether `git rev-parse --git-dir` succeeds, and `config` answers
`git config` for a key. -/
structure GitOutputs where
  gitDir : Bool
  diffCached : Except GoError String
  diff : Except GoError String
  lsFilesOthers : Except GoError String
  showToplevel : Except GoError String
  remoteGetURL : String → Except GoError String
  symbolicRefHead : Except GoError String
  config : String → Except GoError String
  remoteV : Except GoError String

/-- `RealGitRunner`. `GetRemotes` gives the map's entries in the order they
were added; a range over the map visits them in any order. -/
def realGitRunner (out : GitOutputs) : GitRunner where
  isInRepo := out.gitDir
  getStagedFiles := out.diffCached.map fileList
  getModifiedFiles := out.diff.map fileList
  getUntrackedFiles := out.lsFilesOthers.map fileList
  getRepoRoot := out.showToplevel.map trimSpace
  getRemoteURL remote := (out.remoteGetURL remote).map trimSpace
  getCurrentBranch := out.symbolicRefHead.map trimSpace
  getBranchRemote branch := (out.config ("branch." ++ branch ++ ".remote")).map trimSpace
  getRemotes := out.remoteV.map remotesOfOutput

/-! ## File lists -/

theorem splitLines_ne_nil (s : String) : splitLines s ≠ [] := by
  simp [splitLines, List.splitOn, List.splitOnP_ne_nil]

theorem fileList_eq_nil_iff (output : String) : fileList output = [] ↔ trimSpace output = "" := by
  unfold fileList
  dsimp only
  split_ifs with h
  · exact iff_of_true rfl h
  · exact iff_of_false (splitLines_ne_nil _) h

/-- With the real runner, the commit validator finds nothing staged exactly
when no `-a`, `-A` or `--all` flag is given, the directory is a repository,
and `git diff --cached` succeeds and prints only white space. -/
theorem checkStagingArea_realGitRunner (out : GitOutputs) (templates : Templates) (gitCmd : GitCommand) :
    (CommitValidator.checkStagingArea ⟨realGitRunner out⟩ templates gitCmd).passed = false ↔
      gitCmd.hasFlag "-a" = false ∧ gitCmd.hasFlag "-A" = false ∧ gitCmd.hasFlag "--all" = false ∧
        out.gitDir = true ∧ ∃ output, out.diffCached = .ok output ∧ trimSpace output = "" := by
  rw [← Bool.not_eq_true, CommitValidator.checkStagingArea_passed]
  simp only [realGitRunner, not_or, Bool.not_eq_true, not_forall, exists_prop, ne_eq, not_not]
  cases out.diffCached with
  | error err => simp [Except.map]
  | ok output => simp [Except.map, fileList_eq_nil_iff]

/-! ## The remotes map -/

/-- A line adds a remote that is not in the map yet, so the keys stay
distinct. -/
theorem addRemoteLine_nodup {remotes : List (String × String)} (h : (remotes.map (·.1)).Nodup)
    (line : String) : ((addRemoteLine remotes line).map (·.1)).Nodup := by
  unfold addRemoteLine
  split_ifs
  · exact h
  · split
    · split_ifs with hsome
      · exact h
      · rw [List.map_append, List.nodup_append]
        exact ⟨h, List.nodup_singleton _, by simpa [lookup_isSome_iff] using hsome⟩
    · exact h

theorem foldl_addRemoteLine_nodup (lines : List String) {remotes : List (String × String)}
    (h : (remotes.map (·.1)).Nodup) : ((lines.foldl addRemoteLine remotes).map (·.1)).Nodup := by
  induction lines generalizing remotes with
  | nil => exact h
  | cons line lines ih => exact ih (addRemoteLine_nodup h line)

/-- `GetRemotes` builds a map: its names are distinct. -/
theorem remotesOfOutput_nodup (output : String) : ((remotesOfOutput output).map (·.1)).Nodup :=
  foldl_addRemoteLine_nodup _ List.nodup_nil

/-! ## Reading back `git remote -v` -/

/-- A line of `git remote -v`: the remote, a tab, its URL, and whether the
URL is for fetching or for pushing. -/
def remoteVLine (name url kind : String) : String := name ++ "\t" ++ url ++ " (" ++ kind ++ ")"

/-- The lines `git remote -v` prints for remotes: a fetch and a push line
for each. -/
def remoteVLines (remotes : List (String × String)) : List String :=
  remotes.flatMap fun remote => [remoteVLine remote.1 remote.2 "fetch", remoteVLine remote.1 remote.2 "push"]

/-- What `git remote -v` prints: each line ended by a newline. -/
def remoteVOutput (remotes : List (String × String)) : String :=
  String.join ((remoteVLines remotes).map (· ++ "\n"))

/-- A remote's name or URL as git prints it here: not empty, no space. -/
def IsWord (s : String) : Prop := s ≠ "" ∧ ∀ c ∈ s.data, isGoSpace c = false

instance : DecidablePred IsWord := fun _ => inferInstanceAs (Decidable (_ ∧ _))

theorem remoteVLine_data (name url kind : String) :
    (remoteVLine name url kind).data = name.data ++ '\t' :: (url.data ++ ' ' :: '(' :: (kind.data ++ [')'])) := by
  simp [remoteVLine]

theorem fields_remoteVLine {name url kind : String} (hname : IsWord name) (hurl : IsWord url)
    (hkind : ∀ c ∈ kind.data, isGoSpace c = false) :
    fields (remoteVLine name url kind) = [name, url, "(" ++ kind ++ ")"] := by
  have hsplit : (remoteVLine name url kind).data.splitOnP isGoSpace =
      [name.data, url.data, '(' :: (kind.data ++ [')'])] := by
    rw [remoteVLine_data, List.splitOnP_first _ _ (by simpa using hname.2) _ (by decide),
      List.splitOnP_first _ _ (by simpa using hurl.2) _ (by decide), List.splitOnP_eq_single]
    simp only [List.mem_cons, List.mem_append, List.not_mem_nil, or_false]
    rintro c (rfl | hc | rfl)
    · decide
    · simpa using hkind c hc
    · decide
  have hne : ∀ s : String, s ≠ "" → s.data.isEmpty = false := fun s hs => by
    cases s with
    | mk cs => cases cs <;> simp_all
  simp only [fields, hsplit, List.filter_cons, hne name hname.1, hne url hurl.1]
  simp
  apply String.ext
  simp

theorem remoteVLine_ne_empty (name url kind : String) : remoteVLine name url kind ≠ "" := fun h => by
  simpa [remoteVLine_data] using congrArg String.data h

theorem addRemoteLine_remoteVLine (remotes : List (String × String)) {name url kind : String}
    (hname : IsWord name) (hurl : IsWord url) (hkind : ∀ c ∈ kind.data, isGoSpace c = false) :
    addRemoteLine remotes (remoteVLine name url kind) =
      if (remotes.lookup name).isSome then remotes else remotes ++ [(name, url)] := by
  simp only [addRemoteLine, remoteVLine_ne_empty, ↓reduceIte, fields_remoteVLine hname hurl hkind]

/-- The loop of `GetRemotes` over the lines of remotes whose names are new
to the map adds those remotes, in order. -/
theorem foldl_addRemoteLine_remoteVLines {remotes acc : List (String × String)}
    (hkeys : ((acc ++ remotes).map (·.1)).Nodup) (hwords : ∀ remote ∈ remotes, IsWord remote.1 ∧ IsWord remote.2) :
    (remoteVLines remotes).foldl addRemoteLine acc = acc ++ remotes := by
  induction remotes generalizing acc with
  | nil => simp [remoteVLines]
  | cons remote remotes ih =>
    obtain ⟨hname, hurl⟩ := hwords remote (List.mem_cons_self _ _)
    have hkinds : ∀ kind ∈ ["fetch", "push"], ∀ c ∈ kind.data, isGoSpace c = false := by decide
    have hnew : (acc.lookup remote.1).isSome = false := by
      rw [Bool.eq_false_iff, ne_eq, lookup_isSome_iff]
      rw [List.map_append, List.nodup_append] at hkeys
      exact fun h => hkeys.2.2 h (List.mem_cons_self _ _)
    have hold : ((acc ++ [remote]).lookup remote.1).isSome = true := by
      rw [lookup_isSome_iff]
      simp
    rw [remoteVLines, List.flatMap_cons, List.foldl_append, ← remoteVLines]
    simp only [List.foldl_cons, List.foldl_nil,
      addRemoteLine_remoteVLine _ hname hurl (hkinds _ (List.mem_cons_self _ _)),
      addRemoteLine_remoteVLine _ hname hurl (hkinds _ (List.mem_cons_of_mem _ (List.mem_cons_self _ _))),
      hnew, hold, Bool.false_eq_true, ↓reduceIte]
    rw [ih (by simpa using hkeys) (fun r hr => hwords r (List.mem_cons_of_mem _ hr))]
    simp

theorem remoteVLine_getLast? (name url kind : String) : (remoteVLine name url kind).data.getLast? = some ')' :=
  List.getLast?_eq_some_iff.mpr ⟨name.data ++ '\t' :: (url.data ++ ' ' :: '(' :: kind.data), by simp [remoteVLine_data]⟩

theorem newline_not_mem_remoteVLine {name url kind : String} (hname : IsWord name) (hurl : IsWord url)
    (hkind : ∀ c ∈ kind.data, isGoSpace c = false) : '\n' ∉ (remoteVLine name url kind).data := by
  have hnl : ∀ s : String, (∀ c ∈ s.data, isGoSpace c = false) → '\n' ∉ s.data :=
    fun s hs h => absurd (hs _ h) (by decide)
  simp only [remoteVLine_data, List.mem_append, List.mem_cons, List.not_mem_nil, not_or]
  exact ⟨hnl _ hname.2, by decide, hnl _ hurl.2, by decide, by decide, hnl _ hkind, by decide, by decide⟩

/-- What `git remote -v` prints for at least one remote trims to its lines
joined by newlines. -/
theorem trimSpace_remoteVOutput {remotes : List (String × String)} (hne : remotes ≠ [])
    (hwords : ∀ remote ∈ remotes, IsWord remote.1 ∧ IsWord remote.2) :
    trimSpace (remoteVOutput remotes) = "\n".intercalate (remoteVLines remotes) := by
  obtain ⟨⟨name, url⟩, rest, rfl⟩ := List.exists_cons_of_ne_nil hne
  have hlines : remoteVLines ((name, url) :: rest) ≠ [] := by simp [remoteVLines]
  have hdata : (remoteVOutput ((name, url) :: rest)).data =
      ['\n'].intercalate ((remoteVLines ((name, url) :: rest)).map String.data) ++ ['\n'] := by
    rw [remoteVOutput, data_join, List.map_map, ← flatten_map_append_singleton _ (by simpa using hlines)]
    simp [Function.comp_def]
  obtain ⟨c, cs, hname⟩ : ∃ c cs, name.data = c :: cs := by
    rcases h : name.data with _ | ⟨c, cs⟩
    · exact absurd (String.ext h) (hwords _ (List.mem_cons_self _ _)).1.1
    · exact ⟨c, cs, rfl⟩
  have hc : isGoSpace c = false := (hwords _ (List.mem_cons_self _ _)).1.2 c (by simp [hname])
  have hhead : (['\n'].intercalate ((remoteVLines ((name, url) :: rest)).map String.data)).head? = some c := by
    simp [remoteVLines, intercalate_cons_data, remoteVLine_data, hname]
  have hlast : (['\n'].intercalate ((remoteVLines ((name, url) :: rest)).map String.data)).getLast? = some ')' := by
    refine getLast?_intercalate _ (by simpa using hlines) ?_
    simp only [remoteVLines, List.mem_map, List.mem_flatMap, List.mem_cons, List.not_mem_nil, or_false]
    rintro _ ⟨line, ⟨remote, -, rfl | rfl⟩, rfl⟩ <;> exact remoteVLine_getLast? _ _ _
  rw [show remoteVOutput ((name, url) :: rest) = ⟨_ ++ ['\n']⟩ from String.ext hdata,
    trimSpace_append_spaces (by simpa [hhead] using hc) (by simp only [hlast]; decide) (by decide)]
  exact String.ext (data_intercalate _ _).symm

/-- Reading back what `git remote -v` prints for remotes with distinct
names, whose names and URLs are words, gives those remotes. -/
theorem remotesOfOutput_remoteVOutput {remotes : List (String × String)} (hkeys : (remotes.map (·.1)).Nodup)
    (hwords : ∀ remote ∈ remotes, IsWord remote.1 ∧ IsWord remote.2) :
    remotesOfOutput (remoteVOutput remotes) = remotes := by
  rcases eq_or_ne remotes [] with rfl | hne
  · rfl
  have hkinds : ∀ kind ∈ ["fetch", "push"], ∀ c ∈ kind.data, isGoSpace c = false := by decide
  have hnl : ∀ line ∈ remoteVLines remotes, '\n' ∉ line.data := by
    simp only [remoteVLines, List.mem_flatMap, List.mem_cons, List.not_mem_nil, or_false]
    rintro _ ⟨remote, hr, rfl | rfl⟩
    · exact newline_not_mem_remoteVLine (hwords remote hr).1 (hwords remote hr).2 (hkinds _ (by simp))
    · exact newline_not_mem_remoteVLine (hwords remote hr).1 (hwords remote hr).2 (hkinds _ (by simp))
  rw [remotesOfOutput, trimSpace_remoteVOutput hne hwords,
    splitLines_intercalate (by obtain ⟨r, rs, rfl⟩ := List.exists_cons_of_ne_nil hne; simp [remoteVLines]) hnl,
    foldl_addRemoteLine_remoteVLines (by simpa using hkeys) hwords, List.nil_append]

theorem remotesOfOutput_remoteVOutput_two :
    ([("origin", "git@github.com:me/kuma.git"), ("upstream", "https://github.com/kumahq/kuma.git")].map
        (·.1)).Nodup ∧
      (∀ remote ∈ [("origin", "git@github.com:me/kuma.git"), ("upstream", "https://github.com/kumahq/kuma.git")],
        IsWord remote.1 ∧ IsWord remote.2) ∧
      remotesOfOutput (remoteVOutput
          [("origin", "git@github.com:me/kuma.git"), ("upstream", "https://github.com/kumahq/kuma.git")]) =
        [("origin", "git@github.com:me/kuma.git"), ("upstream", "https://github.com/kumahq/kuma.git")] :=
  ⟨by decide, by decide, remotesOfOutput_remoteVOutput (by decide) (by decide)⟩

/- A URL with a space is cut at it. -/
example : remotesOfOutput (remoteVOutput [("origin", "my repo")]) = [("origin", "my")] := by decide

/-! ## The push validator on the real runner -/

/-- The remotes the push validator reads matter only through
`validateRemoteExists`. -/
theorem validate_eq_of_validateRemoteExists (r : GitRunner) (remotes : Except GoError (List (String × String)))
    (hexists : ∀ remote, (⟨{ r with getRemotes := remotes }⟩ : PushValidator).validateRemoteExists remote =
      (⟨r⟩ : PushValidator).validateRemoteExists remote)
    (parsers : Parsers) (command : String) :
    (⟨{ r with getRemotes := remotes }⟩ : PushValidator).validate parsers command =
      (⟨r⟩ : PushValidator).validate parsers command := by
  have hpush : PushValidator.validatePushCommand ⟨{ r with getRemotes := remotes }⟩ =
      PushValidator.validatePushCommand ⟨r⟩ := funext fun gitCmd => by
    simp only [PushValidator.validatePushCommand, hexists]
    rfl
  simp only [PushValidator.validate, PushValidator.validateCommands_eq_firstFailure, PushValidator.pushResults, hpush]

/-- With the real runner, the push validator gives the same result whatever
order the range over the remotes map takes. -/
theorem validate_realGitRunner_perm (out : GitOutputs) {output : String} (hout : out.remoteV = .ok output)
    {order : List (String × String)} (horder : order.Perm (remotesOfOutput output)) (parsers : Parsers)
    (command : String) :
    (⟨{ realGitRunner out with getRemotes := .ok order }⟩ : PushValidator).validate parsers command =
      (⟨realGitRunner out⟩ : PushValidator).validate parsers command := by
  refine validate_eq_of_validateRemoteExists _ _ (fun remote => ?_) parsers command
  have hkeys : (order.map (·.1)).Nodup := (horder.map _).nodup_iff.mpr (remotesOfOutput_nodup output)
  simp only [PushValidator.validateRemoteExists, realGitRunner, hout, Except.map,
    PushValidator.formatRemoteNotFoundError_perm remote hkeys horder]

theorem validate_realGitRunner_perm_swap :
    let out : GitOutputs := ⟨true, .ok "", .ok "", .ok "", .ok "/src/kumahq/kuma\n",
      fun remote => if remote = "fork" then .error ⟨"No such remote"⟩ else .ok "url\n", .ok "main\n",
      fun _ => .ok "origin\n", .ok (remoteVOutput [("origin", "o"), ("upstream", "u")])⟩
    let parsers : Parsers := ⟨fun _ => .ok [⟨"git", ["push", "fork"]⟩],
      fun _ => .ok ⟨"push", ["fork"], fun _ => false, fun _ => ""⟩⟩
    out.remoteV = .ok (remoteVOutput [("origin", "o"), ("upstream", "u")]) ∧
      [("upstream", "u"), ("origin", "o")].Perm (remotesOfOutput (remoteVOutput [("origin", "o"), ("upstream", "u")])) ∧
      (⟨{ realGitRunner out with getRemotes := .ok [("upstream", "u"), ("origin", "o")] }⟩ : PushValidator).validate
          parsers "git push fork" =
        (⟨realGitRunner out⟩ : PushValidator).validate parsers "git push fork" :=
  ⟨rfl, by decide, validate_realGitRunner_perm _ rfl (by decide) _ _⟩

end ClaudeHooks.Validators
