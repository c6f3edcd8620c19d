import ClaudeHooks.Parser.Command
import ClaudeHooks.Validators.PRTitle

/-!
# Validators — conventional commit messages

The commit parser of `internal/validators/git`. `CommitParser.Parse` reads a
commit message with a conventional-commits parsing machine
(`go-conventionalcommits`, not in the source: a parameter that gives the
commit it reads, or its error's text). When the machine rejects the message
over its trailers, the parser reads the title alone and takes the body and
the breaking-change footers from the message itself
(`extractBodyAndFooters`). `isRevertCommit` and `defaultValidTypes` are not
in the source and are parameters.

* `parse_valid_iff`: the messages `Parse` accepts: non-empty, with a revert
  title, or read by the machine with a type `IsValidType` accepts. A revert
  is accepted whatever the valid types are.
* `extractBodyAndFooters_split`: the message is its title, the blank lines
  after it and the body, joined by newlines.
* `parse_breaking_of_trailer_fallback`: on the fallback the breaking-change
  flag is the title's own. `extractBodyAndFooters` sets it from the body's
  footers (`extractBodyAndFooters_isBreakingChange`), and `Parse` then
  overwrites it with the title commit's `!`.
* `hasValidFormat_iff`: the titles `conventionalTitleRegex` matches; every
  title the pull request check accepts is among them when the valid types
  are words (`hasValidFormat_of_semanticMatches`).
-/

namespace ClaudeHooks.Validators

open ClaudeHooks.Rules (containsStr)
open ClaudeHooks.Parser

/-- `conventionalcommits.ConventionalCommit`, with the fields `Parse` reads;
the footers map is given by its entries, `none` when it is nil. -/
structure ConventionalCommit where
  type : String
  scope : Option String
  description : String
  body : Option String
  footers : Option (List (String × List String))
  exclamation : Bool
  deriving DecidableEq, Repr

/-- `ParsedCommit`; the defaults are Go's zero values. -/
structure ParsedCommit where
  type : String := ""
  scope : String := ""
  description : String := ""
  body : String := ""
  footers : Option (List (String × List String)) := none
  isBreakingChange : Bool := false
  title : String := ""
  raw : String := ""
  valid : Bool := false
  parseError : String := ""
  deriving DecidableEq, Repr

/-- `CommitParser`: its machine's `Parse` (the commit it reads, `none` when
the message is not a non-nil `*ConventionalCommit`, or the error's text),
and the keys of its valid-types map. -/
structure CommitParser where
  machine : String → Except String (Option ConventionalCommit)
  validTypes : List String

/-- `WithValidTypes`: the map replaced by one holding `types`. -/
def withValidTypes (types : List String) (p : CommitParser) : CommitParser :=
  { p with validTypes := types }

/-- `NewCommitParser`: the machine and the default types, then the options
in order. -/
def newCommitParser (machine : String → Except String (Option ConventionalCommit))
    (defaultValidTypes : List String) (opts : List (CommitParser → CommitParser)) : CommitParser :=
  opts.foldl (fun p opt => opt p) ⟨machine, defaultValidTypes⟩

/-- `IsValidType`. -/
def CommitParser.isValidType (p : CommitParser) (commitType : String) : Bool :=
  if p.validTypes.isEmpty then true else p.validTypes.contains commitType

/-- `extractTitle`: the text before the first newline. Its comment promises
the first non-empty line; a message that starts with a newline has an empty
title. -/
def extractTitle (message : String) : String :=
  ⟨message.data.takeWhile (· ≠ '\n')⟩

/-- A line `extractBodyAndFooters` reads as a breaking-change footer. -/
def isBreakingFooterLine (line : String) : Bool :=
  let trimmed := trimSpace line
  "BREAKING CHANGE:".data.isPrefixOf trimmed.data || "BREAKING-CHANGE:".data.isPrefixOf trimmed.data

/-- `extractBodyAndFooters`: the lines after the title and the blank lines
that follow it are the body; a breaking-change footer among them sets the
flag. -/
def extractBodyAndFooters (message : String) (result : ParsedCommit) : ParsedCommit :=
  let lines := splitLines message
  if lines.length ≤ 1 then result
  else
    let bodyLines := (lines.drop 1).dropWhile fun line => trimSpace line == ""
    if bodyLines.isEmpty then result
    else
      let result := { result with body := "\n".intercalate bodyLines }
      if bodyLines.any isBreakingFooterLine then { result with isBreakingChange := true } else result

/-- The machine's reading in `Parse`: of the whole message, or, when that
fails over trailers, of the title alone, with the body and footers taken
from the message. -/
def CommitParser.parseMessage (p : CommitParser) (message title : String) (result : ParsedCommit) :
    Except String (Option ConventionalCommit) × ParsedCommit :=
  match p.machine message with
  | .ok msg => (.ok msg, result)
  | .error err =>
    if containsStr err "trailer" then
      match p.machine title with
      | .error err => (.error err, result)
      | .ok msg => (.ok msg, extractBodyAndFooters message result)
    else (.error err, result)

/-- The fields `Parse` takes from the commit the machine read. -/
def ParsedCommit.fromCommit (result : ParsedCommit) (cc : ConventionalCommit) : ParsedCommit :=
  let result := { result with type := cc.type, description := cc.description, isBreakingChange := cc.exclamation }
  let result := match cc.scope with
    | some scope => { result with scope := scope }
    | none => result
  let result := match cc.body with
    | some body => if result.body = "" then { result with body := body } else result
    | none => result
  match cc.footers with
  | none => result
  | some footers =>
    let result := { result with footers := some footers }
    let result := if (footers.lookup "BREAKING CHANGE").isSome then { result with isBreakingChange := true }
      else result
    if (footers.lookup "BREAKING-CHANGE").isSome then { result with isBreakingChange := true } else result

/-- `Parse`. -/
def CommitParser.parse (p : CommitParser) (isRevertCommit : String → Bool) (message : String) :
    ParsedCommit :=
  let result : ParsedCommit := { raw := message }
  if message = "" then result
  else
    let title := extractTitle message
    let result := { result with title := title }
    if isRevertCommit title then { result with valid := true, type := "revert" }
    else
      match p.parseMessage message title result with
      | (.error err, result) => { result with parseError := err }
      | (.ok none, result) => { result with parseError := "failed to parse as conventional commit" }
      | (.ok (some cc), result) =>
        let result := result.fromCommit cc
        if !p.validTypes.isEmpty && !p.validTypes.contains result.type then
          { result with parseError := "invalid commit type: " ++ result.type, valid := false }
        else { result with valid := true }

/-! ## Which messages are valid -/

/-- The breaking-change flag of a commit the machine read: its `!`, or a
`BREAKING CHANGE` or `BREAKING-CHANGE` footer. -/
def ConventionalCommit.breaking (cc : ConventionalCommit) : Bool :=
  cc.exclamation || match cc.footers with
    | none => false
    | some footers => (footers.lookup "BREAKING CHANGE").isSome || (footers.lookup "BREAKING-CHANGE").isSome

@[simp] theorem fromCommit_type (result : ParsedCommit) (cc : ConventionalCommit) :
    (result.fromCommit cc).type = cc.type := by
  obtain ⟨type, scope, description, body, footers, exclamation⟩ := cc
  cases scope <;> cases body <;> cases footers <;> simp only [ParsedCommit.fromCommit] <;> split_ifs <;> rfl

/-- The flag `Parse` reports for a commit the machine read does not depend
on what was found before. -/
theorem fromCommit_isBreakingChange (result : ParsedCommit) (cc : ConventionalCommit) :
    (result.fromCommit cc).isBreakingChange = cc.breaking := by
  obtain ⟨type, scope, description, body, footers, exclamation⟩ := cc
  cases scope <;> cases body <;> cases footers <;>
    simp only [ParsedCommit.fromCommit, ConventionalCommit.breaking, apply_ite ParsedCommit.isBreakingChange, ite_self] <;>
    (try split_ifs) <;> simp [*]

@[simp] theorem extractBodyAndFooters_valid (message : String) (result : ParsedCommit) :
    (extractBodyAndFooters message result).valid = result.valid := by
  unfold extractBodyAndFooters
  dsimp only
  split_ifs <;> rfl

theorem parseMessage_valid (p : CommitParser) (message title : String) (result : ParsedCommit) :
    (p.parseMessage message title result).2.valid = result.valid := by
  unfold CommitParser.parseMessage
  split
  · rfl
  · split
    · split <;> simp
    · rfl

theorem parse_of_not_revert (p : CommitParser) (isRevertCommit : String → Bool) {message : String}
    (hne : message ≠ "") (hrevert : isRevertCommit (extractTitle message) = false) :
    p.parse isRevertCommit message =
      match p.parseMessage message (extractTitle message) { raw := message, title := extractTitle message } with
      | (.error err, result) => { result with parseError := err }
      | (.ok none, result) => { result with parseError := "failed to parse as conventional commit" }
      | (.ok (some cc), result) =>
        let result := result.fromCommit cc
        if !p.validTypes.isEmpty && !p.validTypes.contains result.type then
          { result with parseError := "invalid commit type: " ++ result.type, valid := false }
        else { result with valid := true } := by
  simp only [CommitParser.parse, hne, hrevert, ↓reduceIte, Bool.false_eq_true]

/-- `Parse` accepts a message exactly when it is not empty and either its
title is a revert, or the machine reads a commit whose type `IsValidType`
accepts. -/
theorem parse_valid_iff (p : CommitParser) (isRevertCommit : String → Bool) (message : String) :
    (p.parse isRevertCommit message).valid = true ↔
      message ≠ "" ∧ (isRevertCommit (extractTitle message) = true ∨
        ∃ cc result, p.parseMessage message (extractTitle message)
            { raw := message, title := extractTitle message } = (.ok (some cc), result) ∧
          p.isValidType cc.type = true) := by
  by_cases hne : message = ""
  · simp [CommitParser.parse, hne]
  cases hrevert : isRevertCommit (extractTitle message)
  · rw [parse_of_not_revert p isRevertCommit hne hrevert]
    simp only [ne_eq, hne, not_false_eq_true, Bool.false_eq_true, false_or, true_and]
    have hvalid := parseMessage_valid p message (extractTitle message) { raw := message, title := extractTitle message }
    rcases hm : p.parseMessage message (extractTitle message) { raw := message, title := extractTitle message }
      with ⟨_ | _ | cc, result⟩ <;> rw [hm] at hvalid
    · simpa using hvalid
    · simpa using hvalid
    · simp only [fromCommit_type, Prod.mk.injEq, Except.ok.injEq, Option.some.injEq]
      constructor
      · intro h
        refine ⟨cc, result, ⟨rfl, rfl⟩, ?_⟩
        unfold CommitParser.isValidType
        split at h <;> simp_all
      · rintro ⟨cc', result', ⟨rfl, rfl⟩, h⟩
        unfold CommitParser.isValidType at h
        split <;> simp_all
  · simp [CommitParser.parse, hne, hrevert]

/-! ## The body and footers of the fallback -/

theorem splitOn_newline_cons_of_ne {c : Char} (h : c ≠ '\n') (cs : List Char) :
    (c :: cs).splitOn '\n' = (cs.splitOn '\n').modifyHead (c :: ·) := by
  simp [List.splitOn, h]

theorem splitOn_newline_cons_newline (cs : List Char) :
    ('\n' :: cs).splitOn '\n' = [] :: cs.splitOn '\n' := by
  simp [List.splitOn]

/-- The first line is the text before the first newline; the split is
never empty. -/
theorem splitOn_newline_eq_cons (cs : List Char) :
    ∃ rest, cs.splitOn '\n' = cs.takeWhile (· ≠ '\n') :: rest := by
  induction cs with
  | nil => exact ⟨[], rfl⟩
  | cons c cs ih =>
    obtain ⟨rest, hrest⟩ := ih
    by_cases hc : c = '\n'
    · subst hc
      exact ⟨cs.splitOn '\n', by rw [splitOn_newline_cons_newline]; simp⟩
    · exact ⟨rest, by rw [splitOn_newline_cons_of_ne hc, hrest]; simp [hc]⟩

/-- No line of a split holds a newline. -/
theorem newline_not_mem_of_mem_splitOn {cs line : List Char} (h : line ∈ cs.splitOn '\n') : '\n' ∉ line := by
  induction cs generalizing line with
  | nil => simp_all [List.splitOn]
  | cons c cs ih =>
    by_cases hc : c = '\n'
    · subst hc
      rw [splitOn_newline_cons_newline] at h
      rcases List.mem_cons.mp h with rfl | h
      · simp
      · exact ih h
    · obtain ⟨rest, hrest⟩ := splitOn_newline_eq_cons cs
      rw [splitOn_newline_cons_of_ne hc, hrest] at h
      simp only [List.modifyHead_cons, List.mem_cons] at h
      rcases h with rfl | h
      · rw [List.mem_cons, not_or]
        exact ⟨Ne.symm hc, ih (hrest ▸ List.mem_cons_self _ _)⟩
      · exact ih (hrest ▸ List.mem_cons_of_mem _ h)

theorem splitLines_eq_cons (message : String) :
    ∃ rest, splitLines message = extractTitle message :: rest ∧ ∀ line ∈ rest, '\n' ∉ line.data := by
  obtain ⟨rest, hrest⟩ := splitOn_newline_eq_cons message.data
  refine ⟨rest.map String.mk, by simp [splitLines, hrest, extractTitle], ?_⟩
  simp only [List.mem_map]
  rintro _ ⟨line, hline, rfl⟩
  exact newline_not_mem_of_mem_splitOn (hrest ▸ List.mem_cons_of_mem _ hline)

/-- The title of lines joined by newlines is the first line. -/
theorem extractTitle_intercalate {line : String} (h : '\n' ∉ line.data) (rest : List String) :
    extractTitle ("\n".intercalate (line :: rest)) = line := by
  apply String.ext
  have hall : ∀ x ∈ line.data, decide (x ≠ '\n') = true := fun x hx => by
    simp only [ne_eq, decide_eq_true_eq]
    rintro rfl
    exact h hx
  simp only [extractTitle, data_intercalate, List.map_cons, intercalate_cons_data]
  rw [List.takeWhile_append_of_pos hall]
  cases rest <;> simp

/-- A blank line is not a breaking-change footer. -/
theorem isBreakingFooterLine_of_blank {line : String} (h : trimSpace line = "") :
    isBreakingFooterLine line = false := by
  simp [isBreakingFooterLine, h]

/-- `extractBodyAndFooters` on a message whose lines after the title are
`rest`. -/
theorem extractBodyAndFooters_of_splitLines {message : String} {rest : List String}
    (h : splitLines message = extractTitle message :: rest) (result : ParsedCommit) :
    extractBodyAndFooters message result =
      match rest.dropWhile (fun line => trimSpace line == "") with
      | [] => result
      | bodyLines => { result with
          body := "\n".intercalate bodyLines
          isBreakingChange := (result.isBreakingChange || bodyLines.any isBreakingFooterLine) } := by
  unfold extractBodyAndFooters
  simp only [h, List.length_cons, List.drop_succ_cons, List.drop_zero]
  cases rest with
  | nil => rfl
  | cons line rest =>
    simp only [List.length_cons, add_le_iff_nonpos_left, nonpos_iff_eq_zero, Nat.add_one_ne_zero, ↓reduceIte]
    cases (line :: rest).dropWhile fun line => trimSpace line == "" with
    | nil => rfl
    | cons b bs => by_cases hb : (b :: bs).any isBreakingFooterLine <;> simp [hb]

/-- `extractBodyAndFooters` sets the flag exactly when a line after the
title is a breaking-change footer. -/
theorem extractBodyAndFooters_isBreakingChange (message : String) (result : ParsedCommit) :
    (extractBodyAndFooters message result).isBreakingChange =
      (result.isBreakingChange || ((splitLines message).drop 1).any isBreakingFooterLine) := by
  obtain ⟨rest, hlines, -⟩ := splitLines_eq_cons message
  have hblank : (rest.takeWhile fun line => trimSpace line == "").any isBreakingFooterLine = false :=
    List.any_eq_false.mpr fun line hl => by
      simp [isBreakingFooterLine_of_blank (by simpa using List.mem_takeWhile_imp hl)]
  have hany : rest.any isBreakingFooterLine =
      (rest.dropWhile fun line => trimSpace line == "").any isBreakingFooterLine := by
    conv_lhs => rw [← List.takeWhile_append_dropWhile (fun line => trimSpace line == "") rest]
    rw [List.any_append, hblank, Bool.false_or]
  rw [extractBodyAndFooters_of_splitLines hlines, hlines, List.drop_succ_cons, List.drop_zero, hany]
  cases rest.dropWhile fun line => trimSpace line == "" with
  | nil => simp
  | cons b bs => rfl

/-- When `extractBodyAndFooters` takes a body, the message is its title, the
blank lines after it and the body, joined by newlines, and the body's first
line is not blank; otherwise every line after the title is blank. -/
theorem extractBodyAndFooters_split (message : String) (result : ParsedCommit) :
    (extractBodyAndFooters message result = result ∧ ∀ line ∈ (splitLines message).drop 1, trimSpace line = "") ∨
      ∃ blank, (∀ line ∈ blank, trimSpace line = "") ∧
        trimSpace (extractTitle (extractBodyAndFooters message result).body) ≠ "" ∧
        message = "\n".intercalate (extractTitle message :: blank ++ [(extractBodyAndFooters message result).body]) := by
  obtain ⟨rest, hlines, hnl⟩ := splitLines_eq_cons message
  have hblank : ∀ line ∈ rest.takeWhile (fun line => trimSpace line == ""), trimSpace line = "" :=
    fun line hl => by simpa using List.mem_takeWhile_imp hl
  rw [extractBodyAndFooters_of_splitLines hlines, hlines, List.drop_succ_cons, List.drop_zero]
  cases hbody : rest.dropWhile fun line => trimSpace line == "" with
  | nil =>
    refine .inl ⟨rfl, ?_⟩
    rw [← List.takeWhile_append_dropWhile (fun line => trimSpace line == "") rest, hbody, List.append_nil]
    exact hblank
  | cons b bs =>
    have hb : ¬ trimSpace b = "" := by
      simpa [hbody] using List.head_dropWhile_not (fun line => trimSpace line == "") rest (by simp [hbody])
    have hbnl : '\n' ∉ b.data := hnl b ((hbody ▸ List.dropWhile_suffix _).mem (List.mem_cons_self b bs))
    have hjoin : message = "\n".intercalate (extractTitle message ::
        (rest.takeWhile (fun line => trimSpace line == "") ++ b :: bs)) := by
      rw [← hbody, List.takeWhile_append_dropWhile, ← hlines, intercalate_splitLines]
    refine .inr ⟨_, hblank, by simpa [extractTitle_intercalate hbnl] using hb, hjoin.trans ?_⟩
    apply String.ext
    simp [data_intercalate, intercalate_cons_data]

/-- The flag `Parse` reports when the machine read a commit is that
commit's own. -/
theorem parse_isBreakingChange_of_parseMessage (p : CommitParser) (isRevertCommit : String → Bool)
    {message : String} (hne : message ≠ "") (hrevert : isRevertCommit (extractTitle message) = false)
    {cc : ConventionalCommit} {result : ParsedCommit}
    (h : p.parseMessage message (extractTitle message) { raw := message, title := extractTitle message } =
      (.ok (some cc), result)) :
    (p.parse isRevertCommit message).isBreakingChange = cc.breaking := by
  rw [parse_of_not_revert p isRevertCommit hne hrevert, h]
  dsimp only
  split <;> exact fromCommit_isBreakingChange result cc

/-- On the fallback (the machine rejects the message over its trailers and
reads its title), the breaking-change flag `Parse` reports is the one the
title alone gets: what `extractBodyAndFooters` found in the body is
overwritten. -/
theorem parse_breaking_of_trailer_fallback (p : CommitParser) (isRevertCommit : String → Bool)
    {message err : String} {cc : ConventionalCommit} (hne : extractTitle message ≠ "")
    (hrevert : isRevertCommit (extractTitle message) = false) (hfull : p.machine message = .error err)
    (htrailer : containsStr err "trailer" = true) (htitle : p.machine (extractTitle message) = .ok (some cc)) :
    (p.parse isRevertCommit message).isBreakingChange =
      (p.parse isRevertCommit (extractTitle message)).isBreakingChange := by
  have hmessage : message ≠ "" := fun h => hne (by rw [h]; rfl)
  have htitle_title : extractTitle (extractTitle message) = extractTitle message := by
    apply String.ext
    simp [extractTitle, List.takeWhile_takeWhile]
  rw [parse_isBreakingChange_of_parseMessage p isRevertCommit hmessage hrevert
      (by simp only [CommitParser.parseMessage, hfull, htrailer, htitle, ↓reduceIte]; rfl),
    parse_isBreakingChange_of_parseMessage p isRevertCommit hne (by rw [htitle_title]; exact hrevert)
      (by simp only [CommitParser.parseMessage, htitle_title, htitle]; rfl)]

theorem parse_breaking_of_trailer_fallback_footer :
    let p : CommitParser := ⟨fun m => if m = "feat: drop v1 API" then .ok (some ⟨"feat", none, "drop v1 API",
      none, none, false⟩) else .error "missing trailer separator", ["feat", "fix"]⟩
    extractTitle "feat: drop v1 API\n\nBREAKING CHANGE: v1 is gone" ≠ "" ∧
      (fun _ => false) (extractTitle "feat: drop v1 API\n\nBREAKING CHANGE: v1 is gone") = false ∧
      p.machine "feat: drop v1 API\n\nBREAKING CHANGE: v1 is gone" = .error "missing trailer separator" ∧
      containsStr "missing trailer separator" "trailer" = true ∧
      p.machine (extractTitle "feat: drop v1 API\n\nBREAKING CHANGE: v1 is gone") =
        .ok (some ⟨"feat", none, "drop v1 API", none, none, false⟩) ∧
      (p.parse (fun _ => false) "feat: drop v1 API\n\nBREAKING CHANGE: v1 is gone").isBreakingChange =
        (p.parse (fun _ => false) (extractTitle "feat: drop v1 API\n\nBREAKING CHANGE: v1 is gone")).isBreakingChange :=
  ⟨by decide, rfl, rfl, by decide, rfl,
    @parse_breaking_of_trailer_fallback _ (fun _ => false) "feat: drop v1 API\n\nBREAKING CHANGE: v1 is gone"
      "missing trailer separator" ⟨"feat", none, "drop v1 API", none, none, false⟩ (by decide) rfl rfl (by decide) rfl⟩

/-! ## The title format -/

/-- `HasValidFormat`: `conventionalTitleRegex`, a type of word characters,
then what `afterType` scans. The character after `\w+` is `(`, `!` or `:`,
none a word character, so a match takes the longest run of them. -/
def hasValidFormat (title : String) : Bool :=
  !(title.data.takeWhile isWordChar).isEmpty && afterType (title.data.dropWhile isWordChar)

/-- What follows the type of a title in the format starts with `(`, `!` or
`:`. -/
theorem not_isWordChar_head {scope bang rest : List Char} (hscope : ScopePart scope)
    (hbang : bang = [] ∨ bang = ['!']) :
    ∃ c tail, scope ++ bang ++ ':' :: rest = c :: tail ∧ isWordChar c = false := by
  rcases hscope with rfl | ⟨s, rfl, -, -⟩ <;> rcases hbang with rfl | rfl <;> exact ⟨_, _, rfl, rfl⟩

/-- The titles `conventionalTitleRegex` matches. -/
theorem hasValidFormat_iff (title : String) :
    hasValidFormat title = true ↔
      ∃ type scope bang c rest, title.data = type ++ scope ++ bang ++ ':' :: ' ' :: c :: rest ∧
        type ≠ [] ∧ (∀ x ∈ type, isWordChar x = true) ∧ ScopePart scope ∧ (bang = [] ∨ bang = ['!']) ∧
        c ≠ '\n' := by
  simp only [hasValidFormat, Bool.and_eq_true, Bool.not_eq_true', List.isEmpty_eq_false, afterType_iff,
    colonDescription_iff]
  constructor
  · rintro ⟨htype, scope, _, hdrop, hscope, bang, c, rest, rfl, hbang, hc⟩
    refine ⟨_, scope, bang, c, rest, ?_, htype, fun x hx => List.mem_takeWhile_imp hx, hscope, hbang, hc⟩
    calc title.data = title.data.takeWhile isWordChar ++ title.data.dropWhile isWordChar :=
          (List.takeWhile_append_dropWhile _ _).symm
      _ = _ := by rw [hdrop]; simp
  · rintro ⟨type, scope, bang, c, rest, htitle, htype, hword, hscope, hbang, hc⟩
    obtain ⟨d, tail, hd, hdw⟩ := @not_isWordChar_head scope bang (' ' :: c :: rest) hscope hbang
    have hsplit : title.data = type ++ d :: tail := by rw [htitle, ← hd]; simp
    have hdrop : title.data.dropWhile isWordChar = d :: tail := by
      rw [hsplit, List.dropWhile_append_of_pos hword, List.dropWhile_cons_of_neg (by simp [hdw])]
    have htake : title.data.takeWhile isWordChar = type := by
      rw [hsplit, List.takeWhile_append_of_pos hword, List.takeWhile_cons_of_neg (by simp [hdw]), List.append_nil]
    refine ⟨htake ▸ htype, scope, bang ++ ':' :: ' ' :: c :: rest, ?_, hscope, bang, c, rest, rfl, hbang, hc⟩
    rw [hdrop, ← hd]
    simp

example : hasValidFormat "feat(api)!: add login" = true := by decide
example : hasValidFormat "feat: " = false := by decide

/-- When the valid types are words, every title the pull request title
check accepts has the conventional commit format. -/
theorem hasValidFormat_of_semanticMatches {validTypes : List String} {title : String} (hne : validTypes ≠ [])
    (hwords : ∀ t ∈ validTypes, t ≠ "" ∧ ∀ x ∈ t.data, isWordChar x = true)
    (h : semanticMatches validTypes title = true) : hasValidFormat title = true := by
  obtain ⟨t, ht, scope, bang, c, rest, htitle, hscope, hbang, hc⟩ := (semanticMatches_iff validTypes title).mp h
  have ht' : t ∈ validTypes := by
    simpa [typeAlternatives, List.isEmpty_iff, hne] using ht
  obtain ⟨htne, hword⟩ := hwords t ht'
  exact (hasValidFormat_iff title).mpr ⟨t.data, scope, bang, c, rest, htitle,
    fun h => htne (String.ext h), hword, hscope, hbang, hc⟩

theorem hasValidFormat_of_semanticMatches_feat :
    ["feat", "fix", "chore"] ≠ [] ∧
      (∀ t ∈ ["feat", "fix", "chore"], t ≠ "" ∧ ∀ x ∈ t.data, isWordChar x = true) ∧
      semanticMatches ["feat", "fix", "chore"] "fix(auth/login): handle expiry" = true ∧
      hasValidFormat "fix(auth/login): handle expiry" = true :=
  ⟨by decide, by decide, by decide, @hasValidFormat_of_semanticMatches ["feat", "fix", "chore"]
    "fix(auth/login): handle expiry" (by decide) (by decide) (by decide)⟩

end ClaudeHooks.Validators
