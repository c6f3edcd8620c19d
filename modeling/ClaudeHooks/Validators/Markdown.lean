import Mathlib.Data.List.Basic

/-!
# Validators — the Markdown analyzer

`MarkdownValidator.analyzeMarkdown` (`src/unnamed/part_001`, lines 84–230)
scans a text line by line with `bufio.Scanner`, tracks whether it is inside
a fenced code block, and warns about a missing empty line before a code
block, before the first item of a list, and after a header.

The regular expressions are written out as character tests (`[[:space:]]`
is the ASCII space class). A warning is kept as a `Warning` value and
`Warning.lines` renders it to the strings the code appends, so the model
returns the same `[]string`.

The loop skips line 1 before it looks at fences, and a closing fence falls
through to the list and header checks. `analyze_warnings_placed` states the
resulting invariant: after line `k` the loop is inside a block iff the
fence lines among lines `2..k` are odd in number.
-/

namespace ClaudeHooks.Validators

/-! ## Lines -/

/-- `bufio.ScanLines`' `dropCR`: drop one trailing carriage return. -/
def dropCR (line : List Char) : List Char :=
  if line.getLast? = some '\r' then line.dropLast else line

/-- The pieces of a text between newline characters. -/
def splitNewlines : List Char → List (List Char)
  | [] => [[]]
  | c :: cs =>
    if c = '\n' then [] :: splitNewlines cs
    else match splitNewlines cs with
      | l :: ls => (c :: l) :: ls
      | [] => [[c]]

/-- `bufio.NewScanner(strings.NewReader(content))` with `ScanLines`: the
lines between newlines, each without a trailing `\r`, and no empty token
after a final newline. The scanner's 64 KiB token limit is not modelled. -/
def scanLines (content : String) : List String :=
  let pieces := splitNewlines content.data
  let pieces := if pieces.getLast? = some [] then pieces.dropLast else pieces
  pieces.map fun l => String.mk (dropCR l)

/-! ## Line classes -/

/-- `[[:space:]]`: space, tab, newline, vertical tab, form feed, carriage
return. -/
def isSpace (c : Char) : Bool :=
  c = ' ' || c = '\t' || c = '\n' || c = '\x0b' || c = '\x0c' || c = '\r'

/-- Three backquotes. -/
def fence : List Char := ['\x60', '\x60', '\x60']

/-- `isCodeBlockMarker`: `codeBlockRegex`, a line starting with three
backquotes. -/
def isCodeBlockMarker (line : String) : Bool := fence.isPrefixOf line.data

/-- `listItemRegex`: `^[[:space:]]*[-*+][[:space:]]` or
`^[[:space:]]*[0-9]+\.[[:space:]]`. -/
def isListItem (line : String) : Bool :=
  let rest := line.data.dropWhile isSpace
  let bullet := match rest with
    | c :: d :: _ => (c = '-' || c = '*' || c = '+') && isSpace d
    | _ => false
  let numbered := !(rest.takeWhile Char.isDigit).isEmpty &&
    match rest.dropWhile Char.isDigit with
    | '.' :: d :: _ => isSpace d
    | _ => false
  bullet || numbered

/-- `isHeader`: `headerRegex`, `^#+[[:space:]]`. -/
def isHeader (line : String) : Bool :=
  match line.data with
  | '#' :: rest =>
    match rest.dropWhile (· = '#') with
    | d :: _ => isSpace d
    | [] => false
  | _ => false

/-- `isComment`: `commentRegex`, `^<!--`. -/
def isComment (line : String) : Bool := "<!--".data.isPrefixOf line.data

/-- `isEmptyLine`: `emptyLineRegex`, `^[[:space:]]*$`. -/
def isEmptyLine (line : String) : Bool := line.data.all isSpace

/-! ## Warnings -/

/-- `maxTruncateLength`. -/
def maxTruncateLength : Nat := 60

/-- The longest prefix of whole characters within a byte budget. -/
def takeBytes : Nat → List Char → List Char
  | _, [] => []
  | n, c :: cs => if c.utf8Size ≤ n then c :: takeBytes (n - c.utf8Size) cs else []

/-- `truncate`: at most `maxTruncateLength` bytes. Go's `s[:60]` may cut a
multi-byte character; here that character is dropped whole. -/
def truncate (s : String) : String :=
  if s.utf8ByteSize ≤ maxTruncateLength then s else String.mk (takeBytes maxTruncateLength s.data)

/-- A warning the analyzer issues, with the line number it reports. -/
inductive Warning where
  | codeBlock (lineNum : Nat) (prevLine : String)
  | listItem (lineNum : Nat) (prevLine : String)
  | header (lineNum : Nat) (header nextLine : String)
  deriving DecidableEq, Repr

/-- A text between single quotes. -/
def quoted (s : String) : String := "\x27" ++ truncate s ++ "\x27"

/-- The strings `fmt.Sprintf` appends for a warning. -/
def Warning.lines : Warning → List String
  | .codeBlock n prev =>
    ["⚠️  Line " ++ toString n ++ ": Code block should have empty line before it",
     "   Previous line: " ++ quoted prev]
  | .listItem n prev =>
    ["⚠️  Line " ++ toString n ++ ": First list item should have empty line before it",
     "   Previous line: " ++ quoted prev]
  | .header n hdr next =>
    ["⚠️  Line " ++ toString n ++ ": Header should have empty line after it",
     "   Header: " ++ quoted hdr,
     "   Next line: " ++ quoted next]

/-! ## The checks -/

/-- `checkCodeBlock`: the new `inCodeBlock` and the warning of an opening
fence with a non-empty line before it. -/
def checkCodeBlock (line prevLine : String) (lineNum : Nat) (inCodeBlock : Bool) :
    Bool × List Warning :=
  if !isCodeBlockMarker line then (inCodeBlock, [])
  else if !inCodeBlock then
    (true, if !isEmptyLine prevLine && prevLine ≠ "" then [.codeBlock lineNum prevLine] else [])
  else (false, [])

/-- `shouldWarnAboutListSpacing`. -/
def shouldWarnAboutListSpacing (prevLine : String) : Bool :=
  !isEmptyLine prevLine && prevLine ≠ "" && !isListItem prevLine && !isHeader prevLine

/-- `checkListItem`. -/
def checkListItem (line prevLine : String) (lineNum : Nat) : List Warning :=
  if !isListItem line then []
  else if shouldWarnAboutListSpacing prevLine then [.listItem lineNum prevLine] else []

/-- `shouldWarnAboutHeaderSpacing`. -/
def shouldWarnAboutHeaderSpacing (line : String) : Bool :=
  line ≠ "" && !isEmptyLine line && !isHeader line && !isComment line && !isListItem line

/-- `checkHeader`: the warning names the header's line, `lineNum - 1`. -/
def checkHeader (line prevLine : String) (lineNum : Nat) : List Warning :=
  if !isHeader prevLine then []
  else if shouldWarnAboutHeaderSpacing line then [.header (lineNum - 1) prevLine line] else []

/-! ## The loop -/

/-- The loop's variables. -/
structure ScanState where
  lineNum : Nat
  prevLine : String
  inCodeBlock : Bool
  warnings : List Warning

/-- One iteration of the `for scanner.Scan()` loop. -/
def ScanState.step (s : ScanState) (line : String) : ScanState :=
  let lineNum := s.lineNum + 1
  if lineNum = 1 then ⟨lineNum, line, s.inCodeBlock, s.warnings⟩
  else
    let (inCodeBlock, w) := checkCodeBlock line s.prevLine lineNum s.inCodeBlock
    if inCodeBlock then ⟨lineNum, line, inCodeBlock, s.warnings ++ w⟩
    else ⟨lineNum, line, inCodeBlock,
      s.warnings ++ w ++ checkListItem line s.prevLine lineNum ++
        checkHeader line s.prevLine lineNum⟩

/-- The state before the first line. -/
def ScanState.init : ScanState := ⟨0, "", false, []⟩

/-- The loop over a list of lines. -/
def analyze (lines : List String) : List Warning :=
  (lines.foldl ScanState.step .init).warnings

/-- `analyzeMarkdown`. -/
def analyzeMarkdown (content : String) : List String :=
  (analyze (scanLines content)).flatMap Warning.lines

/-- A fence on line 1 is not tracked, so the next fence opens a block and the
lines between are checked; and the closing fence of a block is checked
against the block's last line as the line after a header. -/
theorem analyzeMarkdown_fence_bugs :
    analyzeMarkdown "```\n# h\ntext\n```" =
      ["⚠️  Line 2: Header should have empty line after it", "   Header: \x27# h\x27",
       "   Next line: \x27text\x27",
       "⚠️  Line 4: Code block should have empty line before it",
       "   Previous line: \x27text\x27"] ∧
    analyzeMarkdown "x\n\n```sh\n# comment\n```" =
      ["⚠️  Line 4: Header should have empty line after it", "   Header: \x27# comment\x27",
       "   Next line: \x27```\x27"] := by
  decide

/-! ## Where warnings can be issued -/

/-- The fence lines among lines `2..k` (the loop never looks at line 1). -/
def fencesUpTo (lines : List String) (k : Nat) : Nat :=
  (((lines.take k).drop 1).filter isCodeBlockMarker).length

/-- Where a warning may sit in `lines`: a code-block warning on a fence
line that leaves an odd number of fences among lines `2..n`; a list
warning on a list item that leaves an even number; a header warning on a
header whose next line leaves an even number. The previous or next line is
the one the warning quotes. -/
def Warning.Placed (lines : List String) : Warning → Prop
  | .codeBlock n prev => 2 ≤ n ∧ (∃ line, lines[n - 1]? = some line ∧ isCodeBlockMarker line) ∧
      fencesUpTo lines n % 2 = 1 ∧ lines[n - 2]? = some prev
  | .listItem n prev => 2 ≤ n ∧ (∃ line, lines[n - 1]? = some line ∧ isListItem line) ∧
      fencesUpTo lines n % 2 = 0 ∧ lines[n - 2]? = some prev
  | .header n hdr next => 1 ≤ n ∧ lines[n - 1]? = some hdr ∧ isHeader hdr ∧
      lines[n]? = some next ∧ fencesUpTo lines (n + 1) % 2 = 0

/-- The loop invariant after the lines `pre`. -/
structure ScanState.Inv (pre : List String) (s : ScanState) : Prop where
  lineNum : s.lineNum = pre.length
  prevLine : pre ≠ [] → pre.getLast? = some s.prevLine
  inCodeBlock : s.inCodeBlock = (fencesUpTo pre pre.length % 2 == 1)
  placed : ∀ w ∈ s.warnings, w.Placed pre

theorem fencesUpTo_length_succ {pre : List String} (h : pre ≠ []) (x : String) :
    fencesUpTo (pre ++ [x]) (pre.length + 1) =
      fencesUpTo pre pre.length + if isCodeBlockMarker x then 1 else 0 := by
  have ht : (pre ++ [x]).take (pre.length + 1) = pre ++ [x] := List.take_of_length_le (by simp)
  rw [fencesUpTo, fencesUpTo, ht, List.take_length,
    List.drop_append_of_le_length (List.length_pos.mpr h), List.filter_append, List.length_append]
  by_cases hx : isCodeBlockMarker x <;> simp [hx]

theorem fencesUpTo_append {pre : List String} {n : Nat} (h : n ≤ pre.length) (l : List String) :
    fencesUpTo (pre ++ l) n = fencesUpTo pre n := by
  simp only [fencesUpTo, List.take_append_of_le_length h]

/-- A warning placed in a prefix stays placed in every extension. -/
theorem Warning.Placed.append {pre : List String} {w : Warning} (h : w.Placed pre)
    (l : List String) : w.Placed (pre ++ l) := by
  have get : ∀ {i : Nat} {y : String}, pre[i]? = some y → (pre ++ l)[i]? = some y := fun h' =>
    (List.getElem?_append_left (List.getElem?_eq_some_iff.mp h').1) ▸ h'
  have lt : ∀ {i : Nat} {y : String}, pre[i]? = some y → i < pre.length := fun h' =>
    (List.getElem?_eq_some_iff.mp h').1
  match w, h with
  | .codeBlock n prev, ⟨h2, ⟨line, hl, hm⟩, hodd, hp⟩ =>
    exact ⟨h2, ⟨line, get hl, hm⟩, by rw [fencesUpTo_append (by have := lt hl; omega)]; exact hodd,
      get hp⟩
  | .listItem n prev, ⟨h2, ⟨line, hl, hm⟩, hev, hp⟩ =>
    exact ⟨h2, ⟨line, get hl, hm⟩, by rw [fencesUpTo_append (by have := lt hl; omega)]; exact hev,
      get hp⟩
  | .header n hdr next, ⟨h1, hh, hhd, hn, hev⟩ =>
    exact ⟨h1, get hh, hhd, get hn, by rw [fencesUpTo_append (lt hn)]; exact hev⟩

/-! ## One iteration, then the loop -/

theorem checkCodeBlock_fst (line prevLine : String) (lineNum : Nat) (inCodeBlock : Bool) :
    (checkCodeBlock line prevLine lineNum inCodeBlock).1 =
      (inCodeBlock != isCodeBlockMarker line) := by
  unfold checkCodeBlock
  cases isCodeBlockMarker line <;> cases inCodeBlock <;> rfl

theorem mem_checkCodeBlock_snd {line prevLine : String} {lineNum : Nat} {inCodeBlock : Bool}
    {w : Warning} (h : w ∈ (checkCodeBlock line prevLine lineNum inCodeBlock).2) :
    w = .codeBlock lineNum prevLine ∧ isCodeBlockMarker line ∧ inCodeBlock = false := by
  unfold checkCodeBlock at h
  cases hm : isCodeBlockMarker line <;> cases hb : inCodeBlock <;> simp_all

/-- An iteration after the first: the fence check, then the list and header
checks unless the line leaves the loop inside a block. -/
theorem ScanState.step_of_ne {s : ScanState} (h : s.lineNum ≠ 0) (line : String) :
    s.step line =
      let c := checkCodeBlock line s.prevLine (s.lineNum + 1) s.inCodeBlock
      ⟨s.lineNum + 1, line, c.1, s.warnings ++ c.2 ++
        if c.1 then [] else checkListItem line s.prevLine (s.lineNum + 1) ++
          checkHeader line s.prevLine (s.lineNum + 1)⟩ := by
  have hne : s.lineNum + 1 ≠ 1 := by omega
  simp only [ScanState.step, hne, if_false]
  cases (checkCodeBlock line s.prevLine (s.lineNum + 1) s.inCodeBlock).1 <;> simp

theorem getElem?_snoc_getLast {pre : List String} {prev : String}
    (hprev : pre.getLast? = some prev) (x : String) : (pre ++ [x])[pre.length - 1]? = some prev := by
  have h1 : pre.length - 1 < pre.length := by
    have := List.length_pos.mpr (List.getLast?_isSome.mp (by rw [hprev]; rfl)); omega
  rw [List.getElem?_append_left h1, ← List.getLast?_eq_getElem?]
  exact hprev

/-- The warning of an opening fence, `n` lines in. -/
theorem placed_codeBlock {pre : List String} {prev x : String} (hprev : pre.getLast? = some prev)
    (hm : isCodeBlockMarker x) (hodd : fencesUpTo (pre ++ [x]) (pre.length + 1) % 2 = 1) :
    (Warning.codeBlock (pre.length + 1) prev).Placed (pre ++ [x]) := by
  have h1 : 1 ≤ pre.length :=
    List.length_pos.mpr (List.getLast?_isSome.mp (by rw [hprev]; rfl))
  exact ⟨by omega, ⟨x, by simp, hm⟩, hodd, getElem?_snoc_getLast hprev x⟩

/-- The list and header checks of a line that leaves the loop outside a
block place their warnings. -/
theorem placed_checks {pre : List String} {prev x : String} (hprev : pre.getLast? = some prev)
    (heven : fencesUpTo (pre ++ [x]) (pre.length + 1) % 2 = 0) :
    ∀ w ∈ checkListItem x prev (pre.length + 1) ++ checkHeader x prev (pre.length + 1),
      w.Placed (pre ++ [x]) := by
  have h1 : 1 ≤ pre.length :=
    List.length_pos.mpr (List.getLast?_isSome.mp (by rw [hprev]; rfl))
  have hp := getElem?_snoc_getLast hprev x
  intro w hw
  rcases List.mem_append.mp hw with hw | hw
  · unfold checkListItem at hw
    by_cases hl : isListItem x <;> by_cases hs : shouldWarnAboutListSpacing prev <;>
      simp [hl, hs] at hw
    subst hw
    exact ⟨by omega, ⟨x, by simp, hl⟩, heven, hp⟩
  · unfold checkHeader at hw
    by_cases hh : isHeader prev <;> by_cases hs : shouldWarnAboutHeaderSpacing x <;>
      simp [hh, hs] at hw
    subst hw
    exact ⟨by omega, hp, hh, by simp, heven⟩

theorem ScanState.Inv.step {pre : List String} {s : ScanState} (h : s.Inv pre) (x : String) :
    (s.step x).Inv (pre ++ [x]) := by
  by_cases hpre : pre = []
  · subst hpre
    have h0 : s.lineNum = 0 := h.lineNum
    have hin : s.inCodeBlock = false := by simpa [fencesUpTo] using h.inCodeBlock
    simp only [ScanState.step, h0]
    exact ⟨rfl, fun _ => rfl, by simp [hin, fencesUpTo], fun w hw => (h.placed w hw).append [x]⟩
  · have hlen : s.lineNum ≠ 0 := by rw [h.lineNum]; exact (List.length_pos.mpr hpre).ne'
    have hprev := h.prevLine hpre
    have hcount := fencesUpTo_length_succ hpre x
    have hin := h.inCodeBlock
    have hfst := checkCodeBlock_fst x s.prevLine (s.lineNum + 1) s.inCodeBlock
    have hpar : (fencesUpTo (pre ++ [x]) (pre.length + 1) % 2 == 1) =
        (s.inCodeBlock != isCodeBlockMarker x) := by
      rw [hcount, hin]
      generalize isCodeBlockMarker x = m
      rcases Nat.mod_two_eq_zero_or_one (fencesUpTo pre pre.length) with h | h <;> cases m <;>
        simp [Nat.add_mod, h]
    rw [ScanState.step_of_ne hlen]
    dsimp only
    rw [hfst, h.lineNum]
    refine ⟨by simp, fun _ => by simp, by simpa using hpar.symm, fun w hw => ?_⟩
    simp only [List.mem_append] at hw
    rcases hw with (hw | hw) | hw
    · exact (h.placed w hw).append [x]
    · obtain ⟨rfl, hm, hb⟩ := mem_checkCodeBlock_snd hw
      refine placed_codeBlock hprev hm ?_
      simpa [hb, hm] using hpar
    · split at hw
      · cases hw
      · rename_i hc
        refine placed_checks hprev ?_ w hw
        simpa [hc] using hpar

theorem ScanState.Inv.foldl {pre : List String} {s : ScanState} (h : s.Inv pre) :
    ∀ l : List String, (l.foldl ScanState.step s).Inv (pre ++ l)
  | [] => by simpa using h
  | x :: l => by
    rw [List.foldl_cons, ← List.singleton_append, ← List.append_assoc]
    exact (h.step x).foldl l

theorem ScanState.inv_init : ScanState.init.Inv [] :=
  ⟨rfl, fun h => absurd rfl h, rfl, fun _ h => by cases h⟩

/-- Every warning sits where fence parity counted from line 2 allows: a
code-block warning only at a fence that opens a block, a list warning only
at a list item outside every block, a header warning only when the line
after the header leaves the loop outside every block. -/
theorem analyze_warnings_placed (lines : List String) : ∀ w ∈ analyze lines, w.Placed lines :=
  (ScanState.inv_init.foldl lines).placed

theorem analyze_warnings_placed_fence :
    Warning.codeBlock 2 "x" ∈ analyze ["x", "```"] ∧
      (Warning.codeBlock 2 "x").Placed ["x", "```"] :=
  ⟨by decide, analyze_warnings_placed _ _ (by decide)⟩

example : analyzeMarkdown "Some text\n```bash\ncode\n```" =
    ["⚠️  Line 2: Code block should have empty line before it",
     "   Previous line: \x27Some text\x27"] := by
  decide

end ClaudeHooks.Validators
