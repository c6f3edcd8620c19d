import ClaudeHooks.Rules.Pattern
import Mathlib.Data.List.Perm.Basic

/-!
# Parser — commands

`pkg/parser` as far as the source has it: the `Command` a parsed Bash line
is cut into, its two renderings, and the conversion of shell words to
arguments. The Bash parser (`mvdan.cc/sh`) and `ParseGitCommand` are not in
the source. A word is given by its parts; the validators are given the two
parsers' results (`Parsers`), and a parsed git command by what they ask of
it (`GitCommand`).

The first section holds the `strings` functions the git validators and the
configuration sources apply to text: `Split` on a newline, `Join`, and
`TrimSpace` with `unicode.IsSpace`.

`wordsToStrings` keeps, in order, the words that render non-empty
(`wordsToStrings_eq_filter`). A word made only of expansions (`"$MSG"`,
`$(cat f)`) renders empty, so it adds no argument and the words after it
move up (`wordsToStrings_drops_expansion_word`).
-/

namespace ClaudeHooks.Parser

open ClaudeHooks.Rules (GoError)

/-! ## Go strings -/

/-- `unicode.IsSpace`: the Latin-1 spaces, then the rest of Unicode's
`White_Space`. -/
def isGoSpace (c : Char) : Bool :=
  let n := c.toNat
  n = 9 || n = 10 || n = 11 || n = 12 || n = 13 || n = 32 || n = 0x85 || n = 0xA0 ||
    n = 0x1680 || (0x2000 ≤ n && n ≤ 0x200A) || n = 0x2028 || n = 0x2029 || n = 0x202F ||
    n = 0x205F || n = 0x3000

/-- `strings.TrimSpace`. -/
def trimSpace (s : String) : String :=
  ⟨((s.data.dropWhile isGoSpace).reverse.dropWhile isGoSpace).reverse⟩

/-- `strings.Split(s, "\n")`. -/
def splitLines (s : String) : List String :=
  (s.data.splitOn '\n').map String.mk

theorem intercalate_go_data (acc sep : String) (l : List String) :
    (String.intercalate.go acc sep l).data = acc.data ++ (l.map fun a => sep.data ++ a.data).flatten := by
  induction l generalizing acc with
  | nil => simp [String.intercalate.go]
  | cons a as ih => simp [String.intercalate.go, ih]

theorem intercalate_cons_data {α : Type} (sep a : List α) (l : List (List α)) :
    sep.intercalate (a :: l) = a ++ (l.map (sep ++ ·)).flatten := by
  induction l generalizing a with
  | nil => simp [List.intercalate]
  | cons b l ih => simp [List.intercalate, List.intersperse_cons_cons] at ih ⊢; simp [ih]

/-- `strings.Join`, on characters. -/
theorem data_intercalate (sep : String) (l : List String) :
    (sep.intercalate l).data = sep.data.intercalate (l.map String.data) := by
  cases l with
  | nil => rfl
  | cons a l => simp [String.intercalate, intercalate_go_data, intercalate_cons_data, Function.comp_def]

/-- Joining the lines again gives the text back. -/
theorem intercalate_splitLines (s : String) : "\n".intercalate (splitLines s) = s := by
  apply String.ext
  simpa [data_intercalate, splitLines, Function.comp_def] using List.intercalate_splitOn s.data '\n'

/-- Splitting lines joined by newlines gives them back, when none holds a
newline. -/
theorem splitLines_intercalate {lines : List String} (hne : lines ≠ []) (hnl : ∀ line ∈ lines, '\n' ∉ line.data) :
    splitLines ("\n".intercalate lines) = lines := by
  have hsplit := List.splitOn_intercalate (lines.map String.data) '\n' (by simpa using hnl) (by simpa using hne)
  simp only [splitLines, data_intercalate]
  simp [hsplit, Function.comp_def]

theorem getLast?_intercalate {α : Type} (sep : List α) {c : α} {ls : List (List α)} (hne : ls ≠ [])
    (h : ∀ l ∈ ls, l.getLast? = some c) : (sep.intercalate ls).getLast? = some c := by
  induction ls with
  | nil => contradiction
  | cons a l ih =>
    cases l with
    | nil => simpa [List.intercalate] using h a (List.mem_cons_self _ _)
    | cons b l =>
      have hI := ih (List.cons_ne_nil _ _) fun l' hl' => h l' (List.mem_cons_of_mem _ hl')
      rw [intercalate_cons_data] at hI
      rw [intercalate_cons_data, List.map_cons, List.flatten_cons, List.append_assoc]
      simp [List.getLast?_append, hI]

/-- Lines each ended by a separator are the lines joined by it, and one
more. -/
theorem flatten_map_append_singleton {α : Type} (x : α) {ls : List (List α)} (hne : ls ≠ []) :
    (ls.map (· ++ [x])).flatten = [x].intercalate ls ++ [x] := by
  induction ls with
  | nil => contradiction
  | cons a l ih =>
    cases l with
    | nil => simp [List.intercalate]
    | cons b l =>
      rw [List.map_cons, List.flatten_cons, ih (List.cons_ne_nil _ _), intercalate_cons_data,
        intercalate_cons_data]
      simp

/-- Text that starts and ends with a non-space, followed by spaces, trims to
itself. -/
theorem trimSpace_append_spaces {cs ws : List Char} (hhead : ∀ c ∈ cs.head?, isGoSpace c = false)
    (hlast : ∀ c ∈ cs.getLast?, isGoSpace c = false) (hws : ∀ c ∈ ws, isGoSpace c = true) :
    trimSpace ⟨cs ++ ws⟩ = ⟨cs⟩ := by
  unfold trimSpace
  congr 1
  rcases cs.eq_nil_or_concat with rfl | ⟨init, d, rfl⟩
  · simp [List.dropWhile_eq_nil_iff.mpr hws]
  · obtain ⟨c, rest, hcs⟩ : ∃ c rest, init.concat d = c :: rest := by cases init <;> simp
    have hc : isGoSpace c = false := hhead c (by rw [hcs]; rfl)
    have hd : isGoSpace d = false := hlast d (by simp)
    rw [hcs, List.cons_append, List.dropWhile_cons_of_neg (by simp [hc]), ← List.cons_append, ← hcs]
    rw [List.reverse_append, List.dropWhile_append_of_pos (by simpa using hws)]
    simp [hd]

/-! ## Go maps

A Go map is given by its entries, in the order a range over it visits them;
its keys are distinct. -/

theorem mem_of_lookup_eq_some {β : Type} {l : List (String × β)} {k : String} {v : β}
    (h : l.lookup k = some v) : (k, v) ∈ l := by
  induction l with
  | nil => simp at h
  | cons e l ih =>
    obtain ⟨k', v'⟩ := e
    by_cases hk : k = k'
    · subst hk
      simp only [List.lookup_cons, beq_self_eq_true, Option.some.injEq] at h
      simp [h]
    · have hbeq : (k == k') = false := by simpa using hk
      simp only [List.lookup_cons, hbeq] at h
      exact List.mem_cons_of_mem _ (ih h)

theorem lookup_eq_some_iff {β : Type} {l : List (String × β)} (h : (l.map (·.1)).Nodup) {k : String} {v : β} :
    l.lookup k = some v ↔ (k, v) ∈ l := by
  refine ⟨mem_of_lookup_eq_some, fun hm => ?_⟩
  induction l with
  | nil => simp at hm
  | cons e l ih =>
    obtain ⟨k', v'⟩ := e
    simp only [List.map_cons, List.nodup_cons, List.mem_map] at h
    by_cases hk : k = k'
    · subst hk
      have hnot : (k, v) ∉ l := fun hm' => h.1 ⟨(k, v), hm', rfl⟩
      simp_all [List.lookup_cons]
    · have hbeq : (k == k') = false := by simpa using hk
      simp only [List.lookup_cons, hbeq]
      exact ih h.2 (by simp_all)

/-- Two range orders of one map look every key up alike. -/
theorem lookup_eq_of_perm {β : Type} {l₁ l₂ : List (String × β)} (h : (l₁.map (·.1)).Nodup) (hp : l₁.Perm l₂)
    (k : String) : l₁.lookup k = l₂.lookup k := by
  have h₂ : (l₂.map (·.1)).Nodup := (hp.map _).nodup_iff.mp h
  exact Option.ext fun v => by
    simp only [Option.mem_def, lookup_eq_some_iff h, lookup_eq_some_iff h₂, hp.mem_iff]

/-- A key is in a map exactly when looking it up finds a value. -/
theorem lookup_isSome_iff {β : Type} {l : List (String × β)} {k : String} :
    (l.lookup k).isSome ↔ k ∈ l.map (·.1) := by
  induction l with
  | nil => simp
  | cons e l ih =>
    obtain ⟨k', v⟩ := e
    by_cases hk : k = k'
    · simp [List.lookup_cons, hk]
    · simp [List.lookup_cons, beq_false_of_ne hk, ih, hk]

/-! ## Commands -/

/-- `Command`, with the two fields the renderings and the validators read:
the command name and its arguments. -/
structure Command where
  name : String
  args : List String
  deriving DecidableEq, Repr

/-- `Command.String`. -/
def Command.string (c : Command) : String :=
  if c.args.isEmpty then c.name else c.name ++ " " ++ " ".intercalate c.args

/-- `Command.FullCommand`. -/
def Command.fullCommand (c : Command) : List String := c.name :: c.args

/-! ## Words -/

/-- A part of a double-quoted string: a literal, or an expansion (`$x`,
`$(cmd)`, `$((n))`). -/
inductive DqPart where
  | lit (value : String)
  | expansion
  deriving DecidableEq, Repr

/-- A part of a shell word (`syntax.WordPart`): a literal, a single- or
double-quoted string, or another part (an unquoted expansion, a process
substitution, an extended glob). -/
inductive WordPart where
  | lit (value : String)
  | sglQuoted (value : String)
  | dblQuoted (parts : List DqPart)
  | other
  deriving DecidableEq, Repr

/-- What `wordToString` writes for a part inside double quotes. -/
def DqPart.toString : DqPart → String
  | .lit value => value
  | .expansion => ""

/-- What `wordToString` writes for a part. -/
def WordPart.toString : WordPart → String
  | .lit value => value
  | .sglQuoted value => value
  | .dblQuoted parts => String.join (parts.map DqPart.toString)
  | .other => ""

/-- `wordToString`; a nil word is `none`. -/
def wordToString : Option (List WordPart) → String
  | none => ""
  | some parts => String.join (parts.map WordPart.toString)

/-- `wordsToStrings`. -/
def wordsToStrings (words : List (Option (List WordPart))) : List String :=
  words.foldl (fun result word => let s := wordToString word; if s ≠ "" then result ++ [s] else result) []

theorem wordsToStrings_eq_filter (words : List (Option (List WordPart))) :
    wordsToStrings words = (words.map wordToString).filter (· ≠ "") := by
  suffices ∀ acc, words.foldl (fun result word => let s := wordToString word;
      if s ≠ "" then result ++ [s] else result) acc = acc ++ (words.map wordToString).filter (· ≠ "") from
    (this []).trans (List.nil_append _)
  induction words with
  | nil => simp
  | cons w ws ih =>
    intro acc
    rw [List.foldl_cons, ih, List.map_cons, List.filter_cons]
    by_cases hw : wordToString w = "" <;> simp [hw]

/-- `String.join`, on characters. -/
theorem data_join (l : List String) : (String.join l).data = (l.map String.data).flatten := by
  suffices ∀ acc : String, (l.foldl (· ++ ·) acc).data = acc.data ++ (l.map String.data).flatten from this ""
  induction l with
  | nil => simp
  | cons s l ih => intro acc; simp [ih]

theorem string_join_eq_empty {l : List String} (h : ∀ s ∈ l, s = "") : String.join l = "" := by
  apply String.ext
  simp only [data_join, List.flatten_eq_nil_iff, List.mem_map]
  rintro _ ⟨s, hs, rfl⟩
  rw [h s hs]

/-- A word whose parts are all expansions renders empty. -/
theorem wordToString_of_expansions {parts : List WordPart}
    (h : ∀ p ∈ parts, p = .other ∨ ∃ dq, p = .dblQuoted dq ∧ ∀ d ∈ dq, d = .expansion) :
    wordToString (some parts) = "" := by
  refine string_join_eq_empty fun s hs => ?_
  obtain ⟨p, hp, rfl⟩ := List.mem_map.mp hs
  obtain rfl | ⟨dq, rfl, hdq⟩ := h p hp
  · rfl
  · refine string_join_eq_empty fun s hs => ?_
    obtain ⟨d, hd, rfl⟩ := List.mem_map.mp hs
    rw [hdq d hd]
    rfl

/-- A word that renders empty is not an argument: the arguments are those of
the words around it. -/
theorem wordsToStrings_of_wordToString_eq_empty (pre post : List (Option (List WordPart)))
    {word : Option (List WordPart)} (h : wordToString word = "") :
    wordsToStrings (pre ++ word :: post) = wordsToStrings (pre ++ post) := by
  simp [wordsToStrings_eq_filter, List.filter_cons, h]

/-- An argument made only of expansions, such as `"$MSG"` or `$(cat f)`,
is dropped from the command's arguments: the words after it move up. -/
theorem wordsToStrings_drops_expansion_word (pre post : List (Option (List WordPart))) {parts : List WordPart}
    (h : ∀ p ∈ parts, p = .other ∨ ∃ dq, p = .dblQuoted dq ∧ ∀ d ∈ dq, d = .expansion) :
    wordsToStrings (pre ++ some parts :: post) = wordsToStrings (pre ++ post) :=
  wordsToStrings_of_wordToString_eq_empty pre post (wordToString_of_expansions h)

theorem wordsToStrings_drops_expansion_word_message :
    (∀ p ∈ [WordPart.dblQuoted [.expansion]], p = .other ∨ ∃ dq, p = .dblQuoted dq ∧ ∀ d ∈ dq, d = .expansion) ∧
      wordsToStrings [some [.lit "git"], some [.lit "commit"], some [.lit "-m"], some [.dblQuoted [.expansion]]] =
        ["git", "commit", "-m"] :=
  ⟨by simp, (wordsToStrings_drops_expansion_word [some [.lit "git"], some [.lit "commit"], some [.lit "-m"]] []
    (by simp)).trans rfl⟩

/-! ## What the validators are given -/

/-- A parsed git command (`parser.GitCommand`, not in the source), by what
the validators ask of it: its subcommand, its arguments, whether a flag is
present, and a flag's value (empty when it has none). -/
structure GitCommand where
  subcommand : String
  args : List String
  hasFlag : String → Bool
  getFlagValue : String → String

/-- The parsers the validators call: `BashParser.Parse`, giving the
commands of a line or an error, and `ParseGitCommand`. -/
structure Parsers where
  parseBash : String → Except GoError (List Command)
  parseGitCommand : Command → Except GoError GitCommand

end ClaudeHooks.Parser
