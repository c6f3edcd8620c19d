import Mathlib.Data.List.Infix

/-!
# Rules — Pattern

`internal/rules/pattern.go`, first half: the glob-or-regex detection
heuristic (`DetectPatternType`), the two compiled-pattern wrappers
(`GlobPattern`, `RegexPattern`) and `CompilePattern`, which routes a text
to one of them.

The LIBRARIES the rules engine calls (gobwas/glob compiled with separator
`'/'`, Go's `regexp`, and the case-folding table of Go's `unicode` that
`strings.EqualFold` reads) are not part of this repository. The model
takes them as an `Engines` record: each pattern engine turns a text into
its compiled matcher or its compile error, and `simpleFold` is
`unicode.SimpleFold`. Every result below holds for all engines, so nothing
depends on what either pattern library accepts or on the Unicode version.
-/

namespace ClaudeHooks.Rules

/-- A Go `error` value, by its message. -/
structure GoError where
  message : String
  deriving DecidableEq, Repr

/-- `errors.Wrap(err, msg)`: the message becomes `msg: cause`. -/
def GoError.wrap (err : GoError) (msg : String) : GoError :=
  ⟨msg ++ ": " ++ err.message⟩

/-- `PatternType` (`PatternTypeGlob`, `PatternTypeRegex`). -/
inductive PatternType where
  | glob
  | regex
  deriving DecidableEq, Repr

/-- `regexIndicators`, in the source's order. -/
def regexIndicators : List String :=
  ["^", "$", "(?", "\\d", "\\w", "\\s", "\\b", "[", "]", "(", ")", "|", "+",
    ".*", ".+", "\\."]

/-- `strings.Contains(s, substr)`. -/
def containsStr (s substr : String) : Bool :=
  decide (substr.toList <:+: s.toList)

/-- `DetectPatternType`: the loop over `regexIndicators` returns
`PatternTypeRegex` at the first indicator the text contains. -/
def detectPatternType (pattern : String) : PatternType :=
  if regexIndicators.any (containsStr pattern) then .regex else .glob

example : detectPatternType "{main,master}" = .glob := by decide
example : detectPatternType "(?i)case-insensitive" = .regex := by decide

/-- The libraries: `regexp.Compile` and `glob.Compile(pattern, '/')`,
each giving the compiled matcher of a text or the library's error, and
`unicode.SimpleFold`, the next rune of a rune's simple case-folding orbit
(the least larger one, else the least). -/
structure Engines where
  regexpCompile : String → Except GoError (String → Bool)
  globCompile : String → Except GoError (String → Bool)
  simpleFold : Char → Char

/-- `unicode.SimpleFold` on the ASCII letters alone: each letter's orbit is
the letter and its other case. -/
def asciiSimpleFold (c : Char) : Char :=
  if c.isUpper then c.toLower else if c.isLower then c.toUpper else c

/-- Engines under which every pattern compiles to equality with its own
text and only ASCII letters fold; they let the model run on concrete
inputs. -/
def literalEngines : Engines := ⟨fun p => .ok (· == p), fun p => .ok (· == p), asciiSimpleFold⟩

/-- A compiled pattern behind the `Pattern` interface: which wrapper holds
it (`GlobPattern` or `RegexPattern`), the text it was built from, and the
library's compiled matcher. -/
structure Pattern where
  kind : PatternType
  pattern : String
  compiled : String → Bool

/-- `Pattern.Match`: both wrappers delegate to the compiled matcher. -/
def Pattern.matches (p : Pattern) (s : String) : Bool :=
  p.compiled s

/-- `Pattern.String`: the original pattern text. -/
def Pattern.string (p : Pattern) : String :=
  p.pattern

section Compile

variable (eng : Engines)

/-- `NewGlobPattern`. -/
def newGlobPattern (pattern : String) : Except GoError Pattern :=
  (eng.globCompile pattern).map fun compiled => ⟨.glob, pattern, compiled⟩

/-- `NewRegexPattern`. -/
def newRegexPattern (pattern : String) : Except GoError Pattern :=
  (eng.regexpCompile pattern).map fun compiled => ⟨.regex, pattern, compiled⟩

/-- `CompilePattern`: the detected type picks the wrapper. -/
def compilePattern (pattern : String) : Except GoError Pattern :=
  match detectPatternType pattern with
  | .regex => newRegexPattern eng pattern
  | .glob => newGlobPattern eng pattern

variable {eng}

theorem newRegexPattern_string {t : String} {p : Pattern}
    (h : newRegexPattern eng t = .ok p) : p.string = t := by
  unfold newRegexPattern at h
  revert h
  cases eng.regexpCompile t <;> rintro ⟨⟩
  rfl

theorem newGlobPattern_string {t : String} {p : Pattern}
    (h : newGlobPattern eng t = .ok p) : p.string = t := by
  unfold newGlobPattern at h
  revert h
  cases eng.globCompile t <;> rintro ⟨⟩
  rfl

/-- A compiled pattern remembers its text: `String()` of the result of
`CompilePattern(t)` is `t`. -/
theorem compilePattern_string {t : String} {p : Pattern}
    (h : compilePattern eng t = .ok p) : p.string = t := by
  unfold compilePattern at h
  split at h
  · exact newRegexPattern_string h
  · exact newGlobPattern_string h

end Compile

end ClaudeHooks.Rules
