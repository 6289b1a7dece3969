import ScopedCheck.Json.Reader
import ScopedCheck.Text.Lines

/-!
# JSON with comments and trailing commas

Two passes over the characters, each of which leaves string literals alone, turn
the tolerant dialect into strict JSON.
-/

namespace ScopedCheck

namespace Json

inductive CommentScan where
  /-- Outside strings and comments. -/
  | code
  | string
  /-- After a backslash inside a string. -/
  | escaped
  /-- In a comment that the end of the line ends. -/
  | line
  /-- In a comment that `*/` ends. -/
  | block

def stripCommentsFrom : CommentScan → List Char → List Char
  | _, [] => []
  | .string, c :: rest =>
      c :: stripCommentsFrom (if c = '"' then .code else if c = '\\' then .escaped else .string) rest
  | .escaped, c :: rest => c :: stripCommentsFrom .string rest
  | .line, c :: rest =>
      if c = '\n' then c :: stripCommentsFrom .code rest else stripCommentsFrom .line rest
  | .block, '*' :: '/' :: rest => stripCommentsFrom .code rest
  | .block, _ :: rest => stripCommentsFrom .block rest
  | .code, '/' :: '/' :: rest => stripCommentsFrom .line rest
  | .code, '/' :: '*' :: rest => stripCommentsFrom .block rest
  | .code, c :: rest => c :: stripCommentsFrom (if c = '"' then .string else .code) rest

/-- Removes comments; a line comment leaves its line break. -/
def stripComments (text : List Char) : List Char :=
  stripCommentsFrom .code text

inductive CommaScan where
  | code
  | string
  | escaped

/-- Whether the next character that is no blank closes a container. -/
def closesNext (text : List Char) : Bool :=
  match Text.trimStart text with
  | c :: _ => c == '}' || c == ']'
  | [] => false

def dropCommasFrom : CommaScan → List Char → List Char
  | _, [] => []
  | .string, c :: rest =>
      c :: dropCommasFrom (if c = '"' then .code else if c = '\\' then .escaped else .string) rest
  | .escaped, c :: rest => c :: dropCommasFrom .string rest
  | .code, c :: rest =>
      if c = ',' && closesNext rest then dropCommasFrom .code rest
      else c :: dropCommasFrom (if c = '"' then .string else .code) rest

/-- Drops every comma whose next character, blanks aside, closes a container. -/
def dropTrailingCommas (text : List Char) : List Char :=
  dropCommasFrom .code text

def parseTolerant? (text : String) : Option Value :=
  parse? (String.ofList (dropTrailingCommas (stripComments text.toList)))

/-! ## One character of a scan for comments -/

/-- The state of a scan for comments behind a character that it keeps outside of strings. -/
def CommentScan.after (c : Char) : CommentScan :=
  if c = '"' then .string else .code

@[simp] theorem stripCommentsFrom_nil (state : CommentScan) : stripCommentsFrom state [] = [] := by
  cases state <;> rfl

theorem stripCommentsFrom_string_cons (c : Char) (rest : List Char) :
    stripCommentsFrom .string (c :: rest) =
      c :: stripCommentsFrom
        (if c = '"' then .code else if c = '\\' then .escaped else .string) rest :=
  rfl

theorem stripCommentsFrom_line_cons {c : Char} (h : c ≠ '\n') (rest : List Char) :
    stripCommentsFrom .line (c :: rest) = stripCommentsFrom .line rest :=
  if_neg h

theorem stripCommentsFrom_block_cons {c : Char} {rest : List Char}
    (h : ∀ behind, c :: rest ≠ '*' :: '/' :: behind) :
    stripCommentsFrom .block (c :: rest) = stripCommentsFrom .block rest := by
  rw [stripCommentsFrom]
  intro behind hstar hslash
  exact h behind (by rw [hstar, hslash])

theorem stripCommentsFrom_slash_slash (rest : List Char) :
    stripCommentsFrom .code ('/' :: '/' :: rest) = stripCommentsFrom .line rest :=
  rfl

theorem stripCommentsFrom_slash_star (rest : List Char) :
    stripCommentsFrom .code ('/' :: '*' :: rest) = stripCommentsFrom .block rest :=
  rfl

theorem stripCommentsFrom_cons {c : Char} {rest : List Char}
    (hline : ∀ behind, c :: rest ≠ '/' :: '/' :: behind)
    (hblock : ∀ behind, c :: rest ≠ '/' :: '*' :: behind) :
    stripCommentsFrom .code (c :: rest) = c :: stripCommentsFrom (.after c) rest := by
  rw [stripCommentsFrom]
  · rfl
  · rintro behind rfl rfl
    exact hline behind rfl
  · rintro behind rfl rfl
    exact hblock behind rfl

/-! ## One character of a scan for commas -/

/-- The state of a scan for commas behind a character that it keeps outside of strings. -/
def CommaScan.after (c : Char) : CommaScan :=
  if c = '"' then .string else .code

@[simp] theorem dropCommasFrom_nil (state : CommaScan) : dropCommasFrom state [] = [] := by
  cases state <;> rfl

theorem dropCommasFrom_string_cons (c : Char) (rest : List Char) :
    dropCommasFrom .string (c :: rest) =
      c :: dropCommasFrom
        (if c = '"' then .code else if c = '\\' then .escaped else .string) rest :=
  rfl

theorem dropCommasFrom_comma (rest : List Char) :
    dropCommasFrom .code (',' :: rest) =
      if closesNext rest = true then dropCommasFrom .code rest
      else ',' :: dropCommasFrom .code rest :=
  rfl

theorem dropCommasFrom_cons {c : Char} {rest : List Char}
    (h : ¬(c = ',' ∧ closesNext rest = true)) :
    dropCommasFrom .code (c :: rest) = c :: dropCommasFrom (.after c) rest :=
  if_neg (by simpa using h)

end Json

end ScopedCheck
