import ScopedCheck.Glob.Match
import ScopedCheck.Path.Normal

/-!
# Ignore rules

A rule is a path or a glob.  A path ignores the file that it names once it is
taken below the root; a glob ignores the files whose spelling it matches, as a
whole or below the root.
-/

namespace ScopedCheck

structure IgnoreError where
  rule : String
  cause : Glob.PatternError
  deriving DecidableEq, Repr

def IgnoreError.message (e : IgnoreError) : String :=
  "invalid ignore pattern `" ++ e.rule ++ "`: error parsing glob '" ++ e.rule ++ "': " ++
    e.cause.message

structure IgnoreList where
  root : Path
  /-- Files named by a path rule, in normal form. -/
  exact : List Path
  /-- Patterns of the glob rules. -/
  globs : List (List Glob.Token)
  deriving Repr

namespace IgnoreList

def disabled : IgnoreList :=
  ⟨⟨""⟩, [], []⟩

/-- Whether a rule is a glob: whether it has a character that only globs give a meaning. -/
def isGlob (rule : String) : Bool :=
  rule.toList.any fun c => c == '*' || c == '?' || c == '[' || c == '{'

def addRule (rule : String) (compiled : IgnoreList) : Except IgnoreError IgnoreList :=
  if isGlob rule then
    match Glob.tokens rule.toList with
    | .ok tokens => .ok { compiled with globs := compiled.globs ++ [tokens] }
    | .error cause => .error ⟨rule, cause⟩
  else
    .ok { compiled with exact := compiled.exact ++ [Path.absolutize ⟨rule⟩ compiled.root] }

def compile (rules : List String) (root : Path) : Except IgnoreError IgnoreList :=
  rules.foldlM (fun compiled rule => addRule rule compiled) ⟨root, [], []⟩

def isEmpty (list : IgnoreList) : Bool :=
  list.exact.isEmpty && list.globs.isEmpty

def matchesGlob (list : IgnoreList) (path : Path) : Bool :=
  list.globs.any fun tokens => Glob.isMatch tokens (Utf8.encode path.chars)

/-- Whether a file, given absolute and in normal form, is ignored. -/
def isIgnored (list : IgnoreList) (path : Path) : Bool :=
  list.exact.any (·.same path) ||
    (match path.relativeTo? list.root with
      | some relative => list.matchesGlob relative
      | none => false) ||
    list.matchesGlob path

theorem isIgnored_disabled (path : Path) : disabled.isIgnored path = false := by
  simp [isIgnored, disabled, matchesGlob]
  split <;> rfl

end IgnoreList

end ScopedCheck
