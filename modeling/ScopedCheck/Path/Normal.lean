import ScopedCheck.Path.Basic

/-!
# Normal paths

Normalization is lexical: `.` disappears, `..` cancels the name before it, and
nothing on disk is consulted.  A relative path keeps the `..` that lead out of
it, an absolute one has none.
-/

namespace ScopedCheck

namespace Path

/-- Takes one more component onto a normal stack, whose top is the last component. -/
def pushNormal : List Component → Component → List Component
  | stack, .here => stack
  | .name _ :: stack, .up => stack
  | .root :: stack, .up => .root :: stack
  | stack, .up => .up :: stack
  | _, .root => [.root]
  | stack, .name text => .name text :: stack

def normalComponents (components : List Component) : List Component :=
  (components.foldl pushNormal []).reverse

def Component.piece : Component → List Char
  | .root => []
  | .here => ['.']
  | .up => ['.', '.']
  | .name text => text

def spell : List Component → List Char
  | .root :: rest => '/' :: Text.joinWith ['/'] (rest.map Component.piece)
  | components => Text.joinWith ['/'] (components.map Component.piece)

/-- Removes `.` and folds `..` into the component before it. -/
def normalize (path : Path) : Path :=
  ofChars (spell (normalComponents path.components))

/-- The normal form of a path, taken below a base when it is relative. -/
def absolutize (path base : Path) : Path :=
  if path.isAbsolute then path.normalize else (base.join path).normalize

/-- Whether a path names a file that the compiler checks. -/
def isTypeScript (path : Path) : Bool :=
  path.extension? == some ['t', 's'] || path.extension? == some ['t', 's', 'x']

/-- Normalization sees the components only. -/
theorem normalize_congr {a b : Path} (h : same a b = true) : a.normalize = b.normalize := by
  simp [normalize, same_iff.1 h]

theorem absolutize_of_isAbsolute {path : Path} (base : Path) (h : path.isAbsolute = true) :
    path.absolutize base = path.normalize := by
  simp [absolutize, h]

end Path

end ScopedCheck
