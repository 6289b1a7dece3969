import ScopedCheck.Text.Lines

/-!
# Paths

A path keeps the spelling it was given.  Two paths name the same file when
their components agree: repeated separators, a separator at the end and `.`
components other than a leading one are spelling only.
-/

namespace ScopedCheck

/-- A path as it was spelled. -/
structure Path where
  /-- The spelling. -/
  text : String
  deriving DecidableEq, Repr, Inhabited

namespace Path

inductive Component where
  /-- The leading `/`. -/
  | root
  /-- A leading `.`. -/
  | here
  /-- `..`. -/
  | up
  | name (text : List Char)
  deriving DecidableEq, Repr

inductive Head where
  | root
  /-- With an explicit `.`. -/
  | here
  /-- With its first name. -/
  | bare
  deriving DecidableEq, Repr

/-- A path cut at its separators: its head and the pieces after that. -/
structure Cut where
  head : Head
  body : List (List Char)

def Cut.ofText (text : List Char) : Cut :=
  match Text.splitAt '/' text with
  | [] :: piece :: rest => ⟨.root, piece :: rest⟩
  | ['.'] :: rest => ⟨.here, rest⟩
  | pieces => ⟨.bare, pieces⟩

def Cut.toText : Cut → List Char
  | ⟨.root, body⟩ => '/' :: Text.joinWith ['/'] body
  | ⟨.here, []⟩ => ['.']
  | ⟨.here, body⟩ => ['.', '/'] ++ Text.joinWith ['/'] body
  | ⟨.bare, body⟩ => Text.joinWith ['/'] body

/-- The component that a piece after the head stands for; `.` and nothing are none. -/
def pieceComponent : List Char → Option Component
  | [] => none
  | ['.'] => none
  | ['.', '.'] => some .up
  | piece => some (.name piece)

def isFiller (piece : List Char) : Bool :=
  (pieceComponent piece).isNone

def Head.components : Head → List Component
  | .root => [.root]
  | .here => [.here]
  | .bare => []

/-- The components of a cut path, in order. -/
def Cut.components (cut : Cut) : List Component :=
  cut.head.components ++ cut.body.filterMap pieceComponent

def dropFillersEnd (pieces : List (List Char)) : List (List Char) :=
  (pieces.reverse.dropWhile isFiller).reverse

/-- Drops pieces up to and including the given number of components. -/
def dropComponents : Nat → List (List Char) → List (List Char)
  | 0, pieces => pieces
  | _ + 1, [] => []
  | count + 1, piece :: rest =>
      if isFiller piece then dropComponents (count + 1) rest else dropComponents count rest

def chars (path : Path) : List Char :=
  path.text.toList

def ofChars (text : List Char) : Path :=
  ⟨String.ofList text⟩

def cut (path : Path) : Cut :=
  Cut.ofText path.chars

/-- The components of a path; they decide which file it names. -/
def components (path : Path) : List Component :=
  path.cut.components

/-- Whether two spellings name the same file. -/
def same (a b : Path) : Bool :=
  a.components == b.components

/-- Adds a path to a list unless the list names its file already. -/
def addNew (paths : List Path) (path : Path) : List Path :=
  if paths.any (·.same path) then paths else paths ++ [path]

/-- The paths that name a file for the first time, in order. -/
def distinct (paths : List Path) : List Path :=
  paths.foldl addNew []

def isAbsolute (path : Path) : Bool :=
  path.chars.head? == some '/'

/-- A path written after another one; an absolute path replaces it. -/
def join (base path : Path) : Path :=
  if path.isAbsolute || base.chars.isEmpty then path
  else if base.chars.getLast? == some '/' then ofChars (base.chars ++ path.chars)
  else ofChars (base.chars ++ ['/'] ++ path.chars)

def parent? (path : Path) : Option Path :=
  let cut := path.cut
  match dropFillersEnd cut.body, cut.head with
  | [], .here => some (ofChars [])
  | [], _ => none
  | pieces, head => some (ofChars (Cut.toText ⟨head, dropFillersEnd pieces.dropLast⟩))

/-- The path and what is left when up to `count` components are taken off its end. -/
def ancestorsUpTo : Nat → Path → List Path
  | 0, path => [path]
  | count + 1, path =>
      path :: (match path.parent? with
        | some parent => ancestorsUpTo count parent
        | none => [])

def ancestors (path : Path) : List Path :=
  ancestorsUpTo path.components.length path

/-- The last component, when it is a name. -/
def fileName? (path : Path) : Option (List Char) :=
  match path.components.getLast? with
  | some (.name text) => some text
  | _ => none

/-- What follows the last dot of a name; a name that begins with its only dot has nothing. -/
def extensionOf (name : List Char) : Option (List Char) :=
  let tail := name.reverse.takeWhile (· != '.')
  let stem := name.reverse.dropWhile (· != '.')
  match stem with
  | [] => none
  | [_] => none
  | _ => some tail.reverse

def extension? (path : Path) : Option (List Char) :=
  path.fileName?.bind extensionOf

/-- The spelling of a path below a base, when the base's components begin the path's. -/
def relativeTo? (path base : Path) : Option Path :=
  let cut := path.cut
  let count := base.components.length
  if base.components.isPrefixOf path.components then
    if count = 0 then some (ofChars (Cut.toText ⟨cut.head, dropFillersEnd cut.body⟩))
    else
      let below := dropComponents (count - cut.head.components.length) cut.body
      some (ofChars (Text.joinWith ['/'] (dropFillersEnd (below.dropWhile isFiller))))
  else none

theorem same_iff {a b : Path} : same a b = true ↔ a.components = b.components := by
  simp [same]

@[simp] theorem same_refl (a : Path) : same a a = true := by
  simp [same]

theorem same_comm (a b : Path) : same a b = same b a := by
  simp [same, BEq.comm]

theorem same_trans {a b c : Path} (hab : same a b = true) (hbc : same b c = true) :
    same a c = true := by
  rw [same_iff] at *
  exact hab.trans hbc

theorem join_of_isAbsolute {base path : Path} (h : path.isAbsolute = true) :
    join base path = path := by
  simp [join, h]

end Path

end ScopedCheck
