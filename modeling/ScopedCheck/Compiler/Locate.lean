import ScopedCheck.FileTree

/-!
# Finding the compiler

The project's own installation comes first, then the search path, then the usual
places.
-/

namespace ScopedCheck

namespace Compiler

/-- Where a package manager puts the compiler below a directory. -/
def installedBelow (directory : Path) : Path :=
  directory.join ⟨"node_modules/.bin/tsc"⟩

def inDirectory (directory : Path) : Path :=
  directory.join ⟨"tsc"⟩

def usualPlaces (env : Environment) : List Path :=
  [⟨"/usr/local/bin/tsc"⟩, ⟨"/usr/bin/tsc"⟩,
    env.home.join ⟨".npm-global/bin/tsc"⟩, env.home.join ⟨".local/bin/tsc"⟩]

/-- The installation that a project uses: the nearest one, going up from its root. -/
def ofProject? (env : Environment) (root : Path) : Option Path :=
  (root.ancestors.map installedBelow).find? env.pathExists

/-- The compiler of the search path, which has to be an executable file. -/
def ofSearchPath? (env : Environment) : Option Path :=
  (env.searchPath.map inDirectory).find? (env.tree.isExecutable env.base)

def find? (env : Environment) (root : Option Path) : Option Path :=
  (root.bind (ofProject? env)).or
    ((ofSearchPath? env).or ((usualPlaces env).find? env.pathExists))

end Compiler

end ScopedCheck
