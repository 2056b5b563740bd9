/-
Conformance/Project.lean

Projects: where a project's configuration is found.  It lies in the project's
root, unless a path to it is given.
-/
import Conformance.Readers.Toml

namespace Conformance

/-- The surroundings in which rules are asserted. -/
structure Project where
  disk : Disk
  /-- The path of the current folder. -/
  currentFolder : String
  /-- The folder of the package under test, if it is known. -/
  packageFolder : Option String := none
  /-- How the project's files are read. -/
  readers : Readers := .toml

namespace Project

/-- The project's root. -/
def root (p : Project) : String :=
  match p.packageFolder with
  | some folder => p.readers.rootFrom p.disk folder
  | none => p.currentFolder

/-- The project's configuration, at a path of its own or in its root. -/
def config (p : Project) : Option String → Except ConfigError Config
  | some path =>
    p.readers.configAt p.disk
      (if Path.isAbsolute path then path else Path.join p.root path)
  | none => p.readers.configIn p.disk p.root

end Project

end Conformance
