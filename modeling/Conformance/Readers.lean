/-
Conformance/Readers.lean

Reading a project's files.

What a manifest or a configuration says depends on the language it is written
in.  Nothing here depends on that language: all that is known of it are two
functions on texts (`Readers`), which may make something of a text or not.

A project's root is the innermost folder around the package under test whose
manifest has a section for the whole workspace; a package on its own is its own
root.  A manifest that is missing, cannot be read or makes no sense is passed
over.  A configuration that is there must be right.
-/
import Conformance.Config
import Conformance.Files.Disk
import Conformance.Toml.Value

namespace Conformance

/-- How the texts of manifests and configurations are read. -/
structure Readers where
  /-- The table that a manifest holds. -/
  manifest? : String → Option Toml.Table
  /-- The configuration that a text describes. -/
  config? : String → Option Config

/-- Why there is no configuration. -/
inductive ConfigError where
  /-- The file cannot be read. -/
  | unreadable (path : String) (reason : ReadError)
  /-- The file is no configuration. -/
  | malformed
  deriving DecidableEq, Repr

/-- The error in words.  What is wrong with a malformed file is left out. -/
def ConfigError.message : ConfigError → String
  | unreadable path reason =>
    "Failed to read config file " ++ path ++ ": " ++ reason.message
  | malformed => "Failed to parse config: "

namespace Config

/-- The names a configuration file may have; the first one found counts. -/
def fileNames : List String := ["archgate.toml", ".archgate.toml"]

/-- The configuration file in a folder. -/
def findIn? (disk : Disk) (folder : String) : Option String :=
  (fileNames.map (Path.join folder)).find? disk.isFile

end Config

namespace Readers

variable (r : Readers) (disk : Disk)

/-- Reads a configuration. -/
def config (text : String) : Except ConfigError Config :=
  match r.config? text with
  | some config => .ok config
  | none => .error .malformed

/-- Reads a configuration file. -/
def configAt (path : String) : Except ConfigError Config :=
  match disk.readText path with
  | .ok text => r.config text
  | .error reason => .error (.unreadable path reason)

/-- Reads the configuration file in a folder, if there is one. -/
def configIn (folder : String) : Except ConfigError Config :=
  match Config.findIn? disk folder with
  | some path => r.configAt disk path
  | none => .ok {}

/-- Whether a folder's manifest has a section for the whole workspace. -/
def hasWorkspace (folder : String) : Bool :=
  match disk.readText (Path.join folder "Cargo.toml") with
  | .ok text => (r.manifest? text).any fun t => (t.lookup "workspace").isSome
  | .error _ => false

/-- The innermost folder, from the given one outwards, that holds a
workspace; the given one if none does. -/
def rootFrom (folder : String) : String :=
  ((Path.ancestors folder).find? (r.hasWorkspace disk)).getD folder

end Readers

end Conformance
