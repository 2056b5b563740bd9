/-
Conformance/Readers/Toml.lean

Files in TOML, the language of manifests and configurations in practice.
-/
import Conformance.Config.Toml
import Conformance.Readers
import Conformance.Toml.Tagged

namespace Conformance

/-- Reads TOML documents. -/
def Readers.toml : Readers where
  manifest? text := (Toml.parse? text).bind Toml.untagEntries?
  config? := Config.parse?

namespace Config

/-- Reads a configuration file. -/
def ofFile (disk : Disk) (path : String) : Except ConfigError Config :=
  Readers.toml.configAt disk path

/-- Reads the configuration file in a folder, if there is one. -/
def discover (disk : Disk) (folder : String) : Except ConfigError Config :=
  Readers.toml.configIn disk folder

end Config

end Conformance
