import WasmEmbedding.Config.Json
import WasmEmbedding.Config.Read
import WasmEmbedding.Config.Toml.Parser
import WasmEmbedding.Text.Utf8
import WasmEmbedding.Wasi.FileSystem

/-! # Configuration files

A configuration file is a TOML document of a machine's configuration and of the first
environment of its built-in system interface. A machine's configuration by itself may also
come as a JSON document.
-/
namespace WasmEmbedding

/-- A machine's configuration from a JSON document. -/
def VmConfig.ofJson (text : String) : Option VmConfig :=
  Config.Json.parse? text >>= Config.vmConfig? .json

/-- Why there is no configuration. -/
inductive ConfigFileError where
  | unreadable (path : String) (fault : FileFault)
  /-- The document is none, or says something else than a configuration; the parser's
  words follow. -/
  | malformed (diagnostic : String)
  deriving DecidableEq, Repr

/-- The wording of a configuration file error. -/
def ConfigFileError.message : ConfigFileError → String
  | .unreadable path fault =>
    "Failed to read config file '" ++ path ++ "': " ++ fault.message
  | .malformed d => "Failed to parse config file: " ++ d

namespace ConfigFile

/-- The configuration of a TOML document. -/
def ofToml (text : String) : Except ConfigFileError ConfigFile :=
  match Config.Toml.parse? text with
  | none => .error (.malformed "not a TOML document")
  | some d =>
    match Config.configFile? .toml d with
    | some c => .ok c
    | none => .error (.malformed "not a configuration")

/-- The configuration of a file. -/
def read (files : Wasi.FileSystem) (path : String) : Except ConfigFileError ConfigFile :=
  match files.read path with
  | .error fault => .error (.unreadable path fault)
  | .ok bytes =>
    match Text.Utf8.decode? bytes with
    | none => .error (.unreadable path .invalidText)
    | some text => ofToml text

end ConfigFile

end WasmEmbedding
