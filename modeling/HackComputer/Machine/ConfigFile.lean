import HackComputer.Json.Components
import HackComputer.Stream

/-!
# Configuration files

A configuration file holds the JSON form of a configuration.
-/

namespace HackComputer

/-- Why a configuration file is refused. -/
inductive ConfigError where
  | stream (cause : StreamError)
  /-- The text is not the JSON form of a configuration. -/
  | malformed
  deriving DecidableEq, Repr

/-- The text that reports a refused configuration file. -/
def ConfigError.message : ConfigError → String
  | .stream cause => cause.message
  | .malformed => "invalid configuration"

namespace Config

/-- Reads a configuration from the text of a file. -/
def ofFile (text : String) : Except ConfigError Config :=
  match JsonForm.ofText? text with
  | some config => .ok config
  | none => .error .malformed

/-- The text of a configuration file. -/
def fileText (config : Config) : String :=
  JsonForm.text .indented config

/-- Reads a configuration from a place. -/
def load (place : Place) : Except ConfigError Config :=
  match place.read with
  | .error cause => .error (.stream cause)
  | .ok bytes =>
    match String.fromUTF8? bytes.toByteArray with
    | some text => ofFile text
    | none => .error (.stream .invalidUtf8)

end Config

end HackComputer
