import Courier.Config.Overrides
import Courier.Config.Yaml

/-!
# Loading configurations

The configuration file, if one is named, or else the defaults; over it go the
overrides, and what comes of that has to be valid.
-/

namespace Courier
namespace Config

abbrev Files := String → Except String Text.Bytes

def notText : String := "stream did not contain valid UTF-8"

def ofFile (files : Files) (path : String) : Except Error Config :=
  match files path with
  | .error reason => .error (.unreadable path reason)
  | .ok bytes =>
    match Text.Utf8.decode? bytes with
    | none => .error (.unreadable path notText)
    | some text =>
      match ofYaml? text with
      | none => .error (.malformed path)
      | some c => .ok c

def validated (c : Config) : Except Error Config :=
  match c.validate with
  | none => .ok c
  | some e => .error e

def load (files : Files) (o : Overrides) : Except Error Config := do
  let c ← (o.configFile.map (ofFile files)).getD (.ok {})
  validated (o.apply c)

end Config
end Courier
