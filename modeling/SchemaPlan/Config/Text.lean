import SchemaPlan.Config.Document
import SchemaPlan.Toml.Document
import SchemaPlan.Toml.Reader

set_option autoImplicit false

/-!
# Settings as text

Settings are kept in a TOML file.
-/

namespace SchemaPlan.Settings

/-- The settings of a text found at `path`. -/
def ofText (path text : String) : Except Fault Settings :=
  match Toml.parse? text with
  | none => .error (.config (.malformed path))
  | some entries =>
    match (format true).decode (.object (Toml.entriesToJson entries)) with
    | .error _ => .error (.config (.malformed path))
    | .ok settings => settings.check

end SchemaPlan.Settings
