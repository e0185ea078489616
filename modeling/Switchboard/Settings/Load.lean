import Switchboard.Settings.Merge
import Switchboard.Settings.Override

/-!
# Loading settings

Settings come in three layers: defaults, a file, and variables of the environment, the later over the earlier. What
they add up to is validated.
-/

namespace Switchboard

/-- What is found at the place of the settings file. -/
inductive SettingsFile
  | absent
  | unreadable
  | content (bytes : Bytes)

namespace Settings

/-! ### Where the file is -/

/-- The variable that names the file. -/
def pathVariable : String := "SIMBUS_SETTINGS"

/-- The folder of a user without a home. -/
def fallbackHome : String := "/tmp"

/-- A path inside a folder. -/
def within (folder name : String) : String :=
  if folder.isEmpty || folder.toList.getLast? == some '/' then folder ++ name else folder ++ "/" ++ name

/-- The path of the settings file. -/
def path (environment : String → Option String) : String :=
  match Override.lookUp environment pathVariable with
  | some path => path
  | none => within ((environment "HOME").getD fallbackHome) (within ".simbus" "settings.json")

/-! ### What it says -/

/-- The defaults under the content of a file. -/
def layered : SettingsFile → Except SettingsError Json
  | .absent => .ok standard.toJson
  | .unreadable => .error .unreadable
  | .content bytes =>
    match Utf8.decode? bytes with
    | none => .error .unreadable
    | some text =>
      match Json.parse? text with
      | none => .error .notJson
      | some v => .ok (standard.toJson.overlay v)

/-- The settings of a file and an environment, and the warnings on the way to them. -/
def load (file : SettingsFile) (environment : String → Option String) :
    Except SettingsError Settings × List LogEvent :=
  match layered file with
  | .error e => (.error e, [])
  | .ok v =>
    match ofJson? v with
    | none => (.error .shape, [])
    | some s =>
      let (s, warnings) := s.override environment
      (s.validate.map fun _ => s, warnings)

/-- Loads the file that the environment points to. -/
def loadFrom (files : String → SettingsFile) (environment : String → Option String) :
    Except SettingsError Settings × List LogEvent :=
  load (files (path environment)) environment

end Settings

end Switchboard
