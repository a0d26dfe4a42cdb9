import ZioControl.Settings

/-!
# A template of the settings

A file with every setting commented out, for whoever writes one. What it says of each setting is a
table; the default values are those of `Settings`.
-/

namespace ZioControl

/-- What the template says of a setting. -/
structure SettingEntry where
  /-- Its key. -/
  key : String
  /-- What it is for, a line each. -/
  purpose : List String := []
  /-- The environment variable that goes before it. -/
  environment : Option String := none
  /-- Its default value as it is written in the file. -/
  default? : Option String := none

/-- The settings of a section. -/
structure SettingSection where
  /-- The name of the section. -/
  name : String
  /-- Its settings in their order. -/
  entries : List SettingEntry

namespace Settings

/-- A text as a value in the file. None of the defaults needs an escape. -/
def spelled (text : String) : String := "\"" ++ text ++ "\""

/-- The default settings. -/
def defaults : Settings := {}

/-- All settings by sections. -/
def sections : List SettingSection := [
  { name := "device"
    entries := [
      { key := "control"
        purpose := ["Control file used when none is given on the command line."]
        environment := some Environment.controlVariable },
      { key := "sysfs_dir"
        purpose := [
          "sysfs directory of the device; its control-description names the",
          "extended attributes."]
        environment := some Environment.directoryVariable },
      { key := "available_triggers"
        default? := some (spelled defaults.availableTriggers) },
      { key := "check_before_write"
        purpose := ["Refuse to write a control the device would reject."]
        default? := some (if defaults.checkBeforeWrite then "true" else "false") }] },
  { name := "log"
    entries := [
      { key := "level"
        default? := some (spelled defaults.logLevel.word) },
      { key := "file"
        purpose := ["Also log to this file."] }] }]

/-- The paragraphs of a comment, with an empty comment line between. -/
def paragraphs (found : List (List String)) : List String :=
  (["#"].intercalate ((found.filter fun lines => !lines.isEmpty).map fun lines =>
    lines.map fun line => "# " ++ line))

/-- The lines for a setting. -/
def entryLines (e : SettingEntry) : List String :=
  paragraphs [
    e.purpose,
    (e.environment.map fun v =>
      "Can also be specified via environment variable `" ++ v ++ "`.").toList,
    (e.default?.map fun value => "Default value: " ++ value).toList] ++
  ["#" ++ e.key ++ " =" ++ (e.default?.map (" " ++ ·)).getD ""]

/-- The lines for a section. -/
def sectionLines (s : SettingSection) : List String :=
  ("[" ++ s.name ++ "]") :: [""].intercalate (s.entries.map entryLines)

/-- The template. -/
def template : String :=
  String.join (([""].intercalate (sections.map sectionLines)).map (· ++ "\n"))

end Settings

end ZioControl
