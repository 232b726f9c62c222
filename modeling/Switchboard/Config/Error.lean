/-!
# What is wrong with a configuration

Every way in which loading a configuration can fail.
-/

namespace Switchboard

/-- Why a configuration was refused. -/
inductive ConfigError where
  /-- The file cannot be read. -/
  | unreadable
  /-- The text stands for no document. -/
  | malformed
  /-- A variable of the environment is not set, and there is no fallback. -/
  | variableNotSet (name : String)
  /-- The name of a variable is to be text. -/
  | variableNameExpected
  /-- The document has not the form of a configuration. -/
  | wrongForm
  /-- The scheme cannot stand in an address. -/
  | invalidScheme (scheme : String)
  /-- Two rules have the same name. -/
  | duplicateRule (name : String)
deriving DecidableEq, Repr

namespace ConfigError

/-- The part of the configuration that has an invalid value. -/
def key? : ConfigError → Option String
  | variableNameExpected => some "!env_var"
  | wrongForm => some "root"
  | invalidScheme _ => some "status.scheme"
  | duplicateRule _ => some "rules"
  | unreadable | malformed | variableNotSet _ => none

/-- The report as it is shown. Where the wording is left open there is only a part of it. -/
def message : ConfigError → String
  | unreadable => "failed to read configuration"
  | malformed => "failed to parse configuration"
  | variableNotSet name => s!"environment variable '{name}' not set"
  | variableNameExpected =>
    "invalid configuration value for '!env_var': expected a variable name"
  | wrongForm => "invalid configuration value for 'root'"
  | invalidScheme scheme =>
    s!"invalid configuration value for 'status.scheme': '{scheme}' is not a valid scheme"
  | duplicateRule name =>
    s!"invalid configuration value for 'rules': duplicate rule name '{name}'"

end ConfigError

end Switchboard
