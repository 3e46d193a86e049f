import RegisterMachine.Text.Blank

namespace RegisterMachine

/-- How important a message is. -/
inductive Level
  | debug
  | info
  | warn
  | error
  deriving DecidableEq, Repr

/-- Why a log setting is refused. The text is what was left of it without blanks and capitals. -/
inductive SettingError
  | level (text : String)
  | switch (text : String)
  deriving DecidableEq, Repr

/-- The text that reports a refused setting. -/
def SettingError.message : SettingError → String
  | level text => s!"unknown log level `{text}`"
  | switch text => s!"expected on or off, got `{text}`"

/-- A setting as it is compared: without blanks around it and without ASCII capitals. -/
def settingWord (text : String) : String :=
  String.ofList ((Text.trim text.toList).map Char.toLower)

namespace Level

/-- The word for a level in log lines. -/
def name : Level → String
  | debug => "DEBUG"
  | info => "INFO"
  | warn => "WARN"
  | error => "ERROR"

/-- Levels in order of importance. -/
def rank : Level → Nat
  | debug => 0
  | info => 1
  | warn => 2
  | error => 3

/-- The level that a text names. -/
def ofText (text : String) : Except SettingError Level :=
  match settingWord text with
  | "debug" => .ok debug
  | "info" => .ok info
  | "warn" => .ok warn
  | "warning" => .ok warn
  | "error" => .ok error
  | other => .error (.level other)

/-- Whether a message of level `l` is written when `least` is asked for. -/
def enabled (least l : Level) : Bool := least.rank ≤ l.rank

/-- The terminal codes that set the colours of a level. -/
def colourCodes : Level → String
  | debug => "\x1b[2m\x1b[36m"
  | info => ""
  | warn => "\x1b[1m\x1b[33m"
  | error => "\x1b[1m\x1b[31m"

end Level

/-- A switch that is on or off. -/
def switchOfText (text : String) : Except SettingError Bool :=
  match settingWord text with
  | "1" => .ok true
  | "true" => .ok true
  | "on" => .ok true
  | "0" => .ok false
  | "false" => .ok false
  | "off" => .ok false
  | other => .error (.switch other)

/-- How log lines are written. -/
structure LogSettings where
  level : Level := .info
  timestamps : Bool := true
  colour : Bool := false
  deriving DecidableEq, Repr

namespace LogSettings

/-- A setting that the environment makes, or the one given. A refused text is reported with the
name of its variable. -/
def setting {α : Type} (env : String → Option String) (name : String)
    (read : String → Except SettingError α) (otherwise : α) : Except String α :=
  match env name with
  | none => .ok otherwise
  | some text =>
    match read text with
    | .ok x => .ok x
    | .error e => .error (name ++ ": " ++ e.message)

/-- Terminals that are not dumb show colours unless that is switched off. -/
def coloured (env : String → Option String) : Bool :=
  match env "TERM" with
  | none => false
  | some terminal => terminal ≠ "dumb" ∧ (env "NO_COLOR").isNone

/-- The settings that the environment makes. -/
def ofEnvironment (env : String → Option String) : Except String LogSettings := do
  let level ← setting env "MICRO_LOG" Level.ofText .info
  let timestamps ← setting env "MICRO_LOG_TIMESTAMPS" switchOfText true
  return { level, timestamps, colour := coloured env }

/-- The text of a message of level `l` at the moment `stamp`, empty for one that is not asked
for. -/
def render (s : LogSettings) (stamp : String) (l : Level) (message : String) : String :=
  if s.level.enabled l then
    let opening := if s.colour then "\x1b[0m" ++ l.colourCodes else ""
    let time := if s.timestamps then stamp ++ " " else ""
    let closing := if s.colour then "\x1b[0m" else ""
    opening ++ time ++ "[" ++ l.name ++ "] " ++ message ++ "\n" ++ closing
  else ""

end LogSettings

end RegisterMachine
