import FlowchartSlides.CommandLine.Run

/-!
# What the program leaves behind

The program ends with a code, a text on standard output and lines on standard
error: 0 after a run and after an answer about itself, 1 after a run that
failed, 2 when the arguments are refused.
-/
namespace FlowchartSlides.CommandLine

/-- The least severity that is logged. -/
inductive LogLevel where
  | off
  | error
  | warn
  | info
  | debug
  | trace
deriving Repr, DecidableEq

namespace LogLevel

def name : LogLevel → String
  | off => "off"
  | error => "error"
  | warn => "warn"
  | info => "info"
  | debug => "debug"
  | trace => "trace"

def all : List LogLevel := [off, error, warn, info, debug, trace]

/-- Reads a name in any case of its ASCII letters. -/
def ofName? (name : String) : Option LogLevel :=
  all.find? fun level => Text.sameIgnoringCase level.name.toList name.toList

def shows : LogLevel → Severity → Bool
  | off, _ | error, _ => false
  | warn, severity => severity == .warning
  | info, _ | debug, _ | trace, _ => true

end LogLevel

/-- A notice as it is logged; later lines of it are indented. -/
def logged (n : Notice) : String :=
  let lines := (Text.split '\n' n.message.toList).map String.ofList
  "[" ++ n.severity.name ++ "] " ++ String.intercalate "\n    " lines

structure Exit where
  code : Nat
  out : String
  err : List String
deriving Repr, DecidableEq

namespace Exit

/-- The name of the program. -/
def programName : String := "flowdeck"

def versionLine : String := programName ++ " 0.1.0\n"

/-- One line about an option. -/
def optionLine (key : Key) : String :=
  let letter := match key.letter? with
    | some letter => "-" ++ String.ofList [letter] ++ ", "
    | none => "    "
  let name := letter ++ "--" ++ key.name
  let gap := String.ofList (List.replicate (22 - name.length) ' ')
  "  " ++ name ++ gap ++ key.purpose ++ "\n"

def helpText : String :=
  "Flowchart text to slide shapes and connectors\n\nUsage: " ++ programName
    ++ " [OPTIONS]\n\nOptions:\n" ++ String.join (Key.all.map optionLine)

/-- What is wrong with arguments that are refused. -/
def complaint : Halt → String
  | .help | .version => ""
  | .unknownArgument argument => "unexpected argument '" ++ argument ++ "' found"
  | .badValue key none => "a value is required for '--" ++ key.name ++ "'"
  | .badValue key (some value) => "invalid value '" ++ value ++ "' for '--" ++ key.name ++ "'"
  | .repeated key => "the argument '--" ++ key.name ++ "' cannot be used multiple times"
  | .unwantedValue argument => "unexpected value in '" ++ argument ++ "'"

def ofHalt : Halt → Exit
  | .help => ⟨0, helpText, []⟩
  | .version => ⟨0, versionLine, []⟩
  | why => ⟨2, "", ["error: " ++ complaint why]⟩

/-- The level that arguments ask for, and the line about one that is unknown. -/
def logLevel (a : Arguments) : LogLevel × List String :=
  match LogLevel.ofName? a.logLevel with
  | some level => (level, [])
  | none => (.warn, ["Invalid log level: " ++ a.logLevel ++ ". Using 'warn' instead."])

/-- The end of a run that was delivered or failed. -/
def ofRun (a : Arguments) (result : Except Failure Delivery) : Exit :=
  let (level, warning) := logLevel a
  match result with
  | .ok d =>
    ⟨0, d.printed, warning ++ (d.notices.filter (level.shows ·.severity)).map logged⟩
  | .error why => ⟨1, "", warning ++ ["error: " ++ why.message]⟩

/-- The whole program on a host, with what hinders writing a file. -/
def ofArguments (arguments : List String) (host : Host)
    (hindrance? : String → Option FileFault) : Exit :=
  match Arguments.ofList arguments with
  | .error why => ofHalt why
  | .ok a => ofRun a ((render a host).bind fun r => deliver a r hindrance?)

end Exit

end FlowchartSlides.CommandLine
