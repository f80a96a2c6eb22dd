import FlowchartSlides.Text.Blank

/-!
# Arguments of the command line

Every option takes one value, which follows as the next argument or is attached
to the option; no option may be given twice. Values are looked at when the next
option comes or the arguments end, so a name that is unknown is noticed before
an earlier value of the wrong kind.
-/
namespace FlowchartSlides.CommandLine

/-- What a run writes. -/
inductive Product where
  | snapshot
  | dsl
  | primitives
deriving Repr, DecidableEq

namespace Product

def name : Product → String
  | snapshot => "snapshot"
  | dsl => "dsl"
  | primitives => "primitives"

def all : List Product := [snapshot, dsl, primitives]

def ofName? (name : String) : Option Product := all.find? (·.name == name)

end Product

/-- The options. -/
inductive Key where
  | input
  | output
  | product
  | icons
  | adjustments
  | summary
  | settings
  | logLevel
deriving Repr, DecidableEq

namespace Key

/-- The name of an option behind two dashes. -/
def name : Key → String
  | input => "input"
  | output => "output"
  | product => "emit"
  | icons => "icons"
  | adjustments => "adjust"
  | summary => "summary"
  | settings => "configFile"
  | logLevel => "log-level"

/-- The letter of an option behind one dash. -/
def letter? : Key → Option Char
  | input => some 'i'
  | output => some 'o'
  | product => some 'e'
  | settings => some 'c'
  | icons | adjustments | summary | logLevel => none

/-- What an option is for, in a few words. -/
def purpose : Key → String
  | input => "file with the flowchart, Markdown when it ends in .md; - is standard input"
  | output => "file to write instead of standard output"
  | product => "what to write: snapshot, dsl or primitives"
  | icons => "file with an object from node ids to icons"
  | adjustments => "file with a list of adjustments"
  | summary => "text of the summary slide"
  | settings => "file with settings"
  | logLevel => "least severity to log: off, error, warn, info, debug or trace"

def all : List Key := [input, output, product, icons, adjustments, summary, settings, logLevel]

end Key

/-- Why there is no run. -/
inductive Halt where
  | help
  | version
  | unknownArgument (argument : String)
  | badValue (key : Key) (value : Option String)
  | repeated (key : Key)
  | unwantedValue (argument : String)
deriving Repr, DecidableEq

structure Arguments where
  input : Option String := none
  output : Option String := none
  product : Product := .snapshot
  icons : Option String := none
  adjustments : Option String := none
  summary : Option String := none
  settings : Option String := none
  logLevel : String := "warn"
deriving Repr, DecidableEq

/-- One argument, before it is known whether it is the value of an option. -/
inductive Word where
  | separator
  | option (key : Key) (attached : Option String)
  | question (answer : Halt)
  | refused (why : Halt)
  | plain (text : String)

namespace Word

/-- Splits at the first equals sign. -/
def splitValue (cs : List Char) : List Char × Option (List Char) :=
  let name := cs.takeWhile (· != '=')
  match cs.drop name.length with
  | [] => (name, none)
  | _ :: value => (name, some value)

/-- The question that has this name, and no value. -/
def question? : List Char → Option Halt
  | ['h', 'e', 'l', 'p'] => some .help
  | ['v', 'e', 'r', 's', 'i', 'o', 'n'] => some .version
  | _ => none

/-- What stands behind two dashes. -/
def ofLong (argument : String) (cs : List Char) : Word :=
  let (name, value) := splitValue cs
  match question? name, Key.all.find? (·.name.toList == name) with
  | some answer, _ => if value.isSome then refused (.unwantedValue argument) else question answer
  | none, some key => option key (value.map String.ofList)
  | none, none => refused (.unknownArgument argument)

/-- A value right behind a letter, where an equals sign may stand before it. -/
def attached? : List Char → Option String
  | [] => none
  | '=' :: value => some (String.ofList value)
  | value => some (String.ofList value)

/-- What stands behind one dash. -/
def ofShort (argument : String) (letter : Char) (rest : List Char) : Word :=
  match Key.all.find? (·.letter? == some letter) with
  | some key => option key (attached? rest)
  | none =>
    if letter = 'h' then question .help
    else if letter = 'V' then question .version
    else refused (.unknownArgument argument)

/-- A dash alone is a plain argument. -/
def ofArgument (argument : String) : Word :=
  match argument.toList with
  | ['-', '-'] => separator
  | '-' :: '-' :: cs => ofLong argument cs
  | '-' :: letter :: rest => ofShort argument letter rest
  | _ => plain argument

end Word

/-- The options that have been looked at, and the one that may still take a value. -/
structure Progress where
  arguments : Arguments := {}
  given : List Key := []
  open? : Option (Key × Option String) := none

namespace Progress

/-- The value of an option that names a file. -/
def path (key : Key) (value : String) : Except Halt (Option String) :=
  if value.isEmpty then .error (.badValue key value) else .ok value

/-- Sets an option to a value. -/
def set (a : Arguments) (key : Key) (value : String) : Except Halt Arguments :=
  match key with
  | .input => return { a with input := ← path key value }
  | .output => return { a with output := ← path key value }
  | .icons => return { a with icons := ← path key value }
  | .adjustments => return { a with adjustments := ← path key value }
  | .settings => return { a with settings := ← path key value }
  | .summary => return { a with summary := some value }
  | .logLevel => return { a with logLevel := value }
  | .product => match Product.ofName? value with
    | some product => return { a with product := product }
    | none => throw (.badValue key value)

/-- Looks at an option and its value. -/
def take (p : Progress) (key : Key) (value : Option String) : Except Halt Progress := do
  match value with
  | none => throw (.badValue key none)
  | some value =>
    if key ∈ p.given then throw (.repeated key)
    else return { arguments := ← set p.arguments key value, given := key :: p.given, open? := none }

/-- Looks at the option that may still take a value. -/
def settle (p : Progress) : Except Halt Progress :=
  match p.open? with
  | none => .ok p
  | some (key, value) => p.take key value

/-- Takes in one argument that is no separator. -/
def step (p : Progress) (word : Word) (argument : String) : Except Halt Progress := do
  match word, p.open? with
  | .refused why, _ => throw why
  | .question answer, _ => let _ ← p.settle; throw answer
  | .option key (some value), _ => (← p.settle).take key (some value)
  | .option key none, _ => return { (← p.settle) with open? := some (key, none) }
  | .plain text, some (key, none) => return { p with open? := some (key, some text) }
  | _, _ => throw (.unknownArgument argument)

/-- Takes in arguments in order; behind a separator nothing is expected. -/
def run : Progress → List String → Except Halt Arguments
  | p, [] => p.settle.map (·.arguments)
  | p, argument :: rest =>
    match Word.ofArgument argument with
    | .separator => match rest with
      | [] => p.settle.map (·.arguments)
      | extra :: _ => .error (.unknownArgument extra)
    | word => match p.step word argument with
      | .ok q => run q rest
      | .error why => .error why

end Progress

/-- Reads the arguments behind the program's name. -/
def Arguments.ofList (arguments : List String) : Except Halt Arguments := Progress.run {} arguments

end FlowchartSlides.CommandLine
