import FlowchartSlides.CommandLine.Exit

/-!
# The program

Reads the files that the arguments name, runs, and writes what the run made.
Only this module performs effects.
-/
namespace FlowchartSlides.CommandLine

/-- The fault that an error of the system stands for. -/
def FileFault.ofError : IO.Error → FileFault
  | .noFileOrDirectory _ code text | .interrupted _ code text => .system text code.toNat
  | .alreadyExists _ code text | .inappropriateType _ code text | .noSuchThing _ code text
  | .invalidArgument _ code text | .permissionDenied _ code text
  | .resourceExhausted _ code text => .system text code.toNat
  | .otherError code text | .resourceBusy code text | .resourceVanished code text
  | .unsupportedOperation code text | .hardwareFault code text
  | .unsatisfiedConstraints code text | .illegalOperation code text
  | .protocolError code text | .timeExpired code text => .system text code.toNat
  | .unexpectedEof => .system "unexpected end of file" 0
  | .userError text => .system text 0

/-- An action whose error becomes a fault. -/
def attempt {α : Type} (action : IO α) : IO (Except FileFault α) := do
  return (← action.toBaseIO).mapError FileFault.ofError

/-- All that is left on a stream. -/
partial def readAll (stream : IO.FS.Stream) (done : ByteArray) : IO ByteArray := do
  let chunk ← stream.read 65536
  if chunk.isEmpty then return done else readAll stream (done ++ chunk)

/-- The content of a file. -/
def readFile (path : String) : IO ByteArray := do
  (← IO.FS.Handle.mk path .read).readBinToEnd

/-- The host of a run, with the files read in advance. -/
def load (a : Arguments) : IO Host := do
  let named := [a.settings, a.input, a.icons, a.adjustments].filterMap id
  let files ← named.mapM fun path => do
    return (path, (← attempt (readFile path)).bind decodeText)
  let fromInput := a.input.all Path.isDash
  let content ← if fromInput then attempt (do readAll (← IO.getStdin) .empty) else pure (.ok .empty)
  return {
    text := fun path => (files.lookup path).getD (.error .notFound)
    standardInput := content.bind decodeText }

/-- Writes the output file, if there is one. -/
def writeOutput (a : Arguments) (r : Rendering) : IO (Option FileFault) := do
  match a.output with
  | none => return none
  | some path => match ← attempt (IO.FS.writeFile path r.text) with
    | .ok _ => return none
    | .error fault => return some fault

/-- Carries out a run. -/
def execute (a : Arguments) : IO Exit := do
  match render a (← load a) with
  | .error why => return .ofRun a (.error why)
  | .ok r =>
    let fault ← writeOutput a r
    return .ofRun a (deliver a r fun _ => fault)

end FlowchartSlides.CommandLine

open FlowchartSlides.CommandLine in
def main (arguments : List String) : IO UInt32 := do
  let exit ← match Arguments.ofList arguments with
    | .error why => pure (Exit.ofHalt why)
    | .ok a => execute a
  (← IO.getStdout).putStr exit.out
  exit.err.forM IO.eprintln
  return exit.code.toUInt32
