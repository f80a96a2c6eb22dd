import FlowchartSlides.Text.Lines

/-!
# Files of a run

A run reads whole texts by path. Where they come from is left to the `Host`, so
that a run is a function of its arguments and of what the host answers.
-/
namespace FlowchartSlides.CommandLine

/-- Why a file cannot be read or written: the system refuses with a text and a
number, the path holds a NUL, or the content is no text. -/
inductive FileFault where
  | system (text : String) (code : Nat)
  | nulInName
  | notText
deriving Repr, DecidableEq

namespace FileFault

def notFound : FileFault := system "No such file or directory" 2

def notFolder : FileFault := system "Not a directory" 20

def isFolder : FileFault := system "Is a directory" 21

def nameTooLong : FileFault := system "File name too long" 36

def message : FileFault → String
  | system text code => text ++ " (os error " ++ toString code ++ ")"
  | nulInName => "file name contained an unexpected NUL byte"
  | notText => "stream did not contain valid UTF-8"

end FileFault

/-- The text that bytes encode. -/
def decodeText (content : ByteArray) : Except FileFault String :=
  match String.fromUTF8? content with
  | some text => .ok text
  | none => .error .notText

/-- What a run can read. -/
structure Host where
  text : String → Except FileFault String
  standardInput : Except FileFault String

namespace Path

/-- The segments of a path between slashes. -/
def segments (path : String) : List (List Char) := Text.split '/' path.toList

/-- The number of bytes that a path may take together with the NUL that ends it. -/
def sizeLimit : Nat := 4096

/-- What is wrong with a path before any of it is followed. -/
def fault? (path : String) : Option FileFault :=
  if path.toList.contains '\x00' then some .nulInName
  else if sizeLimit ≤ path.utf8ByteSize then some .nameTooLong
  else none

/-- Whether a segment stays where it is. -/
def isStill (segment : List Char) : Bool := segment == [] || segment == ['.']

/-- The part behind the last dot of a name, unless that dot comes first. -/
def suffix? (name : List Char) : Option (List Char) :=
  let behind := name.reverse.takeWhile (· != '.')
  if behind.length + 1 < name.length then some behind.reverse else none

/-- The suffix of the last name in a path. -/
def extension? (path : String) : Option (List Char) :=
  match ((segments path).filter (!isStill ·)).getLast? with
  | some name => if name == ['.', '.'] then none else suffix? name
  | none => none

def isMarkdown (path : String) : Bool :=
  extension? path == some "md".toList || extension? path == some "markdown".toList

/-- Whether a path is a dash, which stands for standard input. -/
def isDash (path : String) : Bool :=
  match segments path with
  | first :: rest => first == ['-'] && rest.all isStill
  | [] => false

end Path

end FlowchartSlides.CommandLine
