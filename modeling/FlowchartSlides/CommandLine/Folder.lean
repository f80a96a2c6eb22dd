import FlowchartSlides.CommandLine.File

/-!
# Folders held in memory

A folder is a list of files with their names from the folder down. Every
beginning of such names is a folder too. Paths are followed one segment after
the other; above the folder there are folders, but nothing can be found there.
-/
namespace FlowchartSlides.CommandLine

structure Folder where
  files : List (List (List Char) × ByteArray)

/-- What a path leads to. -/
inductive Entry where
  | folder
  | file (content : ByteArray)

namespace Folder

/-- A folder of files by path. -/
def ofList (files : List (String × ByteArray)) : Folder :=
  ⟨files.map fun (path, content) => ((Path.segments path).filter (!Path.isStill ·), content)⟩

/-- What stands under names from the folder down. -/
def entry? (f : Folder) (names : List (List Char)) : Option Entry :=
  match f.files.find? (·.1 == names) with
  | some file => some (.file file.2)
  | none =>
    if names.isEmpty || f.files.any (names.isPrefixOf ·.1) then some .folder else none

/-- The greatest size of a name in bytes. -/
def nameLimit : Nat := 255

/-- Follows segments from names in the folder, or from above the folder. -/
def follow (f : Folder) : Option (List (List Char)) → List (List Char) → Except FileFault Entry
  | none, [] => .ok .folder
  | none, segment :: rest =>
    if Path.isStill segment || segment == ['.', '.'] then follow f none rest else .error .notFound
  | some names, [] => match f.entry? names with
    | some entry => .ok entry
    | none => .error .notFound
  | some names, segment :: rest => match f.entry? names with
    | none => .error .notFound
    | some (.file _) => .error .notFolder
    | some .folder =>
      if Path.isStill segment then follow f (some names) rest
      else if segment == ['.', '.'] then
        follow f (if names.isEmpty then none else some names.dropLast) rest
      else if nameLimit < (String.ofList segment).utf8ByteSize then .error .nameTooLong
      else follow f (some (names ++ [segment])) rest

/-- What a path leads to. -/
def resolve (f : Folder) (path : String) : Except FileFault Entry :=
  match Path.fault? path with
  | some fault => .error fault
  | none => f.follow (some []) (Path.segments path)

/-- The text of the file at a path. -/
def text (f : Folder) (path : String) : Except FileFault String := do
  match ← f.resolve path with
  | .folder => throw .isFolder
  | .file content => decodeText content

/-- What hinders writing a file at a sound path: its place is missing, or is a
folder. -/
def obstacle? (f : Folder) (path : String) : Option FileFault :=
  let place := (Path.segments path).reverse
  match place.dropWhile List.isEmpty with
  | [] => some .isFolder
  | _ :: above => match f.follow (some []) (above.reverse ++ [[]]) with
    | .error fault => some fault
    | .ok _ =>
      if place.head?.any List.isEmpty then some .isFolder
      else match f.follow (some []) place.reverse with
        | .ok .folder => some .isFolder
        | .ok (.file _) => none
        | .error fault => if fault = .notFound then none else some fault

/-- What hinders writing a file at a path. -/
def hindrance? (f : Folder) (path : String) : Option FileFault :=
  (Path.fault? path).or (f.obstacle? path)

/-- A host that reads from a folder. -/
def host (f : Folder) (input : ByteArray) : Host := ⟨f.text, decodeText input⟩

end Folder

end FlowchartSlides.CommandLine
