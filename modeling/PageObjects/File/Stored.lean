import PageObjects.File.Path
import PageObjects.Text.Utf8

namespace PageObjects

/-- What stands at a path. -/
inductive Stored where
  | file (bytes : List UInt8)
  | folder
  | absent
  /-- The path goes on behind a file. -/
  | beyondFile
  /-- The path cannot be used for another reason, which the system numbers. -/
  | failing (code : Nat) (reason : Text)
  deriving DecidableEq, Repr

/-- What stands in a folder that holds some files, at parts that lead straight down. -/
def storedBelow (files : List (FilePath × List UInt8)) (parts : List Text) : Stored :=
  match files.find? fun f => f.1.root.isEmpty && f.1.parts == parts with
  | some f => .file f.2
  | none =>
    if parts.isEmpty || files.any fun f => f.1.root.isEmpty && parts.isPrefixOf f.1.parts then
      .folder
    else .absent

/-- What further parts lead to; two points lead up. -/
def storedBehind (files : List (FilePath × List UInt8)) (here : List Text) : List Text → Stored
  | [] => storedBelow files here
  | part :: rest =>
    match storedBelow files here with
    | .folder => storedBehind files (if part == ['.', '.'] then here.dropLast else here ++ [part]) rest
    | .file _ => .beyondFile
    | s => s

/-- What stands at a path in a folder that holds some files; nothing stands outside it. -/
def storedAmong (files : List (FilePath × List UInt8)) (p : FilePath) : Stored :=
  if p.root.isEmpty then storedBehind files [] p.parts else .absent

/-- Why a path cannot be used as asked. -/
inductive FileError where
  | absent (path : FilePath)
  | taken (path : FilePath)
  | beyondFile (path : FilePath)
  | folder (path : FilePath)
  | system (code : Nat) (reason : Text) (path : FilePath)
  | encoding (fault : Utf8Fault)
  deriving DecidableEq, Repr

def FileError.message : FileError → Text
  | absent p => "[Errno 2] No such file or directory: " ++ Text.display p.toText
  | taken p => "[Errno 17] File exists: " ++ Text.display p.toText
  | beyondFile p => "[Errno 20] Not a directory: " ++ Text.display p.toText
  | folder p => "[Errno 21] Is a directory: " ++ Text.display p.toText
  | system code reason p =>
    "[Errno " ++ Text.ofNat code ++ "] " ++ reason ++ ": " ++ Text.display p.toText
  | encoding fault => fault.message

/-- The number of the system error for links that lead round. -/
def linkErrorCode : Nat := 40

/-- Whether an error tells that nothing is there. Links that lead round lead to nothing. -/
def FileError.meansNothing : FileError → Bool
  | absent _ | beyondFile _ => true
  | system code _ _ => code == linkErrorCode
  | _ => false

/-- The text of a file, with every line break as a line feed. -/
def readText (stored : FilePath → Stored) (p : FilePath) : Except FileError Text :=
  match stored p with
  | .file bytes =>
    match Text.ofUtf8 bytes with
    | .ok t => .ok (Text.readBreaks t)
    | .error fault => .error (.encoding fault)
  | .folder => .error (.folder p)
  | .absent => .error (.absent p)
  | .beyondFile => .error (.beyondFile p)
  | .failing code reason => .error (.system code reason p)

/-- Why a text cannot be written to a file in a folder that is made where it is missing. -/
def writeError? (stored : FilePath → Stored) (folder target : FilePath) : Option FileError :=
  match stored folder with
  | .file _ => some (.taken folder)
  | .beyondFile => some (.beyondFile folder)
  | .absent => none
  | .failing code reason => some (.system code reason folder)
  | .folder =>
    match stored target with
    | .folder => some (.folder target)
    | .failing code reason => some (.system code reason target)
    | _ => none

end PageObjects
