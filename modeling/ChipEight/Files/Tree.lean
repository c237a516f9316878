import ChipEight.Word
import ChipEight.Text.Quoted

namespace ChipEight

/-- The files and directories below the working directory, by their names from there on. A
directory holds no bytes; those on the way to an entry need no entry of their own. -/
structure FileTree where
  entries : List (List String × Option (List Byte))

namespace FileTree

inductive Fault
  | notFound | notADirectory | isADirectory | nameTooLong | embeddedNul
  deriving DecidableEq

def Fault.message (path : String) : Fault → String
  | .notFound => "[Errno 2] No such file or directory: " ++ Text.quoted path
  | .notADirectory => "[Errno 20] Not a directory: " ++ Text.quoted path
  | .isADirectory => "[Errno 21] Is a directory: " ++ Text.quoted path
  | .nameTooLong => "[Errno 36] File name too long: " ++ Text.quoted path
  | .embeddedNul => "embedded null byte"

inductive Node
  | file (content : List Byte)
  | directory

def node? (t : FileTree) (names : List String) : Option Node :=
  match t.entries.find? (·.1 == names) with
  | some (_, some content) => some (.file content)
  | some (_, none) => some .directory
  | none => if t.entries.any (names.isPrefixOf ·.1) then some .directory else none

/-- Where a walk through directories has come to. Above the working directory only the way to the
root is known. -/
inductive Place
  | inside (names : List String)
  | above

/-- Follows the names of a path. A name can only be looked up in a directory, and has at most 255
bytes. -/
def walk (t : FileTree) : Place → List String → Except Fault Node
  | .inside names, [] =>
    match if names.isEmpty then some Node.directory else t.node? names with
    | some n => .ok n
    | none => .error .notFound
  | .above, [] => .ok .directory
  | .inside names, name :: rest =>
    match if names.isEmpty then some Node.directory else t.node? names with
    | none => .error .notFound
    | some (.file _) => .error .notADirectory
    | some .directory =>
      if 255 < name.utf8ByteSize then .error .nameTooLong
      else if name == "" || name == "." then t.walk (.inside names) rest
      else if name == ".." then
        if names.isEmpty then t.walk .above rest else t.walk (.inside names.dropLast) rest
      else t.walk (.inside (names ++ [name])) rest
  | .above, name :: rest =>
    if 255 < name.utf8ByteSize then .error .nameTooLong
    else if name == "" || name == "." || name == ".." then t.walk .above rest
    else .error .notFound

def names (path : String) : List String :=
  path.splitOn "/"

def read (t : FileTree) (path : String) : Except Fault (List Byte) :=
  if path.contains '\x00' then .error .embeddedNul
  else if path == "" then .error .notFound
  else if 4096 ≤ path.utf8ByteSize then .error .nameTooLong
  else
    match t.walk (if path.startsWith "/" then .above else .inside []) (names path) with
    | .error e => .error e
    | .ok (.file content) => .ok content
    | .ok .directory => .error .isADirectory

def baseName (path : String) : String :=
  (names path).getLast?.getD ""

end FileTree

end ChipEight
