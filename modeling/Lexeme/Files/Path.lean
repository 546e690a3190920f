/-
Lexeme.Files.Path — paths, and a tree of files in memory.

A path is followed part by part. An empty part and a single dot stay where
they are, two dots go up, and a name goes down; each of them asks for a
directory to be in. So a slash behind the name of a file is an error. Names and
whole paths have a greatest length, in bytes.
-/
import Lexeme.Files.Reading

namespace Lexeme

/-- The parts of a path, between its slashes. -/
def pathParts (path : String) : List String :=
  path.splitOn "/"

/-- The path of what is in a directory under a name. A slash is put between them unless there is
one already, or nothing in front of it. -/
def pathIn (directory name : String) : String :=
  if directory.isEmpty || directory.endsWith "/" then directory ++ name
  else directory ++ "/" ++ name

/-- Whether a part stays where it is. -/
def isIdle (part : String) : Bool :=
  part == "" || part == "."

/-- Whether a path is a single hyphen and no more, which asks for standard input. Idle parts behind
it make no difference, and any part before it does. -/
def isHyphen (path : String) : Bool :=
  match pathParts path with
  | part :: parts => part == "-" && parts.all isIdle
  | [] => false

/-- A file or a directory. -/
inductive Node where
  | file (bytes : List UInt8)
  | directory
deriving DecidableEq, Repr

/-- A tree of files: nodes by the names on the way down to them. -/
structure Tree where
  nodes : List (List String × Node)
  /-- The directory that paths without a slash in front start from. -/
  here : List String

namespace Tree

/-- The greatest length of a name. -/
def nameLimit : Nat := 255

/-- The greatest length of a path. -/
def pathLimit : Nat := 4095

/-- What there is at a place. What is on the way down to a node is a directory. -/
def at? (t : Tree) (place : List String) : Option Node :=
  match t.nodes.lookup place with
  | some node => some node
  | none =>
    if place.isPrefixOf t.here || t.nodes.any fun n => place.isPrefixOf n.1 then some .directory
    else none

/-- What following parts of a path from a place leads to. -/
def walk (t : Tree) : List String → List String → Except ReadError Node
  | place, [] =>
    match t.at? place with
    | some node => .ok node
    | none => .error .notFound
  | place, part :: parts =>
    match t.at? place with
    | none => .error .notFound
    | some (.file _) => .error .notDirectory
    | some .directory =>
      if isIdle part then t.walk place parts
      else if part == ".." then t.walk place.dropLast parts
      else if nameLimit < part.utf8ByteSize then .error .nameTooLong
      else t.walk (place ++ [part]) parts

/-- What reading the node at a path gives. -/
def read (t : Tree) (path : String) : Reading :=
  let start := if path.startsWith "/" then [] else t.here
  if pathLimit < path.utf8ByteSize then .error .nameTooLong
  else
    match t.walk start (pathParts path) with
    | .error why => .error why
    | .ok .directory => .error .isDirectory
    | .ok (.file bytes) => .ok bytes

/-- The files of a tree. -/
def files (t : Tree) : Files :=
  ⟨t.read⟩

end Tree
end Lexeme
