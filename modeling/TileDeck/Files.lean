set_option autoImplicit false

namespace TileDeck.Files

inductive Node
  | file (bytes : ByteArray)
  | directory (entries : List (String × Node))

inductive Fault
  | missing
  | isDirectory
  | notDirectory
  | notText
deriving DecidableEq, Repr

def Fault.message : Fault → String
  | missing => "No such file or directory (os error 2)"
  | isDirectory => "Is a directory (os error 21)"
  | notDirectory => "Not a directory (os error 20)"
  | notText => "stream did not contain valid UTF-8"

def parts (path : String) : List String := (path.toList.splitOn '/').map String.ofList

def stays (part : String) : Bool := part = "" ∨ part = "."

namespace Node

def empty : Node := directory []

def text : Node → Except Fault String
  | directory _ => .error .isDirectory
  | file bytes =>
    match String.fromUTF8? bytes with
    | some text => .ok text
    | none => .error .notText

def entries : Node → List (String × Node)
  | directory entries => entries
  | file _ => []

def insert (name : String) (child : Node) (entries : List (String × Node)) :
    List (String × Node) :=
  entries.filter (·.1 ≠ name) ++ [(name, child)]

/-- Put a file at the end of a chain of directories, making those that are missing. A file in the
way is replaced. -/
def put (bytes : ByteArray) : List String → Node → Node
  | [], _ => file bytes
  | name :: rest, node =>
    let child := (node.entries.lookup name).getD empty
    directory (insert name (put bytes rest child) node.entries)

def follow (above : List Node) (node : Node) : List String → Except Fault Node
  | [] => .ok node
  | part :: rest =>
    match node with
    | file _ => .error .notDirectory
    | directory entries =>
      if stays part then follow above node rest
      else if part = ".." then
        match above with
        | [] => follow [] empty rest
        | parent :: above => follow above parent rest
      else
        match entries.lookup part with
        | none => .error .missing
        | some child => follow (node :: above) child rest

end Node

/-- The node at a path from a directory. What lies outside it counts as empty. -/
def resolve (root : Node) (path : String) : Except Fault Node :=
  if path.isEmpty then .error .missing
  else
    let start := if path.toList.head? = some '/' then .empty else root
    start.follow [] (parts path)

def read (root : Node) (path : String) : Except Fault String := resolve root path >>= Node.text

def tree (files : List (String × ByteArray)) : Node :=
  files.foldl (fun root (path, bytes) =>
    root.put bytes ((parts path).filter fun part => !stays part)) .empty

end TileDeck.Files
