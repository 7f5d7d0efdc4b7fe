import HopTrace.Error
import HopTrace.Text.Blank

/-!
# What a command reads

A file holds bytes, which a command takes as text. A path is followed one name
at a time through a tree of directories and files, from its root if the path
begins with a slash and from the current directory otherwise.
-/

namespace HopTrace.Command

/-- Why a text could not be read. -/
inductive InputFault
  | notUtf8
  | os (e : OsError)
  deriving DecidableEq, Repr

namespace InputFault

def notFound : InputFault := .os { text := "No such file or directory (os error 2)" }

def notDirectory : InputFault := .os { text := "Not a directory (os error 20)" }

def isDirectory : InputFault := .os { text := "Is a directory (os error 21)" }

def nameTooLong : InputFault := .os { text := "File name too long (os error 36)" }

def text : InputFault → String
  | .notUtf8 => "stream did not contain valid UTF-8"
  | .os e => e.text

end InputFault

def decode (bytes : ByteArray) : Except InputFault String :=
  match String.fromUTF8? bytes with
  | some text => .ok text
  | none => .error .notUtf8

inductive FileNode
  | directory
  | file (bytes : ByteArray)

/-- Directories and files by the names that lead to them from the root. -/
structure FileTree where
  current : List String := []
  nodes : List (List String × FileNode)

namespace FileTree

def maxName : Nat := 255

def maxPath : Nat := 4095

def find? (t : FileTree) (place : List String) : Option FileNode :=
  if place.isEmpty then some .directory else t.nodes.lookup place

/-- What some names lead to. No name and a dot stay where they are, two dots go back; but only a
directory can be gone on from. -/
def follow (t : FileTree) : List String → List String → Except InputFault FileNode
  | place, [] =>
    match t.find? place with
    | some node => .ok node
    | none => .error .notFound
  | place, name :: names =>
    match t.find? place with
    | none => .error .notFound
    | some (.file _) => .error .notDirectory
    | some .directory =>
      if name = "" ∨ name = "." then t.follow place names
      else if name = ".." then t.follow place.dropLast names
      else if maxName < name.utf8ByteSize then .error .nameTooLong
      else t.follow (place ++ [name]) names

def read (t : FileTree) (path : String) : Except InputFault String :=
  if maxPath < path.utf8ByteSize then .error .nameTooLong
  else
    let start := if path.startsWith "/" then [] else t.current
    match t.follow start ((Text.splitAt '/' path.toList).map String.ofList) with
    | .ok (.file bytes) => decode bytes
    | .ok .directory => .error .isDirectory
    | .error fault => .error fault

end FileTree

end HopTrace.Command
