/-
Module: QasmDiagram.Command.Directory
Purpose: A directory as a value, which the command line program can run on.
Trusted boundary: none
Main exports: Directory, Directory.locate, Directory.host
-/
import QasmDiagram.Command

namespace QasmDiagram

/-- The files of a directory without folders: names and contents. -/
abbrev Directory := List (String × ByteArray)

namespace Directory

/-- The content of the file of a name. -/
def find? (d : Directory) (name : String) : Option ByteArray :=
  (List.find? (fun entry => entry.1 == name) d).map Prod.snd

/-- The directory with the file of a name replaced, or added behind the others. -/
def put (d : Directory) (name : String) (content : ByteArray) : Directory :=
  if (d.find? name).isSome then
    d.map fun entry => if entry.1 == name then (name, content) else entry
  else d ++ [(name, content)]

/-- What a path leads to, seen from inside the directory: the file of a name, whether it is there or
not, the same with a slash behind it, or a place where no file can be. -/
inductive Place where
  | file (name : String)
  | slashed (name : String)
  | nowhere (fault : FileFault)
deriving Repr, Inhabited, DecidableEq

/-- The steps of a path, which stand between slashes. -/
def stepsOf (path : List Char) : List String :=
  ((path.splitBy fun a b => (a == '/') == (b == '/')).filter fun step =>
    step.head? != some '/').map String.ofList

/-- The most bytes that a name may have. -/
def nameLimit : Nat := 255

/-- The most bytes that a path may have. -/
def pathLimit : Nat := 4095

/-- The content of the file of a name, or why there is none. -/
def content (d : Directory) (name : String) : Except FileFault ByteArray :=
  if nameLimit < name.utf8ByteSize then .error .nameTooLong
  else
    match d.find? name with
    | some content => .ok content
    | none => .error .missing

/-- Where steps lead from the parent of the directory or farther out. All that is known out there is
that there are folders. -/
def walkOutside : List String → Place
  | [] => .nowhere .isFolder
  | step :: rest => if step = "." ∨ step = ".." then walkOutside rest else .nowhere .missing

/-- Where steps lead from inside the directory. `slashed` tells whether a slash follows the last. -/
def walk (d : Directory) (slashed : Bool) : List String → Place
  | [] => .nowhere .isFolder
  | step :: rest =>
      if step = "." then walk d slashed rest
      else if step = ".." then walkOutside rest
      else if rest.isEmpty then if slashed then .slashed step else .file step
      else
        match d.content step with
        | .ok _ => .nowhere .notFolder
        | .error fault => .nowhere fault

/-- What a path leads to. -/
def locate (d : Directory) (path : String) : Place :=
  let text := path.toList
  if text.isEmpty then .nowhere .missing
  else if pathLimit < path.utf8ByteSize then .nowhere .nameTooLong
  else if text.head? = some '/' then walkOutside (stepsOf text)
  else walk d (text.getLast? == some '/') (stepsOf text)

/-- Reads the file at a path. -/
def read (d : Directory) (path : String) : Except FileFault ByteArray :=
  match d.locate path with
  | .nowhere fault => .error fault
  | .slashed name =>
      match d.content name with
      | .ok _ => .error .notFolder
      | .error fault => .error fault
  | .file name => d.content name

/-- Writes a text to the file at a path. -/
def write (d : Directory) (path text : String) : Except FileFault Directory :=
  match d.locate path with
  | .nowhere fault => .error fault
  | .slashed _ => .error .isFolder
  | .file name =>
      if nameLimit < name.utf8ByteSize then .error .nameTooLong
      else .ok (d.put name text.toUTF8)

/-- The surroundings of a program that runs in a directory with the given standard input. -/
def host (input : ByteArray) : Host (StateM Directory) where
  input := return input
  readFile path := return (← get).read path
  writeFile path text := do
    match (← get).write path text with
    | .error f => return .error f
    | .ok d =>
        set d
        return .ok ()

/-- Runs the program in the directory. -/
def run (d : Directory) (input : ByteArray) (environment : Option String)
    (arguments : List String) : Report × Directory :=
  (Command.run (host input) environment arguments).run d

end Directory

end QasmDiagram
