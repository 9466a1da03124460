import Tablewright.CommandLine.Run

/-! A directory that holds just some files, by their paths. -/

namespace Tablewright.CommandLine

/-- Whether a path leads through or into another. -/
def isBelow (path folder : String) : Bool := path.startsWith (folder ++ "/")

/-- The contents of a file, or why there are none to be had. -/
def readFrom (files : List (String × String)) (path : String) : Except FileFault String :=
  match Entries.get? path files with
  | some text => .ok text
  | none =>
    if path = "." ∨ path = ".." ∨ path = "/" ∨ files.any (fun f => isBelow f.1 path) then
      .error .directory
    else if files.any fun f => isBelow path f.1 then .error .notDirectory
    else .error .missing

end Tablewright.CommandLine
