import DataBind.CommandLine.Run

/-! The program on the files and streams of its process. -/

namespace DataBind.CommandLine

/-- Codes come with either sign. -/
def faultOf : IO.Error → FileFault
  | .noFileOrDirectory .. => .notFound
  | .permissionDenied .. => .permissionDenied
  | .inappropriateType _ code _ => if code = 20 || -code = 20 then .notDirectory else .isDirectory
  | _ => .notFound

def readPath (path : String) : IO (Except FileFault String) := do
  match ← (IO.FS.readBinFile path).toBaseIO with
  | .ok bytes =>
    match String.fromUTF8? bytes with
    | some text => return .ok text
    | none => return .error .notText
  | .error error => return .error (faultOf error)

def writePath (written : FileWrite) : IO (Except FileFault Unit) := do
  match ← (IO.FS.writeFile written.path written.content).toBaseIO with
  | .ok _ => return .ok ()
  | .error error => return .error (faultOf error)

instance : Host IO where
  readFile := readPath
  writeFile := writePath
  print text := do (← IO.getStdout).putStr text
  warn text := do (← IO.getStderr).putStr text

end DataBind.CommandLine

open DataBind.CommandLine

def main (arguments : List String) : IO UInt32 :=
  execute arguments
