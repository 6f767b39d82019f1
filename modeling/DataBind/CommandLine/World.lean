import DataBind.CommandLine.Run

/-!
# Worlds

A world is a disk and what a program has shown. A disk finds a file behind each path and holds its bytes.
-/

namespace DataBind.CommandLine

/-- What the paths hold. -/
abbrev Files := String → Except FileFault String

/-- Several paths may lead to one file, and some to none. -/
structure Disk (File : Type) where
  locate : String → Except FileFault File
  bytes : File → ByteArray
  /-- Why a file does not open for a new text. -/
  refusal? : File → Option FileFault := fun _ => none

namespace Disk

variable {File : Type}

/-- What the bytes of a file say. -/
def text (bytes : ByteArray) : Except FileFault String :=
  match String.fromUTF8? bytes with
  | some text => .ok text
  | none => .error .notText

def files (disk : Disk File) : Files := fun path =>
  (disk.locate path).bind fun file => text (disk.bytes file)

/-- A disk with a file of its own for each path that holds a text. -/
def ofFiles (files : Files) : Disk String where
  locate path := (files path).map fun _ => path
  bytes path := ((files path).toOption.getD "").toUTF8

variable [DecidableEq File]

def store (disk : Disk File) (file : File) (content : String) : Disk File :=
  { disk with bytes := fun other => if other = file then content.toUTF8 else disk.bytes other }

/-- A file that opens takes all of a text. Commands write only what they have read, so what would become of a path
without a file does not matter. -/
def write (disk : Disk File) (written : FileWrite) : Except FileFault (Disk File) := do
  let file ← disk.locate written.path
  match disk.refusal? file with
  | some fault => throw fault
  | none => return disk.store file written.content

end Disk

structure World (File : Type) where
  disk : Disk File
  output : String := ""
  messages : String := ""
  /-- What files took, in this order. -/
  written : List FileWrite := []

namespace World

variable {File : Type}

def print (world : World File) (text : String) : World File :=
  { world with output := world.output ++ text }

def warn (world : World File) (text : String) : World File :=
  { world with messages := world.messages ++ text }

def wrote (world : World File) (written : FileWrite) (disk : Disk File) : World File :=
  { world with disk, written := world.written ++ [written] }

variable [DecidableEq File]

def write (world : World File) (written : FileWrite) : Except FileFault Unit × World File :=
  match world.disk.write written with
  | .ok disk => (.ok (), world.wrote written disk)
  | .error fault => (.error fault, world)

end World

section

variable {File : Type} [DecidableEq File]

instance : Host (StateM (World File)) where
  readFile path := modifyGet fun world => (world.disk.files path, world)
  writeFile written := modifyGet fun world => world.write written
  print text := modify fun world => world.print text
  warn text := modify fun world => world.warn text

/-- Acts on a world and may fail. -/
abbrev WorldM (File : Type) := CommandT (StateM (World File))

/-- A run with nothing shown before: the exit code and the world afterwards. -/
def runOn (disk : Disk File) (arguments : List String) : UInt32 × World File :=
  (execute arguments : StateM (World File) UInt32).run { disk }

end

/-! ### Runs on texts -/

structure Outcome where
  code : UInt32
  output : String := ""
  messages : String := ""
  written : List FileWrite := []
deriving DecidableEq, Repr

/-- A run where the paths hold these texts. -/
def run (files : Files) (arguments : List String) : Outcome :=
  let (code, world) := runOn (.ofFiles files) arguments
  { code, output := world.output, messages := world.messages, written := world.written }

end DataBind.CommandLine
