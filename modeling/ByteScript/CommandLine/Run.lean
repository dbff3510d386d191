import ByteScript.CommandLine.Arguments
import ByteScript.Script.Compile
import ByteScript.Listing.Decode

/-!
# Runs of the program

A run compiles the input files, one after another as one script, or lists each of them by a
layout. Files that cannot be read are passed over and make the run fail; what is left still runs.

* `escapedByte`, `escapedBytes`: bytes as they are printed;
* `Outcome`: what a run leaves behind;
* `Request.compileFiles`, `Request.listFiles`: the two kinds of run;
* `run`: the run of a command line.
-/

namespace ByteScript

/-- A byte in the printed form. -/
def escapedByte (b : UInt8) : Text :=
  if b = 9 then ['\\', 't']
  else if b = 10 then ['\\', 'n']
  else if b = 13 then ['\\', 'r']
  else if b = 34 ∨ b = 39 ∨ b = 92 then ['\\', Char.ofNat b.toNat]
  else if 32 ≤ b.toNat ∧ b.toNat < 127 then [Char.ofNat b.toNat]
  else '\\' :: 'x' :: hexByte b

/-- Bytes in printable ASCII. -/
def escapedBytes (bs : Bytes) : Text := bs.flatMap escapedByte

/-- What a run leaves behind: its exit code, its output and the file that it writes. -/
structure Outcome where
  exit : Nat
  output : Text := []
  written : Option (Text × Bytes) := none
deriving DecidableEq

namespace Outcome

/-- A run that failed before any output. -/
def failed : Outcome := { exit := 1 }

/-- The exit code of a run that went through, and whether every file was good. -/
def code (good : Bool) : Nat := if good then 0 else 1

end Outcome

namespace Request

variable (r : Request) (read : Text → Option Bytes)

/-- The settings that a request asks for, with the encoding that its label names in a look-up. -/
def settings (find? : Text → Option Encoding := Encoding.standard?) :
    Except UnknownEncoding Settings :=
  Config.settings ⟨r.encoding, some r.padWidth, r.maxDepth⟩ find?

/-- A file as text in UTF-8. -/
def readText (file : Text) : Option Text := (read file).bind Encoding.utf8.decode?

/-- The texts of the readable files, one after another. -/
def source : Text := (r.files.filterMap (readText read)).flatten

variable (find? : Text → Option Encoding)

/-- The run that compiles the files. -/
def compileFiles : Outcome :=
  match r.settings find? with
  | .error _ => .failed
  | .ok st =>
    match compile st (r.source read) with
    | .error _ => .failed
    | .ok bs =>
      let exit := Outcome.code (r.files.all fun file => (readText read file).isSome)
      match r.out with
      | some file => { exit, written := some (file, bs) }
      | none => { exit, output := escapedBytes bs ++ ['\n'] }

/-- The listing of one file, if it can be read and decoded. -/
def listFile (st : Settings) (layout : Layout) (file : Text) : Option Text := do
  let bs ← read file
  let listing ← (decompile st layout bs).toOption
  return listing.text

/-- The run that lists the files by the layout in a file. -/
def listFiles (layoutFile : Text) : Outcome :=
  match r.settings find?, (readText read layoutFile).bind Layout.ofText? with
  | .ok st, some layout =>
    let listings := r.files.map (listFile read st layout)
    { exit := Outcome.code (listings.all Option.isSome)
      output := header layout ++ '\n' :: (listings.filterMap id).flatMap fun s => s ++ ['\n'] }
  | _, _ => .failed

/-- The run of a request. -/
def run : Outcome :=
  match r.layout with
  | some file => r.listFiles read find? file
  | none => r.compileFiles read find?

end Request

/-- **The run of a command line**, where `read` gives the contents of the files that can be read and
`find?` the encodings by their labels. The program answers a question on itself with `help`. -/
def run (args : List Text) (read : Text → Option Bytes)
    (find? : Text → Option Encoding := Encoding.standard?) (help : Text := []) : Outcome :=
  match Request.ofArguments args with
  | .ok r => r.run read find?
  | .error .information => { exit := 0, output := help }
  | .error .usage => { exit := 2 }

end ByteScript
