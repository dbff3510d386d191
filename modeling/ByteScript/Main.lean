import ByteScript.CommandLine.Run

/-!
# The program

Reads the files that a command line names, runs it, prints the output and writes the result.

* `readFiles`: the contents of the files that can be read;
* `main`.
-/

namespace ByteScript

/-- The contents of the files that can be read, by name. -/
def readFiles : List Text → IO (List (Text × Bytes))
  | [] => return []
  | file :: files => do
    let contents : Option ByteArray ←
      try pure (some (← IO.FS.readBinFile (String.ofList file))) catch _ => pure none
    let rest ← readFiles files
    return match contents with
      | some bytes => (file, bytes.toList) :: rest
      | none => rest

/-- The files that a command line reads. -/
def filesRead (args : List Text) : List Text :=
  match Request.ofArguments args with
  | .ok r => r.layout.toList ++ r.files
  | .error _ => []

/-- Writes the result of a run; one that cannot be written makes the run fail. -/
def finish (o : Outcome) : IO UInt32 := do
  IO.print (String.ofList o.output)
  match o.written with
  | none => return UInt32.ofNat o.exit
  | some (file, bytes) =>
    try
      IO.FS.writeBinFile (String.ofList file) ⟨bytes.toArray⟩
      return UInt32.ofNat o.exit
    catch _ => return 1

end ByteScript

/-- The program: runs its command line. -/
def main (args : List String) : IO UInt32 := do
  let args := args.map String.toList
  let files ← ByteScript.readFiles (ByteScript.filesRead args)
  ByteScript.finish (ByteScript.run args fun file => files.lookup file)
