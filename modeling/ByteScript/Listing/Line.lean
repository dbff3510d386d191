import ByteScript.Number.Digits

/-!
# Lines of a listing

A listing is a script that gives the bytes of a binary back. Each of its lines stands for a block
of bytes; lines of a structure are indented one step deeper than the field that it belongs to.

* `Line`, `Line.indent`, `Line.render`;
* `trailer`: the line of the bytes that no field describes;
* `Listing`, `Listing.text`.
-/

namespace ByteScript

/-- A line of a listing: its depth, the bytes that it stands for and its text. -/
structure Line where
  depth : Nat
  block : Bytes
  text : Text
deriving DecidableEq

/-- A line one step deeper. -/
def Line.indent (l : Line) : Line := { l with depth := l.depth + 1 }

/-- A line with four spaces for each step of its depth and a line feed. -/
def Line.render (l : Line) : Text := List.replicate (4 * l.depth) ' ' ++ l.text ++ ['\n']

/-- Bytes as hexadecimal literals without leading zeros. -/
def trailer (bs : Bytes) : Text :=
  List.intercalate [' '] (bs.map fun b => '#' :: hexadecimal b.toNat)

/-- The lines of a binary, the number of bytes that they stand for and the bytes after those. -/
structure Listing where
  lines : List Line
  consumed : Nat
  leftover : Bytes
deriving DecidableEq

/-- The lines of a listing. -/
def Listing.body (l : Listing) : Text := l.lines.flatMap Line.render

/-- A listing as text; bytes left over follow after an empty line. -/
def Listing.text (l : Listing) : Text :=
  if l.leftover = [] then l.body else l.body ++ '\n' :: trailer l.leftover

example : trailer [0, 0xab] = "#0 #ab".toList := by decide

end ByteScript
