import ByteScript.Text.Basic

/-!
# Widths by name

The names of the built-in number types and their widths in bytes. Scripts and layouts read them
without regard to case.

* `padWidths`, `builtinWidth?`.
-/

namespace ByteScript

/-- The built-in names with their widths. -/
def padWidths : List (Text × Nat) :=
  [("byte".toList, 1), ("ubyte".toList, 1), ("short".toList, 2), ("ushort".toList, 2),
    ("int".toList, 4), ("uint".toList, 4), ("long".toList, 8), ("ulong".toList, 8),
    ("big".toList, 16), ("ubig".toList, 16), ("i8".toList, 1), ("u8".toList, 1),
    ("i16".toList, 2), ("u16".toList, 2), ("i32".toList, 4), ("u32".toList, 4),
    ("i64".toList, 8), ("u64".toList, 8), ("i128".toList, 16), ("u128".toList, 16)]

/-- The width of a built-in name in any case. -/
def builtinWidth? (name : Text) : Option Nat := padWidths.lookup name.lower

example : builtinWidth? "INT".toList = some 4 ∧ builtinWidth? "word".toList = none := by decide

end ByteScript
