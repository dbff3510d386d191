import ByteScript.Encoding.Label
import ByteScript.Json.Record

/-!
# Settings

What scripts and layouts are read under: the encoding of their texts, the width that numbers start
with and the depth to which definitions and structures may nest.

* `Config`: the settings as they are asked for, with the encoding by its label;
* `Config.ofJson?`: from a JSON record;
* `Settings`, `Config.settings`: the settings with the encoding found.
-/

namespace ByteScript

/-- Settings with the encoding by its label. -/
structure Config where
  textEncoding : Text := "UTF-8".toList
  /-- The width of numbers before the first directive; without one each takes its least width. -/
  defaultPadWidth : Option Nat := some 4
  maxDepth : Nat := 64
deriving DecidableEq

/-- Settings with the encoding found. -/
structure Settings where
  encoding : Encoding := .utf8
  padWidth : Option Nat := some 4
  maxDepth : Nat := 64

/-- The label names no encoding. -/
structure UnknownEncoding where
  label : Text
deriving DecidableEq

/-- The message for a label that names no encoding. -/
def UnknownEncoding.message (e : UnknownEncoding) : Text := "unknown encoding: ".toList ++ e.label

namespace Config

/-- The width in a record: a size, or null for none. -/
def widthOfJson? : Json → Option (Option Nat)
  | .null => some none
  | v => v.size?.map some

/-- The settings in a JSON record; what is left out has its default. -/
def ofJson? (v : Json) : Option Config := do
  let members ← v.record? (["text_encoding", "default_pad_width", "max_depth"].map String.toList)
  match members with
  | [label, width, depth] =>
    let defaults : Config := {}
    let textEncoding ← Json.optional? defaults.textEncoding Json.text? label
    let defaultPadWidth ← Json.optional? defaults.defaultPadWidth widthOfJson? width
    let maxDepth ← Json.optional? defaults.maxDepth Json.size? depth
    return ⟨textEncoding, defaultPadWidth, maxDepth⟩
  | _ => none

/-- The settings with the encoding that the label names in a look-up. -/
def settings (c : Config) (find? : Text → Option Encoding := Encoding.standard?) :
    Except UnknownEncoding Settings :=
  match Encoding.ofLabel? c.textEncoding find? with
  | some e => .ok ⟨e, c.defaultPadWidth, c.maxDepth⟩
  | none => .error ⟨c.textEncoding⟩

end Config

end ByteScript
