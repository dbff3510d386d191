import ByteScript.Encoding.Utf8
import ByteScript.Encoding.Utf16
import ByteScript.Encoding.SingleByte
import ByteScript.Encoding.ShiftJis
import ByteScript.Text.Blank

/-!
# Encodings and their labels

An encoding is a name with two functions, from texts to bytes and back, which need not be inverse
to each other. Scripts and layouts are read under any encoding, and which encodings there are is for
a look-up of labels to say; some of them are given here. A label is read without the blanks around
it.

* `Encoding`: texts and their bytes; `Encoding.ofCharset`: the encoding of a character set;
* `Encoding.utf8`, `Encoding.utf16le`, `Encoding.utf16be`, `Encoding.windows1252`,
  `Encoding.koi8r`, `Encoding.userDefined`, `Encoding.replacement`, `Encoding.shiftJis`;
* `Encoding.labels`, `Encoding.standard?`: these by their labels, without regard to case;
* `Encoding.ofLabel?`: the encoding that a label names in a look-up.
-/

namespace ByteScript

/-- A text encoding. -/
structure Encoding where
  /-- The name in messages. -/
  name : String
  /-- The bytes of a text; nothing if a character has none in the encoding. -/
  encode? : Text → Option Bytes
  /-- The text that bytes stand for; nothing if they are malformed. -/
  decode? : Bytes → Option Text

namespace Encoding

/-- The encoding of a character set. -/
def ofCharset (name : String) (cs : Charset) : Encoding := ⟨name, cs.encode?, cs.decode?⟩

def utf8 : Encoding := ofCharset "UTF-8" .utf8

def utf16le : Encoding := ofCharset "UTF-16LE" (.utf16 false)

def utf16be : Encoding := ofCharset "UTF-16BE" (.utf16 true)

def windows1252 : Encoding := ofCharset "windows-1252" (.singleByte windows1252High)

def koi8r : Encoding := ofCharset "KOI8-R" (.singleByte koi8rHigh)

def userDefined : Encoding := ofCharset "x-user-defined" (.singleByte userDefinedHigh)

/-- The encoding that stands for unsafe ones: it decodes nothing. -/
def replacement : Encoding := ofCharset "replacement" ⟨Charset.utf8.encodeChar?, fun _ => none⟩

def shiftJis : Encoding := ofCharset "Shift_JIS" .shiftJis

/-- Encodings with their labels, in lower case. -/
def labels : List (Encoding × List String) :=
  [(utf8, ["unicode-1-1-utf-8", "unicode11utf8", "unicode20utf8", "utf-8", "utf8",
      "x-unicode20utf8"]),
    (utf16le, ["utf-16", "utf-16le", "ucs-2", "csunicode", "iso-10646-ucs-2", "unicode",
      "unicodefeff"]),
    (utf16be, ["utf-16be", "unicodefffe"]),
    (windows1252, ["ansi_x3.4-1968", "ascii", "cp1252", "cp819", "csisolatin1", "ibm819",
      "iso-8859-1", "iso-ir-100", "iso8859-1", "iso88591", "iso_8859-1", "iso_8859-1:1987", "l1",
      "latin1", "us-ascii", "windows-1252", "x-cp1252"]),
    (koi8r, ["cskoi8r", "koi", "koi8", "koi8-r", "koi8_r"]),
    (userDefined, ["x-user-defined"]),
    (replacement, ["csiso2022kr", "hz-gb-2312", "iso-2022-cn", "iso-2022-cn-ext", "iso-2022-kr",
      "replacement"]),
    (shiftJis, ["csshiftjis", "ms932", "ms_kanji", "shift-jis", "shift_jis", "sjis", "windows-31j",
      "x-sjis"])]

/-- The encoding of the list that has a label. -/
def standard? (label : Text) : Option Encoding :=
  (labels.find? fun e => e.2.any fun l => l.toList == label.lower).map Prod.fst

/-- The encoding that a label names; `find?` says which encodings there are. -/
def ofLabel? (label : Text) (find? : Text → Option Encoding := standard?) : Option Encoding :=
  find? label.trim

end Encoding

end ByteScript
