import ByteScript.Encoding.Charset

/-!
# Single-byte character sets

The lower half of the bytes is ASCII; a table gives the code points of the upper half. Where the
table has no entry twice and none below `0x80`, each byte is one character and each character at
most one byte.

* `Charset.singleByte`: the character set of a table;
* `windows1252High`, `koi8rHigh`, `userDefinedHigh`: the tables.
-/

namespace ByteScript

/-- The character set with ASCII below and the code points of `high` above. -/
def Charset.singleByte (high : List Nat) : Charset where
  encodeChar? c :=
    if c.toNat < 0x80 then some [UInt8.ofNat c.toNat]
    else (high.idxOf? c.toNat).map fun i => [UInt8.ofNat (0x80 + i)]
  decodeChar?
    | [] => none
    | b :: _ =>
      if b.toNat < 0x80 then (char? b.toNat).map (·, 1)
      else ((high[b.toNat - 0x80]?).bind char?).map (·, 1)

/-! ## Tables -/

/-- The code points of windows-1252 from `0x80` to `0xff`. -/
def windows1252High : List Nat :=
  [0x20ac, 0x81, 0x201a, 0x192, 0x201e, 0x2026, 0x2020, 0x2021, 0x2c6, 0x2030, 0x160, 0x2039,
    0x152, 0x8d, 0x17d, 0x8f, 0x90, 0x2018, 0x2019, 0x201c, 0x201d, 0x2022, 0x2013, 0x2014, 0x2dc,
    0x2122, 0x161, 0x203a, 0x153, 0x9d, 0x17e, 0x178] ++ List.range' 0xa0 96

/-- The code points of KOI8-R from `0x80` to `0xff`. -/
def koi8rHigh : List Nat :=
  [0x2500, 0x2502, 0x250c, 0x2510, 0x2514, 0x2518, 0x251c, 0x2524, 0x252c, 0x2534, 0x253c, 0x2580,
    0x2584, 0x2588, 0x258c, 0x2590, 0x2591, 0x2592, 0x2593, 0x2320, 0x25a0, 0x2219, 0x221a, 0x2248,
    0x2264, 0x2265, 0xa0, 0x2321, 0xb0, 0xb2, 0xb7, 0xf7, 0x2550, 0x2551, 0x2552, 0x451, 0x2553,
    0x2554, 0x2555, 0x2556, 0x2557, 0x2558, 0x2559, 0x255a, 0x255b, 0x255c, 0x255d, 0x255e, 0x255f,
    0x2560, 0x2561, 0x401, 0x2562, 0x2563, 0x2564, 0x2565, 0x2566, 0x2567, 0x2568, 0x2569, 0x256a,
    0x256b, 0x256c, 0xa9, 0x44e, 0x430, 0x431, 0x446, 0x434, 0x435, 0x444, 0x433, 0x445, 0x438,
    0x439, 0x43a, 0x43b, 0x43c, 0x43d, 0x43e, 0x43f, 0x44f, 0x440, 0x441, 0x442, 0x443, 0x436,
    0x432, 0x44c, 0x44b, 0x437, 0x448, 0x44d, 0x449, 0x447, 0x44a, 0x42e, 0x410, 0x411, 0x426,
    0x414, 0x415, 0x424, 0x413, 0x425, 0x418, 0x419, 0x41a, 0x41b, 0x41c, 0x41d, 0x41e, 0x41f,
    0x42f, 0x420, 0x421, 0x422, 0x423, 0x416, 0x412, 0x42c, 0x42b, 0x417, 0x428, 0x42d, 0x429,
    0x427, 0x42a]

/-- The private-use code points of x-user-defined from `0x80` to `0xff`. -/
def userDefinedHigh : List Nat := List.range' 0xf780 128

/-- The tables have an entry for each byte. -/
example : windows1252High.length = 128 ∧ koi8rHigh.length = 128 ∧ userDefinedHigh.length = 128 := by
  decide +kernel

/-- No entry stands twice. -/
example : windows1252High.Nodup ∧ koi8rHigh.Nodup ∧ userDefinedHigh.Nodup := by decide +kernel

end ByteScript
