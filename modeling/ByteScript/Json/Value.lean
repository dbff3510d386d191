import ByteScript.Scan.Token
import ByteScript.Encoding.Charset

/-!
# JSON

Documents in JSON are cut into tokens by a pattern table and then read by a machine that keeps the
containers still open. Numbers stay as they are written, members keep their order and may repeat,
and a string whose escapes leave a surrogate alone is one without a text: only a reader that wants
its text refuses it.

* `Json`: the values;
* `jsonTable`: the tokens;
* `Json.stringText?`: the text between the marks of a string;
* `JsonState`, `JsonState.step`: the machine;
* `Json.ofText?`: the value that a whole text denotes.
-/

namespace ByteScript

/-- A JSON value. -/
inductive Json where
  | null
  | bool (value : Bool)
  | number (digits : Text)
  | string (text : Option Text)
  | array (items : List Json)
  | object (members : List (Option Text × Json))

/-! ## Tokens -/

/-- The kinds of token in a document. -/
inductive JsonKind where
  | punctuation
  | string
  | number
  | word
  | blank
  | mismatch
deriving DecidableEq

/-- One of the blanks of JSON. -/
def isJsonBlank (c : Char) : Bool := c == ' ' || c == '\t' || c == '\n' || c == '\r'

/-- The length of the rest of a string up to its closing mark. -/
def jsonStringRest : Text → Option Nat
  | [] => none
  | '"' :: _ => some 1
  | '\\' :: [] => none
  | '\\' :: c :: s =>
    if c = 'u' then
      if (s.take 4).length = 4 ∧ IsNumeral 16 (s.take 4) then
        (jsonStringRest (s.drop 4)).map (· + 6)
      else none
    else if "\"\\/bfnrt".toList.contains c then (jsonStringRest s).map (· + 2)
    else none
  | c :: s => if c.toNat < 0x20 then none else (jsonStringRest s).map (· + 1)
termination_by s => s.length

/-- A string. -/
def Pattern.jsonString : Pattern
  | '"' :: s => (jsonStringRest s).map (· + 1)
  | _ => none

/-- The length of the decimal places at the start of a text. -/
def jsonPlaces : Text → Nat
  | '.' :: s =>
    let n := (s.takeWhile Char.isDigit).length
    if n = 0 then 0 else n + 1
  | _ => 0

/-- The length of the exponent at the start of a text. -/
def jsonExponent : Text → Nat
  | [] => 0
  | c :: s =>
    let sign := if s.head?.any fun c => c == '+' || c == '-' then 1 else 0
    let n := ((s.drop sign).takeWhile Char.isDigit).length
    if (c == 'e' || c == 'E') && n != 0 then 1 + sign + n else 0

/-- A number: no digit follows a leading zero. -/
def Pattern.jsonNumber : Pattern := fun s =>
  let sign := if s.head? = some '-' then 1 else 0
  let digits := ((s.drop sign).takeWhile Char.isDigit).length
  let whole := if (s.drop sign).head? = some '0' then 1 else digits
  let places := jsonPlaces (s.drop (sign + whole))
  let exponent := jsonExponent (s.drop (sign + whole + places))
  if whole = 0 then none else some (sign + whole + places + exponent)

/-- The patterns of a document. -/
def jsonTable : Table JsonKind where
  patterns :=
    [(.punctuation, Pattern.times 1 fun c => "[]\x7b\x7d,:".toList.contains c),
      (.string, Pattern.jsonString), (.number, Pattern.jsonNumber),
      (.word, Pattern.many1 Char.isLower), (.blank, Pattern.many1 isJsonBlank)]
  mismatch := .mismatch

namespace Json

/-! ## Strings -/

/-- The character of an escape of one letter. -/
def escapedChar : Char → Char
  | 'b' => '\x08'
  | 'f' => '\x0c'
  | 'n' => '\n'
  | 'r' => '\r'
  | 't' => '\t'
  | c => c

/-- The code units of a string body: those of its escapes, and the code points of its other
characters. -/
def stringUnits : Text → List Nat
  | [] => []
  | '\\' :: c :: s =>
    if c = 'u' then valueOf 16 (s.take 4) :: stringUnits (s.drop 4)
    else (escapedChar c).toNat :: stringUnits s
  | c :: s => c.toNat :: stringUnits s
termination_by s => s.length

/-- The text of code units: a pair of surrogates is one character, and one alone is none. -/
def textOfUnits? : List Nat → Option Text
  | [] => some []
  | u :: v :: us =>
    if 0xd800 ≤ u ∧ u < 0xdc00 ∧ 0xdc00 ≤ v ∧ v < 0xe000 then do
      let c ← char? (0x10000 + (u - 0xd800) * 1024 + (v - 0xdc00))
      let s ← textOfUnits? us
      return c :: s
    else do
      let c ← char? u
      let s ← textOfUnits? (v :: us)
      return c :: s
  | [u] => (char? u).map ([·])

/-- The text of a string token. -/
def stringText? (token : Text) : Option Text := textOfUnits? (stringUnits (token.drop 1).dropLast)

end Json

/-! ## The machine -/

/-- A container still open: the items so far, or the members so far and the key of the next. Both
lists have the last entry first. -/
inductive JsonFrame where
  | array (items : List Json)
  | object (members : List (Option Text × Json)) (key : Option Text)

/-- What may follow, above the containers still open. -/
inductive JsonState where
  /-- A value. -/
  | value (frames : List JsonFrame)
  /-- The first item of an array, or its end. -/
  | item (frames : List JsonFrame)
  /-- The first key of an object, or its end. -/
  | member (frames : List JsonFrame)
  /-- A key. -/
  | key (members : List (Option Text × Json)) (frames : List JsonFrame)
  /-- The colon after a key. -/
  | colon (members : List (Option Text × Json)) (name : Option Text) (frames : List JsonFrame)
  /-- What may follow a complete value. -/
  | after (value : Json) (frames : List JsonFrame)

namespace JsonState

/-- The state after a token that starts a value. -/
def startValue (frames : List JsonFrame) (t : Token JsonKind) : Option JsonState :=
  match t.kind, t.text with
  | .string, s => some (.after (.string (Json.stringText? s)) frames)
  | .number, s => some (.after (.number s) frames)
  | .punctuation, ['['] => some (.item frames)
  | .punctuation, ['\x7b'] => some (.member frames)
  | .word, s =>
    if s = "null".toList then some (.after .null frames)
    else if s = "true".toList then some (.after (.bool true) frames)
    else if s = "false".toList then some (.after (.bool false) frames)
    else none
  | _, _ => none

/-- The state after one more token; nothing if the token cannot follow. -/
def step : JsonState → Token JsonKind → Option JsonState
  | .value frames, t => startValue frames t
  | .item frames, t =>
    if t.text = [']'] then some (.after (.array []) frames) else startValue (.array [] :: frames) t
  | .member frames, t =>
    if t.text = ['\x7d'] then some (.after (.object []) frames)
    else if t.kind = .string then some (.colon [] (Json.stringText? t.text) frames)
    else none
  | .key members frames, t =>
    if t.kind = .string then some (.colon members (Json.stringText? t.text) frames) else none
  | .colon members name frames, t =>
    if t.text = [':'] then some (.value (.object members name :: frames)) else none
  | .after _ [], _ => none
  | .after v (.array items :: frames), t =>
    if t.text = [','] then some (.value (.array (v :: items) :: frames))
    else if t.text = [']'] then some (.after (.array (v :: items).reverse) frames)
    else none
  | .after v (.object members name :: frames), t =>
    if t.text = [','] then some (.key ((name, v) :: members) frames)
    else if t.text = ['\x7d'] then some (.after (.object ((name, v) :: members).reverse) frames)
    else none

end JsonState

/-- **The value that a whole text denotes.** -/
def Json.ofText? (s : Text) : Option Json :=
  match jsonTable.scan [.blank] true s with
  | .error _ => none
  | .ok tokens =>
    match tokens.foldlM JsonState.step (.value []) with
    | some (.after v []) => some v
    | _ => none

end ByteScript
