import ByteScript.Scan.Table
import ByteScript.Text.Quoted

/-!
# Tokens

Running a table over a text cuts the text into tokens. A strict run stops at the first piece that
no pattern takes; a tolerant one keeps it as a token of its own kind. Either may leave out tokens
of some kinds.

* `Token`: a piece of the text with its kind and its place;
* `Unexpected`, `Unexpected.message`: what stops a strict run;
* `Table.scan`: the run over a text, `Table.scanFrom` from any place in it.
-/

namespace ByteScript

/-- A piece of a text: its kind, the offset of its first byte and the line that it starts on. -/
structure Token (κ : Type) where
  kind : κ
  text : Text
  start : Nat
  line : Nat
deriving DecidableEq

/-- The offset after the last byte of a token. -/
def Token.stop {κ : Type} (k : Token κ) : Nat := k.start + k.text.utf8Size

/-- A piece that no pattern takes, with its offset and line. -/
structure Unexpected where
  text : Text
  offset : Nat
  line : Nat
deriving DecidableEq

/-- The message of a strict run that stopped. -/
def Unexpected.message (e : Unexpected) : Text :=
  "unexpected ".toList ++ e.text.quoted ++ " at offset ".toList ++ decimal e.offset ++
    " on line ".toList ++ decimal e.line

namespace Table

variable {κ : Type} [BEq κ] (t : Table κ) (remove : List κ) (strict : Bool)

/-- The tokens of a text that starts at an offset and on a line, without the kinds in `remove`. -/
def scanFrom (start line : Nat) : Text → Except Unexpected (List (Token κ))
  | [] => .ok []
  | c :: s =>
    let kind := (t.next (c :: s)).1
    let n := (t.next (c :: s)).2
    let lexeme : Text := c :: s.take (n - 1)
    if strict && kind == t.mismatch then .error ⟨lexeme, start, line⟩
    else do
      let tokens ← scanFrom (start + lexeme.utf8Size) (line + lexeme.newlines) (s.drop (n - 1))
      return if remove.contains kind then tokens else ⟨kind, lexeme, start, line⟩ :: tokens
termination_by s => s.length

/-- The tokens of a whole text. -/
def scan (s : Text) : Except Unexpected (List (Token κ)) := t.scanFrom remove strict 0 1 s

end Table

end ByteScript
