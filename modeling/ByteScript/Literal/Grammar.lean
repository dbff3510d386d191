import ByteScript.Text.Basic

/-!
# The grammar of string literals

A literal is a body between delimiters, after at most two letters that say how to read it. The
body is a sequence of units, a backslash with the character after it or any other character, and
it ends at the first unit boundary where the closing delimiter starts; in single marks, where a
line ends as well.

* `Delimiter`, `Delimiter.opening?`: single or triple marks, triple where they can be;
* `bodyUntil`: the units up to the end of the body and what follows them;
* `Literal`, `Literal.ofText?`: the parts of a literal that takes up a whole text;
* `bodyUntil_append`: no character is lost.
-/

namespace ByteScript

/-- The marks around a literal. -/
structure Delimiter where
  mark : Char
  triple : Bool
deriving DecidableEq

namespace Delimiter

/-- The characters of a delimiter. -/
def text (d : Delimiter) : Text := List.replicate (if d.triple then 3 else 1) d.mark

/-- The delimiter at the start of a text. -/
def opening? : Text → Option Delimiter
  | c :: s =>
    if c = '\'' ∨ c = '"' then some ⟨c, [c, c].isPrefixOf s⟩ else none
  | [] => none

/-- The body ends here. -/
def endsAt (d : Delimiter) (s : Text) : Bool :=
  d.text.isPrefixOf s || (!d.triple && (s.head?.any fun c => c == '\n' || c == '\r'))

end Delimiter

/-- The units up to the first boundary where `stop` holds, and what follows. -/
def bodyUntil (stop : Text → Bool) : Text → Text × Text
  | [] => ([], [])
  | '\\' :: c :: s =>
    if stop ('\\' :: c :: s) then ([], '\\' :: c :: s)
    else ('\\' :: c :: (bodyUntil stop s).1, (bodyUntil stop s).2)
  | c :: s =>
    if stop (c :: s) then ([], c :: s) else (c :: (bodyUntil stop s).1, (bodyUntil stop s).2)

/-- **No character is lost.** -/
theorem bodyUntil_append (stop : Text → Bool) (s : Text) :
    (bodyUntil stop s).1 ++ (bodyUntil stop s).2 = s := by
  fun_induction bodyUntil stop s <;> simp_all

/-- The parts of a literal. -/
structure Literal where
  letters : Text
  delimiter : Delimiter
  body : Text
deriving DecidableEq

namespace Literal

/-- The letters that may stand before a literal, pairs before single ones. -/
def letterChoices : List Text := ["br", "rb", "fr", "rf", "r", "u", "f", "b"].map String.toList

/-- The letters at the start of a text, as they are written. -/
def lettersOf (s : Text) : Text :=
  match letterChoices.find? fun l => Text.sameLetters (s.take l.length) l with
  | some l => s.take l.length
  | none => []

/-- The parts of a literal that takes up the whole text. -/
def ofText? (s : Text) : Option Literal :=
  let letters := lettersOf s
  let marked := s.drop letters.length
  match Delimiter.opening? marked with
  | none => none
  | some d =>
    let split := bodyUntil d.endsAt (marked.drop d.text.length)
    if split.2 = d.text then some ⟨letters, d, split.1⟩ else none

/-- The literal asks for values to be filled in. -/
def isFormatted (l : Literal) : Bool := l.letters.lower.contains 'f'

/-- The body stands for itself. -/
def isRaw (l : Literal) : Bool := l.letters.lower.contains 'r'

end Literal

example : (Literal.ofText? "Rb'''a'b'''".toList).map Literal.body = some ['a', '\'', 'b'] := by
  decide +kernel

example : Literal.ofText? "'open".toList = none := by decide +kernel

end ByteScript
