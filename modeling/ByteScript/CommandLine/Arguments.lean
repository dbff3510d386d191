import ByteScript.Number.Digits

/-!
# Arguments

The command line names input files and options. An option has a value, attached to it or in the
next argument; an argument that starts with a dash is no value, except a dash alone. After two
dashes every argument is a file.

* `OptionName`, `OptionName.ofLong?`, `OptionName.ofShort?`;
* `Arguments`, `readArguments`: the options and the files as they are given;
* `Request`, `Request.ofArguments`: what the command line asks for.
-/

namespace ByteScript

/-- The options. -/
inductive OptionName where
  | out
  | encoding
  | padSize
  | layout
  | maxDepth
deriving DecidableEq

namespace OptionName

/-- The option with a long name. -/
def ofLong? (name : Text) : Option OptionName :=
  ([("out".toList, .out), ("encoding".toList, .encoding), ("default-pad-size".toList, .padSize),
    ("dps".toList, .padSize), ("decompile".toList, .layout), ("max-depth".toList, .maxDepth)] :
    List (Text × OptionName)).lookup name

/-- The option with a letter. -/
def ofShort? : Char → Option OptionName
  | 'o' => some .out
  | 'e' => some .encoding
  | 'd' => some .layout
  | _ => none

end OptionName

/-- Why there is nothing to do. -/
inductive Refusal where
  /-- The command line asks for information on the program. -/
  | information
  /-- The command line is wrong. -/
  | usage
deriving DecidableEq

/-- The options with their values, and the files. -/
structure Arguments where
  options : List (OptionName × Text) := []
  files : List Text := []
deriving DecidableEq

namespace Arguments

/-- Arguments with one more option in front. -/
def withOption (name : OptionName) (value : Text) (a : Arguments) : Arguments :=
  { a with options := (name, value) :: a.options }

/-- Arguments with one more file in front. -/
def withFile (file : Text) (a : Arguments) : Arguments := { a with files := file :: a.files }

end Arguments

/-- The argument may be an option. -/
def isDashed (arg : Text) : Bool := arg.head? == some '-' && arg != ['-']

/-- The name and the attached value of an option. -/
def optionOf (arg : Text) : Except Refusal (OptionName × Option Text) :=
  match arg with
  | '-' :: '-' :: long =>
    if long = "help".toList ∨ long = "version".toList then .error .information
    else
      let attached := Text.cut? '=' long
      match OptionName.ofLong? ((attached.map Prod.fst).getD long) with
      | some o => .ok (o, attached.map Prod.snd)
      | none => .error .usage
  | '-' :: c :: value =>
    if c = 'h' ∨ c = 'V' then .error .information
    else
      match OptionName.ofShort? c, value with
      | none, _ => .error .usage
      | some o, [] => .ok (o, none)
      | some o, '=' :: value => .ok (o, some value)
      | some o, value => .ok (o, some value)
  | _ => .error .usage

/-- The options and the files in a list of arguments. -/
def readArguments : List Text → Except Refusal Arguments
  | [] => .ok {}
  | arg :: args =>
    if arg = ['-', '-'] then .ok { files := args }
    else if isDashed arg then
      match optionOf arg, args with
      | .error e, _ => .error e
      | .ok (name, some value), args => do
        let rest ← readArguments args
        return rest.withOption name value
      | .ok (_, none), [] => .error .usage
      | .ok (name, none), value :: args =>
        if isDashed value then .error .usage
        else do
          let rest ← readArguments args
          return rest.withOption name value
    else do
      let rest ← readArguments args
      return rest.withFile arg

/-- What the command line asks for. -/
structure Request where
  files : List Text
  out : Option Text
  encoding : Text
  padWidth : Nat
  maxDepth : Nat
  /-- The file of the layout by which the files are to be listed. -/
  layout : Option Text
deriving DecidableEq

namespace Request

/-- The value of an option if it is given, but not twice. -/
def value (a : Arguments) (name : OptionName) : Except Refusal (Option Text) :=
  match a.options.filter fun o => o.1 == name with
  | [] => .ok none
  | [o] => .ok (some o.2)
  | _ => .error .usage

/-- The name of a file, which is not empty. -/
def path (s : Text) : Except Refusal Text := if s = [] then .error .usage else .ok s

/-- A size in decimal. -/
def number (s : Text) : Except Refusal Nat :=
  match unsigned? 64 10 s with
  | some n => .ok n
  | none => .error .usage

/-- The request of a list of arguments: at least one file, and no option twice. -/
def ofArguments (args : List Text) : Except Refusal Request := do
  let a ← readArguments args
  let out ← (← value a .out).mapM path
  let encoding ← value a .encoding
  let padWidth ← (← value a .padSize).mapM number
  let maxDepth ← (← value a .maxDepth).mapM number
  let layout ← (← value a .layout).mapM path
  let files ← a.files.mapM path
  if files = [] then throw .usage
  return ⟨files, out, encoding.getD "UTF-8".toList, padWidth.getD 4, maxDepth.getD 64, layout⟩

end Request

example : optionOf "--out=x".toList = .ok (.out, some ['x']) ∧
    optionOf "-o=x".toList = .ok (.out, some ['x']) := ⟨rfl, rfl⟩

end ByteScript
