import ByteScript.Layout.Field
import ByteScript.Text.Quoted

/-!
# Errors of a listing

* `ListingFault`: what can be wrong at a field;
* `ListingError`: a fault and its field; `ListingError.message`: its wording.
-/

namespace ByteScript

/-- What can be wrong at a field. -/
inductive ListingFault where
  | unknownType (type : Text)
  | unknownVariable (name : Text)
  | unknownStruct (name : Text)
  /-- A switch without the name of a capture. -/
  | missingSelector
  /-- No case of a switch has the value. -/
  | noCase (value : Int)
  | badCase (entry : Text)
  /-- The bytes end within the field. -/
  | truncated (offset needed available : Nat)
  | floatWidth (width : Nat)
  /-- A field that may take no bytes is repeated more often than there are bytes. -/
  | repeatCount (count available : Nat)
  /-- The value needs more than 128 bits. -/
  | tooWide
  /-- The bytes are no text of the encoding with this name. -/
  | malformed (encoding : String)
  /-- Structures nest too deep. -/
  | depthLimit (limit : Nat)
deriving DecidableEq

/-- A fault and the field that it is at. -/
structure ListingError where
  field : Field
  fault : ListingFault
deriving DecidableEq

/-- The message of an error. -/
def ListingError.message (e : ListingError) : Text :=
  let field := e.field.display
  match e.fault with
  | .unknownType type => "unknown field type ".toList ++ type.quoted ++ " in ".toList ++ field
  | .unknownVariable name => "unknown variable ".toList ++ name.quoted ++ " in ".toList ++ field
  | .unknownStruct name => "unknown struct ".toList ++ name.quoted ++ " in ".toList ++ field
  | .missingSelector => field ++ " has no selector variable".toList
  | .noCase value => field ++ ": no struct for value ".toList ++ signedDecimal value
  | .badCase entry => field ++ ": malformed case ".toList ++ entry.quoted
  | .truncated offset needed available =>
    field ++ ": needs ".toList ++ decimal needed ++ " byte(s) at offset ".toList ++
      decimal offset ++ ", ".toList ++ decimal available ++ " left".toList
  | .floatWidth width => field ++ ": floats must be 4 or 8 bytes, not ".toList ++ decimal width
  | .repeatCount count available =>
    field ++ ": ".toList ++ decimal count ++ " repetitions with only ".toList ++
      decimal available ++ " byte(s) left".toList
  | .tooWide => field ++ ": value does not fit in 128 bits".toList
  | .malformed encoding => field ++ ": bytes are not valid ".toList ++ encoding.toList
  | .depthLimit limit =>
    "structs nested deeper than ".toList ++ decimal limit ++ " at ".toList ++ field

end ByteScript
