import ByteScript.Json.Value

/-!
# Records in JSON

A record is an object whose members have given names. Members with other names are passed over, a
member may be left out but not repeated, and an array stands for the members in their order.

* `Json.record?`: the members of a record;
* `Json.optional?`: a member that may be left out;
* `Json.text?`, `Json.size?`, `Json.list?`, `Json.members?`: the types of members.
-/

namespace ByteScript

namespace Json

/-- The text of a string. -/
def text? : Json → Option Text
  | .string t => t
  | _ => none

/-- A whole number that 64 bits hold, written with digits alone. -/
def size? : Json → Option Nat
  | .number digits => ByteScript.size? digits
  | _ => none

/-- The items of an array, all of one type. -/
def list? {α : Type} (item? : Json → Option α) : Json → Option (List α)
  | .array items => items.mapM item?
  | _ => none

/-- The members of an object with values of one type, in their order. -/
def members? {α : Type} (value? : Json → Option α) : Json → Option (List (Text × α))
  | .object members => members.mapM fun m => do
    let key ← m.1
    let value ← value? m.2
    return (key, value)
  | _ => none

/-- Every value of a typed object is that of a member. -/
theorem exists_of_mem_members? {α : Type} {value? : Json → Option α} {v : Json}
    {es : List (Text × α)} (h : v.members? value? = some es) {e : Text × α} (he : e ∈ es) :
    ∃ w, value? w = some e.2 := by
  have general : ∀ (members : List (Option Text × Json)) (es : List (Text × α)),
      (members.mapM fun m => do
        let key ← m.1
        let value ← value? m.2
        return (key, value)) = some es → ∀ e ∈ es, ∃ w, value? w = some e.2 := by
    intro members
    induction members with
    | nil =>
      intro es h e he
      obtain rfl := Option.some.inj h
      cases he
    | cons m members ih =>
      intro es h e he
      rw [List.mapM_cons] at h
      obtain ⟨d, hd, h⟩ := Option.bind_eq_some_iff.mp h
      obtain ⟨ds, hds, h⟩ := Option.bind_eq_some_iff.mp h
      obtain rfl := Option.some.inj h
      rcases List.mem_cons.mp he with rfl | he
      · obtain ⟨key, _, hd⟩ := Option.bind_eq_some_iff.mp hd
        obtain ⟨value, hvalue, hd⟩ := Option.bind_eq_some_iff.mp hd
        obtain rfl := Option.some.inj hd
        exact ⟨m.2, hvalue⟩
      · exact ih ds hds e he
  cases v with
  | object members => exact general members es h e he
  | _ => cases h

/-- The members with the given names, each with its value if it is there. -/
def record? (names : List Text) : Json → Option (List (Option Json))
  | .object members => do
    let keyed ← members.mapM fun m => m.1.map fun key => (key, m.2)
    names.mapM fun name =>
      match keyed.filter fun m => m.1 == name with
      | [] => some none
      | [m] => some (some m.2)
      | _ => none
  | .array items =>
    if items.length ≤ names.length then some ((List.range names.length).map fun i => items[i]?)
    else none
  | _ => none

/-- The value of a member, or the default if it is left out. -/
def optional? {α : Type} (default : α) (value? : Json → Option α) : Option Json → Option α
  | none => some default
  | some v => value? v

end Json

end ByteScript
