import ByteScript.Proofs.Listing.Activation
import ByteScript.Proofs.Listing.Occurrences

/-!
# Fields that are read once

A field without a repeat count is read once, and no check of how many bytes there are is in its way.
A value depends on its own bytes and not on those behind them. A switch is read as its case is.

* `readField_once`, `readField_switch`, `readField_value`: any field, a switch and a value;
* **`decompile_value`**: a listing of one value.
-/

namespace ByteScript

section Fields

variable {st : Settings} {layout : Layout} {f : Field} {bs : Bytes}

/-- Digits that no width of the layout is named by are a width. -/
theorem resolveWidth_of_allDigits (hdigits : f.type.allDigits = true)
    (hsizes : layout.sizes.lookup f.type = none) (hlt : valueOf 10 f.type < Nat.pow 2 64) :
    resolveWidth layout f = .ok (.fixed (valueOf 10 f.type)) := by
  rw [resolveWidth_eq_fixed_iff, hsizes, size?_of_allDigits hdigits hlt]
  rfl

section Once

variable {nested : Field → FieldList → Bytes → Except ListingError Occurrence}
  {captures : Captures} {p : Cursor} (honce : f.length = .once)

include honce

/-- A field that is read once needs no bytes to be repeated. -/
theorem readField_once : readField st layout nested captures p f =
    ((resolveWidth layout f).mapError (ListingError.mk f)).bind fun
      | .fixed n => if f.format = .text then readText st f n 1 p else readValues layout f n 1 p
      | .struct fields => readStructs (nested f fields) 1 p
      | .switch => do
        let fields ← (selectCase layout captures f).mapError (ListingError.mk f)
        let block ← readStructs (nested f fields) 1 p
        return { block with captured := [] } := by
  have hcount : repeatCount captures f = .ok 1 := by rw [repeatCount, honce]
  rw [readField, hcount]
  cases resolveWidth layout f with
  | error fault => rfl
  | ok width =>
    have hguard : (mayBeEmpty f width && decide (max p.rest.length 1 < 1)) = false := by
      rw [decide_eq_false (by omega), Bool.and_false]
    change (if (mayBeEmpty f width && decide (max p.rest.length 1 < 1)) = true then _ else _) = _
    rw [hguard, if_neg Bool.false_ne_true]
    rfl

/-- A switch that is read once is the structure of its case. -/
theorem readField_switch (hwidth : resolveWidth layout f = .ok .switch) :
    readField st layout nested captures p f =
      ((selectCase layout captures f).mapError (ListingError.mk f)).bind fun fields =>
        (nested f fields p.rest).map fun r => ⟨r.lines.map Line.indent, r.size, []⟩ := by
  rw [readField_once honce, hwidth]
  cases selectCase layout captures f with
  | error fault => rfl
  | ok fields =>
    change (readStructs (nested f fields) 1 p >>= _) = (nested f fields p.rest).map _
    rw [readStructs]
    cases nested f fields p.rest with
    | error e => rfl
    | ok r => exact congrArg (fun lines => Except.ok (Block.mk lines r.size [])) (List.append_nil _)

end Once

section Value

variable (honce : f.length = .once) (hformat : f.format ≠ .text)
  (hwidth : resolveWidth layout f = .ok (.fixed bs.length))

include honce hformat hwidth

/-- A field of one value reads its bytes, whatever is behind them. -/
theorem readField_value (nested : Field → FieldList → Bytes → Except ListingError Occurrence)
    (captures : Captures) (offset : Nat) (rest : Bytes) :
    readField st layout nested captures ⟨offset, bs ++ rest⟩ f =
      ((valueText layout f bs).mapError (ListingError.mk f)).map fun text =>
        ⟨[⟨0, bs, text⟩], bs.length, bs⟩ := by
  have htake : Cursor.take ⟨offset, bs ++ rest⟩ bs.length = .ok bs := by
    have hle : bs.length ≤ (bs ++ rest).length := by simp
    rw [Cursor.take, if_pos hle, List.take_left]
  rw [readField_once honce, hwidth]
  change (if f.format = FieldFormat.text then _ else readValues layout f _ 1 _) = _
  rw [if_neg hformat, readValues, htake]
  change (Except.ok bs >>= _) = _
  rw [ok_bind]
  cases valueText layout f bs <;> rfl

/-- **A listing of one value** is its line. -/
theorem decompile_value (hfields : layout.format.fields = [f]) :
    decompile st layout bs = ((valueText layout f bs).mapError (ListingError.mk f)).map fun text =>
      ⟨[⟨0, bs, text⟩], bs.length, []⟩ := by
  have hread := @readField_value st layout f bs honce hformat hwidth
    (structReader st layout st.maxDepth) [] 0 []
  rw [List.append_nil] at hread
  rw [decompile, decodeWithin_eq, hfields, readFields, hread]
  cases valueText layout f bs with
  | error fault => rfl
  | ok text =>
    have hleft : bs.drop bs.length = [] := List.drop_length
    exact congrArg (fun rest => Except.ok (Listing.mk _ bs.length rest)) hleft

end Value

end Fields

end ByteScript
