import ByteScript.Proofs.Listing.Activation

/-!
# Layouts whose structures correspond

Two layouts with the same widths and names, whose structures of each name are related field by
field list, read a binary in step: where one comes to a structure the other comes to a related one.
What is known of the occurrences of related lists, given the same of the structures in them, is so
known of the whole listings.

* `sameUnless_readStructs`, `sameUnless_readFields`: readers that read structures or fields in the
  same way;
* `Layout.Corresponds`, `FieldWidth.Corresponds`: layouts and widths whose structures are related;
* `Layout.Corresponds.resolveWidth`, `Layout.Corresponds.selectCase`,
  `Layout.Corresponds.readValues`: what is found in such layouts;
* `Layout.Corresponds.readField`: a field of both;
* `sameUnless_decodeWithin_of_step`, **`sameUnless_decompile_of_step`**: occurrences and listings;
* `decodeWithin_of_fields_eq`, **`decompile_of_fields_eq`**: those by layouts with the same fields.
-/

namespace ByteScript

/-! ## Readers of structures and of fields -/

section Readers

variable {kind : ListingError → Prop}

theorem sameUnless_readStructs {nested nested' : Bytes → Except ListingError Occurrence}
    (h : ∀ bs, SameUnless kind (nested bs) (nested' bs)) (count : Nat) (p : Cursor) :
    SameUnless kind (readStructs nested count p) (readStructs nested' count p) := by
  induction count generalizing p with
  | zero => exact .refl _
  | succ count ih => exact (h p.rest).bind fun r => (ih _).bind fun more => .refl _

theorem sameUnless_readFields
    {field field' : Captures → Cursor → Field → Except ListingError Block}
    (h : ∀ captures p f, SameUnless kind (field captures p f) (field' captures p f))
    (fs : List Field) (captures : Captures) (p : Cursor) :
    SameUnless kind (readFields field captures p fs) (readFields field' captures p fs) := by
  induction fs generalizing captures p with
  | nil => exact .refl _
  | cons f fs ih => exact (h captures p f).bind fun block => (ih _ _).bind fun more => .refl _

end Readers

/-! ## What is found in a layout -/

/-- The layouts have the same widths and names of values, and structures of the same names whose
fields are related. -/
structure Layout.Corresponds (r : FieldList → FieldList → Prop) (layout layout' : Layout) :
    Prop where
  sizes : layout'.sizes = layout.sizes
  structs : ∀ name, Option.Rel r (layout.structs.lookup name) (layout'.structs.lookup name)
  defines : layout'.defines = layout.defines

/-- The widths are the same, up to related structures. -/
inductive FieldWidth.Corresponds (r : FieldList → FieldList → Prop) : FieldWidth → FieldWidth → Prop
  | fixed (n : Nat) : Corresponds r (.fixed n) (.fixed n)
  | struct {l l' : FieldList} (h : r l l') : Corresponds r (.struct l) (.struct l')
  | switch : Corresponds r .switch .switch

namespace Layout.Corresponds

variable {r : FieldList → FieldList → Prop} {layout layout' : Layout}

/-- Layouts that differ at most in the fields of the whole correspond. -/
theorem of_eq (hr : ∀ l, r l l) (hsizes : layout'.sizes = layout.sizes)
    (hstructs : layout'.structs = layout.structs) (hdefines : layout'.defines = layout.defines) :
    layout.Corresponds r layout' := by
  refine ⟨hsizes, fun name => ?_, hdefines⟩
  rw [hstructs]
  cases layout.structs.lookup name with
  | none => exact .none
  | some l => exact .some (hr l)

variable (h : layout.Corresponds r layout')

include h

/-- A name is that of a structure of both layouts or of neither. -/
theorem lookup_cases (name : Text) :
    layout.structs.lookup name = none ∧ layout'.structs.lookup name = none ∨
      ∃ l l', layout.structs.lookup name = some l ∧ layout'.structs.lookup name = some l' ∧
        r l l' := by
  have hstruct := h.structs name
  generalize layout.structs.lookup name = x at hstruct ⊢
  generalize layout'.structs.lookup name = y at hstruct ⊢
  cases hstruct with
  | some hl => exact .inr ⟨_, _, rfl, rfl, hl⟩
  | none => exact .inl ⟨rfl, rfl⟩

theorem mono {r' : FieldList → FieldList → Prop} (hr : ∀ l l', r l l' → r' l l') :
    layout.Corresponds r' layout' := by
  refine ⟨h.sizes, fun name => ?_, h.defines⟩
  rcases h.lookup_cases name with ⟨hx, hy⟩ | ⟨l, l', hx, hy, hl⟩
  · rw [hx, hy]
    exact .none
  · rw [hx, hy]
    exact .some (hr l l' hl)

/-- A type stands for the same in both layouts. -/
theorem resolveWidth (f : Field) :
    Alike (FieldWidth.Corresponds r) (resolveWidth layout f) (resolveWidth layout' f) := by
  unfold ByteScript.resolveWidth
  rw [h.sizes]
  split
  · exact .ok (.fixed _)
  · rcases h.lookup_cases f.type with ⟨hx, hy⟩ | ⟨l, l', hx, hy, hl⟩
    · simp only [hx, hy]
      split
      · exact .ok .switch
      · exact .error _
    · simp only [hx, hy]
      exact .ok (.struct hl)

theorem selectEntry (value : Int) (entries : List Text) :
    Alike r (selectEntry layout value entries) (selectEntry layout' value entries) := by
  induction entries with
  | nil => exact .error _
  | cons entry entries ih =>
    rw [ByteScript.selectEntry, ByteScript.selectEntry]
    split
    · exact .error _
    · rename_i key name _
      split
      · exact .error _
      · split
        · rcases h.lookup_cases name.trim with ⟨hx, hy⟩ | ⟨l, l', hx, hy, hl⟩
          · simp only [hx, hy]
            exact .error _
          · simp only [hx, hy]
            exact .ok hl
        · exact ih

/-- A switch selects related structures. -/
theorem selectCase (captures : Captures) (f : Field) :
    Alike r (selectCase layout captures f) (selectCase layout' captures f) := by
  unfold ByteScript.selectCase
  split
  · exact .error _
  · split
    · exact .error _
    · exact h.selectEntry _ _

theorem valueText (f : Field) (bs : Bytes) : valueText layout' f bs = valueText layout f bs := by
  have hname : defineName? layout' bs = defineName? layout bs := by
    rw [defineName?, defineName?, h.defines]
  simp only [ByteScript.valueText, hname]

theorem readValues (f : Field) (width count : Nat) (p : Cursor) :
    readValues layout' f width count p = readValues layout f width count p := by
  induction count generalizing p with
  | zero => rfl
  | succ count ih => simp only [ByteScript.readValues, ih, h.valueText]

/-- A field is read in the same way, if its structures are. -/
theorem readField {st : Settings} {kind : ListingError → Prop}
    {nested nested' : Field → FieldList → Bytes → Except ListingError Occurrence}
    (hnested : ∀ f l l' bs, r l l' → SameUnless kind (nested f l bs) (nested' f l' bs))
    (captures : Captures) (p : Cursor) (f : Field) :
    SameUnless kind (readField st layout nested captures p f)
      (readField st layout' nested' captures p f) := by
  refine (SameUnless.refl _).bind fun count => ?_
  apply ((h.resolveWidth f).mapError _).sameUnless_bind
  intro width width' hwidth
  have hempty : mayBeEmpty f width' = mayBeEmpty f width := by cases hwidth <;> rfl
  dsimp only
  rw [hempty]
  split
  · exact .refl _
  · cases hwidth with
    | fixed n =>
      dsimp only
      rw [h.readValues]
      exact .refl _
    | struct hl => exact sameUnless_readStructs (fun bs => hnested f _ _ bs hl) count p
    | switch =>
      apply ((h.selectCase captures f).mapError _).sameUnless_bind
      intro l l' hl
      exact (sameUnless_readStructs (fun bs => hnested f l l' bs hl) count p).bind
        fun block => .refl _

end Layout.Corresponds

/-! ## Occurrences and listings -/

section Listings

variable {st : Settings} {r : FieldList → FieldList → Prop} {layout layout' : Layout}
  {kind : ListingError → Prop}
  (hstep : ∀ depth, (∀ f l l' bs, r l l' → SameUnless kind (structReader st layout depth f l bs)
      (structReader st layout' depth f l' bs)) →
    ∀ l l' bs, r l l' → SameUnless kind (decodeWithin st layout depth l bs)
      (decodeWithin st layout' depth l' bs))

include hstep

/-- Occurrences of related lists end in the same way, if they do so whenever the structures in them
do. -/
theorem sameUnless_decodeWithin_of_step (depth : Nat) {l l' : FieldList} (hl : r l l')
    (bs : Bytes) : SameUnless kind (decodeWithin st layout depth l bs)
      (decodeWithin st layout' depth l' bs) := by
  apply hstep depth _ l l' bs hl
  induction depth with
  | zero => exact fun _ _ _ _ _ => .refl _
  | succ depth ih => exact fun _ => hstep depth ih

/-- **Listings of related layouts end in the same way**, if occurrences do so whenever the
structures in them do. -/
theorem sameUnless_decompile_of_step (hformat : r layout.format layout'.format) (bs : Bytes) :
    SameUnless kind (decompile st layout bs) (decompile st layout' bs) :=
  (sameUnless_decodeWithin_of_step hstep st.maxDepth hformat bs).bind fun _ => .refl _

end Listings

section Fields

variable {layout layout' : Layout}
  (h : layout.Corresponds (fun l l' => l'.fields = l.fields) layout')

include h

/-- Layouts whose structures have the same fields read the same fields alike. -/
theorem decodeWithin_of_fields_eq (st : Settings) (depth : Nat) {l l' : FieldList}
    (hl : l'.fields = l.fields) (bs : Bytes) :
    decodeWithin st layout' depth l' bs = decodeWithin st layout depth l bs := by
  have hsame : SameUnless (fun _ => False) (decodeWithin st layout depth l bs)
      (decodeWithin st layout' depth l' bs) := by
    apply sameUnless_decodeWithin_of_step (r := fun l l' => l'.fields = l.fields) _ depth hl
    intro depth hstructs l l' bs hl
    rw [decodeWithin_eq, decodeWithin_eq, hl]
    exact sameUnless_readFields (h.readField hstructs) l.fields [] ⟨0, bs⟩
  exact hsame fun _ _ => id

/-- Layouts whose structures have the same fields, and the whole as well, list every binary
alike. -/
theorem decompile_of_fields_eq (st : Settings)
    (hformat : layout'.format.fields = layout.format.fields) (bs : Bytes) :
    decompile st layout' bs = decompile st layout bs := by
  rw [decompile, decompile, decodeWithin_of_fields_eq h st st.maxDepth hformat]

end Fields

end ByteScript
