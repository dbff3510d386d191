import ByteScript.Proofs.Listing.Correspondence
import ByteScript.Proofs.Listing.SingleValue
import ByteScript.Proofs.Listing.SpecText

/-!
# Repeated fields written out

A field with a repeat count that is given can be written out: in its place stands as often the same
field without a count. Each copy reads what one repetition reads, and of the values that the copies
keep under one name the last one counts, as it does for the repeated field. The copies are not held
to the bound for fields that may take no bytes, so a listing by the first layout is one by the
second.

* `Captures.Same`, `readFields_of_same`: captures matter by the values of their names only;
* `Repeats`, `repeats_readValues`, `repeats_readStructs`: readers that read one repetition and then
  the others; `Repeats.readFields_replicate`: copies of a field read what the repetitions do;
* `Field.once`, `Field.IsUnrollable`, `sameUnless_readFields_unrolled`: the field and its copies;
* `FieldList.Unrolled`, `Layout.Unrolled`, `Layout.Unrolled.corresponds`: the layouts;
  `FieldList.exists_unrolled`: a field can always be written out;
* **`decompile_unrolled`**: their listings.
-/

namespace ByteScript

/-! ## Captures with the same values -/

section Captures

variable {st : Settings} {layout : Layout} {captures captures' : Captures} {f : Field}
  {nested : Field → FieldList → Bytes → Except ListingError Occurrence}

/-- Every name has the same value. -/
def Captures.Same (captures captures' : Captures) : Prop :=
  ∀ name, captures.lookup name = captures'.lookup name

/-- The field has no name for the value of the bytes, or the value can be kept. -/
def Field.CanKeep (f : Field) (bs : Bytes) : Prop :=
  f.capture = none ∨ ∃ v, signedValue? bs = some v

namespace Captures

theorem Same.keep (h : captures.Same captures') (f : Field) (bs : Bytes) :
    (captures.keep f bs).Same (captures'.keep f bs) := by
  intro name
  unfold Captures.keep
  split
  · rw [List.lookup_cons, List.lookup_cons, h name]
  · exact h name

/-- A value that is kept hides the one that was kept under its name before. -/
theorem keep_keep {bs' : Bytes} (h : f.CanKeep bs') (captures : Captures) (bs : Bytes) :
    ((captures.keep f bs).keep f bs').Same (captures.keep f bs') := by
  intro name
  rcases h with hnone | ⟨v, hv⟩
  · simp only [Captures.keep, hnone]
  · unfold Captures.keep
    rw [hv]
    cases f.capture with
    | none => rfl
    | some key =>
      cases signedValue? bs with
      | none => rfl
      | some w =>
        simp only [List.lookup_cons]
        cases name == key <;> rfl

end Captures

section Same

variable (h : captures.Same captures')

include h

theorem readField_of_same (p : Cursor) (f : Field) :
    readField st layout nested captures p f = readField st layout nested captures' p f := by
  have hcount : repeatCount captures f = repeatCount captures' f := by
    unfold repeatCount
    cases f.length with
    | capture name => simp only [h name]
    | _ => rfl
  have hcase : selectCase layout captures f = selectCase layout captures' f := by
    unfold selectCase
    cases f.capture with
    | none => rfl
    | some selector => simp only [h selector]
  simp only [readField, hcount, hcase]

/-- **Fields do not depend on how their captures came about.** -/
theorem readFields_of_same (p : Cursor) (fs : List Field) :
    readFields (readField st layout nested) captures p fs =
      readFields (readField st layout nested) captures' p fs := by
  induction fs generalizing captures captures' p with
  | nil => rfl
  | cons f fs ih =>
    rw [readFields, readFields, readField_of_same h]
    exact bind_congr fun block => by rw [ih (h.keep f block.captured)]

end Same

end Captures

/-! ## Repetitions one by one -/

/-- Several repetitions are the first one and then the others, of which the last one is kept. -/
def Repeats (read : (count : Nat) → Cursor → Except ListingError Block) : Prop :=
  ∀ count p b, read (count + 2) p = .ok b → ∃ first more, read 1 p = .ok first ∧
    read (count + 1) (p.advance first.size) = .ok more ∧
    b = ⟨first.lines ++ more.lines, first.size + more.size, more.captured⟩

section Readers

variable {st : Settings} {layout : Layout} {f : Field}
  {nested : Field → FieldList → Bytes → Except ListingError Occurrence}

theorem repeats_readValues (width : Nat) : Repeats (readValues layout f width) := by
  intro count p b h
  rw [readValues] at h
  obtain ⟨bs, hbs, h⟩ := exists_of_bind_eq_ok h
  obtain ⟨text, htext, h⟩ := exists_of_bind_eq_ok h
  obtain ⟨more, hmore, h⟩ := exists_of_bind_eq_ok h
  obtain rfl := Except.ok.inj h
  refine ⟨⟨[⟨0, bs, text⟩], width, bs⟩, more, ?_, hmore, rfl⟩
  rw [readValues, hbs, ok_bind, htext]
  rfl

theorem repeats_readStructs (nested : Bytes → Except ListingError Occurrence) :
    Repeats (readStructs nested) := by
  intro count p b h
  rw [readStructs] at h
  obtain ⟨r, hr, h⟩ := exists_of_bind_eq_ok h
  obtain ⟨more, hmore, h⟩ := exists_of_bind_eq_ok h
  obtain rfl := Except.ok.inj h
  refine ⟨⟨r.lines.map Line.indent, r.size, p.rest.take r.size⟩, more, ?_, hmore, rfl⟩
  rw [readStructs, hr]
  exact congrArg (fun lines => Except.ok (Block.mk lines r.size (p.rest.take r.size)))
    (List.append_nil _)

namespace Repeats

variable {read : Nat → Cursor → Except ListingError Block} (hread : Repeats read)

include hread

/-- What is known of the bytes that one repetition keeps is known of those that all keep. -/
theorem captured {P : Bytes → Prop} (hone : ∀ p b, read 1 p = .ok b → P b.captured) {count : Nat}
    {p : Cursor} {b : Block} (h : read (count + 1) p = .ok b) : P b.captured := by
  induction count generalizing p b with
  | zero => exact hone p b h
  | succ count ih =>
    obtain ⟨first, more, -, hmore, rfl⟩ := hread count p b h
    have hlast := ih hmore
    exact hlast

/-- **Copies of a field read what its repetitions do**, and the fields behind them go on alike. -/
theorem readFields_replicate
    (hone : ∀ captures p, readField st layout nested captures p f = read 1 p)
    (hkeep : ∀ p b, read 1 p = .ok b → f.CanKeep b.captured) {fs : List Field} {count : Nat}
    {captures captures' : Captures} {p : Cursor} {b : Block} {r : Occurrence}
    (h : read (count + 1) p = .ok b) (hsame : (captures.keep f b.captured).Same captures')
    (hr : readFields (readField st layout nested) captures' (p.advance b.size) fs = .ok r) :
    readFields (readField st layout nested) captures p (List.replicate (count + 1) f ++ fs) =
      .ok ⟨b.lines ++ r.lines, b.size + r.size⟩ := by
  induction count generalizing captures p b with
  | zero =>
    change readFields _ captures p (f :: fs) = _
    rw [readFields, hone, h, ok_bind, readFields_of_same hsame, hr]
    rfl
  | succ count ih =>
    obtain ⟨first, more, hfirst, hmore, rfl⟩ := hread count p b h
    have hlast : ((captures.keep f first.captured).keep f more.captured).Same captures' :=
      fun name => (Captures.keep_keep (hread.captured hkeep hmore) captures _ name).trans
        (hsame name)
    rw [← Cursor.advance_advance] at hr
    have hrest := ih hmore hlast hr
    rw [List.replicate_succ, List.cons_append, readFields, hone, hfirst, ok_bind, hrest, ok_bind,
      List.append_assoc, Nat.add_assoc]
    rfl

end Repeats

end Readers

/-! ## A field and its copies -/

/-- The field without a repeat count. -/
def Field.once (f : Field) : Field := { f with length := .once }

/-- The field has a width or a structure in the layout and is no text, and it keeps no value but one
of at most 16 bytes. -/
inductive Field.IsUnrollable (layout : Layout) (f : Field) : Prop
  | values {n : Nat} (hwidth : resolveWidth layout f = .ok (.fixed n)) (hformat : f.format ≠ .text)
      (hcapture : f.capture = none ∨ n ≤ 16) : f.IsUnrollable layout
  | structs {fields : FieldList} (hwidth : resolveWidth layout f = .ok (.struct fields))
      (hcapture : f.capture = none) : f.IsUnrollable layout

section Copies

variable {st : Settings} {layout : Layout} {f : Field}

/-- The values of a copy are those of the field; the errors differ in the field that they name. -/
theorem sameUnless_readValues_once (width count : Nat) (p : Cursor) :
    SameUnless (fun _ => True) (readValues layout f width count p)
      (readValues layout f.once width count p) := by
  have hsame {α : Type} (x : Except ListingFault α) : SameUnless (fun _ => True)
      (x.mapError (ListingError.mk f)) (x.mapError (ListingError.mk f.once)) :=
    .of_ok fun _ ha => mapError_eq_ok_iff.mpr (mapError_eq_ok_iff.mp ha)
  induction count generalizing p with
  | zero => exact .refl _
  | succ count ih =>
    exact (hsame _).bind fun bs => (hsame _).bind fun text => (ih _).bind fun more => .refl _

theorem canKeep_of_readValues {n : Nat} (hcapture : f.capture = none ∨ n ≤ 16) {p : Cursor}
    {b : Block} (h : readValues layout f n 1 p = .ok b) : f.CanKeep b.captured := by
  refine hcapture.imp id fun hn => ?_
  rw [readValues] at h
  obtain ⟨bs, hbs, h⟩ := exists_of_bind_eq_ok h
  obtain ⟨text, -, h⟩ := exists_of_bind_eq_ok h
  obtain rfl := Except.ok.inj h
  obtain ⟨hle, rfl⟩ := eq_of_take_eq_ok (mapError_eq_ok_iff.mp hbs)
  have hlength : (p.rest.take n).length = n := List.length_take_of_le hle
  exact ⟨_, signedValue?_of_length_le (hlength.trans_le hn)⟩

/-- A repeated field is read by a reader that reads a copy as well. -/
theorem Field.IsUnrollable.exists_repeats (hf : f.IsUnrollable layout) {k depth : Nat}
    (hk : f.length = .count k) {captures : Captures} {p : Cursor} {b : Block}
    (h : readField st layout (structReader st layout depth) captures p f = .ok b) :
    ∃ read, Repeats read ∧ read k p = .ok b ∧
      (∀ captures p, readField st layout (structReader st layout depth) captures p f.once =
        read 1 p) ∧ ∀ p b, read 1 p = .ok b → f.once.CanKeep b.captured := by
  have hcount : repeatCount captures f = .ok k := by rw [repeatCount, hk]
  have honce : f.once.length = .once := rfl
  cases hf with
  | @values n hwidth hformat hcapture =>
    refine ⟨readValues layout f.once n, repeats_readValues n, ?_, fun captures p => ?_,
      fun p b => canKeep_of_readValues (f := f.once) hcapture⟩
    · cases readsField_of_readField h with
      | values hcount' hwidth' _ hread =>
        cases hcount.symm.trans hcount'
        cases hwidth.symm.trans hwidth'
        exact (sameUnless_readValues_once n k p).eq_ok hread
      | text _ _ hformat' => exact absurd hformat' hformat
      | struct _ hwidth' | switch _ hwidth' => cases hwidth.symm.trans hwidth'
    · have hwidth' : resolveWidth layout f.once = .ok (.fixed n) := hwidth
      rw [readField_once honce, hwidth']
      exact if_neg hformat
  | @structs fields hwidth hcapture =>
    refine ⟨readStructs (structReader st layout depth f.once fields), repeats_readStructs _, ?_,
      fun captures p => ?_, fun p b _ => .inl hcapture⟩
    · cases readsField_of_readField h with
      | struct hcount' hwidth' hread =>
        cases hcount.symm.trans hcount'
        cases hwidth.symm.trans hwidth'
        -- the field shows only where the structures nest too deep
        have hnested (bs : Bytes) : SameUnless (fun _ => True)
            (structReader st layout depth f fields bs)
            (structReader st layout depth f.once fields bs) := by
          cases depth with
          | zero => exact .of_error trivial _
          | succ depth => exact .refl _
        exact (sameUnless_readStructs hnested k p).eq_ok hread
      | text _ hwidth' | values _ hwidth' | switch _ hwidth' => cases hwidth.symm.trans hwidth'
    · have hwidth' : resolveWidth layout f.once = .ok (.struct fields) := hwidth
      rw [readField_once honce, hwidth']
      rfl

/-- **Fields are read alike if one of them is written out.** -/
theorem sameUnless_readFields_unrolled (hf : f.IsUnrollable layout) {k depth : Nat}
    (hk : f.length = .count k) (hpos : 1 ≤ k) (before after : List Field) (captures : Captures)
    (p : Cursor) : SameUnless (fun _ => True)
      (readFields (readField st layout (structReader st layout depth)) captures p
        (before ++ f :: after))
      (readFields (readField st layout (structReader st layout depth)) captures p
        (before ++ (List.replicate k f.once ++ after))) := by
  induction before generalizing captures p with
  | nil =>
    refine SameUnless.of_ok fun r hr => ?_
    change readFields _ captures p (f :: after) = _ at hr
    rw [readFields] at hr
    obtain ⟨b, hb, hr⟩ := exists_of_bind_eq_ok hr
    obtain ⟨more, hmore, hr⟩ := exists_of_bind_eq_ok hr
    obtain rfl := Except.ok.inj hr
    obtain ⟨count, rfl⟩ := Nat.exists_eq_add_of_le' hpos
    obtain ⟨read, hread, hblock, hone, hkeep⟩ := hf.exists_repeats hk hb
    exact hread.readFields_replicate hone hkeep hblock (fun _ => rfl) hmore
  | cons g before ih =>
    exact (SameUnless.refl _).bind fun block => (ih _ _).bind fun more => .refl _

end Copies

/-! ## Layouts -/

/-- The second list has the fields of the first one, but `k` copies in the place of a field. -/
def FieldList.Unrolled (f : Field) (k : Nat) (l l' : FieldList) : Prop :=
  ∃ before after, l.fields = before ++ f :: after ∧
    l'.fields = before ++ (List.replicate k f.once ++ after)

/-- The fields are the same, or one of them is written out. -/
def FieldList.UnrolledOrSame (f : Field) (k : Nat) (l l' : FieldList) : Prop :=
  l'.fields = l.fields ∨ l.Unrolled f k l'

/-- **A field of a list can always be written out.** -/
theorem FieldList.exists_unrolled {f : Field} {l : FieldList} (h : f ∈ l.fields) (k : Nat) :
    ∃ l', l.Unrolled f k l' := by
  obtain ⟨before, after, hfields⟩ := List.append_of_mem h
  refine ⟨.ofFields (before ++ (List.replicate k f.once ++ after)), before, after, hfields, ?_⟩
  have hreadable : ∀ g ∈ before ++ f :: after, g.IsReadable := fun g hg =>
    FieldList.isReadable (hfields ▸ hg)
  refine FieldList.fields_ofFields fun g hg => ?_
  simp only [List.mem_append] at hg
  rcases hg with hg | hg | hg
  · exact hreadable g (List.mem_append_left _ hg)
  · obtain rfl := List.eq_of_mem_replicate hg
    have hf := hreadable f (List.mem_append_right _ List.mem_cons_self)
    exact ⟨hf.type, trivial, hf.capture⟩
  · exact hreadable g (List.mem_append_right _ (List.mem_cons_of_mem f hg))

namespace Layout

/-- The layout with other fields for a structure. -/
def withStruct (layout : Layout) (name : Text) (l : FieldList) : Layout :=
  { layout with
    structs := insertEntry name l layout.structs
    structs_dictionary := isDictionary_insertEntry name l layout.structs_dictionary }

/-- In the second layout a field of the first one, of the whole or of a structure, is written out:
`k` copies stand in its place. -/
inductive Unrolled (layout : Layout) (f : Field) (k : Nat) : Layout → Prop
  | format {l' : FieldList} (h : layout.format.Unrolled f k l') :
      Unrolled layout f k { layout with format := l' }
  | struct {name : Text} {l l' : FieldList} (hname : layout.structs.lookup name = some l)
      (h : l.Unrolled f k l') : Unrolled layout f k (layout.withStruct name l')

variable {layout layout' : Layout} {f : Field} {k : Nat}

theorem Unrolled.format_unrolledOrSame (h : layout.Unrolled f k layout') :
    layout.format.UnrolledOrSame f k layout'.format := by
  cases h with
  | format h => exact .inr h
  | struct _ _ => exact .inl rfl

theorem Unrolled.corresponds (h : layout.Unrolled f k layout') :
    layout.Corresponds (FieldList.UnrolledOrSame f k) layout' := by
  have hself : layout.Corresponds (FieldList.UnrolledOrSame f k) layout :=
    .of_eq (fun _ => .inl rfl) rfl rfl rfl
  cases h with
  | format h => exact .of_eq (fun _ => .inl rfl) rfl rfl rfl
  | @struct name l l' hname h =>
    refine ⟨rfl, fun key => ?_, rfl⟩
    change Option.Rel _ _ ((insertEntry name l' layout.structs).lookup key)
    by_cases hkey : key = name
    · rw [hkey, hname, lookup_insertEntry_self]
      exact .some (.inr h)
    · rw [lookup_insertEntry_of_ne hkey]
      exact hself.structs key

end Layout

/-! ## Listings -/

section Listings

variable {st : Settings} {layout layout' : Layout} {f : Field} {k : Nat}

/-- A field that can be written out can be so in a layout with corresponding structures. -/
theorem Field.IsUnrollable.of_corresponds {r : FieldList → FieldList → Prop}
    (hf : f.IsUnrollable layout) (h : layout.Corresponds r layout') : f.IsUnrollable layout' := by
  have hresolve := h.resolveWidth f
  cases hf with
  | values hwidth hformat hcapture =>
    rw [hwidth] at hresolve
    obtain ⟨width, hwidth', hsame⟩ := hresolve.exists_ok
    cases hsame
    exact .values hwidth' hformat hcapture
  | structs hwidth hcapture =>
    rw [hwidth] at hresolve
    obtain ⟨width, hwidth', hsame⟩ := hresolve.exists_ok
    cases hsame
    exact .structs hwidth' hcapture

/-- **A repeated field may be written out.** Let a field of the whole or of a structure be repeated
`k` times, at least once, let it be no text, have a width or a structure in the layout, and keep no
value but one of at most 16 bytes. If a layout has `k` copies of the field without the repeat count
in its place, every listing by the first layout is one by the second. -/
theorem decompile_unrolled (hf : f.IsUnrollable layout) (hk : f.length = .count k) (hpos : 1 ≤ k)
    (h : layout.Unrolled f k layout') {bs : Bytes} {l : Listing}
    (hl : decompile st layout bs = .ok l) : decompile st layout' bs = .ok l := by
  have hcorr := h.corresponds
  have hsame : SameUnless (fun _ => True) (decompile st layout bs) (decompile st layout' bs) := by
    apply sameUnless_decompile_of_step _ h.format_unrolledOrSame
    intro depth hstructs l l' bs hl
    rw [decodeWithin_eq, decodeWithin_eq]
    rcases hl with hl | ⟨before, after, hl, hl'⟩
    · rw [hl]
      exact sameUnless_readFields (hcorr.readField hstructs) l.fields [] ⟨0, bs⟩
    · -- first the structures change, then the field is written out
      rw [hl, hl']
      exact (sameUnless_readFields (hcorr.readField hstructs) _ [] ⟨0, bs⟩).trans
        (sameUnless_readFields_unrolled (hf.of_corresponds hcorr) hk hpos before after [] ⟨0, bs⟩)
  exact hsame.eq_ok hl

end Listings

/-- Two nodes, each of two numbers and of as many nodes as the last number says. -/
def nodesLayout : Layout where
  format := .lines ["[node:2]".toList]
  structs := [("node".toList, .lines ["[1:2]d$n [node:$n]".toList])]
  sizes_dictionary := isDictionary_nil
  structs_dictionary := List.pairwise_singleton _ _
  defines_dictionary := isDictionary_nil
  sizes_lt := Layout.sizes_lt_nil

/-- The nodes of the whole are written out, and the numbers of the nodes, where each node has nodes
of its own. -/
theorem decompile_unrolled_nodes :
    ∃ l, decompile {} nodesLayout [9, 1, 8, 0, 255, 0, 7] = .ok l ∧ l.leftover = [7] ∧
      decompile {} { nodesLayout with format := .lines ["[node] [node]".toList] }
        [9, 1, 8, 0, 255, 0, 7] = .ok l ∧
      decompile {} (nodesLayout.withStruct "node".toList
        (.lines ["[1]d$n".toList, "[1]d$n [node:$n]".toList])) [9, 1, 8, 0, 255, 0, 7] = .ok l := by
  have hlisting : decompile {} nodesLayout [9, 1, 8, 0, 255, 0, 7] = .ok
      ⟨[⟨1, [9], "[1] +9".toList⟩, ⟨1, [1], "[1] +1".toList⟩, ⟨2, [8], "[1] +8".toList⟩,
        ⟨2, [0], "[1] +0".toList⟩, ⟨1, [255], "[1] -1".toList⟩, ⟨1, [0], "[1] +0".toList⟩], 6,
        [7]⟩ := by
    decide +kernel
  have hstruct : resolveWidth nodesLayout ⟨"node".toList, .count 2, .decimal, none⟩ =
      .ok (.struct (.lines ["[1:2]d$n [node:$n]".toList])) := by
    decide +kernel
  have hwidth : resolveWidth nodesLayout ⟨"1".toList, .count 2, .decimal, some "n".toList⟩ =
      .ok (.fixed 1) := by
    decide +kernel
  have hnode : (⟨"node".toList, .count 2, .decimal, none⟩ : Field).IsUnrollable nodesLayout :=
    .structs hstruct rfl
  have hnumber : (⟨"1".toList, .count 2, .decimal, some "n".toList⟩ : Field).IsUnrollable
      nodesLayout :=
    .values hwidth nofun (.inr (by decide))
  refine ⟨_, hlisting, rfl, ?_, ?_⟩
  · refine decompile_unrolled hnode rfl (by decide) (.format ⟨[], [], ?_⟩) hlisting
    decide +kernel
  · refine decompile_unrolled hnumber rfl (by decide) (.struct rfl ⟨[],
      [⟨"node".toList, .capture "n".toList, .decimal, none⟩], ?_⟩) hlisting
    decide +kernel

end ByteScript
