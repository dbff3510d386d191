import ByteScript.Proofs.Listing.Activation
import ByteScript.Proofs.Listing.PrefixReading

/-!
# Layouts whose listings have one size

Where no repeat count comes from a value and no field is a switch, the bytes decide what the lines
of a listing say and not how many bytes they stand for. Two runs on unrelated bytes keep to the same
places: if one of them succeeds, the other one takes as many bytes, or it comes to a value that it
cannot write, or it has fewer bytes.

* `Layout.IsStatic`, `Layout.isStatic_of_lengths`: such layouts;
* `ListingFault.IsOfValue`, `eq_tooWide_of_valueText`: the faults that a value may have or not;
* `TakesAlike`: two readers that take alike; `TakesAlike.choose`, `TakesAlike.bind`,
  `TakesAlike.guard`: readers from readers;
* `takesAlike_readValues`, `takesAlike_readText`, `takesAlike_readStructs`, `takesAlike_readField`,
  `takesAlike_readFields`: the readers of a listing, whatever captures each run has made;
* `takesAlike_decodeWithin`, **`decompile_static`**: occurrences and whole listings.
-/

namespace ByteScript

/-! ## Static layouts -/

/-- No repeat count is the name of a value that a field keeps, and no field is a switch. A name that
no field keeps, such as a number of more than 64 bits, is unknown whatever the bytes are. -/
structure Layout.IsStatic (layout : Layout) : Prop where
  lengths : ∀ f ∈ layout.allFields, ∀ name, f.length = .capture name →
    ∀ g ∈ layout.allFields, g.capture ≠ some name
  widths : ∀ f ∈ layout.allFields, resolveWidth layout f ≠ .ok .switch

/-- Repeat counts that are left out or are numbers name no value. -/
theorem Layout.isStatic_of_lengths {layout : Layout}
    (hlengths : ∀ f ∈ layout.allFields, f.length = .once ∨ ∃ n, f.length = .count n)
    (hwidths : ∀ f ∈ layout.allFields, resolveWidth layout f ≠ .ok .switch) : layout.IsStatic := by
  refine ⟨fun f hf name hname => ?_, hwidths⟩
  rcases hlengths f hf with h | ⟨n, h⟩
  · cases hname.symm.trans h
  · cases hname.symm.trans h

/-- The captures are values that fields of the layout keep. -/
def Captures.AreOf (layout : Layout) (captures : Captures) : Prop :=
  ∀ name v, captures.lookup name = some v → ∃ g, layout.Uses g ∧ g.capture = some name

section Captures

variable {layout : Layout} {captures : Captures} {f : Field}

theorem Captures.areOf_nil : Captures.AreOf layout [] := fun _ _ h => nomatch h

variable (hc : captures.AreOf layout) (hf : layout.Uses f)

include hc hf

theorem Captures.AreOf.keep (bs : Bytes) : (captures.keep f bs).AreOf layout := by
  unfold Captures.keep
  split
  · rename_i key v hkey _
    intro name w hname
    rw [List.lookup_cons] at hname
    split at hname
    · rename_i heq
      exact ⟨f, hf, hkey.trans (congrArg some (beq_iff_eq.mp heq).symm)⟩
    · exact hc name w hname
  · exact hc

/-- The captures made do not show in the repeat counts of a static layout. -/
theorem Layout.IsStatic.repeatCount_eq (hs : layout.IsStatic) :
    repeatCount captures f = repeatCount [] f := by
  unfold repeatCount
  cases hlength : f.length with
  | capture name =>
    cases hlook : captures.lookup name with
    | none => simp only [hlook, List.lookup_nil]
    | some v =>
      obtain ⟨g, hg, hname⟩ := hc name v hlook
      exact absurd hname (hs.lengths f hf.mem_allFields name hlength g hg.mem_allFields)
  | _ => rfl

end Captures

/-! ## Faults of values -/

/-- The fault is that the bytes of a value have no text: the value is too wide, or the bytes are no
text of the encoding. -/
def ListingFault.IsOfValue (st : Settings) (fault : ListingFault) : Prop :=
  fault = .tooWide ∨ fault = .malformed st.encoding.name

theorem ListingFault.IsOfValue.not_isShortage {st : Settings} {fault : ListingFault}
    (h : fault.IsOfValue st) : ¬ fault.IsShortage := by
  rcases h with rfl | rfl <;> exact id

theorem eq_tooWide_of_signedText {bs : Bytes} {fault : ListingFault}
    (h : signedText bs = .error fault) : fault = .tooWide := by
  unfold signedText at h
  split at h
  · cases h
  · exact (Except.error.inj h).symm

/-- Bytes of a length for which there is a float have no fault as one. -/
theorem floatValueText_ne_error {bs bs' : Bytes} {s : Text} (h : floatValueText bs = .ok s)
    (hlength : bs'.length = bs.length) (fault : ListingFault) :
    floatValueText bs' ≠ .error fault := by
  have hsome : (BinaryFloat.ofBytes? bs').isSome = (BinaryFloat.ofBytes? bs).isSome := by
    unfold BinaryFloat.ofBytes?
    rw [hlength]
    split <;> rfl
  unfold floatValueText at h ⊢
  split at h
  · rename_i x hx
    rw [hx] at hsome
    obtain ⟨y, hy⟩ := Option.isSome_iff_exists.mp hsome
    rw [hy]
    nofun
  · cases h

/-- **If a value of some bytes can be written**, one of as many bytes can, or it is too wide. -/
theorem eq_tooWide_of_valueText {layout : Layout} {f : Field} {bs bs' : Bytes} {s : Text}
    {fault : ListingFault} (h : valueText layout f bs = .ok s) (hlength : bs'.length = bs.length)
    (h' : valueText layout f bs' = .error fault) : fault = .tooWide := by
  have hsigned (h' : (signedText bs').map (directed f) = .error fault) :=
    eq_tooWide_of_signedText (map_eq_error_iff.mp h')
  unfold valueText at h h'
  cases hformat : f.format <;> simp only [hformat] at h h'
  case float =>
    obtain ⟨t, ht, -⟩ := exists_of_map_eq_ok h
    exact absurd (map_eq_error_iff.mp h') (floatValueText_ne_error ht hlength fault)
  case binary => cases h'
  case hex => cases h'
  case define =>
    split at h'
    · cases h'
    · exact hsigned h'
  all_goals exact hsigned h'

/-! ## Readers that take alike -/

variable {st : Settings}

/-- Two readers take as many bytes as each other wherever both succeed; and where the first one
succeeds, the second one fails on bytes that are not fewer by a fault of a value only. -/
structure TakesAlike {α : Type} (st : Settings) (taken : α → Nat)
    (read read' : Cursor → Except ListingError α) : Prop where
  taken_eq : ∀ {a a'} (p p' : Cursor), read p = .ok a → read' p' = .ok a' → taken a' = taken a
  fault : ∀ {a e} (p p' : Cursor), read p = .ok a → p.rest.length ≤ p'.rest.length →
    read' p' = .error e → e.fault.IsOfValue st

namespace TakesAlike

variable {α β γ : Type} {taken : α → Nat} {read read' : Cursor → Except ListingError α}

/-- A reader that reads nothing. -/
theorem const (x : Except ListingError α) : TakesAlike st taken (fun _ => x) fun _ => x where
  taken_eq _ _ ha ha' := congrArg taken (Except.ok.inj (ha'.symm.trans ha))
  fault _ _ ha _ he := nomatch ha.symm.trans he

/-- What does not come from the bytes may stand in front of readers. -/
theorem choose (x : Except ListingError γ) {f f' : γ → Cursor → Except ListingError α}
    (h : ∀ c, x = .ok c → TakesAlike st taken (f c) (f' c)) :
    TakesAlike st taken (fun p => x >>= fun c => f c p) fun p => x >>= fun c => f' c p := by
  cases x with
  | error e => exact const (.error e)
  | ok c => exact h c rfl

/-- **One reader after the other**, where the second goes on behind what the first has taken. -/
theorem bind (h : TakesAlike st taken read read') {g g' : α → Cursor → Except ListingError β}
    {m : β → Nat} (hg : ∀ a a', TakesAlike st m (g a) (g' a')) {f : Cursor → α → β → γ}
    {t : γ → Nat} (ht : ∀ p a b, t (f p a b) = taken a + m b) :
    TakesAlike st t
      (fun p => do
        let a ← read p
        let b ← g a (p.advance (taken a))
        return f p a b)
      fun p => do
        let a ← read' p
        let b ← g' a (p.advance (taken a))
        return f p a b where
  taken_eq p p' hc hc' := by
    obtain ⟨a, ha, hc⟩ := exists_of_bind_eq_ok hc
    obtain ⟨b, hb, hc⟩ := exists_of_bind_eq_ok hc
    obtain ⟨a', ha', hc'⟩ := exists_of_bind_eq_ok hc'
    obtain ⟨b', hb', hc'⟩ := exists_of_bind_eq_ok hc'
    obtain rfl := Except.ok.inj hc
    obtain rfl := Except.ok.inj hc'
    rw [ht, ht, h.taken_eq _ _ ha ha', (hg a a').taken_eq _ _ hb hb']
  fault p p' hc hlen he := by
    obtain ⟨a, ha, hc⟩ := exists_of_bind_eq_ok hc
    obtain ⟨b, hb, -⟩ := exists_of_bind_eq_ok hc
    rcases bind_eq_error_iff.mp he with he | ⟨a', ha', he⟩
    · exact h.fault _ _ ha hlen he
    · rcases bind_eq_error_iff.mp he with he | ⟨b', -, he⟩
      · -- both go on behind as many bytes
        refine (hg a a').fault _ _ hb ?_ he
        rw [h.taken_eq _ _ ha ha', Cursor.advance, Cursor.advance, List.length_drop,
          List.length_drop]
        exact Nat.sub_le_sub_right hlen _
      · cases he

/-- A reader that is tried only where there are bytes enough. -/
theorem guard (h : TakesAlike st taken read read') {c : Cursor → Prop} [DecidablePred c]
    (hc : ∀ {p p'}, p.rest.length ≤ p'.rest.length → ¬ c p → ¬ c p') (e : Cursor → ListingError) :
    TakesAlike st taken (fun p => if c p then .error (e p) else read p)
      fun p => if c p then .error (e p) else read' p where
  taken_eq p p' ha ha' := by
    split at ha
    · cases ha
    · split at ha'
      · cases ha'
      · exact h.taken_eq _ _ ha ha'
  fault p p' ha hlen he := by
    split at ha
    · cases ha
    · rename_i hp
      rw [if_neg (hc hlen hp)] at he
      exact h.fault _ _ ha hlen he

/-- Readers that start anew at a place. -/
theorem restart (h : TakesAlike st taken read read') :
    TakesAlike st taken (fun p => read ⟨0, p.rest⟩) fun p => read' ⟨0, p.rest⟩ where
  taken_eq p p' := h.taken_eq ⟨0, p.rest⟩ ⟨0, p'.rest⟩
  fault p p' := h.fault ⟨0, p.rest⟩ ⟨0, p'.rest⟩

end TakesAlike

/-! ## Readers of a listing -/

section Readers

variable {layout : Layout} {f : Field}

theorem exists_take_of_le {p p' : Cursor} {n : Nat} {bs : Bytes} (h : p.take n = .ok bs)
    (hlen : p.rest.length ≤ p'.rest.length) :
    ∃ bs', p'.take n = .ok bs' ∧ bs'.length = bs.length := by
  obtain ⟨hle, rfl⟩ := eq_of_take_eq_ok h
  have hle' := Nat.le_trans hle hlen
  refine ⟨_, if_pos hle', ?_⟩
  rw [List.length_take_of_le hle, List.length_take_of_le hle']

theorem size_of_readText {width count : Nat} {p : Cursor} {b : Block}
    (h : readText st f width count p = .ok b) : b.size = min (width * count) maxSize := by
  rw [readText] at h
  obtain ⟨bs, hbs, h⟩ := exists_of_bind_eq_ok h
  obtain ⟨hle, rfl⟩ := eq_of_take_eq_ok (mapError_eq_ok_iff.mp hbs)
  split at h
  · obtain rfl := Except.ok.inj h
    exact List.length_take_of_le hle
  · cases h

/-- One value and its text. -/
def readValue (layout : Layout) (f : Field) (width : Nat) (p : Cursor) :
    Except ListingError (Bytes × Text) := do
  let bs ← (p.take width).mapError (ListingError.mk f)
  let text ← (valueText layout f bs).mapError (ListingError.mk f)
  return (bs, text)

theorem takesAlike_readValue (width : Nat) :
    TakesAlike st (fun _ => width) (readValue layout f width) (readValue layout f width) where
  taken_eq _ _ _ _ := rfl
  fault p p' ha hlen he := by
    obtain ⟨bs, hbs, ha⟩ := exists_of_bind_eq_ok ha
    obtain ⟨text, htext, -⟩ := exists_of_bind_eq_ok ha
    obtain ⟨bs', hbs', hlength⟩ := exists_take_of_le (mapError_eq_ok_iff.mp hbs) hlen
    rw [readValue, mapError_eq_ok_iff.mpr hbs', ok_bind] at he
    rcases bind_eq_error_iff.mp he with he | ⟨text', -, he⟩
    · obtain ⟨fault, hfault, rfl⟩ := exists_of_mapError_eq_error he
      exact .inl (eq_tooWide_of_valueText (mapError_eq_ok_iff.mp htext) hlength hfault)
    · cases he

theorem takesAlike_readValues (width count : Nat) : TakesAlike st Block.size
    (readValues layout f width count) (readValues layout f width count) := by
  induction count with
  | zero => exact TakesAlike.const (Except.ok (Block.mk [] 0 []))
  | succ count ih =>
    have hvalue : TakesAlike st (fun _ => width) (readValue layout f width) _ :=
      takesAlike_readValue width
    have hvalues := hvalue.bind (fun _ _ => ih) (t := Block.size)
      (f := fun _ v more => Block.mk (⟨0, v.1, v.2⟩ :: more.lines) (width + more.size)
        (if count = 0 then v.1 else more.captured)) fun _ _ _ => rfl
    simp only [readValue, bind_assoc, pure_bind] at hvalues
    exact hvalues

theorem takesAlike_readText (width count : Nat) :
    TakesAlike st Block.size (readText st f width count) (readText st f width count) where
  taken_eq _ _ hb hb' := by rw [size_of_readText hb, size_of_readText hb']
  fault p p' hb hlen he := by
    obtain ⟨bs, hbs, -⟩ := exists_of_bind_eq_ok hb
    obtain ⟨bs', hbs', -⟩ := exists_take_of_le (mapError_eq_ok_iff.mp hbs) hlen
    rw [readText, mapError_eq_ok_iff.mpr hbs', ok_bind] at he
    split at he
    · cases he
    · exact .inr (congrArg ListingError.fault (Except.error.inj he)).symm

theorem takesAlike_readStructs {nested : Bytes → Except ListingError Occurrence}
    (hnested : TakesAlike st Occurrence.size (fun p => nested p.rest) fun p => nested p.rest)
    (count : Nat) :
    TakesAlike st Block.size (readStructs nested count) (readStructs nested count) := by
  induction count with
  | zero => exact TakesAlike.const (Except.ok (Block.mk [] 0 []))
  | succ count ih =>
    exact hnested.bind (fun _ _ => ih) (t := Block.size)
      (f := fun p r more => Block.mk (r.lines.map Line.indent ++ more.lines) (r.size + more.size)
        (if count = 0 then p.rest.take r.size else more.captured)) fun _ _ _ => rfl

/-- **A field takes alike in two runs**, if its structures do. -/
theorem takesAlike_readField (hs : layout.IsStatic)
    {nested : Field → FieldList → Bytes → Except ListingError Occurrence}
    (hnested : ∀ f fields, (∀ g ∈ fields.fields, layout.Uses g) → TakesAlike st Occurrence.size
      (fun p => nested f fields p.rest) fun p => nested f fields p.rest)
    {captures captures' : Captures} (hc : captures.AreOf layout) (hc' : captures'.AreOf layout)
    (hf : layout.Uses f) :
    TakesAlike st Block.size (fun p => readField st layout nested captures p f)
      fun p => readField st layout nested captures' p f := by
  simp only [readField, hs.repeatCount_eq hc hf, hs.repeatCount_eq hc' hf]
  refine TakesAlike.choose _ fun count _ => TakesAlike.choose _ fun width hwidth => ?_
  have hwidth := mapError_eq_ok_iff.mp hwidth
  refine TakesAlike.guard
    (c := fun p => (mayBeEmpty f width && decide (max p.rest.length 1 < count)) = true) ?_ ?_
    fun p => ⟨f, .repeatCount count p.rest.length⟩
  · cases width with
    | fixed n =>
      by_cases hformat : f.format = .text
      · simp only [hformat, if_true]
        exact takesAlike_readText n count
      · simp only [hformat, if_false]
        exact takesAlike_readValues n count
    | struct fields =>
      exact takesAlike_readStructs (hnested f fields fun g hg => .struct hf hwidth hg) count
    | switch => exact absurd hwidth (hs.widths f hf.mem_allFields)
  · intro p p' hlen hp hp'
    simp only [Bool.and_eq_true, decide_eq_true_eq] at hp hp'
    exact hp ⟨hp'.1, by omega⟩

/-- **Fields in order take alike in two runs**, if each field does. -/
theorem takesAlike_readFields (field : Captures → Cursor → Field → Except ListingError Block)
    {fs : List Field} (hfs : ∀ f ∈ fs, layout.Uses f)
    (hfield : ∀ f captures captures', layout.Uses f → Captures.AreOf layout captures →
      Captures.AreOf layout captures' →
      TakesAlike st Block.size (fun p => field captures p f) fun p => field captures' p f)
    {captures captures' : Captures} (hc : captures.AreOf layout) (hc' : captures'.AreOf layout) :
    TakesAlike st Occurrence.size (fun p => readFields field captures p fs)
      fun p => readFields field captures' p fs := by
  induction fs generalizing captures captures' with
  | nil => exact TakesAlike.const (Except.ok (Occurrence.mk [] 0))
  | cons f fs ih =>
    have hf := hfs f List.mem_cons_self
    exact (hfield f captures captures' hf hc hc').bind
      (fun block block' => ih (fun g hg => hfs g (List.mem_cons_of_mem f hg))
        (hc.keep hf block.captured) (hc'.keep hf block'.captured))
      (t := Occurrence.size)
      (f := fun _ block more => Occurrence.mk (block.lines ++ more.lines) (block.size + more.size))
      fun _ _ _ => rfl

end Readers

/-! ## Listings -/

section Listings

variable {layout : Layout} (hs : layout.IsStatic)

include hs

theorem takesAlike_decodeWithin_of_structs {depth : Nat}
    (hstructs : ∀ f fields, (∀ g ∈ fields.fields, layout.Uses g) → TakesAlike st Occurrence.size
      (fun p => structReader st layout depth f fields p.rest)
      fun p => structReader st layout depth f fields p.rest)
    {fields : FieldList} (hfields : ∀ f ∈ fields.fields, layout.Uses f) :
    TakesAlike st Occurrence.size (fun p => decodeWithin st layout depth fields p.rest)
      fun p => decodeWithin st layout depth fields p.rest := by
  simp only [decodeWithin_eq]
  have hread := takesAlike_readFields (readField st layout (structReader st layout depth)) hfields
    (fun f _ _ hf hc hc' => takesAlike_readField hs hstructs hc hc' hf) Captures.areOf_nil
    Captures.areOf_nil
  exact hread.restart

/-- **Occurrences of a structure take alike**, at every depth. -/
theorem takesAlike_decodeWithin (depth : Nat) {fields : FieldList}
    (hfields : ∀ f ∈ fields.fields, layout.Uses f) :
    TakesAlike st Occurrence.size (fun p => decodeWithin st layout depth fields p.rest)
      fun p => decodeWithin st layout depth fields p.rest := by
  induction depth generalizing fields with
  | zero =>
    exact takesAlike_decodeWithin_of_structs hs
      (fun g _ _ => TakesAlike.const (.error ⟨g, .depthLimit st.maxDepth⟩)) hfields
  | succ depth ih => exact takesAlike_decodeWithin_of_structs hs (fun _ _ h => ih h) hfields

/-- **The size of a listing by a static layout does not depend on the bytes.** If a binary has a
listing, every listing of another binary stands for as many bytes; and if the other one is not
shorter but has no listing, it does not lack bytes: it has a value of more than 128 bits, or a text
that is none of the encoding. -/
theorem decompile_static {bs : Bytes} {l : Listing} (hl : decompile st layout bs = .ok l)
    (bs' : Bytes) :
    (∀ l', decompile st layout bs' = .ok l' → l'.consumed = l.consumed) ∧
    (bs.length ≤ bs'.length → ∀ e, decompile st layout bs' = .error e →
      ¬ e.fault.IsShortage ∧ (e.fault = .tooWide ∨ e.fault = .malformed st.encoding.name)) := by
  have hread : TakesAlike st Occurrence.size
      (fun p => decodeWithin st layout st.maxDepth layout.format p.rest) _ :=
    takesAlike_decodeWithin hs st.maxDepth fun f hf => .format hf
  rw [decompile] at hl
  obtain ⟨r, hr, hl⟩ := exists_of_bind_eq_ok hl
  obtain rfl := Except.ok.inj hl
  constructor
  · intro l' hl'
    rw [decompile] at hl'
    obtain ⟨r', hr', hl'⟩ := exists_of_bind_eq_ok hl'
    obtain rfl := Except.ok.inj hl'
    exact hread.taken_eq ⟨0, bs⟩ ⟨0, bs'⟩ hr hr'
  · intro hlen e he
    rw [decompile] at he
    rcases bind_eq_error_iff.mp he with he | ⟨r', -, he⟩
    · have hvalue := hread.fault ⟨0, bs⟩ ⟨0, bs'⟩ hr hlen he
      exact ⟨hvalue.not_isShortage, hvalue⟩
    · cases he

end Listings

/-- A number with a name for one value, two pairs and a text. -/
def tableLayout : Layout where
  format := .lines ["[1]!$n [pair:2] [2]s".toList]
  structs := [("pair".toList, .lines ["[1]h [1]d$n".toList])]
  defines := [("#05".toList, "five".toList)]
  sizes_dictionary := isDictionary_nil
  sizes_lt := Layout.sizes_lt_nil

/-- Other numbers take as many bytes, and with other letters the text is none, but no bytes are
missing. -/
theorem decompile_static_table :
    ∃ l l' e, decompile {} tableLayout [5, 1, 2, 3, 4, 104, 105] = .ok l ∧
      decompile {} tableLayout [200, 255, 0, 9, 128, 33, 33, 8] = .ok l' ∧
      l'.consumed = l.consumed ∧
      decompile {} tableLayout [0, 0, 0, 0, 0, 255, 255] = .error e ∧ ¬ e.fault.IsShortage := by
  have hfields : tableLayout.allFields =
      [⟨"1".toList, .once, .define, some "n".toList⟩, ⟨"pair".toList, .count 2, .decimal, none⟩,
        ⟨"2".toList, .once, .text, none⟩, ⟨"1".toList, .once, .hex, none⟩,
        ⟨"1".toList, .once, .decimal, some "n".toList⟩] := by
    decide +kernel
  have hstatic : tableLayout.IsStatic := by
    refine Layout.isStatic_of_lengths ?_ ?_
    · simp [hfields]
    · rw [hfields]
      decide +kernel
  have hlisting : decompile {} tableLayout [5, 1, 2, 3, 4, 104, 105] = .ok
      ⟨[⟨0, [5], "five".toList⟩, ⟨1, [1], "[1] #01".toList⟩, ⟨1, [2], "[1] +2".toList⟩,
        ⟨1, [3], "[1] #03".toList⟩, ⟨1, [4], "[1] +4".toList⟩, ⟨0, [104, 105], "'hi'".toList⟩], 7,
        []⟩ := by
    decide +kernel
  have hlisting' : decompile {} tableLayout [200, 255, 0, 9, 128, 33, 33, 8] = .ok
      ⟨[⟨0, [200], "[1] -56".toList⟩, ⟨1, [255], "[1] #ff".toList⟩, ⟨1, [0], "[1] +0".toList⟩,
        ⟨1, [9], "[1] #09".toList⟩, ⟨1, [128], "[1] -128".toList⟩, ⟨0, [33, 33], "'!!'".toList⟩], 7,
        [8]⟩ := by
    decide +kernel
  have herror : decompile {} tableLayout [0, 0, 0, 0, 0, 255, 255] =
      .error ⟨⟨"2".toList, .once, .text, none⟩, .malformed "UTF-8"⟩ := by
    decide +kernel
  exact ⟨_, _, _, hlisting, hlisting', (decompile_static hstatic hlisting _).1 _ hlisting', herror,
    ((decompile_static hstatic hlisting _).2 (by decide) _ herror).1⟩

end ByteScript
