import ByteScript.Listing.Decode
import ByteScript.Proofs.Outcome

/-!
# The lines of a listing and the bytes they stand for

Every line of a listing belongs to a field of the layout, and the blocks of the lines, one after
the other, are the bytes that the listing consumes.

* `Layout.Uses`, `Layout.Uses.mem_allFields`: the fields that reading a binary can come to;
* `IsLineOf`: the text of a line is that of a value or of a text of some field;
* `Covers`: lines of this kind whose blocks are the first bytes of a string;
* `ReadsField`, `readsField_of_readField`: the ways to read a field;
* `covers_readValues`, `covers_readText`, `covers_readStructs`, `covers_readField`,
  `covers_readFields`: each reader gives such lines;
* `covers_decodeWithin`, **`covers_decompile`**: a whole listing.
-/

namespace ByteScript

/-! ## Lines of fields -/

/-- The fields that reading a binary can come to: those of the whole, and those of structures that
such a field names or selects. -/
inductive Layout.Uses (layout : Layout) : Field → Prop
  | format {f : Field} (hf : f ∈ layout.format.fields) : layout.Uses f
  | struct {f g : Field} {fields : FieldList} (hf : layout.Uses f)
      (hwidth : resolveWidth layout f = .ok (.struct fields)) (hg : g ∈ fields.fields) :
      layout.Uses g
  | case {f g : Field} {captures : Captures} {fields : FieldList} (hf : layout.Uses f)
      (hwidth : resolveWidth layout f = .ok .switch)
      (hcase : selectCase layout captures f = .ok fields) (hg : g ∈ fields.fields) : layout.Uses g

/-- The fields of the whole and of every structure. -/
def Layout.allFields (layout : Layout) : List Field :=
  layout.format.fields ++ layout.structs.flatMap fun e => e.2.fields

theorem mem_of_lookup {α : Type} {key : Text} {a : α} {es : List (Text × α)}
    (h : es.lookup key = some a) : (key, a) ∈ es := by
  obtain ⟨l, r, rfl, _⟩ := List.lookup_eq_some_iff.mp h
  exact List.mem_append_right _ List.mem_cons_self

theorem exists_lookup_of_selectEntry {layout : Layout} {value : Int} {entries : List Text}
    {fields : FieldList} (h : selectEntry layout value entries = .ok fields) :
    ∃ name, layout.structs.lookup name = some fields := by
  induction entries with
  | nil => cases h
  | cons entry entries ih =>
    rw [selectEntry] at h
    split at h
    · cases h
    · split at h
      · cases h
      · split at h
        · split at h
          · rename_i fields' hlook
            obtain rfl := Except.ok.inj h
            exact ⟨_, hlook⟩
          · cases h
        · exact ih h

theorem exists_lookup_of_resolveWidth {layout : Layout} {f : Field} {fields : FieldList}
    (h : resolveWidth layout f = .ok (.struct fields)) :
    ∃ name, layout.structs.lookup name = some fields := by
  unfold resolveWidth at h
  split at h
  · cases h
  · split at h
    · rename_i fields' hlook
      obtain rfl := FieldWidth.struct.inj (Except.ok.inj h)
      exact ⟨_, hlook⟩
    · split at h <;> cases h

/-- **Reading comes to no other fields** than those of the whole and of the structures. -/
theorem Layout.Uses.mem_allFields {layout : Layout} {f : Field} (h : layout.Uses f) :
    f ∈ layout.allFields := by
  have of_lookup : ∀ {g : Field} {fields : FieldList}, g ∈ fields.fields →
      (∃ name, layout.structs.lookup name = some fields) → g ∈ layout.allFields := by
    rintro g fields hg ⟨name, hname⟩
    exact List.mem_append_right _ (List.mem_flatMap.mpr ⟨_, mem_of_lookup hname, hg⟩)
  cases h with
  | format hf => exact List.mem_append_left _ hf
  | struct _ hwidth hg => exact of_lookup hg (exists_lookup_of_resolveWidth hwidth)
  | @case f g captures fields _ _ hcase hg =>
    refine of_lookup hg ?_
    unfold selectCase at hcase
    split at hcase
    · cases hcase
    · split at hcase
      · cases hcase
      · exact exists_lookup_of_selectEntry hcase

/-- The text is what a listing writes for the bytes of a field of the layout. -/
inductive IsLineOf (st : Settings) (layout : Layout) : Bytes → Text → Prop
  | value {f : Field} {bs : Bytes} {s : Text} (hfield : layout.Uses f)
      (hformat : f.format ≠ .text) (hwidth : resolveWidth layout f = .ok (.fixed bs.length))
      (hvalue : valueText layout f bs = .ok s) : IsLineOf st layout bs s
  | text {f : Field} {bs : Bytes} {s : Text} (hfield : layout.Uses f) (hformat : f.format = .text)
      (hdecode : st.encoding.decode? bs = some s) : IsLineOf st layout bs (quote s)

/-- The lines are lines of the layout, and their blocks are the first `n` bytes of a string. -/
structure Covers (st : Settings) (layout : Layout) (lines : List Line) (n : Nat) (bs : Bytes) :
    Prop where
  size_le : n ≤ bs.length
  blocks : lines.flatMap Line.block = bs.take n
  isLine : ∀ l ∈ lines, IsLineOf st layout l.block l.text

namespace Covers

variable {st : Settings} {layout : Layout} {lines more : List Line} {m n : Nat} {bs : Bytes}

theorem nil : Covers st layout [] 0 bs :=
  ⟨Nat.zero_le _, rfl, fun _ h => absurd h List.not_mem_nil⟩

theorem append (h : Covers st layout lines n bs) (h' : Covers st layout more m (bs.drop n)) :
    Covers st layout (lines ++ more) (n + m) bs := by
  obtain ⟨hn, hb, hl⟩ := h
  obtain ⟨hm, hb', hl'⟩ := h'
  refine ⟨?_, ?_, ?_⟩
  · rw [List.length_drop] at hm
    omega
  · rw [List.flatMap_append, hb, hb', List.take_add]
  · intro l hmem
    rcases List.mem_append.mp hmem with hmem | hmem
    · exact hl l hmem
    · exact hl' l hmem

theorem single {l : Line} (hn : n ≤ bs.length) (hb : l.block = bs.take n)
    (hl : IsLineOf st layout l.block l.text) : Covers st layout [l] n bs := by
  refine ⟨hn, ?_, ?_⟩
  · rw [List.flatMap_cons, List.flatMap_nil, List.append_nil, hb]
  · intro k hk
    obtain rfl := List.mem_singleton.mp hk
    exact hl

theorem indent (h : Covers st layout lines n bs) :
    Covers st layout (lines.map Line.indent) n bs := by
  refine ⟨h.size_le, ?_, ?_⟩
  · rw [List.flatMap_map, ← h.blocks]
    rfl
  · intro l hl
    obtain ⟨k, hk, rfl⟩ := List.mem_map.mp hl
    exact h.isLine k hk

end Covers

/-! ## Readers -/

section Readers

variable {st : Settings} {layout : Layout}

theorem eq_of_take_eq_ok {p : Cursor} {n : Nat} {bs : Bytes} (h : p.take n = .ok bs) :
    n ≤ p.rest.length ∧ bs = p.rest.take n := by
  unfold Cursor.take at h
  split at h
  · exact ⟨by assumption, (Except.ok.inj h).symm⟩
  · cases h

theorem covers_readValues {f : Field} (hfield : layout.Uses f) (hformat : f.format ≠ .text)
    {width : Nat} (hwidth : resolveWidth layout f = .ok (.fixed width)) :
    ∀ {count : Nat} {p : Cursor} {b : Block}, readValues layout f width count p = .ok b →
      Covers st layout b.lines b.size p.rest := by
  intro count
  induction count with
  | zero =>
    intro p b h
    obtain rfl := Except.ok.inj h
    exact Covers.nil
  | succ count ih =>
    intro p b h
    rw [readValues] at h
    obtain ⟨bs, hbs, h⟩ := exists_of_bind_eq_ok h
    obtain ⟨s, hs, h⟩ := exists_of_bind_eq_ok h
    obtain ⟨more, hmore, h⟩ := exists_of_bind_eq_ok h
    obtain rfl := Except.ok.inj h
    obtain ⟨hle, rfl⟩ := eq_of_take_eq_ok (mapError_eq_ok_iff.mp hbs)
    have hlen : (p.rest.take width).length = width := by
      rw [List.length_take, Nat.min_eq_left hle]
    exact (Covers.single hle rfl (.value hfield hformat (by rw [hlen]; exact hwidth)
      (mapError_eq_ok_iff.mp hs))).append (ih hmore)

theorem covers_readText {f : Field} (hfield : layout.Uses f) (hformat : f.format = .text)
    {width count : Nat} {p : Cursor} {b : Block} (h : readText st f width count p = .ok b) :
    Covers st layout b.lines b.size p.rest := by
  rw [readText] at h
  obtain ⟨bs, hbs, h⟩ := exists_of_bind_eq_ok h
  obtain ⟨hle, rfl⟩ := eq_of_take_eq_ok (mapError_eq_ok_iff.mp hbs)
  split at h
  · rename_i s hs
    obtain rfl := Except.ok.inj h
    have hlen := List.length_take_of_le hle
    refine Covers.single ?_ ?_ (.text hfield hformat hs)
    · rw [hlen]
      exact hle
    · rw [hlen]
  · cases h

theorem covers_readStructs {nested : Bytes → Except ListingError Occurrence}
    (hnested : ∀ bs r, nested bs = .ok r → Covers st layout r.lines r.size bs) :
    ∀ {count : Nat} {p : Cursor} {b : Block}, readStructs nested count p = .ok b →
      Covers st layout b.lines b.size p.rest := by
  intro count
  induction count with
  | zero =>
    intro p b h
    obtain rfl := Except.ok.inj h
    exact Covers.nil
  | succ count ih =>
    intro p b h
    rw [readStructs] at h
    obtain ⟨r, hr, h⟩ := exists_of_bind_eq_ok h
    obtain ⟨more, hmore, h⟩ := exists_of_bind_eq_ok h
    obtain rfl := Except.ok.inj h
    exact (hnested _ r hr).indent.append (ih hmore)

/-- The ways to read a field: as one text, value by value, or by the structure that it names or
selects. -/
inductive ReadsField (st : Settings) (layout : Layout)
    (nested : Field → FieldList → Bytes → Except ListingError Occurrence) (captures : Captures)
    (p : Cursor) (f : Field) : Block → Prop
  | text {count width : Nat} {b : Block} (hcount : repeatCount captures f = .ok count)
      (hwidth : resolveWidth layout f = .ok (.fixed width)) (hformat : f.format = .text)
      (hread : readText st f width count p = .ok b) : ReadsField st layout nested captures p f b
  | values {count width : Nat} {b : Block} (hcount : repeatCount captures f = .ok count)
      (hwidth : resolveWidth layout f = .ok (.fixed width)) (hformat : f.format ≠ .text)
      (hread : readValues layout f width count p = .ok b) :
      ReadsField st layout nested captures p f b
  | struct {count : Nat} {fields : FieldList} {b : Block}
      (hcount : repeatCount captures f = .ok count)
      (hwidth : resolveWidth layout f = .ok (.struct fields))
      (hread : readStructs (nested f fields) count p = .ok b) :
      ReadsField st layout nested captures p f b
  | switch {count : Nat} {fields : FieldList} {b : Block}
      (hcount : repeatCount captures f = .ok count) (hwidth : resolveWidth layout f = .ok .switch)
      (hcase : selectCase layout captures f = .ok fields)
      (hread : readStructs (nested f fields) count p = .ok b) :
      ReadsField st layout nested captures p f { b with captured := [] }

/-- A field that is read is so in one of these ways. -/
theorem readsField_of_readField
    {nested : Field → FieldList → Bytes → Except ListingError Occurrence} {f : Field}
    {captures : Captures} {p : Cursor} {b : Block}
    (h : readField st layout nested captures p f = .ok b) :
    ReadsField st layout nested captures p f b := by
  rw [readField] at h
  obtain ⟨count, hcount, h⟩ := exists_of_bind_eq_ok h
  obtain ⟨width, hwidth, h⟩ := exists_of_bind_eq_ok h
  have hcount := mapError_eq_ok_iff.mp hcount
  have hwidth := mapError_eq_ok_iff.mp hwidth
  dsimp only at h
  split at h
  · cases h
  cases width with
  | fixed n =>
    dsimp only at h
    split at h
    · rename_i hformat
      exact .text hcount hwidth hformat h
    · rename_i hformat
      exact .values hcount hwidth hformat h
  | struct fields => exact .struct hcount hwidth h
  | switch =>
    obtain ⟨fields, hfields, h⟩ := exists_of_bind_eq_ok h
    obtain ⟨block, hblock, h⟩ := exists_of_bind_eq_ok h
    obtain rfl := Except.ok.inj h
    exact .switch hcount hwidth (mapError_eq_ok_iff.mp hfields) hblock

/-- **A field gives lines for the bytes that it takes**, if its structures do. -/
theorem covers_readField
    {nested : Field → FieldList → Bytes → Except ListingError Occurrence}
    (hnested : ∀ f fields bs r, (∀ g ∈ fields.fields, layout.Uses g) →
      nested f fields bs = .ok r → Covers st layout r.lines r.size bs)
    {f : Field} (hfield : layout.Uses f) {captures : Captures} {p : Cursor} {b : Block}
    (h : readField st layout nested captures p f = .ok b) :
    Covers st layout b.lines b.size p.rest := by
  cases readsField_of_readField h with
  | text _ _ hformat hread => exact covers_readText hfield hformat hread
  | values _ hwidth hformat hread => exact covers_readValues hfield hformat hwidth hread
  | struct _ hwidth hread =>
    exact covers_readStructs
      (fun bs r hr => hnested f _ bs r (fun _ hg => .struct hfield hwidth hg) hr) hread
  | switch _ hwidth hcase hread =>
    have hcovers := covers_readStructs
      (fun bs r hr => hnested f _ bs r (fun _ hg => .case hfield hwidth hcase hg) hr) hread
    exact ⟨hcovers.size_le, hcovers.blocks, hcovers.isLine⟩

/-- **Fields in order give lines for the bytes that they take**, if each field does. -/
theorem covers_readFields {field : Captures → Cursor → Field → Except ListingError Block} :
    ∀ {fs : List Field} {captures : Captures} {p : Cursor} {r : Occurrence},
      (∀ f ∈ fs, ∀ captures p b, field captures p f = .ok b →
        Covers st layout b.lines b.size p.rest) →
      readFields field captures p fs = .ok r → Covers st layout r.lines r.size p.rest := by
  intro fs
  induction fs with
  | nil =>
    intro captures p r _ h
    obtain rfl := Except.ok.inj h
    exact Covers.nil
  | cons f fs ih =>
    intro captures p r hfield h
    rw [readFields] at h
    obtain ⟨b, hb, h⟩ := exists_of_bind_eq_ok h
    obtain ⟨more, hmore, h⟩ := exists_of_bind_eq_ok h
    obtain rfl := Except.ok.inj h
    exact (hfield f List.mem_cons_self captures p b hb).append
      (ih (fun g hg => hfield g (List.mem_cons_of_mem _ hg)) hmore)

end Readers

/-! ## Listings -/

variable {st : Settings} {layout : Layout}

/-- An occurrence of fields gives lines for the bytes that it takes, at every depth. -/
theorem covers_decodeWithin {depth : Nat} :
    ∀ {fields : FieldList} {bs : Bytes} {r : Occurrence},
      (∀ f ∈ fields.fields, layout.Uses f) → decodeWithin st layout depth fields bs = .ok r →
      Covers st layout r.lines r.size bs := by
  induction depth with
  | zero =>
    intro fields bs r hfields h
    rw [decodeWithin] at h
    refine covers_readFields (fun f hf captures p b hb => ?_) h
    refine covers_readField (fun f fields bs r _ hr => ?_) (hfields f hf) hb
    cases hr
  | succ depth ih =>
    intro fields bs r hfields h
    rw [decodeWithin] at h
    refine covers_readFields (fun f hf captures p b hb => ?_) h
    exact covers_readField (fun _ fields bs r huses hr => ih huses hr) (hfields f hf) hb

/-- **The lines of a listing stand for the bytes that it consumes**, and the rest is left over. -/
theorem covers_decompile {bs : Bytes} {l : Listing} (h : decompile st layout bs = .ok l) :
    Covers st layout l.lines l.consumed bs ∧ l.leftover = bs.drop l.consumed := by
  rw [decompile] at h
  obtain ⟨r, hr, h⟩ := exists_of_bind_eq_ok h
  obtain rfl := Except.ok.inj h
  exact ⟨covers_decodeWithin (fun f hf => .format hf) hr, rfl⟩

end ByteScript
