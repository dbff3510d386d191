import Mathlib.Data.List.Basic
import ByteScript.Proofs.Listing.Coverage

/-!
# Occurrences under way

While a binary is read, occurrences of structures are under way, one in another. Each of them has
its own bytes, of which the lines written so far stand for those in front of the place reached. It
never leaves its bytes, and neither does anything that it reads or hands to a structure.

* `Cursor.IsIn`: a place in bytes;
* `structReader`, `decodeWithin_eq`: the reader of the structures in an occurrence;
* `Activation`, `Activation.start`, `Activation.after`: an occurrence under way;
* `Takes`, `NamesStruct`, `Enters`: the bytes that a field takes, and the occurrences that it comes
  to; `Takes.isIn`, `Enters.exists_ok`: where they lie;
* `Reading`: the occurrences under way while a binary is read;
* `Activation.Sound`: what is known of each of them; `sound_start`, `Activation.Sound.after`,
  `Activation.Sound.enter`: it is kept; **`Reading.sound`**: so it is known of all;
* `Reading.exists_end`: each of them comes to its end;
* **`decompile_inRange`**: a listing stands for its bytes at every moment and at every depth.
-/

namespace ByteScript

/-! ## Places -/

namespace Cursor

variable {p : Cursor} {bs : Bytes} {n : Nat}

theorem advance_advance (p : Cursor) (m n : Nat) : (p.advance m).advance n = p.advance (m + n) := by
  rw [advance, advance, advance, List.drop_drop, Nat.add_assoc]

/-- The place is in the bytes: its offset does not exceed them, and what it has in front of it is
all of them from there on. -/
structure IsIn (p : Cursor) (bs : Bytes) : Prop where
  offset_le : p.offset ≤ bs.length
  rest_eq : p.rest = bs.drop p.offset

theorem isIn_start (bs : Bytes) : IsIn ⟨0, bs⟩ bs := ⟨Nat.zero_le _, rfl⟩

namespace IsIn

variable (h : p.IsIn bs)

include h

theorem add_le (hn : n ≤ p.rest.length) : p.offset + n ≤ bs.length := by
  have hle := h.offset_le
  rw [h.rest_eq, List.length_drop] at hn
  omega

theorem advance (hn : n ≤ p.rest.length) : (p.advance n).IsIn bs := by
  refine ⟨h.add_le hn, ?_⟩
  rw [Cursor.advance, h.rest_eq, List.drop_drop]

end IsIn

end Cursor

/-! ## Occurrences -/

section Definitions

variable (st : Settings) (layout : Layout)

/-- The reader of the structures in an occurrence, which may nest to the given depth. -/
def structReader : (depth : Nat) → Field → FieldList → Bytes → Except ListingError Occurrence
  | 0, f, _, _ => .error ⟨f, .depthLimit st.maxDepth⟩
  | depth + 1, _, fields, bs => decodeWithin st layout depth fields bs

theorem decodeWithin_eq (depth : Nat) (fields : FieldList) (bs : Bytes) :
    decodeWithin st layout depth fields bs =
      readFields (readField st layout (structReader st layout depth)) [] ⟨0, bs⟩ fields.fields := by
  cases depth <;> rfl

/-- An occurrence under way: the depth that is left for its structures, its bytes, the captures made
in it, the place reached, the lines written and the fields that are still to be read. -/
structure Activation where
  depth : Nat
  bytes : Bytes
  captures : Captures
  place : Cursor
  lines : List Line
  ahead : List Field

namespace Activation

/-- An occurrence of fields at its start. -/
def start (depth : Nat) (bs : Bytes) (fields : FieldList) : Activation :=
  ⟨depth, bs, [], ⟨0, bs⟩, [], fields.fields⟩

/-- An occurrence after a field that gives a block. -/
def after (a : Activation) (f : Field) (fs : List Field) (block : Block) : Activation :=
  { a with
    captures := a.captures.keep f block.captured
    place := a.place.advance block.size
    lines := a.lines ++ block.lines
    ahead := fs }

/-- What a field gives in an occurrence. -/
def read (a : Activation) (f : Field) : Except ListingError Block :=
  readField st layout (structReader st layout a.depth) a.captures a.place f

end Activation

/-- A field takes `n` bytes at a place: those of its text, or those of one of its values behind the
values before it. -/
inductive Takes (a : Activation) (f : Field) : (q : Cursor) → (n : Nat) → Prop
  | text {count width : Nat} (hcount : repeatCount a.captures f = .ok count)
      (hwidth : resolveWidth layout f = .ok (.fixed width)) (hformat : f.format = .text) :
      Takes a f a.place (min (width * count) maxSize)
  | value {count width i : Nat} {before : Block} (hcount : repeatCount a.captures f = .ok count)
      (hwidth : resolveWidth layout f = .ok (.fixed width)) (hformat : f.format ≠ .text)
      (hi : i < count) (hbefore : readValues layout f width i a.place = .ok before) :
      Takes a f (a.place.advance before.size) width

/-- A field names the structure of these fields, or selects it. -/
inductive NamesStruct (captures : Captures) (f : Field) : FieldList → Prop
  | struct {fields : FieldList} (hwidth : resolveWidth layout f = .ok (.struct fields)) :
      NamesStruct captures f fields
  | switch {fields : FieldList} (hwidth : resolveWidth layout f = .ok .switch)
      (hcase : selectCase layout captures f = .ok fields) : NamesStruct captures f fields

/-- A field comes to the occurrence `i` of the structure that it names or selects, at a place behind
the occurrences before it. -/
structure Enters (a : Activation) (f : Field) (i : Nat) (fields : FieldList) (q : Cursor) :
    Prop where
  names : NamesStruct layout a.captures f fields
  lt_count : ∃ count, repeatCount a.captures f = .ok count ∧ i < count
  behind : ∃ before, readStructs (structReader st layout a.depth f fields) i a.place = .ok before ∧
    q = a.place.advance before.size

/-- The occurrences under way while a binary is read: the whole, then what each of them is after its
next field, and the occurrences that this field comes to, which have what is left of its bytes. -/
inductive Reading (bs : Bytes) : Activation → Prop
  | whole : Reading bs (.start st.maxDepth bs layout.format)
  | next {a : Activation} {f : Field} {fs : List Field} {block : Block} (h : Reading bs a)
      (hahead : a.ahead = f :: fs) (hread : a.read st layout f = .ok block) :
      Reading bs (a.after f fs block)
  | enter {a : Activation} {f : Field} {fs : List Field} {depth i : Nat} {fields : FieldList}
      {q : Cursor} (h : Reading bs a) (hahead : a.ahead = f :: fs) (hdepth : a.depth = depth + 1)
      (henter : Enters st layout a f i fields q) : Reading bs (.start depth q.rest fields)

end Definitions

/-! ## Repetitions -/

section Repetitions

variable {layout : Layout}

theorem le_of_readText {st : Settings} {f : Field} {width count : Nat} {p : Cursor} {b : Block}
    (h : readText st f width count p = .ok b) : min (width * count) maxSize ≤ p.rest.length := by
  rw [readText] at h
  obtain ⟨bs, hbs, -⟩ := exists_of_bind_eq_ok h
  exact (eq_of_take_eq_ok (mapError_eq_ok_iff.mp hbs)).1

/-- Where all values of a field are read, there are bytes for each behind those before it. -/
theorem le_of_readValues {f : Field} {width count i : Nat} {p : Cursor} {b before : Block}
    (h : readValues layout f width count p = .ok b) (hi : i < count)
    (hbefore : readValues layout f width i p = .ok before) :
    width ≤ (p.advance before.size).rest.length := by
  induction i generalizing count p b before with
  | zero =>
    obtain ⟨count, rfl⟩ := Nat.exists_eq_succ_of_ne_zero (Nat.ne_of_gt hi)
    obtain rfl := Except.ok.inj hbefore
    rw [readValues] at h
    obtain ⟨bs, hbs, -⟩ := exists_of_bind_eq_ok h
    exact (eq_of_take_eq_ok (mapError_eq_ok_iff.mp hbs)).1
  | succ i ih =>
    obtain ⟨count, rfl⟩ := Nat.exists_eq_succ_of_ne_zero (Nat.ne_of_gt (Nat.zero_lt_of_lt hi))
    rw [readValues] at h hbefore
    obtain ⟨_, -, h⟩ := exists_of_bind_eq_ok h
    obtain ⟨_, -, h⟩ := exists_of_bind_eq_ok h
    obtain ⟨more, hmore, -⟩ := exists_of_bind_eq_ok h
    obtain ⟨_, -, hbefore⟩ := exists_of_bind_eq_ok hbefore
    obtain ⟨_, -, hbefore⟩ := exists_of_bind_eq_ok hbefore
    obtain ⟨rest, hrest, hbefore⟩ := exists_of_bind_eq_ok hbefore
    obtain rfl := Except.ok.inj hbefore
    rw [← Cursor.advance_advance]
    exact ih hmore (Nat.lt_of_succ_lt_succ hi) hrest

/-- Where all occurrences of a structure are read, so is each behind those before it, and the last
one is kept. -/
theorem exists_of_readStructs {nested : Bytes → Except ListingError Occurrence} {count i : Nat}
    {p : Cursor} {b before : Block} (h : readStructs nested count p = .ok b) (hi : i < count)
    (hbefore : readStructs nested i p = .ok before) :
    ∃ r, nested (p.advance before.size).rest = .ok r ∧
      (i + 1 = count → b.captured = (p.advance before.size).rest.take r.size) := by
  induction i generalizing count p b before with
  | zero =>
    obtain ⟨count, rfl⟩ := Nat.exists_eq_succ_of_ne_zero (Nat.ne_of_gt hi)
    obtain rfl := Except.ok.inj hbefore
    rw [readStructs] at h
    obtain ⟨r, hr, h⟩ := exists_of_bind_eq_ok h
    obtain ⟨more, -, h⟩ := exists_of_bind_eq_ok h
    obtain rfl := Except.ok.inj h
    exact ⟨r, hr, fun hlast => if_pos (Nat.succ.inj hlast).symm⟩
  | succ i ih =>
    obtain ⟨count, rfl⟩ := Nat.exists_eq_succ_of_ne_zero (Nat.ne_of_gt (Nat.zero_lt_of_lt hi))
    rw [readStructs] at h hbefore
    obtain ⟨r, hr, h⟩ := exists_of_bind_eq_ok h
    obtain ⟨more, hmore, h⟩ := exists_of_bind_eq_ok h
    obtain rfl := Except.ok.inj h
    obtain ⟨r', hr', hbefore⟩ := exists_of_bind_eq_ok hbefore
    obtain ⟨rest, hrest, hbefore⟩ := exists_of_bind_eq_ok hbefore
    obtain rfl := Except.ok.inj hbefore
    obtain rfl := Except.ok.inj (hr.symm.trans hr')
    have hi := Nat.lt_of_succ_lt_succ hi
    obtain ⟨o, ho, hlast⟩ := ih hmore hi hrest
    rw [← Cursor.advance_advance]
    refine ⟨o, ho, fun h => ?_⟩
    rw [← hlast (Nat.succ.inj h)]
    exact if_neg (Nat.ne_of_gt (Nat.zero_lt_of_lt hi))

end Repetitions

/-! ## Fields of an occurrence -/

section Fields

variable {st : Settings} {layout : Layout} {a : Activation} {f : Field} {block : Block}

theorem covers_structReader {depth : Nat} {fields : FieldList} {bs : Bytes} {r : Occurrence}
    (hfields : ∀ g ∈ fields.fields, layout.Uses g)
    (h : structReader st layout depth f fields bs = .ok r) :
    Covers st layout r.lines r.size bs := by
  cases depth with
  | zero => cases h
  | succ depth => exact covers_decodeWithin hfields h

theorem covers_read (hf : layout.Uses f) (h : a.read st layout f = .ok block) :
    Covers st layout block.lines block.size a.place.rest :=
  covers_readField (fun _ _ _ _ hfields hr => covers_structReader hfields hr) hf h

theorem NamesStruct.uses {captures : Captures} {fields : FieldList}
    (h : NamesStruct layout captures f fields) (hf : layout.Uses f) :
    ∀ g ∈ fields.fields, layout.Uses g := by
  cases h with
  | struct hwidth => exact fun g hg => .struct hf hwidth hg
  | switch hwidth hcase => exact fun g hg => .case hf hwidth hcase hg

/-- A field that names or selects a structure is read by its occurrences. -/
theorem NamesStruct.exists_readStructs
    {nested : Field → FieldList → Bytes → Except ListingError Occurrence} {captures : Captures}
    {fields : FieldList} {p : Cursor} (h : NamesStruct layout captures f fields)
    (hread : readField st layout nested captures p f = .ok block) :
    ∃ count b, repeatCount captures f = .ok count ∧
      readStructs (nested f fields) count p = .ok b ∧
      (resolveWidth layout f = .ok (.struct fields) → block = b) := by
  cases h with
  | struct hwidth =>
    cases readsField_of_readField hread with
    | struct hcount hwidth' hread =>
      cases hwidth.symm.trans hwidth'
      exact ⟨_, _, hcount, hread, fun _ => rfl⟩
    | text _ hwidth' | values _ hwidth' | switch _ hwidth' => cases hwidth.symm.trans hwidth'
  | switch hwidth hcase =>
    cases readsField_of_readField hread with
    | switch hcount _ hcase' hread =>
      cases hcase.symm.trans hcase'
      exact ⟨_, _, hcount, hread, fun hstruct => nomatch hwidth.symm.trans hstruct⟩
    | text _ hwidth' | values _ hwidth' | struct _ hwidth' => cases hwidth.symm.trans hwidth'

/-- A field that is read takes no bytes but those of the occurrence. -/
theorem Takes.isIn {q : Cursor} {n : Nat} (ht : Takes layout a f q n)
    (h : a.read st layout f = .ok block) (hf : layout.Uses f) (hplace : a.place.IsIn a.bytes) :
    q.IsIn a.bytes ∧ q.offset + n ≤ a.bytes.length := by
  cases ht with
  | text hcount hwidth hformat =>
    cases readsField_of_readField h with
    | text hcount' hwidth' _ hread =>
      cases hcount.symm.trans hcount'
      cases hwidth.symm.trans hwidth'
      exact ⟨hplace, hplace.add_le (le_of_readText hread)⟩
    | values _ _ hformat' => exact absurd hformat hformat'
    | struct _ hwidth' | switch _ hwidth' => cases hwidth.symm.trans hwidth'
  | value hcount hwidth hformat hi hbefore =>
    cases readsField_of_readField h with
    | values hcount' hwidth' _ hread =>
      cases hcount.symm.trans hcount'
      cases hwidth.symm.trans hwidth'
      have hcovers : Covers st layout _ _ _ := covers_readValues hf hformat hwidth hbefore
      have hq := hplace.advance hcovers.size_le
      exact ⟨hq, hq.add_le (le_of_readValues hread hi hbefore)⟩
    | text _ _ hformat' => exact absurd hformat' hformat
    | struct _ hwidth' | switch _ hwidth' => cases hwidth.symm.trans hwidth'

/-- A field that is read comes to occurrences that are read, and keeps the bytes of the last one of
a structure that it names. -/
theorem Enters.exists_ok {i : Nat} {fields : FieldList} {q : Cursor}
    (he : Enters st layout a f i fields q) (h : a.read st layout f = .ok block) (hf : layout.Uses f)
    (hplace : a.place.IsIn a.bytes) :
    q.IsIn a.bytes ∧ ∃ r, structReader st layout a.depth f fields q.rest = .ok r ∧
      Covers st layout r.lines r.size q.rest ∧
      (resolveWidth layout f = .ok (.struct fields) → repeatCount a.captures f = .ok (i + 1) →
        block.captured = q.rest.take r.size) := by
  obtain ⟨count, hcount, hi⟩ := he.lt_count
  obtain ⟨before, hbefore, rfl⟩ := he.behind
  obtain ⟨count', b, hcount', hread, hblock⟩ := he.names.exists_readStructs h
  cases hcount.symm.trans hcount'
  have hcovers : ∀ bs r, structReader st layout a.depth f fields bs = .ok r →
      Covers st layout r.lines r.size bs := fun _ _ => covers_structReader (he.names.uses hf)
  obtain ⟨r, hr, hlast⟩ := exists_of_readStructs hread hi hbefore
  refine ⟨hplace.advance (covers_readStructs hcovers hbefore).size_le, r, hr, hcovers _ _ hr, ?_⟩
  intro hstruct hone
  cases hcount.symm.trans hone
  rw [hblock hstruct, hlast rfl]

end Fields

/-! ## Runs -/

section Runs

variable (st : Settings) (layout : Layout)

/-- What is known of an occurrence under way: its place is in its bytes, the lines written stand for
those in front of the place, and the fields ahead are fields of the layout that are read. -/
structure Activation.Sound (a : Activation) : Prop where
  place : a.place.IsIn a.bytes
  covers : Covers st layout a.lines a.place.offset a.bytes
  uses : ∀ f ∈ a.ahead, layout.Uses f
  reads : ∃ r, readFields (readField st layout (structReader st layout a.depth)) a.captures a.place
    a.ahead = .ok r

variable {st layout} {a : Activation} {f : Field} {fs : List Field}

theorem sound_start {depth : Nat} {bs : Bytes} {fields : FieldList} {r : Occurrence}
    (hfields : ∀ f ∈ fields.fields, layout.Uses f)
    (h : decodeWithin st layout depth fields bs = .ok r) :
    (Activation.start depth bs fields).Sound st layout :=
  ⟨Cursor.isIn_start bs, .nil, hfields, r, decodeWithin_eq st layout depth fields bs ▸ h⟩

namespace Activation.Sound

variable (h : a.Sound st layout) (hahead : a.ahead = f :: fs)

include h hahead

theorem uses_head : layout.Uses f := h.uses f (hahead ▸ List.mem_cons_self)

/-- The next field is read, and so are those after it. -/
theorem exists_read : ∃ block more, a.read st layout f = .ok block ∧
    readFields (readField st layout (structReader st layout a.depth))
      (a.captures.keep f block.captured) (a.place.advance block.size) fs = .ok more := by
  obtain ⟨r, hr⟩ := h.reads
  rw [hahead, readFields] at hr
  obtain ⟨block, hblock, hr⟩ := exists_of_bind_eq_ok hr
  obtain ⟨more, hmore, -⟩ := exists_of_bind_eq_ok hr
  exact ⟨block, more, hblock, hmore⟩

/-- What is known is kept from field to field. -/
theorem after {block : Block} (hread : a.read st layout f = .ok block) :
    (a.after f fs block).Sound st layout := by
  obtain ⟨block', more, hread', hmore⟩ := h.exists_read hahead
  cases hread.symm.trans hread'
  have hcovers := covers_read (h.uses_head hahead) hread
  refine ⟨h.place.advance hcovers.size_le, ?_, fun g hg => ?_, more, hmore⟩
  · exact h.covers.append (h.place.rest_eq ▸ hcovers)
  · exact h.uses g (hahead ▸ List.mem_cons_of_mem f hg)

/-- What is known holds of the occurrences that a field comes to. -/
theorem enter {depth i : Nat} {fields : FieldList} {q : Cursor} (hdepth : a.depth = depth + 1)
    (henter : Enters st layout a f i fields q) :
    (Activation.start depth q.rest fields).Sound st layout := by
  obtain ⟨block, _, hread, -⟩ := h.exists_read hahead
  have hf := h.uses_head hahead
  obtain ⟨-, r, hr, -⟩ := henter.exists_ok hread hf h.place
  rw [hdepth] at hr
  exact sound_start (henter.names.uses hf) hr

end Activation.Sound

/-- **What is known holds of every occurrence under way** while a binary is read that has a
listing. -/
theorem Reading.sound {bs : Bytes} {l : Listing} (hl : decompile st layout bs = .ok l)
    (h : Reading st layout bs a) : a.Sound st layout := by
  induction h with
  | whole =>
    rw [decompile] at hl
    obtain ⟨r, hr, -⟩ := exists_of_bind_eq_ok hl
    exact sound_start (fun f hf => .format hf) hr
  | next _ hahead hread ih => exact ih.after hahead hread
  | enter _ hahead hdepth henter ih => exact ih.enter hahead hdepth henter

/-- An occurrence under way comes to its end, with the lines and the bytes of the fields ahead. -/
theorem Reading.exists_end {bs : Bytes} {r : Occurrence} (h : Reading st layout bs a)
    (hread : readFields (readField st layout (structReader st layout a.depth)) a.captures a.place
      a.ahead = .ok r) :
    ∃ b, Reading st layout bs b ∧ b.ahead = [] ∧ b.bytes = a.bytes ∧ b.lines = a.lines ++ r.lines ∧
      b.place = a.place.advance r.size := by
  induction hfs : a.ahead generalizing a r with
  | nil =>
    rw [hfs] at hread
    obtain rfl := Except.ok.inj hread
    exact ⟨a, h, hfs, rfl, (List.append_nil _).symm, rfl⟩
  | cons f fs ih =>
    rw [hfs, readFields] at hread
    obtain ⟨block, hblock, hread⟩ := exists_of_bind_eq_ok hread
    obtain ⟨more, hmore, hread⟩ := exists_of_bind_eq_ok hread
    obtain rfl := Except.ok.inj hread
    obtain ⟨b, hb, hend, hbytes, hlines, hplace⟩ := ih (h.next hfs hblock) hmore rfl
    refine ⟨b, hb, hend, hbytes, ?_, ?_⟩
    · rw [hlines, Activation.after, List.append_assoc]
    · rw [hplace, Activation.after, Cursor.advance_advance]

/-- An occurrence that is read from its start ends with what it gives. -/
theorem Reading.exists_end_of_start {bs whole : Bytes} {depth : Nat} {fields : FieldList}
    {r : Occurrence} (h : Reading st layout bs (.start depth whole fields))
    (hr : decodeWithin st layout depth fields whole = .ok r) :
    ∃ b, Reading st layout bs b ∧ b.ahead = [] ∧ b.bytes = whole ∧ b.lines = r.lines ∧
      b.place.offset = r.size := by
  obtain ⟨b, hb, hend, hbytes, hlines, hplace⟩ :=
    h.exists_end (decodeWithin_eq st layout depth fields whole ▸ hr)
  exact ⟨b, hb, hend, hbytes, hlines, hplace ▸ Nat.zero_add _⟩

variable (st layout) in
/-- A field stays in the bytes of an occurrence: what it takes lies in them, and so does each
occurrence that it comes to, which is read and returns the bytes that its own lines stand for. The
field keeps those of the last occurrence of a structure that it names. -/
structure Activation.InRange (a : Activation) (f : Field) (block : Block) : Prop where
  takes : ∀ q n, Takes layout a f q n → q.IsIn a.bytes ∧ q.offset + n ≤ a.bytes.length
  enters : ∀ i fields q, Enters st layout a f i fields q → q.IsIn a.bytes ∧
    ∃ r, structReader st layout a.depth f fields q.rest = .ok r ∧
      q.offset + r.size ≤ a.bytes.length ∧ q.rest.take r.size = r.lines.flatMap Line.block ∧
      (resolveWidth layout f = .ok (.struct fields) → repeatCount a.captures f = .ok (i + 1) →
        block.captured = r.lines.flatMap Line.block)

theorem Activation.Sound.exists_inRange (h : a.Sound st layout) (hahead : a.ahead = f :: fs) :
    ∃ block, a.read st layout f = .ok block ∧ a.InRange st layout f block := by
  obtain ⟨block, _, hread, -⟩ := h.exists_read hahead
  have hf := h.uses_head hahead
  refine ⟨block, hread, fun q n ht => ht.isIn hread hf h.place, fun i fields q he => ?_⟩
  obtain ⟨hq, r, hr, hcovers, hlast⟩ := he.exists_ok hread hf h.place
  refine ⟨hq, r, hr, hq.add_le hcovers.size_le, hcovers.blocks.symm, fun hstruct hone => ?_⟩
  rw [hlast hstruct hone, hcovers.blocks]

end Runs

/-- **A listing stands for its bytes, at every moment and at every depth.** The blocks of its lines,
one after the other, are the bytes that it consumes, each line is a line of the layout, and the
other bytes are left over. While the binary is read, the offset of no occurrence under way exceeds
its bytes, the lines that it has written so far stand for those in front of the offset, its next
field is read, and what that field takes or hands to a structure lies in its bytes. Each occurrence
is under way up to its end, with the lines and the bytes that it gives. -/
theorem decompile_inRange {st : Settings} {layout : Layout} {bs : Bytes} {l : Listing}
    (h : decompile st layout bs = .ok l) :
    (l.consumed ≤ bs.length ∧ l.lines.flatMap Line.block = bs.take l.consumed ∧
      l.leftover = bs.drop l.consumed ∧
      ∀ line ∈ l.lines, IsLineOf st layout line.block line.text) ∧
    (∀ a, Reading st layout bs a → a.place.IsIn a.bytes ∧
      a.lines.flatMap Line.block = a.bytes.take a.place.offset ∧
      ∀ f fs, a.ahead = f :: fs →
        ∃ block, a.read st layout f = .ok block ∧ a.InRange st layout f block) ∧
    ∀ depth whole fields, Reading st layout bs (.start depth whole fields) →
      ∃ r, decodeWithin st layout depth fields whole = .ok r ∧
        ∃ b, Reading st layout bs b ∧ b.ahead = [] ∧ b.bytes = whole ∧ b.lines = r.lines ∧
          b.place.offset = r.size := by
  obtain ⟨hcovers, hleft⟩ := covers_decompile h
  refine ⟨⟨hcovers.size_le, hcovers.blocks, hleft, hcovers.isLine⟩, fun a ha => ?_,
    fun depth whole fields hstart => ?_⟩
  · have hsound := ha.sound h
    exact ⟨hsound.place, hsound.covers.blocks, fun f fs => hsound.exists_inRange⟩
  · obtain ⟨r, hr⟩ := (hstart.sound h).reads
    have hread : decodeWithin st layout depth fields whole = .ok r :=
      (decodeWithin_eq st layout depth fields whole).trans hr
    exact ⟨r, hread, hstart.exists_end_of_start hread⟩

/-- Two pairs, the last of which is kept, a field of no bytes and a text of two. -/
def pairLayout : Layout where
  format := .lines ["[pair:2]$last [0] [2]s".toList]
  sizes := [("u".toList, 1)]
  structs := dictionary [("pair".toList, .lines ["[u]h [u]d".toList])]
  structs_dictionary := isDictionary_dictionary _
  defines_dictionary := isDictionary_nil

/-- Six of seven bytes are listed. The second pair is under way after its first byte, with one line
written and one byte in front of its offset, and the field keeps the bytes of this pair. -/
theorem decompile_inRange_pairs :
    ∃ l, decompile {} pairLayout [16, 255, 32, 2, 104, 105, 9] = .ok l ∧
      l.lines.flatMap Line.block = [16, 255, 32, 2, 104, 105] ∧
      (∃ a, Reading {} pairLayout [16, 255, 32, 2, 104, 105, 9] a ∧ a.place.offset = 1 ∧
        a.place.IsIn [32, 2, 104, 105, 9] ∧ a.lines.flatMap Line.block = [32]) ∧
      ∃ block r, (Activation.start 64 [16, 255, 32, 2, 104, 105, 9] pairLayout.format).read {}
          pairLayout ⟨"pair".toList, .count 2, .decimal, some "last".toList⟩ = .ok block ∧
        decodeWithin {} pairLayout 63 (.lines ["[u]h [u]d".toList]) [32, 2, 104, 105, 9] = .ok r ∧
        block.captured = r.lines.flatMap Line.block := by
  have hlisting : decompile {} pairLayout [16, 255, 32, 2, 104, 105, 9] = .ok
      ⟨[⟨1, [16], "[u] #10".toList⟩, ⟨1, [255], "[u] -1".toList⟩, ⟨1, [32], "[u] #20".toList⟩,
        ⟨1, [2], "[u] +2".toList⟩, ⟨0, [], "[0] +0".toList⟩, ⟨0, [104, 105], "'hi'".toList⟩],
        6, [9]⟩ := by
    decide +kernel
  obtain ⟨⟨-, hblocks, -, -⟩, hreading, -⟩ := decompile_inRange hlisting
  have hwhole : Reading {} pairLayout [16, 255, 32, 2, 104, 105, 9] _ := .whole
  have hahead : (Activation.start 64 [16, 255, 32, 2, 104, 105, 9] pairLayout.format).ahead =
      [⟨"pair".toList, .count 2, .decimal, some "last".toList⟩,
        ⟨"0".toList, .once, .decimal, none⟩, ⟨"2".toList, .once, .text, none⟩] := by
    decide +kernel
  have hsecond : Enters {} pairLayout
      (Activation.start 64 [16, 255, 32, 2, 104, 105, 9] pairLayout.format)
      ⟨"pair".toList, .count 2, .decimal, some "last".toList⟩ 1 (.lines ["[u]h [u]d".toList])
      ⟨2, [32, 2, 104, 105, 9]⟩ :=
    ⟨.struct (by decide +kernel), ⟨2, by decide, by decide⟩,
      ⟨[⟨1, [16], "[u] #10".toList⟩, ⟨1, [255], "[u] -1".toList⟩], 2, [16, 255]⟩,
      by decide +kernel, rfl⟩
  -- the second pair, after its first field
  have hpair : Reading {} pairLayout [16, 255, 32, 2, 104, 105, 9]
      ((Activation.start 63 [32, 2, 104, 105, 9] (.lines ["[u]h [u]d".toList])).after
        ⟨"u".toList, .once, .hex, none⟩ [⟨"u".toList, .once, .decimal, none⟩]
        ⟨[⟨0, [32], "[u] #20".toList⟩], 1, [32]⟩) :=
    (hwhole.enter hahead rfl hsecond).next (by decide +kernel) (by decide +kernel)
  obtain ⟨hplace, hlines, -⟩ := hreading _ hpair
  obtain ⟨-, -, hfields⟩ := hreading _ hwhole
  obtain ⟨block, hread, hrange⟩ := hfields _ _ hahead
  obtain ⟨-, r, hr, -, -, hlast⟩ := hrange.enters _ _ _ hsecond
  exact ⟨_, hlisting, hblocks, ⟨_, hpair, rfl, hplace, hlines⟩, block, r, hread, hr,
    hlast (by decide +kernel) (by decide +kernel)⟩

end ByteScript
