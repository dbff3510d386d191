import Mathlib.Data.List.TakeWhile
import ByteScript.Proofs.Listing.DepthLimit
import ByteScript.Proofs.Listing.Indentation

/-!
# Occurrences of structures

The occurrences of a structure are listings of their own: each is what its fields give for the bytes
from its first one on, with one step of depth less to go, and nothing of what is read around it
matters.

* `decodeWithin_eq_ok_iff`, `decompileAs`, `decompileAs_eq_ok_iff`: occurrences and listings under
  another limit and for other fields of the whole;
* `Field.ofLine_brackets`, `Field.ofParts_letter`: the first spec of a line;
* `Field.IsTypeName`, `repeatedSpec`, `fields_repeatedSpec`: the spec of a repeated structure;
  `Field.isTypeName_iff`: every type of a spec is such a name;
* `Successive`: listings one after the other; `exists_of_successive`, `exists_successive`: those
  that a field of a structure reads;
* **`decompileAs_repeatedSpec`**: the listing of a repeated structure.
-/

namespace ByteScript

/-! ## Other fields of the whole -/

section Format

variable (st : Settings) (layout : Layout) (l : FieldList)

/-- An occurrence does not depend on what the fields of the whole are. -/
theorem decodeWithin_format (depth : Nat) (fields : FieldList) (bs : Bytes) :
    decodeWithin st { layout with format := l } depth fields bs =
      decodeWithin st layout depth fields bs := by
  have hsame : layout.Corresponds (fun l l' => l'.fields = l.fields)
      { layout with format := l } := .of_eq (fun _ => rfl) rfl rfl rfl
  exact decodeWithin_of_fields_eq hsame st depth rfl bs

/-- An occurrence depends on the depth to which it is read, not on the limit. -/
theorem decodeWithin_eq_ok_iff {limit depth : Nat} {fields : FieldList} {bs : Bytes}
    {r : Occurrence} :
    decodeWithin { st with maxDepth := limit } { layout with format := l } depth fields bs = .ok r ↔
      decodeWithin st layout depth fields bs = .ok r := by
  rw [decodeWithin_format, decodeWithin_maxDepth, mapError_eq_ok_iff]

/-- The listing of bytes by these fields instead of those of the whole, under another limit. -/
def decompileAs (limit : Nat) : Bytes → Except ListingError Listing :=
  decompile { st with maxDepth := limit } { layout with format := l }

/-- Such a listing is an occurrence of the fields. -/
theorem decompileAs_eq_ok_iff {limit : Nat} {bs : Bytes} {r : Listing} :
    decompileAs st layout l limit bs = .ok r ↔
      decodeWithin st layout limit l bs = .ok ⟨r.lines, r.consumed⟩ ∧
        r.leftover = bs.drop r.consumed := by
  rw [decompileAs, decompile]
  constructor
  · intro h
    obtain ⟨o, ho, h⟩ := exists_of_bind_eq_ok h
    obtain rfl := Except.ok.inj h
    exact ⟨(decodeWithin_eq_ok_iff st layout l).mp ho, rfl⟩
  · rintro ⟨ho, hleft⟩
    rw [(decodeWithin_eq_ok_iff st layout l).mpr ho, ok_bind, ← hleft]
    rfl

end Format

/-! ## Specs -/

/-- A name that the type of a spec can be: it is trimmed and holds neither a colon nor a closing
bracket. -/
structure Field.IsTypeName (s : Text) : Prop where
  trim : s.trim = s
  colon : ':' ∉ s
  bracket : ']' ∉ s

namespace Field

/-- **The first spec of a line** ends with the first closing bracket and what it takes of the text
behind. -/
theorem ofLine_brackets {inside : Text} (h : ']' ∉ inside) (after : Text) :
    ofLine ('[' :: (inside ++ ']' :: after)) = ofParts inside after :: ofLine after := by
  have hinside : (inside ++ ']' :: after).takeWhile (· != ']') = inside := takeWhile_mark h after
  have hafter : (inside ++ ']' :: after).drop (inside.length + 1) = after := by
    rw [← List.singleton_append, ← List.append_assoc]
    exact List.drop_left' (by simp)
  rw [ofLine, if_pos rfl]
  simp only [hinside, hafter]
  rw [if_pos (by simp)]

/-- Text without an opening bracket is passed over. -/
theorem ofLine_append {s : Text} (h : '[' ∉ s) (r : Text) : ofLine (s ++ r) = ofLine r := by
  induction s with
  | nil => rfl
  | cons c s ih =>
    rw [List.mem_cons, not_or] at h
    rw [List.cons_append, ofLine, if_neg fun hc => h.1 hc.symm, ih h.2]

/-- The field of a type and a letter. -/
theorem ofParts_letter {type : Text} (htype : IsTypeName type) {letter : Char}
    {format : FieldFormat} (hletter : FieldFormat.ofChar? letter = some format) (after : Text) :
    ofParts type (letter :: after) = ⟨type, .once, format, captureAt after⟩ := by
  have hcolon := bne_of_not_mem htype.colon
  have htake : type.takeWhile (· != ':') = type := List.takeWhile_eq_self_iff.mpr hcolon
  have hdrop : type.dropWhile (· != ':') = [] := List.dropWhile_eq_nil_iff.mpr hcolon
  rw [ofParts, typeOf, lengthOf, htake, hdrop, htype.trim, formatAt, hletter]

theorem isTypeName_of_allDigits {s : Text} (h : s.allDigits = true) : IsTypeName s where
  trim := trim_eq_self fun c hc => isBlank_of_isNameChar (isNameChar_of_allDigits h c hc)
  colon := not_mem_of_allDigits h (by decide)
  bracket := not_mem_of_allDigits h (by decide)

end Field

/-- The spec of a structure that is repeated. -/
def repeatedSpec (name : Text) (k : Nat) : Text := '[' :: (name ++ ':' :: decimal k ++ [']'])

/-- A repeated field in its plainest form. A count that is no size is taken for the name of a
capture. -/
def repeatedField (name : Text) (k : Nat) : Field where
  type := name
  length := if k < Nat.pow 2 64 then .count k else .capture (decimal k)
  format := .decimal
  capture := none

theorem ofText_decimal (k : Nat) : RepeatLength.ofText (decimal k) =
    if k < Nat.pow 2 64 then .count k else .capture (decimal k) := by
  rw [RepeatLength.ofText, if_pos (allDigits_decimal k)]
  split
  · rename_i n hn
    by_cases hk : k < Nat.pow 2 64
    · rw [size?_decimal hk] at hn
      rw [if_pos hk, Option.some.inj hn]
    · rw [size?_decimal_of_le (Nat.not_lt.mp hk)] at hn
      cases hn
  · rename_i hn
    refine (if_neg fun hk => ?_).symm
    rw [size?_decimal hk] at hn
    cases hn

theorem ofLine_repeatedSpec {name : Text} (hname : Field.IsTypeName name) (k : Nat) :
    Field.ofLine (repeatedSpec name k) = [repeatedField name k] := by
  have hbracket : ']' ∉ name ++ ':' :: decimal k := by
    simp [hname.bracket, not_mem_of_allDigits (allDigits_decimal k)]
  have htype : Field.typeOf (name ++ ':' :: decimal k) = name := by
    rw [Field.typeOf, takeWhile_mark hname.colon, hname.trim]
  have hlength : Field.lengthOf (name ++ ':' :: decimal k) =
      if k < Nat.pow 2 64 then .count k else .capture (decimal k) := by
    have htrim : Text.trim (decimal k) = decimal k := trim_eq_self fun c hc =>
      isBlank_of_isNameChar (isNameChar_of_allDigits (allDigits_decimal k) c hc)
    have hdrop : (name ++ ':' :: decimal k).dropWhile (· != ':') = ':' :: decimal k :=
      List.dropWhile_append_of_pos (bne_of_not_mem hname.colon)
    rw [Field.lengthOf, hdrop]
    dsimp only
    rw [htrim, ofText_decimal]
  have hspec : repeatedSpec name k = '[' :: ((name ++ ':' :: decimal k) ++ ']' :: []) := rfl
  rw [hspec, Field.ofLine_brackets hbracket, Field.ofParts, htype, hlength, Field.ofLine]
  rfl

/-- **The types of specs are these names** and no others. -/
theorem Field.isTypeName_iff {s : Text} :
    Field.IsTypeName s ↔ ∃ line, ∃ f ∈ Field.ofLine line, f.type = s := by
  constructor
  · intro h
    exact ⟨repeatedSpec s 0, repeatedField s 0, by rw [ofLine_repeatedSpec h]; exact
      List.mem_cons_self, rfl⟩
  · rintro ⟨line, f, hf, rfl⟩
    obtain ⟨htrim, hbracket⟩ := Field.hasPlainType_of_mem_ofLine hf
    exact ⟨htrim, Field.colon_not_mem_type hf, hbracket⟩

/-- The fields of a list that is such a spec, as one text or as a line. -/
theorem fields_repeatedSpec {name : Text} (hname : Field.IsTypeName name) {k : Nat} {l : FieldList}
    (hl : l.toLines = [repeatedSpec name k]) : l.fields = [repeatedField name k] := by
  rw [FieldList.fields, hl, List.flatMap_singleton, ofLine_repeatedSpec hname]

/-! ## One after the other -/

/-- The listings `t 0`, `t 1`, … of `k` parts of bytes: each is of the bytes from its offset on, and
the next one starts where it stops. -/
structure Successive (read : Bytes → Except ListingError Listing) (bs : Bytes) (start k : Nat)
    (c : Nat → Nat) (t : Nat → Listing) : Prop where
  zero : c 0 = start
  read_eq : ∀ i < k, read (bs.drop (c i)) = .ok (t i)
  next : ∀ i < k, c (i + 1) = c i + (t i).consumed

section Structs

variable {read : Bytes → Except ListingError Listing}
  {nested : Bytes → Except ListingError Occurrence}
  (hread : ∀ bs r, read bs = .ok r ↔
    nested bs = .ok ⟨r.lines, r.consumed⟩ ∧ r.leftover = bs.drop r.consumed)

include hread

/-- Where listings follow each other a structure is read, and its lines are theirs. -/
theorem exists_of_successive {bs : Bytes} {start k : Nat} {c : Nat → Nat} {t : Nat → Listing}
    (h : Successive read bs start k c t) (offset : Nat) :
    ∃ b, readStructs nested k ⟨offset, bs.drop start⟩ = .ok b ∧ start + b.size = c k ∧
      b.lines = (List.range k).flatMap fun i => (t i).lines.map Line.indent := by
  induction k generalizing start offset c t with
  | zero => exact ⟨_, rfl, h.zero.symm, rfl⟩
  | succ k ih =>
    have hhead := h.read_eq 0 k.succ_pos
    rw [h.zero] at hhead
    have htail : Successive read bs (start + (t 0).consumed) k (fun i => c (i + 1))
        fun i => t (i + 1) :=
      ⟨by rw [h.next 0 k.succ_pos, h.zero], fun i hi => h.read_eq (i + 1) (Nat.succ_lt_succ hi),
        fun i hi => h.next (i + 1) (Nat.succ_lt_succ hi)⟩
    obtain ⟨b, hb, hsize, hlines⟩ := ih htail (offset + (t 0).consumed)
    rw [← List.drop_drop] at hb
    rw [readStructs, ((hread _ _).mp hhead).1, ok_bind]
    dsimp only [Cursor.advance]
    rw [hb, ok_bind]
    refine ⟨_, rfl, ?_, ?_⟩
    · rw [← Nat.add_assoc, hsize]
    · rw [hlines, List.range_succ_eq_map, List.flatMap_cons, List.flatMap_map]

/-- Where a structure is read listings follow each other. -/
theorem exists_successive {bs : Bytes} {start k offset : Nat} {b : Block}
    (h : readStructs nested k ⟨offset, bs.drop start⟩ = .ok b) :
    ∃ c t, Successive read bs start k c t := by
  induction k generalizing start offset b with
  | zero =>
    exact ⟨fun _ => start, fun _ => ⟨[], 0, []⟩, rfl, fun i hi => absurd hi i.not_lt_zero,
      fun i hi => absurd hi i.not_lt_zero⟩
  | succ k ih =>
    rw [readStructs] at h
    obtain ⟨r, hr, h⟩ := exists_of_bind_eq_ok h
    obtain ⟨more, hmore, -⟩ := exists_of_bind_eq_ok h
    dsimp only [Cursor.advance] at hmore
    rw [List.drop_drop] at hmore
    obtain ⟨c, t, hct⟩ := ih hmore
    obtain ⟨first, hfirst, hsize⟩ : ∃ first, read (bs.drop start) = .ok first ∧
        first.consumed = r.size :=
      ⟨⟨r.lines, r.size, (bs.drop start).drop r.size⟩, (hread _ _).mpr ⟨hr, rfl⟩, rfl⟩
    refine ⟨fun i => i.casesOn start c, fun i => i.casesOn first t, rfl, ?_, ?_⟩
    · rintro (_ | i) hi
      · exact hfirst
      · exact hct.read_eq i (Nat.lt_of_succ_lt_succ hi)
    · rintro (_ | i) hi
      · exact hct.zero.trans (congrArg (start + ·) hsize.symm)
      · exact hct.next i (Nat.lt_of_succ_lt_succ hi)

end Structs

theorem readStructs_offset {nested : Bytes → Except ListingError Occurrence} (k : Nat)
    (offset offset' : Nat) (bs : Bytes) :
    readStructs nested k ⟨offset, bs⟩ = readStructs nested k ⟨offset', bs⟩ := by
  induction k generalizing offset offset' bs with
  | zero => rfl
  | succ k ih =>
    rw [readStructs, readStructs]
    refine bind_congr fun r => ?_
    dsimp only [Cursor.advance]
    rw [ih]

/-! ## Repeated structures -/

section Repeated

variable {st : Settings} {layout : Layout} {depth k : Nat} {fields : FieldList} {bs : Bytes}

/-- A field of a structure is read if its count is not too large and its occurrences are. -/
theorem readField_eq_ok_iff
    {nested : Field → FieldList → Bytes → Except ListingError Occurrence} {captures : Captures}
    {p : Cursor} {f : Field} (hwidth : resolveWidth layout f = .ok (.struct fields))
    (hcount : repeatCount captures f = .ok k) {b : Block} :
    readField st layout nested captures p f = .ok b ↔
      k ≤ max p.rest.length 1 ∧ readStructs (nested f fields) k p = .ok b := by
  rw [readField, hcount, hwidth]
  change (if (true && decide (max p.rest.length 1 < k)) = true then _ else _) = _ ↔ _
  rw [Bool.true_and]
  by_cases hk : max p.rest.length 1 < k
  · rw [if_pos (decide_eq_true hk)]
    exact iff_of_false (fun h => by cases h) fun h => absurd h.1 (Nat.not_le.mpr hk)
  · rw [if_neg (by simpa using hk)]
    exact (and_iff_right (Nat.not_lt.mp hk)).symm

variable {name : Text} {l : FieldList} (hname : Field.IsTypeName name)
  (hstruct : resolveWidth layout (repeatedField name k) = .ok (.struct fields))
  (hl : l.toLines = [repeatedSpec name k])
  (hk : k < Nat.pow 2 64 ∨ bs.length < Nat.pow 2 64)

include hstruct hk

/-- A repeated field without captures: a count that is no size is refused, and there are fewer bytes
than that. -/
theorem readField_repeatedField {b : Block} :
    readField st layout (fun _ => decodeWithin st layout depth) [] ⟨0, bs⟩ (repeatedField name k) =
        .ok b ↔
      k ≤ max bs.length 1 ∧ readStructs (decodeWithin st layout depth fields) k ⟨0, bs⟩ = .ok b := by
  by_cases hsize : k < Nat.pow 2 64
  · have hlength : (repeatedField name k).length = .count k := if_pos hsize
    exact readField_eq_ok_iff hstruct (by rw [repeatCount, hlength])
  · have hlength : (repeatedField name k).length = .capture (decimal k) := if_neg hsize
    have hbytes := hk.resolve_left hsize
    have hone : 1 < Nat.pow 2 64 := by decide
    refine iff_of_false (fun h => ?_) fun h => by omega
    rw [readField, repeatCount, hlength] at h
    cases h

include hname hl

/-- The listing of a repeated structure in terms of its occurrences. -/
theorem decompileAs_repeatedSpec_eq_ok_iff {r : Listing} :
    decompileAs st layout l (depth + 1) bs = .ok r ↔
      k ≤ max bs.length 1 ∧ r.leftover = bs.drop r.consumed ∧
        ∃ b, readStructs (decodeWithin st layout depth fields) k ⟨0, bs⟩ = .ok b ∧
          b.lines = r.lines ∧ b.size = r.consumed := by
  have hfield := @readField_repeatedField st layout depth k fields bs name hstruct hk
  rw [decompileAs_eq_ok_iff, decodeWithin, fields_repeatedSpec hname hl, readFields]
  constructor
  · rintro ⟨h, hleft⟩
    obtain ⟨b, hb, h⟩ := exists_of_bind_eq_ok h
    obtain ⟨hcount, hstructs⟩ := hfield.mp hb
    obtain ⟨hlines, hsize⟩ := Occurrence.mk.inj (Except.ok.inj h)
    exact ⟨hcount, hleft, b, hstructs, by simpa using hlines, by simpa using hsize⟩
  · rintro ⟨hcount, hleft, b, hstructs, hlines, hsize⟩
    refine ⟨?_, hleft⟩
    rw [hfield.mpr ⟨hcount, hstructs⟩, ok_bind, readFields, ok_bind, ← hlines, ← hsize,
      List.append_nil]
    rfl

/-- **The occurrences of a structure are listings of their own.** A structure that is repeated `k`
times has a listing exactly if `k` is not too large for the bytes and its fields have listings, with
one step of depth less, one after the other. Then these are its lines, each line with four spaces
in front, and the bytes after them are left over. It is the same wherever the structure is read,
whatever captures there are. -/
theorem decompileAs_repeatedSpec (hsizes : ∀ e ∈ layout.sizes, '\n' ∉ e.1)
    (hdefines : ∀ e ∈ layout.defines, '\n' ∉ e.2) :
    ((∃ r, decompileAs st layout l (depth + 1) bs = .ok r) ↔
      k ≤ max bs.length 1 ∧ ∃ c t, Successive (decompileAs st layout fields depth) bs 0 k c t) ∧
    (∀ r c t, decompileAs st layout l (depth + 1) bs = .ok r →
      Successive (decompileAs st layout fields depth) bs 0 k c t →
        r.consumed = c k ∧
        r.body = (List.range k).flatMap (fun i => (t i).body.indentLines) ∧
        r.text = r.body ++
          if bs.drop (c k) = [] then [] else '\n' :: trailer (bs.drop (c k))) ∧
    ∀ f captures offset lines size, resolveWidth layout f = .ok (.struct fields) →
      repeatCount captures f = .ok k →
        ((∃ b, readField st layout (fun _ => decodeWithin st layout depth) captures ⟨offset, bs⟩ f =
            .ok b ∧ b.lines = lines ∧ b.size = size) ↔
          ∃ r, decompileAs st layout l (depth + 1) bs = .ok r ∧ r.lines = lines ∧
            r.consumed = size) := by
  have hwhole := @decompileAs_repeatedSpec_eq_ok_iff st layout depth k fields bs name l hname
    hstruct hl hk
  have hread := fun bs r => @decompileAs_eq_ok_iff st layout fields depth bs r
  refine ⟨⟨?_, ?_⟩, ?_, ?_⟩
  · rintro ⟨r, hr⟩
    obtain ⟨hcount, -, b, hb, -⟩ := hwhole.mp hr
    exact ⟨hcount, exists_successive hread hb⟩
  · rintro ⟨hcount, c, t, ht⟩
    obtain ⟨b, hb, hsize, hlines⟩ := exists_of_successive hread ht 0
    exact ⟨⟨b.lines, b.size, bs.drop b.size⟩, hwhole.mpr ⟨hcount, rfl, b, hb, rfl, rfl⟩⟩
  · intro r c t hr ht
    obtain ⟨-, hleft, b, hb, hlines, hsize⟩ := hwhole.mp hr
    obtain ⟨b', hb', hsize', hlines'⟩ := exists_of_successive hread ht 0
    obtain rfl := Except.ok.inj (hb'.symm.trans hb)
    rw [Nat.zero_add] at hsize'
    have hconsumed : r.consumed = c k := hsize.symm.trans hsize'
    refine ⟨hconsumed, ?_, ?_⟩
    · rw [Listing.body, ← hlines, hlines', List.flatMap_assoc]
      refine List.flatMap_congr fun i hi => ?_
      have hpart := ht.read_eq i (List.mem_range.mp hi)
      exact (@indentLines_body { layout with format := fields } hsizes hdefines _ _ _ hpart).symm
    · rw [Listing.text, hleft, hconsumed]
      split
      · exact (List.append_nil _).symm
      · rfl
  · intro f captures offset lines size hwidth hcount
    constructor
    · rintro ⟨b, hb, rfl, rfl⟩
      obtain ⟨hle, hstructs⟩ := (readField_eq_ok_iff hwidth hcount).mp hb
      rw [readStructs_offset k offset 0] at hstructs
      exact ⟨⟨b.lines, b.size, bs.drop b.size⟩,
        hwhole.mpr ⟨hle, rfl, b, hstructs, rfl, rfl⟩, rfl, rfl⟩
    · rintro ⟨r, hr, rfl, rfl⟩
      obtain ⟨hle, -, b, hb, hlines, hsize⟩ := hwhole.mp hr
      rw [readStructs_offset k 0 offset] at hb
      exact ⟨b, (readField_eq_ok_iff hwidth hcount).mpr ⟨hle, hb⟩, hlines, hsize⟩

end Repeated

/-- Pairs of a count and as many items, each a structure of its own. -/
def countedLayout : Layout where
  sizes := [("unit".toList, 1)]
  structs := dictionary [("pair".toList, .lines ["[unit]$n [item:$n]".toList]),
    ("item".toList, .lines ["[unit]x".toList])]
  structs_dictionary := isDictionary_dictionary _
  defines_dictionary := isDictionary_nil

/-- Two pairs, the second without an item, and the same two pairs as many as a capture says. -/
theorem decompileAs_repeatedSpec_pairs :
    ∃ r, decompileAs {} countedLayout (.lines ["[pair:2]".toList]) 2 [1, 16, 0, 32] = .ok r ∧
      r.consumed = 3 ∧
      r.text = "    [unit] +1\n        [unit] #10\n    [unit] +0\n\n#20".toList ∧
      ∃ b, readField {} countedLayout (fun _ => decodeWithin {} countedLayout 1)
          [("n".toList, 2)] ⟨5, [1, 16, 0, 32]⟩
          ⟨"pair".toList, .capture "n".toList, .hex, some "last".toList⟩ = .ok b ∧
        b.lines = r.lines ∧ b.size = r.consumed := by
  have hname : Field.IsTypeName "pair".toList := ⟨by decide, by decide, by decide⟩
  have hpairs : Successive
      (decompileAs {} countedLayout (.lines ["[unit]$n [item:$n]".toList]) 1) [1, 16, 0, 32] 0 2
      (fun | 0 => 0 | 1 => 2 | _ => 3)
      (fun
        | 0 => ⟨[⟨0, [1], "[unit] +1".toList⟩, ⟨1, [16], "[unit] #10".toList⟩], 2, [0, 32]⟩
        | _ => ⟨[⟨0, [0], "[unit] +0".toList⟩], 1, [32]⟩) := by
    refine ⟨rfl, ?_, ?_⟩ <;> rintro (_ | _ | i) hi
    · decide +kernel
    · decide +kernel
    · omega
    · rfl
    · rfl
    · omega
  obtain ⟨hok, htext, hanywhere⟩ := @decompileAs_repeatedSpec {} countedLayout 1 2
    (.lines ["[unit]$n [item:$n]".toList]) [1, 16, 0, 32] "pair".toList
    (.lines ["[pair:2]".toList]) hname (by decide +kernel) (by decide +kernel)
    (Or.inl (by decide)) (by decide) (by decide)
  obtain ⟨r, hr⟩ := hok.mpr ⟨by decide, _, _, hpairs⟩
  obtain ⟨hsize, hbody, hwhole⟩ := htext r _ _ hr hpairs
  refine ⟨r, hr, hsize, ?_, ?_⟩
  · rw [hwhole, hbody]
    decide +kernel
  · exact (hanywhere ⟨"pair".toList, .capture "n".toList, .hex, some "last".toList⟩ _ 5 _ _
      (by decide +kernel) (by decide)).mpr ⟨r, hr, rfl, rfl⟩

end ByteScript
