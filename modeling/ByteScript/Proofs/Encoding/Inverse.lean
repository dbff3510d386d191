import ByteScript.Proofs.Encoding.Faithful

/-!
# Encoded text decodes back

The bytes of a character tell where they end, so what was encoded is decoded to the text that it
was encoded from.

* `Charset.IsReadable`: the form of a character is read as the character, whatever follows it;
  **`Charset.decode?_of_encode?`**: texts in such a character set;
* `Utf8.decodeChar?_one`, `Utf8.decodeChar?_two`, `Utf8.decodeChar?_three`,
  `Utf8.decodeChar?_four`: forms of one to four bytes; **`Utf8.decodeChar?_encodeChar`**: any of
  them;
* `isReadable_utf8`, `Encoding.exists_encode?_utf8`: texts in UTF-8;
* `Utf16.exists_unitBytes`, `Utf16.decodeChar?_unit`, `Utf16.decodeChar?_pair`: one unit and a pair
  of surrogates; `isReadable_utf16`, `isReadable_singleByte`: the other character sets;
* `Encoding.decode?_of_encode?_of_mem`, `Encoding.decode?_replacement_eq_some_iff`: encodings;
  **`Encoding.encode?_decode?_inverse`**: encoding and decoding are inverse to each other.
-/

namespace ByteScript

namespace Charset

/-- The form of a character is read as the character, whatever follows it. -/
def IsReadable (cs : Charset) : Prop :=
  ∀ (c : Char) (bs rest : Bytes), cs.encodeChar? c = some bs →
    bs ≠ [] ∧ cs.decodeChar? (bs ++ rest) = some (c, bs.length)

/-- **Encoded text decodes back** in a character set that reads each form as its character. -/
theorem decode?_of_encode? {cs : Charset} (hcs : cs.IsReadable) {s : Text} {bs : Bytes}
    (h : cs.encode? s = some bs) : cs.decode? bs = some s := by
  induction s generalizing bs with
  | nil =>
    obtain rfl := Option.some.inj h
    rw [decode?]
  | cons c s ih =>
    rw [encode?] at h
    obtain ⟨form, hform, h⟩ := Option.bind_eq_some_iff.mp h
    obtain ⟨rest, hrest, h⟩ := Option.bind_eq_some_iff.mp h
    obtain rfl := Option.some.inj h
    obtain ⟨hne, hread⟩ := hcs c form rest hform
    obtain ⟨b, form, rfl⟩ := List.exists_cons_of_ne_nil hne
    rw [List.cons_append] at hread ⊢
    rw [decode?, hread]
    change ((cs.decode? ((form ++ rest).drop form.length)).bind fun r => some (c :: r)) = _
    rw [List.drop_left' rfl, ih hrest]
    rfl

end Charset

/-! ## UTF-8 -/

namespace Utf8

theorem sixBits?_ofNat {n : Nat} (h : n < 64) : sixBits? (UInt8.ofNat (0x80 + n)) = some n := by
  rw [sixBits?, UInt8.toNat_ofNat_of_lt' (show _ < 256 by omega), if_pos (by omega),
    Nat.add_sub_cancel_left]

theorem charFrom?_toNat {low : Nat} {c : Char} (h : low ≤ c.toNat) :
    charFrom? low c.toNat = some c := by
  rw [charFrom?, if_pos h, char?_toNat]

theorem toNat_lt (c : Char) : c.toNat < 0x110000 := by
  rcases c.valid with h | h
  · exact Nat.lt_trans h (by decide)
  · exact h.2

section Forms

variable {a x y z : Nat} {c : Char} (rest : Bytes)

theorem decodeChar?_one (ha : a < 0x80) (hc : char? a = some c) :
    decodeChar? (UInt8.ofNat a :: rest) = some (c, 1) := by
  unfold decodeChar?
  dsimp only
  rw [UInt8.toNat_ofNat_of_lt' (show _ < 256 by omega), if_pos ha, hc]
  rfl

theorem decodeChar?_two (ha : a < 0x20) (hx : x < 64) (hc : charFrom? 0x80 (a * 64 + x) = some c) :
    decodeChar? (UInt8.ofNat (0xc0 + a) :: UInt8.ofNat (0x80 + x) :: rest) = some (c, 2) := by
  unfold decodeChar?
  dsimp only
  rw [UInt8.toNat_ofNat_of_lt' (show _ < 256 by omega), if_neg (by omega), if_neg (by omega),
    if_pos (by omega), sixBits?_ofNat hx, Nat.add_sub_cancel_left]
  change ((charFrom? 0x80 (a * 64 + x)).bind fun c => some (c, 2)) = _
  rw [hc]
  rfl

theorem decodeChar?_three (ha : a < 0x10) (hx : x < 64) (hy : y < 64)
    (hc : charFrom? 0x800 ((a * 64 + x) * 64 + y) = some c) :
    decodeChar? (UInt8.ofNat (0xe0 + a) :: UInt8.ofNat (0x80 + x) :: UInt8.ofNat (0x80 + y) ::
      rest) = some (c, 3) := by
  unfold decodeChar?
  dsimp only
  rw [UInt8.toNat_ofNat_of_lt' (show _ < 256 by omega), if_neg (by omega), if_neg (by omega),
    if_neg (by omega), if_pos (by omega), sixBits?_ofNat hx, sixBits?_ofNat hy,
    Nat.add_sub_cancel_left]
  change ((charFrom? 0x800 ((a * 64 + x) * 64 + y)).bind fun c => some (c, 3)) = _
  rw [hc]
  rfl

theorem decodeChar?_four (ha : a < 8) (hx : x < 64) (hy : y < 64) (hz : z < 64)
    (hc : charFrom? 0x10000 (((a * 64 + x) * 64 + y) * 64 + z) = some c) :
    decodeChar? (UInt8.ofNat (0xf0 + a) :: UInt8.ofNat (0x80 + x) :: UInt8.ofNat (0x80 + y) ::
      UInt8.ofNat (0x80 + z) :: rest) = some (c, 4) := by
  unfold decodeChar?
  dsimp only
  rw [UInt8.toNat_ofNat_of_lt' (show _ < 256 by omega), if_neg (by omega), if_neg (by omega),
    if_neg (by omega), if_neg (by omega), if_pos (by omega), sixBits?_ofNat hx, sixBits?_ofNat hy,
    sixBits?_ofNat hz, Nat.add_sub_cancel_left]
  change ((charFrom? 0x10000 (((a * 64 + x) * 64 + y) * 64 + z)).bind fun c => some (c, 4)) = _
  rw [hc]
  rfl

end Forms

/-- **The form of a character is read as the character**, whatever follows it. -/
theorem decodeChar?_encodeChar (c : Char) (rest : Bytes) :
    decodeChar? (encodeChar c ++ rest) = some (c, (encodeChar c).length) := by
  have hlt := toNat_lt c
  unfold encodeChar
  dsimp only
  split
  · next h => exact decodeChar?_one rest h (char?_toNat c)
  · split
    · have hn : c.toNat / 64 * 64 + c.toNat % 64 = c.toNat := by omega
      refine decodeChar?_two rest (by omega) (by omega) ?_
      rw [hn, charFrom?_toNat (by omega)]
    · split
      · have hn : (c.toNat / 4096 * 64 + c.toNat / 64 % 64) * 64 + c.toNat % 64 = c.toNat := by
          omega
        refine decodeChar?_three rest (by omega) (by omega) (by omega) ?_
        rw [hn, charFrom?_toNat (by omega)]
      · have hn : ((c.toNat / 262144 * 64 + c.toNat / 4096 % 64) * 64 + c.toNat / 64 % 64) * 64 +
            c.toNat % 64 = c.toNat := by omega
        refine decodeChar?_four rest (by omega) (by omega) (by omega) (by omega) ?_
        rw [hn, charFrom?_toNat (by omega)]

theorem encodeChar_ne_nil (c : Char) : encodeChar c ≠ [] := by
  unfold encodeChar
  dsimp only
  split
  · exact List.cons_ne_nil _ _
  · split
    · exact List.cons_ne_nil _ _
    · split <;> exact List.cons_ne_nil _ _

end Utf8

theorem isReadable_utf8 : Charset.utf8.IsReadable := by
  intro c bs rest h
  obtain rfl := Option.some.inj h
  exact ⟨Utf8.encodeChar_ne_nil c, Utf8.decodeChar?_encodeChar c rest⟩

/-- Every text has bytes in UTF-8. -/
theorem Encoding.exists_encode?_utf8 (s : Text) : ∃ bs, Encoding.utf8.encode? s = some bs := by
  induction s with
  | nil => exact ⟨[], rfl⟩
  | cons c s ih =>
    obtain ⟨bs, hbs⟩ := ih
    refine ⟨Utf8.encodeChar c ++ bs, ?_⟩
    change (some (Utf8.encodeChar c)).bind (fun form =>
      (Encoding.utf8.encode? s).bind fun rest => some (form ++ rest)) = _
    rw [hbs]
    rfl

/-! ## UTF-16 -/

namespace Utf16

variable (big : Bool) (rest : Bytes) {c : Char}

/-- A unit is the one that its two bytes stand for. -/
theorem exists_unitBytes {u : Nat} (hu : u < 0x10000) :
    ∃ a b, unitBytes big u = [a, b] ∧ unitOf big a b = u := by
  have hhigh : (UInt8.ofNat (u / 256)).toNat = u / 256 :=
    UInt8.toNat_ofNat_of_lt' (show _ < 256 by omega)
  have hlow : (UInt8.ofNat u).toNat = u % 256 := UInt8.toNat_ofNat'
  cases big with
  | true =>
    refine ⟨_, _, rfl, ?_⟩
    rw [unitOf, if_pos rfl, hhigh, hlow]
    omega
  | false =>
    refine ⟨_, _, rfl, ?_⟩
    rw [unitOf, if_neg Bool.false_ne_true, hhigh, hlow]
    omega

theorem decodeChar?_unit {u : Nat} (hu : u < 0x10000) (hplain : u < 0xd800 ∨ 0xe000 ≤ u)
    (hc : char? u = some c) : decodeChar? big (unitBytes big u ++ rest) = some (c, 2) := by
  obtain ⟨a, b, hbytes, hunit⟩ := exists_unitBytes big hu
  rw [hbytes]
  change decodeChar? big (a :: b :: rest) = _
  unfold decodeChar?
  dsimp only
  rw [hunit, if_pos hplain, hc]
  rfl

theorem decodeChar?_pair {x y : Nat} (hx : x < 1024) (hy : y < 1024)
    (hc : char? (0x10000 + x * 1024 + y) = some c) :
    decodeChar? big (unitBytes big (0xd800 + x) ++ (unitBytes big (0xdc00 + y) ++ rest)) =
      some (c, 4) := by
  obtain ⟨a, b, hhigh, hfirst⟩ := exists_unitBytes big (show 0xd800 + x < 0x10000 by omega)
  obtain ⟨a', b', hlow, hsecond⟩ := exists_unitBytes big (show 0xdc00 + y < 0x10000 by omega)
  rw [hhigh, hlow]
  change decodeChar? big (a :: b :: a' :: b' :: rest) = _
  unfold decodeChar?
  dsimp only
  rw [hfirst, hsecond, if_neg (by omega), if_pos (by omega), if_pos (by omega),
    Nat.add_sub_cancel_left, Nat.add_sub_cancel_left, hc]
  rfl

end Utf16

open Utf16 in
theorem isReadable_utf16 (big : Bool) : (Charset.utf16 big).IsReadable := by
  intro c bs rest h
  obtain rfl := Option.some.inj h
  have hlt := Utf8.toNat_lt c
  have hlength : ∀ u, (unitBytes big u).length = 2 := fun u => by cases big <;> rfl
  have hread : Utf16.decodeChar? big ((Utf16.units c).flatMap (unitBytes big) ++ rest) =
      some (c, ((Utf16.units c).flatMap (unitBytes big)).length) := by
    unfold Utf16.units
    dsimp only
    split
    · -- a character is no surrogate
      have hplain : c.toNat < 0xd800 ∨ 0xe000 ≤ c.toNat := c.valid.imp id fun hv => hv.1
      rw [List.flatMap_singleton, hlength]
      exact decodeChar?_unit big rest (by assumption) hplain (char?_toNat c)
    · have hn : 0x10000 + (c.toNat - 0x10000) / 1024 * 1024 + (c.toNat - 0x10000) % 1024 =
          c.toNat := by omega
      rw [List.flatMap_cons, List.flatMap_singleton, List.append_assoc, List.length_append,
        hlength, hlength]
      refine decodeChar?_pair big rest (by omega) (by omega) ?_
      rw [hn, char?_toNat]
  refine ⟨fun hnil => ?_, hread⟩
  -- what is read as a character has at least one byte
  change (Utf16.units c).flatMap (unitBytes big) = [] at hnil
  have hnone := isFaithful_utf16 big _ _ _ hread
  rw [hnil] at hnone
  exact absurd hnone.1 (by decide)

/-! ## Single bytes -/

theorem isReadable_singleByte {high : List Nat} (hlength : high.length ≤ 0x80) :
    (Charset.singleByte high).IsReadable := by
  intro c bs rest h
  change (if c.toNat < 0x80 then some [UInt8.ofNat c.toNat]
    else (high.idxOf? c.toNat).map fun i => [UInt8.ofNat (0x80 + i)]) = some bs at h
  have hread : ∀ b : UInt8, (Charset.singleByte high).decodeChar? ([b] ++ rest) =
      if b.toNat < 0x80 then (char? b.toNat).map (·, 1)
      else ((high[b.toNat - 0x80]?).bind char?).map (·, 1) := fun b => rfl
  split at h
  · rename_i hlow
    obtain rfl := Option.some.inj h
    refine ⟨List.cons_ne_nil _ _, ?_⟩
    rw [hread, UInt8.toNat_ofNat_of_lt' (show _ < 256 by omega), if_pos hlow, char?_toNat]
    rfl
  · obtain ⟨i, hi, rfl⟩ := Option.map_eq_some_iff.mp h
    obtain ⟨hlt, hget, -⟩ := List.idxOf?_eq_some_iff.mp hi
    refine ⟨List.cons_ne_nil _ _, ?_⟩
    rw [hread, UInt8.toNat_ofNat_of_lt' (show _ < 256 by omega), if_neg (by omega),
      Nat.add_sub_cancel_left, List.getElem?_eq_getElem hlt, hget, Option.bind_some, char?_toNat]
    rfl

/-! ## Encodings -/

namespace Encoding

theorem decode?_of_encode?_of_mem {e : Encoding} (he : e ∈ uniform) (hne : e ≠ replacement)
    {s : Text} {bs : Bytes} (h : e.encode? s = some bs) : e.decode? bs = some s := by
  simp only [uniform, List.mem_cons, List.not_mem_nil, or_false] at he
  rcases he with rfl | rfl | rfl | rfl | rfl | rfl | rfl
  · exact Charset.decode?_of_encode? isReadable_utf8 h
  · exact Charset.decode?_of_encode? (isReadable_utf16 false) h
  · exact Charset.decode?_of_encode? (isReadable_utf16 true) h
  · exact Charset.decode?_of_encode? (isReadable_singleByte (by decide +kernel)) h
  · exact Charset.decode?_of_encode? (isReadable_singleByte (by decide +kernel)) h
  · exact Charset.decode?_of_encode? (isReadable_singleByte (by decide +kernel)) h
  · exact absurd rfl hne

/-- The replacement encoding decodes nothing but the empty string. -/
theorem decode?_replacement_eq_some_iff {s : Text} {bs : Bytes} :
    replacement.decode? bs = some s ↔ s = [] ∧ bs = [] := by
  change Charset.decode? _ bs = some s ↔ _
  rw [Charset.decode?.eq_def]
  cases bs with
  | nil => exact ⟨fun h => ⟨(Option.some.inj h).symm, rfl⟩, fun h => congrArg some h.1.symm⟩
  | cons b bs => exact iff_of_false nofun fun h => List.cons_ne_nil _ _ h.2

/-- **Encoding and decoding are inverse to each other** where every character has one form. Decoded
text is encoded to the bytes that it was decoded from, and encoded text is decoded to the text that
it was encoded from; only the replacement encoding does not decode what it encodes, unless that is
nothing. -/
theorem encode?_decode?_inverse {e : Encoding} (he : e ∈ uniform) (s : Text) (bs : Bytes) :
    (e.decode? bs = some s → e.encode? s = some bs) ∧
    (e ≠ .replacement → e.encode? s = some bs → e.decode? bs = some s) ∧
    (e = .replacement → (e.decode? bs = some s ↔ s = [] ∧ bs = [])) := by
  refine ⟨isFaithful_of_mem he bs s, fun hne => decode?_of_encode?_of_mem he hne, ?_⟩
  rintro rfl
  exact decode?_replacement_eq_some_iff

/-- Surrogates in either order of the bytes, letters of a table and bytes that stand for nothing. -/
theorem encode?_decode?_inverse_mixed :
    Encoding.utf16le.decode? [0x3d, 0xd8, 0, 0xde] = some ['😀'] ∧
    Encoding.utf16be.encode? ['A', '😀'] = some [0, 0x41, 0xd8, 0x3d, 0xde, 0] ∧
    Encoding.utf16be.decode? [0, 0x41, 0xd8, 0x3d, 0xde, 0] = some ['A', '😀'] ∧
    Encoding.utf16le.encode? ['😀'] = some [0x3d, 0xd8, 0, 0xde] ∧
    Encoding.koi8r.decode? [0xed, 0xc9, 0x72] = some "Миr".toList ∧
    Encoding.replacement.encode? ['A'] = some [0x41] ∧
    Encoding.replacement.decode? [0x41] ≠ some ['A'] := by
  have hlow : Encoding.utf16le.decode? [0x3d, 0xd8, 0, 0xde] = some ['😀'] := by decide +kernel
  have hbig : Encoding.utf16be.encode? ['A', '😀'] = some [0, 0x41, 0xd8, 0x3d, 0xde, 0] := by
    decide +kernel
  have hkoi : Encoding.koi8r.encode? "Миr".toList = some [0xed, 0xc9, 0x72] := by decide +kernel
  have hname : ∀ e : Encoding, e.name ≠ replacement.name → e ≠ replacement := fun e hne he =>
    hne (congrArg name he)
  refine ⟨hlow, hbig,
    (encode?_decode?_inverse (by simp [uniform]) _ _).2.1 (hname _ (by decide)) hbig,
    (encode?_decode?_inverse (by simp [uniform]) _ _).1 hlow,
    (encode?_decode?_inverse (by simp [uniform]) _ _).2.1 (hname _ (by decide)) hkoi, by decide,
    fun h => ?_⟩
  exact absurd (((encode?_decode?_inverse (by simp [uniform]) _ _).2.2 rfl).mp h).1 (by decide)

end Encoding

end ByteScript
