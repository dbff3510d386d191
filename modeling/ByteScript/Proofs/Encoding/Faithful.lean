import ByteScript.Encoding.Label

/-!
# Decoded text encodes back

Where every character has one form, no two byte strings are read as the same text: what was decoded
is encoded to the bytes that it was decoded from.

* `Charset.IsFaithful`: the first character of a byte string takes exactly its own form;
* `Utf8.encodeChar_one`, `Utf8.encodeChar_two`, `Utf8.encodeChar_three`, `Utf8.encodeChar_four`:
  forms of one to four bytes;
* `isFaithful_utf8`, `isFaithful_utf16`, `isFaithful_singleByte`: the character sets;
* `Encoding.IsFaithful`: an encoding gives decoded bytes back;
* **`Encoding.isFaithful_of_mem`**, `Encoding.not_isFaithful_shiftJis`: encodings that do, and one
  that does not.
-/

namespace ByteScript

theorem toNat_of_char? {n : Nat} {c : Char} (h : char? n = some c) : c.toNat = n := by
  unfold char? at h
  by_cases hv : n.isValidChar
  · rw [dif_pos hv] at h
    obtain rfl := Option.some.inj h
    rfl
  · rw [dif_neg hv] at h
    cases h

theorem ofNat_eq_of_toNat {b : UInt8} {n : Nat} (h : b.toNat = n) : UInt8.ofNat n = b := by
  rw [← h, UInt8.ofNat_toNat]

namespace Charset

/-- The first character of a byte string takes the bytes of its own form. -/
def IsFaithful (cs : Charset) : Prop :=
  ∀ (bs : Bytes) (c : Char) (n : Nat), cs.decodeChar? bs = some (c, n) →
    1 ≤ n ∧ cs.encodeChar? c = some (bs.take n)

/-- **Decoded text encodes back** in a character set that takes each character from its form. -/
theorem encode?_of_decode? {cs : Charset} (hcs : cs.IsFaithful) {bs : Bytes} {s : Text}
    (h : cs.decode? bs = some s) : cs.encode? s = some bs := by
  generalize hk : bs.length = k
  induction k using Nat.strongRecOn generalizing bs s with
  | ind k ih =>
    cases bs with
    | nil =>
      rw [decode?] at h
      obtain rfl := Option.some.inj h
      rfl
    | cons b bs =>
      rw [decode?] at h
      obtain ⟨⟨c, n⟩, hc, h⟩ := Option.bind_eq_some_iff.mp h
      obtain ⟨rest, hrest, h⟩ := Option.bind_eq_some_iff.mp h
      obtain rfl := Option.some.inj h
      obtain ⟨hn, henc⟩ := hcs _ _ _ hc
      have hlen : (bs.drop (n - 1)).length < k := by
        rw [← hk, List.length_drop, List.length_cons]
        omega
      have hih := ih _ hlen hrest rfl
      obtain ⟨j, rfl⟩ : ∃ j, n = j + 1 := ⟨n - 1, by omega⟩
      rw [encode?, henc, hih]
      show some ((b :: bs).take (j + 1) ++ bs.drop j) = some (b :: bs)
      rw [List.take_succ_cons, List.cons_append, List.take_append_drop]

end Charset

/-! ## UTF-8 -/

namespace Utf8

theorem sixBits?_eq_some {b : UInt8} {n : Nat} (h : sixBits? b = some n) :
    b.toNat = 0x80 + n ∧ n < 64 := by
  unfold sixBits? at h
  split at h
  · obtain rfl := Option.some.inj h
    omega
  · cases h

theorem charFrom?_eq_some {low n : Nat} {c : Char} (h : charFrom? low n = some c) :
    low ≤ n ∧ c.toNat = n := by
  unfold charFrom? at h
  split at h
  · exact ⟨by assumption, toNat_of_char? h⟩
  · cases h

theorem encodeChar_one {a : UInt8} {c : Char} (ha : a.toNat < 0x80)
    (hc : char? a.toNat = some c) : encodeChar c = [a] := by
  have hn := toNat_of_char? hc
  unfold encodeChar
  dsimp only
  rw [if_pos (by omega), ofNat_eq_of_toNat hn.symm]

theorem encodeChar_two {a b : UInt8} {y : Nat} {c : Char} (ha : 0xc0 ≤ a.toNat ∧ a.toNat < 0xe0)
    (hy : sixBits? b = some y) (hc : charFrom? 0x80 ((a.toNat - 0xc0) * 64 + y) = some c) :
    encodeChar c = [a, b] := by
  obtain ⟨hb, hy⟩ := sixBits?_eq_some hy
  obtain ⟨hlow, hn⟩ := charFrom?_eq_some hc
  unfold encodeChar
  dsimp only
  rw [if_neg (by omega), if_pos (by omega), @ofNat_eq_of_toNat a _ (by omega),
    @ofNat_eq_of_toNat b _ (by omega)]

theorem encodeChar_three {a b b' : UInt8} {y z : Nat} {c : Char}
    (ha : 0xe0 ≤ a.toNat ∧ a.toNat < 0xf0) (hy : sixBits? b = some y) (hz : sixBits? b' = some z)
    (hc : charFrom? 0x800 (((a.toNat - 0xe0) * 64 + y) * 64 + z) = some c) :
    encodeChar c = [a, b, b'] := by
  obtain ⟨hb, hy⟩ := sixBits?_eq_some hy
  obtain ⟨hb', hz⟩ := sixBits?_eq_some hz
  obtain ⟨hlow, hn⟩ := charFrom?_eq_some hc
  unfold encodeChar
  dsimp only
  rw [if_neg (by omega), if_neg (by omega), if_pos (by omega), @ofNat_eq_of_toNat a _ (by omega),
    @ofNat_eq_of_toNat b _ (by omega), @ofNat_eq_of_toNat b' _ (by omega)]

theorem encodeChar_four {a b b' b'' : UInt8} {y z w : Nat} {c : Char}
    (ha : 0xf0 ≤ a.toNat ∧ a.toNat < 0xf8) (hy : sixBits? b = some y) (hz : sixBits? b' = some z)
    (hw : sixBits? b'' = some w)
    (hc : charFrom? 0x10000 ((((a.toNat - 0xf0) * 64 + y) * 64 + z) * 64 + w) = some c) :
    encodeChar c = [a, b, b', b''] := by
  obtain ⟨hb, hy⟩ := sixBits?_eq_some hy
  obtain ⟨hb', hz⟩ := sixBits?_eq_some hz
  obtain ⟨hb'', hw⟩ := sixBits?_eq_some hw
  obtain ⟨hlow, hn⟩ := charFrom?_eq_some hc
  unfold encodeChar
  dsimp only
  rw [if_neg (by omega), if_neg (by omega), if_neg (by omega), @ofNat_eq_of_toNat a _ (by omega),
    @ofNat_eq_of_toNat b _ (by omega), @ofNat_eq_of_toNat b' _ (by omega),
    @ofNat_eq_of_toNat b'' _ (by omega)]

end Utf8

open Utf8 in
theorem isFaithful_utf8 : Charset.utf8.IsFaithful := by
  intro bs ch n h
  change decodeChar? bs = some (ch, n) at h
  change 1 ≤ n ∧ some (encodeChar ch) = some (bs.take n)
  unfold decodeChar? at h
  split at h
  · cases h
  · rename_i a bs
    split at h
    · obtain ⟨c, hc, h⟩ := Option.map_eq_some_iff.mp h
      obtain ⟨rfl, rfl⟩ := Prod.mk.inj h
      exact ⟨Nat.le_refl _, congrArg some (encodeChar_one (by assumption) hc)⟩
    · split at h
      · cases h
      · split at h
        · split at h
          · obtain ⟨y, hy, h⟩ := Option.bind_eq_some_iff.mp h
            obtain ⟨c, hc, h⟩ := Option.bind_eq_some_iff.mp h
            obtain ⟨rfl, rfl⟩ := Prod.mk.inj (Option.some.inj h)
            exact ⟨by decide, congrArg some (encodeChar_two (by omega) hy hc)⟩
          · cases h
        · split at h
          · split at h
            · obtain ⟨y, hy, h⟩ := Option.bind_eq_some_iff.mp h
              obtain ⟨z, hz, h⟩ := Option.bind_eq_some_iff.mp h
              obtain ⟨c, hc, h⟩ := Option.bind_eq_some_iff.mp h
              obtain ⟨rfl, rfl⟩ := Prod.mk.inj (Option.some.inj h)
              exact ⟨by decide, congrArg some (encodeChar_three (by omega) hy hz hc)⟩
            · cases h
          · split at h
            · split at h
              · obtain ⟨y, hy, h⟩ := Option.bind_eq_some_iff.mp h
                obtain ⟨z, hz, h⟩ := Option.bind_eq_some_iff.mp h
                obtain ⟨w, hw, h⟩ := Option.bind_eq_some_iff.mp h
                obtain ⟨c, hc, h⟩ := Option.bind_eq_some_iff.mp h
                obtain ⟨rfl, rfl⟩ := Prod.mk.inj (Option.some.inj h)
                exact ⟨by decide, congrArg some (encodeChar_four (by omega) hy hz hw hc)⟩
              · cases h
            · cases h

/-! ## UTF-16 -/

namespace Utf16

theorem unitBytes_eq {big : Bool} {a b : UInt8} {u : Nat} (h : unitOf big a b = u) :
    unitBytes big u = [a, b] := by
  have ha : a.toNat < 256 := a.toNat_lt
  have hb : b.toNat < 256 := b.toNat_lt
  have low : ∀ x y : UInt8, UInt8.ofNat (x.toNat * 256 + y.toNat) = y := by
    intro x y
    apply UInt8.toNat_inj.mp
    have := y.toNat_lt
    rw [UInt8.toNat_ofNat']
    omega
  subst h
  unfold unitOf unitBytes
  cases big with
  | true =>
    rw [if_pos rfl, if_pos rfl, low, ofNat_eq_of_toNat (b := a) (by omega)]
  | false =>
    rw [if_neg (by decide), if_neg (by decide), low, ofNat_eq_of_toNat (b := b) (by omega)]

theorem unitOf_lt (big : Bool) (a b : UInt8) : unitOf big a b < 0x10000 := by
  have ha : a.toNat < 256 := a.toNat_lt
  have hb : b.toNat < 256 := b.toNat_lt
  unfold unitOf
  split <;> omega

end Utf16

open Utf16 in
theorem isFaithful_utf16 (big : Bool) : (Charset.utf16 big).IsFaithful := by
  intro bs ch n h
  change Utf16.decodeChar? big bs = some (ch, n) at h
  change 1 ≤ n ∧ some ((Utf16.units ch).flatMap (unitBytes big)) = some (bs.take n)
  unfold Utf16.units
  unfold Utf16.decodeChar? at h
  split at h
  · rename_i a b bs
    have hu := unitOf_lt big a b
    dsimp only at h
    split at h
    · -- one unit
      obtain ⟨c, hc, h⟩ := Option.map_eq_some_iff.mp h
      obtain ⟨rfl, rfl⟩ := Prod.mk.inj h
      have hn := toNat_of_char? hc
      dsimp only
      rw [if_pos (by omega), List.flatMap_cons, List.flatMap_nil, List.append_nil,
        unitBytes_eq hn.symm]
      exact ⟨by decide, rfl⟩
    · split at h
      · -- a pair of surrogates
        split at h
        · rename_i _ _ c' d' _
          split at h
          · obtain ⟨c, hc, h⟩ := Option.map_eq_some_iff.mp h
            obtain ⟨rfl, rfl⟩ := Prod.mk.inj h
            have hn := toNat_of_char? hc
            dsimp only
            rw [if_neg (by omega), List.flatMap_cons, List.flatMap_cons, List.flatMap_nil,
              List.append_nil, unitBytes_eq (a := a) (b := b) (by omega),
              unitBytes_eq (a := c') (b := d') (by omega)]
            exact ⟨by decide, rfl⟩
          · cases h
        · cases h
      · cases h
  · cases h

/-! ## Single bytes -/

theorem isFaithful_singleByte {high : List Nat} (hnodup : high.Nodup)
    (hhigh : ∀ k ∈ high, 0x80 ≤ k) : (Charset.singleByte high).IsFaithful := by
  intro bs ch n h
  cases bs with
  | nil => cases h
  | cons b bs =>
    change (if b.toNat < 0x80 then (char? b.toNat).map (·, 1)
      else ((high[b.toNat - 0x80]?).bind char?).map (·, 1)) = some (ch, n) at h
    change 1 ≤ n ∧ (if ch.toNat < 0x80 then some [UInt8.ofNat ch.toNat]
      else (high.idxOf? ch.toNat).map fun i => [UInt8.ofNat (0x80 + i)]) = some ((b :: bs).take n)
    split at h
    · obtain ⟨c, hc, h⟩ := Option.map_eq_some_iff.mp h
      obtain ⟨rfl, rfl⟩ := Prod.mk.inj h
      have hn := toNat_of_char? hc
      rw [if_pos (by omega), ofNat_eq_of_toNat hn.symm]
      exact ⟨Nat.le_refl _, rfl⟩
    · obtain ⟨c, hc, h⟩ := Option.map_eq_some_iff.mp h
      obtain ⟨rfl, rfl⟩ := Prod.mk.inj h
      obtain ⟨k, hk, hc⟩ := Option.bind_eq_some_iff.mp hc
      have hn := toNat_of_char? hc
      have hmem : k ∈ high := List.mem_of_getElem? hk
      have hidx : high.idxOf? k = some (b.toNat - 0x80) := by
        obtain ⟨hlt, hget⟩ := List.getElem?_eq_some_iff.mp hk
        rw [List.idxOf?_eq_some_iff]
        refine ⟨hlt, hget, fun j hj => ?_⟩
        rw [← hget]
        intro he
        exact List.pairwise_iff_getElem.mp hnodup j _ (by omega) hlt hj he
      have := hhigh k hmem
      rw [hn, if_neg (by omega), hidx, Option.map_some, ofNat_eq_of_toNat (b := b) (by omega)]
      exact ⟨Nat.le_refl _, rfl⟩

/-! ## Encodings -/

/-- Decoded text encodes back: no two byte strings stand for one text. -/
def Encoding.IsFaithful (e : Encoding) : Prop :=
  ∀ (bs : Bytes) (s : Text), e.decode? bs = some s → e.encode? s = some bs

theorem Charset.IsFaithful.ofCharset {cs : Charset} (h : cs.IsFaithful) (name : String) :
    (Encoding.ofCharset name cs).IsFaithful := fun _ _ => Charset.encode?_of_decode? h

namespace Encoding

/-- Encodings in which every character has one form. -/
def uniform : List Encoding :=
  [utf8, utf16le, utf16be, windows1252, koi8r, userDefined, replacement]

/-- **Decoded text encodes back** where every character has one form. -/
theorem isFaithful_of_mem {e : Encoding} (he : e ∈ uniform) : e.IsFaithful := by
  simp only [uniform, List.mem_cons, List.not_mem_nil, or_false] at he
  rcases he with rfl | rfl | rfl | rfl | rfl | rfl | rfl
  · exact isFaithful_utf8.ofCharset _
  · exact (isFaithful_utf16 false).ofCharset _
  · exact (isFaithful_utf16 true).ofCharset _
  · exact (isFaithful_singleByte (by decide +kernel) (by decide +kernel)).ofCharset _
  · exact (isFaithful_singleByte (by decide +kernel) (by decide +kernel)).ofCharset _
  · exact (isFaithful_singleByte (by decide +kernel) (by decide +kernel)).ofCharset _
  · exact Charset.IsFaithful.ofCharset (fun bs c n h => by cases h) _

/-- **Decoded text need not encode back**: Shift_JIS has two forms of the negation sign. -/
theorem not_isFaithful_shiftJis : ¬ shiftJis.IsFaithful := by
  intro h
  have hback := h [0xfa, 0x54] ['￢'] (by decide +kernel)
  exact absurd hback (by decide +kernel)

end Encoding

end ByteScript
