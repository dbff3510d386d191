import ByteScript.Proofs.Listing.RoundTrip

/-!
# Bytes left over by themselves

A listing keeps the bytes that no field describes: one hexadecimal literal for each of them, without
leading zeros and with a blank between two. By itself this line is a script of as many tokens, and
after a directive with the width one it compiles to the bytes.

* `text_eq_trailer`: where the bytes stand in a listing;
* `scanScript_trailer`: the tokens of the line;
* `compile_trailer`: its bytes at the width one;
* **`trailer_keeps`**: the bytes that a listing leaves over.
-/

namespace ByteScript

variable {st : Settings} {layout : Layout} {bs : Bytes} {l : Listing}

/-- A listing that does not come to the end ends with the bytes left over. -/
theorem text_eq_trailer (h : decompile st layout bs = .ok l) (hleft : l.consumed < bs.length) :
    l.text = l.body ++ '\n' :: trailer (bs.drop l.consumed) := by
  have hrest : l.leftover = bs.drop l.consumed := (covers_decompile h).2
  have hne : l.leftover ≠ [] := by
    rw [hrest, ne_eq, List.drop_eq_nil_iff]
    omega
  rw [← hrest]
  exact if_neg hne

/-- **The line of some bytes is one token for each of them**, none split and no two run together. -/
theorem scanScript_trailer (bs : Bytes) :
    ∃ ts, scanScript (trailer bs) = .ok ts ∧ ts.length = bs.length ∧
      (∀ t ∈ ts, t.kind = .hex) ∧ ts.map Token.text = bs.map fun b => '#' :: hexadecimal b.toNat := by
  obtain ⟨ts, us, hts, hus, hscan⟩ := exists_scanScript_trailer Scans.nil bs
  rw [List.map_eq_nil_iff.mp hts, List.nil_append, List.nil_append] at hscan
  have htexts := congrArg (List.map Prod.snd) hus
  rw [trailerPieces, List.map_map, List.map_map] at htexts
  refine ⟨us, hscan, ?_, fun t ht => ?_, htexts⟩
  · have hlen := congrArg List.length hus
    rwa [trailerPieces, List.length_map, List.length_map] at hlen
  · obtain ⟨b, -, hb⟩ := List.mem_map.mp (hus ▸ List.mem_map_of_mem (f := Token.piece) ht)
    exact (congrArg Prod.fst hb).symm

/-- **The line of some bytes compiles to them** at the width one, whatever the settings are. -/
theorem compile_trailer (st : Settings) (bs : Bytes) :
    compile st ("[1] ".toList ++ trailer bs) = .ok bs := by
  have hs : Scans "[1] ".toList [(.pad, "[1]".toList)] :=
    (@Scans.pad ['1'] (by decide)).append (Scans.blank (c := ' ') (by decide))
  have hpad : (Scope.root st).padWidth "[1]".toList = .ok (some 1) :=
    padWidth_digits (s := ['1']) (by decide) (by decide)
  obtain ⟨ts, us, hts, hus, hscan⟩ := exists_scanScript_trailer hs bs
  have hexec : Executes st (defineWithin st st.maxDepth) (Scope.root st)
      ([(.pad, "[1]".toList)] ++ trailerPieces bs) { Scope.root st with pad := some 1 } bs :=
    (Executes.pad hpad).append (executes_trailer (Or.inr rfl))
  rw [← hts, ← hus, ← List.map_append] at hexec
  exact compile_of_executes hscan hexec

/-- **The bytes left over are kept.** They follow the lines of a listing after an empty line, and
strictly scanned they are hexadecimal literals, as many as there are bytes. After a directive with
the width one such literals of any bytes compile to these. -/
theorem trailer_keeps :
    (∀ (st : Settings) (layout : Layout) (bs : Bytes) (l : Listing),
      decompile st layout bs = .ok l → l.consumed < bs.length →
        l.text = l.body ++ '\n' :: trailer (bs.drop l.consumed) ∧
        ∃ ts, scanScript (trailer (bs.drop l.consumed)) = .ok ts ∧
          ts.length = bs.length - l.consumed ∧ (∀ t ∈ ts, t.kind = .hex) ∧
          ts.map Token.text = (bs.drop l.consumed).map fun b => '#' :: hexadecimal b.toNat) ∧
      ∀ (st : Settings) (bs : Bytes), compile st ("[1] ".toList ++ trailer bs) = .ok bs := by
  refine ⟨fun st layout bs l hlisting hleft => ⟨text_eq_trailer hlisting hleft, ?_⟩,
    compile_trailer⟩
  rw [← List.length_drop]
  exact scanScript_trailer _

/-- After a field of two bytes a zero, a byte of one digit and one of two digits are left over. -/
theorem trailer_keeps_three :
    decompile {} (hexLayout "2".toList) [1, 2, 0, 12, 171] =
        .ok ⟨[⟨0, [1, 2], "[2] #0102".toList⟩], 2, [0, 12, 171]⟩ ∧
      (∃ ts, scanScript "#0 #c #ab".toList = .ok ts ∧ ts.length = 3 ∧ ∀ t ∈ ts, t.kind = .hex) ∧
      compile {} "[1] #0 #c #ab".toList = .ok [0, 12, 171] := by
  have hlisting : decompile {} (hexLayout "2".toList) [1, 2, 0, 12, 171] =
      .ok ⟨[⟨0, [1, 2], "[2] #0102".toList⟩], 2, [0, 12, 171]⟩ := by decide +kernel
  obtain ⟨-, ts, hts, hlen, hhex, -⟩ := trailer_keeps.1 _ _ _ _ hlisting (by decide)
  exact ⟨hlisting, ⟨ts, hts, hlen, hhex⟩, trailer_keeps.2 {} [0, 12, 171]⟩

end ByteScript
