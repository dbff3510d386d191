import ByteScript.Proofs.Listing.DepthLimit
import ByteScript.Proofs.Script.Nesting

/-!
# The limit to depth

A limit to the depth of definitions and structures only cuts off: what a script or a binary gives
without coming upon it, bytes, lines or an error, it gives under every higher limit.

* **`depth_only_cuts_off`**: scripts and listings under two limits, and what a script needs to come
  upon one.
-/

namespace ByteScript

/-- **The limit to depth only cuts off.** A script, and the listing of a binary by any layout, that
does not end with the error of this limit ends alike under every higher one. And a script that does
so names the limit and a line of it that has more dollar signs than the limit allows depth. -/
theorem depth_only_cuts_off {d d' : Nat} (h : d ≤ d') (st : Settings) :
    (∀ s, SameUnless CompileError.IsDepthLimit (compile { st with maxDepth := d } s)
      (compile { st with maxDepth := d' } s)) ∧
    (∀ layout bs, SameUnless ListingError.IsDepthLimit
      (decompile { st with maxDepth := d } layout bs)
      (decompile { st with maxDepth := d' } layout bs)) ∧
    ∀ s e, compile { st with maxDepth := d } s = .error e → e.IsDepthLimit →
      e.fault = .depthLimit d ∧
        ∃ i l, e.line = i + 1 ∧ (s.splitOn '\n')[i]? = some l ∧ d < l.count '$' := by
  refine ⟨fun s => sameUnless_compile h s, fun layout bs => sameUnless_decompile h bs, ?_⟩
  intro s e he hdepth
  refine ⟨?_, exists_line_of_compileWithin he hdepth⟩
  rw [compile_maxDepth] at he
  obtain ⟨e', -, rfl⟩ := exists_of_mapError_eq_error he
  have hlimit : e'.IsDepthLimit := by
    by_contra hother
    rw [CompileError.withLimit, CompileFault.withLimit_eq hother] at hdepth
    exact hother hdepth
  exact hlimit.withLimit d

/-- A chain of links, each with one more behind it or none. -/
def chainLayout : Layout where
  format := .lines ["[link]".toList]
  sizes := [("more".toList, 1)]
  structs := dictionary [("link".toList, .lines ["[more]$n [link:$n]".toList])]
  structs_dictionary := isDictionary_dictionary _
  defines_dictionary := isDictionary_nil

/-- Two definitions in one another, a name that is not bound there and a chain of two links are read
under a limit of three as under one of two, and three definitions in one another are not. -/
theorem depth_only_cuts_off_two :
    compile { maxDepth := 3 } "$A=+7 $B=+1\nA".toList = .ok [0, 0, 0, 7] ∧
    compile { maxDepth := 3 } "\n$A=$B=C".toList = .error ⟨2, .undefinedVariable "C".toList⟩ ∧
    decompile { maxDepth := 3 } chainLayout [1, 0, 9] =
      .ok ⟨[⟨1, [1], "[more] +1".toList⟩, ⟨2, [0], "[more] +0".toList⟩], 2, [9]⟩ ∧
    compile { maxDepth := 2 } "+7\n$A=$B=$C=+1".toList = .error ⟨2, .depthLimit 2⟩ ∧
    ∃ l, ("+7\n$A=$B=$C=+1".toList.splitOn '\n')[1]? = some l ∧ 2 < l.count '$' := by
  obtain ⟨hscript, hlisting, hline⟩ := depth_only_cuts_off (show 2 ≤ 3 by decide) {}
  have hvalue : compile { maxDepth := 2 } "$A=+7 $B=+1\nA".toList = .ok [0, 0, 0, 7] := by
    decide +kernel
  have hname : compile { maxDepth := 2 } "\n$A=$B=C".toList =
      .error ⟨2, .undefinedVariable "C".toList⟩ := by
    decide +kernel
  have hchain : decompile { maxDepth := 2 } chainLayout [1, 0, 9] =
      .ok ⟨[⟨1, [1], "[more] +1".toList⟩, ⟨2, [0], "[more] +0".toList⟩], 2, [9]⟩ := by
    decide +kernel
  have hdeep : compile { maxDepth := 2 } "+7\n$A=$B=$C=+1".toList = .error ⟨2, .depthLimit 2⟩ := by
    decide +kernel
  obtain ⟨-, i, l, hi, hl, hlt⟩ := hline _ _ hdeep trivial
  obtain rfl := Nat.succ.inj hi
  exact ⟨(hscript _).eq_ok hvalue, (hscript _).eq_error hname id,
    (hlisting chainLayout _).eq_ok hchain, hdeep, l, hl, hlt⟩

end ByteScript
