import ByteScript.Proofs.Listing.LineForm
import ByteScript.Proofs.Listing.WidthName
import ByteScript.Proofs.Script.Concatenation

/-!
# Indented lines

A line of a listing is one line of its text where the names of the layout are, since literals and
quoted texts are. So the lines of a structure are those of its own listing, each with four more
spaces in front.

* `Text.indentLines`: a text with four spaces in front of every line;
* `IsLexeme.not_mem_lineFeed`, **`IsLineOf.not_mem_lineFeed`**: no line of a listing has a line feed
  in it;
* **`indentLines_body`**: the lines of a listing, one step deeper.
-/

namespace ByteScript

/-- A text with four spaces in front of every line; the first character starts a line or not. -/
def Text.indentFrom (starts : Bool) : Text → Text
  | [] => []
  | c :: s => (if starts then List.replicate 4 ' ' else []) ++ c :: indentFrom (c == '\n') s

/-- A text with four spaces in front of every line. -/
def Text.indentLines (s : Text) : Text := s.indentFrom true

example : Text.indentLines "a\n    b\n".toList = "    a\n        b\n".toList := by decide

/-! ## Lines -/

theorem indentFrom_line {s : Text} (hs : '\n' ∉ s) (starts : Bool) (r : Text) :
    Text.indentFrom starts (s ++ '\n' :: r) =
      (if starts then List.replicate 4 ' ' else []) ++ s ++ '\n' :: Text.indentLines r := by
  induction s generalizing starts with
  | nil => simp [Text.indentFrom, Text.indentLines]
  | cons c s ih =>
    obtain ⟨hc, hs⟩ := not_or.mp (List.mem_cons.not.mp hs)
    have hfeed : (c == '\n') = false := beq_eq_false_iff_ne.mpr (Ne.symm hc)
    simp [Text.indentFrom, hfeed, ih hs]

theorem render_indent (l : Line) : l.indent.render = List.replicate 4 ' ' ++ l.render := by
  simp only [Line.render, Line.indent, Nat.mul_add, Nat.mul_one, Nat.add_comm _ 4,
    List.replicate_add, List.append_assoc]

/-- Lines one step deeper are the indented lines. -/
theorem indentLines_flatMap_render {ls : List Line} (h : ∀ l ∈ ls, '\n' ∉ l.text) :
    Text.indentLines (ls.flatMap Line.render) = (ls.map Line.indent).flatMap Line.render := by
  induction ls with
  | nil => rfl
  | cons l ls ih =>
    have hline : '\n' ∉ List.replicate (4 * l.depth) ' ' ++ l.text := by
      rw [List.mem_append, not_or]
      exact ⟨fun hmem => absurd (List.eq_of_mem_replicate hmem) (by decide),
        h l List.mem_cons_self⟩
    rw [List.flatMap_cons, List.map_cons, List.flatMap_cons, render_indent,
      ← ih fun k hk => h k (List.mem_cons_of_mem l hk), Line.render, List.append_assoc,
      List.singleton_append, Text.indentLines, indentFrom_line hline]
    simp [Text.indentLines]

/-! ## Texts without line feeds -/

/-- The token of a number is within a line. -/
theorem IsLexeme.not_mem_lineFeed {k : ScriptKind} (hk : k ∈ numberKinds) {s : Text}
    (h : IsLexeme '\n' k s) : '\n' ∉ s := by
  obtain ⟨p, hp, hline⟩ : ∃ p, (k, p) ∈ scriptTable.patterns ∧ p.InLine := by
    simp only [numberKinds, List.mem_cons, List.not_mem_nil, or_false] at hk
    rcases hk with rfl | rfl | rfl | rfl
    · exact ⟨_, List.mem_iff_getElem?.mpr ⟨4, rfl⟩, inLine_integer⟩
    · exact ⟨_, List.mem_iff_getElem?.mpr ⟨5, rfl⟩, inLine_hex⟩
    · exact ⟨_, List.mem_iff_getElem?.mpr ⟨6, rfl⟩, inLine_binary⟩
    · exact ⟨_, List.mem_iff_getElem?.mpr ⟨3, rfl⟩, inLine_float⟩
  have hinside := not_mem_take (fits_of_mem hp) hline (match_of_next hp (h.next []))
  rwa [List.take_left' rfl] at hinside

section Names

variable {layout : Layout} (hsizes : ∀ e ∈ layout.sizes, '\n' ∉ e.1)

include hsizes

/-- A type with a width has no line feed if no name of a width has one. -/
theorem not_mem_type {f : Field} {n : Nat} (h : resolveWidth layout f = .ok (.fixed n)) :
    '\n' ∉ f.type := by
  rw [resolveWidth_eq_fixed_iff] at h
  intro hmem
  cases hlook : layout.sizes.lookup f.type with
  | some m => exact hsizes _ (mem_of_lookup hlook) hmem
  | none =>
    rw [hlook, Option.none_or] at h
    cases hsize : size? f.type with
    | some m =>
      have hdigits : f.type.allDigits = true := by
        by_contra hdigits
        rw [size?, if_neg hdigits] at hsize
        cases hsize
      exact absurd ((allDigits_iff.mp hdigits).2 _ hmem) (by decide)
    | none =>
      rw [hsize, Option.none_or] at h
      exact absurd ((isIdentifier_of_builtinWidth? h).2 _ hmem) (by decide)

/-- **No line of a listing has a line feed in it** if no name of the layout has one. -/
theorem IsLineOf.not_mem_lineFeed (hdefines : ∀ e ∈ layout.defines, '\n' ∉ e.2) {st : Settings}
    {bs : Bytes} {s : Text} (h : IsLineOf st layout bs s) : '\n' ∉ s := by
  rcases h.cases with ⟨f, literal, rfl, -, hwidth, hwritten⟩ | ⟨e, he, -, rfl⟩ | ⟨-, t, -, -, -, rfl⟩
  · have hliteral : '\n' ∉ literal := by
      cases hwritten with
      | empty => exact List.not_mem_nil
      | mark => decide
      | literal hk hlexeme => exact hlexeme.not_mem_lineFeed hk
    have htype := not_mem_type hsizes hwidth
    simp [directed, htype, hliteral]
  · exact hdefines e he
  · exact not_mem_quote t

/-- **The lines of a listing, one step deeper**, are its text with four spaces in front of every
line. -/
theorem indentLines_body (hdefines : ∀ e ∈ layout.defines, '\n' ∉ e.2) {st : Settings}
    {bs : Bytes} {l : Listing} (h : decompile st layout bs = .ok l) :
    Text.indentLines l.body = (l.lines.map Line.indent).flatMap Line.render :=
  indentLines_flatMap_render fun line hline =>
    ((covers_decompile h).1.isLine line hline).not_mem_lineFeed hsizes hdefines

end Names

end ByteScript
