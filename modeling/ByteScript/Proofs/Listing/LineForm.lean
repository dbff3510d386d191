import ByteScript.Proofs.Layout.FieldType
import ByteScript.Proofs.Listing.Coverage
import ByteScript.Proofs.Listing.Literals

/-!
# The forms of a line

Whatever the widths of its fields are, a line of a listing is a directive with a literal, the name
of a value or a quoted text. The literal of no bytes is empty in binary and a lone number sign in
hexadecimal, which is no token.

* `Layout.Uses.hasPlainType`: the type of a field fits between the brackets of a directive;
* `IsWritten`: what may stand after a directive;
* `IsDirected`, **`IsLineOf.cases`**: the three forms;
* `any_isQuote_quote`, `any_isNameStart_of_isQuote`: a quoted text is no name.
-/

namespace ByteScript

theorem Layout.Uses.hasPlainType {layout : Layout} {f : Field} (h : layout.Uses f) :
    f.HasPlainType := by
  cases h with
  | format hf => exact FieldList.hasPlainType hf
  | struct _ _ hf => exact FieldList.hasPlainType hf
  | case _ _ _ hf => exact FieldList.hasPlainType hf

/-- The text may stand after the directive of a field: nothing, a number sign or one token, which
stands for the bytes unless it is in hexadecimal or binary and too long. -/
inductive IsWritten (f : Field) (bs : Bytes) : Text → Prop
  | empty (hformat : f.format = .binary) (hbs : bs = []) : IsWritten f bs []
  | mark (hformat : f.format = .hex) (hbs : bs = []) : IsWritten f bs ['#']
  | literal {k : ScriptKind} {s : Text} (hk : k ∈ numberKinds) (hlexeme : IsLexeme '\n' k s)
      (hliteral : (f.format = .hex ∨ f.format = .binary → bs.length ≤ 16) → IsLiteralOf bs k s) :
      IsWritten f bs s

/-- The text is a directive with the width of the bytes, and what may stand after it. -/
def IsDirected (layout : Layout) (bs : Bytes) (s : Text) : Prop :=
  ∃ f literal, s = directed f literal ∧ layout.Uses f ∧
    resolveWidth layout f = .ok (.fixed bs.length) ∧ IsWritten f bs literal

section Forms

variable {f : Field} {bs : Bytes}

theorem IsLiteralOf.isWritten {k : ScriptKind} {s : Text} (h : IsLiteralOf bs k s) :
    IsWritten f bs s :=
  .literal h.isNumber h.isLexeme fun _ => h

theorem isWritten_hex (hformat : f.format = .hex) : IsWritten f bs ('#' :: hexBytes bs) := by
  by_cases hne : bs = []
  · subst hne
    exact .mark hformat rfl
  · exact .literal (by decide) (isLexeme_hexBytes hne) fun hlen =>
      isLiteralOf_hex hne (hlen (Or.inl hformat))

theorem isWritten_binary (hformat : f.format = .binary) : IsWritten f bs (binaryBytes bs) := by
  by_cases hne : bs = []
  · subst hne
    exact .empty hformat rfl
  · exact .literal (by decide) (isLexeme_binaryBytes hne) fun hlen =>
      isLiteralOf_binary hne (hlen (Or.inr hformat))

end Forms

/-- **The three forms of a line**: a directive with a literal, the name of a value, a quoted
text. -/
theorem IsLineOf.cases {st : Settings} {layout : Layout} {bs : Bytes} {s : Text}
    (h : IsLineOf st layout bs s) :
    IsDirected layout bs s ∨
    (∃ e ∈ layout.defines, hasValue bs e.1 = true ∧ s = e.2) ∨
    (∃ f t, layout.Uses f ∧ f.format = .text ∧ st.encoding.decode? bs = some t ∧ s = quote t) := by
  cases h with
  | text hf hformat hdecode => exact Or.inr (Or.inr ⟨_, _, hf, hformat, hdecode, rfl⟩)
  | @value f _ _ hf hformat hwidth hvalue =>
    have written : ∀ {r : Except ListingFault Text}, r.map (directed f) = .ok s →
        (∀ t, r = .ok t → IsWritten f bs t) → IsDirected layout bs s := by
      intro r hr hwritten
      obtain ⟨t, ht, rfl⟩ := exists_of_map_eq_ok hr
      exact ⟨f, t, rfl, hf, hwidth, hwritten t ht⟩
    have signed : (signedText bs).map (directed f) = .ok s → IsDirected layout bs s := fun hs =>
      written hs fun t ht => (isLiteralOf_signed ht).isWritten
    unfold valueText at hvalue
    split at hvalue
    · refine Or.inl (written hvalue fun t ht => ?_)
      obtain ⟨k, hk⟩ := isLiteralOf_float ht
      exact hk.isWritten
    · rename_i hbinary
      obtain rfl := Except.ok.inj hvalue
      exact Or.inl ⟨f, _, rfl, hf, hwidth, isWritten_binary hbinary⟩
    · rename_i hhex
      obtain rfl := Except.ok.inj hvalue
      exact Or.inl ⟨f, _, rfl, hf, hwidth, isWritten_hex hhex⟩
    · split at hvalue
      · rename_i name hname
        obtain rfl := Except.ok.inj hvalue
        obtain ⟨e, he, rfl⟩ := Option.map_eq_some_iff.mp hname
        have hvalue := List.find?_some (p := fun e : Text × Text => hasValue bs e.1) he
        exact Or.inr (Or.inl ⟨e, List.mem_of_find?_eq_some he, hvalue, rfl⟩)
      · exact Or.inl (signed hvalue)
    · exact Or.inl (signed hvalue)
    · exact Or.inl (signed hvalue)
    · exact Or.inl (signed hvalue)

/-! ## First characters -/

theorem any_isQuote_quote (t : Text) : (quote t).head?.any isQuote = true :=
  isQuote_iff_mark.mpr (isQuote_quoteMark t)

/-- No name starts with a mark. -/
theorem any_isNameStart_of_isQuote {s : Text} (h : s.head?.any isQuote = true) :
    s.head?.any isNameStart = false := by
  cases s with
  | nil => cases h
  | cons c s => rcases isQuote_iff_mark.mp h with rfl | rfl <;> rfl

end ByteScript
