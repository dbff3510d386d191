import ByteScript.Proofs.Listing.LineForm
import ByteScript.Proofs.Listing.WidthName

/-!
# Lines of a listing as script

A line that starts with a directive gives the bytes that it stands for at any place in a script
that knows the widths of the layout, and leaves their width active. A quoted text gives its form in
the encoding, which need not be the bytes that it was decoded from. A name gives the bytes that it
is bound to, whatever it was printed for.

* `Layout.HasPlainSizes`, `Layout.HasWritableWidths`: what the layout has to keep to;
  `Layout.hasWritableWidths_of_fields` checks the second;
* `Scope.Binds`: the scope knows the widths of a layout and some names;
* `padWidth_of_resolveWidth`: a directive sets the width of its field;
* `Line.recode?`, `Line.readBack`, `Line.readBack?`: the bytes that a line gives if its text is
  encoded, if its name is looked up, and both; `Line.padAfter`: the width after it;
  `recode?_quote`, `recode?_of_isNameStart`: a text and a name;
* `gather?`: what lines give one after the other;
* `Line.Reads`, `IsLineOf.reads`, **`exists_body`**: one line and all of them.
-/

namespace ByteScript

/-! ## Conditions on layouts -/

/-- Every name of a width is an identifier in lower case and no built-in name. -/
def Layout.HasPlainSizes (layout : Layout) : Prop :=
  ∀ e ∈ layout.sizes, IsIdentifier e.1 ∧ e.1.lower = e.1 ∧ builtinWidth? e.1 = none

/-- Hexadecimal fields have from one to 16 bytes and binary ones at most 16. -/
def Layout.HasWritableWidths (layout : Layout) : Prop :=
  ∀ f n, layout.Uses f → resolveWidth layout f = .ok (.fixed n) →
    (f.format = .hex → 1 ≤ n ∧ n ≤ 16) ∧ (f.format = .binary → n ≤ 16)

instance (layout : Layout) : Decidable layout.HasPlainSizes :=
  inferInstanceAs (Decidable (∀ _ ∈ layout.sizes, _))

/-- The width of the field can be written in its format. -/
def Field.isWritable (layout : Layout) (f : Field) : Bool :=
  match f.format, resolveWidth layout f with
  | .hex, .ok (.fixed n) => 1 ≤ n && n ≤ 16
  | .binary, .ok (.fixed n) => n ≤ 16
  | _, _ => true

/-- The condition on widths can be checked field by field. -/
theorem Layout.hasWritableWidths_of_fields {layout : Layout}
    (h : ∀ f ∈ layout.allFields, f.isWritable layout = true) : layout.HasWritableWidths := by
  intro f n hf hwidth
  have hfield := h f hf.mem_allFields
  rw [Field.isWritable, hwidth] at hfield
  refine ⟨fun hformat => ?_, fun hformat => ?_⟩ <;> rw [hformat] at hfield
  · rw [Bool.and_eq_true] at hfield
    exact ⟨of_decide_eq_true hfield.1, of_decide_eq_true hfield.2⟩
  · exact of_decide_eq_true hfield

/-- The scope knows the widths of the layout and these names. -/
structure Scope.Binds (layout : Layout) (names : List (Text × Bytes)) (scope : Scope) : Prop where
  widths : ∀ name, scope.padWidths.lookup name = layout.sizes.lookup name
  values : ∀ name, scope.symbols.lookup name = names.lookup name

/-! ## Directives -/

/-- **A directive sets the width of its field.** -/
theorem padWidth_of_resolveWidth {layout : Layout} (hsizes : layout.HasPlainSizes)
    {names : List (Text × Bytes)} {scope : Scope} (hscope : scope.Binds layout names) {f : Field}
    {n : Nat} (h : resolveWidth layout f = .ok (.fixed n)) :
    scope.padWidth ('[' :: (f.type ++ [']'])) = .ok (some n) := by
  rcases allDigits_or_isIdentifier (fun e he => (hsizes e he).1) h with
    ⟨hdigits, hsize⟩ | ⟨hident, hname⟩
  · exact padWidth_digits hdigits hsize
  · refine padWidth_name hident ?_
    rw [hscope.widths]
    cases hlook : layout.sizes.lookup f.type with
    | some m =>
      -- a width of the layout, whose name is in lower case
      obtain ⟨_, hlower, _⟩ := hsizes _ (mem_of_lookup hlook)
      rw [hlook] at hname
      rw [hlower, hlook]
      exact hname
    | none =>
      -- a built-in name, which no width of the layout has
      rw [hlook, Option.none_or] at hname
      have hnone : layout.sizes.lookup f.type.lower = none := by
        cases hlow : layout.sizes.lookup f.type.lower with
        | none => rfl
        | some m =>
          have hbuiltin := (hsizes _ (mem_of_lookup hlow)).2.2
          rw [builtinWidth?_lower, hname] at hbuiltin
          cases hbuiltin
      rw [hnone, Option.none_or, hname]

/-! ## Lines -/

/-- The bytes of a line if the text that it quotes is encoded again; nothing if it has no form. -/
def Line.recode? (e : Encoding) (l : Line) : Option Bytes :=
  if l.text.head?.any isQuote then (e.decode? l.block).bind e.encode? else some l.block

/-- The bytes that a line gives where these names are bound. -/
def Line.readBack (names : List (Text × Bytes)) (l : Line) : Bytes :=
  (names.lookup l.text).getD l.block

/-- The bytes that a line gives where these names are bound and texts are encoded. -/
def Line.readBack? (e : Encoding) (names : List (Text × Bytes)) (l : Line) : Option Bytes :=
  (names.lookup l.text).or (l.recode? e)

/-- The width that is active after a line. -/
def Line.padAfter (pad : Option Nat) (l : Line) : Option Nat :=
  if l.text.head? = some '[' then some l.block.length else pad

/-- What lines give, one after the other; nothing if one of them gives nothing. -/
def gather? (f : Line → Option Bytes) : List Line → Option Bytes
  | [] => some []
  | l :: ls => (f l).bind fun bs => (gather? f ls).map (bs ++ ·)

theorem gather?_congr {f g : Line → Option Bytes} {ls : List Line} (h : ∀ l ∈ ls, f l = g l) :
    gather? f ls = gather? g ls := by
  induction ls with
  | nil => rfl
  | cons l ls ih =>
    rw [gather?, gather?, h l List.mem_cons_self, ih fun k hk => h k (List.mem_cons_of_mem _ hk)]

/-- Lines that give bytes give them one after the other. -/
theorem gather?_eq_some {f : Line → Option Bytes} {g : Line → Bytes} {ls : List Line}
    (h : ∀ l ∈ ls, f l = some (g l)) : gather? f ls = some (ls.flatMap g) := by
  induction ls with
  | nil => rfl
  | cons l ls ih =>
    rw [gather?, h l List.mem_cons_self, ih fun k hk => h k (List.mem_cons_of_mem _ hk)]
    rfl

theorem gather?_append (f : Line → Option Bytes) (ls ks : List Line) :
    gather? f (ls ++ ks) = (gather? f ls).bind fun bs => (gather? f ks).map (bs ++ ·) := by
  induction ls with
  | nil =>
    change gather? f ks = (gather? f ks).map fun bs => bs
    rw [Option.map_id']
  | cons l ls ih =>
    rw [List.cons_append, gather?, gather?, ih]
    cases f l with
    | none => rfl
    | some b =>
      cases gather? f ls with
      | none => rfl
      | some bs => cases gather? f ks <;> simp

theorem lookup_eq_none_of_head {names : List (Text × Bytes)}
    (hnames : ∀ e ∈ names, IsIdentifier e.1) {s : Text} (hs : s.head?.any isNameStart = false) :
    names.lookup s = none := by
  rw [List.lookup_eq_none_iff]
  intro e he
  rw [bne_iff_ne]
  rintro rfl
  rw [(hnames e he).1] at hs
  cases hs

section Reading

variable {st : Settings} {layout : Layout} {names : List (Text × Bytes)}

variable (st layout names) in
/-- The line is a part of a script, and in every scope that knows the layout its pieces give what
it is read back as. -/
def Line.Reads (l : Line) : Prop :=
  ∃ ps, Scans l.render ps ∧ ∀ define scope, scope.Binds layout names →
    Yields st define scope ps { scope with pad := l.padAfter scope.pad }
      (l.readBack? st.encoding names)

theorem scans_indent (depth : Nat) : Scans (List.replicate (4 * depth) ' ') [] := by
  refine Scans.blanks fun c hc => ?_
  rw [List.eq_of_mem_replicate hc]
  decide

theorem reads_directed (hsizes : layout.HasPlainSizes) (hwidths : layout.HasWritableWidths)
    (hnames : ∀ e ∈ names, IsIdentifier e.1) {depth : Nat} {bs : Bytes} {s : Text}
    (h : IsDirected layout bs s) : (Line.mk depth bs s).Reads st layout names := by
  obtain ⟨f, literal, rfl, hf, hwidth, hwritten⟩ := h
  have htype := hf.hasPlainType
  have hback : (Line.mk depth bs (directed f literal)).readBack? st.encoding names = some bs := by
    rw [Line.readBack?, lookup_eq_none_of_head hnames rfl, Option.none_or]
    rfl
  have hrender : (Line.mk depth bs (directed f literal)).render =
      List.replicate (4 * depth) ' ' ++
        ('[' :: (f.type ++ [']']) ++ ([' '] ++ (literal ++ ['\n']))) := by
    simp only [Line.render, directed, List.append_assoc, List.cons_append, List.nil_append]
  have hset : ∀ define scope, scope.Binds layout names →
      Executes st define scope [(.pad, '[' :: (f.type ++ [']']))]
        { scope with pad := some bs.length } [] := fun define scope hscope =>
    Executes.pad (padWidth_of_resolveWidth hsizes hscope hwidth)
  have hwidth' := hwidths f _ hf hwidth
  rw [Line.Reads, hrender, hback]
  cases hwritten with
  | empty _ hbs =>
    subst hbs
    exact ⟨_, (scans_indent depth).append ((Scans.pad htype.not_mem_type).append
      ((Scans.blank (by decide)).append (Scans.blank (by decide)))),
      fun define scope hscope => (hset define scope hscope).yields⟩
  | mark hformat hbs =>
    subst hbs
    exact absurd (hwidth'.1 hformat).1 (by decide)
  | literal _ _ hliteral =>
    have hlit := hliteral fun hformat => hformat.elim (fun h => (hwidth'.1 h).2) hwidth'.2
    exact ⟨_, (scans_indent depth).append ((Scans.pad htype.not_mem_type).append
      ((Scans.blank (by decide)).append (Scans.lexeme (by decide) hlit.isLexeme))),
      fun define scope hscope => ((hset define scope hscope).append (hlit.executes rfl)).yields⟩

theorem reads_name (hnames : ∀ e ∈ names, IsIdentifier e.1) {depth : Nat} {bs v : Bytes}
    {name : Text} (hv : names.lookup name = some v) :
    (Line.mk depth bs name).Reads st layout names := by
  have hident : IsIdentifier name := hnames _ (mem_of_lookup hv)
  have hback : (Line.mk depth bs name).readBack? st.encoding names = some v := by
    rw [Line.readBack?, hv, Option.some_or]
  have hpad : ∀ p, (Line.mk depth bs name).padAfter p = p := by
    intro p
    refine if_neg fun hhead => ?_
    have hstart := hident.1
    rw [hhead] at hstart
    cases hstart
  rw [Line.Reads, hback, Line.render, List.append_assoc]
  refine ⟨_, (scans_indent depth).append (Scans.lexeme (by decide) (isLexeme_reference hident)),
    fun define scope hscope => ?_⟩
  rw [hpad]
  refine (Executes.reference ?_).yields
  rw [hident.dropWhile_dollar, hscope.values, hv]

/-- A quoted text is encoded again. -/
theorem recode?_quote {e : Encoding} {depth : Nat} {bs : Bytes} {t : Text}
    (hdecode : e.decode? bs = some t) : (Line.mk depth bs (quote t)).recode? e = e.encode? t := by
  rw [Line.recode?, if_pos (any_isQuote_quote t), hdecode, Option.bind_some]

/-- A name is no text. -/
theorem recode?_of_isNameStart {e : Encoding} {l : Line} (h : l.text.head?.any isNameStart = true) :
    l.recode? e = some l.block := by
  refine if_neg fun hquote => ?_
  rw [any_isNameStart_of_isQuote hquote] at h
  cases h

theorem reads_quote (hnames : ∀ e ∈ names, IsIdentifier e.1) {depth : Nat} {bs : Bytes} {t : Text}
    (hdecode : st.encoding.decode? bs = some t) :
    (Line.mk depth bs (quote t)).Reads st layout names := by
  have hhead := any_isQuote_quote t
  have hback : (Line.mk depth bs (quote t)).readBack? st.encoding names =
      (stringBytes st.encoding (quote t)).toOption := by
    rw [Line.readBack?, lookup_eq_none_of_head hnames (any_isNameStart_of_isQuote hhead),
      Option.none_or, recode?_quote hdecode]
    simp only [stringBytes, unquote_quote]
    cases st.encoding.encode? t <;> rfl
  have hpad : ∀ p, (Line.mk depth bs (quote t)).padAfter p = p := by
    intro p
    refine if_neg fun h => ?_
    rw [h] at hhead
    cases hhead
  rw [Line.Reads, hback, Line.render, List.append_assoc]
  refine ⟨_, (scans_indent depth).append (Scans.lexeme (by decide) (isLexeme_quote t)),
    fun define scope hscope => ?_⟩
  rw [hpad]
  exact Yields.string scope (quote t)

/-- **Every line of a listing reads**, if its names are bound. -/
theorem IsLineOf.reads (hsizes : layout.HasPlainSizes) (hwidths : layout.HasWritableWidths)
    (hnames : ∀ e ∈ names, IsIdentifier e.1)
    (hbound : ∀ e ∈ layout.defines, ∃ v, names.lookup e.2 = some v) {l : Line}
    (h : IsLineOf st layout l.block l.text) : l.Reads st layout names := by
  obtain ⟨depth, bs, s⟩ := l
  rcases h.cases with hdirected | ⟨e, he, _, hs⟩ | ⟨_, t, _, _, hdecode, hs⟩
  · exact reads_directed hsizes hwidths hnames hdirected
  · obtain ⟨v, hv⟩ := hbound e he
    exact reads_name hnames (hs ▸ hv)
  · dsimp only at hs
    rw [hs]
    exact reads_quote hnames hdecode

/-- **The lines of a listing as script**: what each is read back as, one after the other, and the
width that the last directive has set. -/
theorem exists_body {lines : List Line} (hlines : ∀ l ∈ lines, l.Reads st layout names) :
    ∃ ps, Scans (lines.flatMap Line.render) ps ∧ ∀ define scope, scope.Binds layout names →
      Yields st define scope ps { scope with pad := lines.foldl Line.padAfter scope.pad }
        (gather? (Line.readBack? st.encoding names) lines) := by
  induction lines with
  | nil => exact ⟨[], Scans.nil, fun define scope _ => (Executes.nil scope).yields⟩
  | cons l lines ih =>
    obtain ⟨ps, hps, hl⟩ := hlines l List.mem_cons_self
    obtain ⟨qs, hqs, hrest⟩ := ih fun k hk => hlines k (List.mem_cons_of_mem _ hk)
    refine ⟨ps ++ qs, hps.append hqs, fun define scope hscope => ?_⟩
    have hnext : Scope.Binds layout names { scope with pad := l.padAfter scope.pad } :=
      ⟨hscope.widths, hscope.values⟩
    exact (hl define scope hscope).append (hrest define _ hnext)

end Reading

end ByteScript
