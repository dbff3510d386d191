import Mathlib.Data.List.Nodup
import ByteScript.Proofs.Listing.LineReading

/-!
# The header of a listing as script

The header binds the names of values to what their literals compile to, at the width that a script
starts with, and the names of widths to the widths. A name is printed for all bytes with the value
of its literal, so it stands for them only where the widths agree.

* `IsNumberLiteral`, `literalBytes`: the literals of values and their bytes;
* `compileWithin_literal`: a literal compiles to its bytes at every depth;
* **`eq_of_hasValue`**: bytes with the value of a literal are those of the literal, if the widths
  agree;
* `Layout.HasPlainDefines`, `bindings`: the names of values and what they are bound to;
* **`exists_header`**: the scope after the header;
* `exists_compile_key`: a header that compiles has only keys that compile.
-/

namespace ByteScript

/-! ## Literals of values -/

/-- Digits after a sign, or hexadecimal digits after a number sign. -/
inductive IsNumberLiteral : Text → Prop
  | signed {sign : Char} {digits : Text} (hsign : sign = '+' ∨ sign = '-')
      (hdigits : digits.allDigits = true) : IsNumberLiteral (sign :: digits)
  | hex {digits : Text} (hne : digits ≠ []) (hdigits : ∀ c ∈ digits, isHexDigit c = true) :
      IsNumberLiteral ('#' :: digits)

/-- The bytes of a literal at a width, or at its least one. -/
def literalBytes (pad : Option Nat) (key : Text) : Except CompileFault Bytes :=
  integerBytes pad key (if key.head? = some '#' then 16 else 10) (key.drop 1)
    (key.head? == some '-')

namespace IsNumberLiteral

variable {key : Text}

theorem isLiteralKey (h : IsNumberLiteral key) : isLiteralKey key = true := by
  cases h with
  | signed hsign _ => rcases hsign with rfl | rfl <;> rfl
  | hex _ _ => rfl

theorem not_mem_newline (h : IsNumberLiteral key) : '\n' ∉ key := by
  intro hmem
  cases h with
  | signed hsign hdigits =>
    rcases List.mem_cons.mp hmem with rfl | hmem
    · rcases hsign with h | h <;> cases h
    · exact absurd ((allDigits_iff.mp hdigits).2 _ hmem) (by decide)
  | hex _ hdigits =>
    rcases List.mem_cons.mp hmem with h | hmem
    · cases h
    · exact absurd (hdigits _ hmem) (by decide)

end IsNumberLiteral

section Keys

variable {st : Settings} {define : Nat → Text → Except CompileError Bytes} {key : Text}

theorem runScript_literal (h : IsNumberLiteral key) :
    runScript st define key = (literalBytes st.padWidth key).mapError (CompileError.mk 1) := by
  cases h with
  | @signed sign digits hsign hdigits =>
    have hnext : scriptTable.next (sign :: digits) = (.integer, (sign :: digits).length) := by
      have := next_integer hsign hdigits (r := []) rfl (by decide)
      rw [List.append_nil] at this
      rw [this, List.length_cons, Nat.add_comm]
    have hradix : (if (sign :: digits).head? = some '#' then 16 else 10) = 10 := by
      rcases hsign with rfl | rfl <;> rfl
    rw [runScript_single (List.cons_ne_nil _ _) (by decide) hnext, literalBytes, hradix]
    exact map_snd_map _ _ _
  | @hex digits hne hdigits =>
    have hnext : scriptTable.next ('#' :: digits) = (.hex, ('#' :: digits).length) := by
      have := next_hex hne hdigits (r := []) rfl
      rw [List.append_nil] at this
      rw [this, List.length_cons, Nat.add_comm]
    rw [runScript_single (List.cons_ne_nil _ _) (by decide) hnext]
    exact map_snd_map _ _ _

/-- A literal compiles to its bytes at every depth. -/
theorem compileWithin_literal (h : IsNumberLiteral key) (depth : Nat) :
    compileWithin st depth key = (literalBytes st.padWidth key).mapError (CompileError.mk 1) := by
  rw [compileWithin_eq, runScript_literal h]

theorem compile_literal_eq_ok_iff (h : IsNumberLiteral key) {v : Bytes} :
    compile st key = .ok v ↔ literalBytes st.padWidth key = .ok v := by
  rw [compile, compileWithin_literal h, mapError_eq_ok_iff]

/-- The value of a literal inside a script is the same at every depth that allows definitions. -/
theorem defineWithin_literal_eq_ok_iff (h : IsNumberLiteral key) (hdepth : 1 ≤ st.maxDepth)
    (line : Nat) {v : Bytes} :
    defineWithin st st.maxDepth line key = .ok v ↔ literalBytes st.padWidth key = .ok v := by
  obtain ⟨d, hd⟩ : ∃ d, st.maxDepth = d + 1 := ⟨st.maxDepth - 1, by omega⟩
  rw [hd, defineWithin, compileWithin_literal h, mapError_eq_ok_iff, mapError_eq_ok_iff]

end Keys

/-! ## Values and widths -/

theorem exists_of_integerBytes {pad : Option Nat} {text digits : Text} {radix : Nat}
    {negative : Bool} {v : Bytes} (h : integerBytes pad text radix digits negative = .ok v) :
    ∃ x, SignedMagnitude.read? radix digits negative = some x ∧ x.toBytes? v.length = some v := by
  unfold integerBytes at h
  split at h
  · cases h
  · rename_i x hx
    split at h
    · rename_i bs hbs
      obtain rfl := Except.ok.inj h
      refine ⟨x, hx, ?_⟩
      rw [SignedMagnitude.length_of_toBytes? hbs, hbs]
    · cases h

theorem integer?_plus (bits : Nat) (s : Text) : integer? bits ('+' :: s) =
    ((natural? 10 s).filter (· < Nat.pow 2 (bits - 1))).map fun n : Nat => (n : Int) := rfl

theorem integer?_minus (bits : Nat) (s : Text) : integer? bits ('-' :: s) =
    ((natural? 10 s).filter (· ≤ Nat.pow 2 (bits - 1))).map fun n : Nat => -(n : Int) := rfl

theorem length_of_integerBytes {w : Nat} {text digits : Text} {radix : Nat} {negative : Bool}
    {v : Bytes} (h : integerBytes (some w) text radix digits negative = .ok v) : v.length = w := by
  unfold integerBytes at h
  split at h
  · cases h
  · split at h
    · rename_i bs hbs
      obtain rfl := Except.ok.inj h
      exact SignedMagnitude.length_of_toBytes? hbs
    · cases h

/-- The number that a literal with a sign denotes is the value of what is read from it. -/
theorem value_of_integer? {sign : Char} (hsign : sign = '+' ∨ sign = '-') {digits : Text}
    (hdigits : digits.allDigits = true) {n : Int} (hn : integer? 128 (sign :: digits) = some n) :
    ∃ x, SignedMagnitude.read? 10 digits (sign == '-') = some x ∧ x.IsCanonical ∧ x.value = n := by
  have hnum := isNumeral_of_allDigits hdigits
  have hnat : natural? 10 digits = some (valueOf 10 digits) := if_pos hnum
  have hval : n = (if sign == '-' then -(valueOf 10 digits : Int) else valueOf 10 digits) ∧
      valueOf 10 digits < Nat.pow 2 128 := by
    rcases hsign with rfl | rfl
    · rw [integer?_plus] at hn
      obtain ⟨m, hm, rfl⟩ := Option.map_eq_some_iff.mp hn
      rw [hnat, Option.filter_eq_some_iff] at hm
      obtain ⟨hm, hlt⟩ := hm
      obtain rfl := Option.some.inj hm
      exact ⟨rfl, Nat.lt_trans (of_decide_eq_true hlt) (by decide)⟩
    · rw [integer?_minus] at hn
      obtain ⟨m, hm, rfl⟩ := Option.map_eq_some_iff.mp hn
      rw [hnat, Option.filter_eq_some_iff] at hm
      obtain ⟨hm, hle⟩ := hm
      obtain rfl := Option.some.inj hm
      exact ⟨rfl, Nat.lt_of_le_of_lt (of_decide_eq_true hle) (by decide)⟩
  obtain ⟨hval, hlt⟩ := hval
  obtain ⟨x, hread, hcan, hvalue⟩ :=
    SignedMagnitude.exists_read?_value (by decide) hnum hlt (sign == '-')
  exact ⟨x, hread, hcan, hvalue.trans hval.symm⟩

/-- **Bytes with the value of a literal are those of the literal**, if they are as many. -/
theorem eq_of_hasValue {key : Text} (hkey : IsNumberLiteral key) {bs v : Bytes}
    (hvalue : hasValue bs key = true) {pad : Option Nat} (hbytes : literalBytes pad key = .ok v)
    (hlen : v.length = bs.length) : v = bs := by
  obtain ⟨x, hread, hx⟩ := exists_of_integerBytes hbytes
  rw [hlen] at hx
  suffices hbs : x.toBytes? bs.length = some bs from Option.some.inj (hx.symm.trans hbs)
  cases hkey with
  | @signed sign digits hsign hdigits =>
    have hsigned : (signedValue? bs).any
        (fun n => integer? 128 (sign :: digits) == some n) = true := by
      rcases hsign with rfl | rfl <;> exact hvalue
    have hradix : (if (sign :: digits).head? = some '#' then 16 else 10) = 10 := by
      rcases hsign with rfl | rfl <;> rfl
    rw [hradix] at hread
    obtain ⟨n, hn, hkey⟩ := (Option.any_eq_true _ _).mp hsigned
    obtain ⟨y, hy, hcan, hval⟩ := value_of_integer? hsign hdigits (beq_iff_eq.mp hkey)
    obtain rfl : x = y := by
      have hhead : ((sign :: digits).head? == some '-') = (sign == '-') := rfl
      rw [hhead, List.drop_succ_cons, List.drop_zero, hy] at hread
      exact (Option.some.inj hread).symm
    exact toBytes?_of_signedValue? hn hcan hval
  | @hex digits hne hdigits =>
    obtain ⟨n, hn, hkey⟩ := (Option.any_eq_true _ _).mp hvalue
    have hn' : bs.length ≤ 16 ∧ n = ofBigEndian bs := by
      unfold unsignedValue? at hn
      split at hn
      · exact ⟨by assumption, (Option.some.inj hn).symm⟩
      · cases hn
    have hnum : IsNumeral 16 digits :=
      ⟨hne, fun c hc => digitValue_lt_sixteen_iff.mpr (hdigits c hc)⟩
    have hdigitsval : valueOf 16 digits = ofBigEndian bs := by
      have h := beq_iff_eq.mp hkey
      rw [unsigned?, withoutPlus_of_isNumeral (by decide) hnum, natural?, if_pos hnum,
        Option.filter_eq_some_iff] at h
      rw [Option.some.inj h.1, hn'.2]
    obtain ⟨y, hy, hbytes⟩ := exists_read?_unsigned (by decide) hnum hdigitsval hn'.1
    obtain rfl : x = y := Option.some.inj (hread.symm.trans hy)
    exact hbytes

/-! ## Names of values -/

/-- The keys of a layout are literals, and its names are identifiers, each given once. -/
structure Layout.HasPlainDefines (layout : Layout) : Prop where
  key : ∀ e ∈ layout.defines, IsNumberLiteral e.1
  name : ∀ e ∈ layout.defines, IsIdentifier e.2
  nodup : (layout.defines.map Prod.snd).Nodup

/-- The names of a layout with the bytes that their keys compile to, as far as they do. -/
def bindings (st : Settings) (layout : Layout) : List (Text × Bytes) :=
  layout.defines.filterMap fun e => (compile st e.1).toOption.map (e.2, ·)

theorem mem_bindings {st : Settings} {layout : Layout} {name : Text} {v : Bytes} :
    (name, v) ∈ bindings st layout ↔
      ∃ e ∈ layout.defines, e.2 = name ∧ compile st e.1 = .ok v := by
  rw [bindings, List.mem_filterMap]
  refine exists_congr fun e => and_congr_right fun _ => ?_
  cases compile st e.1 with
  | error e => exact iff_of_false (fun h => by cases h) (fun h => by cases h.2)
  | ok w =>
    change some (e.2, w) = some (name, v) ↔ e.2 = name ∧ Except.ok w = Except.ok v
    rw [Option.some.injEq, Prod.mk.injEq, Except.ok.injEq]

theorem isIdentifier_of_mem_bindings (st : Settings) {layout : Layout}
    (h : layout.HasPlainDefines) : ∀ e ∈ bindings st layout, IsIdentifier e.1 := by
  intro e he
  obtain ⟨d, hd, hname, _⟩ := mem_bindings.mp he
  exact hname ▸ h.name d hd

/-! ## Look-ups -/

theorem lookup_eq_some_iff_mem {α : Type} {es : List (Text × α)} (h : (es.map Prod.fst).Nodup)
    {key : Text} {a : α} : es.lookup key = some a ↔ (key, a) ∈ es := by
  refine ⟨mem_of_lookup, fun hmem => ?_⟩
  induction es with
  | nil => cases hmem
  | cons e es ih =>
    obtain ⟨hnot, hes⟩ := List.nodup_cons.mp h
    rcases List.mem_cons.mp hmem with rfl | hmem
    · exact List.lookup_cons_self
    · have hne : (key == e.1) = false := by
        rw [beq_eq_false_iff_ne]
        rintro rfl
        exact hnot (List.mem_map.mpr ⟨_, hmem, rfl⟩)
      rw [List.lookup_cons, hne]
      exact ih hes hmem

theorem IsDictionary.nodup {α : Type} {es : List (Text × α)} (h : IsDictionary es) :
    (es.map Prod.fst).Nodup := by
  refine List.pairwise_map.mpr (h.imp fun {d e} hlt heq => ?_)
  rw [heq] at hlt
  exact List.lt_irrefl _ hlt

theorem lookup_reverse {α : Type} {es : List (Text × α)} (h : (es.map Prod.fst).Nodup)
    (key : Text) : es.reverse.lookup key = es.lookup key := by
  have hrev : (es.reverse.map Prod.fst).Nodup := by
    rw [List.map_reverse]
    exact List.pairwise_reverse.mpr (h.imp Ne.symm)
  ext a
  rw [lookup_eq_some_iff_mem h, lookup_eq_some_iff_mem hrev, List.mem_reverse]

/-! ## The header -/

/-- The lines that bind names to values. -/
def defineLines (es : List (Text × Text)) : Text :=
  es.flatMap fun e => '$' :: e.2 ++ '=' :: e.1 ++ ['\n']

/-- The lines that bind names to widths. -/
def sizeLines (es : List (Text × Nat)) : Text :=
  es.flatMap fun e => '@' :: e.1 ++ '=' :: decimal e.2 ++ ['\n']

theorem scans_defineLines {es : List (Text × Text)}
    (h : ∀ e ∈ es, IsIdentifier e.2 ∧ '\n' ∉ e.1) :
    Scans (defineLines es) (es.map fun e => (.definition, '$' :: (e.2 ++ '=' :: e.1))) := by
  induction es with
  | nil => exact Scans.nil
  | cons e es ih =>
    obtain ⟨hname, hkey⟩ := h e List.mem_cons_self
    exact (Scans.lexeme (by decide) (isLexeme_definition hname hkey)).append
      (ih fun d hd => h d (List.mem_cons_of_mem _ hd))

theorem scans_sizeLines {es : List (Text × Nat)} (h : ∀ e ∈ es, IsIdentifier e.1) :
    Scans (sizeLines es)
      (es.map fun e => (.sizeDefinition, '@' :: (e.1 ++ '=' :: decimal e.2))) := by
  induction es with
  | nil => exact Scans.nil
  | cons e es ih =>
    have hname := h e List.mem_cons_self
    exact (Scans.lexeme (by decide) (isLexeme_sizeDefinition hname (allDigits_decimal e.2))).append
      (ih fun d hd => h d (List.mem_cons_of_mem _ hd))

section Lines

variable (st : Settings) (define : Nat → Text → Except CompileError Bytes)

theorem executes_defineLines {val : Text → Bytes} {es : List (Text × Text)}
    (h : ∀ e ∈ es, IsIdentifier e.2 ∧ ∀ line, define line e.1 = .ok (val e.1)) (scope : Scope) :
    Executes st define scope (es.map fun e => (.definition, '$' :: (e.2 ++ '=' :: e.1)))
      { scope with symbols := (es.map fun e => (e.2, val e.1)).reverse ++ scope.symbols } [] := by
  induction es generalizing scope with
  | nil => exact Executes.nil scope
  | cons e es ih =>
    obtain ⟨hname, hdefine⟩ := h e List.mem_cons_self
    have hrest := ih fun d hd => h d (List.mem_cons_of_mem _ hd)
    rw [List.map_cons (f := fun e : Text × Text => (e.2, val e.1)), List.reverse_cons,
      List.append_assoc]
    exact (Executes.definition (assignment_eq hname e.1) hdefine).append (hrest _)

/-- The names of widths with their widths, as a script keeps them. -/
def widthEntries (es : List (Text × Nat)) : List (Text × Nat) :=
  (es.map fun e => (e.1.lower, e.2)).reverse

theorem executes_sizeLines {es : List (Text × Nat)}
    (h : ∀ e ∈ es, IsIdentifier e.1 ∧ e.2 < Nat.pow 2 64) (scope : Scope) :
    Executes st define scope
      (es.map fun e => (.sizeDefinition, '@' :: (e.1 ++ '=' :: decimal e.2)))
      { scope with padWidths := widthEntries es ++ scope.padWidths } [] := by
  induction es generalizing scope with
  | nil => exact Executes.nil scope
  | cons e es ih =>
    obtain ⟨hname, hsize⟩ := h e List.mem_cons_self
    have hrest := ih fun d hd => h d (List.mem_cons_of_mem _ hd)
    rw [widthEntries, List.map_cons (f := fun e : Text × Nat => (e.1.lower, e.2)),
      List.reverse_cons, List.append_assoc]
    exact (Executes.sizeDefinition (assignment_eq hname _) (size?_decimal hsize)).append (hrest _)

end Lines

section Header

variable {st : Settings} {layout : Layout}

theorem header_eq (h : layout.HasPlainDefines) :
    header layout = defineLines layout.defines ++ sizeLines layout.sizes := by
  have hfilter : (layout.defines.filter fun e => isLiteralKey e.1) = layout.defines :=
    List.filter_eq_self.mpr fun e he => (h.key e he).isLiteralKey
  rw [header, hfilter]
  rfl

theorem Layout.HasPlainDefines.scans (h : layout.HasPlainDefines) :
    Scans (defineLines layout.defines)
      (layout.defines.map fun e => (.definition, '$' :: (e.2 ++ '=' :: e.1))) :=
  scans_defineLines fun e he => ⟨h.name e he, (h.key e he).not_mem_newline⟩

theorem bindings_eq {val : Text → Bytes}
    (h : ∀ e ∈ layout.defines, compile st e.1 = .ok (val e.1)) :
    bindings st layout = layout.defines.map fun e => (e.2, val e.1) := by
  rw [bindings]
  generalize layout.defines = es at h
  induction es with
  | nil => rfl
  | cons e es ih =>
    rw [List.filterMap_cons, h e List.mem_cons_self, List.map_cons,
      ← ih fun d hd => h d (List.mem_cons_of_mem _ hd)]
    rfl

/-- **The scope after the header** knows the widths and the names of the layout, and the width that
scripts start with is still active. -/
theorem exists_header (hsizes : layout.HasPlainSizes) (hdefines : layout.HasPlainDefines)
    (hdepth : layout.defines ≠ [] → 1 ≤ st.maxDepth)
    (hkeys : ∀ e ∈ layout.defines, ∃ v, compile st e.1 = .ok v) :
    ∃ ps scope, Scans (header layout) ps ∧ scope.Binds layout (bindings st layout) ∧
      scope.pad = st.padWidth ∧
      Executes st (defineWithin st st.maxDepth) (Scope.root st) ps scope [] := by
  let val : Text → Bytes := fun key => (compile st key).toOption.getD []
  have hval : ∀ e ∈ layout.defines, compile st e.1 = .ok (val e.1) := by
    intro e he
    obtain ⟨v, hv⟩ := hkeys e he
    rw [hv]
    exact congrArg Except.ok (by simp only [val, hv]; rfl)
  have hnames := bindings_eq hval
  have hdefine : ∀ e ∈ layout.defines, ∀ line,
      defineWithin st st.maxDepth line e.1 = .ok (val e.1) := by
    intro e he line
    have hlit := hdefines.key e he
    rw [defineWithin_literal_eq_ok_iff hlit (hdepth (List.ne_nil_of_mem he)),
      ← compile_literal_eq_ok_iff hlit]
    exact hval e he
  have hdefined := executes_defineLines st (defineWithin st st.maxDepth)
    (fun e he => ⟨hdefines.name e he, hdefine e he⟩) (Scope.root st)
  have hsized := executes_sizeLines st (defineWithin st st.maxDepth)
    (fun e he => ⟨(hsizes e he).1, layout.sizes_lt e he⟩)
  have hlower : layout.sizes.map (fun e => (e.1.lower, e.2)) = layout.sizes.map id :=
    List.map_congr_left fun e he => Prod.ext (hsizes e he).2.1 rfl
  refine ⟨_, _, ?_, ?_, rfl, hdefined.append (hsized _)⟩
  · rw [header_eq hdefines]
    exact hdefines.scans.append (scans_sizeLines fun e he => (hsizes e he).1)
  · constructor
    · intro name
      change (widthEntries layout.sizes ++ []).lookup name = _
      rw [List.append_nil, widthEntries, hlower, List.map_id,
        lookup_reverse layout.sizes_dictionary.nodup]
    · intro name
      change List.lookup name
        ((layout.defines.map fun e : Text × Text => (e.2, val e.1)).reverse ++ []) = _
      rw [List.append_nil, ← hnames, lookup_reverse]
      rw [hnames, List.map_map]
      exact hdefines.nodup

/-! ## Keys that do not compile -/

/-- Tokens that are read have definitions with values. -/
theorem exists_define_of_exec {define : Nat → Text → Except CompileError Bytes}
    {ts : List (Token ScriptKind)} {scope : Scope} {p : Scope × Bytes}
    (h : scope.exec st define ts = .ok p) {t : Token ScriptKind} (ht : t ∈ ts)
    (hkind : t.kind = .definition) : ∃ v, define t.line (assignment t.text).2 = .ok v := by
  obtain ⟨us, vs, rfl⟩ := List.append_of_mem ht
  obtain ⟨q, r, _, hstep⟩ := exists_step_of_exec h
  rw [Scope.step, hkind] at hstep
  obtain ⟨v, hv, _⟩ := exists_of_bind_eq_ok hstep
  exact ⟨v, hv⟩

/-- A script that compiles and starts with the lines of some names has values for all of them. -/
theorem exists_compile_key (hdefines : layout.HasPlainDefines) {s : Text} {bs : Bytes}
    (h : compile st (defineLines layout.defines ++ s) = .ok bs) :
    ∀ e ∈ layout.defines, ∃ v, compile st e.1 = .ok v := by
  intro e he
  rw [compile, compileWithin_eq] at h
  obtain ⟨tokens, hscan, hrun⟩ := exists_of_bind_eq_ok h
  obtain ⟨ts, hts, hsplit⟩ := hdefines.scans 0 1 s
  rw [scanScript, mapError_eq_ok_iff] at hscan
  obtain ⟨us, _, rfl⟩ := exists_of_map_eq_ok (hsplit.symm.trans hscan)
  have hpiece : (ScriptKind.definition, '$' :: (e.2 ++ '=' :: e.1)) ∈ ts.map Token.piece :=
    hts ▸ List.mem_map_of_mem he
  obtain ⟨t, ht, htpiece⟩ := List.mem_map.mp hpiece
  obtain ⟨hkind, htext⟩ := Prod.mk.inj htpiece
  rw [Scope.run_eq_exec] at hrun
  obtain ⟨p, hexec, _⟩ := exists_of_map_eq_ok hrun
  obtain ⟨v, hv⟩ := exists_define_of_exec hexec (List.mem_append_left us ht) hkind
  rw [htext, assignment_eq (hdefines.name e he)] at hv
  have hlit := hdefines.key e he
  have hpos : 1 ≤ st.maxDepth := by
    cases hd : st.maxDepth with
    | zero =>
      rw [hd] at hv
      cases hv
    | succ d => omega
  exact ⟨v, (compile_literal_eq_ok_iff hlit).mpr
    ((defineWithin_literal_eq_ok_iff hlit hpos _).mp hv)⟩

end Header

end ByteScript
