import ByteScript.Proofs.Encoding.Faithful
import ByteScript.Proofs.Listing.TrailerReading

/-!
# Compiling a listing after its header

The header of a layout and a listing under it are one script. Where every printed name has the
width of its literal, every text encodes to the bytes that it was decoded from and no byte is left
over, the script gives the binary back; what it gives otherwise is said exactly.

* `reads_of_decompile`, `exists_script`: the pieces of header and lines;
* `readBack_eq_block_iff`, `readBack_eq_block`: a line is read back as its bytes if the widths
  agree;
* `IsLineOf.recode?_eq_block`, `recode?_eq_block`: so it is if its text encodes back;
* **`compile_listing`**: the binary comes back exactly if its texts, encoded again, do;
* **`compile_listing_of_defines`**: what the names of values do to it;
* **`compile_listing_of_leftover`**: what bytes left over do to it.
-/

namespace ByteScript

/-- The width that is active after the lines of a listing. -/
def Listing.lastWidth (st : Settings) (l : Listing) : Option Nat :=
  l.lines.foldl Line.padAfter st.padWidth

theorem Layout.hasPlainDefines_of_nil {layout : Layout} (h : layout.defines = []) :
    layout.HasPlainDefines := by
  constructor <;> rw [h] <;> simp

section Script

variable {st : Settings} {layout : Layout} {bs : Bytes} {l : Listing}

/-- A name is bound to what its key compiles to. -/
theorem exists_lookup_bindings (hkeys : ∀ e ∈ layout.defines, ∃ v, compile st e.1 = .ok v) :
    ∀ e ∈ layout.defines, ∃ v, (bindings st layout).lookup e.2 = some v := by
  intro e he
  obtain ⟨v, hv⟩ := hkeys e he
  cases hlook : (bindings st layout).lookup e.2 with
  | some w => exact ⟨w, rfl⟩
  | none =>
    rw [List.lookup_eq_none_iff] at hlook
    have := hlook _ (mem_bindings.mpr ⟨e, he, rfl, hv⟩)
    rw [bne_self_eq_false] at this
    cases this

/-- Every line of a listing reads after the header. -/
theorem reads_of_decompile (hsizes : layout.HasPlainSizes) (hwidths : layout.HasWritableWidths)
    (hdefines : layout.HasPlainDefines) (hkeys : ∀ e ∈ layout.defines, ∃ v, compile st e.1 = .ok v)
    (hlisting : decompile st layout bs = .ok l) :
    ∀ line ∈ l.lines, line.Reads st layout (bindings st layout) := fun line hline =>
  ((covers_decompile hlisting).1.isLine line hline).reads hsizes hwidths
    (isIdentifier_of_mem_bindings st hdefines) (exists_lookup_bindings hkeys)

/-- The header and the lines of a listing as one part of a script. -/
theorem exists_script (hsizes : layout.HasPlainSizes) (hwidths : layout.HasWritableWidths)
    (hdefines : layout.HasPlainDefines) (hdepth : layout.defines ≠ [] → 1 ≤ st.maxDepth)
    (hkeys : ∀ e ∈ layout.defines, ∃ v, compile st e.1 = .ok v)
    (hlisting : decompile st layout bs = .ok l) :
    ∃ ps scope, Scans (header layout ++ l.body) ps ∧ scope.pad = l.lastWidth st ∧
      Yields st (defineWithin st st.maxDepth) (Scope.root st) ps scope
        (gather? (Line.readBack? st.encoding (bindings st layout)) l.lines) := by
  obtain ⟨ps, scope, hps, hscope, hpad, hheader⟩ := exists_header hsizes hdefines hdepth hkeys
  obtain ⟨qs, hqs, hbody⟩ :=
    exists_body (reads_of_decompile hsizes hwidths hdefines hkeys hlisting)
  refine ⟨ps ++ qs, _, hps.append hqs, ?_, hheader.append_yields (hbody _ scope hscope)⟩
  rw [Listing.lastWidth, ← hpad]

/-- **A line is read back as its bytes** where its name, if it is one, has as many. -/
theorem readBack_eq_block_iff (hdefines : layout.HasPlainDefines) {line : Line}
    (hline : IsLineOf st layout line.block line.text) :
    line.readBack (bindings st layout) = line.block ↔
      (line.readBack (bindings st layout)).length = line.block.length := by
  refine ⟨congrArg List.length, fun hlen => ?_⟩
  cases hlook : (bindings st layout).lookup line.text with
  | none => rw [Line.readBack, hlook, Option.getD_none]
  | some v =>
    obtain ⟨e, he, hname, hv⟩ := mem_bindings.mp (mem_of_lookup hlook)
    have hstart := (hdefines.name e he).1
    rw [Line.readBack, hlook, Option.getD_some] at hlen ⊢
    rw [hname] at hstart
    rcases hline.cases with ⟨f, s, hs, _⟩ | ⟨d, hd, hvalue, hs⟩ | ⟨_, t, _, _, _, hs⟩
    · rw [hs] at hstart
      cases hstart
    · obtain rfl := List.inj_on_of_nodup_map hdefines.nodup he hd (hname.trans hs)
      have hlit := hdefines.key e he
      exact eq_of_hasValue hlit hvalue ((compile_literal_eq_ok_iff hlit).mp hv) hlen
    · rw [hs, any_isNameStart_of_isQuote (any_isQuote_quote t)] at hstart
      cases hstart

/-- Every line is read back as its bytes where names are printed at the widths of their literals. -/
theorem readBack_eq_block (hdefines : layout.HasPlainDefines)
    (hlisting : decompile st layout bs = .ok l)
    (hnames : ∀ line ∈ l.lines, ∀ e ∈ layout.defines, line.text = e.2 →
      ∀ v, compile st e.1 = .ok v → v.length = line.block.length) :
    ∀ line ∈ l.lines, line.readBack (bindings st layout) = line.block := by
  intro line hline
  rw [readBack_eq_block_iff hdefines ((covers_decompile hlisting).1.isLine line hline)]
  cases hlook : (bindings st layout).lookup line.text with
  | none => rw [Line.readBack, hlook, Option.getD_none]
  | some v =>
    obtain ⟨e, he, hname, hv⟩ := mem_bindings.mp (mem_of_lookup hlook)
    rw [Line.readBack, hlook, Option.getD_some]
    exact hnames line hline e he hname.symm v hv

/-- **A line has its own bytes again once its text is encoded**, if that gives back what it was
decoded from. -/
theorem IsLineOf.recode?_eq_block (hdefines : layout.HasPlainDefines) {line : Line}
    (htext : ∀ f t, layout.Uses f → f.format = .text → st.encoding.decode? line.block = some t →
      st.encoding.encode? t = some line.block)
    (hline : IsLineOf st layout line.block line.text) :
    line.recode? st.encoding = some line.block := by
  obtain ⟨depth, b, s⟩ := line
  rcases hline.cases with ⟨f, literal, hs, _⟩ | ⟨e, he, _, hs⟩ | ⟨f, t, hf, hformat, hdecode, hs⟩
  all_goals
    dsimp only at hs
    subst hs
  · rfl
  · exact recode?_of_isNameStart (hdefines.name e he).1
  · rw [recode?_quote hdecode]
    exact htext f t hf hformat hdecode

/-- Every line of a listing has its own bytes again in an encoding that gives decoded bytes back. -/
theorem recode?_eq_block (hfaithful : st.encoding.IsFaithful) (hdefines : layout.HasPlainDefines)
    (hlisting : decompile st layout bs = .ok l) :
    ∀ line ∈ l.lines, line.recode? st.encoding = some line.block := fun line hline =>
  ((covers_decompile hlisting).1.isLine line hline).recode?_eq_block hdefines
    fun _ _ _ _ => hfaithful _ _

/-- Names at the widths of their literals change nothing of what a line is read back as. -/
theorem readBack?_eq_recode? (hdefines : layout.HasPlainDefines)
    (hlisting : decompile st layout bs = .ok l)
    (hnames : ∀ line ∈ l.lines, ∀ e ∈ layout.defines, line.text = e.2 →
      ∀ v, compile st e.1 = .ok v → v.length = line.block.length) :
    ∀ line ∈ l.lines,
      line.readBack? st.encoding (bindings st layout) = line.recode? st.encoding := by
  intro line hline
  have hback := readBack_eq_block hdefines hlisting hnames line hline
  cases hlook : (bindings st layout).lookup line.text with
  | none => rw [Line.readBack?, hlook, Option.none_or]
  | some v =>
    rw [Line.readBack, hlook, Option.getD_some] at hback
    have hident := isIdentifier_of_mem_bindings st hdefines _ (mem_of_lookup hlook)
    rw [Line.readBack?, hlook, Option.some_or, hback, recode?_of_isNameStart hident.1]

/-- A line with its own bytes again is read back by its name alone. -/
theorem Line.readBack?_of_recode? {e : Encoding} {line : Line} (h : line.recode? e = some line.block)
    (names : List (Text × Bytes)) : line.readBack? e names = some (line.readBack names) := by
  rw [Line.readBack?, Line.readBack, h]
  cases names.lookup line.text <;> rfl

theorem text_eq_body (hlisting : decompile st layout bs = .ok l) (hall : l.consumed = bs.length) :
    l.text = l.body := by
  have hleft := (covers_decompile hlisting).2
  rw [hall, List.drop_length] at hleft
  exact if_pos hleft

theorem blocks_eq (hlisting : decompile st layout bs = .ok l) :
    l.lines.flatMap Line.block = bs.take l.consumed := (covers_decompile hlisting).1.blocks

/-! ## Listings without bytes left over -/

/-- The lines of a listing compile, after the header, to what they are read back as. -/
theorem toOption_compile_body (hsizes : layout.HasPlainSizes) (hwidths : layout.HasWritableWidths)
    (hdefines : layout.HasPlainDefines) (hdepth : layout.defines ≠ [] → 1 ≤ st.maxDepth)
    (hkeys : ∀ e ∈ layout.defines, ∃ v, compile st e.1 = .ok v)
    (hlisting : decompile st layout bs = .ok l) :
    (compile st (header layout ++ l.body)).toOption =
      gather? (Line.readBack? st.encoding (bindings st layout)) l.lines := by
  obtain ⟨ps, scope, hps, _, hyields⟩ :=
    exists_script hsizes hwidths hdefines hdepth hkeys hlisting
  rw [compile, compileWithin_eq]
  exact toOption_runScript hps hyields

/-- **A binary comes back from its listing exactly if its texts, encoded again, give it back**, and
so always in an encoding that gives decoded bytes back. The layout is any one whose names of widths
are plain, whose hexadecimal and binary fields can be written, and whose names of values are printed
at the widths of their literals; the binary is any one that it describes in full. -/
theorem compile_listing (hsizes : layout.HasPlainSizes) (hdefines : layout.HasPlainDefines)
    (hdepth : layout.defines ≠ [] → 1 ≤ st.maxDepth)
    (hkeys : ∀ e ∈ layout.defines, ∃ v, compile st e.1 = .ok v)
    (hwidths : layout.HasWritableWidths) (hlisting : decompile st layout bs = .ok l)
    (hall : l.consumed = bs.length)
    (hnames : ∀ line ∈ l.lines, ∀ e ∈ layout.defines, line.text = e.2 →
      ∀ v, compile st e.1 = .ok v → v.length = line.block.length) :
    (compile st (header layout ++ l.text) = .ok bs ↔
      gather? (Line.recode? st.encoding) l.lines = some bs) ∧
    (st.encoding.IsFaithful → compile st (header layout ++ l.text) = .ok bs) := by
  have hcompile : (compile st (header layout ++ l.text)).toOption =
      gather? (Line.recode? st.encoding) l.lines := by
    rw [text_eq_body hlisting hall,
      toOption_compile_body hsizes hwidths hdefines hdepth hkeys hlisting]
    exact gather?_congr (readBack?_eq_recode? hdefines hlisting hnames)
  rw [← toOption_eq_some_iff, hcompile]
  refine ⟨Iff.rfl, fun hfaithful => ?_⟩
  rw [gather?_eq_some (recode?_eq_block hfaithful hdefines hlisting), blocks_eq hlisting, hall,
    List.take_length]

/-- A count by its name, as many bytes, a structure and a text. -/
def recordLayout : Layout where
  format := .lines ["[kind]! $n [byte:$n]h".toList, "[point] [3]s".toList]
  sizes := [("kind".toList, 4)]
  structs := [("point".toList, .lines ["[short:2] [4]f [2]b".toList])]
  defines := [("#10".toList, "SIXTEEN".toList), ("+2".toList, "TWO".toList)]

/-- The lines of a record. -/
def recordListing : Listing where
  lines := [⟨0, [0, 0, 0, 2], "TWO".toList⟩, ⟨0, [255], "[byte] #ff".toList⟩,
    ⟨0, [254], "[byte] #fe".toList⟩, ⟨1, [1, 2], "[short] +258".toList⟩,
    ⟨1, [255, 255], "[short] -1".toList⟩, ⟨1, [63, 128, 0, 0], "[4] 1.0".toList⟩,
    ⟨1, [5, 6], "[2] 0000010100000110".toList⟩, ⟨0, [104, 39, 10], "\"h'\\n\"".toList⟩]
  consumed := 19
  leftover := []

theorem recordLayout_hasPlainDefines : recordLayout.HasPlainDefines where
  key := by
    simp only [recordLayout, List.forall_mem_cons, List.not_mem_nil, false_implies, implies_true,
      and_true]
    exact ⟨.hex (by decide) (List.all_eq_true.mp (by decide)), .signed (Or.inl rfl) (by decide)⟩
  name := by decide
  nodup := by decide

/-- A record comes back. -/
theorem compile_listing_record : compile {} (header recordLayout ++ recordListing.text) =
    .ok [0, 0, 0, 2, 255, 254, 1, 2, 255, 255, 63, 128, 0, 0, 5, 6, 104, 39, 10] := by
  have hkeys : ∀ e ∈ recordLayout.defines, (compile {} e.1).isOk = true := by decide +kernel
  have hnames : ∀ line ∈ recordListing.lines, ∀ e ∈ recordLayout.defines, line.text = e.2 →
      (compile {} e.1).toOption.all (fun v => v.length == line.block.length) = true := by
    decide +kernel
  refine (compile_listing (by decide) recordLayout_hasPlainDefines (fun _ => by decide)
    (fun e he => exists_of_isOk (hkeys e he))
    (Layout.hasWritableWidths_of_fields (by decide +kernel)) (by decide +kernel) rfl ?_).2
    (Encoding.isFaithful_of_mem List.mem_cons_self)
  intro line hline e he htext v hv
  have hlen := hnames line hline e he htext
  rw [hv] at hlen
  exact beq_iff_eq.mp hlen

/-- A text of two bytes. -/
def textLayout : Layout where
  format := .lines ["[2]s".toList]

/-- **A text with another form does not come back.** -/
theorem not_compile_listing : ¬ ∀ (c : Config) (st : Settings) (layout : Layout) (bs : Bytes)
    (l : Listing), c.settings = .ok st →
    layout.HasPlainSizes → layout.HasPlainDefines → (layout.defines ≠ [] → 1 ≤ st.maxDepth) →
    (∀ e ∈ layout.defines, ∃ v, compile st e.1 = .ok v) → layout.HasWritableWidths →
    decompile st layout bs = .ok l → l.consumed = bs.length →
    (∀ line ∈ l.lines, ∀ e ∈ layout.defines, line.text = e.2 →
      ∀ v, compile st e.1 = .ok v → v.length = line.block.length) →
    compile st (header layout ++ l.text) = .ok bs := by
  intro h
  have hnone : ∀ {p : Text × Text → Prop}, ∀ e ∈ textLayout.defines, p e := fun e he =>
    absurd he List.not_mem_nil
  have hwrong := h { textEncoding := "shift_jis".toList } { encoding := .shiftJis } textLayout
    [0xfa, 0x54] ⟨[⟨0, [0xfa, 0x54], "'￢'".toList⟩], 2, []⟩ rfl (by decide)
    (Layout.hasPlainDefines_of_nil rfl) (fun hne => absurd rfl hne) hnone
    (Layout.hasWritableWidths_of_fields (by decide +kernel)) (by decide +kernel) rfl
    (fun _ _ => hnone)
  exact absurd hwrong (by decide +kernel)

/-! ## Names of values -/

theorem uses_of_fixed (hfields : ∀ f ∈ layout.format.fields,
    ∃ n, resolveWidth layout f = .ok (.fixed n)) {f : Field} (h : layout.Uses f) :
    f ∈ layout.format.fields := by
  induction h with
  | format hf => exact hf
  | struct _ hwidth _ ih =>
    obtain ⟨n, hn⟩ := hfields _ ih
    rw [hn] at hwidth
    cases hwidth
  | case _ hwidth _ _ ih =>
    obtain ⟨n, hn⟩ := hfields _ ih
    rw [hn] at hwidth
    cases hwidth

/-- **A listing of values by name** compiles to its binary exactly if every key compiles and what
the lines are read back as is the binary; a name is read back as the bytes it was printed for
exactly where its key compiles to as many. -/
theorem compile_listing_of_defines (hdepth : 1 ≤ st.maxDepth) (hsizes : layout.HasPlainSizes)
    (hdefines : layout.HasPlainDefines)
    (hfields : ∀ f ∈ layout.format.fields, f.format = .define ∧
      ∃ n, 1 ≤ n ∧ n ≤ 16 ∧ resolveWidth layout f = .ok (.fixed n))
    (hlisting : decompile st layout bs = .ok l) (hall : l.consumed = bs.length) :
    (compile st (header layout ++ l.text) = .ok bs ↔
      (∀ e ∈ layout.defines, ∃ v, compile st e.1 = .ok v) ∧
        l.lines.flatMap (Line.readBack (bindings st layout)) = bs) ∧
    ∀ line ∈ l.lines, line.readBack (bindings st layout) = line.block ↔
      (line.readBack (bindings st layout)).length = line.block.length := by
  have hformat : ∀ f, layout.Uses f → f.format = .define := fun f hf =>
    (hfields f (uses_of_fixed (fun g hg => ⟨_, (hfields g hg).2.choose_spec.2.2⟩) hf)).1
  have hwidths : layout.HasWritableWidths := by
    intro f n hf _
    rw [hformat f hf]
    exact ⟨nofun, nofun⟩
  -- no line quotes a text
  have hback : gather? (Line.readBack? st.encoding (bindings st layout)) l.lines =
      some (l.lines.flatMap (Line.readBack (bindings st layout))) :=
    gather?_eq_some fun line hline => Line.readBack?_of_recode?
      (((covers_decompile hlisting).1.isLine line hline).recode?_eq_block hdefines
        fun f t hf htext => nomatch (hformat f hf).symm.trans htext) _
  have htext := text_eq_body hlisting hall
  refine ⟨⟨fun h => ?_, fun h => ?_⟩, fun line hline =>
    readBack_eq_block_iff hdefines ((covers_decompile hlisting).1.isLine line hline)⟩
  · have hkeys : ∀ e ∈ layout.defines, ∃ v, compile st e.1 = .ok v := by
      rw [header_eq hdefines, List.append_assoc] at h
      exact exists_compile_key hdefines h
    rw [htext, ← toOption_eq_some_iff,
      toOption_compile_body hsizes hwidths hdefines (fun _ => hdepth) hkeys hlisting, hback] at h
    exact ⟨hkeys, Option.some.inj h⟩
  · obtain ⟨hkeys, hbytes⟩ := h
    rw [htext, ← toOption_eq_some_iff,
      toOption_compile_body hsizes hwidths hdefines (fun _ => hdepth) hkeys hlisting, hback, hbytes]

/-- Values by name. -/
def namesLayout (format : Text) (defines : List (Text × Text)) (h : IsDictionary defines) :
    Layout where
  format := .lines [format]
  defines := defines
  defines_dictionary := h

/-- A value of four bytes and one of a single byte. -/
def narrowLayout : Layout :=
  namesLayout "[4]! [1]!".toList [("+1".toList, "ONE".toList)] (by decide)

theorem narrowLayout_hasPlainDefines : narrowLayout.HasPlainDefines where
  key := by
    simp only [narrowLayout, namesLayout, List.forall_mem_cons, List.not_mem_nil, false_implies,
      implies_true, and_true]
    exact .signed (Or.inl rfl) (by decide)
  name := by decide
  nodup := by decide

theorem narrowLayout_fields : ∀ f ∈ narrowLayout.format.fields, f.format = .define ∧
    ∃ n, 1 ≤ n ∧ n ≤ 16 ∧ resolveWidth narrowLayout f = .ok (.fixed n) := by
  have hfields : narrowLayout.format.fields =
      [⟨"4".toList, .once, .define, none⟩, ⟨"1".toList, .once, .define, none⟩] := by
    decide +kernel
  rw [hfields]
  simp only [List.forall_mem_cons, List.not_mem_nil, false_implies, implies_true, and_true,
    true_and]
  exact ⟨⟨4, by decide, by decide, by decide +kernel⟩, ⟨1, by decide, by decide, by decide +kernel⟩⟩

/-- A name at the width of its literal comes back. -/
theorem compile_listing_of_defines_wide :
    compile {} (header narrowLayout ++ "ONE\n[1] +7\n".toList) = .ok [0, 0, 0, 1, 7] := by
  have hkeys : ∀ e ∈ narrowLayout.defines, (compile {} e.1).isOk = true := by decide +kernel
  have hlisting : decompile {} narrowLayout [0, 0, 0, 1, 7] =
      .ok ⟨[⟨0, [0, 0, 0, 1], "ONE".toList⟩, ⟨0, [7], "[1] +7".toList⟩], 5, []⟩ := by
    decide +kernel
  exact (compile_listing_of_defines (by decide) (by decide) narrowLayout_hasPlainDefines
    narrowLayout_fields hlisting rfl).1.mpr
    ⟨fun e he => exists_of_isOk (hkeys e he), by decide +kernel⟩

/-- **A name at another width than that of its literal does not come back.** -/
theorem not_compile_listing_of_defines : ¬ ∀ (st : Settings) (layout : Layout) (bs : Bytes)
    (l : Listing), 1 ≤ st.maxDepth → layout.HasPlainSizes → layout.HasPlainDefines →
    (∀ f ∈ layout.format.fields, f.format = .define ∧
      ∃ n, 1 ≤ n ∧ n ≤ 16 ∧ resolveWidth layout f = .ok (.fixed n)) →
    decompile st layout bs = .ok l → l.consumed = bs.length →
    compile st (header layout ++ l.text) = .ok bs := by
  intro h
  have hwrong := h {} narrowLayout [0, 0, 0, 1, 1] ⟨[⟨0, [0, 0, 0, 1], "ONE".toList⟩,
    ⟨0, [1], "ONE".toList⟩], 5, []⟩ (by decide) (by decide) narrowLayout_hasPlainDefines
    narrowLayout_fields (by decide +kernel) rfl
  exact absurd hwrong (by decide +kernel)

/-! ## Bytes left over -/

/-- **A listing with bytes left over**, of a layout without names of values and with texts that
encode back, compiles to its binary exactly if there are none or the width after its lines is one or
not set. -/
theorem compile_listing_of_leftover (hsizes : layout.HasPlainSizes) (hnone : layout.defines = [])
    (hwidths : layout.HasWritableWidths) (hlisting : decompile st layout bs = .ok l)
    (htexts : ∀ line ∈ l.lines, line.recode? st.encoding = some line.block) :
    compile st (header layout ++ l.text) = .ok bs ↔
      l.leftover = [] ∨ l.lastWidth st = none ∨ l.lastWidth st = some 1 := by
  have hdefines := Layout.hasPlainDefines_of_nil hnone
  have hempty : bindings st layout = [] := by
    rw [bindings, hnone]
    rfl
  have hback : gather? (Line.readBack? st.encoding (bindings st layout)) l.lines =
      some (bs.take l.consumed) := by
    rw [← blocks_eq hlisting, hempty]
    exact gather?_eq_some htexts
  have hleft := (covers_decompile hlisting).2
  obtain ⟨ps, scope, hps, hpad, hyields⟩ := exists_script hsizes hwidths hdefines
    (fun h => absurd hnone h) (fun e he => absurd (hnone ▸ he) List.not_mem_nil) hlisting
  rw [hback] at hyields
  have hexec := hyields.executes
  have hbytes : bs.take l.consumed ++ l.leftover = bs := by
    rw [hleft, List.take_append_drop]
  by_cases hnil : l.leftover = []
  · refine iff_of_true ?_ (Or.inl hnil)
    have htext : l.text = l.body := if_pos hnil
    rw [hnil, List.append_nil] at hbytes
    rw [htext, compile, compileWithin_eq, runScript_eq hps hexec, hbytes]
  · have htext : l.text = l.body ++ '\n' :: trailer l.leftover := if_neg hnil
    have htrailer := compile_trailer_eq_ok_iff l.leftover hps hexec
    rw [hbytes, hpad] at htrailer
    rw [htext, ← List.append_assoc]
    exact htrailer

/-- One field in hexadecimal. -/
def hexLayout (width : Text) : Layout where
  format := .lines ['[' :: width ++ "]h".toList]

/-- A byte left over after a single byte comes back. -/
theorem compile_listing_of_leftover_byte :
    compile {} (header (hexLayout "1".toList) ++ "[1] #05\n\n#c".toList) = .ok [5, 12] := by
  have hlisting : decompile {} (hexLayout "1".toList) [5, 12] =
      .ok ⟨[⟨0, [5], "[1] #05".toList⟩], 1, [12]⟩ := by decide +kernel
  exact (compile_listing_of_leftover (by decide) rfl
    (Layout.hasWritableWidths_of_fields (by decide +kernel)) hlisting (by decide +kernel)).mpr
    (Or.inr (Or.inr rfl))

/-- **Bytes left over after a wider field do not come back.** -/
theorem not_compile_listing_of_leftover : ¬ ∀ (st : Settings) (layout : Layout) (bs : Bytes)
    (l : Listing), layout.HasPlainSizes → layout.defines = [] → layout.HasWritableWidths →
    decompile st layout bs = .ok l → compile st (header layout ++ l.text) = .ok bs := by
  intro h
  have hwrong := h {} (hexLayout "2".toList) [1, 2, 12] ⟨[⟨0, [1, 2], "[2] #0102".toList⟩], 2, [12]⟩
    (by decide) rfl (Layout.hasWritableWidths_of_fields (by decide +kernel)) (by decide +kernel)
  exact absurd hwrong (by decide +kernel)

end Script

end ByteScript
