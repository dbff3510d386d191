import ByteScript.Proofs.CommandLine.Isolation
import ByteScript.Proofs.Listing.RoundTrip

/-!
# Compiling what a run lists

A run that lists files prints the header of the layout and the listings of the files, one after
another. As one script they give the files one after another, with their texts encoded again: the
listing of a file leaves an active width behind and nothing else, and every line of the next one
that needs a width sets it.

* `Layout.ReadsBack`, `ListsInFull`: the conditions on a layout, a file and its listing;
* `exists_bodies`, **`toOption_compile_listings`**, `gather?_recode?`: several listings after a
  header;
* `listedLines`, `exists_listings`: the lines of several files; `Outcome.ofBytes`, `listFiles_eq`,
  `compileFiles_eq`: what the runs print and write;
* **`run_listed`**: the run that compiles what another one has printed.
-/

namespace ByteScript

/-! ## Several listings -/

/-- Listings by the layout read back: its names of widths are plain, its hexadecimal and binary
fields can be written, and its names of values have literals that compile. -/
structure Layout.ReadsBack (st : Settings) (layout : Layout) : Prop where
  sizes : layout.HasPlainSizes
  widths : layout.HasWritableWidths
  defines : layout.HasPlainDefines
  depth : layout.defines ≠ [] → 1 ≤ st.maxDepth
  keys : ∀ e ∈ layout.defines, ∃ v, compile st e.1 = .ok v

/-- The listing of the bytes leaves none of them over and has names of values only at the widths of
their literals. -/
structure ListsInFull (st : Settings) (layout : Layout) (bs : Bytes) (l : Listing) : Prop where
  listing : decompile st layout bs = .ok l
  consumed : l.consumed = bs.length
  names : ∀ line ∈ l.lines, ∀ e ∈ layout.defines, line.text = e.2 →
    ∀ v, compile st e.1 = .ok v → v.length = line.block.length

theorem ListsInFull.blocks {st : Settings} {layout : Layout} {bs : Bytes} {l : Listing}
    (h : ListsInFull st layout bs l) : l.lines.flatMap Line.block = bs := by
  rw [blocks_eq h.listing, h.consumed, List.take_length]

section Bodies

variable {st : Settings} {layout : Layout} {names : List (Text × Bytes)} {ls : List Listing}

/-- **Listings one after another as script**: what their lines are read back as, whatever width a
listing leaves to the next. -/
theorem exists_bodies (hlines : ∀ l ∈ ls, ∀ line ∈ l.lines, line.Reads st layout names) :
    ∃ ps, Scans (ls.flatMap fun l => l.body ++ ['\n']) ps ∧
      ∀ define scope, scope.Binds layout names → ∃ pad, Yields st define scope ps { scope with pad }
        (gather? (Line.readBack? st.encoding names) (ls.flatMap Listing.lines)) := by
  induction ls with
  | nil => exact ⟨[], Scans.nil, fun define scope _ => ⟨scope.pad, (Executes.nil scope).yields⟩⟩
  | cons l ls ih =>
    obtain ⟨ps, hps, hbody⟩ := exists_body (hlines l List.mem_cons_self)
    obtain ⟨qs, hqs, hrest⟩ := ih fun k hk => hlines k (List.mem_cons_of_mem _ hk)
    have hline := hps.append (Scans.blank (c := '\n') (by decide))
    rw [List.append_nil] at hline
    refine ⟨ps ++ qs, hline.append hqs, fun define scope hscope => ?_⟩
    have hnext : Scope.Binds layout names
        { scope with pad := l.lines.foldl Line.padAfter scope.pad } :=
      ⟨hscope.widths, hscope.values⟩
    obtain ⟨pad, hpad⟩ := hrest define _ hnext
    rw [List.flatMap_cons, gather?_append]
    exact ⟨pad, (hbody define scope hscope).append hpad⟩

/-- **Listings one after another compile**, after the header of their layout, to what they list with
the texts encoded again. -/
theorem toOption_compile_listings (h : layout.ReadsBack st)
    (hls : ∀ l ∈ ls, ∃ bs, ListsInFull st layout bs l) :
    (compile st (header layout ++ '\n' :: ls.flatMap fun l => l.text ++ ['\n'])).toOption =
      gather? (Line.recode? st.encoding) (ls.flatMap Listing.lines) := by
  obtain ⟨ps, scope, hps, hscope, -, hheader⟩ := exists_header h.sizes h.defines h.depth h.keys
  obtain ⟨qs, hqs, hbodies⟩ := exists_bodies fun l hl => by
    obtain ⟨bs, hbs⟩ := hls l hl
    exact reads_of_decompile h.sizes h.widths h.defines h.keys hbs.listing
  obtain ⟨pad, hyields⟩ := hbodies (defineWithin st st.maxDepth) scope hscope
  have htext : (ls.flatMap fun l => l.text ++ ['\n']) = ls.flatMap fun l => l.body ++ ['\n'] :=
    List.flatMap_congr fun l hl => by
      obtain ⟨bs, hbs⟩ := hls l hl
      rw [text_eq_body hbs.listing hbs.consumed]
  have hback : gather? (Line.readBack? st.encoding (bindings st layout)) (ls.flatMap Listing.lines) =
      gather? (Line.recode? st.encoding) (ls.flatMap Listing.lines) :=
    gather?_congr fun line hline => by
      obtain ⟨l, hl, hline⟩ := List.mem_flatMap.mp hline
      obtain ⟨bs, hbs⟩ := hls l hl
      exact readBack?_eq_recode? h.defines hbs.listing hbs.names line hline
  have hscans := hps.append ((Scans.blank (c := '\n') (by decide)).append hqs)
  rw [List.singleton_append] at hscans
  rw [htext, compile, compileWithin_eq, ← hback]
  exact toOption_runScript hscans (hheader.append_yields hyields)

/-- In an encoding that gives decoded bytes back, listings give back what they list. -/
theorem gather?_recode? (h : layout.ReadsBack st) (hfaithful : st.encoding.IsFaithful)
    (hls : ∀ l ∈ ls, ∃ bs, ListsInFull st layout bs l) :
    gather? (Line.recode? st.encoding) (ls.flatMap Listing.lines) =
      some (ls.flatMap fun l => l.lines.flatMap Line.block) := by
  rw [← List.flatMap_assoc]
  refine gather?_eq_some fun line hline => ?_
  obtain ⟨l, hl, hline⟩ := List.mem_flatMap.mp hline
  obtain ⟨bs, hbs⟩ := hls l hl
  exact recode?_eq_block hfaithful h.defines hbs.listing line hline

end Bodies

/-! ## The output of a run -/

/-- What a run leaves behind whose script compiles to these bytes, or does not compile. -/
def Outcome.ofBytes (out : Option Text) : Option Bytes → Outcome
  | none => .failed
  | some bs =>
    match out with
    | some file => { exit := 0, written := some (file, bs) }
    | none => { exit := 0, output := escapedBytes bs ++ ['\n'] }

/-- The lines of the listing of a file, if there is one. -/
def listedLines (st : Settings) (layout : Layout) (contents : Option Bytes) : List Line :=
  match contents.map (decompile st layout) with
  | some (.ok l) => l.lines
  | _ => []

section Output

variable {read : Text → Option Bytes} {find? : Text → Option Encoding} {st : Settings}
  {layout : Layout}

theorem exists_listings {files : List Text}
    (hfiles : ∀ file ∈ files, ∃ bs l, read file = some bs ∧ ListsInFull st layout bs l) :
    ∃ ls : List Listing,
      (files.flatMap fun file => listingPart st layout (read file)) =
        (ls.flatMap fun l => l.text ++ ['\n']) ∧
      (files.flatMap fun file => listedLines st layout (read file)) = ls.flatMap Listing.lines ∧
      (∀ l ∈ ls, ∃ bs, ListsInFull st layout bs l) ∧
      (ls.flatMap fun l => l.lines.flatMap Line.block) =
        files.flatMap fun file => (read file).getD [] := by
  induction files with
  | nil => exact ⟨[], rfl, rfl, fun l hl => absurd hl List.not_mem_nil, rfl⟩
  | cons file files ih =>
    obtain ⟨bs, l, hread, hl⟩ := hfiles file List.mem_cons_self
    obtain ⟨ls, htexts, hlines, hls, hbytes⟩ := ih fun f hf => hfiles f (List.mem_cons_of_mem _ hf)
    have htext : listingPart st layout (read file) = l.text ++ ['\n'] := by
      rw [listingPart, hread, Option.map_some, hl.listing]
    have hline : listedLines st layout (read file) = l.lines := by
      rw [listedLines, hread, Option.map_some, hl.listing]
    refine ⟨l :: ls, ?_, ?_, ?_, ?_⟩
    · rw [List.flatMap_cons, List.flatMap_cons, htext, htexts]
    · rw [List.flatMap_cons, List.flatMap_cons, hline, hlines]
    · rw [List.forall_mem_cons]
      exact ⟨⟨bs, hl⟩, hls⟩
    · rw [List.flatMap_cons, List.flatMap_cons, hbytes, hl.blocks, hread, Option.getD_some]

/-- A run that lists every file prints the header and the listings, and succeeds. -/
theorem listFiles_eq {r : Request} {layoutFile : Text} (hsettings : r.settings find? = .ok st)
    (hlayout : (Request.readText read layoutFile).bind Layout.ofText? = some layout)
    (hfiles : ∀ file ∈ r.files, ∃ bs l, read file = some bs ∧ decompile st layout bs = .ok l) :
    r.listFiles read find? layoutFile =
      { exit := 0
        output := header layout ++
          '\n' :: r.files.flatMap fun file => listingPart st layout (read file) } := by
  have hgood : ∀ file ∈ r.files, (Request.listFile read st layout file).isSome = true :=
    fun file hf => listFile_isSome_iff.mpr (hfiles file hf)
  rw [listFiles_of_ok hsettings hlayout, code_all_eq_zero_iff.mpr hgood]

/-- A run over one script in UTF-8 compiles it. -/
theorem compileFiles_eq {r : Request} {script s : Text} (hsettings : r.settings find? = .ok st)
    (hfiles : r.files = [script]) (hread : read script = Encoding.utf8.encode? s) :
    r.compileFiles read find? = Outcome.ofBytes r.out (compile st s).toOption := by
  have htext := readText_eq hread
  have hsource : r.source read = s := by
    rw [Request.source, hfiles, List.filterMap_cons, htext]
    exact List.append_nil s
  cases hcompile : compile st s with
  | error e =>
    simp only [Request.compileFiles, hsettings, hsource, hcompile]
    rfl
  | ok bs =>
    rw [compileFiles_of_ok hsettings (hsource ▸ hcompile), hfiles, List.all_cons, htext]
    cases r.out <;> rfl

end Output

/-! ## Listing files and compiling the output -/

/-- **The output of a run that lists files, compiled as one script, gives the files with their texts
encoded again**, one after another: a run over the output, in UTF-8, with the same settings writes
these bytes, or prints them in escaped form; it fails if a text has no form. In an encoding that
gives decoded bytes back they are the files' own. -/
theorem run_listed {args args' : List Text} {read read' : Text → Option Bytes}
    {find? : Text → Option Encoding} {help : Text} {r r' : Request} {layoutFile script : Text}
    {layout : Layout} {st : Settings} (hargs : Request.ofArguments args = .ok r)
    (hlist : r.layout = some layoutFile)
    (hlayout : (Request.readText read layoutFile).bind Layout.ofText? = some layout)
    (hsettings : r.settings find? = .ok st) (hreads : layout.ReadsBack st)
    (hfiles : ∀ file ∈ r.files, ∃ bs l, read file = some bs ∧ ListsInFull st layout bs l)
    (hargs' : Request.ofArguments args' = .ok r') (hcompile : r'.layout = none)
    (hsame : r'.encoding = r.encoding ∧ r'.padWidth = r.padWidth ∧ r'.maxDepth = r.maxDepth)
    (hfiles' : r'.files = [script])
    (hread : read' script = Encoding.utf8.encode? (run args read find? help).output) :
    (run args read find? help).exit = 0 ∧
      run args' read' find? help = Outcome.ofBytes r'.out (gather? (Line.recode? st.encoding)
        (r.files.flatMap fun f => listedLines st layout (read f))) ∧
      (st.encoding.IsFaithful → run args' read' find? help =
        Outcome.ofBytes r'.out (some (r.files.flatMap fun f => (read f).getD []))) := by
  obtain ⟨ls, htexts, hlines, hls, hbytes⟩ := exists_listings hfiles
  have hfirst : run args read find? help =
      { exit := 0, output := header layout ++ '\n' :: ls.flatMap fun l => l.text ++ ['\n'] } := by
    rw [run, hargs]
    change r.run read find? = _
    rw [Request.run, hlist, ← htexts]
    refine listFiles_eq hsettings hlayout fun file hf => ?_
    obtain ⟨bs, l, hread, hl⟩ := hfiles file hf
    exact ⟨bs, l, hread, hl.listing⟩
  have hsettings' : r'.settings find? = .ok st := by
    rw [← hsettings, Request.settings, Request.settings, hsame.1, hsame.2.1, hsame.2.2]
  have hsecond : run args' read' find? help = Outcome.ofBytes r'.out
      (gather? (Line.recode? st.encoding) (ls.flatMap Listing.lines)) := by
    rw [hfirst] at hread
    rw [run, hargs', ← toOption_compile_listings hreads hls]
    change r'.run read' find? = _
    rw [Request.run, hcompile]
    exact compileFiles_eq hsettings' hfiles' hread
  rw [hlines]
  refine ⟨by rw [hfirst], hsecond, fun hfaithful => ?_⟩
  rw [hsecond, gather?_recode? hreads hfaithful hls, hbytes]

/-- A record with a name of a value. -/
def firstRecord : Bytes := [0, 0, 0, 2, 255, 254, 1, 2, 255, 255, 63, 128, 0, 0, 5, 6, 104, 39, 10]

/-- A record without one. -/
def secondRecord : Bytes := [0, 0, 0, 1, 7, 0, 1, 0, 2, 0, 0, 0, 0, 0, 1, 97, 98, 99]

/-- A document with the layout of a record. -/
def recordDocument : Text :=
  ("\x7b\"format\": [\"[kind]! $n [byte:$n]h\", \"[point] [3]s\"], \"sizes\": \x7b\"kind\": 4\x7d,"
    ++ " \"structs\": \x7b\"point\": [\"[short:2] [4]f [2]b\"]\x7d,"
    ++ " \"defines\": \x7b\"#10\": \"SIXTEEN\", \"+2\": \"TWO\"\x7d\x7d").toList

/-- The document and the records as files. -/
def recordFiles (file : Text) : Option Bytes :=
  if file = "rules".toList then Encoding.utf8.encode? recordDocument
  else [("a".toList, firstRecord), ("b".toList, secondRecord)].lookup file

/-- A command line that lists the records. -/
def listArguments : List Text := ["-d", "rules", "a", "b"].map String.toList

/-- The file that keeps the output of this command line. -/
def recordListingFile (file : Text) : Option Bytes :=
  if file = "listing".toList then Encoding.utf8.encode? (run listArguments recordFiles).output
  else none

/-- The lines of the second record. -/
def plainListing : Listing where
  lines := [⟨0, [0, 0, 0, 1], "[kind] +1".toList⟩, ⟨0, [7], "[byte] #07".toList⟩,
    ⟨1, [0, 1], "[short] +1".toList⟩, ⟨1, [0, 2], "[short] +2".toList⟩,
    ⟨1, [0, 0, 0, 0], "[4] 0.0".toList⟩, ⟨1, [0, 1], "[2] 0000000000000001".toList⟩,
    ⟨0, [97, 98, 99], "'abc'".toList⟩]
  consumed := 18
  leftover := []

theorem recordLayout_readsBack : recordLayout.ReadsBack {} where
  sizes := by decide
  widths := Layout.hasWritableWidths_of_fields (by decide +kernel)
  defines := recordLayout_hasPlainDefines
  depth _ := by decide
  keys e he := by
    have hkeys : ∀ e ∈ recordLayout.defines, (compile {} e.1).isOk = true := by decide +kernel
    exact exists_of_isOk (hkeys e he)

/-- Names of values at the widths of their literals can be checked one by one. -/
theorem listsInFull_of_all {st : Settings} {layout : Layout} {bs : Bytes} {l : Listing}
    (hlisting : decompile st layout bs = .ok l) (hall : l.consumed = bs.length)
    (hnames : ∀ line ∈ l.lines, ∀ e ∈ layout.defines, line.text = e.2 →
      (compile st e.1).toOption.all (fun v => v.length == line.block.length) = true) :
    ListsInFull st layout bs l where
  listing := hlisting
  consumed := hall
  names line hline e he htext v hv := by
    have hlen := hnames line hline e he htext
    rw [hv] at hlen
    exact beq_iff_eq.mp hlen

/-- Two records are listed, and the output is compiled to a file. -/
theorem run_listed_records :
    (run listArguments recordFiles).exit = 0 ∧
      run (["listing", "-o", "back"].map String.toList) recordListingFile =
        { exit := 0
          written := some ("back".toList, firstRecord ++ secondRecord) } := by
  have hfiles : ∀ file ∈ ["a", "b"].map String.toList, ∃ bs l, recordFiles file = some bs ∧
      ListsInFull {} recordLayout bs l := by
    rw [List.map_cons, List.map_singleton, List.forall_mem_cons, List.forall_mem_singleton]
    exact ⟨⟨firstRecord, recordListing, by decide +kernel,
        listsInFull_of_all (by decide +kernel) rfl (by decide +kernel)⟩,
      ⟨secondRecord, plainListing, by decide +kernel,
        listsInFull_of_all (by decide +kernel) rfl (by decide +kernel)⟩⟩
  have hlayout : (Request.readText recordFiles "rules".toList).bind Layout.ofText? =
      some recordLayout := by
    rw [readText_eq (s := recordDocument) (if_pos rfl), Option.bind_some]
    decide +kernel
  obtain ⟨hexit, -, hrun⟩ := @run_listed listArguments (["listing", "-o", "back"].map String.toList)
    recordFiles recordListingFile Encoding.standard? []
    ⟨["a".toList, "b".toList], none, "UTF-8".toList, 4, 64, some "rules".toList⟩
    ⟨["listing".toList], some "back".toList, "UTF-8".toList, 4, 64, none⟩ "rules".toList
    "listing".toList recordLayout {} (by decide +kernel) rfl hlayout rfl recordLayout_readsBack
    hfiles (by decide +kernel) rfl ⟨rfl, rfl, rfl⟩ rfl (if_pos rfl)
  exact ⟨hexit, (hrun (Encoding.isFaithful_of_mem List.mem_cons_self)).trans (by decide +kernel)⟩

/-- The file of a text layout and one with a sign that has another form. -/
def signFiles (file : Text) : Option Bytes :=
  if file = "rules".toList then Encoding.utf8.encode? "\x7b\"format\": [\"[2]s\"]\x7d".toList
  else [("sign".toList, [0xfa, 0x54])].lookup file

/-- A command line that lists the sign. -/
def signArguments : List Text := ["-d", "rules", "-e", "shift_jis", "sign"].map String.toList

/-- The file that keeps the output of this command line. -/
def signListingFile (file : Text) : Option Bytes :=
  if file = "listing".toList then Encoding.utf8.encode? (run signArguments signFiles).output
  else none

/-- **A file with another form of its text does not come back.** -/
theorem not_run_listed : ¬ ∀ (args args' : List Text) (read read' : Text → Option Bytes)
    (find? : Text → Option Encoding) (r r' : Request) (layoutFile script : Text) (layout : Layout)
    (st : Settings), Request.ofArguments args = .ok r → r.layout = some layoutFile →
    (Request.readText read layoutFile).bind Layout.ofText? = some layout →
    r.settings find? = .ok st → layout.ReadsBack st →
    (∀ file ∈ r.files, ∃ bs l, read file = some bs ∧ ListsInFull st layout bs l) →
    Request.ofArguments args' = .ok r' → r'.layout = none →
    (r'.encoding = r.encoding ∧ r'.padWidth = r.padWidth ∧ r'.maxDepth = r.maxDepth) →
    r'.files = [script] → read' script = Encoding.utf8.encode? (run args read find?).output →
    run args' read' find? =
      Outcome.ofBytes r'.out (some (r.files.flatMap fun f => (read f).getD [])) := by
  intro h
  have hlayout : (Request.readText signFiles "rules".toList).bind Layout.ofText? =
      some textLayout := by
    rw [readText_eq (if_pos rfl), Option.bind_some]
    decide +kernel
  have hnone : ∀ {p : Text × Text → Prop}, ∀ e ∈ textLayout.defines, p e := fun e he =>
    absurd he List.not_mem_nil
  have hreads : textLayout.ReadsBack { encoding := .shiftJis } :=
    ⟨by decide, Layout.hasWritableWidths_of_fields (by decide +kernel),
      Layout.hasPlainDefines_of_nil rfl, fun hne => absurd rfl hne, hnone⟩
  have hsign : ∀ file ∈ ["sign".toList], ∃ bs l, signFiles file = some bs ∧
      ListsInFull { encoding := .shiftJis } textLayout bs l := by
    rw [List.forall_mem_singleton]
    exact ⟨[0xfa, 0x54], ⟨[⟨0, [0xfa, 0x54], "'￢'".toList⟩], 2, []⟩, by decide +kernel,
      by decide +kernel, rfl, fun _ _ => hnone⟩
  have hwrong := h signArguments (["listing", "-e", "shift_jis", "-o", "back"].map String.toList)
    signFiles signListingFile Encoding.standard?
    ⟨["sign".toList], none, "shift_jis".toList, 4, 64, some "rules".toList⟩
    ⟨["listing".toList], some "back".toList, "shift_jis".toList, 4, 64, none⟩ "rules".toList
    "listing".toList textLayout { encoding := .shiftJis } (by decide +kernel) rfl hlayout rfl hreads
    hsign (by decide +kernel) rfl ⟨rfl, rfl, rfl⟩ rfl (if_pos rfl)
  exact absurd hwrong (by decide +kernel)

end ByteScript
