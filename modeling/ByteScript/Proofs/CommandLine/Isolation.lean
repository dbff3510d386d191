import Mathlib.Data.List.Basic
import ByteScript.CommandLine.Run
import ByteScript.Proofs.Encoding.Inverse

/-!
# Files that fail

A run passes over the files that it cannot read, and a run that lists files passes over those that
the layout does not fit. They show in its exit code only: each of the others adds to the script or
to the list what it would add by itself. A script that does not compile stops the run before it
prints or writes anything.

* `scriptPart`, `listingPart`: what a file adds, by its own contents alone;
* `source_eq_flatMap`, `listings_eq_flatMap`: the script and the list from the parts;
* `readText_isSome_iff`, `listFile_isSome_iff`: the files that do not fail;
* `compileFiles_of_ok`, `listFiles_of_ok`: what the two kinds of run leave behind;
* **`run_isolates`**: every run of a command line.
-/

namespace ByteScript

/-! ## Parts -/

/-- What the contents of a file add to the script: their text, if there is any. -/
def scriptPart (contents : Option Bytes) : Text := (contents.bind Encoding.utf8.decode?).getD []

/-- What the contents of a file add to the list: their listing with a line feed, if there is any. -/
def listingPart (st : Settings) (layout : Layout) (contents : Option Bytes) : Text :=
  match contents.map (decompile st layout) with
  | some (.ok l) => l.text ++ ['\n']
  | _ => []

section Parts

variable {read : Text → Option Bytes} {st : Settings} {layout : Layout}

/-- The script is what the files add to it. -/
theorem source_eq_flatMap (r : Request) :
    r.source read = r.files.flatMap fun file => scriptPart (read file) := by
  rw [Request.source, ← List.flatMap_id, List.filterMap_eq_flatMap_toList, List.flatMap_assoc]
  refine List.flatMap_congr fun file _ => ?_
  rw [scriptPart, ← Request.readText]
  cases Request.readText read file with
  | none => rfl
  | some s => exact List.append_nil s

theorem listFile_eq (file : Text) : Request.listFile read st layout file =
    (read file).bind fun bs => (decompile st layout bs).toOption.map Listing.text := by
  rw [Request.listFile]
  cases read file with
  | none => rfl
  | some bs =>
    change (decompile st layout bs).toOption.bind _ = (decompile st layout bs).toOption.map _
    cases decompile st layout bs <;> rfl

/-- The list is what the files add to it. -/
theorem listings_eq_flatMap (files : List Text) :
    ((files.map (Request.listFile read st layout)).filterMap id).flatMap (fun s => s ++ ['\n']) =
      files.flatMap fun file => listingPart st layout (read file) := by
  rw [List.filterMap_map, List.filterMap_eq_flatMap_toList, List.flatMap_assoc]
  refine List.flatMap_congr fun file _ => ?_
  rw [Function.comp_apply, id_eq, listFile_eq, listingPart]
  cases read file with
  | none => rfl
  | some bs =>
    rw [Option.bind_some, Option.map_some]
    cases decompile st layout bs with
    | error e => rfl
    | ok l => exact List.append_nil _

/-! ## Files that do not fail -/

/-- A file that keeps a text in UTF-8 is read as the text. -/
theorem readText_eq {file s : Text} (hread : read file = Encoding.utf8.encode? s) :
    Request.readText read file = some s := by
  obtain ⟨form, hform⟩ := Encoding.exists_encode?_utf8 s
  rw [Request.readText, hread, hform]
  exact Charset.decode?_of_encode? isReadable_utf8 hform

theorem readText_isSome_iff {file : Text} : (Request.readText read file).isSome = true ↔
    ∃ bs s, read file = some bs ∧ Encoding.utf8.decode? bs = some s := by
  rw [Request.readText, Option.isSome_iff_exists]
  simp only [Option.bind_eq_some_iff]
  exact exists_comm.trans ⟨fun ⟨bs, s, h⟩ => ⟨bs, s, h⟩, fun ⟨bs, s, h⟩ => ⟨bs, s, h⟩⟩

theorem listFile_isSome_iff {file : Text} :
    (Request.listFile read st layout file).isSome = true ↔
      ∃ bs l, read file = some bs ∧ decompile st layout bs = .ok l := by
  rw [listFile_eq]
  cases read file with
  | none => exact iff_of_false Bool.false_ne_true nofun
  | some bs =>
    rw [Option.bind_some]
    cases h : decompile st layout bs with
    | error e =>
      refine iff_of_false Bool.false_ne_true fun ⟨cs, l, hcs, hl⟩ => ?_
      rw [← Option.some.inj hcs, h] at hl
      cases hl
    | ok l => exact iff_of_true rfl ⟨bs, l, rfl, h⟩

end Parts

/-! ## Runs -/

section Runs

variable {r : Request} {read : Text → Option Bytes} {find? : Text → Option Encoding} {st : Settings}

/-- A request with an unknown encoding has no settings. -/
theorem settings_of_unknown (h : Encoding.ofLabel? r.encoding find? = none) :
    r.settings find? = .error ⟨r.encoding⟩ := by
  simp only [Request.settings, Config.settings, h]

/-- The outcome of a run whose script compiles. -/
theorem compileFiles_of_ok {bs : Bytes} (hsettings : r.settings find? = .ok st)
    (hcompile : compile st (r.source read) = .ok bs) :
    r.compileFiles read find? =
      { exit := Outcome.code (r.files.all fun file => (Request.readText read file).isSome)
        output := if r.out = none then escapedBytes bs ++ ['\n'] else []
        written := r.out.map fun file => (file, bs) } := by
  simp only [Request.compileFiles, hsettings, hcompile]
  cases r.out <;> rfl

/-- The outcome of a run that lists files by a layout. -/
theorem listFiles_of_ok {layoutFile : Text} {layout : Layout}
    (hsettings : r.settings find? = .ok st)
    (hlayout : (Request.readText read layoutFile).bind Layout.ofText? = some layout) :
    r.listFiles read find? layoutFile =
      { exit := Outcome.code (r.files.all fun file =>
          (Request.listFile read st layout file).isSome)
        output := header layout ++
          '\n' :: r.files.flatMap fun file => listingPart st layout (read file) } := by
  simp only [Request.listFiles, hsettings, hlayout, List.all_map, listings_eq_flatMap]
  rfl

theorem code_all_eq_zero_iff {files : List Text} {good : Text → Bool} :
    Outcome.code (files.all good) = 0 ↔ ∀ file ∈ files, good file = true := by
  rw [← List.all_eq_true]
  cases files.all good <;> decide

end Runs

/-- **A file that fails shows in the exit code only.** Whatever encodings there are, a run that
compiles, with an unknown encoding or over a script that does not compile, prints and writes nothing
and fails; else exactly the bytes are written or printed, and it succeeds if every file is text in
UTF-8. A run that lists files by a layout writes nothing and prints, after the header, what each
file adds by its own contents, and it succeeds if every file can be read and decoded. -/
theorem run_isolates {args : List Text} {r : Request} (hargs : Request.ofArguments args = .ok r)
    (read : Text → Option Bytes) (find? : Text → Option Encoding) (help : Text) :
    (r.layout = none →
      (Encoding.ofLabel? r.encoding find? = none →
        run args read find? help = { exit := 1, output := [], written := none }) ∧
      ∀ st, r.settings find? = .ok st →
        match compile st (r.files.flatMap fun file => scriptPart (read file)) with
        | .error _ => run args read find? help = { exit := 1, output := [], written := none }
        | .ok bs =>
          (run args read find? help).output =
            (if r.out = none then escapedBytes bs ++ ['\n'] else []) ∧
          (run args read find? help).written = r.out.map (fun file => (file, bs)) ∧
          ((run args read find? help).exit = 0 ↔ ∀ file ∈ r.files,
            ∃ bs s, read file = some bs ∧ Encoding.utf8.decode? bs = some s)) ∧
    ∀ layoutFile, r.layout = some layoutFile → ∀ st layout, r.settings find? = .ok st →
      (Request.readText read layoutFile).bind Layout.ofText? = some layout →
        (run args read find? help).output = header layout ++
          '\n' :: r.files.flatMap (fun file => listingPart st layout (read file)) ∧
        (run args read find? help).written = none ∧
        ((run args read find? help).exit = 0 ↔ ∀ file ∈ r.files,
          ∃ bs l, read file = some bs ∧ decompile st layout bs = .ok l) := by
  have hrun : run args read find? help = r.run read find? := by rw [run, hargs]
  rw [hrun, Request.run]
  refine ⟨fun hlayout => ?_, fun layoutFile hlayout st layout hst hread => ?_⟩
  · rw [hlayout, ← source_eq_flatMap]
    dsimp only
    refine ⟨fun hlabel => ?_, fun st hst => ?_⟩
    · rw [Request.compileFiles, settings_of_unknown hlabel]
      rfl
    · cases hcompile : compile st (r.source read) with
      | error e =>
        simp only [Request.compileFiles, hst, hcompile]
        rfl
      | ok bs =>
        rw [compileFiles_of_ok hst hcompile]
        refine ⟨rfl, rfl, code_all_eq_zero_iff.trans ?_⟩
        exact forall₂_congr fun file _ => readText_isSome_iff
  · rw [hlayout]
    dsimp only
    rw [listFiles_of_ok hst hread]
    refine ⟨rfl, rfl, code_all_eq_zero_iff.trans ?_⟩
    exact forall₂_congr fun file _ => listFile_isSome_iff

/-- Two scripts and a layout of two bytes beside a file that is neither text nor as long. -/
def mixedFiles (file : Text) : Option Bytes :=
  if file = "rules".toList then Encoding.utf8.encode? "\x7b\"format\": [\"[2]h\"]\x7d".toList
  else [("one".toList, "[1] +7 ".toList.map fun c => UInt8.ofNat c.toNat),
    ("two".toList, "#8".toList.map fun c => UInt8.ofNat c.toNat), ("bad".toList, [255])].lookup file

/-- The layout. -/
def mixedLayout : Layout where
  format := .lines ["[2]h".toList]
  sizes_dictionary := isDictionary_nil
  structs_dictionary := isDictionary_nil
  defines_dictionary := isDictionary_nil
  sizes_lt := Layout.sizes_lt_nil

/-- Two files that fail, one of them not there, between two that do not. -/
def mixedNames : List Text := ["one", "bad", "none", "two"].map String.toList

/-- A run over these files. -/
def mixedRun (options : List String) : Outcome :=
  run (options.map String.toList ++ mixedNames) mixedFiles

/-- The two scripts are compiled to a file, and they are listed by the layout. -/
theorem run_isolates_mixed :
    ((mixedRun ["-o", "back"]).output = [] ∧
      (mixedRun ["-o", "back"]).written = some ("back".toList, [7, 8]) ∧
      (mixedRun ["-o", "back"]).exit ≠ 0) ∧
    (mixedRun ["-d", "rules", "-o", "back"]).output =
        "\n[2] #5b31\n\n#5d #20 #2b #37 #20\n[2] #2338\n\n".toList ∧
      (mixedRun ["-d", "rules", "-o", "back"]).written = none ∧
      (mixedRun ["-d", "rules", "-o", "back"]).exit ≠ 0 := by
  have hmem : "bad".toList ∈ mixedNames := by decide
  have hbad : mixedFiles "bad".toList = some [255] := by decide +kernel
  constructor
  · obtain ⟨-, hcompile⟩ := (@run_isolates (["-o", "back"].map String.toList ++ mixedNames)
      ⟨mixedNames, some "back".toList, "UTF-8".toList, 4, 64, none⟩ (by decide +kernel)
      mixedFiles Encoding.standard? []).1 rfl
    have hbytes : compile {} (mixedNames.flatMap fun file => scriptPart (mixedFiles file)) =
        .ok [7, 8] := by decide +kernel
    have hrun := hcompile {} rfl
    simp only [hbytes] at hrun
    obtain ⟨houtput, hwritten, hexit⟩ := hrun
    refine ⟨houtput, hwritten, fun hzero => ?_⟩
    obtain ⟨bs, s, hbs, hs⟩ := hexit.mp hzero _ hmem
    obtain rfl := Option.some.inj (hbad.symm.trans hbs)
    have hnone : Encoding.utf8.decode? [255] = none := by decide +kernel
    cases hnone.symm.trans hs
  · have hlayout : (Request.readText mixedFiles "rules".toList).bind Layout.ofText? =
        some mixedLayout := by
      rw [readText_eq (if_pos rfl), Option.bind_some]
      decide +kernel
    obtain ⟨houtput, hwritten, hexit⟩ := (@run_isolates
      (["-d", "rules", "-o", "back"].map String.toList ++ mixedNames)
      ⟨mixedNames, some "back".toList, "UTF-8".toList, 4, 64, some "rules".toList⟩
      (by decide +kernel) mixedFiles Encoding.standard? []).2 "rules".toList rfl {} _ rfl hlayout
    refine ⟨houtput.trans (by decide +kernel), hwritten, fun hzero => ?_⟩
    obtain ⟨bs, l, hbs, hl⟩ := hexit.mp hzero _ hmem
    obtain rfl := Option.some.inj (hbad.symm.trans hbs)
    have hfail : (decompile {} mixedLayout [255]).isOk = false := by decide +kernel
    rw [hl] at hfail
    cases hfail

end ByteScript
