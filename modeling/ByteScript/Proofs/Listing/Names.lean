import ByteScript.Proofs.Script.Continuation
import ByteScript.Proofs.Listing.RoundTrip

/-!
# Names printed and names bound

A listing prints the name of a value by itself, and its header binds the names whose keys are
literals of the script language. The keys that stand for values are more than those: a decimal
number without a sign gives its name to bytes, and the header passes over it.

* `ScansOrFails`, `Refers`: what a part of a listing refers to, if it scans at all;
* `IsLineOf.refers`, `refers_text`: a line, and all of a listing;
* `Listing.Prints`, `Listing.IsBound`: the names that are printed, all of them bound;
* `mem_boundNames_header`: the names that a header binds;
* **`isBound_of_compile`**: what becomes of a name that is not bound.
-/

namespace ByteScript

/-! ## Parts that may not scan -/

/-- The part is no script, or it is cut into these pieces, whatever follows it. -/
def ScansOrFails (s : Text) (ps : List (ScriptKind × Text)) : Prop :=
  ∀ (start line : Nat) (r : Text), (∃ e, scriptScan start line (s ++ r) = .error e) ∨
    ∃ ts : List (Token ScriptKind), ts.map Token.piece = ps ∧
      scriptScan start line (s ++ r) =
        (scriptScan (start + s.utf8Size) (line + s.newlines) r).map (ts ++ ·)

theorem Scans.scansOrFails {s : Text} {ps : List (ScriptKind × Text)} (h : Scans s ps) :
    ScansOrFails s ps := fun start line r => Or.inr (h start line r)

theorem ScansOrFails.append {s t : Text} {ps qs : List (ScriptKind × Text)}
    (hs : ScansOrFails s ps) (ht : ScansOrFails t qs) : ScansOrFails (s ++ t) (ps ++ qs) := by
  intro start line r
  rw [List.append_assoc]
  rcases hs start line (t ++ r) with herr | ⟨ts, hts, h₁⟩
  · exact Or.inl herr
  · rcases ht (start + s.utf8Size) (line + s.newlines) r with ⟨e, he⟩ | ⟨us, hus, h₂⟩
    · exact Or.inl ⟨e, by rw [h₁, he]; rfl⟩
    · refine Or.inr ⟨ts ++ us, by rw [List.map_append, hts, hus], ?_⟩
      rw [h₁, h₂, Text.utf8Size_append, Text.newlines_append, Nat.add_assoc, Nat.add_assoc]
      cases scriptScan (start + (s.utf8Size + t.utf8Size)) (line + (s.newlines + t.newlines)) r with
      | error e => rfl
      | ok vs => simp only [Except.map, List.append_assoc]

theorem scansOrFails_mark : ScansOrFails ['#', '\n'] [] := fun start line r =>
  Or.inl ⟨_, scriptScan_mismatch (next_mark r) start line⟩

/-- The part is no script, or it defines nothing and refers to the texts that are names. -/
def Refers (names texts : List Text) (s : Text) : Prop :=
  ∃ ps, ScansOrFails s ps ∧ (∀ p ∈ ps, p.1 ≠ .definition) ∧
    ∀ name, (.reference, name) ∈ ps ↔ name ∈ texts ∧ name ∈ names

namespace Refers

variable {names : List Text}

theorem nil : Refers names [] [] :=
  ⟨[], Scans.nil.scansOrFails, fun _ h => absurd h List.not_mem_nil,
    fun _ => iff_of_false List.not_mem_nil fun h => absurd h.1 List.not_mem_nil⟩

theorem append {texts more : List Text} {s t : Text} (hs : Refers names texts s)
    (ht : Refers names more t) : Refers names (texts ++ more) (s ++ t) := by
  obtain ⟨ps, hps, hdef, href⟩ := hs
  obtain ⟨qs, hqs, hdef', href'⟩ := ht
  refine ⟨ps ++ qs, hps.append hqs, fun p hp => ?_, fun name => ?_⟩
  · exact (List.mem_append.mp hp).elim (hdef p) (hdef' p)
  · rw [List.mem_append, List.mem_append, href, href', or_and_right]

/-- A part without references has none to a text that is no name. -/
theorem of_not_mem (kinds : List ScriptKind) {ps : List (ScriptKind × Text)} {s text : Text}
    (hps : ScansOrFails s ps) (hkinds : ps.map Prod.fst = kinds)
    (hkind : ∀ k ∈ kinds, k ≠ .definition ∧ k ≠ .reference) (htext : text ∉ names) :
    Refers names [text] s := by
  subst hkinds
  refine ⟨ps, hps, fun p hp => (hkind _ (List.mem_map_of_mem hp)).1, fun name => ?_⟩
  refine iff_of_false (fun h => (hkind _ (List.mem_map_of_mem h)).2 rfl) ?_
  rintro ⟨hname, hmem⟩
  rw [List.mem_singleton.mp hname] at hmem
  exact htext hmem

end Refers

section Listing

variable {st : Settings} {layout : Layout}

theorem not_mem_names_of_head (hident : ∀ e ∈ layout.defines, IsIdentifier e.2) {s : Text}
    (hs : s.head?.any isNameStart = false) : s ∉ layout.defines.map Prod.snd := by
  intro hmem
  obtain ⟨e, he, rfl⟩ := List.mem_map.mp hmem
  rw [(hident e he).1] at hs
  cases hs

theorem refers_directed (hident : ∀ e ∈ layout.defines, IsIdentifier e.2) {depth : Nat}
    {bs : Bytes} {s : Text} (h : IsDirected layout bs s) :
    Refers (layout.defines.map Prod.snd) [s] (Line.mk depth bs s).render := by
  obtain ⟨f, literal, rfl, hf, _, hwritten⟩ := h
  have hnot := not_mem_names_of_head hident (s := directed f literal) rfl
  have hrender : (Line.mk depth bs (directed f literal)).render =
      List.replicate (4 * depth) ' ' ++ '[' :: (f.type ++ [']']) ++ [' '] ++
        (literal ++ ['\n']) := by
    simp only [Line.render, directed, List.append_assoc, List.cons_append, List.nil_append]
  have hpad := ((scans_indent depth).append (Scans.pad hf.hasPlainType.not_mem_type)).append
    (Scans.blank (c := ' ') (by decide))
  rw [hrender]
  cases hwritten with
  | empty _ _ =>
    have hscan := hpad.append (Scans.blank (c := '\n') (by decide))
    exact Refers.of_not_mem [.pad] hscan.scansOrFails rfl (by decide) hnot
  | mark _ _ =>
    exact Refers.of_not_mem [.pad] (hpad.scansOrFails.append scansOrFails_mark) rfl (by decide) hnot
  | @literal k s hk hlexeme _ =>
    have hscan := hpad.append (Scans.lexeme (by decide) hlexeme)
    refine Refers.of_not_mem [.pad, k] hscan.scansOrFails rfl ?_ hnot
    revert hk
    cases k <;> decide

/-- **A line refers to its text**, if that is a name. -/
theorem IsLineOf.refers (hident : ∀ e ∈ layout.defines, IsIdentifier e.2) {l : Line}
    (h : IsLineOf st layout l.block l.text) :
    Refers (layout.defines.map Prod.snd) [l.text] l.render := by
  obtain ⟨depth, bs, s⟩ := l
  rcases h.cases with hdirected | ⟨e, he, _, hs⟩ | ⟨_, t, _, _, _, hs⟩
  · exact refers_directed hident hdirected
  · dsimp only at hs
    subst hs
    have hname := Scans.lexeme (by decide) (isLexeme_reference (hident e he))
    have hscan := (scans_indent depth).append hname
    rw [← List.append_assoc] at hscan
    refine ⟨_, hscan.scansOrFails, fun p hp => ?_, fun name => ?_⟩
    · obtain rfl := List.mem_singleton.mp hp
      exact nofun
    · rw [List.nil_append, List.mem_singleton, List.mem_singleton, Prod.mk.injEq]
      exact ⟨fun h => ⟨h.2, h.2 ▸ List.mem_map_of_mem he⟩, fun h => ⟨rfl, h.1⟩⟩
  · dsimp only at hs
    subst hs
    have hquote := Scans.lexeme (by decide) (isLexeme_quote t)
    have hscan := (scans_indent depth).append hquote
    rw [← List.append_assoc] at hscan
    exact Refers.of_not_mem [.string] hscan.scansOrFails rfl (by decide)
      (not_mem_names_of_head hident (any_isNameStart_of_isQuote (any_isQuote_quote t)))

theorem refers_body (hident : ∀ e ∈ layout.defines, IsIdentifier e.2) {lines : List Line}
    (hlines : ∀ l ∈ lines, IsLineOf st layout l.block l.text) :
    Refers (layout.defines.map Prod.snd) (lines.map Line.text) (lines.flatMap Line.render) := by
  induction lines with
  | nil => exact Refers.nil
  | cons l lines ih =>
    exact ((hlines l List.mem_cons_self).refers hident).append
      (ih fun k hk => hlines k (List.mem_cons_of_mem _ hk))

/-- A name stands on a line of the listing. -/
def Listing.Prints (l : Listing) (name : Text) : Prop := name ∈ l.lines.map Line.text

/-- The tokens of lines and of bytes left over define nothing and refer to what the lines do. -/
theorem refers_tokens {names texts : List Text} {ps : List (ScriptKind × Text)}
    (hdef : ∀ p ∈ ps, p.1 ≠ .definition)
    (href : ∀ name, (.reference, name) ∈ ps ↔ name ∈ texts ∧ name ∈ names) {rest : Bytes}
    {ts us : List (Token ScriptKind)} (hts : ts.map Token.piece = ps)
    (hus : us.map Token.piece = trailerPieces rest) :
    (∀ t ∈ ts ++ us, t.kind ≠ .definition) ∧
      ∀ name, (∃ t ∈ ts ++ us, t.kind = .reference ∧ t.text = name) ↔
        name ∈ texts ∧ name ∈ names := by
  have hhex : ∀ u ∈ us, u.kind = .hex := by
    intro u hu
    have hpiece : u.piece ∈ trailerPieces rest := hus ▸ List.mem_map_of_mem hu
    obtain ⟨b, _, hb⟩ := List.mem_map.mp hpiece
    exact (Prod.mk.inj hb).1.symm
  refine ⟨fun t ht => ?_, fun name => ?_⟩
  · rcases List.mem_append.mp ht with ht | ht
    · exact hdef t.piece (hts ▸ List.mem_map_of_mem ht)
    · rw [hhex t ht]
      nofun
  · rw [← href, ← hts]
    constructor
    · rintro ⟨t, ht, hkind, rfl⟩
      rcases List.mem_append.mp ht with ht | ht
      · exact List.mem_map.mpr ⟨t, ht, Prod.ext hkind rfl⟩
      · rw [hhex t ht] at hkind
        cases hkind
    · intro h
      obtain ⟨t, ht, hpiece⟩ := List.mem_map.mp h
      obtain ⟨hkind, htext⟩ := Prod.mk.inj hpiece
      exact ⟨t, List.mem_append_left _ ht, hkind, htext⟩

/-- **All of a listing refers to the names that it prints**, if it scans. -/
theorem refers_text (hident : ∀ e ∈ layout.defines, IsIdentifier e.2) {bs : Bytes} {l : Listing}
    (hlisting : decompile st layout bs = .ok l) (start line : Nat) :
    (∃ e, scriptScan start line l.text = .error e) ∨
      ∃ ts, scriptScan start line l.text = .ok ts ∧ (∀ t ∈ ts, t.kind ≠ .definition) ∧
        ∀ name, (∃ t ∈ ts, t.kind = .reference ∧ t.text = name) ↔
          l.Prints name ∧ name ∈ layout.defines.map Prod.snd := by
  obtain ⟨ps, hps, hdef, href⟩ := refers_body hident (covers_decompile hlisting).1.isLine
  by_cases hnil : l.leftover = []
  · have htext : l.text = l.body := if_pos hnil
    rw [htext, ← List.append_nil l.body]
    refine (hps start line []).imp id fun ⟨ts, hts, hscan⟩ =>
      ⟨ts ++ [], ?_, @refers_tokens _ _ _ hdef href l.leftover _ _ hts (by rw [hnil]; rfl)⟩
    rw [Listing.body, hscan, scriptScan_nil]
    rfl
  · have htext : l.text = l.body ++ ['\n'] ++ trailer l.leftover := by
      rw [Listing.text, if_neg hnil, List.append_assoc, List.singleton_append]
    have hbody := hps.append (Scans.blank (c := '\n') (by decide)).scansOrFails
    obtain ⟨us, hus, htrailer⟩ := scriptScan_trailer l.leftover
      (start + (l.body ++ ['\n']).utf8Size) (line + (l.body ++ ['\n']).newlines)
    rw [htext]
    refine (hbody start line (trailer l.leftover)).imp id fun ⟨ts, hts, hscan⟩ => ?_
    rw [List.append_nil] at hts
    refine ⟨ts ++ us, ?_, refers_tokens hdef href hts hus⟩
    rw [Listing.body] at htrailer ⊢
    rw [hscan, htrailer]
    rfl

/-! ## Headers -/

theorem endsLine_flatMap {α : Type} (f : α → Text) (as : List α) :
    (as.flatMap fun a => f a ++ ['\n']) = [] ∨ EndsLine (as.flatMap fun a => f a ++ ['\n']) := by
  induction as with
  | nil => exact Or.inl rfl
  | cons a as ih =>
    rw [List.flatMap_cons]
    rcases ih with hnil | ⟨t, ht⟩
    · rw [hnil, List.append_nil]
      exact Or.inr ⟨f a, rfl⟩
    · rw [ht, ← List.append_assoc]
      exact Or.inr ⟨_, rfl⟩

/-- A header is empty or ends with a line feed. -/
theorem endsLine_header (layout : Layout) : header layout = [] ∨ EndsLine (header layout) := by
  have hdefines := endsLine_flatMap (fun e : Text × Text => '$' :: e.2 ++ '=' :: e.1)
    (layout.defines.filter fun e => isLiteralKey e.1)
  have hsizes := endsLine_flatMap (fun e : Text × Nat => '@' :: e.1 ++ '=' :: decimal e.2)
    layout.sizes
  rw [header]
  rcases hsizes with hnil | ⟨t, ht⟩
  · rw [hnil, List.append_nil]
    exact hdefines
  · rw [ht, ← List.append_assoc]
    exact Or.inr ⟨_, rfl⟩

theorem definedNames_defineLines {es : List (Text × Text)} (h : ∀ e ∈ es, IsIdentifier e.2)
    {ts : List (Token ScriptKind)} (hts : ts.map Token.piece =
      es.map fun e => (.definition, '$' :: (e.2 ++ '=' :: e.1))) :
    definedNames ts = es.map Prod.snd := by
  rw [definedNames_eq_of_piece, hts, List.filter_eq_self.mpr, List.map_map]
  · exact List.map_congr_left fun e he => congrArg Prod.fst (assignment_eq (h e he) e.1)
  · intro p hp
    obtain ⟨e, _, rfl⟩ := List.mem_map.mp hp
    rfl

theorem dollar_not_mem_sizeLines {es : List (Text × Nat)} (h : ∀ e ∈ es, '$' ∉ e.1) :
    '$' ∉ sizeLines es := by
  intro hmem
  obtain ⟨e, he, hmem⟩ := List.mem_flatMap.mp hmem
  simp only [List.mem_append, List.mem_cons, List.not_mem_nil, or_false] at hmem
  rcases hmem with ((h' | h') | h' | h') | h'
  · cases h'
  · exact h e he h'
  · cases h'
  · exact absurd ((allDigits_iff.mp (allDigits_decimal e.2)).2 _ h') (by decide)
  · cases h'

/-- **The names that a header binds** are those with a literal for a key, where no such key runs
over the end of its line and no name of a width can hold a definition. -/
theorem mem_boundNames_header (hident : ∀ e ∈ layout.defines, IsIdentifier e.2)
    (hkeys : ∀ e ∈ layout.defines, isLiteralKey e.1 = true → '\n' ∉ e.1)
    (hsizes : ∀ e ∈ layout.sizes, '$' ∉ e.1) {ts : List (Token ScriptKind)}
    (hscan : scanScript (header layout) = .ok ts) (name : Text) :
    name ∈ boundNames (header layout) ↔
      ∃ e ∈ layout.defines, isLiteralKey e.1 = true ∧ e.2 = name := by
  have hheader : header layout =
      defineLines (layout.defines.filter fun e => isLiteralKey e.1) ++ sizeLines layout.sizes := rfl
  have hentry : ∀ e ∈ layout.defines.filter fun e => isLiteralKey e.1,
      IsIdentifier e.2 ∧ '\n' ∉ e.1 := by
    intro e he
    obtain ⟨he, hkey⟩ := List.mem_filter.mp he
    exact ⟨hident e he, hkeys e he hkey⟩
  obtain ⟨us, hus, hsplit⟩ := scans_defineLines hentry 0 1 (sizeLines layout.sizes)
  rw [← hheader, scanScript_eq_ok_iff.mp hscan] at hsplit
  obtain ⟨vs, hvs, rfl⟩ := exists_of_map_eq_ok hsplit.symm
  have hnone : definedNames vs = [] := definedNames_eq_nil fun t ht hkind =>
    dollar_not_mem_sizeLines hsizes (dollar_mem_of_scan hvs ht hkind)
  rw [boundNames_eq hscan, definedNames_append, hnone, List.append_nil,
    definedNames_defineLines (fun e he => (hentry e he).1) hus, List.mem_map]
  exact exists_congr fun e => by rw [List.mem_filter, and_assoc]

/-! ## Listings -/

/-- The header binds every name of a value that the listing prints. -/
def Listing.IsBound (layout : Layout) (l : Listing) : Prop :=
  ∀ e ∈ layout.defines, l.Prints e.2 → e.2 ∈ boundNames (header layout)

/-- Where the header compiles, the tokens after it are read in the scope that it leaves. -/
theorem compile_header_append {hs : List (Token ScriptKind)} {p : Scope × Bytes}
    (hhs : scanScript (header layout) = .ok hs)
    (hp : (Scope.root st).exec st (defineWithin st st.maxDepth) hs = .ok p) {s : Text}
    {r : Except Unexpected (List (Token ScriptKind))}
    (hr : scriptScan (0 + (header layout).utf8Size) (1 + (header layout).newlines) s = r) :
    compile st (header layout ++ s) =
      (r.mapError fun e => ⟨e.line, .unexpected e.text e.offset⟩).bind fun ts =>
        (p.1.exec st (defineWithin st st.maxDepth) ts).map fun q => p.2 ++ q.2 := by
  rw [compile_append (endsLine_header layout) hhs hp, hr]

/-- Where the header has one line for each literal key, a listing is bound if all that it prints
have such keys. -/
theorem isBound_iff (hident : ∀ e ∈ layout.defines, IsIdentifier e.2)
    (hnodup : (layout.defines.map Prod.snd).Nodup)
    (hkeys : ∀ e ∈ layout.defines, isLiteralKey e.1 = true → '\n' ∉ e.1)
    (hsizes : ∀ e ∈ layout.sizes, '$' ∉ e.1) {ts : List (Token ScriptKind)}
    (hscan : scanScript (header layout) = .ok ts) (l : Listing) :
    l.IsBound layout ↔ ∀ e ∈ layout.defines, l.Prints e.2 → isLiteralKey e.1 = true := by
  refine forall₂_congr fun e he => forall_congr' fun _ => ?_
  rw [mem_boundNames_header hident hkeys hsizes hscan]
  constructor
  · rintro ⟨d, hd, hkey, hname⟩
    exact List.inj_on_of_nodup_map hnodup hd he hname ▸ hkey
  · exact fun hkey => ⟨e, he, hkey, rfl⟩

/-- **What becomes of a name that is not bound.** Under a header that compiles, a listing compiles
only if the header binds all names of values that it prints, and a name is undefined only if the
listing prints it and the header does not bind it. Where no key that is a literal has a line feed
and no name of a width a dollar sign, the header binds all of them exactly if their keys are
literals. -/
theorem isBound_of_compile (hident : ∀ e ∈ layout.defines, IsIdentifier e.2)
    (hnodup : (layout.defines.map Prod.snd).Nodup)
    (hheader : ∃ v, compile st (header layout) = .ok v)
    {bs : Bytes} {l : Listing} (hlisting : decompile st layout bs = .ok l) :
    (∀ v, compile st (header layout ++ l.text) = .ok v → l.IsBound layout) ∧
    (∀ n name, compile st (header layout ++ l.text) = .error ⟨n, .undefinedVariable name⟩ →
      l.Prints name ∧ name ∈ layout.defines.map Prod.snd ∧ name ∉ boundNames (header layout)) ∧
    ((∀ e ∈ layout.defines, isLiteralKey e.1 = true → '\n' ∉ e.1) →
      (∀ e ∈ layout.sizes, '$' ∉ e.1) →
      (l.IsBound layout ↔ ∀ e ∈ layout.defines, l.Prints e.2 → isLiteralKey e.1 = true)) := by
  obtain ⟨v, hv⟩ := hheader
  rw [compile_eq] at hv
  obtain ⟨hs, hhs, hv⟩ := exists_of_bind_eq_ok hv
  obtain ⟨p, hp, rfl⟩ := exists_of_map_eq_ok hv
  have hnames : ∀ name, name ∈ p.1.names ↔ name ∈ boundNames (header layout) := by
    intro name
    rw [names_of_exec hp, boundNames_eq hhs, List.mem_append, List.mem_reverse]
    exact or_iff_left List.not_mem_nil
  have hplain := fun hkeys hsizes => isBound_iff hident hnodup hkeys hsizes hhs l
  rcases refers_text hident hlisting (0 + (header layout).utf8Size)
      (1 + (header layout).newlines) with ⟨e, he⟩ | ⟨ts, hts, hdef, href⟩
  · -- the lines of the listing are no script
    rw [compile_header_append hhs hp he]
    exact ⟨fun v h => (by cases h), fun n name h => (by cases h), hplain⟩
  · rw [compile_header_append hhs hp hts]
    refine ⟨fun v hv e he hprints => ?_, fun n name h => ?_, hplain⟩
    · obtain ⟨q, hq, _⟩ := exists_of_map_eq_ok hv
      obtain ⟨t, ht, hkind, htext⟩ := (href e.2).mpr ⟨hprints, List.mem_map_of_mem he⟩
      have hmem := mem_names_of_exec hdef hq ht hkind
      rw [htext, (hident e he).dropWhile_dollar] at hmem
      exact (hnames _).mp hmem
    · obtain ⟨hnot, t, ht, hkind, hname⟩ := exists_reference_of_exec hdef (map_eq_error_iff.mp h)
      obtain ⟨hprints, hmem⟩ := (href t.text).mp ⟨t, ht, hkind, rfl⟩
      obtain ⟨e, he, hetext⟩ := List.mem_map.mp hmem
      rw [← hetext, (hident e he).dropWhile_dollar, hetext] at hname
      subst hname
      exact ⟨hprints, hmem, fun h => hnot ((hnames _).mpr h)⟩

/-- Names for two values, one of them by a key without a sign. -/
def fiveLayout : Layout :=
  namesLayout "[4]!".toList [("+6".toList, "SIX".toList), ("5".toList, "FIVE".toList)] (by decide)

/-- The listing of the value that has a key without a sign. -/
def fiveListing : Listing := ⟨[⟨0, [0, 0, 0, 5], "FIVE".toList⟩], 4, []⟩

/-- A name whose key has no sign is not bound, so its listing does not compile. -/
theorem isBound_of_compile_five :
    ¬ ∃ v, compile {} (header fiveLayout ++ fiveListing.text) = .ok v := by
  have hheader : (compile {} (header fiveLayout)).isOk = true := by decide +kernel
  have hlisting : decompile {} fiveLayout [0, 0, 0, 5] = .ok fiveListing := by decide +kernel
  obtain ⟨hcompile, -, hplain⟩ :=
    isBound_of_compile (by decide) (by decide) (exists_of_isOk hheader) hlisting
  rintro ⟨v, hv⟩
  have hkey := (hplain (by decide) (by decide)).mp (hcompile v hv) ("5".toList, "FIVE".toList)
    (by decide) (List.mem_singleton.mpr rfl)
  exact absurd hkey (by decide)

/-- **Not every name that is printed is bound.** -/
theorem not_isBound_of_compile : ¬ ∀ (st : Settings) (layout : Layout) (bs : Bytes) (l : Listing),
    (∀ e ∈ layout.defines, IsIdentifier e.2) → (layout.defines.map Prod.snd).Nodup →
    (∃ v, compile st (header layout) = .ok v) → decompile st layout bs = .ok l →
    l.IsBound layout ∧ ∀ n name,
      compile st (header layout ++ l.text) ≠ .error ⟨n, .undefinedVariable name⟩ := by
  intro h
  have hheader : (compile {} (header fiveLayout)).isOk = true := by decide +kernel
  have hwrong := (h {} fiveLayout [0, 0, 0, 5] fiveListing (by decide) (by decide)
    (exists_of_isOk hheader) (by decide +kernel)).2 2 "FIVE".toList
  exact absurd (by decide +kernel) hwrong

end Listing

end ByteScript
