import ByteScript.Script.Compile
import ByteScript.Proofs.Outcome
import ByteScript.Proofs.Script.Lexeme

/-!
# Scanning the parts of a script

A part of a script that gives the same tokens whatever comes after it can be put in front of any
other. Offsets and lines of what follows are counted on from its end.

* `Token.piece`: a token without its place;
* `scriptScan_token`, `scriptScan_blank`: the first token of a script;
* `Scans`: the pieces of a part, whatever follows; `Scans.append`: parts one after the other;
* `IsLexeme`: a text that is one token before a given character; `Scans.lexeme`: such a token and
  a blank;
* `Scans.scanScript_append`: a part and one token at the end of a script.
-/

namespace ByteScript

/-- The kind and the text of a token. -/
def Token.piece {κ : Type} (t : Token κ) : κ × Text := (t.kind, t.text)

/-- The tokens of a script that starts at an offset and on a line, without blanks and comments. -/
abbrev scriptScan (start line : Nat) (s : Text) : Except Unexpected (List (Token ScriptKind)) :=
  scriptTable.scanFrom [.blank, .comment] true start line s

theorem scanScript_eq (s : Text) : scanScript s =
    (scriptScan 0 1 s).mapError fun e => ⟨e.line, .unexpected e.text e.offset⟩ := rfl

theorem scriptScan_nil (start line : Nat) : scriptScan start line [] = .ok [] := by
  rw [scriptScan, Table.scanFrom]

/-! ## The first token -/

/-- What a token of a kind adds to the tokens after it. -/
def keepToken (t : Token ScriptKind) (ts : List (Token ScriptKind)) : List (Token ScriptKind) :=
  if [ScriptKind.blank, .comment].contains t.kind then ts else t :: ts

theorem keepToken_eq {t : Token ScriptKind} (h : ¬ t.kind = .blank ∧ ¬ t.kind = .comment) :
    keepToken t = ([t] ++ ·) := by
  funext ts
  have hkept : [ScriptKind.blank, .comment].contains t.kind = false := by
    rw [List.contains_eq_mem, decide_eq_false_iff_not, List.mem_cons, List.mem_singleton]
    exact not_or.mpr h
  rw [keepToken, hkept]
  rfl

/-- **A text that is one token is cut off.** -/
theorem scriptScan_token {k : ScriptKind} {s r : Text} (hs : s ≠ [])
    (hnext : scriptTable.next (s ++ r) = (k, s.length)) (hk : k ≠ .mismatch) (start line : Nat) :
    scriptScan start line (s ++ r) =
      (scriptScan (start + s.utf8Size) (line + s.newlines) r).map
        (keepToken ⟨k, s, start, line⟩) := by
  cases s with
  | nil => exact absurd rfl hs
  | cons c s =>
    rw [List.cons_append] at hnext ⊢
    have htake : (s ++ r).take ((c :: s).length - 1) = s := List.take_left' rfl
    have hdrop : (s ++ r).drop ((c :: s).length - 1) = r := List.drop_left' rfl
    have hm : (k == ScriptKind.mismatch) = false := beq_eq_false_iff_ne.mpr hk
    have hmis : scriptTable.mismatch = .mismatch := rfl
    rw [scriptScan, Table.scanFrom]
    simp only [hnext, htake, hdrop, hmis, hm, Bool.true_and, Bool.false_eq_true, if_false]
    unfold scriptScan
    cases scriptTable.scanFrom [.blank, .comment] true (start + Text.utf8Size (c :: s))
      (line + Text.newlines (c :: s)) r <;> rfl

theorem scriptScan_single {k : ScriptKind} {s : Text} (hs : s ≠ [])
    (hk : k ∉ [ScriptKind.mismatch, .blank, .comment])
    (hnext : scriptTable.next s = (k, s.length)) (start line : Nat) :
    scriptScan start line s = .ok [⟨k, s, start, line⟩] := by
  simp only [List.mem_cons, List.not_mem_nil, or_false, not_or] at hk
  have htoken := scriptScan_token (r := []) hs (by rw [List.append_nil]; exact hnext) hk.1
    start line
  rwa [List.append_nil, scriptScan_nil, keepToken_eq (t := ⟨k, s, start, line⟩) hk.2] at htoken

theorem scriptScan_mismatch {c : Char} {s : Text} {n : Nat}
    (h : scriptTable.next (c :: s) = (.mismatch, n)) (start line : Nat) :
    scriptScan start line (c :: s) = .error ⟨c :: s.take (n - 1), start, line⟩ := by
  have hmis : scriptTable.mismatch = .mismatch := rfl
  rw [scriptScan, Table.scanFrom]
  simp only [h, hmis, beq_self_eq_true, Bool.true_and, if_true]

theorem scriptScan_blanks {s : Text} (hs : ∀ c ∈ s, isBlank c = true) (hne : s ≠ []) {r : Text}
    (hr : r.head?.all (fun c => !isBlank c) = true) (start line : Nat) :
    scriptScan start line (s ++ r) = scriptScan (start + s.utf8Size) (line + s.newlines) r := by
  have hnext : scriptTable.next (s ++ r) = (.blank, s.length) := by
    obtain ⟨c, s, rfl⟩ := List.exists_cons_of_ne_nil hne
    rw [List.cons_append, next_blank (hs c List.mem_cons_self),
      takeWhile_run (fun d hd => hs d (List.mem_cons_of_mem _ hd)) hr, List.length_cons,
      Nat.add_comm]
  rw [scriptScan_token hne hnext (by decide)]
  cases scriptScan (start + s.utf8Size) (line + s.newlines) r <;> rfl

/-- **A blank is passed over**, also in front of other blanks. -/
theorem scriptScan_blank {c : Char} (h : isBlank c = true) (start line : Nat) (s : Text) :
    scriptScan start line (c :: s) =
      scriptScan (start + Text.utf8Size [c]) (line + Text.newlines [c]) s := by
  have hsplit : s.takeWhile isBlank ++ s.dropWhile isBlank = s := List.takeWhile_append_dropWhile
  have hrun : ∀ d ∈ s.takeWhile isBlank, isBlank d = true :=
    List.all_eq_true.mp List.all_takeWhile
  have hrest : (s.dropWhile isBlank).head?.all (fun c => !isBlank c) = true := by
    cases hd : s.dropWhile isBlank with
    | nil => rfl
    | cons d r =>
      have := List.head_dropWhile_not isBlank (l := s) (by rw [hd]; exact List.cons_ne_nil _ _)
      simp only [hd, List.head_cons] at this
      rw [List.head?_cons, Option.all_some, this]
      rfl
  have hlong := scriptScan_blanks (s := c :: s.takeWhile isBlank)
    (fun d hd => by rcases List.mem_cons.mp hd with rfl | hd; exacts [h, hrun d hd])
    (List.cons_ne_nil _ _) hrest start line
  rw [List.cons_append, hsplit] at hlong
  rw [hlong, ← List.singleton_append (x := c), Text.utf8Size_append, Text.newlines_append,
    ← Nat.add_assoc, ← Nat.add_assoc]
  by_cases hnil : s.takeWhile isBlank = []
  · rw [hnil] at hsplit ⊢
    rw [List.nil_append] at hsplit
    rw [hsplit]
    rfl
  · rw [← scriptScan_blanks hrun hnil hrest, hsplit]

/-! ## Parts of a script -/

/-- The part is cut into these pieces, blanks and comments left out, whatever follows it. -/
def Scans (s : Text) (ps : List (ScriptKind × Text)) : Prop :=
  ∀ (start line : Nat) (r : Text), ∃ ts : List (Token ScriptKind), ts.map Token.piece = ps ∧
    scriptScan start line (s ++ r) =
      (scriptScan (start + s.utf8Size) (line + s.newlines) r).map (ts ++ ·)

namespace Scans

theorem nil : Scans [] [] := by
  intro start line r
  refine ⟨[], rfl, ?_⟩
  rw [List.nil_append, Text.utf8Size_nil, Text.newlines_nil, Nat.add_zero, Nat.add_zero]
  cases scriptScan start line r <;> rfl

/-- **Parts one after the other give their pieces one after the other.** -/
theorem append {s t : Text} {ps qs : List (ScriptKind × Text)} (hs : Scans s ps)
    (ht : Scans t qs) : Scans (s ++ t) (ps ++ qs) := by
  intro start line r
  obtain ⟨ts, hts, h₁⟩ := hs start line (t ++ r)
  obtain ⟨us, hus, h₂⟩ := ht (start + s.utf8Size) (line + s.newlines) r
  refine ⟨ts ++ us, by rw [List.map_append, hts, hus], ?_⟩
  rw [List.append_assoc, h₁, h₂, Text.utf8Size_append, Text.newlines_append, Nat.add_assoc,
    Nat.add_assoc]
  cases scriptScan (start + (s.utf8Size + t.utf8Size)) (line + (s.newlines + t.newlines)) r with
  | error e => rfl
  | ok vs => simp only [Except.map, List.append_assoc]

theorem blank {c : Char} (h : isBlank c = true) : Scans [c] [] := by
  intro start line r
  refine ⟨[], rfl, ?_⟩
  rw [List.singleton_append, scriptScan_blank h]
  cases scriptScan (start + Text.utf8Size [c]) (line + Text.newlines [c]) r <;> rfl

theorem blanks {s : Text} (h : ∀ c ∈ s, isBlank c = true) : Scans s [] := by
  induction s with
  | nil => exact nil
  | cons c s ih =>
    exact (blank (h c List.mem_cons_self)).append
      (ih fun d hd => h d (List.mem_cons_of_mem _ hd))

/-- A text that is one token whatever follows. -/
theorem token {k : ScriptKind} {s : Text} (hs : s ≠ []) (hk : k ∉ [.mismatch, .blank, .comment])
    (hnext : ∀ r, scriptTable.next (s ++ r) = (k, s.length)) : Scans s [(k, s)] := by
  intro start line r
  simp only [List.mem_cons, List.not_mem_nil, or_false, not_or] at hk
  refine ⟨[⟨k, s, start, line⟩], rfl, ?_⟩
  rw [scriptScan_token hs (hnext r) hk.1, keepToken_eq (t := ⟨k, s, start, line⟩) hk.2]

end Scans

/-! ## Tokens before a blank -/

/-- The text is one token of this kind if `stop` comes next. -/
structure IsLexeme (stop : Char) (k : ScriptKind) (s : Text) : Prop where
  ne_nil : s ≠ []
  kept : k ∉ [ScriptKind.mismatch, .blank, .comment]
  next : ∀ r, scriptTable.next (s ++ stop :: r) = (k, s.length)

/-- Such a token and the blank after it are cut off. -/
theorem scriptScan_lexeme {stop : Char} (hstop : isBlank stop = true) {k : ScriptKind} {s : Text}
    (h : IsLexeme stop k s) (start line : Nat) (r : Text) :
    scriptScan start line (s ++ [stop] ++ r) =
      (scriptScan (start + Text.utf8Size (s ++ [stop])) (line + Text.newlines (s ++ [stop])) r).map
        ([⟨k, s, start, line⟩] ++ ·) := by
  have hk := h.kept
  simp only [List.mem_cons, List.not_mem_nil, or_false, not_or] at hk
  rw [List.append_assoc, List.singleton_append, scriptScan_token h.ne_nil (h.next r) hk.1,
    scriptScan_blank hstop, keepToken_eq (t := ⟨k, s, start, line⟩) hk.2, Text.utf8Size_append,
    Text.newlines_append, Nat.add_assoc, Nat.add_assoc]

theorem Scans.lexeme {stop : Char} (hstop : isBlank stop = true) {k : ScriptKind} {s : Text}
    (h : IsLexeme stop k s) : Scans (s ++ [stop]) [(k, s)] := fun start line r =>
  ⟨[⟨k, s, start, line⟩], rfl, scriptScan_lexeme hstop h start line r⟩

theorem isLexeme_definition {name value : Text} (hname : IsIdentifier name)
    (hvalue : '\n' ∉ value) :
    IsLexeme '\n' .definition ('$' :: (name ++ '=' :: value)) where
  ne_nil := List.cons_ne_nil _ _
  kept := by decide
  next r := by
    rw [List.cons_append, List.append_assoc, List.cons_append, next_definition hname hvalue,
      List.length_cons, List.length_append, List.length_cons]
    exact congrArg (Prod.mk _) (by omega)

theorem isLexeme_sizeDefinition {name digits : Text} (hname : IsIdentifier name)
    (hdigits : digits.allDigits = true) :
    IsLexeme '\n' .sizeDefinition ('@' :: (name ++ '=' :: digits)) where
  ne_nil := List.cons_ne_nil _ _
  kept := by decide
  next r := by
    rw [List.cons_append, List.append_assoc, List.cons_append, next_sizeDefinition hname hdigits,
      List.length_cons, List.length_append, List.length_cons]
    exact congrArg (Prod.mk _) (by omega)

theorem isLexeme_integer {sign : Char} (hsign : sign = '+' ∨ sign = '-') {digits : Text}
    (hdigits : digits.allDigits = true) : IsLexeme '\n' .integer (sign :: digits) where
  ne_nil := List.cons_ne_nil _ _
  kept := by decide
  next r := by
    have hr : ('\n' :: r).head?.all (fun c => !c.isDigit) = true := rfl
    have hpoint : ('\n' :: r).head? ≠ some '.' := by
      rw [List.head?_cons]
      decide
    rw [List.cons_append, next_integer hsign hdigits hr hpoint, List.length_cons, Nat.add_comm]

theorem isLexeme_hex {stop : Char} (hstop : isHexDigit stop = false) {digits : Text}
    (hne : digits ≠ []) (hdigits : ∀ c ∈ digits, isHexDigit c = true) :
    IsLexeme stop .hex ('#' :: digits) where
  ne_nil := List.cons_ne_nil _ _
  kept := by decide
  next r := by
    have hr : (stop :: r).head?.all (fun c => !isHexDigit c) = true := by
      rw [List.head?_cons, Option.all_some, hstop]
      rfl
    rw [List.cons_append, next_hex hne hdigits hr, List.length_cons, Nat.add_comm]

theorem isLexeme_binary {digits : Text} (hne : digits ≠ [])
    (hdigits : ∀ c ∈ digits, c = '0' ∨ c = '1') : IsLexeme '\n' .binary digits where
  ne_nil := hne
  kept := by decide
  next := next_binary hne hdigits

theorem isLexeme_point (p : PointText) : IsLexeme '\n' .float p.text where
  ne_nil := by
    intro h
    have := congrArg List.length h
    rw [PointText.text, List.length_append, List.length_cons, List.length_nil] at this
    omega
  kept := by decide
  next := next_point p

theorem isLexeme_reference {name : Text} (h : IsIdentifier name) :
    IsLexeme '\n' .reference name where
  ne_nil := h.ne_nil
  kept := by decide
  next _ := next_reference h rfl

theorem isLexeme_quote (s : Text) : IsLexeme '\n' .string (quote s) where
  ne_nil := List.cons_ne_nil _ _
  kept := by decide
  next r := next_quote s ('\n' :: r) rfl

theorem Scans.pad {type : Text} (h : ']' ∉ type) :
    Scans ('[' :: (type ++ [']'])) [(.pad, '[' :: (type ++ [']']))] := by
  refine Scans.token (List.cons_ne_nil _ _) (by decide) fun r => ?_
  rw [List.cons_append, List.append_assoc, List.singleton_append, next_pad h, List.length_cons,
    List.length_append, List.length_singleton]

/-! ## The end of a script -/

/-- A script whose last part is one token at its end. -/
theorem Scans.scanScript_append {s t : Text} {ps : List (ScriptKind × Text)} (hs : Scans s ps)
    {k : ScriptKind} (hne : t ≠ []) (hk : k ∉ [ScriptKind.mismatch, .blank, .comment])
    (hnext : scriptTable.next t = (k, t.length)) :
    ∃ ts, scanScript (s ++ t) = .ok ts ∧ ts.map Token.piece = ps ++ [(k, t)] := by
  obtain ⟨ts, hts, hscan⟩ := hs 0 1 t
  rw [scriptScan_single hne hk hnext] at hscan
  refine ⟨_, congrArg (Except.mapError _) hscan, ?_⟩
  rw [List.map_append, hts]
  rfl

end ByteScript
