import Mathlib.Data.List.Nodup
import ByteScript.Script.Kind
import ByteScript.Proofs.Scan.Priority
import ByteScript.Proofs.Text.CharClass
import ByteScript.Proofs.Literal.Quotation
import ByteScript.Proofs.Floating.ReadBack

/-!
# One token at the start of a text

The first character of a text rules out all but a few patterns, and the longest match of those
that are left is the token.

* `ScriptKind.startsWith`, **`eq_none_of_startsWith`**: what the tokens of a kind start with;
* `next_eq`, `next_of_startsWith`: the first pattern that matches decides;
* `IsIdentifier`: the names of a script;
* `next_definition`, `next_sizeDefinition`, `next_pad`: directives;
* `next_integer`, `next_hex`, `next_bits`, `next_point`: numbers;
* `next_reference`, `next_quote`: names and strings;
* `next_blank`: blanks.
-/

namespace ByteScript

/-! ## Runs of a class -/

theorem takeWhile_run {α : Type} {p : α → Bool} {s r : List α} (hs : ∀ c ∈ s, p c = true)
    (hr : r.head?.all (fun c => !p c) = true) : (s ++ r).takeWhile p = s := by
  rw [List.takeWhile_append_of_pos hs]
  have hnil : r.takeWhile p = [] := by
    cases r with
    | nil => rfl
    | cons c r =>
      rw [List.head?_cons, Option.all_some, Bool.not_eq_true'] at hr
      rw [List.takeWhile_cons, hr, if_neg Bool.false_ne_true]
  rw [hnil, List.append_nil]

theorem bne_of_not_mem {mark : Char} {s : Text} (h : mark ∉ s) : ∀ c ∈ s, (c != mark) = true := by
  intro c hc
  rw [bne_iff_ne]
  rintro rfl
  exact h hc

theorem takeWhile_mark {mark : Char} {s : Text} (h : mark ∉ s) (r : Text) :
    (s ++ mark :: r).takeWhile (· != mark) = s :=
  takeWhile_run (bne_of_not_mem h) (by simp)

theorem digitsLength_run {s r : Text} (hs : ∀ c ∈ s, c.isDigit = true)
    (hr : r.head?.all (fun c => !c.isDigit) = true) : digitsLength (s ++ r) = s.length := by
  rw [digitsLength, takeWhile_run hs hr]

/-- A letter or an underscore, then letters, digits and underscores. -/
def IsIdentifier (s : Text) : Prop :=
  s.head?.any isNameStart = true ∧ ∀ c ∈ s, isNameChar c = true

instance (s : Text) : Decidable (IsIdentifier s) :=
  @instDecidableAnd _ _ _ (List.decidableBAll (fun c => isNameChar c = true) s)

theorem IsIdentifier.ne_nil {s : Text} (h : IsIdentifier s) : s ≠ [] := by
  rintro rfl
  exact Bool.false_ne_true h.1

theorem nameLength_run {s r : Text} (hs : IsIdentifier s)
    (hr : r.head?.all (fun c => !isNameChar c) = true) : nameLength (s ++ r) = s.length := by
  cases s with
  | nil => exact absurd rfl hs.ne_nil
  | cons c s =>
    have hc : isNameStart c = true := hs.1
    have htail : ∀ d ∈ s, isNameChar d = true := fun d hd => hs.2 d (List.mem_cons_of_mem _ hd)
    rw [List.cons_append, nameLength, if_pos hc, takeWhile_run htail hr, List.length_cons]
    exact Nat.add_comm _ _

/-! ## Patterns that a first character rules out -/

/-- A token of the kind can start with the character. -/
def ScriptKind.startsWith (c : Char) : ScriptKind → Bool
  | .definition => c == '$'
  | .sizeDefinition => c == '@'
  | .pad => c == '['
  | .float => c == '+' || c == '-' || c == '.' || c.isDigit
  | .integer => c == '+' || c == '-'
  | .hex => c == '#'
  | .binary => c == '0' || c == '1'
  | .reference => c == '$' || isNameStart c
  | .string => isQuote c || isNameStart c
  | .comment => c == '/'
  | .blank => isBlank c
  | .mismatch => true

section Refuse

variable {c : Char} {s : Text}

/-- Tokens that start with a digit are numbers. -/
theorem kind_of_isDigit (hc : c.isDigit = true) {k : ScriptKind} (h : k.startsWith c = true) :
    k = .float ∨ k = .binary ∨ k = .mismatch := by
  rw [isDigit_iff] at hc
  cases k <;>
    simp [ScriptKind.startsWith, toNat_inj_iff, isNameStart_iff, isQuote_iff, isBlank_iff] at h ⊢ <;>
    omega

/-- Tokens that start like a name are names, or letters before a string. -/
theorem kind_of_isNameStart (hc : isNameStart c = true) {k : ScriptKind}
    (h : k.startsWith c = true) : k = .reference ∨ k = .string ∨ k = .mismatch := by
  rw [isNameStart_iff] at hc
  cases k <;> simp [ScriptKind.startsWith, toNat_inj_iff, isDigit_iff, isBlank_iff] at h ⊢ <;>
    omega

theorem kind_of_isBlank (hc : isBlank c = true) {k : ScriptKind} (h : k.startsWith c = true) :
    k = .blank ∨ k = .mismatch := by
  rw [isBlank_iff] at hc
  cases k <;>
    simp [ScriptKind.startsWith, toNat_inj_iff, isDigit_iff, isNameStart_iff, isQuote_iff] at h ⊢ <;>
    omega

theorem definition_eq_none (h : ScriptKind.definition.startsWith c = false) :
    Pattern.definition (c :: s) = none := by
  unfold Pattern.definition
  split
  · rename_i he
    obtain ⟨rfl, _⟩ := List.cons.inj he
    cases h
  · rfl

theorem sizeDefinition_eq_none (h : ScriptKind.sizeDefinition.startsWith c = false) :
    Pattern.sizeDefinition (c :: s) = none := by
  unfold Pattern.sizeDefinition
  split
  · rename_i he
    obtain ⟨rfl, _⟩ := List.cons.inj he
    cases h
  · rfl

theorem pad_eq_none (h : ScriptKind.pad.startsWith c = false) : Pattern.pad (c :: s) = none := by
  unfold Pattern.pad
  split
  · rename_i he
    obtain ⟨rfl, _⟩ := List.cons.inj he
    cases h
  · rfl

theorem hex_eq_none (h : ScriptKind.hex.startsWith c = false) : Pattern.hex (c :: s) = none := by
  unfold Pattern.hex
  split
  · rename_i he
    obtain ⟨rfl, _⟩ := List.cons.inj he
    cases h
  · rfl

theorem comment_eq_none (h : ScriptKind.comment.startsWith c = false) :
    Pattern.comment (c :: s) = none := by
  unfold Pattern.comment
  split
  · rename_i he
    obtain ⟨rfl, _⟩ := List.cons.inj he
    cases h
  · rfl

theorem signLength_eq_zero (h : ScriptKind.integer.startsWith c = false) :
    signLength (c :: s) = 0 := by
  unfold signLength
  split
  · rename_i he
    obtain ⟨rfl, _⟩ := List.cons.inj he
    cases h
  · rename_i he
    obtain ⟨rfl, _⟩ := List.cons.inj he
    cases h
  · rfl

theorem integer_eq_none (h : ScriptKind.integer.startsWith c = false) :
    Pattern.integer (c :: s) = none := by
  unfold Pattern.integer
  rw [signLength_eq_zero h]
  exact if_pos (Or.inl rfl)

/-- A number with a point needs one after the digits. -/
theorem float_eq_none (s : Text)
    (h : (s.drop (signLength s + digitsLength (s.drop (signLength s)))).head? ≠ some '.') :
    Pattern.float s = none := by
  unfold Pattern.float
  dsimp only
  split
  · rename_i he
    rw [he] at h
    exact absurd rfl h
  · rfl

theorem float_eq_none_of_not_mem {s : Text} (h : '.' ∉ s) : Pattern.float s = none :=
  float_eq_none s fun hpoint => h (List.mem_of_mem_drop (List.mem_of_head? hpoint))

theorem float_eq_none_of_head (h : ScriptKind.float.startsWith c = false) :
    Pattern.float (c :: s) = none := by
  simp only [ScriptKind.startsWith, Bool.or_eq_false_iff, beq_eq_false_iff_ne] at h
  obtain ⟨⟨⟨hplus, hminus⟩, hpoint⟩, hdigit⟩ := h
  refine float_eq_none _ ?_
  have hsign : signLength (c :: s) = 0 := signLength_eq_zero (by
    rw [ScriptKind.startsWith, Bool.or_eq_false_iff, beq_eq_false_iff_ne, beq_eq_false_iff_ne]
    exact ⟨hplus, hminus⟩)
  have hzero : digitsLength (c :: s) = 0 := by
    rw [digitsLength, List.takeWhile_cons, hdigit]
    rfl
  rw [hsign, List.drop_zero, hzero, Nat.zero_add, List.drop_zero, List.head?_cons]
  exact fun he => hpoint (Option.some.inj he)

theorem binary_eq_none (h : ScriptKind.binary.startsWith c = false) :
    Pattern.binary (c :: s) = none :=
  if_neg (Bool.eq_false_iff.mp h)

theorem reference_eq_none (h : ScriptKind.reference.startsWith c = false) :
    Pattern.reference (c :: s) = none := by
  rw [ScriptKind.startsWith, Bool.or_eq_false_iff, beq_eq_false_iff_ne] at h
  have hzero : nameLength (c :: s) = 0 := by
    rw [nameLength, h.2, if_neg Bool.false_ne_true]
  unfold Pattern.reference
  split
  · rename_i he
    exact absurd (List.cons.inj he).1 h.1
  · exact if_pos hzero

/-- Letters before a string are names, so what starts with neither a name nor a mark is no
string. -/
theorem string_eq_none (h : ScriptKind.string.startsWith c = false) :
    Pattern.string (c :: s) = none := by
  obtain ⟨hq, hn⟩ := Bool.or_eq_false_iff.mp h
  have hzero : Pattern.lettersLength (c :: s) = 0 := by
    have low : ∀ l ∈ Pattern.stringLetters, l.head?.any Char.isLower = true := by decide
    have hnone : (Pattern.stringLetters.find? fun l =>
        Text.sameLetters ((c :: s).take l.length) l &&
          ((c :: s).drop l.length).head?.any isQuote) = none := by
      rw [List.find?_eq_none]
      intro l hl hsame
      rw [Bool.and_eq_true] at hsame
      cases l with
      | nil => exact Bool.false_ne_true (low _ hl)
      | cons a l =>
        have ha : a.isLower = true := low _ hl
        rw [Text.sameLetters, List.length_cons, List.take_succ_cons, beq_iff_eq, Text.lower,
          Text.lower, List.map_cons, List.map_cons] at hsame
        have he := (List.cons.inj hsame.1).1
        rw [isLower_iff] at ha
        have hstart : isNameStart c = true := by
          rw [isNameStart_iff]
          by_cases hup : c.isUpper = true
          · rw [isUpper_iff] at hup
            omega
          · have hup' : a.isUpper = false := by
              rw [Bool.eq_false_iff, ne_eq, isUpper_iff]
              omega
            rw [Text.lowerChar, if_neg hup, Text.lowerChar, hup', if_neg Bool.false_ne_true] at he
            rw [he]
            omega
        rw [hn] at hstart
        exact Bool.false_ne_true hstart
    rw [Pattern.lettersLength, hnone]
  rw [Pattern.string, hzero, List.drop_zero, Pattern.quoted, hq]
  rfl

theorem many1_eq_none {p : Char → Bool} (h : p c = false) : Pattern.many1 p (c :: s) = none := by
  rw [Pattern.many1, List.takeWhile_cons, h]
  rfl

/-- **A pattern does not match** where no token of its kind can start. -/
theorem eq_none_of_startsWith {e : ScriptKind × Pattern} (he : e ∈ scriptTable.patterns)
    (h : e.1.startsWith c = false) : e.2 (c :: s) = none := by
  simp only [scriptTable, List.mem_cons, List.not_mem_nil, or_false] at he
  rcases he with rfl | rfl | rfl | rfl | rfl | rfl | rfl | rfl | rfl | rfl | rfl
  exacts [definition_eq_none h, sizeDefinition_eq_none h, pad_eq_none h, float_eq_none_of_head h,
    integer_eq_none h, hex_eq_none h, binary_eq_none h, reference_eq_none h, string_eq_none h,
    comment_eq_none h, many1_eq_none h]

/-- Where tokens of one kind can start and its pattern does not match, none does. -/
theorem eq_none_of_kind {i : Nat} {k : ScriptKind} {p : Pattern}
    (hi : scriptTable.patterns[i]? = some (k, p)) (hp : p (c :: s) = none)
    {e : ScriptKind × Pattern} (he : e ∈ scriptTable.patterns)
    (h : e.1.startsWith c = true → e.1 = k) : e.2 (c :: s) = none := by
  cases hstart : e.1.startsWith c with
  | false => exact eq_none_of_startsWith he hstart
  | true =>
    have hkinds : (scriptTable.patterns.map Prod.fst).Nodup := by decide
    rw [List.inj_on_of_nodup_map hkinds he (List.mem_of_getElem? hi) (h hstart)]
    exact hp

end Refuse

/-! ## The choice at a position -/

/-- **The first pattern that matches decides.** -/
theorem next_eq (i : Nat) {k : ScriptKind} {p : Pattern} {s : Text} {n : Nat}
    (hi : scriptTable.patterns[i]? = some (k, p))
    (hnone : ∀ q ∈ (scriptTable.patterns.take i).map Prod.snd, q s = none) (hp : p s = some n)
    (hn : n ≠ 0) :
    scriptTable.next s = (k, n) := by
  obtain ⟨hlt, hget⟩ := List.getElem?_eq_some_iff.mp hi
  have horder : scriptTable.patterns =
      scriptTable.patterns.take i ++ (k, p) :: scriptTable.patterns.drop (i + 1) := by
    rw [← hget, ← List.drop_eq_getElem_cons hlt, List.take_append_drop]
  refine Table.next_eq_iff.mpr (.pattern horder (fun e he m hm => ?_) hp (Nat.pos_of_ne_zero hn))
  rw [hnone e.2 (List.mem_map_of_mem he)] at hm
  cases hm

/-- The first pattern whose tokens can start with the character decides if it matches. -/
theorem next_of_startsWith (i : Nat) {k : ScriptKind} {p : Pattern} {c : Char} {s : Text} {n : Nat}
    (hi : scriptTable.patterns[i]? = some (k, p))
    (hstart : ∀ e ∈ scriptTable.patterns.take i, e.1.startsWith c = false)
    (hp : p (c :: s) = some n) (hn : n ≠ 0) : scriptTable.next (c :: s) = (k, n) := by
  refine next_eq i hi (fun q hq => ?_) hp hn
  obtain ⟨e, he, rfl⟩ := List.mem_map.mp hq
  exact eq_none_of_startsWith (List.mem_of_mem_take he) (hstart e he)

/-- The same where a number with a point could start too, but there is none. -/
theorem next_of_float_eq_none (i : Nat) {k : ScriptKind} {p : Pattern} {c : Char} {s : Text}
    {n : Nat} (hi : scriptTable.patterns[i]? = some (k, p))
    (hstart : ∀ e ∈ scriptTable.patterns.take i, e.1.startsWith c = true → e.1 = .float)
    (hfloat : Pattern.float (c :: s) = none) (hp : p (c :: s) = some n) (hn : n ≠ 0) :
    scriptTable.next (c :: s) = (k, n) := by
  refine next_eq i hi (fun q hq => ?_) hp hn
  obtain ⟨e, he, rfl⟩ := List.mem_map.mp hq
  have hpoint : scriptTable.patterns[3]? = some (.float, Pattern.float) := rfl
  exact eq_none_of_kind hpoint hfloat (List.mem_of_mem_take he) (hstart e he)

/-! ## Directives -/

theorem next_definition {name : Text} (hname : IsIdentifier name) {value : Text}
    (hvalue : '\n' ∉ value) (r : Text) :
    scriptTable.next ('$' :: (name ++ '=' :: (value ++ '\n' :: r))) =
      (.definition, name.length + 2 + value.length) := by
  refine next_of_startsWith 0 rfl (by decide) ?_ (by omega)
  have hlen : nameLength (name ++ '=' :: (value ++ '\n' :: r)) = name.length :=
    nameLength_run hname rfl
  have hrun : (value ++ '\n' :: r).takeWhile (· != '\n') = value := takeWhile_mark hvalue r
  have hpos : name.length ≠ 0 := fun h => hname.ne_nil (List.eq_nil_of_length_eq_zero h)
  have hrest : (name ++ '=' :: (value ++ '\n' :: r)).drop name.length =
      '=' :: (value ++ '\n' :: r) :=
    List.drop_left' rfl
  simp only [Pattern.definition, hlen, hrest, hrun]
  exact if_neg hpos

theorem next_sizeDefinition {name : Text} (hname : IsIdentifier name) {digits : Text}
    (hdigits : digits.allDigits = true) (r : Text) :
    scriptTable.next ('@' :: (name ++ '=' :: (digits ++ '\n' :: r))) =
      (.sizeDefinition, name.length + 2 + digits.length) := by
  refine next_of_startsWith 1 rfl (by decide) (n := name.length + 2 + digits.length) ?_ (by omega)
  obtain ⟨hne, hd⟩ := allDigits_iff.mp hdigits
  have hlen : nameLength (name ++ '=' :: (digits ++ '\n' :: r)) = name.length :=
    nameLength_run hname rfl
  have hrun : digitsLength (digits ++ '\n' :: r) = digits.length := digitsLength_run hd rfl
  have hpos : name.length ≠ 0 := fun h => hname.ne_nil (List.eq_nil_of_length_eq_zero h)
  have hpos' : digits.length ≠ 0 := fun h => hne (List.eq_nil_of_length_eq_zero h)
  have hrest : (name ++ '=' :: (digits ++ '\n' :: r)).drop name.length =
      '=' :: (digits ++ '\n' :: r) := List.drop_left' rfl
  simp only [Pattern.sizeDefinition, hlen, hrest, hrun]
  exact if_neg (not_or.mpr ⟨hpos, hpos'⟩)

theorem next_pad {type : Text} (h : ']' ∉ type) (r : Text) :
    scriptTable.next ('[' :: (type ++ ']' :: r)) = (.pad, type.length + 2) := by
  refine next_of_startsWith 2 rfl (by decide) (n := type.length + 2) ?_ (by omega)
  rw [Pattern.pad, takeWhile_mark h]
  refine if_pos ?_
  rw [List.length_append, List.length_cons]
  omega

/-! ## Numbers -/

theorem signLength_cons {c : Char} (h : c = '+' ∨ c = '-') (s : Text) :
    signLength (c :: s) = 1 := by
  rcases h with rfl | rfl <;> rfl

/-- A number with a sign ends where no digit and no point follows, here also at the end of a
script. -/
theorem next_integer {sign : Char} (hsign : sign = '+' ∨ sign = '-') {digits : Text}
    (hdigits : digits.allDigits = true) {r : Text}
    (hr : r.head?.all (fun c => !c.isDigit) = true) (hpoint : r.head? ≠ some '.') :
    scriptTable.next (sign :: (digits ++ r)) = (.integer, 1 + digits.length) := by
  obtain ⟨hne, hd⟩ := allDigits_iff.mp hdigits
  have hrun : digitsLength (digits ++ r) = digits.length := digitsLength_run hd hr
  refine next_of_float_eq_none 4 rfl (by rcases hsign with rfl | rfl <;> decide) ?_
    (n := 1 + digits.length) ?_ (by omega)
  · refine float_eq_none _ ?_
    rw [signLength_cons hsign, List.drop_succ_cons, List.drop_zero, hrun, Nat.add_comm,
      List.drop_succ_cons, List.drop_left' rfl]
    exact hpoint
  · have hpos : digits.length ≠ 0 := fun h => hne (List.eq_nil_of_length_eq_zero h)
    unfold Pattern.integer
    rw [signLength_cons hsign, List.drop_succ_cons, List.drop_zero, hrun]
    exact if_neg (not_or.mpr ⟨by decide, hpos⟩)

/-- Hexadecimal digits end where a character is none, here also at the end of a script. -/
theorem next_hex {digits : Text} (hne : digits ≠ []) (hdigits : ∀ c ∈ digits, isHexDigit c = true)
    {r : Text} (hr : r.head?.all (fun c => !isHexDigit c) = true) :
    scriptTable.next ('#' :: (digits ++ r)) = (.hex, 1 + digits.length) := by
  refine next_of_startsWith 5 rfl (by decide) (n := 1 + digits.length) ?_ (by omega)
  have hpos : digits.length ≠ 0 := fun h => hne (List.eq_nil_of_length_eq_zero h)
  rw [Pattern.hex, takeWhile_run hdigits hr]
  exact if_neg hpos

/-- A binary number ends where none of its characters follows, here also at the end of a script. -/
theorem next_bits {d : Char} {digits r : Text} (hhead : d = '0' ∨ d = '1')
    (hdigits : ∀ c ∈ digits, (c == '0' || c == '1' || c == ' ' || c == '_') = true)
    (hr : r.head?.all (fun c => !(c == '0' || c == '1' || c == ' ' || c == '_')) = true)
    (hfloat : Pattern.float (d :: (digits ++ r)) = none) :
    scriptTable.next (d :: (digits ++ r)) = (.binary, 1 + digits.length) := by
  refine next_of_float_eq_none 6 rfl (by rcases hhead with rfl | rfl <;> decide) hfloat
    (n := 1 + digits.length) ?_ (by omega)
  have hbit : (d == '0' || d == '1') = true := by rcases hhead with rfl | rfl <;> rfl
  rw [Pattern.binary, takeWhile_run hdigits hr]
  exact if_pos hbit

theorem next_binary {digits : Text} (hne : digits ≠ []) (hdigits : ∀ c ∈ digits, c = '0' ∨ c = '1')
    (r : Text) : scriptTable.next (digits ++ '\n' :: r) = (.binary, digits.length) := by
  obtain ⟨d, digits, rfl⟩ := List.exists_cons_of_ne_nil hne
  have hhead : d = '0' ∨ d = '1' := hdigits d List.mem_cons_self
  have hd : ∀ c ∈ d :: digits, c.isDigit = true := by
    intro c hc
    rcases hdigits c hc with rfl | rfl <;> decide
  rw [List.cons_append, List.length_cons, Nat.add_comm]
  refine next_bits hhead (fun c hc => ?_) rfl (float_eq_none (d :: digits ++ '\n' :: r) ?_)
  · rcases hdigits c (List.mem_cons_of_mem _ hc) with rfl | rfl <;> rfl
  · have hsign : signLength (d :: digits ++ '\n' :: r) = 0 :=
      signLength_eq_zero (by rcases hhead with rfl | rfl <;> decide)
    rw [hsign, List.drop_zero, digitsLength_run hd rfl, Nat.zero_add, List.drop_left' rfl,
      List.head?_cons]
    decide

theorem float_eq_some {s sign whole r : Text} (hs : s = sign ++ (whole ++ '.' :: r))
    (hsign : signLength s = sign.length) (hne : whole ≠ []) (hd : ∀ c ∈ whole, c.isDigit = true) :
    Pattern.float s = some (sign.length + whole.length + 1 + digitsLength r) := by
  have hpos : whole.length ≠ 0 := fun h => hne (List.eq_nil_of_length_eq_zero h)
  have hwhole : digitsLength (s.drop sign.length) = whole.length := by
    rw [hs, List.drop_left' rfl, digitsLength_run hd rfl]
  have hrest : s.drop (sign.length + whole.length) = '.' :: r := by
    rw [hs, ← List.drop_drop, List.drop_left' rfl, List.drop_left' rfl]
  simp only [Pattern.float, hsign, hwhole, hrest]
  exact if_neg fun h => hpos h.1

theorem next_point (p : PointText) (r : Text) :
    scriptTable.next (p.text ++ '\n' :: r) = (.float, p.text.length) := by
  obtain ⟨hwne, hw⟩ := allDigits_iff.mp p.whole_digits
  obtain ⟨hpne, hp⟩ := allDigits_iff.mp p.places_digits
  have hplaces : digitsLength (p.places ++ '\n' :: r) = p.places.length := digitsLength_run hp rfl
  have hhead : ∃ c s, p.text ++ '\n' :: r = c :: s ∧ (c = '-' ∨ c.isDigit = true) := by
    unfold PointText.text
    cases p.negative with
    | true => exact ⟨_, _, rfl, Or.inl rfl⟩
    | false =>
      obtain ⟨c, s, hcs⟩ := List.exists_cons_of_ne_nil hwne
      rw [hcs] at hw ⊢
      exact ⟨c, _, rfl, Or.inr (hw c List.mem_cons_self)⟩
  have hsplit : p.text ++ '\n' :: r =
      (if p.negative then ['-'] else []) ++ (p.whole ++ '.' :: (p.places ++ '\n' :: r)) := by
    simp only [PointText.text, List.append_assoc, List.cons_append]
  have hsign : signLength (p.text ++ '\n' :: r) =
      (if p.negative then ['-'] else ([] : Text)).length := by
    rw [hsplit]
    cases p.negative with
    | true => rfl
    | false =>
      obtain ⟨c, s, hcs⟩ := List.exists_cons_of_ne_nil hwne
      rw [hcs] at hw ⊢
      refine signLength_eq_zero (Bool.eq_false_iff.mpr fun h => ?_)
      exact absurd (kind_of_isDigit (hw c List.mem_cons_self) h) (by decide)
  have hmatch : Pattern.float (p.text ++ '\n' :: r) = some p.text.length := by
    rw [float_eq_some hsplit hsign hwne hw, hplaces, PointText.text]
    simp only [List.length_append, List.length_cons]
    exact congrArg some (by omega)
  have hpos : p.text.length ≠ 0 := by
    rw [PointText.text, List.length_append, List.length_cons]
    omega
  obtain ⟨c, s, hcs, hc⟩ := hhead
  rw [hcs] at hmatch ⊢
  refine next_of_startsWith 3 rfl (fun e he => ?_) hmatch hpos
  rcases hc with rfl | hc
  · revert e
    decide
  · have hkinds : ∀ e ∈ scriptTable.patterns.take 3,
        ¬ (e.1 = .float ∨ e.1 = .binary ∨ e.1 = .mismatch) := by decide
    exact Bool.eq_false_iff.mpr fun h => hkinds e he (kind_of_isDigit hc h)

/-! ## Names, strings and blanks -/

theorem next_reference {name : Text} (h : IsIdentifier name) {r : Text}
    (hr : r.head?.all (fun c => !isNameChar c) = true) :
    scriptTable.next (name ++ r) = (.reference, name.length) := by
  have hlen := nameLength_run h hr
  cases name with
  | nil => exact absurd rfl h.ne_nil
  | cons c name =>
    have hstart : isNameStart c = true := h.1
    have hkinds : ∀ e ∈ scriptTable.patterns.take 7,
        ¬ (e.1 = .reference ∨ e.1 = .string ∨ e.1 = .mismatch) := by decide
    rw [List.cons_append] at hlen ⊢
    refine next_of_startsWith 7 rfl (fun e he => Bool.eq_false_iff.mpr fun hkind => ?_)
      (n := (c :: name).length) ?_ (Nat.succ_ne_zero _)
    · exact hkinds e he (kind_of_isNameStart hstart hkind)
    · unfold Pattern.reference
      split
      · rename_i he
        obtain ⟨rfl, _⟩ := List.cons.inj he
        exact absurd hstart (by decide)
      · rw [hlen]
        exact if_neg (Nat.succ_ne_zero _)

theorem next_quote (s r : Text) (hr : r.head?.any isQuote = false) :
    scriptTable.next (quote s ++ r) = (.string, (quote s).length) := by
  have hstring := string_quote s r hr
  have hm := isQuote_quoteMark s
  rw [quote] at hstring ⊢
  generalize quoteMark s = mark at hm hstring ⊢
  exact next_of_startsWith 8 rfl (by rcases hm with rfl | rfl <;> decide) hstring
    (Nat.succ_ne_zero _)

theorem next_blank {c : Char} (h : isBlank c = true) (s : Text) :
    scriptTable.next (c :: s) = (.blank, 1 + (s.takeWhile isBlank).length) := by
  have hkinds : ∀ e ∈ scriptTable.patterns.take 10, ¬ (e.1 = .blank ∨ e.1 = .mismatch) := by
    decide
  refine next_of_startsWith 10 rfl (fun e he => Bool.eq_false_iff.mpr fun hstart => ?_) ?_
    (by omega)
  · exact hkinds e he (kind_of_isBlank h hstart)
  · unfold Pattern.many1
    rw [List.takeWhile_cons, if_pos h, List.length_cons, if_neg (Nat.succ_ne_zero _), Nat.add_comm]

end ByteScript
