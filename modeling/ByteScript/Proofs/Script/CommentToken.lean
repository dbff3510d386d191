import ByteScript.Proofs.Scan.Tiling
import ByteScript.Proofs.Script.Concatenation

/-!
# Comments end at the first close

A comment is `/*`, then any number of units, each of them a character other than a star or stars
before a character that is neither a star nor a slash, and at the end stars and a slash. The text
decides where the units end: behind stars a slash can only close the comment, and any other character
goes on with it. So a comment is closed by the first `*/` behind its mark, and where there is none the
slash of the mark is no token.

* `Pattern.CommentUnits`, `IsCommentText`: a comment, unit by unit;
* `Pattern.exists_of_commentBody`, `Pattern.CommentUnits.commentBody_append`,
  **`Pattern.comment_eq_some_iff`**: what the pattern of a comment takes is such a text;
* `IsFirstClose`, `Pattern.exists_commentBody`, **`Pattern.comment_eq_some_iff_isFirstClose`**: it ends
  at the first close;
* **`scan_comment`**: the first token of a text that starts with the mark of a comment.
-/

namespace ByteScript

namespace Pattern

/-! ## Unit by unit -/

/-- What stands between the marks of a comment, up to the stars of the last one. -/
inductive CommentUnits : Text → Prop
  | nil : CommentUnits []
  | plain {c : Char} {s : Text} (hstar : c ≠ '*') (hs : CommentUnits s) : CommentUnits (c :: s)
  | stars (k : Nat) {c : Char} {s : Text} (hstar : c ≠ '*') (hslash : c ≠ '/')
      (hs : CommentUnits s) : CommentUnits (List.replicate (k + 1) '*' ++ c :: s)

/-- A closed comment and nothing else. -/
def IsCommentText (p : Text) : Prop :=
  ∃ (u : Text) (k : Nat), CommentUnits u ∧
    p = '/' :: '*' :: (u ++ (List.replicate (k + 1) '*' ++ ['/']))

theorem commentBody_stars (star : Bool) (k : Nat) (s : Text) :
    commentBody star (List.replicate (k + 1) '*' ++ s) = (commentBody true s).map (· + (k + 1)) := by
  have hopen : ∀ star : Bool, ¬ (star && '*' == '/') = true := by decide
  induction k generalizing star with
  | zero => rw [List.replicate_one, List.singleton_append, commentBody, if_neg (hopen star)]; rfl
  | succ k ih =>
    rw [List.replicate_succ, List.cons_append, commentBody, if_neg (hopen star), ih, Option.map_map]
    rfl

theorem commentBody_plain {star : Bool} {c : Char} (hstar : c ≠ '*') (hslash : star → c ≠ '/')
    (s : Text) : commentBody star (c :: s) = (commentBody false s).map (· + 1) := by
  have hopen : ¬ (star && c == '/') = true := by simpa using hslash
  rw [commentBody, if_neg hopen, beq_eq_false_iff_ne.mpr hstar]

/-- **Units are passed over.** -/
theorem CommentUnits.commentBody_append {u : Text} (h : CommentUnits u) (r : Text) :
    commentBody false (u ++ r) = (commentBody false r).map (· + u.length) := by
  induction h with
  | nil => simp
  | @plain c s hstar _ ih =>
    rw [List.cons_append, commentBody_plain hstar (by simp), ih, Option.map_map]
    rfl
  | @stars k c s hstar hslash _ ih =>
    rw [List.append_assoc, commentBody_stars, List.cons_append,
      commentBody_plain hstar (fun _ => hslash), ih, Option.map_map, Option.map_map]
    refine congrArg (Option.map · _) (funext fun n => ?_)
    simp only [Function.comp_apply, List.length_append, List.length_replicate, List.length_cons]
    omega

theorem IsCommentText.comment_append {p : Text} (h : IsCommentText p) (r : Text) :
    comment (p ++ r) = some p.length := by
  obtain ⟨u, k, hu, rfl⟩ := h
  have hclose : commentBody true ('/' :: r) = some 1 := rfl
  rw [List.cons_append, List.cons_append, comment, List.append_assoc, List.append_assoc,
    hu.commentBody_append, commentBody_stars, List.singleton_append, hclose]
  simp only [Option.map_some, List.length_cons, List.length_append, List.length_replicate,
    List.length_nil]
  exact congrArg some (by omega)

/-- **What is taken behind pending stars**, together with them: units, stars and a slash. -/
theorem exists_of_commentBody {k n : Nat} {s : Text} (h : commentBody (k != 0) s = some n) :
    ∃ (u : Text) (m : Nat) (r : Text), CommentUnits u ∧
      List.replicate k '*' ++ s = u ++ (List.replicate (m + 1) '*' ++ '/' :: r) ∧
      k + n = u.length + m + 2 := by
  induction s generalizing k n with
  | nil => cases h
  | cons c s ih =>
    rw [commentBody] at h
    split at h
    · next hclose =>
      obtain rfl := Option.some.inj h
      obtain ⟨hk, rfl⟩ : k ≠ 0 ∧ c = '/' := by simpa using hclose
      obtain ⟨m, rfl⟩ := Nat.exists_eq_add_one_of_ne_zero hk
      exact ⟨[], m, s, .nil, rfl, by simp⟩
    · next hopen =>
      obtain ⟨n, hn, rfl⟩ := Option.map_eq_some_iff.mp h
      by_cases hstar : c = '*'
      · -- one more star is pending
        subst hstar
        obtain ⟨u, m, r, hu, hs, hlength⟩ := ih (k := k + 1) hn
        refine ⟨u, m, r, hu, ?_, by omega⟩
        rw [← hs, List.replicate_succ', List.append_assoc, List.singleton_append]
      · -- the stars and this character are a unit, and none is pending
        rw [beq_eq_false_iff_ne.mpr hstar] at hn
        obtain ⟨u, m, r, hu, hs, hlength⟩ := ih (k := 0) hn
        rw [List.replicate_zero, List.nil_append] at hs
        refine ⟨List.replicate k '*' ++ c :: u, m, r, ?_, by rw [hs]; simp, by simp; omega⟩
        cases k with
        | zero => exact .plain hstar hu
        | succ k => exact .stars k hstar (by simpa using hopen) hu

/-- **The pattern of a comment takes a closed comment**, whatever follows it. -/
theorem comment_eq_some_iff {s : Text} {n : Nat} :
    comment s = some n ↔ ∃ p r, IsCommentText p ∧ s = p ++ r ∧ p.length = n := by
  constructor
  · intro h
    unfold comment at h
    split at h
    · next s =>
      obtain ⟨m, hm, rfl⟩ := Option.map_eq_some_iff.mp h
      obtain ⟨u, k, r, hu, hs, hlength⟩ := exists_of_commentBody (k := 0) hm
      refine ⟨_, r, ⟨u, k, hu, rfl⟩, ?_, ?_⟩
      · rw [List.replicate_zero, List.nil_append] at hs
        simp [hs]
      · simp only [List.length_cons, List.length_append, List.length_replicate, List.length_nil]
        omega
    · cases h
  · rintro ⟨p, r, hp, rfl, rfl⟩
    exact hp.comment_append r

/-- No more than one start of a text is a closed comment. -/
theorem isCommentText_iff {p s : Text} (hp : p <+: s) :
    IsCommentText p ↔ comment s = some p.length := by
  constructor
  · intro h
    obtain ⟨r, rfl⟩ := hp
    exact h.comment_append r
  · intro h
    obtain ⟨q, r, hq, rfl, hlength⟩ := comment_eq_some_iff.mp h
    have hle := List.prefix_of_prefix_length_le hp (List.prefix_append q r) hlength.ge
    exact hle.eq_of_length hlength.symm ▸ hq

end Pattern

/-! ## The first close -/

/-- The parts of a text before and after the first close of a comment. -/
structure IsFirstClose (s a b : Text) : Prop where
  eq_append : s = a ++ '*' :: '/' :: b
  length_le : ∀ a' b', s = a' ++ '*' :: '/' :: b' → a.length ≤ a'.length

namespace Pattern

/-- Where there is a close, that one or another before it is taken. -/
theorem exists_commentBody (star : Bool) (a b : Text) :
    ∃ n ≤ a.length + 2, commentBody star (a ++ '*' :: '/' :: b) = some n := by
  induction a generalizing star with
  | nil => exact ⟨2, Nat.le_refl 2, by cases star <;> rfl⟩
  | cons c a ih =>
    rw [List.cons_append, commentBody, List.length_cons]
    split
    · exact ⟨1, by omega, rfl⟩
    · obtain ⟨n, hn, htake⟩ := ih (c == '*')
      exact ⟨n + 1, by omega, by rw [htake]; rfl⟩

theorem isFirstClose_of_commentBody {s : Text} {n : Nat} (h : commentBody false s = some n) :
    ∃ a b, IsFirstClose s a b ∧ a.length + 2 = n := by
  obtain ⟨u, m, r, -, hs, hlength⟩ := exists_of_commentBody (k := 0) h
  refine ⟨u ++ List.replicate m '*', r, ⟨?_, fun a' b' hs' => ?_⟩, ?_⟩
  · rw [← List.nil_append s, ← List.replicate_zero, hs, List.replicate_succ']
    simp
  · obtain ⟨n', hn', htake⟩ := exists_commentBody false a' b'
    rw [← hs', h] at htake
    obtain rfl := Option.some.inj htake
    rw [List.length_append, List.length_replicate]
    omega
  · rw [List.length_append, List.length_replicate]
    omega

/-- **A comment ends at the first close** behind its mark. -/
theorem comment_eq_some_iff_isFirstClose {s : Text} {n : Nat} :
    comment ('/' :: '*' :: s) = some n ↔ ∃ a b, IsFirstClose s a b ∧ a.length + 4 = n := by
  rw [comment, Option.map_eq_some_iff]
  constructor
  · rintro ⟨m, hm, rfl⟩
    obtain ⟨a, b, hclose, rfl⟩ := isFirstClose_of_commentBody hm
    exact ⟨a, b, hclose, rfl⟩
  · rintro ⟨a, b, hclose, rfl⟩
    obtain ⟨m, -, hm⟩ := exists_commentBody false a b
    rw [← hclose.eq_append] at hm
    obtain ⟨a', b', hclose', rfl⟩ := isFirstClose_of_commentBody hm
    have hle := hclose.length_le a' b' hclose'.eq_append
    have hge := hclose'.length_le a b hclose.eq_append
    exact ⟨_, hm, by omega⟩

end Pattern

theorem exists_isFirstClose {s : Text} (h : ['*', '/'] <:+: s) : ∃ a b, IsFirstClose s a b := by
  obtain ⟨a, b, rfl⟩ := h
  obtain ⟨n, -, hn⟩ := Pattern.exists_commentBody false a b
  obtain ⟨a', b', hclose, -⟩ := Pattern.isFirstClose_of_commentBody hn
  exact ⟨a', b', by simpa using hclose⟩

/-! ## The first token -/

theorem next_of_isFirstClose {s a b : Text} (h : IsFirstClose s a b) :
    scriptTable.next ('/' :: '*' :: s) = (.comment, a.length + 4) :=
  next_of_isMarkOf (Or.inr (Or.inr ⟨rfl, rfl⟩)) rfl
    (Pattern.comment_eq_some_iff_isFirstClose.mpr ⟨a, b, h, rfl⟩)

theorem comment_eq_none_of_no_close {s : Text} (h : ¬ ['*', '/'] <:+: s) :
    Pattern.comment ('/' :: '*' :: s) = none := by
  refine Option.eq_none_iff_forall_ne_some.mpr fun n hn => h ?_
  obtain ⟨a, b, hclose, -⟩ := Pattern.comment_eq_some_iff_isFirstClose.mp hn
  exact ⟨a, b, by simp [hclose.eq_append]⟩

theorem next_of_no_close {s : Text} (h : ¬ ['*', '/'] <:+: s) :
    scriptTable.next ('/' :: '*' :: s) = (.mismatch, 1) := by
  refine next_mismatch fun q hq => ?_
  obtain ⟨e, he, rfl⟩ := List.mem_map.mp hq
  have hcomment : scriptTable.patterns[9]? = some (.comment, Pattern.comment) := rfl
  have hkinds : ∀ e ∈ scriptTable.patterns, e.1.startsWith '/' = true → e.1 = .comment := by decide
  exact eq_none_of_kind hcomment (comment_eq_none_of_no_close h) he (hkinds e he)

/-- **A comment ends at the first close.** Of a text that starts with the mark of a comment the first
token of a tolerant scan, whatever kinds that leaves out, is a comment exactly if a close stands
somewhere behind the mark, and the comment then ends right behind the first one. Otherwise it is the
slash alone, which no pattern takes. Read unit by unit the text has no other comment at its start. -/
theorem scan_comment (s : Text) :
    ∃ (k : Token ScriptKind) (ts : List (Token ScriptKind)),
      (∀ remove, scriptTable.scan remove false ('/' :: '*' :: s) =
        .ok ((k :: ts).filter fun t => !remove.contains t.kind)) ∧
      (k.kind = .comment ↔ ['*', '/'] <:+: s) ∧
      (['*', '/'] <:+: s → ∃ a b, IsFirstClose s a b ∧
        k = ⟨.comment, '/' :: '*' :: (a ++ ['*', '/']), 0, 1⟩) ∧
      (¬ ['*', '/'] <:+: s → k = ⟨.mismatch, ['/'], 0, 1⟩) ∧
      ∀ p, p <+: '/' :: '*' :: s →
        (Pattern.IsCommentText p ↔ k.kind = .comment ∧ p = k.text) := by
  by_cases hs : ['*', '/'] <:+: s
  · obtain ⟨a, b, hclose⟩ := exists_isFirstClose hs
    have hsplit : '/' :: '*' :: s = ('/' :: '*' :: (a ++ ['*', '/'])) ++ b := by
      simp [hclose.eq_append]
    have hnext : scriptTable.next (('/' :: '*' :: (a ++ ['*', '/'])) ++ b) =
        (.comment, ('/' :: '*' :: (a ++ ['*', '/'])).length) := by
      rw [← hsplit, next_of_isFirstClose hclose]
      simp
    obtain ⟨ts, hscan⟩ := (Table.cutsOff_of_next (List.cons_ne_nil _ _) hnext).scan_tolerant
    refine ⟨_, ts, fun remove => hsplit ▸ hscan remove, iff_of_true rfl hs,
      fun _ => ⟨a, b, hclose, rfl⟩, fun h => absurd hs h, fun p hp => ?_⟩
    have htake : Pattern.comment ('/' :: '*' :: s) =
        some ('/' :: '*' :: (a ++ ['*', '/'])).length :=
      Pattern.comment_eq_some_iff_isFirstClose.mpr ⟨a, b, hclose, by simp⟩
    rw [Pattern.isCommentText_iff hp, htake]
    constructor
    · intro h
      have hlength := (Option.some.inj h).symm
      have htext : '/' :: '*' :: (a ++ ['*', '/']) <+: '/' :: '*' :: s := ⟨b, hsplit.symm⟩
      exact ⟨rfl, (List.prefix_of_prefix_length_le hp htext hlength.le).eq_of_length hlength⟩
    · rintro ⟨-, rfl⟩
      rfl
  · have hnext : scriptTable.next (['/'] ++ '*' :: s) = (.mismatch, ['/'].length) :=
      next_of_no_close hs
    obtain ⟨ts, hscan⟩ := (Table.cutsOff_of_next (List.cons_ne_nil _ _) hnext).scan_tolerant
    refine ⟨_, ts, hscan, iff_of_false (by decide) hs, fun h => absurd h hs, fun _ => rfl,
      fun p hp => ?_⟩
    rw [Pattern.isCommentText_iff hp, comment_eq_none_of_no_close hs]
    exact iff_of_false nofun fun h => absurd h.1 (by decide)

example : scriptTable.next "/**/ /* a * b **/".toList = (.comment, 4) := by decide

end ByteScript
