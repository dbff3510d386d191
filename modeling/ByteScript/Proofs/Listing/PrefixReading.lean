import Mathlib.Data.List.Basic
import ByteScript.Proofs.Listing.Coverage

/-!
# Listings and the bytes behind them

What a listing says depends on the bytes that it consumes and on no others. More bytes behind them
change only what is left over, and of the errors only those that say that bytes are missing. Such
an error says truly how many are missing: with fewer than these added it is still there.

* `ListingFault.IsShortage`: the faults that more bytes can mend; `ListingFault.Remains`,
  `ListingFault.grow`: some bytes do not mend a fault, and what it says then;
* `ReadsPrefix`: a reader that sees only the bytes that it takes, and how many there are only where
  they do not suffice; `ReadsPrefix.bind`, `ReadsPrefix.capture`, `ReadsPrefix.guard`: readers from
  readers;
* `readsPrefix_readValues`, `readsPrefix_readText`, `readsPrefix_readStructs`,
  `readsPrefix_readField`, `readsPrefix_readFields`: each reader of a listing is one;
* **`readsPrefix_decodeWithin`**, **`decompile_of_agree`**: occurrences and whole listings;
* **`decompile_of_truncated`**: listings of too few bytes.
-/

namespace ByteScript

/-- The fault is that there are too few bytes. -/
def ListingFault.IsShortage : ListingFault → Prop
  | .truncated .. | .repeatCount .. => True
  | _ => False

instance (fault : ListingFault) : Decidable fault.IsShortage := by
  cases fault <;> simp only [ListingFault.IsShortage] <;> infer_instance

/-- There are still too few bytes if there are `k` more of them; a fault that is no shortage
remains anyway. -/
def ListingFault.Remains (k : Nat) : ListingFault → Prop
  | .truncated _ needed available => available + k < needed
  | .repeatCount count available => max (available + k) 1 < count
  | _ => True

/-- A fault that remains with `k` bytes more: a shortage counts them among those available. -/
def ListingFault.grow (k : Nat) : ListingFault → ListingFault
  | .truncated offset needed available => .truncated offset needed (available + k)
  | .repeatCount count available => .repeatCount count (available + k)
  | fault => fault

def ListingError.grow (k : Nat) (e : ListingError) : ListingError := ⟨e.field, e.fault.grow k⟩

theorem ListingFault.remains_of_not_isShortage {fault : ListingFault} (h : ¬ fault.IsShortage)
    (k : Nat) : fault.Remains k := by
  cases fault
  case truncated => exact absurd trivial h
  case repeatCount => exact absurd trivial h
  all_goals exact trivial

theorem ListingError.grow_of_not_isShortage {e : ListingError} (h : ¬ e.fault.IsShortage)
    (k : Nat) : e.grow k = e := by
  obtain ⟨f, fault⟩ := e
  cases fault
  case truncated => exact absurd trivial h
  case repeatCount => exact absurd trivial h
  all_goals rfl

/-- The computation has no error for want of bytes. -/
def NoShortage {α : Type} (x : Except ListingError α) : Prop :=
  ∀ e, x = .error e → ¬ e.fault.IsShortage

theorem noShortage_ok {α : Type} (a : α) : NoShortage (.ok a) := by
  intro e he
  cases he

/-- The reader sees only the bytes that it takes: its result stays the same on any bytes that start
with those and are not fewer, and an error stays if bytes are added that do not mend it. -/
structure ReadsPrefix {α : Type} (taken : α → Nat) (read : Bytes → Except ListingError α) :
    Prop where
  taken_le : ∀ {bs a}, read bs = .ok a → taken a ≤ bs.length
  eq_ok : ∀ {bs bs' a}, read bs = .ok a → bs.length ≤ bs'.length →
    bs'.take (taken a) = bs.take (taken a) → read bs' = .ok a
  remains : ∀ {bs e}, read bs = .error e → e.fault.Remains 0
  eq_grow : ∀ {bs e}, read bs = .error e → ∀ x : Bytes, e.fault.Remains x.length →
    read (bs ++ x) = .error (e.grow x.length)

namespace ReadsPrefix

variable {α β γ : Type} {taken : α → Nat} {read : Bytes → Except ListingError α}

/-- A reader that reads nothing. -/
theorem const {x : Except ListingError α} (h : ∀ a, x = .ok a → taken a = 0)
    (hx : NoShortage x) : ReadsPrefix taken fun _ => x where
  taken_le ha := by
    rw [h _ ha]
    exact Nat.zero_le _
  eq_ok ha _ _ := ha
  remains he := ListingFault.remains_of_not_isShortage (hx _ he) 0
  eq_grow he _ _ := by rw [he, ListingError.grow_of_not_isShortage (hx _ he)]

theorem const_ok {a : α} (h : taken a = 0) : ReadsPrefix taken fun _ => .ok a :=
  const (fun _ hb => Except.ok.inj hb ▸ h) (noShortage_ok a)

/-- What does not come from the bytes may stand in front of a reader. -/
theorem choose {x : Except ListingError γ} (hx : NoShortage x)
    {f : γ → Bytes → Except ListingError α} (h : ∀ c, x = .ok c → ReadsPrefix taken (f c)) :
    ReadsPrefix taken fun bs => x >>= fun c => f c bs := by
  cases x with
  | error e =>
    change ReadsPrefix taken fun _ => .error e
    exact const nofun fun d hd => Except.error.inj hd ▸ hx e rfl
  | ok c => exact h c rfl

/-- An error that is no shortage stays whatever bytes are added. -/
theorem eq_error (h : ReadsPrefix taken read) {bs : Bytes} {e : ListingError}
    (he : read bs = .error e) (hfault : ¬ e.fault.IsShortage) (x : Bytes) :
    read (bs ++ x) = .error e := by
  rw [h.eq_grow he x (ListingFault.remains_of_not_isShortage hfault _),
    ListingError.grow_of_not_isShortage hfault]

theorem eq_ok_append (h : ReadsPrefix taken read) {bs : Bytes} {a : α} (ha : read bs = .ok a)
    (x : Bytes) : read (bs ++ x) = .ok a := by
  refine h.eq_ok ha ?_ (List.take_append_of_le_length (h.taken_le ha))
  rw [List.length_append]
  exact Nat.le_add_right _ _

theorem of_eq (h : ReadsPrefix taken read) {read' : Bytes → Except ListingError α}
    (heq : ∀ bs, read' bs = read bs) : ReadsPrefix taken read' := funext heq ▸ h

theorem congr (h : ReadsPrefix taken read) {taken' : α → Nat}
    (hsame : ∀ {bs a}, read bs = .ok a → taken' a = taken a) : ReadsPrefix taken' read where
  taken_le ha := hsame ha ▸ h.taken_le ha
  eq_ok ha hlen hagree := h.eq_ok ha hlen (hsame ha ▸ hagree)
  remains := h.remains
  eq_grow := h.eq_grow

/-- **One reader after the other**, where the second goes on behind what the first has taken. -/
theorem bind (h : ReadsPrefix taken read) {g : α → Bytes → Except ListingError β}
    {m : β → Nat} (hg : ∀ a, ReadsPrefix m (g a)) {f : α → β → γ}
    {t : γ → Nat} (ht : ∀ a b, t (f a b) = taken a + m b) :
    ReadsPrefix t fun bs => do
      let a ← read bs
      let b ← g a (bs.drop (taken a))
      return f a b where
  taken_le {bs c} hc := by
    obtain ⟨a, ha, hc⟩ := exists_of_bind_eq_ok hc
    obtain ⟨b, hb, hc⟩ := exists_of_bind_eq_ok hc
    obtain rfl := Except.ok.inj hc
    have hfirst := h.taken_le ha
    have hsecond := (hg a).taken_le hb
    rw [List.length_drop] at hsecond
    rw [ht]
    omega
  eq_ok {bs bs' c} hc hlen hagree := by
    obtain ⟨a, ha, hc⟩ := exists_of_bind_eq_ok hc
    obtain ⟨b, hb, hc⟩ := exists_of_bind_eq_ok hc
    obtain rfl := Except.ok.inj hc
    rw [ht, List.take_add, List.take_add] at hagree
    have hfirst := h.taken_le ha
    have hlength : (bs'.take (taken a)).length = (bs.take (taken a)).length := by
      rw [List.length_take, List.length_take]
      omega
    obtain ⟨hbefore, hbehind⟩ := List.append_inj hagree hlength
    have hrest : (bs.drop (taken a)).length ≤ (bs'.drop (taken a)).length := by
      rw [List.length_drop, List.length_drop]
      omega
    rw [h.eq_ok ha hlen hbefore, ok_bind, (hg a).eq_ok hb hrest hbehind]
    rfl
  remains he := by
    rcases bind_eq_error_iff.mp he with ha | ⟨a, -, he⟩
    · exact h.remains ha
    · rcases bind_eq_error_iff.mp he with hb | ⟨b, -, he⟩
      · exact (hg a).remains hb
      · cases he
  eq_grow {bs e} he x hremains := by
    rcases bind_eq_error_iff.mp he with ha | ⟨a, ha, he⟩
    · rw [h.eq_grow ha x hremains, error_bind]
    · have hdrop : (bs ++ x).drop (taken a) = bs.drop (taken a) ++ x :=
        List.drop_append_of_le_length (h.taken_le ha)
      rcases bind_eq_error_iff.mp he with hb | ⟨b, hb, he⟩
      · rw [h.eq_ok_append ha x, ok_bind, hdrop, (hg a).eq_grow hb x hremains, error_bind]
      · cases he

theorem map (h : ReadsPrefix taken read) (f : α → γ) {total : γ → Nat}
    (htotal : ∀ a, total (f a) = taken a) :
    ReadsPrefix total fun bs => do
      let a ← read bs
      return f a :=
  h.bind (g := fun _ _ => .ok ()) (m := fun _ => 0) (fun _ => const_ok rfl) fun a _ => htotal a

/-- A reader beside the bytes that it takes. -/
theorem capture (h : ReadsPrefix taken read) :
    ReadsPrefix (fun p : α × Bytes => taken p.1) fun bs =>
      (read bs).map fun a => (a, bs.take (taken a)) where
  taken_le hp := by
    obtain ⟨a, ha, rfl⟩ := exists_of_map_eq_ok hp
    exact h.taken_le ha
  eq_ok {bs bs' p} hp hlen hagree := by
    obtain ⟨a, ha, rfl⟩ := exists_of_map_eq_ok hp
    simp only [h.eq_ok ha hlen hagree, Except.map, hagree]
  remains he := h.remains (map_eq_error_iff.mp he)
  eq_grow he x hremains := by
    rw [h.eq_grow (map_eq_error_iff.mp he) x hremains]
    rfl

/-- A reader that is tried only where there are bytes enough. -/
theorem guard (h : ReadsPrefix taken read) {p : Bytes → Prop} [DecidablePred p]
    (hp : ∀ {bs bs'}, bs.length ≤ bs'.length → ¬ p bs → ¬ p bs') {e : Bytes → ListingError}
    (hremains : ∀ {bs}, p bs → (e bs).fault.Remains 0)
    (hgrow : ∀ {bs x : Bytes}, p bs → (e bs).fault.Remains x.length →
      p (bs ++ x) ∧ e (bs ++ x) = (e bs).grow x.length) :
    ReadsPrefix taken fun bs => if p bs then .error (e bs) else read bs where
  taken_le {bs a} ha := by
    by_cases hbs : p bs
    · rw [if_pos hbs] at ha
      cases ha
    · rw [if_neg hbs] at ha
      exact h.taken_le ha
  eq_ok {bs bs' a} ha hlen hagree := by
    by_cases hbs : p bs
    · rw [if_pos hbs] at ha
      cases ha
    · rw [if_neg hbs] at ha
      rw [if_neg (hp hlen hbs)]
      exact h.eq_ok ha hlen hagree
  remains {bs d} hd := by
    by_cases hbs : p bs
    · rw [if_pos hbs] at hd
      exact Except.error.inj hd ▸ hremains hbs
    · rw [if_neg hbs] at hd
      exact h.remains hd
  eq_grow {bs d} hd x hx := by
    by_cases hbs : p bs
    · rw [if_pos hbs] at hd
      obtain rfl := Except.error.inj hd
      obtain ⟨hmore, he⟩ := hgrow hbs hx
      rw [if_pos hmore, he]
    · have hlen : bs.length ≤ (bs ++ x).length := by
        rw [List.length_append]
        exact Nat.le_add_right _ _
      rw [if_neg hbs] at hd
      rw [if_neg (hp hlen hbs)]
      exact h.eq_grow hd x hx

end ReadsPrefix

/-! ## Errors of the parts of a reader -/

section Shortage

variable {layout : Layout} {captures : Captures} {f : Field} {fault : ListingFault}

theorem noShortage_mapError {α : Type} {x : Except ListingFault α}
    (h : ∀ {fault}, x = .error fault → ¬ fault.IsShortage) :
    NoShortage (x.mapError (ListingError.mk f)) := by
  intro e he
  obtain ⟨fault, hx, rfl⟩ := exists_of_mapError_eq_error he
  exact h hx

theorem not_isShortage_of_repeatCount (h : repeatCount captures f = .error fault) :
    ¬ fault.IsShortage := by
  unfold repeatCount at h
  split at h
  · cases h
  · cases h
  · split at h
    · cases h
    · exact Except.error.inj h ▸ id

theorem not_isShortage_of_resolveWidth (h : resolveWidth layout f = .error fault) :
    ¬ fault.IsShortage := by
  unfold resolveWidth at h
  split at h
  · cases h
  · split at h
    · cases h
    · split at h
      · cases h
      · exact Except.error.inj h ▸ id

theorem not_isShortage_of_selectEntry {value : Int} {entries : List Text}
    (h : selectEntry layout value entries = .error fault) : ¬ fault.IsShortage := by
  induction entries with
  | nil => exact Except.error.inj h ▸ id
  | cons entry entries ih =>
    rw [selectEntry] at h
    split at h
    · exact Except.error.inj h ▸ id
    · split at h
      · exact Except.error.inj h ▸ id
      · split at h
        · split at h
          · cases h
          · exact Except.error.inj h ▸ id
        · exact ih h

theorem not_isShortage_of_selectCase (h : selectCase layout captures f = .error fault) :
    ¬ fault.IsShortage := by
  unfold selectCase at h
  split at h
  · exact Except.error.inj h ▸ id
  · split at h
    · exact Except.error.inj h ▸ id
    · exact not_isShortage_of_selectEntry h

theorem not_isShortage_of_signedText {bs : Bytes} (h : signedText bs = .error fault) :
    ¬ fault.IsShortage := by
  unfold signedText at h
  split at h
  · cases h
  · exact Except.error.inj h ▸ id

theorem not_isShortage_of_floatValueText {bs : Bytes} (h : floatValueText bs = .error fault) :
    ¬ fault.IsShortage := by
  unfold floatValueText at h
  split at h
  · cases h
  · exact Except.error.inj h ▸ id

theorem not_isShortage_of_valueText {bs : Bytes} (h : valueText layout f bs = .error fault) :
    ¬ fault.IsShortage := by
  have hsigned (h : (signedText bs).map (directed f) = .error fault) :=
    not_isShortage_of_signedText (map_eq_error_iff.mp h)
  unfold valueText at h
  cases hformat : f.format <;> simp only [hformat] at h
  case float => exact not_isShortage_of_floatValueText (map_eq_error_iff.mp h)
  case binary => cases h
  case hex => cases h
  case define =>
    split at h
    · cases h
    · exact hsigned h
  all_goals exact hsigned h

theorem eq_of_take_eq_error {offset n : Nat} {bs : Bytes} {e : ListingError}
    (h : (Cursor.take ⟨offset, bs⟩ n).mapError (ListingError.mk f) = .error e) :
    bs.length < n ∧ e = ⟨f, .truncated offset n bs.length⟩ := by
  obtain ⟨fault, hshort, rfl⟩ := exists_of_mapError_eq_error h
  unfold Cursor.take at hshort
  split at hshort
  · cases hshort
  · rename_i hlen
    exact ⟨Nat.not_le.mp hlen, Except.error.inj hshort ▸ rfl⟩

end Shortage

/-! ## Readers of a listing -/

section Readers

variable (st : Settings) (layout : Layout) (f : Field)

theorem readsPrefix_take (offset n : Nat) :
    ReadsPrefix (fun _ => n) fun bs =>
      (Cursor.take ⟨offset, bs⟩ n).mapError (ListingError.mk f) where
  taken_le ha := (eq_of_take_eq_ok (mapError_eq_ok_iff.mp ha)).1
  eq_ok {bs bs' a} ha hlen hagree := by
    obtain ⟨hn, rfl⟩ := eq_of_take_eq_ok (mapError_eq_ok_iff.mp ha)
    rw [Cursor.take, if_pos (Nat.le_trans hn hlen), ← hagree]
    rfl
  remains he := by
    obtain ⟨hlt, rfl⟩ := eq_of_take_eq_error he
    exact hlt
  eq_grow {bs e} he x hx := by
    obtain ⟨-, rfl⟩ := eq_of_take_eq_error he
    have hshort : ¬ n ≤ (bs ++ x).length := by
      rw [List.length_append]
      exact Nat.not_le.mpr hx
    rw [Cursor.take, if_neg hshort, List.length_append]
    rfl

theorem readsPrefix_readValues (width count offset : Nat) :
    ReadsPrefix Block.size fun bs => readValues layout f width count ⟨offset, bs⟩ := by
  induction count generalizing offset with
  | zero => exact ReadsPrefix.const_ok rfl
  | succ count ih =>
    have hvalue : ReadsPrefix (fun _ => width) fun bs => do
        let a ← (Cursor.take ⟨offset, bs⟩ width).mapError (ListingError.mk f)
        let text ← (valueText layout f a).mapError (ListingError.mk f)
        return (a, text) :=
      (readsPrefix_take f offset width).bind (m := fun _ => 0)
        (fun a => ReadsPrefix.const (fun _ _ => rfl)
          (noShortage_mapError not_isShortage_of_valueText)) fun _ _ => rfl
    have hvalues := hvalue.bind (fun _ => ih (offset + width)) (t := Block.size)
      (f := fun v more => ⟨⟨0, v.1, v.2⟩ :: more.lines, width + more.size,
        if count = 0 then v.1 else more.captured⟩) fun _ _ => rfl
    simp only [bind_assoc, pure_bind] at hvalues
    simp only [readValues]
    exact hvalues

theorem readsPrefix_readText (width count offset : Nat) :
    ReadsPrefix Block.size fun bs => readText st f width count ⟨offset, bs⟩ := by
  have hlength : ReadsPrefix List.length fun bs =>
      (Cursor.take ⟨offset, bs⟩ (min (width * count) maxSize)).mapError (ListingError.mk f) :=
    (readsPrefix_take f offset _).congr fun ha => by
      obtain ⟨hn, rfl⟩ := eq_of_take_eq_ok (mapError_eq_ok_iff.mp ha)
      exact List.length_take_of_le hn
  have hdecode (a : Bytes) : NoShortage
      ((st.encoding.decode? a).elim (.error ⟨f, .malformed st.encoding.name⟩) Except.ok) := by
    cases st.encoding.decode? a with
    | none => exact fun e he => Except.error.inj he ▸ id
    | some s => exact noShortage_ok s
  have htext := hlength.bind (t := Block.size) (m := fun _ => 0)
    (g := fun a _ => (st.encoding.decode? a).elim (.error ⟨f, .malformed st.encoding.name⟩) .ok)
    (f := fun a s => ⟨[⟨0, a, quote s⟩], a.length, a⟩)
    (fun a => ReadsPrefix.const (fun _ _ => rfl) (hdecode a)) fun _ _ => rfl
  refine htext.of_eq fun bs => bind_congr fun a => ?_
  cases st.encoding.decode? a <;> rfl

theorem readsPrefix_readStructs {nested : Bytes → Except ListingError Occurrence}
    (hnested : ReadsPrefix Occurrence.size nested) (count offset : Nat) :
    ReadsPrefix Block.size fun bs => readStructs nested count ⟨offset, bs⟩ := by
  induction count generalizing offset with
  | zero => exact ReadsPrefix.const_ok rfl
  | succ count ih =>
    have hstructs := hnested.capture.bind (fun v => ih (offset + v.1.size)) (t := Block.size)
      (f := fun v more => ⟨v.1.lines.map Line.indent ++ more.lines, v.1.size + more.size,
        if count = 0 then v.2 else more.captured⟩) fun _ _ => rfl
    refine hstructs.of_eq fun bs => ?_
    rw [readStructs]
    cases nested bs <;> rfl

/-- **A field reads a prefix**, if its structures do. -/
theorem readsPrefix_readField
    {nested : Field → FieldList → Bytes → Except ListingError Occurrence}
    (hnested : ∀ f fields, ReadsPrefix Occurrence.size (nested f fields)) (captures : Captures)
    (offset : Nat) :
    ReadsPrefix Block.size fun bs => readField st layout nested captures ⟨offset, bs⟩ f := by
  refine ReadsPrefix.choose (noShortage_mapError not_isShortage_of_repeatCount) fun count _ =>
    ReadsPrefix.choose (noShortage_mapError not_isShortage_of_resolveWidth) fun width _ => ?_
  -- the one check of how many bytes there are is that of an empty field
  refine ReadsPrefix.guard
    (p := fun bs => (mayBeEmpty f width && decide (max bs.length 1 < count)) = true)
    (e := fun bs => ⟨f, .repeatCount count bs.length⟩) ?_ ?_ ?_ ?_
  · cases width with
    | fixed n =>
      by_cases hformat : f.format = .text
      · simp only [hformat, if_true]
        exact readsPrefix_readText st f n count offset
      · simp only [hformat, if_false]
        exact readsPrefix_readValues layout f n count offset
    | struct fields => exact readsPrefix_readStructs (hnested f fields) count offset
    | switch =>
      refine ReadsPrefix.choose (noShortage_mapError not_isShortage_of_selectCase)
        fun fields _ => ?_
      exact (readsPrefix_readStructs (hnested f fields) count offset).map _ fun _ => rfl
  · intro bs bs' hlen hbs hbs'
    simp only [Bool.and_eq_true, decide_eq_true_eq] at hbs hbs'
    exact hbs ⟨hbs'.1, by omega⟩
  · intro bs hbs
    simp only [Bool.and_eq_true, decide_eq_true_eq] at hbs
    exact hbs.2
  · intro bs x hbs hx
    simp only [Bool.and_eq_true, decide_eq_true_eq] at hbs ⊢
    rw [List.length_append]
    exact ⟨⟨hbs.1, hx⟩, rfl⟩

/-- **Fields in order read a prefix**, if each field does. -/
theorem readsPrefix_readFields {field : Captures → Cursor → Field → Except ListingError Block}
    (hfield : ∀ captures offset f,
      ReadsPrefix Block.size fun bs => field captures ⟨offset, bs⟩ f)
    (fs : List Field) (captures : Captures) (offset : Nat) :
    ReadsPrefix Occurrence.size fun bs => readFields field captures ⟨offset, bs⟩ fs := by
  induction fs generalizing captures offset with
  | nil => exact ReadsPrefix.const_ok rfl
  | cons f fs ih =>
    exact (hfield captures offset f).bind
      (fun block => ih (captures.keep f block.captured) (offset + block.size)) fun _ _ => rfl

end Readers

/-! ## Listings -/

variable (st : Settings) (layout : Layout)

/-- **An occurrence of fields reads a prefix**, at every depth. -/
theorem readsPrefix_decodeWithin (depth : Nat) (fields : FieldList) :
    ReadsPrefix Occurrence.size (decodeWithin st layout depth fields) := by
  induction depth generalizing fields with
  | zero =>
    refine readsPrefix_readFields (fun captures offset f => readsPrefix_readField st layout f
      (fun g _ => ReadsPrefix.const (fun r hr => ?_) fun e he => ?_) captures offset)
      fields.fields [] 0
    · cases hr
    · exact Except.error.inj he ▸ id
  | succ depth ih =>
    exact readsPrefix_readFields (fun captures offset f => readsPrefix_readField st layout f
      (fun _ fields => ih fields) captures offset) fields.fields [] 0

/-- **A listing says nothing of the bytes behind it.** On bytes that are not fewer and start with
those that a listing consumes there is the same listing, only with what then is left over; and an
error that is no shortage of bytes stays whatever bytes are added. -/
theorem decompile_of_agree (bs : Bytes) :
    (∀ l, decompile st layout bs = .ok l → ∀ bs' : Bytes, bs.length ≤ bs'.length →
      bs'.take l.consumed = bs.take l.consumed →
      decompile st layout bs' = .ok ⟨l.lines, l.consumed, bs'.drop l.consumed⟩) ∧
    ∀ e, decompile st layout bs = .error e → ¬ e.fault.IsShortage →
      ∀ x, decompile st layout (bs ++ x) = .error e := by
  have hread := readsPrefix_decodeWithin st layout st.maxDepth layout.format
  constructor
  · intro l hl bs' hlen hagree
    rw [decompile] at hl
    obtain ⟨r, hr, hl⟩ := exists_of_bind_eq_ok hl
    obtain rfl := Except.ok.inj hl
    rw [decompile, hread.eq_ok hr hlen hagree]
    rfl
  · intro e he hfault x
    rw [decompile] at he
    rcases bind_eq_error_iff.mp he with hr | ⟨r, _, hr⟩
    · rw [decompile, hread.eq_error hr hfault x, error_bind]
    · cases hr

/-- A count, as many pairs and a case by the byte after them. -/
def pairsLayout : Layout where
  format := .lines ["[tag]$n [pair:$n] [tag]$k [5=pair]?$k".toList]
  sizes := [("tag".toList, 1)]
  structs := [("pair".toList, .lines ["[1]h [1]d".toList])]
  defines_dictionary := isDictionary_nil

/-- The lines of one pair and the case of another. -/
def pairsListing (leftover : Bytes) : Listing where
  lines := [⟨0, [1], "[tag] +1".toList⟩, ⟨1, [16], "[1] #10".toList⟩, ⟨1, [255], "[1] -1".toList⟩,
    ⟨0, [5], "[tag] +5".toList⟩, ⟨1, [32], "[1] #20".toList⟩, ⟨1, [2], "[1] +2".toList⟩]
  consumed := 6
  leftover := leftover

/-- Other bytes behind the pairs are left over instead, and a byte without a case stays one. -/
theorem decompile_of_agree_pairs :
    decompile {} pairsLayout [1, 16, 255, 5, 32, 2, 7, 8, 9] = .ok (pairsListing [7, 8, 9]) ∧
    decompile {} pairsLayout [0, 6, 1, 2, 3] =
      .error ⟨⟨"5=pair".toList, .once, .switch, some "k".toList⟩, .noCase 6⟩ := by
  have hlisting : decompile {} pairsLayout [1, 16, 255, 5, 32, 2, 3] = .ok (pairsListing [3]) := by
    decide +kernel
  have herror : decompile {} pairsLayout [0, 6] =
      .error ⟨⟨"5=pair".toList, .once, .switch, some "k".toList⟩, .noCase 6⟩ := by
    decide +kernel
  exact ⟨(decompile_of_agree {} pairsLayout _).1 _ hlisting [1, 16, 255, 5, 32, 2, 7, 8, 9]
      (by decide) rfl,
    (decompile_of_agree {} pairsLayout _).2 _ herror id [1, 2, 3]⟩

/-- **Any error of a listing remains** as long as the bytes that are added do not mend it. -/
theorem decompile_of_remains {bs : Bytes} {e : ListingError}
    (he : decompile st layout bs = .error e) : e.fault.Remains 0 ∧
      ∀ x : Bytes, e.fault.Remains x.length →
        decompile st layout (bs ++ x) = .error (e.grow x.length) := by
  have hread := readsPrefix_decodeWithin st layout st.maxDepth layout.format
  rw [decompile] at he
  rcases bind_eq_error_iff.mp he with hr | ⟨r, -, hr⟩
  · refine ⟨hread.remains hr, fun x hx => ?_⟩
    rw [decompile, hread.eq_grow hr x hx, error_bind]
  · cases hr

/-- **A listing that lacks bytes says truly how many**: there are fewer than it needs, and with
any fewer bytes added than the difference the same field at the same place still lacks bytes, those
that were added counted in. -/
theorem decompile_of_truncated {bs : Bytes} {f : Field} {offset needed available : Nat}
    (h : decompile st layout bs = .error ⟨f, .truncated offset needed available⟩) :
    available < needed ∧ ∀ x : Bytes, x.length < needed - available →
      decompile st layout (bs ++ x) =
        .error ⟨f, .truncated offset needed (available + x.length)⟩ := by
  obtain ⟨hlt, hgrow⟩ := decompile_of_remains st layout h
  refine ⟨hlt, fun x hx => hgrow x ?_⟩
  change available + x.length < needed
  omega

/-- A count and as many records, each of a tag and a number. -/
def recordsLayout : Layout where
  format := .lines ["[1]$n [record:$n]".toList]
  structs := [("record".toList, .lines ["[1]h [4]d".toList])]
  sizes_dictionary := isDictionary_nil
  defines_dictionary := isDictionary_nil
  sizes_lt := Layout.sizes_lt_nil

/-- The number of the second record lacks two bytes, so one more does not suffice. -/
theorem decompile_of_truncated_records :
    decompile {} recordsLayout [2, 7, 0, 0, 0, 1, 8, 0, 9, 255] =
      .error ⟨⟨"4".toList, .once, .decimal, none⟩, .truncated 1 4 3⟩ := by
  have hshort : decompile {} recordsLayout [2, 7, 0, 0, 0, 1, 8, 0, 9] =
      .error ⟨⟨"4".toList, .once, .decimal, none⟩, .truncated 1 4 2⟩ := by
    decide +kernel
  exact (decompile_of_truncated {} recordsLayout hshort).2 [255] (by decide)

end ByteScript
