import ByteScript.Proofs.Listing.Correspondence

/-!
# Listings under another limit

The limit to the depth of structures shows in the errors only that say that it is reached. At the
same depth a listing under another limit is the same, and so are all other errors. A listing for
which the depth is enough is the same with more of it.

* `ListingFault.withLimit`, `ListingError.withLimit`: errors under another limit;
* `repeatCount_withLimit`, `resolveWidth_withLimit`, `selectCase_withLimit`, `valueText_withLimit`:
  what is found in the layout and among the captures does not depend on the limit;
* `readStructs_mapError`, `readField_withLimit`, `readFields_mapError`: readers;
* **`decodeWithin_maxDepth`**: an occurrence under another limit;
* `ListingError.IsDepthLimit`: the errors of structures that nest too deep;
* **`sameUnless_decodeWithin`**, **`sameUnless_decompile`**: occurrences and listings with more
  depth.
-/

namespace ByteScript

/-- The fault under another limit. -/
def ListingFault.withLimit (limit : Nat) : ListingFault → ListingFault
  | .depthLimit _ => .depthLimit limit
  | fault => fault

/-- The error under another limit. -/
def ListingError.withLimit (limit : Nat) (e : ListingError) : ListingError :=
  { e with fault := e.fault.withLimit limit }

/-! ## Names and values -/

section Faults

variable {layout : Layout} {f : Field} (limit : Nat)

theorem repeatCount_withLimit (captures : Captures) :
    (repeatCount captures f).mapError (ListingFault.withLimit limit) = repeatCount captures f := by
  unfold repeatCount
  split
  · rfl
  · rfl
  · split <;> rfl

theorem resolveWidth_withLimit :
    (resolveWidth layout f).mapError (ListingFault.withLimit limit) = resolveWidth layout f := by
  unfold resolveWidth
  split
  · rfl
  · split
    · rfl
    · split <;> rfl

theorem selectEntry_withLimit (value : Int) (entries : List Text) :
    (selectEntry layout value entries).mapError (ListingFault.withLimit limit) =
      selectEntry layout value entries := by
  induction entries with
  | nil => rfl
  | cons entry entries ih =>
    rw [selectEntry]
    split
    · rfl
    · split
      · rfl
      · split
        · split <;> rfl
        · exact ih

theorem selectCase_withLimit (captures : Captures) :
    (selectCase layout captures f).mapError (ListingFault.withLimit limit) =
      selectCase layout captures f := by
  unfold selectCase
  split
  · rfl
  · split
    · rfl
    · exact selectEntry_withLimit limit _ _

theorem valueText_withLimit (bs : Bytes) :
    (valueText layout f bs).mapError (ListingFault.withLimit limit) = valueText layout f bs := by
  have signed : ((signedText bs).map (directed f)).mapError (ListingFault.withLimit limit) =
      (signedText bs).map (directed f) := by
    unfold signedText
    split <;> rfl
  unfold valueText
  split
  · unfold floatValueText
    split <;> rfl
  · rfl
  · rfl
  · split
    · rfl
    · exact signed
  · exact signed
  · exact signed
  · exact signed

theorem take_withLimit (p : Cursor) (n : Nat) :
    (p.take n).mapError (ListingFault.withLimit limit) = p.take n := by
  unfold Cursor.take
  split <;> rfl

/-- The same for faults at a field. -/
theorem mapError_mk_withLimit {α : Type} {x : Except ListingFault α}
    (h : x.mapError (ListingFault.withLimit limit) = x) :
    (x.mapError (ListingError.mk f)).mapError (ListingError.withLimit limit) =
      x.mapError (ListingError.mk f) := by
  have hmk := congrArg (Except.mapError (ListingError.mk f)) h
  rw [mapError_mapError] at hmk ⊢
  exact hmk

end Faults

/-! ## Readers -/

section Readers

variable {st : Settings} {layout : Layout} {limit : Nat}

theorem readValues_withLimit (f : Field) (width count : Nat) (p : Cursor) :
    (readValues layout f width count p).mapError (ListingError.withLimit limit) =
      readValues layout f width count p := by
  induction count generalizing p with
  | zero => rfl
  | succ count ih =>
    refine Eq.symm (bind_eq_mapError ?_ fun bs => bind_eq_mapError ?_ fun text => ?_)
    · exact (mapError_mk_withLimit limit (take_withLimit limit p width)).symm
    · exact (mapError_mk_withLimit limit (valueText_withLimit limit bs)).symm
    · exact bind_eq_mapError (ih _).symm fun more => rfl

theorem readText_withLimit (f : Field) (width count : Nat) (p : Cursor) :
    (readText st f width count p).mapError (ListingError.withLimit limit) =
      readText st f width count p := by
  refine Eq.symm (bind_eq_mapError ?_ fun bs => ?_)
  · exact (mapError_mk_withLimit limit (take_withLimit limit p _)).symm
  · split <;> rfl

theorem readStructs_mapError {nested nested' : Bytes → Except ListingError Occurrence}
    {g : ListingError → ListingError} (h : ∀ bs, nested' bs = (nested bs).mapError g) (count : Nat)
    (p : Cursor) : readStructs nested' count p = (readStructs nested count p).mapError g := by
  induction count generalizing p with
  | zero => rfl
  | succ count ih =>
    exact bind_eq_mapError (h p.rest) fun r => bind_eq_mapError (ih _) fun more => rfl

/-- A field under another limit, where its structures are read under it as well. -/
theorem readField_withLimit
    {nested nested' : Field → FieldList → Bytes → Except ListingError Occurrence}
    (h : ∀ f fields bs,
      nested' f fields bs = (nested f fields bs).mapError (ListingError.withLimit limit))
    (captures : Captures) (p : Cursor) (f : Field) :
    readField { st with maxDepth := limit } layout nested' captures p f =
      (readField st layout nested captures p f).mapError (ListingError.withLimit limit) := by
  refine bind_eq_mapError ?_ fun count => bind_eq_mapError ?_ fun width => ?_
  · exact (mapError_mk_withLimit limit (repeatCount_withLimit limit captures)).symm
  · exact (mapError_mk_withLimit limit (resolveWidth_withLimit limit)).symm
  dsimp only
  split
  · rfl
  cases width with
  | fixed n =>
    dsimp only
    split
    · exact (readText_withLimit f n count p).symm
    · exact (readValues_withLimit f n count p).symm
  | struct fields => exact readStructs_mapError (h f fields) count p
  | switch =>
    refine bind_eq_mapError ?_ fun fields => bind_eq_mapError ?_ fun block => rfl
    · exact (mapError_mk_withLimit limit (selectCase_withLimit limit captures)).symm
    · exact readStructs_mapError (h f fields) count p

theorem readFields_mapError {field field' : Captures → Cursor → Field → Except ListingError Block}
    {g : ListingError → ListingError}
    (h : ∀ captures p f, field' captures p f = (field captures p f).mapError g)
    (fs : List Field) (captures : Captures) (p : Cursor) :
    readFields field' captures p fs = (readFields field captures p fs).mapError g := by
  induction fs generalizing captures p with
  | nil => rfl
  | cons f fs ih =>
    exact bind_eq_mapError (h captures p f) fun block => bind_eq_mapError (ih _ _) fun more => rfl

end Readers

/-! ## Occurrences -/

/-- **An occurrence under another limit**, read to the same depth, is the same or has the same error
with that limit. -/
theorem decodeWithin_maxDepth (st : Settings) (layout : Layout) (limit depth : Nat)
    (fields : FieldList) (bs : Bytes) :
    decodeWithin { st with maxDepth := limit } layout depth fields bs =
      (decodeWithin st layout depth fields bs).mapError (ListingError.withLimit limit) := by
  induction depth generalizing fields bs with
  | zero =>
    rw [decodeWithin, decodeWithin]
    refine readFields_mapError (readField_withLimit ?_) fields.fields [] ⟨0, bs⟩
    exact fun _ _ _ => rfl
  | succ depth ih =>
    rw [decodeWithin, decodeWithin]
    exact readFields_mapError (readField_withLimit fun _ => ih) fields.fields [] ⟨0, bs⟩

/-! ## More depth -/

/-- The fault is that structures nest too deep. -/
def ListingFault.IsDepthLimit : ListingFault → Prop
  | .depthLimit _ => True
  | _ => False

/-- The error is that structures nest too deep. -/
def ListingError.IsDepthLimit (e : ListingError) : Prop := e.fault.IsDepthLimit

theorem ListingFault.isDepthLimit_withLimit {fault : ListingFault} (h : fault.IsDepthLimit)
    (limit : Nat) : (fault.withLimit limit).IsDepthLimit := by
  cases fault with
  | depthLimit n => trivial
  | _ => exact h.elim

theorem ListingFault.withLimit_eq {fault : ListingFault} (h : ¬ fault.IsDepthLimit) (limit : Nat) :
    fault.withLimit limit = fault := by
  cases fault with
  | depthLimit n => exact absurd trivial h
  | _ => rfl

section Depth

variable {st : Settings} {layout : Layout} {kind : ListingError → Prop}

theorem sameUnless_decodeWithin_succ (depth : Nat) (fields : FieldList) (bs : Bytes) :
    SameUnless ListingError.IsDepthLimit (decodeWithin st layout depth fields bs)
      (decodeWithin st layout (depth + 1) fields bs) := by
  have hself : layout.Corresponds (· = ·) layout := .of_eq (fun _ => rfl) rfl rfl rfl
  induction depth generalizing fields bs with
  | zero =>
    rw [decodeWithin, decodeWithin]
    exact sameUnless_readFields (hself.readField fun _ _ _ _ _ => .of_error trivial _) _ _ _
  | succ depth ih =>
    rw [decodeWithin, decodeWithin]
    refine sameUnless_readFields (hself.readField fun _ fields _ bs h => ?_) _ _ _
    exact h ▸ ih fields bs

/-- **An occurrence for which a depth is enough** does not show what lies below it. -/
theorem sameUnless_decodeWithin {d d' : Nat} (h : d ≤ d') (fields : FieldList) (bs : Bytes) :
    SameUnless ListingError.IsDepthLimit (decodeWithin st layout d fields bs)
      (decodeWithin st layout d' fields bs) :=
  .of_le (fun depth => sameUnless_decodeWithin_succ depth fields bs) h

/-- **A listing for which a limit is enough** is the same under a higher one. -/
theorem sameUnless_decompile {d d' : Nat} (h : d ≤ d') (bs : Bytes) :
    SameUnless ListingError.IsDepthLimit (decompile { st with maxDepth := d } layout bs)
      (decompile { st with maxDepth := d' } layout bs) := by
  refine SameUnless.bind ?_ fun r => .refl _
  rw [decodeWithin_maxDepth, decodeWithin_maxDepth st layout d']
  refine (sameUnless_decodeWithin h layout.format bs).mapError (fun e he => ?_) fun e he => ?_
  · exact ListingFault.isDepthLimit_withLimit he d
  · rw [ListingError.withLimit, ListingError.withLimit, ListingFault.withLimit_eq he,
      ListingFault.withLimit_eq he]

end Depth

end ByteScript
