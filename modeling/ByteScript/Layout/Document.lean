import ByteScript.Layout.Field
import ByteScript.Json.Record

/-!
# Layouts

A layout says how a binary is built up: the fields of the whole, the widths and structures that
types may name, and the names of values. It is written as a JSON record.

* `FieldList`, `FieldList.toLines`, `FieldList.fields`: fields as one text or line by line;
* `insertEntry`, `dictionary`, `IsDictionary`: entries in the order of their keys;
* `Layout`, `Layout.ofText?`.
-/

namespace ByteScript

/-! ## Lists of fields -/

/-- Fields as one text, with line feeds and semicolons between lines, or as a list of lines. -/
inductive FieldList where
  | text (s : Text)
  | lines (ls : List Text)
deriving DecidableEq

namespace FieldList

/-- The lines of a list of fields; those of one text are trimmed. -/
def toLines : FieldList → List Text
  | .text s => (s.splitOnP fun c => c == '\n' || c == ';').map Text.trim
  | .lines ls => ls

/-- The fields of all lines. -/
def fields (l : FieldList) : List Field := l.toLines.flatMap Field.ofLine

/-- A list of fields in JSON: a string or an array of strings. -/
def ofJson? : Json → Option FieldList
  | .string t => t.map .text
  | v => (v.list? Json.text?).map .lines

end FieldList

/-! ## Dictionaries -/

/-- Entries with one more, in the order of their keys; it replaces an entry of the same key. -/
def insertEntry {α : Type} (key : Text) (value : α) : List (Text × α) → List (Text × α)
  | [] => [(key, value)]
  | e :: es =>
    if key < e.1 then (key, value) :: e :: es
    else if key = e.1 then (key, value) :: es
    else e :: insertEntry key value es

/-- Entries in the order of their keys; of several with one key the last is kept. -/
def dictionary {α : Type} (entries : List (Text × α)) : List (Text × α) :=
  entries.foldl (fun es e => insertEntry e.1 e.2 es) []

theorem lookup_insertEntry_self {α : Type} (key : Text) (value : α) (es : List (Text × α)) :
    (insertEntry key value es).lookup key = some value := by
  induction es with
  | nil => simp [insertEntry]
  | cons e es ih =>
    simp only [insertEntry]
    split
    · simp
    · split
      · simp
      · rename_i h
        have hne : (key == e.1) = false := by simpa using h
        rw [List.lookup_cons, hne]
        exact ih

theorem lookup_insertEntry_of_ne {α : Type} {key k : Text} (h : k ≠ key) (value : α)
    (es : List (Text × α)) : (insertEntry key value es).lookup k = es.lookup k := by
  have hkey : (k == key) = false := beq_eq_false_iff_ne.mpr h
  induction es with
  | nil => simpa [insertEntry] using h
  | cons e es ih =>
    rw [insertEntry]
    split
    · rw [List.lookup_cons, hkey]
    · split
      · rename_i heq
        rw [List.lookup_cons, List.lookup_cons, ← heq, hkey]
      · rw [List.lookup_cons, List.lookup_cons, ih]

theorem mem_insertEntry {α : Type} {key : Text} {value : α} {es : List (Text × α)} {e : Text × α}
    (h : e ∈ insertEntry key value es) : e = (key, value) ∨ e ∈ es := by
  induction es with
  | nil => exact Or.inl (List.mem_singleton.mp h)
  | cons d es ih =>
    rw [insertEntry] at h
    split at h
    · exact List.mem_cons.mp h
    · split at h
      · rcases List.mem_cons.mp h with h | h
        · exact Or.inl h
        · exact Or.inr (List.mem_cons_of_mem _ h)
      · rcases List.mem_cons.mp h with h | h
        · exact Or.inr (h ▸ List.mem_cons_self)
        · exact (ih h).imp id (List.mem_cons_of_mem _)

theorem mem_dictionary {α : Type} {entries : List (Text × α)} {e : Text × α}
    (h : e ∈ dictionary entries) : e ∈ entries := by
  have general : ∀ (entries es : List (Text × α)),
      e ∈ entries.foldl (fun es e => insertEntry e.1 e.2 es) es → e ∈ es ∨ e ∈ entries := by
    intro entries
    induction entries with
    | nil => exact fun es h => Or.inl h
    | cons d entries ih =>
      intro es h
      rcases ih _ h with h | h
      · rcases mem_insertEntry h with h | h
        · exact Or.inr (h ▸ List.mem_cons_self)
        · exact Or.inl h
      · exact Or.inr (List.mem_cons_of_mem _ h)
  exact (general entries [] h).resolve_left List.not_mem_nil

/-- The entries are in the order of their keys, each key once. -/
def IsDictionary {α : Type} (es : List (Text × α)) : Prop := es.Pairwise fun d e => d.1 < e.1

instance {α : Type} (es : List (Text × α)) : Decidable (IsDictionary es) :=
  inferInstanceAs (Decidable (List.Pairwise _ es))

theorem isDictionary_nil {α : Type} : IsDictionary ([] : List (Text × α)) := List.Pairwise.nil

theorem isDictionary_insertEntry {α : Type} (key : Text) (value : α) {es : List (Text × α)}
    (h : IsDictionary es) : IsDictionary (insertEntry key value es) := by
  induction es with
  | nil => exact List.pairwise_singleton _ _
  | cons d es ih =>
    obtain ⟨hd, hes⟩ := List.pairwise_cons.mp h
    rw [insertEntry]
    split
    · rename_i hlt
      refine List.pairwise_cons.mpr ⟨fun e he => ?_, h⟩
      rcases List.mem_cons.mp he with rfl | he
      · exact hlt
      · exact List.lt_trans hlt (hd e he)
    · split
      · rename_i heq
        refine List.pairwise_cons.mpr ⟨fun e he => ?_, hes⟩
        subst heq
        exact hd e he
      · rename_i hnlt hne
        refine List.pairwise_cons.mpr ⟨fun e he => ?_, ih hes⟩
        rcases mem_insertEntry he with rfl | he
        · exact (List.le_iff_lt_or_eq.mp (List.not_lt.mp hnlt)).resolve_right (Ne.symm hne)
        · exact hd e he

/-- **Entries in the order of their keys are a dictionary.** -/
theorem isDictionary_dictionary {α : Type} (entries : List (Text × α)) :
    IsDictionary (dictionary entries) := by
  have general : ∀ (entries es : List (Text × α)), IsDictionary es →
      IsDictionary (entries.foldl (fun es e => insertEntry e.1 e.2 es) es) := by
    intro entries
    induction entries with
    | nil => exact fun es h => h
    | cons d entries ih => exact fun es h => ih _ (isDictionary_insertEntry d.1 d.2 h)
  exact general entries [] isDictionary_nil

/-! ## Layouts -/

/-- How a binary is built up. -/
structure Layout where
  /-- The fields of the whole. -/
  format : FieldList := .lines []
  /-- Widths by name. -/
  sizes : List (Text × Nat) := []
  /-- The fields of structures. -/
  structs : List (Text × FieldList) := []
  /-- Names by the literals of their values. -/
  defines : List (Text × Text) := []
  sizes_dictionary : IsDictionary sizes := by decide
  structs_dictionary : IsDictionary structs := by decide
  defines_dictionary : IsDictionary defines := by decide
  /-- Every width is a size. -/
  sizes_lt : ∀ e ∈ sizes, e.2 < Nat.pow 2 64 := by decide
deriving DecidableEq

namespace Layout

theorem sizes_lt_nil : ∀ e ∈ ([] : List (Text × Nat)), e.2 < Nat.pow 2 64 :=
  fun _ h => nomatch h

theorem lt_of_members? {v : Option Json} {sizes : List (Text × Nat)}
    (h : Json.optional? [] (Json.members? Json.size?) v = some sizes) :
    ∀ e ∈ sizes, e.2 < Nat.pow 2 64 := by
  intro e he
  cases v with
  | none =>
    obtain rfl := Option.some.inj h
    cases he
  | some v =>
    obtain ⟨w, hw⟩ := Json.exists_of_mem_members? h he
    cases w with
    | number digits => exact size?_lt hw
    | _ => cases hw

/-- The layout in a JSON record. -/
def ofJson? (v : Json) : Option Layout := do
  let members ← v.record? (["format", "sizes", "structs", "defines"].map String.toList)
  match members with
  | [format, sizes, structs, defines] =>
    let format ← Json.optional? (.lines []) FieldList.ofJson? format
    let structs ← Json.optional? [] (Json.members? FieldList.ofJson?) structs
    let defines ← Json.optional? [] (Json.members? Json.text?) defines
    match h : Json.optional? [] (Json.members? Json.size?) sizes with
    | none => none
    | some sizes =>
      return ⟨format, dictionary sizes, dictionary structs, dictionary defines,
        isDictionary_dictionary _, isDictionary_dictionary _, isDictionary_dictionary _,
        fun e he => lt_of_members? h e (mem_dictionary he)⟩
  | _ => none

/-- **The layout of a document.** -/
def ofText? (s : Text) : Option Layout := (Json.ofText? s).bind ofJson?

end Layout

end ByteScript
