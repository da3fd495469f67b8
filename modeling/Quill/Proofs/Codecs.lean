import Quill.Json.Codec
import Quill.Proofs.DataReading

/-!
# Values that are read back from their data

A value survives being written if its data is readable and is decoded to the value again.  Both
hold for single values within the range of their type, and are handed up through lists, pairs and
records.  The fields of a record are written in the order in which they are read, so a record is
followed field by field, with the fields that are still to be read as the only state.
-/

namespace Quill.Json

variable {α β : Type} {room : ℕ}

/-- A value that is written as data it can be read from.  A command takes an object with a word
and an empty object for a word alone, so no value may be written like that. -/
structure Codes [Codec α] (room : ℕ) (x : α) : Prop where
  readable : Readable room (encode x)
  decodes : decode (encode x) = some x
  plain : ∀ word fields, encode x ≠ .object [(word, .object fields)]

/-- A value is read back from what either writer makes of it. -/
def Survives [Codec α] (x : α) : Prop :=
  (readBytes (encode x).text.toUTF8).bind decode = some x ∧
    (readBytes (encode x).spreadText.toUTF8).bind decode = some x

theorem Codes.survives [Codec α] {x : α} (codes : Codes depthLimit x) : Survives x := by
  rw [Survives, codes.readable.readBytes_text, codes.readable.readBytes_spreadText,
    Option.bind_some]
  exact ⟨codes.decodes, codes.decodes⟩

section Scalars

theorem codes_boolean (x : Bool) : Codes room x :=
  ⟨.boolean x, rfl, fun _ _ equal => nomatch equal⟩

theorem codes_string (x : String) : Codes room x :=
  ⟨.string x, rfl, fun _ _ equal => nomatch equal⟩

theorem codes_double {x : Float} (finite : Number.isFinite x) : Codes room x :=
  ⟨.real finite, rfl, fun _ _ equal => nomatch equal⟩

theorem fitsWord_of {number : ℤ} (low : -0x8000000000000000 ≤ number)
    (high : number < 0x10000000000000000) : fitsWord number := by
  simp [fitsWord, low, high]

theorem wholeWithin?_of {low high number : ℤ} (least : low ≤ number) (bounded : number < high) :
    wholeWithin? low high (.integer number) = some number :=
  if_pos ⟨least, bounded⟩

/-- A natural number below a bound is read back from the integer that it is written as. -/
theorem codes_below [Codec α] {x : α} {number bound : ℕ} (ofNat : ℕ → α)
    (written : encode x = .integer number)
    (decodes : ∀ value, (decode value : Option α) =
      (wholeWithin? 0 bound value).map (ofNat ·.toNat))
    (small : number < bound) (word : bound ≤ 2 ^ 64) (same : ofNat number = x) : Codes room x := by
  refine ⟨?_, ?_, ?_⟩
  · rw [written]
    exact .integer (fitsWord_of (by omega) (by omega))
  · rw [written, decodes, wholeWithin?_of (by omega) (by omega), Option.map_some,
      Int.toNat_natCast, same]
  · intro _ _ equal
    rw [written] at equal
    cases equal

theorem codes_count {x : ℕ} (bounded : x < 2 ^ 64) : Codes room x :=
  codes_below id rfl (fun _ => rfl) bounded le_rfl rfl

theorem codes_byte (x : UInt8) : Codes room x :=
  codes_below UInt8.ofNat rfl (fun _ => rfl) x.toNat_lt (by decide) UInt8.ofNat_toNat

theorem codes_word (x : UInt32) : Codes room x :=
  codes_below UInt32.ofNat rfl (fun _ => rfl) x.toNat_lt (by decide) UInt32.ofNat_toNat

theorem codes_integer {x : ℤ} (low : -2 ^ 63 ≤ x) (high : x < 2 ^ 63) : Codes room x := by
  refine ⟨.integer (fitsWord_of (by omega) (by omega)), ?_, fun _ _ equal => nomatch equal⟩
  exact wholeWithin?_of (by omega) (by omega)

/-- Keywords with a word of their own. -/
class LawfulKeyword (α : Type) [Keyword α] : Prop where
  find?_name (x : α) : Keyword.find? α (Keyword.name x) = some x

theorem codes_keyword [Keyword α] [LawfulKeyword α] (x : α) : Codes room x :=
  ⟨.string (Keyword.name x), LawfulKeyword.find?_name x, fun _ _ equal => nomatch equal⟩

end Scalars

section Containers

/-- What may be absent is read back, as nothing but absence is written as `null`. -/
theorem codes_option [Codec α] {x : Option α} (each : ∀ y ∈ x, Codes room y)
    (present : ∀ y : α, encode y ≠ .null) : Codes room x := by
  cases x with
  | none => exact ⟨.null, rfl, fun _ _ equal => nomatch equal⟩
  | some y =>
      obtain ⟨readable, decodes, plain⟩ := each y rfl
      refine ⟨readable, ?_, plain⟩
      have absent := present y
      change (decode (encode y) : Option (Option α)) = some (some y)
      generalize encode y = value at decodes absent ⊢
      cases value with
      | null => exact absurd rfl absent
      | _ => exact congrArg (Option.map some) decodes

theorem mapM_decode [Codec α] {values : List α}
    (each : ∀ x ∈ values, decode (encode x) = some x) :
    (values.map encode).mapM decode = some values := by
  induction values with
  | nil => rfl
  | cons first rest ih =>
      obtain ⟨here, later⟩ := List.forall_mem_cons.mp each
      rw [List.map_cons, List.mapM_cons, here, ih later]
      rfl

theorem codes_list [Codec α] {values : List α} (each : ∀ x ∈ values, Codes room x) :
    Codes (room + 1) values := by
  refine ⟨.array ?_, mapM_decode fun x member => (each x member).decodes,
    fun _ _ equal => nomatch equal⟩
  rw [List.forall_mem_map]
  exact fun x member => (each x member).readable

theorem codes_pair [Codec α] [Codec β] {pair : α × β} (first : Codes room pair.1)
    (second : Codes room pair.2) : Codes (room + 1) pair := by
  refine ⟨.array ?_, ?_, fun _ _ equal => nomatch equal⟩
  · exact List.forall_mem_cons.mpr ⟨first.readable,
      List.forall_mem_singleton.mpr second.readable⟩
  · change (do return (← decode (encode pair.1), ← decode (encode pair.2))) = some pair
    rw [first.decodes, second.decodes]
    rfl

end Containers

section Records

variable {all pending : List (String × Value)}

/-- A record reader that takes the pending fields of a record, one after the other, and gives a
value.  The data in the fields is readable and none of it looks like a word with an empty object
behind it. -/
structure Reads (room : ℕ) (all pending : List (String × Value)) (reader : FieldReader α)
    (x : α) : Prop where
  readable : ∀ field ∈ pending, Readable room field.2
  plain : ∀ field ∈ pending, ∀ word inner, field.2 ≠ .object [(word, .object inner)]
  reads : (all.map Prod.fst).Nodup → pending <:+ all →
    reader (.named all) = some (x, .named all)

theorem Reads.done {x : α} : Reads room all [] (pure x) x :=
  ⟨fun _ member => (List.not_mem_nil member).elim,
    fun _ member => (List.not_mem_nil member).elim, fun _ _ => rfl⟩

/-- Where names differ, a name is that of one field. -/
theorem filter_name {name : String} {value : Value} (distinct : (all.map Prod.fst).Nodup)
    (member : (name, value) ∈ all) : all.filter (·.1 == name) = [(name, value)] := by
  induction all with
  | nil => cases member
  | cons first rest ih =>
      rw [List.map_cons, List.nodup_cons] at distinct
      obtain ⟨apart, others⟩ := distinct
      rcases List.mem_cons.mp member with rfl | later
      · have taken : ((name, value).1 == name) = true := beq_self_eq_true name
        rw [List.filter_cons, if_pos taken]
        refine congrArg _ (List.filter_eq_nil_iff.mpr fun field held => ?_)
        intro same
        have named : field.1 ∈ rest.map Prod.fst := List.mem_map_of_mem held
        exact apart (eq_of_beq same ▸ named)
      · have other : ¬ (first.1 == name) = true := by
          intro same
          have named : name ∈ rest.map Prod.fst := List.mem_map_of_mem later
          exact apart (eq_of_beq same ▸ named)
        rw [List.filter_cons, if_neg other, ih others later]

theorem next_named {name : String} {value : Value} (distinct : (all.map Prod.fst).Nodup)
    (member : (name, value) ∈ all) :
    FieldReader.next name (.named all) = some (some value, .named all) := by
  simp only [FieldReader.next, filter_name distinct member]

/-- What is made of a value that was read needs no further field. -/
theorem Reads.map {reader : FieldReader α} (reads : Reads room all pending reader x) (f : α → β) :
    Reads room all pending (f <$> reader) (f x) := by
  obtain ⟨readable, plain, reads⟩ := reads
  refine ⟨readable, plain, fun distinct among => ?_⟩
  change (reader (.named all)).bind _ = _
  rw [reads distinct among]
  rfl

variable [Codec α] {name : String} {x : α} {y : β} {rest : α → FieldReader β}

/-- A reader that begins by taking a field takes the first pending one and goes on. -/
theorem Reads.bind {take : FieldReader α} (codes : Codes room x)
    (takes : FieldReader.next name (.named all) = some (some (encode x), .named all) →
      take (.named all) = some (x, .named all))
    (later : Reads room all pending (rest x) y) :
    Reads room all ((name, encode x) :: pending) (take >>= rest) y := by
  obtain ⟨readable, plain, reads⟩ := later
  refine ⟨List.forall_mem_cons.mpr ⟨codes.readable, readable⟩,
    List.forall_mem_cons.mpr ⟨codes.plain, plain⟩, fun distinct among => ?_⟩
  have taken := takes (next_named distinct (among.subset List.mem_cons_self))
  change (take (.named all)).bind _ = _
  rw [taken, Option.bind_some]
  exact reads distinct ((List.suffix_cons _ _).trans among)

theorem Codes.liftM_decode (codes : Codes room x) (record : Record) :
    (liftM (decode (encode x) : Option α) : FieldReader α) record = some (x, record) := by
  rw [codes.decodes]
  rfl

theorem Reads.required (codes : Codes room x) (later : Reads room all pending (rest x) y) :
    Reads room all ((name, encode x) :: pending) (FieldReader.required name >>= rest) y := by
  refine .bind codes (fun found => ?_) later
  change (FieldReader.next name (.named all)).bind _ = _
  rw [found]
  exact codes.liftM_decode _

theorem Reads.defaulted {standard : α} (codes : Codes room x)
    (later : Reads room all pending (rest x) y) :
    Reads room all ((name, encode x) :: pending)
      (FieldReader.defaulted name standard >>= rest) y := by
  refine .bind codes (fun found => ?_) later
  change (FieldReader.next name (.named all)).bind _ = _
  rw [found]
  exact codes.liftM_decode _

theorem Reads.nullable {x : Option α} {rest : Option α → FieldReader β} (codes : Codes room x)
    (later : Reads room all pending (rest x) y) :
    Reads room all ((name, encode x) :: pending) (FieldReader.nullable name >>= rest) y := by
  refine .bind codes (fun found => ?_) later
  change (FieldReader.next name (.named all)).bind _ = _
  rw [found]
  exact codes.liftM_decode _

end Records

variable {fields : List (String × Value)} {reader : FieldReader α} {x : α}

theorem Reads.run? (reads : Reads room fields fields reader x)
    (distinct : (fields.map Prod.fst).Nodup) :
    FieldReader.run? reader (.named fields) = some x := by
  simp only [FieldReader.run?, StateT.run, reads.reads distinct (List.suffix_refl _)]

/-- A record survives being written if its reader takes all of its fields. -/
theorem Reads.codes [Codec α] (reads : Reads room fields fields reader x)
    (distinct : (fields.map Prod.fst).Nodup) (several : 1 < fields.length)
    (written : encode x = .object fields)
    (decodes : ∀ value, (decode value : Option α) = value.readRecord? reader) :
    Codes (room + 1) x := by
  refine ⟨written ▸ .object reads.readable, ?_, fun word inner single => ?_⟩
  · rw [written, decodes]
    exact reads.run? distinct
  · rw [written, Value.object.injEq] at single
    rw [single] at several
    exact absurd several (lt_irrefl 1)

end Quill.Json
