import Quill.Proofs.DecimalText

/-!
# Layouts of data

Both writers lay a value out in the same way: words and string literals, brackets around them,
commas and colons between them, and white space at some places.  What is read back depends on
nothing but that, so the reader is followed over any such layout, and each writer is only shown
to produce one.
-/

namespace Quill.Json

/-- White space that may stand between literals. -/
def Gap (text : List Char) : Prop :=
  ∀ character ∈ text, isSpace character

theorem Gap.none : Gap [] :=
  fun _ member => nomatch member

theorem Gap.space : Gap [' '] :=
  List.forall_mem_singleton.mpr rfl

mutual

/-- A layout of a value that nests containers at most so deep. -/
inductive Laid : ℕ → Value → List Char → Prop
  | word {room : ℕ} {value : Value} {word : List Char} (spells : Spells word value) :
      Laid room value word
  | string {room : ℕ} (text : String) : Laid room (.string text) (writeString text)
  | noItems {room : ℕ} : Laid (room + 1) (.array []) ['[', ']']
  | noFields {room : ℕ} : Laid (room + 1) (.object []) ['{', '}']
  | array {room : ℕ} {item : Value} {items : List Value} {opening text more closing : List Char}
      (opens : Gap opening) (first : Laid room item text) (further : LaidItems room items more)
      (closes : Gap closing) :
      Laid (room + 1) (.array (item :: items))
        ('[' :: (opening ++ (text ++ (more ++ (closing ++ [']'])))))
  | object {room : ℕ} (key : String) {value : Value} {fields : List (String × Value)}
      {opening inner text more closing : List Char} (opens : Gap opening) (spaces : Gap inner)
      (first : Laid room value text) (further : LaidFields room fields more)
      (closes : Gap closing) :
      Laid (room + 1) (.object ((key, value) :: fields))
        ('{' :: (opening ++ (writeString key ++ ':' ::
          (inner ++ (text ++ (more ++ (closing ++ ['}'])))))))

inductive LaidItems : ℕ → List Value → List Char → Prop
  | nil {room : ℕ} : LaidItems room [] []
  | cons {room : ℕ} {item : Value} {items : List Value} {opening text more : List Char}
      (opens : Gap opening) (first : Laid room item text) (further : LaidItems room items more) :
      LaidItems room (item :: items) (',' :: (opening ++ (text ++ more)))

inductive LaidFields : ℕ → List (String × Value) → List Char → Prop
  | nil {room : ℕ} : LaidFields room [] []
  | cons {room : ℕ} (key : String) {value : Value} {fields : List (String × Value)}
      {opening inner text more : List Char} (opens : Gap opening) (spaces : Gap inner)
      (first : Laid room value text) (further : LaidFields room fields more) :
      LaidFields room ((key, value) :: fields)
        (',' :: (opening ++ (writeString key ++ ':' :: (inner ++ (text ++ more)))))

end

/-- A value that can be written and read: its numbers have digits, nothing in it is unreadable,
and containers are nested at most so deep. -/
inductive Readable : ℕ → Value → Prop
  | null {room : ℕ} : Readable room .null
  | boolean {room : ℕ} (value : Bool) : Readable room (.boolean value)
  | integer {room : ℕ} {number : ℤ} (fits : fitsWord number) : Readable room (.integer number)
  | real {room : ℕ} {value : Float} (finite : Number.isFinite value) : Readable room (.real value)
  | string {room : ℕ} (text : String) : Readable room (.string text)
  | array {room : ℕ} {items : List Value} (inside : ∀ item ∈ items, Readable room item) :
      Readable (room + 1) (.array items)
  | object {room : ℕ} {fields : List (String × Value)}
      (inside : ∀ field ∈ fields, Readable room field.2) : Readable (room + 1) (.object fields)

/-- Further items have a layout if each of them has. -/
theorem laidItems_furtherItems {room : ℕ} {items : List Value}
    (each : ∀ item ∈ items, Laid room item item.characters) :
    LaidItems room items (Value.furtherItems items) := by
  induction items with
  | nil => exact .nil
  | cons item rest ih =>
      obtain ⟨here, later⟩ := List.forall_mem_cons.mp each
      exact .cons Gap.none here (ih later)

theorem laidFields_furtherFields {room : ℕ} {fields : List (String × Value)}
    (each : ∀ field ∈ fields, Laid room field.2 field.2.characters) :
    LaidFields room fields (Value.furtherFields fields) := by
  induction fields with
  | nil => exact .nil
  | cons field rest ih =>
      obtain ⟨here, later⟩ := List.forall_mem_cons.mp each
      have laid := LaidFields.cons field.1 Gap.none Gap.none here (ih later)
      rcases field with ⟨key, value⟩
      simpa only [Value.furtherFields, List.nil_append, List.cons_append, List.append_assoc]
        using laid

/-- What is written without spaces is a layout of the value. -/
theorem Readable.laid_characters {room : ℕ} {value : Value} (readable : Readable room value) :
    Laid room value value.characters := by
  induction readable with
  | null => exact .word ⟨rfl, List.all_eq_true.mp rfl⟩
  | boolean value =>
      cases value
      · exact .word ⟨rfl, List.all_eq_true.mp rfl⟩
      · exact .word ⟨rfl, List.all_eq_true.mp rfl⟩
  | integer fits => exact .word (spells_writeInteger fits)
  | real finite => exact .word (spells_writeReal finite)
  | string text => exact .string text
  | @array room items inside each =>
      cases items with
      | nil => exact .noItems
      | cons first rest =>
          obtain ⟨here, later⟩ := List.forall_mem_cons.mp each
          have laid := Laid.array Gap.none here (laidItems_furtherItems later) Gap.none
          simpa only [Value.characters, List.nil_append, List.cons_append, List.append_assoc]
            using laid
  | @object room fields inside each =>
      cases fields with
      | nil => exact .noFields
      | cons first rest =>
          obtain ⟨here, later⟩ := List.forall_mem_cons.mp each
          have laid := Laid.object first.1 Gap.none Gap.none here
            (laidFields_furtherFields later) Gap.none
          rcases first with ⟨key, value⟩
          simpa only [Value.characters, List.nil_append, List.cons_append, List.append_assoc]
            using laid

theorem Gap.lineBreak (level : ℕ) : Gap (Value.lineBreak level) := by
  refine List.forall_mem_cons.mpr ⟨by decide, fun character member => ?_⟩
  rw [List.eq_of_mem_replicate member]
  rfl

theorem laidItems_spreadItems {room : ℕ} (level : ℕ) {items : List Value}
    (each : ∀ item ∈ items, Laid room item (item.spread level)) :
    LaidItems room items (Value.spreadItems level items) := by
  induction items with
  | nil => exact .nil
  | cons item rest ih =>
      obtain ⟨here, later⟩ := List.forall_mem_cons.mp each
      have laid := LaidItems.cons (Gap.lineBreak level) here (ih later)
      simpa only [Value.spreadItems, List.cons_append, List.append_assoc] using laid

theorem laidFields_spreadFields {room : ℕ} (level : ℕ) {fields : List (String × Value)}
    (each : ∀ field ∈ fields, Laid room field.2 (field.2.spread level)) :
    LaidFields room fields (Value.spreadFields level fields) := by
  induction fields with
  | nil => exact .nil
  | cons field rest ih =>
      obtain ⟨here, later⟩ := List.forall_mem_cons.mp each
      have laid := LaidFields.cons field.1 (Gap.lineBreak level) Gap.space here (ih later)
      rcases field with ⟨key, value⟩
      simpa only [Value.spreadFields, List.nil_append, List.cons_append, List.append_assoc]
        using laid

/-- What is written over several lines is a layout of the value. -/
theorem Readable.laid_spread {room : ℕ} {value : Value} (readable : Readable room value)
    (level : ℕ) : Laid room value (value.spread level) := by
  induction readable generalizing level with
  | null => exact Readable.null.laid_characters
  | boolean value => exact (Readable.boolean value).laid_characters
  | integer fits => exact (Readable.integer fits).laid_characters
  | real finite => exact (Readable.real finite).laid_characters
  | string text => exact .string text
  | @array room items inside each =>
      cases items with
      | nil => exact .noItems
      | cons first rest =>
          obtain ⟨here, later⟩ := List.forall_mem_cons.mp fun item member =>
            each item member (level + 1)
          have laid := Laid.array (Gap.lineBreak (level + 1)) here
            (laidItems_spreadItems (level + 1) later) (Gap.lineBreak level)
          simpa only [Value.spread, List.cons_append, List.append_assoc] using laid
  | @object room fields inside each =>
      cases fields with
      | nil => exact .noFields
      | cons first rest =>
          obtain ⟨here, later⟩ := List.forall_mem_cons.mp fun item member =>
            each item member (level + 1)
          have laid := Laid.object first.1 (Gap.lineBreak (level + 1)) Gap.space here
            (laidFields_spreadFields (level + 1) later) (Gap.lineBreak level)
          rcases first with ⟨key, value⟩
          simpa only [Value.spread, List.nil_append, List.cons_append, List.append_assoc]
            using laid

end Quill.Json
