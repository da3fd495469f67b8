import Quill.Json.Reader
import Quill.Json.Writer
import Quill.Proofs.Numerals

/-!
# Numbers that are written and read back

A number literal is read as the parts that it was written from.  The literal of an integer has
neither fraction nor exponent and stands for that integer.  The literal of a finite double has one
of them and the value of the digits that were written, so it stands for that double, down to the
sign of zero.
-/

namespace Quill.Json

open Number (IsDigits decimalDigits digitsValue)

variable {literal : Literal} {digits rest : List Char}

/-- A text that does not go on with a digit. -/
def Undigited (text : List Char) : Prop :=
  ∀ character ∈ text.head?, character.isDigit = false

theorem takeDigits?_append (isDigits : IsDigits digits) (ends : Undigited rest) :
    takeDigits? (digits ++ rest) = some (digits, rest) := by
  have none : rest.takeWhile Char.isDigit = [] ∧ rest.dropWhile Char.isDigit = rest := by
    cases rest with
    | nil => exact ⟨rfl, rfl⟩
    | cons first others =>
        have other : ¬ first.isDigit = true := by
          rw [ends first rfl]
          exact Bool.false_ne_true
        exact ⟨List.takeWhile_cons_of_neg other, List.dropWhile_cons_of_neg other⟩
  have taken : (digits ++ rest).takeWhile Char.isDigit = digits := by
    rw [List.takeWhile_append_of_pos isDigits.isDigit, none.1, List.append_nil]
  have dropped : (digits ++ rest).dropWhile Char.isDigit = rest := by
    rw [List.dropWhile_append_of_pos isDigits.isDigit, none.2]
  simp only [takeDigits?, taken, dropped]
  rw [if_neg]
  rw [List.isEmpty_iff]
  exact isDigits.nonempty

namespace Literal

def fractionText : Option (List Char) → List Char
  | none => []
  | some digits => '.' :: digits

def exponentText : Option Int → List Char
  | none => []
  | some exponent =>
    'e' :: (if exponent < 0 then '-' else '+') :: decimalDigits exponent.natAbs

def characters (literal : Literal) : List Char :=
  (if literal.negative then ['-'] else []) ++
    (literal.whole ++ (fractionText literal.fraction ++ exponentText literal.exponent))

/-- A literal whose parts are digits, without a needless zero in front. -/
structure Legible (literal : Literal) : Prop where
  whole : IsDigits literal.whole
  leading : ¬ (1 < literal.whole.length ∧ literal.whole.head? = some '0')
  fraction : ∀ digits ∈ literal.fraction, IsDigits digits

/-- What is read as an exponent goes on neither with a digit nor with a point. -/
theorem head_of_exponentOf? {tail : List Char} {exponent : Option Int}
    (read : exponentOf? tail = some exponent) : ∀ mark ∈ tail.head?, mark = 'e' ∨ mark = 'E' := by
  intro mark head
  cases tail with
  | nil => cases head
  | cons first rest =>
      cases head
      rw [exponentOf?] at read
      split at read
      · assumption
      · cases read

theorem undigited_of_exponentOf? {tail : List Char} {exponent : Option Int}
    (read : exponentOf? tail = some exponent) : Undigited tail := by
  intro mark head
  rcases head_of_exponentOf? read mark head with rfl | rfl <;> rfl

/-- An exponent is read from its sign and the digits of its size. -/
theorem exponentOf?_digits {exponent : Int} (isDigits : IsDigits digits)
    (size : digitsValue digits = exponent.natAbs) :
    exponentOf? ('e' :: (if exponent < 0 then '-' else '+') :: digits) = some (some exponent) := by
  have taken : takeDigits? digits = some (digits, []) := by
    have ends : Undigited [] := by
      intro character head
      cases head
    have taken := takeDigits?_append isDigits ends
    rwa [List.append_nil] at taken
  have sign : Number.takeSign ((if exponent < 0 then '-' else '+') :: digits) =
      (decide (exponent < 0), digits) := by
    by_cases negative : exponent < 0
    · rw [if_pos negative, decide_eq_true negative]
      rfl
    · rw [if_neg negative, decide_eq_false negative]
      rfl
  rw [exponentOf?, if_pos (.inl rfl), sign]
  simp only [taken, size, decide_eq_true_eq, Option.some.injEq]
  split <;> omega

theorem exponentOf?_exponentText (exponent : Option Int) :
    exponentOf? (exponentText exponent) = some exponent := by
  cases exponent with
  | none => rfl
  | some exponent =>
      exact exponentOf?_digits (Number.isDigits_decimalDigits _)
        (Number.digitsValue_decimalDigits _)

theorem takeFraction?_fractionText {fraction : Option (List Char)} {tail : List Char}
    {exponent : Option Int} (isDigits : ∀ digits ∈ fraction, IsDigits digits)
    (read : exponentOf? tail = some exponent) :
    takeFraction? (fractionText fraction ++ tail) = some (fraction, tail) := by
  cases fraction with
  | none =>
      rw [fractionText, List.nil_append]
      cases tail with
      | nil => rfl
      | cons mark rest => rcases head_of_exponentOf? read mark rfl with rfl | rfl <;> rfl
  | some digits =>
      rw [fractionText, List.cons_append, takeFraction?,
        takeDigits?_append (isDigits digits rfl) (undigited_of_exponentOf? read)]
      rfl

/-- A literal is read as the parts that it was written from, however its exponent is written. -/
theorem Legible.ofCharacters?_append {tail : List Char} (legible : literal.Legible)
    (read : exponentOf? tail = some literal.exponent) :
    ofCharacters? ((if literal.negative then ['-'] else []) ++
      (literal.whole ++ (fractionText literal.fraction ++ tail))) = some literal := by
  rcases literal with ⟨negative, whole, fraction, exponent⟩
  obtain ⟨isDigits, leading, fractionDigits⟩ := legible
  dsimp only at isDigits leading fractionDigits read ⊢
  have ends : Undigited (fractionText fraction ++ tail) := by
    intro character head
    cases fraction with
    | none => exact undigited_of_exponentOf? read character head
    | some digits =>
        cases head
        rfl
  have taken := takeDigits?_append isDigits ends
  cases negative with
  | true =>
      simp only [ofCharacters?, if_true, List.singleton_append, taken,
        takeFraction?_fractionText fractionDigits read, read, if_neg leading,
        Option.bind_eq_bind, Option.bind_some, Option.pure_def]
  | false =>
      simp only [ofCharacters?, Bool.false_eq_true, if_false, List.nil_append]
      split
      · rename_i rest minus
        obtain ⟨first, others, rfl⟩ := List.exists_cons_of_ne_nil isDigits.nonempty
        cases minus
        exact absurd (isDigits.isDigit '-' List.mem_cons_self) (by decide)
      · simp only [taken, takeFraction?_fractionText fractionDigits read, read,
          if_neg leading, Option.bind_eq_bind, Option.bind_some, Option.pure_def]

theorem Legible.ofCharacters?_characters (legible : literal.Legible) :
    ofCharacters? literal.characters = some literal :=
  legible.ofCharacters?_append (exponentOf?_exponentText literal.exponent)

/-- The value of a literal without its sign. -/
def quotient (literal : Literal) : ℚ :=
  digitsValue (literal.whole ++ literal.fraction.getD []) *
    10 ^ (literal.exponent.getD 0 - (literal.fraction.getD []).length)

def number (literal : Literal) : ℚ :=
  if literal.negative then -literal.quotient else literal.quotient

/-- A literal with a value that a double attracts stands for that double. -/
theorem double?_eq {literal : Literal} {value : Float} {binary : Number.Binary}
    (finite : Number.Reading.of value = .finite binary) (positive : 0 < binary.significand)
    (sign : literal.negative = binary.negative) (attracts : binary.Attracts literal.quotient) :
    literal.double? = some value := by
  have read := Number.nearestDecimal_eq finite positive attracts
  obtain ⟨-, bounded, -⟩ := Number.Reading.ofMagnitude_of_finite finite
  simp only [double?, sign, read, bounded]
  rfl

/-- The parts that a numeral is written in. -/
def ofNumeral (negative : Bool) (numeral : Number.Numeral) : Literal :=
  if numeral.exponent < -5 ∨ 16 ≤ numeral.exponent then
    ⟨negative, numeral.digits.take 1,
      if (numeral.digits.drop 1).isEmpty then none else some (numeral.digits.drop 1),
      some numeral.exponent⟩
  else
    ⟨negative, numeral.positional.1,
      some (if numeral.positional.2.isEmpty then ['0'] else numeral.positional.2), none⟩

section Numerals

variable {numeral : Number.Numeral} {negative : Bool}

theorem characters_ofNumeral (negative : Bool) (numeral : Number.Numeral) :
    (ofNumeral negative numeral).characters =
      (if negative then ['-'] else []) ++ numeral.plain := by
  rw [ofNumeral, Number.Numeral.plain]
  split
  · by_cases single : (numeral.digits.drop 1).isEmpty = true
    · simp only [characters, exponentText, fractionText, Number.joinPoint, if_pos single,
        List.nil_append]
    · simp only [characters, exponentText, fractionText, Number.joinPoint, if_neg single,
        List.append_assoc]
  · have some : ¬ (if numeral.positional.2.isEmpty then ['0'] else numeral.positional.2).isEmpty =
        true := by
      split
      · exact Bool.false_ne_true
      · assumption
    simp only [characters, exponentText, fractionText, Number.joinPoint, if_neg some,
      List.append_nil]

theorem integer?_ofNumeral (negative : Bool) (numeral : Number.Numeral) :
    (ofNumeral negative numeral).integer? = none := by
  rw [ofNumeral]
  split
  · simp only [integer?]
    split <;> simp_all
  · rfl

theorem negative_ofNumeral (negative : Bool) (numeral : Number.Numeral) :
    (ofNumeral negative numeral).negative = negative := by
  rw [ofNumeral]
  split <;> rfl

theorem legible_ofNumeral (leads : numeral.Leading) (negative : Bool) :
    (ofNumeral negative numeral).Legible := by
  obtain ⟨first, others, digits⟩ := List.exists_cons_of_ne_nil leads.isDigits.nonempty
  have inside : ∀ character ∈ first :: others, character.isDigit := digits ▸ leads.isDigits.isDigit
  rw [ofNumeral]
  split
  · refine ⟨?_, ?_, ?_⟩
    · rw [digits]
      exact ⟨List.cons_ne_nil _ _, List.forall_mem_singleton.mpr (inside first List.mem_cons_self)⟩
    · rw [digits]
      exact fun needless => absurd needless.1 (lt_irrefl 1)
    · intro fraction some
      dsimp only at some
      split at some
      · cases some
      · rename_i nonempty
        cases some
        refine ⟨fun empty => nonempty (List.isEmpty_iff.mpr empty), ?_⟩
        exact fun character member => leads.isDigits.isDigit character (List.mem_of_mem_drop member)
  · obtain ⟨whole, fraction⟩ := Number.Numeral.isDigits_positional leads.isDigits
    refine ⟨whole, ?_, ?_⟩
    · rintro ⟨long, zero⟩
      dsimp only at long zero
      rw [Number.Numeral.positional] at long zero
      split at long
      · exact absurd long (lt_irrefl 1)
      · rename_i nonneg
        rw [if_neg nonneg, digits] at zero
        refine leads.head ?_
        rw [digits]
        exact zero
    · intro text some
      cases some
      split
      · exact Number.isDigits_zero
      · rename_i nonempty
        exact ⟨fun empty => nonempty (List.isEmpty_iff.mpr empty), fraction⟩

/-- In positional notation the digits behind the point are divided by their power of ten. -/
theorem value_positional (numeral : Number.Numeral) :
    digitsValue (numeral.positional.1 ++ numeral.positional.2) *
        (10 : ℚ) ^ (-(numeral.positional.2.length : ℤ)) = numeral.value := by
  rw [Number.Numeral.positional, Number.Numeral.value]
  split
  · rename_i small
    have zeros : ['0'] ++ (List.replicate ((-numeral.exponent).toNat - 1) '0' ++ numeral.digits) =
        List.replicate ((-numeral.exponent).toNat - 1 + 1) '0' ++ numeral.digits := by
      rw [List.replicate_succ]
      rfl
    dsimp only
    rw [zeros, Number.digitsValue_zeros_append, List.length_append, List.length_replicate]
    congr 2
    omega
  · rename_i large
    dsimp only
    rcases Nat.le_total (numeral.exponent.toNat + 1) numeral.digits.length with inside | outside
    · rw [Nat.sub_eq_zero_of_le inside, List.replicate_zero, List.append_nil,
        List.take_append_drop, List.length_drop]
      congr 2
      omega
    · rw [List.take_of_length_le outside, List.drop_of_length_le outside, List.append_nil,
        Number.digitsValue_append_zeros, List.length_nil, Nat.cast_zero, neg_zero, zpow_zero,
        mul_one, Nat.cast_mul, Nat.cast_pow, ← zpow_natCast]
      congr 2
      omega

/-- However a numeral is laid out, the literal has its value. -/
theorem quotient_ofNumeral (leads : numeral.Leading) (negative : Bool) :
    (ofNumeral negative numeral).quotient = numeral.value := by
  have length : 0 < numeral.digits.length := List.length_pos_iff.mpr leads.isDigits.nonempty
  rw [ofNumeral]
  split
  · rw [Number.Numeral.value]
    have joined : numeral.digits.take 1 ++
        (if (numeral.digits.drop 1).isEmpty then none else some (numeral.digits.drop 1)).getD [] =
          numeral.digits := by
      split
      · rename_i single
        have whole := List.take_append_drop 1 numeral.digits
        rwa [List.isEmpty_iff.mp single] at whole
      · exact List.take_append_drop 1 numeral.digits
    have fraction : ((if (numeral.digits.drop 1).isEmpty then none
        else some (numeral.digits.drop 1)).getD []).length + 1 = numeral.digits.length := by
      conv_rhs => rw [← joined, List.length_append, List.length_take]
      omega
    simp only [quotient, joined, Option.getD_some]
    congr 2
    omega
  · rw [← value_positional]
    simp only [quotient, Option.getD_some, Option.getD_none, zero_sub]
    split
    · rename_i whole
      have zero : ['0'] = List.replicate 1 '0' := rfl
      rw [List.isEmpty_iff.mp whole, List.append_nil, zero, Number.digitsValue_append_zeros]
      push_cast
      norm_num [mul_assoc]
    · rfl

end Numerals

end Literal

theorem inWord_of_isDigit {character : Char} (digit : character.isDigit) : inWord character := by
  simp [inWord, Char.isAlphanum, digit]

/-- The characters of a literal may all stand in a word. -/
theorem Literal.Legible.inWord (legible : literal.Legible) :
    ∀ character ∈ literal.characters, inWord character := by
  have digits {text : List Char} (isDigits : IsDigits text) :
      ∀ character ∈ text, Json.inWord character :=
    fun character member => inWord_of_isDigit (isDigits.isDigit character member)
  rw [Literal.characters]
  refine List.forall_mem_append.mpr ⟨?_, List.forall_mem_append.mpr
    ⟨digits legible.whole, List.forall_mem_append.mpr ⟨?_, ?_⟩⟩⟩
  · split
    · exact List.forall_mem_singleton.mpr (by decide)
    · exact fun character member => nomatch member
  · cases fraction : literal.fraction with
    | none => exact fun character member => nomatch member
    | some text =>
        exact List.forall_mem_cons.mpr ⟨by decide, digits (legible.fraction text fraction)⟩
  · cases literal.exponent with
    | none => exact fun character member => nomatch member
    | some exponent =>
        refine List.forall_mem_cons.mpr ⟨by decide, List.forall_mem_cons.mpr ⟨?_, ?_⟩⟩
        · split <;> decide
        · exact digits (Number.isDigits_decimalDigits _)

/-- A word that stands for a value. -/
structure Spells (word : List Char) (value : Value) : Prop where
  value : wordValue? word = some value
  inWord : ∀ character ∈ word, inWord character

/-- Literals are no named constants, as they begin with a digit or a minus sign. -/
theorem Literal.Legible.spells (legible : literal.Legible) :
    Spells literal.characters literal.value := by
  refine ⟨?_, legible.inWord⟩
  obtain ⟨first, others, begins⟩ := List.exists_cons_of_ne_nil legible.whole.nonempty
  have digit := legible.whole.isDigit first (begins ▸ List.mem_cons_self)
  have leading : ∃ first rest, literal.characters = first :: rest ∧
      (first.isDigit = true ∨ first = '-') := by
    rw [Literal.characters, begins]
    split
    · exact ⟨'-', _, rfl, .inr rfl⟩
    · exact ⟨first, _, rfl, .inl digit⟩
  obtain ⟨first, rest, equal, leads⟩ := leading
  have apart {letter : Char} {letters : List Char} (other : letter.isDigit = false)
      (unsigned : letter ≠ '-') : ¬ literal.characters = letter :: letters := by
    rw [equal]
    intro same
    rw [(List.cons_eq_cons.mp same).1] at leads
    rcases leads with digit | minus
    · rw [other] at digit
      cases digit
    · exact unsigned minus
  rw [wordValue?, if_neg (apart rfl (by decide)), if_neg (apart rfl (by decide)),
    if_neg (apart rfl (by decide)), legible.ofCharacters?_characters]
  rfl

theorem Literal.legible_ofInteger (number : ℤ) :
    Literal.Legible ⟨decide (number < 0), decimalDigits number.natAbs, none, none⟩ := by
  refine ⟨Number.isDigits_decimalDigits _, ?_, fun digits none => nomatch none⟩
  rintro ⟨long, zero⟩
  rcases Nat.eq_zero_or_pos number.natAbs with none | positive
  · rw [none] at long
    exact absurd long (lt_irrefl 1)
  · exact Number.head_decimalDigits positive zero

/-- An integer that fits a word is read back. -/
theorem spells_writeInteger {number : ℤ} (fits : fitsWord number) :
    Spells (writeInteger number) (.integer number) := by
  let literal : Literal := ⟨decide (number < 0), decimalDigits number.natAbs, none, none⟩
  have written : writeInteger number = literal.characters := by
    simp only [writeInteger, Literal.characters, literal, decide_eq_true_eq]
    exact congrArg _ (List.append_nil _).symm
  have integer : literal.integer? = some number := by
    simp only [Literal.integer?, literal, Number.digitsValue_decimalDigits, decide_eq_true_eq]
    have signed : (if number < 0 then -(number.natAbs : ℤ) else number.natAbs) = number := by
      split <;> omega
    rw [signed, if_pos ⟨fits, by omega⟩]
  have spells := (Literal.legible_ofInteger number).spells
  rwa [← written, Literal.value, integer] at spells

/-- The parts that a double is written in. -/
def literalOf (binary : Number.Binary) : Literal :=
  if binary.significand = 0 then ⟨binary.negative, ['0'], some ['0'], none⟩
  else .ofNumeral binary.negative binary.shortest

theorem characters_literalOf (binary : Number.Binary) :
    (literalOf binary).characters = binary.plain := by
  rw [literalOf, Number.Binary.plain]
  split
  · rfl
  · exact Literal.characters_ofNumeral _ _

theorem legible_literalOf {binary : Number.Binary} (canonical : binary.Canonical) :
    (literalOf binary).Legible := by
  rw [literalOf]
  split
  · refine ⟨Number.isDigits_zero, fun needless => absurd needless.1 (lt_irrefl 1), ?_⟩
    intro digits some
    cases some
    exact Number.isDigits_zero
  · rename_i nonzero
    have positive := Nat.pos_of_ne_zero nonzero
    exact Literal.legible_ofNumeral (Number.Binary.attracts_shortest canonical positive).1 _

/-- The literal of a finite double stands for that double. -/
theorem value_literalOf {value : Float} {binary : Number.Binary}
    (finite : Number.Reading.of value = .finite binary) :
    (literalOf binary).value = .real value := by
  obtain ⟨canonical, bounded, -⟩ := Number.Reading.ofMagnitude_of_finite finite
  have read : (literalOf binary).integer? = none ∧ (literalOf binary).double? = some value := by
    rw [literalOf]
    split
    · rename_i zero
      have nearest := Number.nearest_eq_of_zero finite zero
      refine ⟨rfl, ?_⟩
      have decimal : Number.nearestDecimal binary.negative
          (digitsValue (['0'] ++ (some ['0']).getD []))
          (none.getD 0 - ((some ['0']).getD []).length) =
            value := by
        rw [← nearest]
        rfl
      simp only [Literal.double?, decimal, bounded]
      rfl
    · rename_i nonzero
      have positive := Nat.pos_of_ne_zero nonzero
      obtain ⟨leads, attracts⟩ := Number.Binary.attracts_shortest canonical positive
      rw [← Literal.quotient_ofNumeral leads binary.negative] at attracts
      exact ⟨Literal.integer?_ofNumeral _ _,
        Literal.double?_eq finite positive (Literal.negative_ofNumeral _ _) attracts⟩
  rw [Literal.value, read.1, read.2]

/-- A finite double is read back, down to the sign of zero. -/
theorem spells_writeReal {value : Float} (finite : Number.isFinite value) :
    Spells (writeReal value) (.real value) := by
  rw [Number.isFinite] at finite
  rw [writeReal]
  split at finite
  · rename_i binary reading
    obtain ⟨canonical, -, -⟩ := Number.Reading.ofMagnitude_of_finite reading
    have spells := (legible_literalOf canonical).spells
    rw [characters_literalOf, value_literalOf reading] at spells
    rwa [reading]
  · cases finite
  · cases finite

end Quill.Json
