import Mathlib.Data.Nat.Digits.Defs
import Mathlib.Data.String.Basic
import Mathlib.Tactic.Ring
import Quill.Proofs.NumberText

/-!
# Sizes of number texts

Rounding to significant digits never leaves more digits than were asked for, and the exponent of
a double has three digits at most.  So the text of a double is short, whatever its value, and with
it every group of coordinates.
-/

namespace Quill.Number

theorem twoPow_eq (exponent : Nat) : twoPow exponent = 2 ^ exponent :=
  rfl

section Rounding

variable {numerator denominator count : Nat}

theorem length_decimalDigits_le_iff {number : Nat} (positive : 0 < count) :
    (decimalDigits number).length ≤ count ↔ number < 10 ^ count :=
  Nat.length_toDigits_le_iff (by decide) positive

theorem decimalDigits_length_pos (number : Nat) : 0 < (decimalDigits number).length :=
  Nat.length_toDigits_pos

theorem lt_ten_pow_length (number : Nat) : number < 10 ^ (decimalDigits number).length :=
  (length_decimalDigits_le_iff (decimalDigits_length_pos number)).mp le_rfl

/-- A quotient is below the power of ten behind its leading exponent. -/
theorem lt_of_leadingExponent (numeratorPos : 0 < numerator) (denominatorPos : 0 < denominator) :
    numerator * 10 ^ (-(leadingExponent numerator denominator + 1)).toNat <
      denominator * 10 ^ (leadingExponent numerator denominator + 1).toNat := by
  rw [leadingExponent]
  split
  · rename_i large
    have below := lt_ten_pow_length (numerator / denominator)
    rw [Nat.div_lt_iff_lt_mul denominatorPos] at below
    have up : ((decimalDigits (numerator / denominator)).length - 1 + 1 : Int).toNat =
        (decimalDigits (numerator / denominator)).length := by omega
    have down : (-((decimalDigits (numerator / denominator)).length - 1 + 1 : Int)).toNat = 0 := by
      omega
    rw [up, down, pow_zero, mul_one, mul_comm denominator]
    exact below
  · rename_i small
    have someDigit := decimalDigits_length_pos ((denominator - 1) / numerator)
    obtain ⟨zeros, length⟩ : ∃ zeros,
        (decimalDigits ((denominator - 1) / numerator)).length = zeros + 1 :=
      ⟨_, (Nat.sub_add_cancel someDigit).symm⟩
    have up : (-((decimalDigits ((denominator - 1) / numerator)).length : Int) + 1).toNat = 0 := by
      omega
    have down : (-(-((decimalDigits ((denominator - 1) / numerator)).length : Int) + 1)).toNat =
        zeros := by omega
    rw [up, down, pow_zero, mul_one]
    rcases Nat.eq_zero_or_pos zeros with rfl | zerosPos
    · omega
    · have above : 10 ^ zeros ≤ (denominator - 1) / numerator := by
        by_contra below
        have := (length_decimalDigits_le_iff zerosPos).mpr (Nat.lt_of_not_le below)
        omega
      have scaled := (Nat.le_div_iff_mul_le numeratorPos).mp above
      rw [mul_comm] at scaled
      omega

theorem roundHalfEven_le {bound : Nat} (below : numerator < bound * denominator) :
    roundHalfEven numerator denominator ≤ bound := by
  have denominatorPos : 0 < denominator := by
    by_contra zero
    simp [Nat.eq_zero_of_not_pos zero] at below
  have quotient : numerator / denominator < bound :=
    (Nat.div_lt_iff_lt_mul denominatorPos).mpr below
  simp only [roundHalfEven]
  split
  · omega
  split <;> omega

/-- Moving the point of a quotient from behind its leading digit leaves it below the same power
of ten, on whichever side the zeros are added. -/
theorem scaled_lt {exponent : Int}
    (below : numerator * 10 ^ (-exponent).toNat < denominator * 10 ^ exponent.toNat) :
    numerator * 10 ^ ((count : Int) - exponent).toNat <
      10 ^ count * (denominator * 10 ^ (exponent - count).toNat) := by
  have positive : 0 < 10 ^ count := by positivity
  rcases le_total exponent 0 with negative | nonnegative
  · have digits : ((count : Int) - exponent).toNat = count + (-exponent).toNat := by omega
    have none : (exponent - count).toNat = 0 := by omega
    have whole : exponent.toNat = 0 := by omega
    rw [whole, pow_zero, mul_one] at below
    rw [digits, none, pow_add, pow_zero, mul_one]
    calc
      numerator * (10 ^ count * 10 ^ (-exponent).toNat) =
          10 ^ count * (numerator * 10 ^ (-exponent).toNat) := by ring
      _ < 10 ^ count * denominator := Nat.mul_lt_mul_of_pos_left below positive
  · have none : (-exponent).toNat = 0 := by omega
    rw [none, pow_zero, mul_one] at below
    rcases le_total exponent count with inside | outside
    · have digits : exponent.toNat + ((count : Int) - exponent).toNat = count := by omega
      have whole : (exponent - count).toNat = 0 := by omega
      rw [whole, pow_zero, mul_one]
      calc
        numerator * 10 ^ ((count : Int) - exponent).toNat <
            denominator * 10 ^ exponent.toNat * 10 ^ ((count : Int) - exponent).toNat :=
          Nat.mul_lt_mul_of_pos_right below (by positivity)
        _ = 10 ^ count * denominator := by
          rw [mul_assoc, ← pow_add, digits, mul_comm]
    · have zeros : exponent.toNat = count + (exponent - count).toNat := by omega
      have whole : ((count : Int) - exponent).toNat = 0 := by omega
      rw [whole, pow_zero, mul_one]
      calc
        numerator < denominator * 10 ^ exponent.toNat := below
        _ = 10 ^ count * (denominator * 10 ^ (exponent - count).toNat) := by
          rw [zeros, pow_add]
          ring

/-- Rounding to significant digits leaves no more digits than were asked for. -/
theorem roundSignificant_lt (numeratorPos : 0 < numerator) (denominatorPos : 0 < denominator)
    (countPos : 0 < count) : (roundSignificant count numerator denominator).1 < 10 ^ count := by
  have scaled : _ < 10 ^ count * _ :=
    scaled_lt (lt_of_leadingExponent numeratorPos denominatorPos)
  have shift : (count : Int) - (leadingExponent numerator denominator + 1) =
      count - 1 - leadingExponent numerator denominator := by omega
  have back : leadingExponent numerator denominator + 1 - (count : Int) =
      -(count - 1 - leadingExponent numerator denominator) := by omega
  rw [shift, back] at scaled
  have rounded := roundHalfEven_le scaled
  simp only [roundSignificant]
  rw [apply_ite Prod.fst]
  split
  · exact Nat.pow_lt_pow_right (show 1 < 10 by decide) (by omega)
  · rename_i below
    exact lt_of_le_of_ne rounded below

theorem leadingExponent_le_roundSignificant (count numerator denominator : Nat) :
    leadingExponent numerator denominator ≤ (roundSignificant count numerator denominator).2 := by
  simp only [roundSignificant]
  rw [apply_ite Prod.snd]
  split <;> omega

theorem natAbs_leadingExponent_le {bound : Nat} (numeratorLt : numerator < 10 ^ bound)
    (denominatorLe : denominator ≤ 10 ^ bound) (boundPos : 0 < bound) :
    (leadingExponent numerator denominator).natAbs ≤ bound := by
  rw [leadingExponent]
  split
  · have length : (decimalDigits (numerator / denominator)).length ≤ bound :=
      (length_decimalDigits_le_iff boundPos).mpr
        (lt_of_le_of_lt (Nat.div_le_self _ _) numeratorLt)
    omega
  · rename_i small
    have quotient : (denominator - 1) / numerator < 10 ^ bound := by
      have := Nat.div_le_self (denominator - 1) numerator
      omega
    have length := (length_decimalDigits_le_iff boundPos).mpr quotient
    omega

theorem natAbs_roundSignificant_le (count numerator denominator : Nat) :
    (roundSignificant count numerator denominator).2.natAbs ≤
      (leadingExponent numerator denominator).natAbs + 1 := by
  simp only [roundSignificant]
  rw [apply_ite Prod.snd]
  split <;> omega

end Rounding

section Doubles

/-- The significand and the exponent of a finite double. -/
theorem Reading.ofBits_finite {bits : Nat} {value : Binary}
    (finite : Reading.ofBits bits = .finite value) :
    value.significand < 2 ^ 53 ∧ -1074 ≤ value.exponent ∧ value.exponent ≤ 971 := by
  have fraction : bits % twoPow 52 < 2 ^ 52 := Nat.mod_lt _ (by decide)
  have field : bits / twoPow 52 % twoPow 11 < 2 ^ 11 := Nat.mod_lt _ (by decide)
  simp only [ofBits] at finite
  split at finite
  · split at finite <;> cases finite
  split at finite
  · cases finite
    refine ⟨?_, ?_, ?_⟩ <;> dsimp only <;> omega
  · cases finite
    refine ⟨?_, ?_, ?_⟩ <;> dsimp only [twoPow_eq] at * <;> omega

/-- A finite double is a quotient of numbers with few digits. -/
theorem Reading.of_finite {number : Float} {value : Binary}
    (finite : Reading.of number = .finite value) :
    ∃ bound, 0 < bound ∧ bound < 999 ∧ value.numerator < 10 ^ bound ∧
      value.denominator ≤ 10 ^ bound := by
  obtain ⟨significand, least, most⟩ := Reading.ofBits_finite finite
  obtain ⟨bound, boundEq⟩ : ∃ bound, bound = 400 := ⟨_, rfl⟩
  have powers : 2 ^ (3 * bound) ≤ 10 ^ bound := by
    rw [pow_mul]
    exact Nat.pow_le_pow_left (by decide) bound
  refine ⟨bound, by omega, by omega, ?_, ?_⟩
  · calc
      value.significand * 2 ^ value.exponent.toNat <
          2 ^ 53 * 2 ^ value.exponent.toNat :=
        Nat.mul_lt_mul_of_pos_right significand (by positivity)
      _ = 2 ^ (53 + value.exponent.toNat) := (pow_add ..).symm
      _ ≤ 2 ^ (3 * bound) := Nat.pow_le_pow_right (by decide) (by omega)
      _ ≤ 10 ^ bound := powers
  · calc
      2 ^ (-value.exponent).toNat ≤ 2 ^ (3 * bound) := Nat.pow_le_pow_right (by decide) (by omega)
      _ ≤ 10 ^ bound := powers

end Doubles

section Texts

variable {digits whole fraction : List Char} {numeral : Numeral} {count : Nat}

theorem length_dropTrailingZeros_le (digits : List Char) :
    (dropTrailingZeros digits).length ≤ digits.length := by
  rw [dropTrailingZeros, List.length_reverse]
  have := (digits.reverse.dropWhile_sublist (· == '0')).length_le
  rwa [List.length_reverse] at this

theorem length_joinPoint_le (whole fraction : List Char) :
    (joinPoint whole fraction).length ≤ whole.length + fraction.length + 1 := by
  rw [joinPoint]
  split
  · omega
  · rw [List.length_append, List.length_cons]
    omega

theorem length_signedExponent_le {exponent : Int} (bounded : exponent.natAbs < 10 ^ 3) :
    (signedExponent exponent).length ≤ 5 := by
  have length : (decimalDigits exponent.natAbs).length ≤ 3 :=
    (length_decimalDigits_le_iff (by decide)).mpr bounded
  simp only [signedExponent, List.length_cons]
  split
  · rw [List.length_cons]
    omega
  · omega

theorem length_lastDigits (count number : Nat) : (lastDigits count number).length = count := by
  induction count generalizing number with
  | zero => rfl
  | succ count ih => rw [lastDigits, List.length_append, ih, List.length_singleton]

/-- Rounded to the decimals that its exponent leaves, a quotient has few digits before the point. -/
theorem length_roundDecimals_le {numerator denominator : Nat} {exponent : Int}
    (numeratorPos : 0 < numerator) (denominatorPos : 0 < denominator)
    (least : leadingExponent numerator denominator ≤ exponent) (most : exponent < count) :
    (roundDecimals ((count : Int) - 1 - exponent).toNat numerator denominator).1.length ≤
      count + 1 := by
  have none : (leadingExponent numerator denominator + 1 - (count : Int)).toNat = 0 := by omega
  have scaled : _ < 10 ^ count * _ :=
    scaled_lt (lt_of_leadingExponent numeratorPos denominatorPos)
  rw [none, pow_zero, mul_one] at scaled
  have below : numerator * tenPow ((count : Int) - 1 - exponent).toNat <
      10 ^ count * denominator :=
    lt_of_le_of_lt (Nat.mul_le_mul_left numerator
      (Nat.pow_le_pow_right (by decide) (by omega))) scaled
  have rounded := roundHalfEven_le below
  refine (length_decimalDigits_le_iff (Nat.succ_pos count)).mpr ?_
  calc
    _ ≤ roundHalfEven (numerator * tenPow ((count : Int) - 1 - exponent).toNat) denominator :=
      Nat.div_le_self _ _
    _ ≤ 10 ^ count := rounded
    _ < 10 ^ (count + 1) := Nat.pow_lt_pow_right (by decide) (Nat.lt_succ_self count)

theorem length_joinPoint_trimmed_le (whole fraction : List Char) :
    (joinPoint whole (dropTrailingZeros fraction)).length ≤ whole.length + fraction.length + 1 := by
  have join := length_joinPoint_le whole (dropTrailingZeros fraction)
  have trimmed := length_dropTrailingZeros_le fraction
  omega

theorem Numeral.length_scientific_le (digits : numeral.digits.length ≤ count)
    (bounded : numeral.exponent.natAbs < 10 ^ 3) : numeral.scientific.length ≤ count + 6 := by
  have join := length_joinPoint_trimmed_le (numeral.digits.take 1) (numeral.digits.drop 1)
  have exponent := length_signedExponent_le bounded
  rw [List.length_take, List.length_drop] at join
  rw [scientific, List.length_append]
  omega

theorem length_generalQuotient_le {numerator denominator bound : Nat} (countPos : 0 < count)
    (boundPos : 0 < bound) (bounded : bound < 999) (numeratorPos : 0 < numerator)
    (denominatorPos : 0 < denominator) (numeratorLt : numerator < 10 ^ bound)
    (denominatorLe : denominator ≤ 10 ^ bound) :
    (generalQuotient count numerator denominator).length ≤ 2 * count + 8 := by
  have digits := (length_decimalDigits_le_iff countPos).mpr
    (roundSignificant_lt numeratorPos denominatorPos countPos)
  have least := leadingExponent_le_roundSignificant count numerator denominator
  have rounded := natAbs_roundSignificant_le count numerator denominator
  have leading := natAbs_leadingExponent_le numeratorLt denominatorLe boundPos
  rw [generalQuotient]
  generalize roundSignificant count numerator denominator = result at digits least rounded
  rcases result with ⟨written, exponent⟩
  dsimp only at digits least rounded ⊢
  split
  · have numeral := @Numeral.length_scientific_le ⟨decimalDigits written, exponent⟩ count digits
      (show exponent.natAbs < 10 ^ 3 by omega)
    omega
  · have most : exponent < count := by omega
    have whole := length_roundDecimals_le numeratorPos denominatorPos least most
    have fraction : (roundDecimals ((count : Int) - 1 - exponent).toNat
        numerator denominator).2.length = ((count : Int) - 1 - exponent).toNat :=
      length_lastDigits _ _
    have join := length_joinPoint_trimmed_le
      (roundDecimals ((count : Int) - 1 - exponent).toNat numerator denominator).1
      (roundDecimals ((count : Int) - 1 - exponent).toNat numerator denominator).2
    omega

theorem Binary.length_general_le {value : Binary} {bound : Nat} (countPos : 0 < count)
    (boundPos : 0 < bound) (bounded : bound < 999) (numerator : value.numerator < 10 ^ bound)
    (denominator : value.denominator ≤ 10 ^ bound) :
    (value.general count).length ≤ 2 * count + 9 := by
  have sign : (if value.negative then ['-'] else []).length ≤ 1 := by
    split <;> simp
  rw [general]
  split
  · rw [List.length_append, List.length_singleton]
    omega
  · rename_i nonzero
    have numeratorPos : 0 < value.numerator :=
      Nat.mul_pos (Nat.pos_of_ne_zero nonzero) (Nat.two_pow_pos _)
    have denominatorPos : 0 < value.denominator := Nat.two_pow_pos _
    have quotient := length_generalQuotient_le countPos boundPos bounded numeratorPos
      denominatorPos numerator denominator
    rw [List.length_append]
    omega

theorem utf8Size_of_isPrinted {character : Char} (printed : isPrinted character) :
    character.utf8Size = 1 := by
  rw [isPrinted, Bool.or_eq_true, List.contains_iff_mem] at printed
  rcases printed with digit | others
  · simp only [Char.isDigit, Bool.and_eq_true, decide_eq_true_eq] at digit
    have most : character.toNat ≤ 57 := digit.2
    rw [Char.utf8Size_eq_one_iff]
    change character.toNat ≤ 127
    omega
  · simp only [List.mem_cons, List.not_mem_nil, or_false] at others
    rcases others with rfl | rfl | rfl | rfl | rfl | rfl | rfl | rfl <;> rfl

theorem Written.utf8Len {characters : List Char} (written : Written characters) :
    String.utf8Len characters = characters.length := by
  have ascii : ∀ character ∈ characters, character.utf8Size = 1 := fun character member =>
    utf8Size_of_isPrinted (written.printed character member)
  clear written
  induction characters with
  | nil => rfl
  | cons first rest ih =>
      rw [String.utf8Len_cons, ascii first List.mem_cons_self, List.length_cons,
        ih fun character member => ascii character (List.mem_cons_of_mem _ member)]

end Texts

/-- The text of a double is short, whatever its value. -/
theorem utf8ByteSize_coordinate_le (value : Float) : (coordinate value).utf8ByteSize ≤ 17 := by
  have written := significant_written 4 value
  have length : (significant 4 value).toList.length ≤ 17 := by
    rw [significant]
    split
    · decide
    · split <;> decide
    · rename_i binary finite
      obtain ⟨bound, boundPos, bounded, numerator, denominator⟩ := Reading.of_finite finite
      rw [String.toList_ofList]
      exact Binary.length_general_le (by decide) boundPos bounded numerator denominator
  have text : String.ofList (significant 4 value).toList = significant 4 value :=
    String.ofList_toList
  rw [coordinate, ← text, String.utf8ByteSize_ofList, written.utf8Len]
  exact length

theorem utf8ByteSize_coordinatePair_le (x y : Float) :
    (coordinatePair x y).utf8ByteSize ≤ 35 := by
  have first := utf8ByteSize_coordinate_le x
  have second := utf8ByteSize_coordinate_le y
  have comma : ",".utf8ByteSize = 1 := rfl
  simp only [coordinatePair, String.utf8ByteSize_append]
  omega

end Quill.Number
