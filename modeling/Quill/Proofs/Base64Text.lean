import Quill.Proofs.Spacing
import Quill.Text.Base64

/-!
# Base64 bit by bit

The standard spelling of bytes in base64 is a statement about bits: six at a time are a symbol of
the alphabet, zeros fill up the last symbol, and equals signs the last group of four.  What is
encoded is spelled so and decoded to the same bytes, and its lines are of one width but the last.
-/

namespace Quill.Text.Base64

/-- The lowest bits of a number, the highest of them first. -/
def bits : Nat → Nat → List Bool
  | 0, _ => []
  | count + 1, number => bits count (number / 2) ++ [number % 2 == 1]

/-- The lowest six-bit digits of a number, the highest of them first. -/
def sextets : Nat → Nat → List Nat
  | 0, _ => []
  | count + 1, number => sextets count (number / 64) ++ [number % 64]

def alphabet : String :=
  "ABCDEFGHIJKLMNOPQRSTUVWXYZabcdefghijklmnopqrstuvwxyz0123456789+/"

/-- Characters that are the standard spelling of bytes: the symbols of six-bit values, whose bits
are those of the bytes and as few zeros as complete the last value, and as few equals signs as
complete the last group of four. -/
structure Spelling (bytes : List UInt8) (values : List Nat) (zeros fill : Nat)
    (characters : List Char) : Prop where
  symbols : characters = values.map (alphabet.toList.getD · '=') ++ List.replicate fill '='
  small : ∀ value ∈ values, value < 64
  same : values.flatMap (bits 6) =
    bytes.flatMap (bits 8 ·.toNat) ++ List.replicate zeros false
  fewZeros : zeros < 6
  short : fill < 4
  groups : 4 ∣ characters.length

def Spells (bytes : List UInt8) (characters : List Char) : Prop :=
  ∃ values zeros fill, Spelling bytes values zeros fill characters

section Bits

theorem bits_add (high low number : Nat) :
    bits (high + low) number = bits high (number / 2 ^ low) ++ bits low number := by
  induction low generalizing number with
  | zero => simp [bits]
  | succ low ih =>
      rw [← Nat.add_assoc, bits, ih, bits, List.append_assoc, Nat.div_div_eq_div_mul,
        Nat.pow_succ, Nat.mul_comm]

theorem bits_mod (count number : Nat) : bits count (number % 2 ^ count) = bits count number := by
  induction count generalizing number with
  | zero => rfl
  | succ count ih =>
      have half : number % 2 ^ (count + 1) / 2 = number / 2 % 2 ^ count := by
        rw [Nat.pow_succ, Nat.mul_comm, Nat.mod_mul_right_div_self]
      have parity : number % 2 ^ (count + 1) % 2 = number % 2 :=
        Nat.mod_mod_of_dvd number (Nat.dvd_mul_left 2 (2 ^ count))
      rw [bits, half, ih, parity, bits]

/-- The bits of two numbers side by side. -/
theorem bits_shift {low : Nat} (high upper : Nat) {lower : Nat} (small : lower < 2 ^ low) :
    bits (high + low) (upper * 2 ^ low + lower) = bits high upper ++ bits low lower := by
  have quotient : (upper * 2 ^ low + lower) / 2 ^ low = upper := by
    rw [Nat.mul_comm, Nat.mul_add_div (Nat.two_pow_pos low), Nat.div_eq_of_lt small, Nat.add_zero]
  have remainder : bits low (upper * 2 ^ low + lower) = bits low lower := by
    rw [← bits_mod, Nat.mul_comm, Nat.mul_add_mod, bits_mod]
  rw [bits_add, quotient, remainder]

theorem bits_zero (count : Nat) : bits count 0 = List.replicate count false := by
  induction count with
  | zero => rfl
  | succ count ih =>
      rw [bits, Nat.zero_div, ih, List.replicate_succ']
      rfl

theorem bits_zeros (count number zeros : Nat) :
    bits (count + zeros) (number * 2 ^ zeros) =
      bits count number ++ List.replicate zeros false := by
  have shifted := bits_shift count number (Nat.two_pow_pos zeros)
  rwa [Nat.add_zero, bits_zero] at shifted

end Bits

section Symbols

theorem symbol_eq_alphabet {value : Nat} (small : value < 64) :
    symbol value = alphabet.toList.getD value '=' := by
  have all : ∀ value < 64, symbol value = alphabet.toList.getD value '=' := by decide +kernel
  exact all value small

theorem value?_symbol {value : Nat} (small : value < 64) : value? (symbol value) = some value := by
  have all : ∀ value < 64, value? (symbol value) = some value := by decide +kernel
  exact all value small

theorem symbol_cases (value : Nat) : ∃ small < 64, symbol value = symbol small := by
  by_cases letter : value < 64
  · exact ⟨value, letter, rfl⟩
  · refine ⟨63, by decide, ?_⟩
    unfold symbol
    grind

theorem symbol_ne_equals (value : Nat) : symbol value ≠ '=' := by
  obtain ⟨small, bound, same⟩ := symbol_cases value
  have all : ∀ value < 64, symbol value ≠ '=' := by decide +kernel
  exact same ▸ all small bound

end Symbols

section Spellings

variable {bytes : List UInt8} {values : List Nat} {zeros fill : Nat} {characters : List Char}

theorem sextets_small (count number : Nat) : ∀ value ∈ sextets count number, value < 64 := by
  induction count generalizing number with
  | zero => exact fun value member => by cases member
  | succ count ih =>
      rw [sextets]
      refine List.forall_mem_append.mpr ⟨ih (number / 64), ?_⟩
      exact List.forall_mem_singleton.mpr (Nat.mod_lt number (by decide))

theorem bits_sextets (count number : Nat) :
    (sextets count number).flatMap (bits 6) = bits (6 * count) number := by
  induction count generalizing number with
  | zero => rfl
  | succ count ih =>
      rw [sextets, List.flatMap_append, ih, List.flatMap_singleton, Nat.mul_succ, bits_add,
        ← bits_mod 6 number]
      rfl

theorem encode_one (first : UInt8) :
    encode [first] = (sextets 2 (first.toNat * 16)).map symbol ++ List.replicate 2 '=' := by
  have bound := first.toNat_lt
  have top : first.toNat * 16 / 64 % 64 = first.toNat * 16 / 64 := by omega
  simp [encode, sextets, top, List.replicate]

theorem encode_two (first second : UInt8) :
    encode [first, second] =
      (sextets 3 ((first.toNat * 256 + second.toNat) * 4)).map symbol ++ List.replicate 1 '=' := by
  have bound := first.toNat_lt
  have bound' := second.toNat_lt
  have top : (first.toNat * 256 + second.toNat) * 4 / 64 / 64 % 64 =
      (first.toNat * 256 + second.toNat) * 4 / 4096 := by omega
  simp [encode, sextets, top, List.replicate]

theorem encode_three (first second third : UInt8) (rest : List UInt8) :
    encode (first :: second :: third :: rest) =
      (sextets 4 ((first.toNat * 256 + second.toNat) * 256 + third.toNat)).map symbol ++
        encode rest := by
  have bound := first.toNat_lt
  have bound' := second.toNat_lt
  have bound'' := third.toNat_lt
  generalize split : (first.toNat * 256 + second.toNat) * 256 + third.toNat = number
  have top : number / 64 / 64 / 64 % 64 = number / 262144 := by omega
  have next : number / 64 / 64 % 64 = number / 4096 % 64 := by omega
  simp [encode, sextets, split, top, next]

theorem map_symbol (small : ∀ value ∈ values, value < 64) :
    values.map symbol = values.map (alphabet.toList.getD · '=') :=
  List.map_congr_left fun value member => symbol_eq_alphabet (small value member)

theorem bits_pair (first second : UInt8) :
    bits 16 (first.toNat * 256 + second.toNat) = bits 8 first.toNat ++ bits 8 second.toNat := by
  simpa only [Nat.reducePow, Nat.reduceAdd] using bits_shift 8 first.toNat second.toNat_lt

theorem Spelling.nil : Spelling [] [] 0 0 [] :=
  ⟨rfl, List.forall_mem_nil _, rfl, by decide, by decide, by decide⟩

theorem Spelling.one (first : UInt8) :
    Spelling [first] (sextets 2 (first.toNat * 16)) 4 2 (encode [first]) := by
  have small := sextets_small 2 (first.toNat * 16)
  refine ⟨?_, small, ?_, by decide, by decide, ?_⟩
  · rw [encode_one, map_symbol small]
  · rw [bits_sextets, List.flatMap_singleton]
    exact bits_zeros 8 first.toNat 4
  · rw [encode_one]
    simp [sextets]

theorem Spelling.two (first second : UInt8) :
    Spelling [first, second] (sextets 3 ((first.toNat * 256 + second.toNat) * 4)) 2 1
      (encode [first, second]) := by
  have small := sextets_small 3 ((first.toNat * 256 + second.toNat) * 4)
  refine ⟨?_, small, ?_, by decide, by decide, ?_⟩
  · rw [encode_two, map_symbol small]
  · rw [bits_sextets, List.flatMap_cons, List.flatMap_singleton, ← bits_pair]
    exact bits_zeros 16 (first.toNat * 256 + second.toNat) 2
  · rw [encode_two]
    simp [sextets]

/-- A whole group in front of a spelling. -/
theorem Spelling.cons (spelling : Spelling bytes values zeros fill characters)
    (first second third : UInt8) :
    let number := (first.toNat * 256 + second.toNat) * 256 + third.toNat
    Spelling (first :: second :: third :: bytes) (sextets 4 number ++ values) zeros fill
      ((sextets 4 number).map symbol ++ characters) := by
  intro number
  have small := sextets_small 4 number
  have own : bits 24 number = bits 8 first.toNat ++ bits 8 second.toNat ++ bits 8 third.toNat := by
    rw [← bits_pair]
    simpa only [Nat.reducePow, Nat.reduceAdd] using
      bits_shift 16 (first.toNat * 256 + second.toNat) third.toNat_lt
  refine ⟨?_, ?_, ?_, spelling.fewZeros, spelling.short, ?_⟩
  · rw [spelling.symbols, map_symbol small, List.map_append, List.append_assoc]
  · exact List.forall_mem_append.mpr ⟨small, spelling.small⟩
  · rw [List.flatMap_append, bits_sextets, spelling.same, own]
    simp only [List.flatMap_cons, List.append_assoc]
  · rw [List.length_append, List.length_map]
    exact (Nat.dvd_add_right ⟨1, rfl⟩).mpr spelling.groups

/-- What is encoded is spelled as the standard has it. -/
theorem encode_spells (bytes : List UInt8) : Spells bytes (encode bytes) := by
  induction bytes using encode.induct with
  | case1 => exact ⟨_, _, _, .nil⟩
  | case2 first => exact ⟨_, _, _, .one first⟩
  | case3 first second => exact ⟨_, _, _, .two first second⟩
  | case4 first second third rest ih =>
      obtain ⟨values, zeros, fill, spelling⟩ := ih
      rw [encode_three]
      exact ⟨_, zeros, fill, spelling.cons first second third⟩

example : encode [77, 97] = ['T', 'W', 'E', '='] := by decide

theorem decode_symbols {a b c d : Nat} (bounds : a < 64 ∧ b < 64 ∧ c < 64 ∧ d < 64)
    (rest : List Char) :
    decode (symbol a :: symbol b :: symbol c :: symbol d :: rest) =
      (decode rest).map fun bytes =>
        let number := ((a * 64 + b) * 64 + c) * 64 + d
        UInt8.ofNat (number / 65536) :: UInt8.ofNat (number / 256 % 256) ::
          UInt8.ofNat (number % 256) :: bytes := by
  obtain ⟨first, second, third, fourth⟩ := bounds
  have last := symbol_ne_equals d
  rw [decode]
  · simp only [value?_symbol, first, second, third, fourth]
    cases decode rest <;> rfl
  · exact fun _ equals _ => last equals
  · exact fun equals _ => last equals

/-- What is encoded is decoded to the same bytes. -/
theorem decode_encode (bytes : List UInt8) : decode (encode bytes) = some bytes := by
  induction bytes using encode.induct with
  | case1 => rfl
  | case2 first =>
      have bound := first.toNat_lt
      have high : first.toNat * 16 / 64 < 64 := by omega
      have low : first.toNat * 16 % 64 < 64 := by omega
      have whole : first.toNat * 16 / 64 * 64 + first.toNat * 16 % 64 = first.toNat * 16 := by
        omega
      have aligned : first.toNat * 16 % 16 = 0 := by omega
      have byte : first.toNat * 16 / 16 = first.toNat := by omega
      simp [encode, decode, value?_symbol, high, low, whole, aligned, byte]
  | case3 first second =>
      have bound := first.toNat_lt
      have bound' := second.toNat_lt
      generalize joined : (first.toNat * 256 + second.toNat) * 4 = number
      have high : number / 4096 < 64 := by omega
      have middle : number / 64 % 64 < 64 := by omega
      have low : number % 64 < 64 := by omega
      have whole : (number / 4096 * 64 + number / 64 % 64) * 64 + number % 64 = number := by omega
      have aligned : number % 4 = 0 := by omega
      have byte : number / 1024 = first.toNat := by omega
      have byte' : number / 4 % 256 = second.toNat := by omega
      simp [encode, decode, value?_symbol, symbol_ne_equals, joined, high, middle, low, whole,
        aligned, byte, byte']
  | case4 first second third rest ih =>
      have bound := first.toNat_lt
      have bound' := second.toNat_lt
      have bound'' := third.toNat_lt
      rw [encode]
      generalize joined : (first.toNat * 256 + second.toNat) * 256 + third.toNat = number
      have whole : ((number / 262144 * 64 + number / 4096 % 64) * 64 + number / 64 % 64) * 64 +
          number % 64 = number := by omega
      have byte : number / 65536 = first.toNat := by omega
      have byte' : number / 256 % 256 = second.toNat := by omega
      have byte'' : number % 256 = third.toNat := by omega
      rw [decode_symbols (by omega), ih]
      simp [whole, byte, byte', byte'']

end Spellings

section Runs

variable {α : Type} (width : Nat)

theorem length_of_mem_runs (items : List α) :
    ∀ run ∈ runs width items, 0 < run.length ∧ run.length ≤ width + 1 := by
  induction items using runs.induct width with
  | case1 => simp [runs]
  | case2 first rest ih =>
      rw [runs]
      refine List.forall_mem_cons.mpr ⟨?_, ih⟩
      simp

/-- All runs but the last are of the full width. -/
theorem length_of_mem_dropLast_runs (items : List α) :
    ∀ run ∈ (runs width items).dropLast, run.length = width + 1 := by
  induction items using runs.induct width with
  | case1 => simp [runs]
  | case2 first rest ih =>
      rw [runs]
      cases others : runs width (rest.drop width) with
      | nil => simp
      | cons second later =>
          have behind : rest.drop width ≠ [] := by
            intro empty
            rw [empty, runs] at others
            cases others
          have long : width < rest.length := by
            simpa using behind
          rw [List.dropLast_cons_cons, ← others]
          refine List.forall_mem_cons.mpr ⟨?_, ih⟩
          simp
          omega

end Runs

end Quill.Text.Base64
