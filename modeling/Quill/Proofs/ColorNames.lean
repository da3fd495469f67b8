import Mathlib
import Quill.Color.Notation

/-!
# Reading color names

A color name is read after the white space around it is dropped.  Only some of the notations are
put into lower case, but hexadecimal digits have the same values in either case, so all of them
read a name in the same way however its letters are cased.  The text that a color is written as in
instructions is the name of this color.
-/

namespace Quill

def Text.capitals : List Char :=
  "ABCDEFGHIJKLMNOPQRSTUVWXYZ".toList

/-- A character with its case changed or kept. -/
def Text.Recased (character other : Char) : Prop :=
  other = character ∨ other = character.toLower ∨ other = character.toUpper

instance (character other : Char) : Decidable (Text.Recased character other) :=
  inferInstanceAs (Decidable (_ ∨ _ ∨ _))

/-- A text with white space around it and with the case of its ASCII letters changed. -/
inductive Text.Restyled (text : String) : String → Prop
  | spelled {before letters behind : List Char}
      (leading : ∀ character ∈ before, Text.isBlank character)
      (trailing : ∀ character ∈ behind, Text.isBlank character)
      (recased : List.Forall₂ Text.Recased text.toList letters) :
      Text.Restyled text (String.ofList (before ++ letters ++ behind))

section Letters

open Text

variable {character other : Char} {characters others : List Char}

theorem Text.mem_capitals (upper : character.isUpper = true) : character ∈ capitals := by
  have range : 65 ≤ character.toNat ∧ character.toNat ≤ 90 := of_decide_eq_true upper
  have all : ∀ code < 91, 65 ≤ code → Char.ofNat code ∈ capitals := by decide
  have member := all character.toNat (by omega) range.1
  rwa [Char.ofNat_toNat] at member

/-- What is the same for capital and small letters does not depend on the case of a character. -/
theorem Text.apply_toLower {α : Type} (value : Char → α)
    (letters : ∀ letter ∈ capitals, value letter.toLower = value letter) (character : Char) :
    value character.toLower = value character := by
  by_cases upper : character.isUpper = true
  · exact letters character (mem_capitals upper)
  · rw [Char.toLower_eq_of_not_isUpper upper]

theorem Text.isBlank_toLower (character : Char) :
    isBlank character.toLower = isBlank character :=
  apply_toLower isBlank (List.forall_iff_forall_mem.mp (by decide)) character

theorem Number.hexValue?_toLower (digit : Char) : hexValue? digit.toLower = hexValue? digit :=
  apply_toLower hexValue? (List.forall_iff_forall_mem.mp (by decide)) digit

theorem Text.toLower_eq_hash : character.toLower = '#' ↔ character = '#' := by
  have same := apply_toLower (· == '#') (List.forall_iff_forall_mem.mp (by decide)) character
  simpa using congrArg (· = true) same

theorem Text.Recased.toLower (recased : Recased character other) :
    other.toLower = character.toLower := by
  rcases recased with rfl | rfl | rfl
  · rfl
  · exact Char.toLower_toLower_eq_toLower character
  · exact Char.toLower_toUpper_eq_toLower character

theorem Text.map_toLower_of_recased (recased : List.Forall₂ Recased characters others) :
    others.map Char.toLower = characters.map Char.toLower := by
  induction recased with
  | nil => rfl
  | cons here _ ih => rw [List.map_cons, List.map_cons, here.toLower, ih]

end Letters

section Trimming

open Text

variable {characters before behind : List Char}

theorem Text.dropWhile_map_toLower (characters : List Char) :
    (characters.map Char.toLower).dropWhile isBlank =
      (characters.dropWhile isBlank).map Char.toLower := by
  have same : isBlank ∘ Char.toLower = isBlank := funext isBlank_toLower
  rw [List.dropWhile_map, same]

theorem Text.trim_map_toLower (characters : List Char) :
    trim (characters.map Char.toLower) = (trim characters).map Char.toLower := by
  simp only [trim, dropWhile_map_toLower, ← List.map_reverse]

/-- White space around a text is dropped. -/
theorem Text.trim_surrounded (leading : ∀ character ∈ before, isBlank character)
    (trailing : ∀ character ∈ behind, isBlank character) (characters : List Char) :
    trim (before ++ characters ++ behind) = trim characters := by
  rw [trim, trim, List.append_assoc, List.dropWhile_append_of_pos leading, List.dropWhile_append]
  split
  · rename_i empty
    have nothing : behind.dropWhile isBlank = [] := List.dropWhile_eq_nil_iff.mpr trailing
    rw [nothing, List.isEmpty_iff.mp empty]
  · have reversed : ∀ character ∈ behind.reverse, isBlank character :=
      fun character member => trailing character (List.mem_reverse.mp member)
    rw [List.reverse_append, List.dropWhile_append_of_pos reversed]

/-- A text without white space is kept whole. -/
theorem Text.trim_of_solid (solid : ∀ character ∈ characters, isBlank character = false) :
    trim characters = characters := by
  have kept : ∀ {characters : List Char}, (∀ character ∈ characters, isBlank character = false) →
      characters.dropWhile isBlank = characters := by
    intro characters solid
    cases characters with
    | nil => rfl
    | cons first rest =>
        have here := solid first List.mem_cons_self
        exact List.dropWhile_cons_of_neg (by rw [here]; exact Bool.false_ne_true)
  have reversed : ∀ character ∈ characters.reverse, isBlank character = false :=
    fun character member => solid character (List.mem_reverse.mp member)
  rw [trim, kept solid, kept reversed, List.reverse_reverse]

end Trimming

namespace Rgba

open Text

variable {name : String}

/-- Read a name in lower case that does not begin with `#`. -/
def ofLowerCase? (characters : List Char) : Option Rgba :=
  match between? "rgba(".toList characters with
  | some arguments => ofArguments? true arguments
  | none =>
    match between? "rgb(".toList characters with
    | some arguments => ofArguments? false arguments
    | none => keywords.lookup (String.ofList characters)

theorem ofHexadecimal?_map_toLower (digits : List Char) :
    ofHexadecimal? (digits.map Char.toLower) = ofHexadecimal? digits := by
  have same : Number.hexValue? ∘ Char.toLower = Number.hexValue? :=
    funext Number.hexValue?_toLower
  rw [ofHexadecimal?, ofHexadecimal?, List.mapM_map, same]

/-- Only what is left of a name without the white space around it is read. -/
theorem ofName?_of_trim {given : String} (same : trim given.toList = trim name.toList) :
    ofName? given = ofName? name := by
  rw [ofName?, ofName?, same]

theorem ofName?_of_hash {digits : List Char} (hash : trim name.toList = '#' :: digits) :
    ofName? name = ofHexadecimal? digits := by
  simp only [ofName?, hash]

theorem ofName?_of_head (other : (trim name.toList).head? ≠ some '#') :
    ofName? name = ofLowerCase? ((trim name.toList).map Char.toLower) := by
  rw [ofName?]
  split
  · rename_i hash
    rw [hash] at other
    exact (other rfl).elim
  · rfl

/-- A name is read like the same name in lower case. -/
theorem ofName?_map_toLower (name : String) :
    ofName? (String.ofList (name.toList.map Char.toLower)) = ofName? name := by
  have lower : trim (String.ofList (name.toList.map Char.toLower)).toList =
      (trim name.toList).map Char.toLower := by
    rw [String.toList_ofList, trim_map_toLower]
  by_cases hash : (trim name.toList).head? = some '#'
  · obtain ⟨digits, hash⟩ := List.head?_eq_some_iff.mp hash
    rw [hash, List.map_cons] at lower
    rw [ofName?_of_hash lower, ofName?_of_hash hash, ofHexadecimal?_map_toLower]
  · have other : ((trim name.toList).map Char.toLower).head? ≠ some '#' := by
      rw [List.head?_map]
      intro first
      obtain ⟨character, here, same⟩ := Option.map_eq_some_iff.mp first
      exact hash (by rw [here, toLower_eq_hash.mp same])
    have twice : Char.toLower ∘ Char.toLower = Char.toLower :=
      funext Char.toLower_toLower_eq_toLower
    rw [← lower] at other
    rw [ofName?_of_head other, ofName?_of_head hash, lower, List.map_map, twice]

variable {color : Rgba}

/-- The digits of a color that is not left out. -/
def hexDigits (color : Rgba) : List Char :=
  digits color.r ++ digits color.g ++ digits color.b ++
    (if color.a = 255 then [] else digits color.a)

/-- The text of a color: `none` for no paint, and otherwise two capital digits behind `#` for every
channel, of which an opaque color leaves out the last. -/
structure Notation (color : Rgba) (text : String) : Prop where
  none : color = noPaint → text = "none"
  digits : color ≠ noPaint → ∃ digits, text = String.ofList ('#' :: digits) ∧
    digits.length = (if color.a = 255 then 6 else 8) ∧
    ∀ digit ∈ digits, digit ∈ "0123456789ABCDEF".toList

theorem upperHexDigit_mem {value : Nat} (small : value < 16) :
    Number.upperHexDigit value ∈ "0123456789ABCDEF".toList := by
  have all : ∀ value < 16, Number.upperHexDigit value ∈ "0123456789ABCDEF".toList := by decide
  exact all value small

theorem hexValue?_upperHexDigit {value : Nat} (small : value < 16) :
    Number.hexValue? (Number.upperHexDigit value) = some value := by
  have all : ∀ value < 16, Number.hexValue? (Number.upperHexDigit value) = some value := by decide
  exact all value small

theorem halves_lt (channel : UInt8) : channel.toNat / 16 < 16 ∧ channel.toNat % 16 < 16 := by
  have small := channel.toNat_lt
  omega

theorem mem_hexDigits :
    ∀ digit ∈ color.hexDigits, digit ∈ "0123456789ABCDEF".toList := by
  have channel : ∀ channel, ∀ digit ∈ digits channel, digit ∈ "0123456789ABCDEF".toList := by
    intro channel
    obtain ⟨high, low⟩ := halves_lt channel
    exact List.forall_mem_cons.mpr
      ⟨upperHexDigit_mem high, List.forall_mem_singleton.mpr (upperHexDigit_mem low)⟩
  simp only [hexDigits, List.forall_mem_append]
  refine ⟨⟨⟨channel _, channel _⟩, channel _⟩, ?_⟩
  split
  · exact fun digit member => absurd member List.not_mem_nil
  · exact channel _

theorem length_hexDigits (color : Rgba) :
    color.hexDigits.length = if color.a = 255 then 6 else 8 := by
  rw [hexDigits]
  split <;> rfl

theorem text_eq (color : Rgba) :
    color.text = if color = noPaint then "none" else String.ofList ('#' :: color.hexDigits) := by
  rw [text, characters, isNone]
  by_cases none : color = noPaint
  · rw [if_pos none, if_pos (beq_iff_eq.mpr none)]
  · rw [if_neg none, if_neg (mt beq_iff_eq.mp none)]
    rfl

theorem text_spelled (color : Rgba) : color.Notation color.text := by
  constructor
  · intro none
    rw [text_eq, if_pos none]
  · intro paint
    exact ⟨color.hexDigits, by rw [text_eq, if_neg paint], color.length_hexDigits, mem_hexDigits⟩

theorem channelOfDigits_halves (channel : UInt8) :
    channelOfDigits (channel.toNat / 16) (channel.toNat % 16) = channel := by
  have whole : channel.toNat / 16 * 16 + channel.toNat % 16 = channel.toNat := by omega
  rw [channelOfDigits, whole, UInt8.ofNat_toNat]

/-- The digits of a channel are read as its halves. -/
theorem mapM_digits (channel : UInt8) :
    (digits channel).mapM Number.hexValue? =
      some [channel.toNat / 16, channel.toNat % 16] := by
  obtain ⟨high, low⟩ := halves_lt channel
  simp [digits, List.mapM_cons, hexValue?_upperHexDigit high, hexValue?_upperHexDigit low]

/-- The digits of a color are read as this color. -/
theorem ofHexadecimal?_hexDigits (color : Rgba) :
    ofHexadecimal? color.hexDigits = some color := by
  rw [ofHexadecimal?, hexDigits]
  by_cases full : color.a = 255
  · obtain ⟨r, g, b, a⟩ := color
    obtain rfl : a = 255 := full
    simp [mapM_digits, channelOfDigits_halves]
  · simp [full, mapM_digits, channelOfDigits_halves]

/-- The text of a color is a name of it. -/
theorem ofName?_text (color : Rgba) : ofName? color.text = some color := by
  by_cases none : color = noPaint
  · rw [text_eq, if_pos none, none]
    rfl
  · have solid : ∀ character ∈ '#' :: color.hexDigits, isBlank character = false := by
      have digits : ∀ digit ∈ "0123456789ABCDEF".toList, isBlank digit = false :=
        List.forall_iff_forall_mem.mp (by decide)
      exact List.forall_mem_cons.mpr
        ⟨by decide, fun digit member => digits digit (mem_hexDigits digit member)⟩
    rw [text_eq, if_neg none, ofName?, String.toList_ofList, trim_of_solid solid]
    exact color.ofHexadecimal?_hexDigits

end Rgba

/-- Color names are read alike with white space around them and with their letters in either case,
and every color is read back from its text, which is `none` or in hexadecimal digits. -/
theorem color_names_read_back :
    (∀ name given, Text.Restyled name given → Rgba.ofName? given = Rgba.ofName? name) ∧
      ∀ color : Rgba, color.Notation color.text ∧ Rgba.ofName? color.text = some color := by
  refine ⟨?_, fun color => ⟨color.text_spelled, color.ofName?_text⟩⟩
  rintro name _ ⟨leading, trailing, recased⟩
  rename_i before letters behind
  have lower := Text.map_toLower_of_recased recased
  calc
    Rgba.ofName? (String.ofList (before ++ letters ++ behind)) =
        Rgba.ofName? (String.ofList letters) := by
      refine Rgba.ofName?_of_trim ?_
      rw [String.toList_ofList, String.toList_ofList, Text.trim_surrounded leading trailing]
    _ = Rgba.ofName? (String.ofList (letters.map Char.toLower)) := by
      rw [← Rgba.ofName?_map_toLower (String.ofList letters), String.toList_ofList]
    _ = Rgba.ofName? name := by
      rw [lower, Rgba.ofName?_map_toLower]

/-- A functional notation in capital letters between a tab and a space. -/
theorem color_names_read_back_in_capitals :
    Text.Restyled "rgba(1e1,2,300,0.5)" "\tRGBA(1E1,2,300,0.5) " ∧
      Rgba.ofName? "\tRGBA(1E1,2,300,0.5) " = Rgba.ofName? "rgba(1e1,2,300,0.5)" ∧
        Rgba.ofName? "rgba(1e1,2,300,0.5)" = some ⟨10, 2, 255, 128⟩ := by
  have leading : ∀ character ∈ ['\t'], Text.isBlank character :=
    List.forall_mem_singleton.mpr (by decide)
  have trailing : ∀ character ∈ [' '], Text.isBlank character :=
    List.forall_mem_singleton.mpr (by decide)
  have recased : List.Forall₂ Text.Recased "rgba(1e1,2,300,0.5)".toList
      "RGBA(1E1,2,300,0.5)".toList := by decide
  have restyled : Text.Restyled "rgba(1e1,2,300,0.5)" "\tRGBA(1E1,2,300,0.5) " :=
    .spelled leading trailing recased
  exact ⟨restyled, color_names_read_back.1 _ _ restyled, by decide +kernel⟩

end Quill
