import NuLinkCore.Lib.Hex
import NuLinkCore.Lib.Numeral

/-!
# Universally unique identifiers as text

An identifier of 16 bytes is written as 32 lowercase hexadecimal digits in five groups that are
joined by hyphens.

Main results:

- Theorem {lit}`Uuid.text_injective`: different identifiers have different texts.
- Theorem {lit}`Uuid.readInt_text`: no text of an identifier reads as an integer.
- Theorem {lit}`Uuid.colon_not_mem_text`: nor does it have a colon.
-/

structure Uuid where
  bytes : List UInt8
  length_eq : bytes.length = 16
deriving DecidableEq

namespace Uuid

open Numerals

/-- The groups of 8, 4, 4, 4 and 12 digits. -/
def grouped (digits : List Char) : List Char :=
  digits.take 8 ++ '-' :: ((digits.drop 8).take 4 ++ '-' :: ((digits.drop 12).take 4 ++
    '-' :: ((digits.drop 16).take 4 ++ '-' :: digits.drop 20)))

/-- The text of an identifier. -/
def text (uuid : Uuid) : String := String.ofList (grouped (Hex.encode uuid.bytes))

theorem mem_grouped {digits : List Char} {c : Char} (h : c ∈ grouped digits) :
    c = '-' ∨ c ∈ digits := by
  simp only [grouped, List.mem_append, List.mem_cons] at h
  rcases h with h | h | h | h | h | h | h | h | h
  · exact Or.inr (List.mem_of_mem_take h)
  · exact Or.inl h
  · exact Or.inr (List.mem_of_mem_drop (List.mem_of_mem_take h))
  · exact Or.inl h
  · exact Or.inr (List.mem_of_mem_drop (List.mem_of_mem_take h))
  · exact Or.inl h
  · exact Or.inr (List.mem_of_mem_drop (List.mem_of_mem_take h))
  · exact Or.inl h
  · exact Or.inr (List.mem_of_mem_drop h)

/-- Without the hyphens the digits are left. -/
theorem filter_grouped {digits : List Char} (h : '-' ∉ digits) :
    (grouped digits).filter (· ≠ '-') = digits := by
  have hkeep : ∀ part : List Char, (∀ c ∈ part, c ∈ digits) → part.filter (· ≠ '-') = part := by
    intro part hpart
    refine List.filter_eq_self.mpr fun c hc => ?_
    have hne : c ≠ '-' := fun heq => h (heq ▸ hpart c hc)
    simpa using hne
  have hhyphen : ∀ rest : List Char, ('-' :: rest).filter (· ≠ '-') = rest.filter (· ≠ '-') :=
    fun rest => List.filter_cons_of_neg (by simp)
  have htake : ∀ n c, c ∈ digits.take n → c ∈ digits := fun n c hc => List.mem_of_mem_take hc
  have hslice : ∀ m n c, c ∈ (digits.drop m).take n → c ∈ digits :=
    fun m n c hc => List.mem_of_mem_drop (List.mem_of_mem_take hc)
  have hrest : ∀ m c, c ∈ digits.drop m → c ∈ digits := fun m c hc => List.mem_of_mem_drop hc
  have hjoin : ∀ m n, (digits.drop m).take n ++ digits.drop (m + n) = digits.drop m := by
    intro m n
    rw [← List.drop_drop, List.take_append_drop]
  rw [grouped, List.filter_append, hhyphen, List.filter_append, hhyphen, List.filter_append,
    hhyphen, List.filter_append, hhyphen, hkeep _ (htake 8), hkeep _ (hslice 8 4),
    hkeep _ (hslice 12 4), hkeep _ (hslice 16 4), hkeep _ (hrest 20), hjoin 16 4, hjoin 12 4,
    hjoin 8 4, List.take_append_drop]

/-- What is written of the bytes are digits. -/
theorem exists_digit {bytes : List UInt8} {c : Char} (h : c ∈ Hex.encode bytes) :
    ∃ n < 16, c = Hex.digit n := by
  rcases List.mem_flatMap.mp h with ⟨byte, -, hc⟩
  have hlt : byte.toNat < 256 := byte.toNat_lt
  rcases List.mem_cons.mp hc with rfl | hlow
  · exact ⟨byte.toNat / 16, by omega, rfl⟩
  · exact ⟨byte.toNat % 16, by omega, List.mem_singleton.mp hlow⟩

theorem digit_plain : ∀ n < 16, Hex.digit n ≠ '-' ∧ Hex.digit n ≠ ':' ∧
    glyph (Hex.digit n) ≠ .space ∧ glyph (Hex.digit n) ≠ .plus ∧ glyph (Hex.digit n) ≠ .minus := by
  decide

theorem hyphen_not_mem_encode (bytes : List UInt8) : '-' ∉ Hex.encode bytes := by
  intro h
  rcases exists_digit h with ⟨n, hn, heq⟩
  exact (digit_plain n hn).1 heq.symm

theorem toList_text (uuid : Uuid) : uuid.text.toList = grouped (Hex.encode uuid.bytes) := by
  rw [text, String.toList_ofList]

/-- Different identifiers have different texts. -/
theorem text_injective : Function.Injective text := by
  intro a b h
  have hchars : grouped (Hex.encode a.bytes) = grouped (Hex.encode b.bytes) := by
    rw [← toList_text, ← toList_text, h]
  have hdigits : Hex.encode a.bytes = Hex.encode b.bytes := by
    rw [← filter_grouped (hyphen_not_mem_encode a.bytes), hchars,
      filter_grouped (hyphen_not_mem_encode b.bytes)]
  have hbytes : a.bytes = b.bytes := by
    have hread := congrArg Hex.decode hdigits
    simpa using hread
  cases a
  cases b
  cases hbytes
  rfl

theorem colon_not_mem_text (uuid : Uuid) : ':' ∉ uuid.text.toList := by
  rw [toList_text]
  intro h
  rcases mem_grouped h with heq | hmem
  · exact absurd heq (by decide)
  · rcases exists_digit hmem with ⟨n, hn, heq⟩
    exact (digit_plain n hn).2.1 heq.symm

/-! ## No number -/

theorem readDigits_of_minus {glyphs : List Glyph} (h : .minus ∈ glyphs) (acc : Nat) :
    readDigits acc glyphs = none := by
  fun_induction readDigits acc glyphs with
  | case1 acc => cases h
  | case2 acc d rest ih => exact ih (by simpa using h)
  | case3 acc d rest ih => exact ih (by simpa using h)
  | case4 acc glyphs => rfl

/-- A sign that is not the first character ends a numeral. -/
theorem readSigned_of_minus {first : Glyph} {rest : List Glyph} (hplus : first ≠ .plus)
    (hminus : first ≠ .minus) (h : .minus ∈ rest) : readSigned (first :: rest) = none := by
  cases first with
  | digit d => simp [readSigned, readNat, readDigits_of_minus h]
  | plus => exact absurd rfl hplus
  | minus => exact absurd rfl hminus
  | space => rfl
  | underscore => rfl
  | junk => rfl

/-- No text of an identifier reads as an integer. -/
theorem readInt_text (uuid : Uuid) : readInt uuid.text = none := by
  have hspace : ∀ g ∈ uuid.text.toList.map glyph, g ≠ .space := by
    intro g hg
    rcases List.mem_map.mp hg with ⟨c, hc, rfl⟩
    rw [toList_text] at hc
    rcases mem_grouped hc with rfl | hmem
    · decide
    · rcases exists_digit hmem with ⟨n, hn, rfl⟩
      exact (digit_plain n hn).2.2.1
  rw [readInt, strip_eq_self hspace, toList_text]
  have hlength : (Hex.encode uuid.bytes).length = 32 := by
    rw [Hex.length_encode, uuid.length_eq]
  cases hdigits : Hex.encode uuid.bytes with
  | nil => simp [hdigits] at hlength
  | cons first rest =>
      have hmem : first ∈ Hex.encode uuid.bytes := by simp [hdigits]
      rcases exists_digit hmem with ⟨n, hn, rfl⟩
      have hgrouped : grouped (Hex.digit n :: rest) =
          Hex.digit n :: (rest.take 7 ++ '-' :: ((rest.drop 7).take 4 ++
            '-' :: ((rest.drop 11).take 4 ++ '-' :: ((rest.drop 15).take 4 ++
              '-' :: rest.drop 19)))) := rfl
      rw [hgrouped, List.map_cons]
      have hplain := digit_plain n hn
      refine readSigned_of_minus hplain.2.2.2.1 hplain.2.2.2.2 ?_
      exact List.mem_map.mpr ⟨'-', by simp, rfl⟩

end Uuid
