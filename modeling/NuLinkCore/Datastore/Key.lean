import NuLinkCore.Lib.Numeral
import NuLinkCore.Network.Framing

/-!
# Storage keys of datastore records

A field of a record is stored under the UTF-8 text {lit}`Type:field:id`.  Ids that
read as integers are integers, whatever text they came in, so every key that the
datastore writes names one triple of type, field and canonical id.

Main results:

- Theorem {lit}`RecordId.text_injective`: canonical ids are determined by their text.
- Theorem {lit}`colon_not_mem_utf8`: the byte of the separator stands for the separator only.
- Theorem {lit}`storageKey_injective`: so are type, field and id by the storage key.
-/

namespace NuLink

open Collections Numerals

/-! ## Record ids -/

/-- A canonical record id: an integer, or a text that does not read as one. -/
inductive RecordId where
  | int (n : Int)
  | str (s : String) (notInt : readInt s = none)
deriving DecidableEq

/-- A record id as callers pass it. -/
inductive GivenId where
  | int (n : Int)
  | str (s : String)
deriving DecidableEq, Repr

namespace RecordId

/-- The integer that a text denotes, or else the text itself. -/
def ofText (s : String) : RecordId :=
  match h : readInt s with
  | some n => .int n
  | none => .str s h

/-- {lit}`str(record_id)`. -/
def text : RecordId → String
  | .int n => printInt n
  | .str s _ => s

theorem ofText_of_readInt {s : String} {n : Int} (h : readInt s = some n) :
    ofText s = .int n := by
  unfold ofText
  split
  · next m hm => simpa using hm.symm.trans h
  · next hm => simp [hm] at h

theorem ofText_of_not_readInt {s : String} (h : readInt s = none) : ofText s = .str s h := by
  unfold ofText
  split
  · next m hm => simp [hm] at h
  · rfl

/-- The text of a canonical id reads back as that id. -/
@[simp]
theorem ofText_text (id : RecordId) : ofText id.text = id := by
  cases id with
  | int n => exact ofText_of_readInt (readInt_printInt n)
  | str s h => exact ofText_of_not_readInt h

/-- Canonical ids are determined by their text. -/
theorem text_injective : Function.Injective text := by
  intro a b h
  rw [← ofText_text a, ← ofText_text b, h]

end RecordId

/-- {lit}`int(record_id)` where that succeeds, the given id otherwise. -/
def GivenId.canonical : GivenId → RecordId
  | .int n => .int n
  | .str s => .ofText s

/-! ## The separator -/

/-- Bytes of encodings of several bytes are not the separator. -/
theorem colon_ne_ofNat {n : Nat} (hle : 128 ≤ n) (hlt : n < 256) :
    (58 : UInt8) ≠ UInt8.ofNat n := by
  intro h
  have hnat := congrArg UInt8.toNat h
  rw [UInt8.toNat_ofNat_of_lt' (by simpa using hlt)] at hnat
  have h58 : (58 : UInt8).toNat = 58 := rfl
  omega

/-- The separator is not part of the encoding of another character. -/
theorem colon_not_mem_utf8EncodeChar {c : Char} (hc : c ≠ ':') :
    (58 : UInt8) ∉ String.utf8EncodeChar c := by
  have hval : c.val.toNat ≠ 58 := fun h => hc (Char.toNat_inj.mp h)
  unfold String.utf8EncodeChar
  simp only
  split
  · next hle =>
      intro hmem
      have hbyte := congrArg UInt8.toNat (List.mem_singleton.mp hmem)
      rw [UInt8.toNat_ofNat_of_lt' (by simpa using Nat.lt_of_le_of_lt hle (by norm_num))] at hbyte
      exact hval hbyte.symm
  · split
    · simp only [List.mem_cons, List.not_mem_nil, or_false, not_or]
      exact ⟨colon_ne_ofNat (by omega) (by omega), colon_ne_ofNat (by omega) (by omega)⟩
    · split
      · simp only [List.mem_cons, List.not_mem_nil, or_false, not_or]
        exact ⟨colon_ne_ofNat (by omega) (by omega), colon_ne_ofNat (by omega) (by omega),
          colon_ne_ofNat (by omega) (by omega)⟩
      · simp only [List.mem_cons, List.not_mem_nil, or_false, not_or]
        exact ⟨colon_ne_ofNat (by omega) (by omega), colon_ne_ofNat (by omega) (by omega),
          colon_ne_ofNat (by omega) (by omega), colon_ne_ofNat (by omega) (by omega)⟩

theorem utf8_eq_flatMap (s : String) : utf8 s = s.toList.flatMap String.utf8EncodeChar := by
  have h : s.toUTF8 = (s.toList.flatMap String.utf8EncodeChar).toByteArray :=
    String.utf8Encode_toList.symm
  rw [utf8, h]
  simp

/-- A text without the separator has no byte of it. -/
theorem colon_not_mem_utf8 {s : String} (h : ':' ∉ s.toList) : (58 : UInt8) ∉ utf8 s := by
  rw [utf8_eq_flatMap, List.mem_flatMap]
  rintro ⟨c, hc, hmem⟩
  exact colon_not_mem_utf8EncodeChar (fun hcolon => h (hcolon ▸ hc)) hmem

/-! ## Keys -/

theorem utf8_injective : Function.Injective utf8 := by
  intro a b h
  have hdecode := congrArg decodeUtf8 h
  simpa using hdecode

@[simp]
theorem utf8_append (a b : String) : utf8 (a ++ b) = utf8 a ++ utf8 b := by
  simp [utf8]

/-- {lit}`__storagekey.format(record_field=…, record_id=…).encode()`. -/
def storageKey (recordType recordField : String) (recordId : RecordId) : Bytes :=
  utf8 (recordType ++ ":" ++ recordField ++ ":" ++ recordId.text)

/-- Two lists that agree up to and including the first separator agree on both sides of it. -/
theorem append_cons_inj_of_not_mem {α : Type} {c : α} {a b x y : List α} (ha : c ∉ a) (hb : c ∉ b)
    (h : a ++ c :: x = b ++ c :: y) : a = b ∧ x = y := by
  induction a generalizing b with
  | nil =>
      cases b with
      | nil => simpa using h
      | cons d b =>
          simp only [List.nil_append, List.cons_append, List.cons.injEq] at h
          exact absurd (List.mem_cons.mpr (Or.inl h.1)) hb
  | cons d a ih =>
      cases b with
      | nil =>
          simp only [List.nil_append, List.cons_append, List.cons.injEq] at h
          exact absurd (List.mem_cons.mpr (Or.inl h.1.symm)) ha
      | cons e b =>
          simp only [List.cons_append, List.cons.injEq] at h
          rcases ih (fun hmem => ha (List.mem_cons_of_mem d hmem))
            (fun hmem => hb (List.mem_cons_of_mem e hmem)) h.2 with ⟨hab, hxy⟩
          exact ⟨by rw [h.1, hab], hxy⟩

/-- The storage key determines the type, the field and the id; only names must be free of
the separator. -/
theorem storageKey_injective {T T' f f' : String} {id id' : RecordId} (hT : ':' ∉ T.toList)
    (hT' : ':' ∉ T'.toList) (hf : ':' ∉ f.toList) (hf' : ':' ∉ f'.toList)
    (h : storageKey T f id = storageKey T' f' id') : T = T' ∧ f = f' ∧ id = id' := by
  have hchars := congrArg String.toList (utf8_injective h)
  have hcolon : (":" : String).toList = [':'] := rfl
  simp only [String.toList_append, hcolon, List.append_assoc, List.singleton_append] at hchars
  rcases append_cons_inj_of_not_mem hT hT' hchars with ⟨htype, hrest⟩
  rcases append_cons_inj_of_not_mem hf hf' hrest with ⟨hfield, hid⟩
  exact ⟨String.toList_inj.mp htype, String.toList_inj.mp hfield,
    RecordId.text_injective (String.toList_inj.mp hid)⟩

end NuLink
