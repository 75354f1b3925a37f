import Mathlib.Data.List.Basic
import PrefixArith.Proofs.Token.Partition

/-!
# Bytes of a text

A text is written as the bytes of its characters in UTF-8, one character after the other, and is
decoded from them. Where bytes are no text, some of them are marked as foreign. A byte below 128
stands for a character by itself, so line ends can be looked for among the bytes as well as among the
characters.
-/

namespace PrefixArith

namespace Text

/-- The bytes of a text in UTF-8. -/
def encode (text : List Char) : List UInt8 :=
  text.flatMap String.utf8EncodeChar

@[simp]
theorem encode_append (left right : List Char) :
    encode (left ++ right) = encode left ++ encode right :=
  List.flatMap_append

/-- A text is decoded from its bytes. -/
theorem fromUTF8?_encode (text : List Char) :
    String.fromUTF8? ⟨(encode text).toArray⟩ = some (String.ofList text) := by
  have bytes : (⟨(encode text).toArray⟩ : ByteArray) = (String.ofList text).toByteArray := by
    rw [String.toByteArray_ofList, List.utf8Encode, ← encode]
    apply ByteArray.ext
    rw [List.data_toByteArray]
  unfold String.fromUTF8?
  rw [bytes, dif_pos (String.ofList text).isValidUTF8]
  rfl

/-- Bytes that are decoded are those of the text. -/
theorem encode_of_fromUTF8? {bytes : List UInt8} {text : String}
    (decoded : String.fromUTF8? ⟨bytes.toArray⟩ = some text) : encode text.toList = bytes := by
  unfold String.fromUTF8? at decoded
  split at decoded
  · next valid =>
      cases decoded
      have data := congrArg ByteArray.data
        (String.utf8Encode_toList (b := String.fromUTF8 ⟨bytes.toArray⟩ valid))
      rw [List.utf8Encode, ← encode, List.data_toByteArray] at data
      exact List.toArray_inj data
  · cases decoded

/-- A character is decoded from its bytes, whatever follows them. -/
theorem decode_utf8EncodeChar_append (character : Char) (rest : List UInt8) :
    decode (String.utf8EncodeChar character ++ rest) =
      ⟨character :: (decode rest).characters, (decode rest).foreign⟩ := by
  have size := String.length_utf8EncodeChar character
  obtain ⟨first, others, bytes⟩ : ∃ first others, String.utf8EncodeChar character =
      first :: others := List.exists_cons_of_length_pos (size ▸ character.utf8Size_pos)
  have decoded :
      ((first :: (others ++ rest)).take 4).toByteArray.utf8DecodeChar? 0 = some character := by
    rw [← List.cons_append, ← bytes, List.take_append,
      List.take_of_length_le (size ▸ character.utf8Size_le_four), List.toByteArray_append]
    exact ByteArray.utf8DecodeChar?_utf8EncodeChar_append
  have behind : (others ++ rest).drop (character.utf8Size - 1) = rest := by
    rw [bytes, List.length_cons] at size
    rw [← size, Nat.add_sub_cancel, List.drop_left]
  rw [bytes, List.cons_append, decode, decoded]
  dsimp only
  rw [behind]

/-- A text is decoded from its bytes, with no foreign bytes in it. -/
theorem decode_encode (text : List Char) : decode (encode text) = ⟨text, []⟩ := by
  induction text with
  | nil => rw [encode, List.flatMap_nil, decode]
  | cons character text ih =>
      rw [encode, List.flatMap_cons, decode_utf8EncodeChar_append, ← encode, ih]

/-- Bytes without foreign ones among them are those of the text that they are decoded to. -/
theorem encode_decode {bytes : List UInt8} (proper : (decode bytes).foreign = []) :
    encode (decode bytes).characters = bytes := by
  fun_induction decode bytes with
  | case1 => rfl
  | case2 first rest character decoded after ih =>
      have size := String.length_utf8EncodeChar character
      have start : String.utf8EncodeChar character <+: first :: rest := by
        have parts := ByteArray.eq_of_utf8DecodeChar?_eq_some decoded
        have lists := congrArg (·.data.toList) parts
        simp only [ByteArray.data_append, Array.toList_append, List.data_toByteArray] at lists
        exact (List.prefix_append _ _).trans (lists ▸ List.take_prefix 4 _)
      have behind : rest.drop (character.utf8Size - 1) = (first :: rest).drop character.utf8Size := by
        obtain ⟨before, sized⟩ := Nat.exists_eq_succ_of_ne_zero character.utf8Size_pos.ne'
        rw [sized, List.drop_succ_cons, Nat.succ_sub_one]
      have whole := List.prefix_iff_eq_append.mp start
      rw [encode, List.flatMap_cons, ← encode, ih proper, behind, ← size]
      exact whole
  | case3 first rest undecoded ih => cases proper

/-- Bytes are marked as foreign exactly where bytes are not the UTF-8 form of a text. -/
theorem foreign_decode_eq_nil_iff {bytes : List UInt8} :
    (decode bytes).foreign = [] ↔ ∃ text, encode text = bytes := by
  constructor
  · exact fun proper => ⟨_, encode_decode proper⟩
  · rintro ⟨text, rfl⟩
    rw [decode_encode]

/-- The bytes of a character that takes more than one are all at least 128. -/
theorem le_toNat_of_mem_utf8EncodeChar {character : Char} (large : 127 < character.val.toNat)
    {byte : UInt8} (member : byte ∈ String.utf8EncodeChar character) : 128 ≤ byte.toNat := by
  have mark (value : Nat) (high : 128 ≤ value % 256) : 128 ≤ (UInt8.ofNat value).toNat := by
    rwa [UInt8.toNat_ofNat']
  dsimp only [String.utf8EncodeChar] at member
  rw [if_neg (Nat.not_le.mpr large)] at member
  split_ifs at member with two three
  · rcases List.mem_pair.mp member with rfl | rfl
    · exact mark _ (by omega)
    · exact mark _ (by omega)
  · simp only [List.mem_cons, List.not_mem_nil, or_false] at member
    rcases member with rfl | rfl | rfl
    · exact mark _ (by omega)
    · exact mark _ (by omega)
    · exact mark _ (by omega)
  · simp only [List.mem_cons, List.not_mem_nil, or_false] at member
    rcases member with rfl | rfl | rfl | rfl
    · exact mark _ (by omega)
    · exact mark _ (by omega)
    · exact mark _ (by omega)
    · exact mark _ (by omega)

/-- A byte below 128 is the whole of a character, with the same number. -/
theorem toNat_of_mem_utf8EncodeChar {character : Char} {byte : UInt8}
    (member : byte ∈ String.utf8EncodeChar character) (small : byte.toNat < 128) :
    character.toNat = byte.toNat := by
  by_cases single : character.val.toNat ≤ 127
  · dsimp only [String.utf8EncodeChar] at member
    rw [if_pos single] at member
    rw [List.mem_singleton.mp member, UInt8.toNat_ofNat', Char.toNat]
    omega
  · have high := le_toNat_of_mem_utf8EncodeChar (Nat.not_le.mp single) member
    omega

end Text

end PrefixArith
