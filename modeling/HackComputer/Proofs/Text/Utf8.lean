import Mathlib.Data.List.Basic

/-!
# The bytes of a text

The UTF-8 form of a text as a list of bytes, character by character, and that
encoding and decoding of strings agree with it.
-/

namespace HackComputer.Text

/-- The bytes of a text in UTF-8. -/
def utf8 (chars : List Char) : List UInt8 :=
  chars.flatMap String.utf8EncodeChar

@[simp]
theorem utf8_append (first second : List Char) :
    utf8 (first ++ second) = utf8 first ++ utf8 second :=
  List.flatMap_append

private theorem toList_loop_eq (bytes : ByteArray) (index : Nat) (taken : List UInt8) :
    ByteArray.toList.loop bytes index taken =
      taken.reverse ++ bytes.data.toList.drop index := by
  fun_induction ByteArray.toList.loop bytes index taken with
  | case1 index taken inside inductionHypothesis =>
      have inside' : index < bytes.data.toList.length := inside
      have byte_eq : bytes.get! index = bytes.data.toList[index] := by
        simp [ByteArray.get!, inside]
      rw [inductionHypothesis, List.drop_eq_getElem_cons inside', byte_eq, List.reverse_cons,
        List.append_assoc, List.singleton_append]
  | case2 index taken outside =>
      have past : bytes.data.toList.length ≤ index := Nat.le_of_not_lt outside
      rw [List.drop_eq_nil_of_le past, List.append_nil]

theorem toList_eq_data_toList (bytes : ByteArray) : bytes.toList = bytes.data.toList := by
  rw [ByteArray.toList, toList_loop_eq, List.reverse_nil, List.nil_append, List.drop_zero]

/-- Encoding a string gives the bytes of its text. -/
theorem toList_toUTF8 (text : String) : text.toUTF8.toList = utf8 text.toList := by
  rw [toList_eq_data_toList, String.toUTF8, ← String.utf8Encode_toList]
  exact List.toList_data_toByteArray

/-- Decoding accepts exactly the bytes of a text. -/
theorem fromUTF8?_eq_some_iff {bytes : List UInt8} {text : String} :
    String.fromUTF8? bytes.toByteArray = some text ↔ bytes = utf8 text.toList := by
  have spelled : bytes.toByteArray = text.toByteArray ↔ bytes = utf8 text.toList := by
    rw [← String.utf8Encode_toList]
    exact List.toByteArray_inj
  rw [← spelled, String.fromUTF8?]
  constructor
  · intro decoded
    split at decoded
    · rw [← Option.some.inj decoded]
      rfl
    · contradiction
  · intro bytes_eq
    have valid : bytes.toByteArray.IsValidUTF8 := bytes_eq ▸ text.isValidUTF8
    rw [dif_pos valid]
    exact congrArg some (String.toByteArray_inj.1 bytes_eq)

end HackComputer.Text
