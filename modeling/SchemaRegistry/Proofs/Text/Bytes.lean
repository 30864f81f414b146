import SchemaRegistry.Text.Utf8

/-!
# The bytes of a text

Bytes are determined by their list (`toList_inj`), and the bytes of a text are read as the text
(`decodeLenient_toUTF8`). A character of seven bits is a byte of its own (`head?_toUTF8`).
-/

namespace SchemaRegistry

/-! ## Bytes as a list -/

/-- From position `i` on the bytes are read one by one. -/
theorem toList_loop_eq (bytes : ByteArray) (i : Nat) (read : List UInt8) :
    ByteArray.toList.loop bytes i read = read.reverse ++ bytes.data.toList.drop i := by
  have hsize : bytes.data.toList.length = bytes.size := Array.length_toList
  -- on the number of bytes that are still to be read
  induction h : bytes.size - i generalizing i read with
  | zero =>
    have hend : ¬ i < bytes.size := by omega
    have hnil : bytes.data.toList.drop i = [] := List.drop_of_length_le (by omega)
    rw [ByteArray.toList.loop, if_neg hend, hnil, List.append_nil]
  | succ n ih =>
    have hlt : i < bytes.size := by omega
    have hget : bytes.get! i = bytes.data.toList[i] := by
      simp [ByteArray.get!, hlt]
    rw [ByteArray.toList.loop, if_pos hlt, ih (i + 1) _ (by omega), List.reverse_cons,
      List.append_assoc, List.singleton_append, hget, ← List.drop_eq_getElem_cons]

theorem toList_eq_data (bytes : ByteArray) : bytes.toList = bytes.data.toList :=
  toList_loop_eq bytes 0 []

theorem toList_inj {bytes bytes' : ByteArray} (h : bytes.toList = bytes'.toList) :
    bytes = bytes' := by
  rw [toList_eq_data, toList_eq_data] at h
  exact ByteArray.ext (Array.toList_inj.1 h)

theorem toList_extract_zero (bytes : ByteArray) (count : Nat) :
    (bytes.extract 0 count).toList = bytes.toList.take count := by
  rw [toList_eq_data, toList_eq_data, ByteArray.data_extract, Array.toList_extract]
  simp

namespace Text

/-! ## Texts as bytes -/

theorem decodeLenient_toUTF8 (s : String) : decodeLenient s.toUTF8 = s := by
  simp [decodeLenient, String.fromUTF8?, String.isValidUTF8, String.fromUTF8]

theorem head?_toUTF8 {c : Char} (h : c.toNat < 128) (cs : List Char) :
    (String.ofList (c :: cs)).toUTF8.toList.head? = some (UInt8.ofNat c.toNat) := by
  have hbytes : (String.ofList (c :: cs)).toUTF8.toList =
      String.utf8EncodeChar c ++ cs.flatMap String.utf8EncodeChar := by
    rw [toList_eq_data, String.toUTF8_eq_toByteArray, String.toByteArray_ofList, List.utf8Encode,
      List.toList_data_toByteArray, List.flatMap_cons]
  have hchar : String.utf8EncodeChar c = [UInt8.ofNat c.toNat] := by
    have hval : c.val.toNat ≤ 127 := Nat.le_of_lt_succ h
    rw [String.utf8EncodeChar, if_pos hval]
    rfl
  rw [hbytes, hchar]
  rfl

end Text

end SchemaRegistry
