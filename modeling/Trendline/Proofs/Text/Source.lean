import Mathlib.Tactic.Common
import Trendline.Text.Source

/-!
The bytes of a text read back as its characters: none of them is malformed.
-/

namespace Trendline.Text.Source

theorem utf8DecodeChar?_append (front : ByteArray) (c : Char) (cs : List Char) :
    (front ++ (c :: cs).utf8Encode).utf8DecodeChar? front.size = some c := by
  rw [ByteArray.utf8DecodeChar?_eq_utf8DecodeChar?_extract,
    ByteArray.extract_append_eq_right rfl ByteArray.size_append,
    List.utf8DecodeChar?_utf8Encode_cons]

/-- Reading on behind some bytes takes the characters that are left in order. -/
theorem readFrom_append (front : ByteArray) (cs : List Char) (before : Source) :
    readFrom (front ++ cs.utf8Encode) front.size before = before.reverse ++ cs.map some := by
  induction cs generalizing front before with
  | nil =>
      rw [readFrom, if_neg (by simp)]
      simp
  | cons c cs ih =>
      have size : [c].utf8Encode.size = c.utf8Size := by
        rw [List.utf8Encode_singleton, List.size_toByteArray, String.length_utf8EncodeChar]
      have inside : front.size < (front ++ (c :: cs).utf8Encode).size := by
        have := c.utf8Size_pos
        rw [List.utf8Encode_cons, ByteArray.size_append, ByteArray.size_append, size]
        omega
      have next := ih (front ++ [c].utf8Encode) (some c :: before)
      rw [readFrom, if_pos inside, utf8DecodeChar?_append]
      rw [ByteArray.append_assoc, ← List.utf8Encode_cons, ByteArray.size_append, size] at next
      simpa using next

@[simp]
theorem ofBytes_toByteArray (s : String) : ofBytes s.toByteArray = ofString s := by
  have read := readFrom_append .empty s.toList []
  rw [ByteArray.empty_append, String.utf8Encode_toList] at read
  exact read

end Trendline.Text.Source
