import AppendLog.Bytes

/-! Text as UTF-8.

Every text has one spelling in bytes and every valid spelling stands for one
text, so `ofBytes?` and `bytes` are inverse to each other.
-/

set_option autoImplicit false

namespace AppendLog.Text

def bytes (text : String) : Bytes := text.toUTF8.data.toList

def ofBytes? (bytes : Bytes) : Option String :=
  String.fromUTF8? ⟨bytes.toArray⟩

def utf8Length (chars : List Char) : Nat :=
  chars.foldr (fun char length => char.utf8Size + length) 0

theorem ofBytes?_bytes (text : String) : ofBytes? (bytes text) = some text := by
  simp only [ofBytes?, bytes, String.fromUTF8?]
  exact dif_pos text.isValidUTF8

theorem bytes_of_ofBytes? {spelling : Bytes} {text : String}
    (read : ofBytes? spelling = some text) : bytes text = spelling := by
  unfold ofBytes? String.fromUTF8? at read
  split at read
  · cases read
    simp [bytes, String.fromUTF8]
  · cases read

end AppendLog.Text
