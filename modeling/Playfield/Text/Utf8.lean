/-
  Playfield.Text.Utf8 — text as UTF-8 bytes.

  Bytes are well formed exactly when they are the bytes of some text, so overlong forms,
  surrogates, values beyond U+10FFFF and cut sequences are all refused.
-/

namespace Playfield.Text

def utf8 (s : String) : List UInt8 :=
  s.toByteArray.data.toList

/-- The text that some bytes are. -/
def ofUtf8? (bytes : List UInt8) : Option String :=
  String.fromUTF8? ⟨bytes.toArray⟩

end Playfield.Text
