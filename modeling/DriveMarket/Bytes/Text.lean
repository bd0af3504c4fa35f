import DriveMarket.Bytes.Basic

/-
  Text as UTF-8 bytes.

  Key definitions include:
    * `Text.encode`
    * `Text.decode?`

  Correctness is proven by:
    * `Text.decode?_eq_some_iff`
-/

namespace DriveMarket

namespace Text

/- The bytes of a text. -/
def encode
    (text : String) : Bytes :=
  text.toUTF8.data.toList

/- The text of bytes, if they are well-formed. -/
def decode?
    (bytes : Bytes) : Option String :=
  String.fromUTF8? ⟨bytes.toArray⟩

/- A text is read from its own bytes and from no others. -/
theorem decode?_eq_some_iff
    {bytes : Bytes}
    {text : String} :
    decode? bytes = some text ↔ encode text = bytes := by
  constructor
  · intro h
    unfold decode? String.fromUTF8? at h
    split at h
    · cases h
      simp [encode, String.toUTF8, String.fromUTF8]
    · cases h
  · intro h
    subst h
    have hValid := text.isValidUTF8
    unfold decode? String.fromUTF8?
    split
    · rfl
    · rename_i hNot
      simp_all [encode]

end Text

end DriveMarket
