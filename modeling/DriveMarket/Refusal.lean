/-
  Refusals: errors that are told to people in words, and to
  programs by a short code.

  The code of an error that wraps the error of a part is the
  name of the part, a dot, and the part's own code.

  Key definitions include:
    * `Refusal`
-/

namespace DriveMarket

/- Errors that have a code and a wording. -/
class Refusal (ε : Type) where
  code : ε → String
  message : ε → String

end DriveMarket
