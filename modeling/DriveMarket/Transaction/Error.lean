import DriveMarket.Crypto.Scheme
import DriveMarket.ModelError
import DriveMarket.Table.Error
import DriveMarket.Transaction.Kind

/-
  Why a transaction cannot be built, written, read, signed or
  verified.

  Key definitions include:
    * `FormError`
    * `SettingsError`
    * `TransactionError`
    * `TransactionError.message`
-/

namespace DriveMarket

/-
  A table that is in order but spells no transaction, or a
  transaction that has no table.
-/
inductive FormError where
  | unknownKind (tag : UInt16)
  | unknownNetwork (byte : UInt8)
  | unsupportedVersion (version : Nat) (kind : TransactionKind)
  | notEmbeddable (form : AggregateForm)
  | functionNotText
  | resultByte (byte : UInt8)
  | noCosignatureField
  | shorterThanHeader
deriving DecidableEq

/- The wording of each form error. -/
def FormError.message : FormError → String
  | .unknownKind tag =>
      let digits := Nat.toDigits 16 tag.toNat
      "unknown transaction type 0x" ++
        String.ofList
          (List.replicate (4 - digits.length) '0' ++
            digits.map Char.toUpper)
  | .unknownNetwork byte => Network.unknownMessage byte
  | .unsupportedVersion version kind =>
      s!"unsupported version {version} for {kind.name}"
  | .notEmbeddable form =>
      s!"{form.name} cannot be embedded in an aggregate"
  | .functionNotText => "StartExecute function is not UTF-8"
  | .resultByte byte => s!"verification result byte {byte}"
  | .noCosignatureField =>
      "aggregate without cosignature field"
  | .shorterThanHeader => "table shorter than its header"

/- Settings under which no transaction can be valid. -/
inductive SettingsError where
  | zeroGenerationHash
  | zeroWindow
deriving DecidableEq

/- The wording of each settings error. -/
def SettingsError.message : SettingsError → String
  | .zeroGenerationHash =>
      "generation hash is the default zero value; " ++
        "set SM_GENERATION_HASH"
  | .zeroWindow => "deadline window must be positive"

/- The causes, by the part that refused. -/
inductive TransactionError where
  | table (cause : TableError)
  | form (cause : FormError)
  | model (cause : ModelError)
  | crypto (cause : CryptoError)
  | settings (cause : SettingsError)
deriving DecidableEq

/- The wording of each cause. -/
def TransactionError.message : TransactionError → String
  | .table cause => "Codec error: " ++ cause.message
  | .form cause =>
      "Codec error: Schema mismatch: " ++ cause.message
  | .model cause => "Model error: " ++ cause.message
  | .crypto cause => "Crypto error: " ++ cause.message
  | .settings cause =>
      "Invalid configuration: " ++ cause.message

/- The code of each cause. -/
def TransactionError.code : TransactionError → String
  | .table cause => "Codec." ++ cause.code
  | .form _ => "Codec.SchemaMismatch"
  | .model cause => "Model." ++ cause.code
  | .crypto cause => "Crypto." ++ cause.code
  | .settings _ => "InvalidConfig"

instance : Refusal TransactionError :=
  ⟨TransactionError.code, TransactionError.message⟩

end DriveMarket
