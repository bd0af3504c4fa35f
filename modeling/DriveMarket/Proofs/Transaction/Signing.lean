import DriveMarket.Proofs.Table.Typing
import DriveMarket.Proofs.Transaction.SignedPart

/-
  Signing, announcing, verifying and hashing agree.

  The signature is made before it has a place in the bytes,
  and the bytes are written anew with it in place.  Another
  seal changes only the bytes where it stands: the rest of the
  table, its offsets and with them the signed part stay.  So
  the part that was signed is the part that is found in the
  signed transaction, and in what is read from its bytes.

  Key definitions include:
    * `Transaction.signedBy`
    * `SignatureScheme.byName`

  Correctness is proven by:
    * `Transaction.encodeTable_withSeal`
    * `Transaction.signedPart_withSeal`
    * `Transaction.exists_sign`
    * `Transaction.sign_withSeal`
    * `Transaction.sign_coherent`
-/

namespace DriveMarket

namespace Transaction

variable {tx : Transaction}

------------------------------------------------------------
-- Another Seal
------------------------------------------------------------

/- A front with its tail behind it is put behind its size. -/
theorem WritesFront.encodeTable_eq
    {values : List Value}
    {front later : Bytes}
    {offsets starts : List Nat}
    (hFront : tx.WritesFront values front offsets)
    (hTail :
      encodeFields tx.kind.name (Layout.tail tx.kind)
          (sizeWidth + front.length) tx.body.tailValues =
        .ok (later, starts)) :
    tx.encodeTable =
      (sealTable tx.kind.name
        (front ++ later, offsets ++ starts)).mapError
          .table := by
  have hFits := values_fit hFront.signed
  rw [encodeTable, Body.values_eq, hFront.signed, ok_bind]
  simp only [pure_bind]
  rw [encodeLayout, hFits.writeTable_eq,
    DriveMarket.encodeTable, Layout.ofKind_fields,
    ← List.append_assoc, hFront.fits.encodeFields_append]
  have hName : (Layout.ofKind tx.kind).name = tx.kind.name :=
    rfl
  rw [hName, hFront.encode, ok_bind, hTail, ok_bind]
  rfl

/- A front stays one when its seal is exchanged. -/
theorem WritesFront.withSeal
    {values : List Value}
    {part : Bytes}
    {offsets : List Nat}
    (hFront :
      tx.WritesFront values (tx.sealBytes ++ part) offsets)
    (signature : Signature)
    (signer : PublicKey) :
    (tx.withSeal signature signer).WritesFront values
      ((tx.withSeal signature signer).sealBytes ++ part)
      offsets := by
  refine ⟨hFront.signed, ?_⟩
  have hFields := hFront.encode
  rw [encodeFields_front, bind_eq_ok_iff] at hFields
  rcases hFields with ⟨⟨own, starts⟩, hPart, hPure⟩
  simp only [pure, Except.pure, Except.ok.injEq,
    Prod.mk.injEq] at hPure
  rcases hPure with ⟨hOwn, rfl⟩
  rw [List.append_right_inj] at hOwn
  subst hOwn
  rw [encodeFields_front, bind_eq_ok_iff]
  exact ⟨_, hPart, rfl⟩

/-
  A seal is put over another one: the bytes around it stay,
  and so do the offsets.
-/
theorem encodeTable_withSeal
    {table : EncodedTable}
    (hEncode : tx.encodeTable = .ok table)
    (signature : Signature)
    (signer : PublicKey) :
    (tx.withSeal signature signer).encodeTable =
      .ok {
        bytes :=
          table.bytes.take sizeWidth ++
            ((tx.withSeal signature signer).sealBytes ++
              table.bytes.drop signedStart)
        offsets := table.offsets } := by
  rcases exists_writesPart hEncode with
    ⟨values, part, offsets, later, starts, -, hFront, hTail,
      hEntity, hDrop, hOffsets⟩
  have hSealed := hFront.withSeal signature signer
  have hSeals :
      (tx.withSeal signature signer).sealBytes.length =
        tx.sealBytes.length :=
    Nat.add_right_cancel
      ((length_sealBytes _).trans (length_sealBytes _).symm)
  have hSize :
      ((tx.withSeal signature signer).sealBytes ++
          part).length =
        (tx.sealBytes ++ part).length := by
    rw [List.length_append, List.length_append, hSeals]
  have hLength :
      sizeWidth +
          ((tx.withSeal signature signer).sealBytes ++ part ++
            later).length =
        table.bytes.length := by
    rw [← hEntity.length_behind_size, hDrop,
      List.length_append, hSize, ← List.length_append]
  rw [List.append_assoc] at hDrop
  rw [← hSize] at hTail
  rw [hSealed.encodeTable_eq hTail, mapError_eq_ok_iff,
    sealTable_eq_ok_iff, hLength, hEntity.take_size,
    tx.drop_signedStart hDrop, List.append_assoc]
  exact ⟨hEntity.length_lt, rfl, hOffsets⟩

section Encoded

variable (hEncode : ∃ bytes, tx.encode = .ok bytes)

include hEncode

/- What is written is written under any seal. -/
theorem encode_withSeal
    (signature : Signature)
    (signer : PublicKey) :
    ∃ bytes,
      (tx.withSeal signature signer).encode = .ok bytes := by
  rcases exists_encodeTable hEncode with ⟨table, hTable⟩
  rw [encode, encodeTable_withSeal hTable signature signer]
  exact ⟨_, rfl⟩

/- The signed part is the same under any seal. -/
theorem signedPart_withSeal
    (signature : Signature)
    (signer : PublicKey) :
    (tx.withSeal signature signer).signedPart =
      tx.signedPart :=
  (signedPart_eq_iff
    (encode_withSeal hEncode signature signer) hEncode).mpr
    (sameContent_withSeal signature signer tx)

theorem exists_signedPart :
    ∃ part, tx.signedPart = .ok part := by
  rcases exists_encodeTable hEncode with ⟨table, hTable⟩
  rcases signedPart_of_encodeTable hTable with
    ⟨part, -, hPart⟩
  exact ⟨part, hPart⟩

end Encoded

------------------------------------------------------------
-- Signing
------------------------------------------------------------

variable {scheme : SignatureScheme}
variable {seed : Seed}
variable {generationHash : Digest}

/- The transaction under the seal of a seed. -/
def signedBy
    (scheme : SignatureScheme)
    (seed : Seed)
    (generationHash : Digest)
    (part : Bytes)
    (tx : Transaction) : Transaction :=
  tx.withSeal
    (scheme.sign seed (signedMessage generationHash part))
    (scheme.publicKey seed)

/-
  What is written is signed: as it is, under the seal of the
  part that it had before.
-/
theorem exists_sign
    {part : Bytes}
    (scheme : SignatureScheme)
    (seed : Seed)
    (generationHash : Digest)
    (hEncode : ∃ bytes, tx.encode = .ok bytes)
    (hPart : tx.signedPart = .ok part) :
    ∃ payload,
      (tx.signedBy scheme seed generationHash part).encode =
          .ok payload ∧
        tx.sign scheme seed generationHash =
          .ok {
            transaction :=
              tx.signedBy scheme seed generationHash part
            payload := payload
            hash :=
              transactionHash
                (scheme.sign seed
                  (signedMessage generationHash part))
                (scheme.publicKey seed) generationHash
                part } := by
  have hSigner :=
    signedPart_withSeal hEncode tx.header.signature
      (scheme.publicKey seed)
  rcases encode_withSeal hEncode
      (scheme.sign seed (signedMessage generationHash part))
      (scheme.publicKey seed) with
    ⟨payload, hPayload⟩
  refine ⟨payload, hPayload, ?_⟩
  unfold withSeal at hSigner
  rw [sign, hSigner, hPart, ok_bind]
  exact bind_eq_ok_iff.mpr ⟨payload, hPayload, rfl⟩

/- Signing puts aside the seal that there was. -/
theorem sign_withSeal
    (scheme : SignatureScheme)
    (seed : Seed)
    (generationHash : Digest)
    (hEncode : ∃ bytes, tx.encode = .ok bytes)
    (signature : Signature)
    (signer : PublicKey) :
    (tx.withSeal signature signer).sign scheme seed
        generationHash =
      tx.sign scheme seed generationHash := by
  rcases exists_signedPart hEncode with ⟨part, hPart⟩
  have hSealed := encode_withSeal hEncode signature signer
  have hSame := signedPart_withSeal hEncode signature signer
  rw [hPart] at hSame
  rcases exists_sign scheme seed generationHash hEncode
      hPart with
    ⟨payload, hPayload, hSign⟩
  rcases exists_sign scheme seed generationHash hSealed
      hSame with
    ⟨again, hAgain, hSignAgain⟩
  have hPayloads : payload = again :=
    Except.ok.inj (hPayload.symm.trans hAgain)
  rw [hSign, hSignAgain, hPayloads]
  rfl

/-
  A transaction that is written is signed by any seed for any
  network: only its signature and signer are exchanged.  What
  is read from the bytes to announce is the signed
  transaction.  Its signature is accepted, its hash is the one
  that signing reported, and signing it once more changes
  nothing.
-/
theorem sign_coherent
    (scheme : SignatureScheme)
    (seed : Seed)
    (generationHash : Digest)
    (tx : Transaction)
    (hEncode : ∃ bytes, tx.encode = .ok bytes) :
    ∃ signed decoded,
      tx.sign scheme seed generationHash = .ok signed ∧
      signed.transaction =
        { tx with
          header := { tx.header with
            signature := signed.transaction.header.signature
            signer := scheme.publicKey seed } } ∧
      decode signed.payload = .ok decoded ∧
      decoded = signed.transaction ∧
      (scheme.AcceptsOwn →
        decoded.verify scheme generationHash = .ok ()) ∧
      decoded.hash generationHash = .ok signed.hash ∧
      decoded.sign scheme seed generationHash =
        .ok signed := by
  rcases exists_signedPart hEncode with ⟨part, hPart⟩
  rcases exists_sign scheme seed generationHash hEncode
      hPart with
    ⟨payload, hPayload, hSign⟩
  have hSigned :
      (tx.signedBy scheme seed generationHash part).signedPart =
        .ok part :=
    (signedPart_withSeal hEncode _ _).trans hPart
  refine ⟨_, _, hSign, rfl, decode_of_encode hPayload, rfl,
    ?_, ?_, ?_⟩
  · intro hAccepts
    rw [verify, hSigned, ok_bind]
    exact mapError_eq_ok_iff.mpr (hAccepts _ _)
  · rw [hash, hSigned]
    rfl
  · rw [← hSign]
    exact sign_withSeal scheme seed generationHash hEncode _ _

end Transaction

------------------------------------------------------------
-- Signing by Name
------------------------------------------------------------

namespace SignatureScheme

/-
  A scheme whose signatures show the signer's key and the
  length of the message, and which accepts nothing else.
-/
def byName : SignatureScheme :=
  { publicKey := fun seed => seed
    sign := fun seed message =>
      ⟨seed.toList ++ LittleEndian.encode 32 message.length,
        by simp [seed.length_toList]⟩
    verify := fun key message signature =>
      if signature.toList =
          key.toList ++
            LittleEndian.encode 32 message.length then
        .ok ()
      else
        .error .verificationFailed }

theorem byName_acceptsOwn : byName.AcceptsOwn := by
  intro seed message
  exact if_pos rfl

end SignatureScheme

namespace Transaction

open SignatureScheme (byName)

/-
  An aggregate with a cosignature and a signature that is not
  its own is signed anew.
-/
theorem sign_coherent_cosigned :
    let seed : Seed := .zero 32
    let cosigned : Transaction := {
      header := {
        signature :=
          ⟨List.replicate 64 7, List.length_replicate⟩
        signer := ⟨List.replicate 32 7, List.length_replicate⟩
        network := .mijinTest
        maxFee := ⟨5⟩
        deadline := ⟨1000⟩ }
      body := .aggregate .bonded {
        transactions :=
          [⟨.zero 32, .mijinTest,
            .operation (.driveClosure ⟨.zero 32⟩)⟩]
        cosignatures := [⟨.zero 32, .zero 64⟩] } }
    (∃ bytes, cosigned.encode = .ok bytes) ∧
    ∃ signed,
      cosigned.sign byName seed (.zero 32) = .ok signed ∧
      decode signed.payload = .ok signed.transaction ∧
      signed.transaction.body = cosigned.body ∧
      signed.transaction.verify byName (.zero 32) =
        .ok () ∧
      signed.transaction.sign byName seed (.zero 32) =
        .ok signed := by
  intro seed cosigned
  have hEncode : ∃ bytes, cosigned.encode = .ok bytes :=
    exists_eq_ok (by decide +kernel)
  refine ⟨hEncode, ?_⟩
  rcases sign_coherent byName seed (.zero 32) cosigned
      hEncode with
    ⟨signed, _, hSign, hOnly, hDecode, rfl, hVerify, -,
      hAgain⟩
  refine ⟨signed, hSign, hDecode, ?_, ?_, hAgain⟩
  · rw [hOnly]
  · exact hVerify SignatureScheme.byName_acceptsOwn

end Transaction

end DriveMarket
