import DriveMarket.Proofs.Table.Offsets
import DriveMarket.Proofs.Transaction.RoundTrip
import DriveMarket.Transaction.Signing

/-
  The signed part of a transaction stands for its content.

  Signature and signer come first in the front of a table, and
  the signed part is what the front has behind them.  Putting
  the signature and signer of one transaction in front of the
  signed part of another gives a front of the other, which is
  read as the other.  So what is read from a signed part does
  not depend on who wrote it.

  Key definitions include:
    * `Transaction.WritesPart`
    * `Transaction.SameContent`

  Correctness is proven by:
    * `Layout.version_at_signedStart`
    * `Transaction.exists_writesPart`
    * `Transaction.SameContent.writesPart`
    * `Transaction.WritesPart.sameContent`
    * `Transaction.signedPart_binds_content`
-/

namespace DriveMarket

namespace Layout

/- The signed fields of a transaction, header first. -/
def signedFields
    (kind : TransactionKind) : List Field :=
  headerFields.drop 2 ++ signedBody kind

/-
  The first of them is the version, and it starts at one place
  in every table that is written or accepted.
-/
theorem version_at_signedStart
    (kind : TransactionKind) :
    (∀ encoded,
      (ofKind kind).Writes encoded →
      encoded.offsets[HeaderSlot.version]? =
        some signedStart) ∧
    ∀ buffer table,
      readTable (ofKind kind) buffer = .ok table →
      table.isPresent HeaderSlot.version →
      table.offset? HeaderSlot.version = some signedStart := by
  have hFixed := fixedOffset_version kind
  constructor
  · intro encoded hWrites
    exact hWrites.getElem?_offsets hFixed
  · intro buffer table hRead hPresent
    exact offset?_of_readTable hRead hFixed hPresent

end Layout

namespace Transaction

------------------------------------------------------------
-- Fronts and Parts
------------------------------------------------------------

/- These bytes are written for the signed fields. -/
def WritesPart
    (tx : Transaction)
    (part : Bytes) : Prop :=
  ∃ values starts,
    tx.body.signedValues = .ok values ∧
    encodeFields tx.kind.name (Layout.signedFields tx.kind)
        signedStart (tx.headerValues.drop 2 ++ values) =
      .ok (part, starts)

/- Signature and signer as they stand in front of a part. -/
def sealBytes
    (tx : Transaction) : Bytes :=
  tx.header.signature.toList ++ tx.header.signer.toList

theorem length_sealBytes
    (tx : Transaction) :
    tx.sealBytes.length + sizeWidth = signedStart := by
  rw [sealBytes, List.length_append,
    tx.header.signature.length_toList,
    tx.header.signer.length_toList]
  rfl

/- Signature and signer are written as they are. -/
theorem encodeFields_seal
    (tx : Transaction)
    (name : String) :
    encodeFields name (Layout.headerFields.take 2) sizeWidth
        (tx.headerValues.take 2) =
      .ok (tx.sealBytes, [4, 68]) := by
  have hSignature := tx.header.signature.length_toList
  have hFirst :
      encodeFields name (Layout.headerFields.take 2) sizeWidth
          (tx.headerValues.take 2) =
        .ok (tx.header.signature.toList ++
            (tx.header.signer.toList ++ []),
          [4, 4 + tx.header.signature.toList.length]) :=
    rfl
  rw [hFirst, hSignature, List.append_nil]
  rfl

/- The front is the seal with the signed fields behind it. -/
theorem encodeFields_front
    (tx : Transaction)
    (values : List Value) :
    encodeFields tx.kind.name
        (Layout.headerFields ++ Layout.signedBody tx.kind)
        sizeWidth (tx.headerValues ++ values) = (do
      let part ←
        encodeFields tx.kind.name (Layout.signedFields tx.kind)
          signedStart (tx.headerValues.drop 2 ++ values)
      return (tx.sealBytes ++ part.1, [4, 68] ++ part.2)) := by
  have hSeal :
      RowFits (Layout.headerFields.take 2)
        (tx.headerValues.take 2) :=
    .cons tx.header.signature.field_fits
      (.cons tx.header.signer.field_fits .nil)
  have hAppend :=
    @RowFits.encodeFields_append _
      (Layout.signedFields tx.kind) _
      (tx.headerValues.drop 2 ++ values)
      tx.kind.name sizeWidth hSeal
  rw [encodeFields_seal, ok_bind, Nat.add_comm sizeWidth,
    length_sealBytes] at hAppend
  exact hAppend

variable {tx : Transaction}

/- A front has its signed part behind signature and signer. -/
theorem WritesFront.exists_part
    {values : List Value}
    {front : Bytes}
    {offsets : List Nat}
    (hFront : tx.WritesFront values front offsets) :
    ∃ part,
      tx.WritesPart part ∧ front = tx.sealBytes ++ part := by
  have hFields := hFront.encode
  rw [encodeFields_front, bind_eq_ok_iff] at hFields
  rcases hFields with ⟨⟨part, starts⟩, hPart, hPure⟩
  cases hPure
  exact ⟨part, ⟨values, starts, hFront.signed, hPart⟩, rfl⟩

/- A signed part makes a front with any seal. -/
theorem WritesPart.exists_front
    {part : Bytes}
    (hPart : tx.WritesPart part) :
    ∃ values offsets,
      tx.WritesFront values (tx.sealBytes ++ part)
        offsets := by
  rcases hPart with ⟨values, starts, hSigned, hFields⟩
  refine ⟨values, [4, 68] ++ starts, hSigned, ?_⟩
  rw [encodeFields_front, hFields]
  rfl

/- A transaction is written as its seal, part and tail. -/
theorem exists_writesPart
    {table : EncodedTable}
    (hEncode : tx.encodeTable = .ok table) :
    ∃ values part offsets later starts,
      tx.WritesPart part ∧
      tx.WritesFront values (tx.sealBytes ++ part) offsets ∧
      encodeFields tx.kind.name (Layout.tail tx.kind)
          (sizeWidth + (tx.sealBytes ++ part).length)
          tx.body.tailValues =
        .ok (later, starts) ∧
      table.bytes.IsEntity ∧
      table.bytes.drop sizeWidth =
        tx.sealBytes ++ part ++ later ∧
      table.offsets = offsets ++ starts := by
  rcases exists_writesFront hEncode with
    ⟨values, front, offsets, later, starts, hFront, hRest⟩
  rcases hFront.exists_part with ⟨part, hPart, rfl⟩
  exact ⟨values, part, offsets, later, starts, hPart, hFront,
    hRest⟩

/- No transaction has two signed parts. -/
theorem WritesPart.unique
    {part other : Bytes}
    (hPart : tx.WritesPart part)
    (hOther : tx.WritesPart other) :
    part = other := by
  rcases hPart with ⟨values, starts, hSigned, hFields⟩
  rcases hOther with ⟨values', starts', hSigned', hFields'⟩
  rw [hSigned] at hSigned'
  cases hSigned'
  rw [hFields] at hFields'
  cases hFields'
  rfl

------------------------------------------------------------
-- Content
------------------------------------------------------------

/-
  Two transactions ask for the same, whoever signs or cosigns
  them.
-/
structure SameContent (a b : Transaction) : Prop where
  network : a.header.network = b.header.network
  maxFee : a.header.maxFee = b.header.maxFee
  deadline : a.header.deadline = b.header.deadline
  body :
    a.body.withCosignatures [] = b.body.withCosignatures []

end Transaction

namespace Body

theorem kind_withCosignatures
    (cosignatures : List Cosignature)
    (body : Body) :
    (body.withCosignatures cosignatures).kind = body.kind := by
  cases body <;> rfl

theorem signedValues_withCosignatures
    (cosignatures : List Cosignature)
    (body : Body) :
    (body.withCosignatures cosignatures).signedValues =
      body.signedValues := by
  cases body <;> rfl

theorem withCosignatures_twice
    (first second : List Cosignature)
    (body : Body) :
    (body.withCosignatures first).withCosignatures second =
      body.withCosignatures second := by
  cases body <;> rfl

end Body

namespace Transaction

namespace SameContent

variable {a b c : Transaction}

theorem symm
    (hSame : SameContent a b) : SameContent b a :=
  ⟨hSame.network.symm, hSame.maxFee.symm,
    hSame.deadline.symm, hSame.body.symm⟩

theorem trans
    (hSame : SameContent a b)
    (hNext : SameContent b c) : SameContent a c :=
  ⟨hSame.network.trans hNext.network,
    hSame.maxFee.trans hNext.maxFee,
    hSame.deadline.trans hNext.deadline,
    hSame.body.trans hNext.body⟩

theorem kind_eq
    (hSame : SameContent a b) : a.kind = b.kind := by
  have hKind := congrArg Body.kind hSame.body
  rw [Body.kind_withCosignatures,
    Body.kind_withCosignatures] at hKind
  exact hKind

/- The same content has the same signed part. -/
theorem writesPart
    {part : Bytes}
    (hSame : SameContent a b)
    (hPart : a.WritesPart part) :
    b.WritesPart part := by
  rcases hPart with ⟨values, starts, hSigned, hFields⟩
  have hKind := hSame.kind_eq
  have hBody := congrArg Body.signedValues hSame.body
  rw [Body.signedValues_withCosignatures,
    Body.signedValues_withCosignatures] at hBody
  have hHeader :
      a.headerValues.drop 2 = b.headerValues.drop 2 := by
    simp only [headerValues, versionWord, List.drop, hKind,
      hSame.network, hSame.maxFee, hSame.deadline]
  refine ⟨values, starts, ?_, ?_⟩
  · rw [← hBody]
    exact hSigned
  · rw [← hKind, ← hHeader]
    exact hFields

end SameContent

variable {tx : Transaction}

theorem sameContent_withCosignatures
    (cosignatures : List Cosignature)
    (tx : Transaction) :
    SameContent (tx.withCosignatures cosignatures) tx :=
  ⟨rfl, rfl, rfl, Body.withCosignatures_twice _ _ _⟩

/- The transaction under another signature and signer. -/
def withSeal
    (signature : Signature)
    (signer : PublicKey)
    (tx : Transaction) : Transaction :=
  { tx with
    header := { tx.header with
      signature := signature
      signer := signer } }

theorem sameContent_withSeal
    (signature : Signature)
    (signer : PublicKey)
    (tx : Transaction) :
    SameContent (tx.withSeal signature signer) tx :=
  ⟨rfl, rfl, rfl, rfl⟩

/-
  What is read from a buffer with the signed part of some
  transaction in its place has that transaction's content.
-/
theorem WritesPart.sameContent_of_decode
    {other : Transaction}
    {buffer part rest : Bytes}
    {signature : Signature}
    {signer : PublicKey}
    (hPart : other.WritesPart part)
    (hEntity : buffer.IsEntity)
    (hBuffer :
      buffer.drop sizeWidth =
        signature.toList ++ signer.toList ++ part ++ rest)
    (hDecode : decode buffer = .ok tx) :
    SameContent tx other := by
  have hSealed := sameContent_withSeal signature signer other
  rcases (hSealed.symm.writesPart hPart).exists_front with
    ⟨values, offsets, hFront⟩
  rw [hFront.decode_eq hEntity hBuffer] at hDecode
  simp only [bind_eq_ok_iff] at hDecode
  rcases hDecode with ⟨later, -, cosignatures, -, hPure⟩
  cases hPure
  exact (sameContent_withCosignatures _ _).trans hSealed

/- The same signed part has the same content. -/
theorem WritesPart.sameContent
    {other : Transaction}
    {part : Bytes}
    {table : EncodedTable}
    (hPart : tx.WritesPart part)
    (hOther : other.WritesPart part)
    (hEncode : tx.encodeTable = .ok table) :
    SameContent tx other := by
  have hDecode := decode_of_encodeTable hEncode
  rcases exists_writesPart hEncode with
    ⟨values, own, offsets, later, starts, hOwn, hFront, -,
      hEntity, hDrop, -⟩
  rw [hOwn.unique hPart] at hDrop
  exact hOther.sameContent_of_decode hEntity hDrop hDecode

------------------------------------------------------------
-- The Signed Part
------------------------------------------------------------

/- The cosignatures of an aggregate come right after it. -/
theorem WritesFront.length_offsets
    {form : AggregateForm}
    {content : Aggregate}
    {values : List Value}
    {front : Bytes}
    {offsets : List Nat}
    (hFront : tx.WritesFront values front offsets)
    (hBody : tx.body = .aggregate form content) :
    offsets.length = Layout.cosignatureSlot := by
  have hLength := hFront.fits.length_offsets hFront.encode
  rw [hFront.fits.length_eq, kind, hBody] at hLength
  exact hLength

theorem starts_eq
    {form : AggregateForm}
    {content : Aggregate}
    {offset : Nat}
    {later : Bytes}
    {starts : List Nat}
    (hBody : tx.body = .aggregate form content)
    (hTail :
      encodeFields tx.kind.name (Layout.tail tx.kind) offset
          tx.body.tailValues =
        .ok (later, starts)) :
    starts = [offset] := by
  rw [kind, hBody, Body.tailValues, Body.kind, Layout.tail,
    encodeFields_cons_eq_ok_iff] at hTail
  rcases hTail with ⟨first, rest, others, -, hRest, -, rfl⟩
  cases hRest
  rfl

/- The signed part of a table ends where its front does. -/
theorem signedEnd_eq
    {table : EncodedTable}
    {values : List Value}
    {front later : Bytes}
    {offsets starts : List Nat}
    (hFront : tx.WritesFront values front offsets)
    (hTail :
      encodeFields tx.kind.name (Layout.tail tx.kind)
          (sizeWidth + front.length) tx.body.tailValues =
        .ok (later, starts))
    (hLong : sizeWidth ≤ table.bytes.length)
    (hDrop : table.bytes.drop sizeWidth = front ++ later)
    (hOffsets : table.offsets = offsets ++ starts) :
    table.signedEnd tx.kind =
      .ok (sizeWidth + front.length) := by
  cases hBody : tx.body with
  | operation content =>
      have hSize := congrArg List.length hDrop
      rw [kind, hBody] at hTail
      cases hTail
      rw [List.length_drop, List.append_nil] at hSize
      have hWhole :
          table.bytes.length = sizeWidth + front.length := by
        omega
      rw [← hWhole, kind, hBody]
      rfl
  | aggregate form content =>
      have hSlots := hFront.length_offsets hBody
      have hSlot :
          table.offsets[Layout.cosignatureSlot]? =
            some (sizeWidth + front.length) := by
        rw [hOffsets, List.getElem?_append_right
          (Nat.le_of_eq hSlots), hSlots,
          starts_eq hBody hTail]
        rfl
      rw [kind, hBody, Body.kind, EncodedTable.signedEnd,
        hSlot]

/- What stands behind the seal of a transaction. -/
theorem drop_signedStart
    {buffer rest : Bytes}
    (tx : Transaction)
    (hBuffer :
      buffer.drop sizeWidth = tx.sealBytes ++ rest) :
    buffer.drop signedStart = rest := by
  rw [← tx.length_sealBytes, Nat.add_comm, ← List.drop_drop,
    hBuffer, List.drop_left]

/- The part behind a seal is cut out of a buffer. -/
theorem cut_part
    {buffer part rest : Bytes}
    (tx : Transaction)
    (hBuffer :
      buffer.drop sizeWidth = tx.sealBytes ++ (part ++ rest)) :
    (buffer.take
        (sizeWidth + (tx.sealBytes ++ part).length)).drop
        signedStart =
      part := by
  have hSeal := tx.length_sealBytes
  have hBehind := tx.drop_signedStart hBuffer
  have hCount :
      sizeWidth + (tx.sealBytes ++ part).length -
          signedStart =
        part.length := by
    rw [List.length_append]
    omega
  rw [List.drop_take, hBehind, hCount, List.take_left]

/- The signed part of a written table is cut out of it. -/
theorem signedPart_of_encodeTable
    {table : EncodedTable}
    (hEncode : tx.encodeTable = .ok table) :
    ∃ part,
      tx.WritesPart part ∧ tx.signedPart = .ok part := by
  rcases exists_writesPart hEncode with
    ⟨values, part, offsets, later, starts, hPart, hFront,
      hTail, hEntity, hDrop, hOffsets⟩
  have hEnd :=
    signedEnd_eq hFront hTail hEntity.1 hDrop hOffsets
  refine ⟨part, hPart, ?_⟩
  have hSeal := tx.length_sealBytes
  have hLong := hEntity.1
  have hSize := congrArg List.length hDrop
  rw [List.length_drop, List.length_append,
    List.length_append] at hSize
  have hBounds :
      signedStart ≤
          sizeWidth + (tx.sealBytes ++ part).length ∧
        sizeWidth + (tx.sealBytes ++ part).length ≤
          table.bytes.length := by
    rw [List.length_append]
    omega
  rw [List.append_assoc] at hDrop
  rw [signedPart, hEncode, ok_bind, EncodedTable.signedPart,
    hEnd, ok_bind, if_pos hBounds, cut_part tx hDrop]
  rfl

/- What is written as bytes is written as a table. -/
theorem exists_encodeTable
    (hEncode : ∃ bytes, tx.encode = .ok bytes) :
    ∃ table, tx.encodeTable = .ok table := by
  rcases hEncode with ⟨bytes, hBytes⟩
  rw [encode, bind_eq_ok_iff] at hBytes
  rcases hBytes with ⟨table, hTable, -⟩
  exact ⟨table, hTable⟩

/- The signed parts of two transactions tell them apart. -/
theorem signedPart_eq_iff
    {a b : Transaction}
    (hA : ∃ bytes, a.encode = .ok bytes)
    (hB : ∃ bytes, b.encode = .ok bytes) :
    a.signedPart = b.signedPart ↔ SameContent a b := by
  rcases exists_encodeTable hA with ⟨tableA, hTableA⟩
  rcases exists_encodeTable hB with ⟨tableB, hTableB⟩
  rcases signedPart_of_encodeTable hTableA with
    ⟨partA, hWritesA, hPartA⟩
  rcases signedPart_of_encodeTable hTableB with
    ⟨partB, hWritesB, hPartB⟩
  rw [hPartA, hPartB, Except.ok.injEq]
  constructor
  · intro hEqual
    subst hEqual
    exact hWritesA.sameContent hWritesB hTableA
  · intro hSame
    exact (hSame.writesPart hWritesA).unique hWritesB

------------------------------------------------------------
-- Adding Cosignatures
------------------------------------------------------------

section Cosigned

variable {cosignatures : List Cosignature}

/- Cosignatures have no part in what is signed. -/
theorem signedPart_withCosignatures
    (hBare : ∃ bytes, tx.encode = .ok bytes)
    (hCosigned :
      ∃ bytes,
        (tx.withCosignatures cosignatures).encode =
          .ok bytes) :
    (tx.withCosignatures cosignatures).signedPart =
      tx.signedPart := by
  apply (signedPart_eq_iff hCosigned hBare).mpr
  exact sameContent_withCosignatures cosignatures tx

/- With the same signed part, the signature stays valid. -/
theorem verify_withCosignatures
    (scheme : SignatureScheme)
    (generationHash : Digest)
    (hPart :
      (tx.withCosignatures cosignatures).signedPart =
        tx.signedPart) :
    (tx.withCosignatures cosignatures).verify scheme
        generationHash =
      tx.verify scheme generationHash := by
  unfold verify
  rw [hPart]
  rfl

/- And the hash stays the same. -/
theorem hash_withCosignatures
    (generationHash : Digest)
    (hPart :
      (tx.withCosignatures cosignatures).signedPart =
        tx.signedPart) :
    (tx.withCosignatures cosignatures).hash generationHash =
      tx.hash generationHash := by
  unfold hash
  rw [hPart]
  rfl

/-
  If a transaction is written, only a length can keep it from
  being written with cosignatures: aggregates inside would
  have been found before.
-/
theorem encode_withCosignatures_error
    {cause : TransactionError}
    (hBare : ∃ bytes, tx.encode = .ok bytes)
    (hError :
      (tx.withCosignatures cosignatures).encode =
        .error cause) :
    cause.IsOverflow
      (tx.withCosignatures cosignatures).lengths := by
  rcases encode_error hError with
    ⟨form, content, inner, innerForm, innerContent, hBody,
      hMem, hInner, -⟩ | hOver
  · rcases exists_encodeTable hBare with ⟨table, hTable⟩
    rcases exists_writesFront hTable with
      ⟨values, front, offsets, later, starts, hFront, -⟩
    have hSigned :
        (tx.withCosignatures cosignatures).body.signedValues =
          .ok values :=
      (Body.signedValues_withCosignatures _ _).trans
        hFront.signed
    rw [hBody, Body.signedValues, bind_eq_ok_iff] at hSigned
    rcases hSigned with ⟨entities, hEntities, -⟩
    rw [mapM_eq_ok_iff] at hEntities
    have hEach :
        ∀ inner ∈ content.transactions,
          ∃ bytes, inner.encode = .ok bytes :=
      forall_mem_of_forall₂ hEntities.flip
        fun bytes inner hEncode => ⟨bytes, hEncode⟩
    rcases hEach inner hMem with ⟨bytes, hEncode⟩
    unfold Embedded.encode at hEncode
    rw [hInner] at hEncode
    cases hEncode
  · exact hOver

end Cosigned

/-
  A signature stands for the network, the fee, the deadline
  and the body of a transaction, and for nothing else.  Other
  cosignatures change neither what is signed nor whether the
  signature is valid nor the hash.
-/
theorem signedPart_binds_content
    (a b : Transaction)
    (hA : ∃ bytes, a.encode = .ok bytes)
    (hB : ∃ bytes, b.encode = .ok bytes) :
    (∃ part, a.signedPart = .ok part) ∧
    (∃ part, b.signedPart = .ok part) ∧
    (a.signedPart = b.signedPart ↔
      a.header.network = b.header.network ∧
        a.header.maxFee = b.header.maxFee ∧
        a.header.deadline = b.header.deadline ∧
        a.body.withCosignatures [] =
          b.body.withCosignatures []) ∧
    (a.signedPart = b.signedPart → a.kind = b.kind) ∧
    ∀ cosignatures,
      (∃ bytes,
        (a.withCosignatures cosignatures).encode =
          .ok bytes) →
      (a.withCosignatures cosignatures).signedPart =
          a.signedPart ∧
        (∀ scheme generationHash,
          (a.withCosignatures cosignatures).verify scheme
              generationHash =
            a.verify scheme generationHash) ∧
        ∀ generationHash,
          (a.withCosignatures cosignatures).hash
              generationHash =
            a.hash generationHash := by
  rcases exists_encodeTable hA with ⟨tableA, hTableA⟩
  rcases exists_encodeTable hB with ⟨tableB, hTableB⟩
  rcases signedPart_of_encodeTable hTableA with
    ⟨partA, -, hPartA⟩
  rcases signedPart_of_encodeTable hTableB with
    ⟨partB, -, hPartB⟩
  have hParts := signedPart_eq_iff hA hB
  refine ⟨⟨partA, hPartA⟩, ⟨partB, hPartB⟩, ?_, ?_, ?_⟩
  · rw [hParts]
    constructor
    · rintro ⟨hNetwork, hFee, hDeadline, hBody⟩
      exact ⟨hNetwork, hFee, hDeadline, hBody⟩
    · rintro ⟨hNetwork, hFee, hDeadline, hBody⟩
      exact ⟨hNetwork, hFee, hDeadline, hBody⟩
  · intro hEqual
    exact (hParts.mp hEqual).kind_eq
  · intro cosignatures hEncode
    have hPart :
        (a.withCosignatures cosignatures).signedPart =
          a.signedPart :=
      (signedPart_eq_iff hEncode hA).mpr
        (sameContent_withCosignatures cosignatures a)
    refine ⟨hPart, ?_, ?_⟩
    · intro scheme generationHash
      rw [verify, verify, hPart]
      rfl
    · intro generationHash
      rw [hash, hash, hPart]
      rfl

/-
  An aggregate with a cosignature has the signed part that it
  has without, and another one than with another deadline.
-/
theorem signedPart_binds_content_aggregate :
    let aggregate : Body := .aggregate .bonded {
      transactions :=
        [{ signer := .zero 32
           network := .mijinTest
           body := .operation (.driveClosure ⟨.zero 32⟩) }]
      cosignatures := [] }
    let early : Transaction :=
      ⟨.unsigned .mijinTest ⟨0⟩ ⟨1⟩, aggregate⟩
    let late : Transaction :=
      ⟨.unsigned .mijinTest ⟨0⟩ ⟨2⟩, aggregate⟩
    let cosigned := early.withCosignatures [⟨.zero 32, .zero 64⟩]
    (∃ part, early.signedPart = .ok part) ∧
    cosigned.signedPart = early.signedPart ∧
    early.signedPart ≠ late.signedPart := by
  intro aggregate early late cosigned
  have hEarly : ∃ bytes, early.encode = .ok bytes :=
    exists_eq_ok (by decide +kernel)
  have hLate : ∃ bytes, late.encode = .ok bytes :=
    exists_eq_ok (by decide +kernel)
  have hCosigned : ∃ bytes, cosigned.encode = .ok bytes :=
    exists_eq_ok (by decide +kernel)
  rcases signedPart_binds_content early late hEarly hLate with
    ⟨hPart, -, hIff, -, hCosignatures⟩
  refine ⟨hPart, (hCosignatures _ hCosigned).1, ?_⟩
  intro hEqual
  have hDeadline := (hIff.mp hEqual).2.2.1
  exact absurd hDeadline (by decide)

end Transaction

end DriveMarket
