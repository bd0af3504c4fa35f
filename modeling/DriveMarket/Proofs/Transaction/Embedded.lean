import DriveMarket.Proofs.Table.RoundTrip
import DriveMarket.Proofs.Transaction.Values

/-
  Embedded transactions are read back as they were written.

  The header of a transaction is read twice, on its own and as
  part of the whole table.  Both readings see the values that
  were written.

  Correctness is proven by:
    * `readTags_of_get`
    * `Embedded.isEntity_of_encode`
    * `Embedded.decode_of_encode`
-/

namespace DriveMarket

------------------------------------------------------------
-- Tables of Transactions
------------------------------------------------------------

theorem encodeLayout_eq_ok
    {layout : Layout}
    {values : List Value}
    {table : EncodedTable}
    (hFits : RowFits layout.fields values)
    (hEncode : encodeLayout layout values = .ok table) :
    encodeTable layout values = .ok table := by
  rw [encodeLayout, hFits.writeTable_eq, mapError_eq_ok_iff]
    at hEncode
  exact hEncode

------------------------------------------------------------
-- Headers
------------------------------------------------------------

theorem readNetwork_of_unpack
    {kind : TransactionKind}
    {network : Network}
    {word : UInt32}
    (hUnpack :
      VersionWord.unpack word =
        (network.byte, kind.version.toNat)) :
    readNetwork kind word = .ok network := by
  unfold readNetwork
  rw [hUnpack]
  simp [Network.ofByte?_byte]

/- The tags of a header tell the kind and the network. -/
theorem readTags_of_get
    {versionSlot typeSlot : Nat}
    {kind : TransactionKind}
    {network : Network}
    {word : UInt32}
    {versionField typeField : Field}
    (record : Record)
    (hUnpack :
      VersionWord.unpack word =
        (network.byte, kind.version.toNat))
    (hVersion :
      record.get versionSlot = .ok (versionField, .u32 word))
    (hType :
      record.get typeSlot = .ok (typeField, .u16 kind.tag)) :
    readTags versionSlot typeSlot record =
      .ok (kind, network) := by
  have hWord : record.u32 versionSlot = .ok word :=
    Record.view_of_get hVersion rfl
  have hTag : record.u16 typeSlot = .ok kind.tag :=
    Record.view_of_get hType rfl
  have hKind : readTag kind.tag = .ok kind := by
    rw [readTag, TransactionKind.ofTag?_tag]
  rw [readTags, hTag, hWord]
  simp only [liftM_table_ok, ok_bind, hKind, liftM_form_ok,
    readNetwork_of_unpack hUnpack]
  rfl

theorem requireExactSize_of_eq
    {header : DecodedTable}
    {buffer : Bytes}
    (hSize : header.size = buffer.length) :
    requireExactSize header buffer = .ok () := by
  rw [requireExactSize, if_pos hSize]

------------------------------------------------------------
-- Embedded Transactions
------------------------------------------------------------

namespace Embedded

/- Only operations are embedded, each as one table. -/
theorem encode_eq_ok
    {embedded : Embedded}
    {bytes : Bytes}
    (hEncode : embedded.encode = .ok bytes) :
    ∃ content table,
      embedded.body = .operation content ∧
      encodeTable
          (.embeddedOfKind (.operation content.kind))
          (embedded.headerValues ++ content.values) =
        .ok table ∧
      table.bytes = bytes := by
  rcases embedded with ⟨signer, network, body⟩
  cases body with
  | aggregate form content => cases hEncode
  | operation content =>
      rw [encode] at hEncode
      simp only [bind_eq_ok_iff] at hEncode
      rcases hEncode with ⟨table, hTable, hPure⟩
      cases hPure
      refine ⟨content, table, rfl, ?_, rfl⟩
      apply encodeLayout_eq_ok _ hTable
      exact (headerValues_fit _).append content.values_fit

theorem isEntity_of_encode
    {embedded : Embedded}
    {bytes : Bytes}
    (hEncode : embedded.encode = .ok bytes) :
    bytes.IsEntity := by
  rcases encode_eq_ok hEncode with
    ⟨content, table, -, hTable, rfl⟩
  rcases encodeTable_eq_ok hTable with ⟨body, -, hEntity, -⟩
  exact hEntity

/- The header of an embedded transaction tells its kind. -/
theorem readKind_of_encode
    {signer : PublicKey}
    {kind : TransactionKind}
    {network : Network}
    {word : UInt32}
    {more : List Field}
    {others : List Value}
    {name : String}
    {buffer front rest : Bytes}
    {offsets : List Nat}
    (hUnpack :
      VersionWord.unpack word =
        (network.byte, kind.version.toNat))
    (hEncode :
      encodeFields name (Layout.embeddedHeaderFields ++ more)
          sizeWidth
          ([signer.field, .u32 word, .u16 kind.tag] ++
            others) =
        .ok (front, offsets))
    (hEntity : buffer.IsEntity)
    (hBuffer : buffer.drop sizeWidth = front ++ rest) :
    readKind buffer = .ok (kind, network) := by
  have hFits :
      RowFits Layout.embeddedHeaderFields
        [signer.field, .u32 word, .u16 kind.tag] :=
    .cons signer.field_fits
      (.cons (.u32 _) (.cons (.u16 _) .nil))
  rcases RowFits.readTable_record .embeddedHeaderOnly
      hFits rfl hEncode hEntity hBuffer with
    ⟨header, hRead, hSize, hRecord⟩
  have hTags :
      readTags EmbeddedSlot.version EmbeddedSlot.type
          header.record =
        .ok (kind, network) := by
    rw [hRecord]
    exact readTags_of_get _ hUnpack rfl rfl
  rw [readKind, hRead]
  simp only [liftM_table_ok, ok_bind,
    requireExactSize_of_eq hSize, hTags]

/- An embedded transaction is read back as it was written. -/
theorem decode_of_encode
    {embedded : Embedded}
    {bytes : Bytes}
    (hEncode : embedded.encode = .ok bytes) :
    decode bytes = .ok embedded := by
  rcases encode_eq_ok hEncode with
    ⟨content, table, hBody, hTable, rfl⟩
  rcases encodeTable_eq_ok hTable with
    ⟨body, hFields, hEntity, hDrop⟩
  rcases embedded with ⟨signer, network, embeddedBody⟩
  have hSame : embeddedBody = .operation content := hBody
  subst hSame
  have hBuffer : table.bytes.drop sizeWidth = body ++ [] := by
    rw [hDrop, List.append_nil]
  have hKind :
      readKind table.bytes =
        .ok (.operation content.kind, network) :=
    readKind_of_encode (VersionWord.unpack_pack _ _) hFields
      hEntity hBuffer
  have hPositive :
      arePositive
        (Layout.embeddedHeaderFields ++
          Layout.operationFields content.kind) := by
    rw [arePositive_append, Bool.and_eq_true]
    exact ⟨rfl,
      Layout.arePositive_signedBody
        (.operation content.kind)⟩
  rcases RowFits.readTable_all
      (.embeddedOfKind (.operation content.kind))
      ((headerValues_fit _).append content.values_fit)
      hPositive hFields hEntity hBuffer with
    ⟨whole, hRead, -, hRecord⟩
  have hSigner :
      whole.record.fixed 32 EmbeddedSlot.signer =
        .ok signer := by
    rw [hRecord]
    exact Record.fixed_of_get rfl
  have hContent :
      Operation.ofRecord content.kind whole.record
          (Layout.embeddedOfKind
            (.operation content.kind)).bodyStart =
        .ok content := by
    rw [hRecord]
    apply Operation.ofRecord_of_get
    intro i field value hField hValue
    exact Record.get_append _ rfl hField hValue
  rw [decode, hKind]
  simp only [ok_bind, hRead, liftM_table_ok, hSigner, hContent]
  rfl

end Embedded

------------------------------------------------------------
-- Bodies
------------------------------------------------------------

/- The signed values of a body fit its signed fields. -/
theorem Body.signedValues_fit
    {body : Body}
    {values : List Value}
    (hValues : body.signedValues = .ok values) :
    RowFits (Layout.signedBody body.kind) values := by
  cases body with
  | operation content =>
      cases hValues
      exact content.values_fit
  | aggregate form content =>
      rw [signedValues, bind_eq_ok_iff] at hValues
      rcases hValues with ⟨entities, hEntities, hPure⟩
      cases hPure
      rw [mapM_eq_ok_iff] at hEntities
      have hAll : ∀ bytes ∈ entities, bytes.IsEntity :=
        forall_mem_of_forall₂ hEntities
          fun embedded bytes => Embedded.isEntity_of_encode
      exact .cons (.entities hAll) .nil

end DriveMarket
