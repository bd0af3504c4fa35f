import DriveMarket.Cosigning.Pending
import DriveMarket.Transaction.Factory

/-
  Aggregates before their initiator signs them.

  Key definitions include:
    * `AggregateDraft`
    * `AggregateDraft.build`
    * `AggregateDraft.sign`
-/

namespace DriveMarket

/- The transactions of an aggregate that is being put together. -/
structure AggregateDraft where
  form : AggregateForm
  transactions : List Embedded

namespace AggregateDraft

/- The draft of an aggregate without transactions. -/
def empty
    (form : AggregateForm) : AggregateDraft :=
  { form := form
    transactions := [] }

/- The draft with more transactions at its end. -/
def addAll
    (transactions : List Embedded)
    (draft : AggregateDraft) : AggregateDraft :=
  { draft with
    transactions := draft.transactions ++ transactions }

/- The unsigned aggregate, which may not be empty. -/
def build
    (factory : Factory)
    (now : UInt64)
    (draft : AggregateDraft) :
    Except CosigningError Transaction :=
  if draft.transactions.isEmpty then
    .error .emptyAggregate
  else
    .ok (factory.aggregate now draft.form draft.transactions)

/- Sign the aggregate, and start to collect cosignatures. -/
def sign
    (factory : Factory)
    (scheme : SignatureScheme)
    (seed : Seed)
    (now : UInt64)
    (draft : AggregateDraft) :
    Except CosigningError PendingAggregate := do
  let tx ← draft.build factory now
  let signed ←
    (factory.sign scheme seed tx).mapError .transaction
  PendingAggregate.start scheme factory.settings.generationHash
    signed.transaction

end AggregateDraft

end DriveMarket
