import DriveMarket.Json.Quantities
import DriveMarket.Proofs.Results

/-
  Reading a value from its own JSON form.

  Most values come back as they were written.  Where a form
  reads under a rule of the market, the rule decides: the
  value comes back, or it is refused for the rule's cause.
  Of a list or a record the first part that is refused
  decides, in the order in which the parts are written.

  Key definitions include:
    * `JsonForm.Restores`
    * `RecordFields.Restores`

  Correctness is proven by:
    * `JsonForm.Restores.list`
    * `JsonForm.Restores.checked`
    * `RecordFields.Restores.seq`
    * `RecordFields.Restores.form`
-/

namespace DriveMarket

------------------------------------------------------------
-- Values
------------------------------------------------------------

namespace JsonForm

variable {α β : Type}

/-
  An item that is read from its own form comes to a verdict:
  it is restored, or refused for a cause.
-/
def Restores
    (form : JsonForm α)
    (item : α)
    (verdict : Except ModelError Unit) : Prop :=
  form.read (form.write item) =
    (verdict.mapError .refused).map fun _ => item

namespace Restores

variable {form : JsonForm α}
variable {verdict : Except ModelError Unit}

theorem read_eq
    {item : α}
    (hForm : form.Restores item verdict) :
    form.read (form.write item) =
      (verdict.mapError .refused).map fun _ => item :=
  hForm

/- What holds an item comes back as the item does. -/
theorem map_eq
    {item : α}
    (hForm : form.Restores item verdict)
    (holder : α → β) :
    (form.read (form.write item)).map holder =
      (verdict.mapError .refused).map fun _ =>
        holder item := by
  rw [hForm.read_eq]
  cases verdict with
  | error cause => rfl
  | ok => rfl

/- Items that are spelled by others come back as those do. -/
theorem convert
    {ofSpelling : α → β}
    {spelling : β → α}
    {item : β}
    (hForm : form.Restores (spelling item) verdict)
    (hSpelling : ofSpelling (spelling item) = item) :
    (form.convert ofSpelling spelling).Restores item
      verdict := by
  unfold Restores
  dsimp only [JsonForm.convert]
  rw [hForm.read_eq]
  cases verdict with
  | error cause => rfl
  | ok => exact congrArg Except.ok hSpelling

/- A rule decides about items that would come back. -/
theorem checked
    {rule : α → Except ModelError α}
    {item : α}
    (hForm : form.Restores item (.ok ()))
    (hRule : rule item = verdict.map fun _ => item) :
    (form.checked rule).Restores item verdict := by
  unfold Restores
  dsimp only [JsonForm.checked]
  rw [hForm.read_eq]
  cases verdict with
  | error cause =>
      exact congrArg (Except.mapError JsonFault.refused) hRule
  | ok =>
      exact congrArg (Except.mapError JsonFault.refused) hRule

/- Of a list the first item that is refused decides. -/
theorem list
    {items : List α}
    {rule : α → Except ModelError Unit}
    (hItems : ∀ item ∈ items, form.Restores item (rule item)) :
    (JsonForm.list form).Restores items
      (items.forM rule) := by
  change (items.map form.write).mapM form.read = _
  induction items with
  | nil => rfl
  | cons item items ih =>
      rw [List.forall_mem_cons] at hItems
      rw [List.map_cons, List.mapM_cons, hItems.1.read_eq,
        ih hItems.2, List.forM]
      cases rule item with
      | error cause => rfl
      | ok =>
          cases items.forM rule with
          | error cause => rfl
          | ok => rfl

theorem pair
    {second : JsonForm β}
    {both : α × β}
    (hFirst : form.Restores both.1 (.ok ()))
    (hSecond : second.Restores both.2 (.ok ())) :
    (JsonForm.pair form second).Restores both (.ok ()) := by
  unfold Restores
  dsimp only [JsonForm.pair]
  rw [hFirst.read_eq, hSecond.read_eq]
  rfl

end Restores

------------------------------------------------------------
-- Numbers, Texts and Names
------------------------------------------------------------

theorem restores_unsigned
    {n limit : Nat}
    (hBound : n < limit) :
    (unsigned limit).Restores n (.ok ()) := by
  have hRange : 0 ≤ Int.ofNat n ∧ Int.ofNat n < limit :=
    ⟨Int.natCast_nonneg n, Int.ofNat_lt.mpr hBound⟩
  unfold Restores
  dsimp only [unsigned, JsonForm.convert, integer]
  rw [if_pos hRange]
  rfl

theorem restores_uint8
    (n : UInt8) : uint8.Restores n (.ok ()) :=
  (restores_unsigned n.toNat_lt).convert UInt8.ofNat_toNat

theorem restores_uint16
    (n : UInt16) : uint16.Restores n (.ok ()) :=
  (restores_unsigned n.toNat_lt).convert UInt16.ofNat_toNat

theorem restores_uint32
    (n : UInt32) : uint32.Restores n (.ok ()) :=
  (restores_unsigned n.toNat_lt).convert UInt32.ofNat_toNat

theorem restores_uint64
    (n : UInt64) : uint64.Restores n (.ok ()) :=
  (restores_unsigned n.toNat_lt).convert UInt64.ofNat_toNat

theorem restores_bool
    (value : Bool) : JsonForm.bool.Restores value (.ok ()) :=
  rfl

theorem restores_text
    (value : String) : text.Restores value (.ok ()) :=
  rfl

theorem restores_named
    {name : α → String}
    {ofName? : String → Option α}
    {item : α}
    (hName : ofName? (name item) = some item) :
    (named name ofName?).Restores item (.ok ()) := by
  unfold Restores
  dsimp only [named]
  rw [hName]
  rfl

------------------------------------------------------------
-- Bytes
------------------------------------------------------------

/- Lists of items that all come back come back. -/
theorem restores_list
    {form : JsonForm α}
    (hForm : ∀ item, form.Restores item (.ok ()))
    (items : List α) :
    (list form).Restores items (.ok ()) := by
  have hItems :
      (list form).Restores items
        (items.forM fun _ => .ok ()) :=
    .list fun item _ => hForm item
  rwa [forM_eq_ok_iff.mpr fun _ _ => rfl] at hItems

theorem restores_bytes
    (items : Bytes) : bytes.Restores items (.ok ()) :=
  restores_list restores_uint8 items

theorem restores_fixedBytes
    {width : Nat}
    (fixed : FixedBytes width) :
    (fixedBytes width).Restores fixed (.ok ()) := by
  unfold Restores
  dsimp only [fixedBytes]
  rw [(restores_bytes fixed.toList).read_eq]
  dsimp only [ofWidth, bind, Except.bind, Except.map,
    Except.mapError]
  rw [FixedBytes.ofList?_toList]

/- Bytes are written as a list, never as a text. -/
theorem restores_fixedBytesOrText
    {width : Nat}
    (fixed : FixedBytes width) :
    (fixedBytesOrText width).Restores fixed (.ok ()) :=
  restores_fixedBytes fixed

end JsonForm

------------------------------------------------------------
-- Records
------------------------------------------------------------

namespace RecordFields

variable {ρ α β : Type}

/- Members in which some fields stand as they are written. -/
def Holds
    (members written : JsonMembers) : Prop :=
  ∀ entry ∈ written, members.lookup entry.1 = some entry.2

/- Members with names of their own stand as they are. -/
theorem holds_self
    {members : JsonMembers}
    (hNames : (members.map (·.1)).Nodup) :
    Holds members members := by
  intro entry hMem
  rcases List.append_of_mem hMem with ⟨sooner, later, rfl⟩
  rw [List.map_append, List.map_cons, List.nodup_append]
    at hNames
  rw [List.lookup_eq_some_iff]
  refine ⟨sooner, later, rfl, fun other hOther => ?_⟩
  rw [bne_iff_ne]
  intro hSame
  exact hNames.2.2 _ (List.mem_map_of_mem hOther) _
    List.mem_cons_self hSame.symm

/-
  Faults of written fields, the first of which is a refusal
  for the given cause.
-/
structure Blames
    (faults : FieldFaults)
    (written : JsonMembers)
    (cause : ModelError) : Prop where
  first :
    (written.findSome? fun member => faults.lookup member.1) =
      some (.refused cause)
  among :
    ∀ fault ∈ faults, fault.1 ∈ written.map (·.1)

/-
  Fields that are read from members in which they are written
  come to a verdict: something is made of them, or the first
  that is refused is told.
-/
structure Restores
    (fields : RecordFields ρ α)
    (record : ρ)
    (made : α)
    (verdict : Except ModelError Unit) : Prop where
  named : (fields.write record).map (·.1) = fields.names
  restored :
    ∀ members,
      fields.names.Nodup →
      Holds members (fields.write record) →
      verdict = .ok () →
      fields.read members = .ok made
  refused :
    ∀ members cause,
      fields.names.Nodup →
      Holds members (fields.write record) →
      verdict = .error cause →
      ∃ faults,
        fields.read members = .error faults ∧
          Blames faults (fields.write record) cause

/- What has no fault is not found among the faults. -/
theorem lookup_eq_none_of_among
    {faults : FieldFaults}
    {names : List String}
    {name : String}
    (hAmong : ∀ fault ∈ faults, fault.1 ∈ names)
    (hOther : name ∉ names) :
    faults.lookup name = Option.none := by
  rw [List.lookup_eq_none_iff]
  intro fault hMem
  rw [bne_iff_ne]
  rintro rfl
  exact hOther (hAmong fault hMem)

namespace Blames

variable {faults more : FieldFaults}
variable {written others : JsonMembers}
variable {cause : ModelError}

/- Faults of later fields do not come first. -/
theorem before
    (hBlames : Blames faults written cause)
    (hMore : ∀ fault ∈ more, fault.1 ∈ others.map (·.1))
    (hApart :
      ∀ member ∈ written, member.1 ∉ others.map (·.1)) :
    Blames (faults ++ more) (written ++ others) cause := by
  constructor
  · have hLookup :
        ∀ member ∈ written,
          (faults ++ more).lookup member.1 =
            faults.lookup member.1 := by
      intro member hMem
      rw [List.lookup_append,
        lookup_eq_none_of_among hMore (hApart member hMem),
        Option.or_none]
    rcases List.findSome?_eq_some_iff.mp hBlames.first with
      ⟨sooner, member, later, rfl, hFault, hSooner⟩
    rw [List.findSome?_eq_some_iff]
    refine ⟨sooner, member, later ++ others, by simp, ?_, ?_⟩
    · rw [hLookup member (by simp)]
      exact hFault
    · intro entry hMem
      rw [hLookup entry (List.mem_append_left _ hMem)]
      exact hSooner entry hMem
  · rw [List.forall_mem_append, List.map_append]
    exact ⟨fun fault hMem =>
        List.mem_append_left _ (hBlames.among fault hMem),
      fun fault hMem =>
        List.mem_append_right _ (hMore fault hMem)⟩

/- Nor do earlier fields that have no fault. -/
theorem behind
    (hBlames : Blames faults others cause)
    (hApart :
      ∀ member ∈ written, member.1 ∉ others.map (·.1)) :
    Blames faults (written ++ others) cause := by
  constructor
  · have hNone :
        (written.findSome? fun member =>
          faults.lookup member.1) = Option.none := by
      rw [List.findSome?_eq_none_iff]
      intro member hMem
      exact lookup_eq_none_of_among hBlames.among
        (hApart member hMem)
    rw [List.findSome?_append, hNone, Option.none_or]
    exact hBlames.first
  · intro fault hMem
    rw [List.map_append]
    exact List.mem_append_right _ (hBlames.among fault hMem)

end Blames

namespace Restores

variable {record : ρ}
variable {verdict : Except ModelError Unit}

/- A field comes to the verdict on its value. -/
theorem field
    {form : JsonForm α}
    {get : ρ → α}
    (name : String)
    (hForm : form.Restores (get record) verdict) :
    Restores (DriveMarket.field name form get) record
      (get record) verdict := by
  have hLookup :
      ∀ members,
        Holds members [(name, form.write (get record))] →
        members.lookup name =
          some (form.write (get record)) :=
    fun members hHolds => hHolds _ List.mem_cons_self
  constructor
  · rfl
  · intro members _ hHolds hVerdict
    dsimp only [DriveMarket.field]
    rw [hLookup members hHolds]
    dsimp only
    rw [hForm.read_eq, hVerdict]
    rfl
  · intro members cause _ hHolds hVerdict
    refine ⟨[(name, .refused cause)], ?_, ?_, ?_⟩
    · dsimp only [DriveMarket.field]
      rw [hLookup members hHolds]
      dsimp only
      rw [hForm.read_eq, hVerdict]
      rfl
    · simp [DriveMarket.field]
    · simp [DriveMarket.field]

/- Fields come to the verdict on the first that is refused. -/
theorem seq
    {first : RecordFields ρ (α → β)}
    {second : RecordFields ρ α}
    {make : α → β}
    {item : α}
    {other : Except ModelError Unit}
    (hFirst : Restores first record make verdict)
    (hSecond : Restores second record item other) :
    Restores (first <*> second) record (make item)
      (verdict >>= fun _ => other) := by
  have hParts :
      ∀ members,
        (first.names ++ second.names).Nodup →
        Holds members
          (first.write record ++ second.write record) →
        first.names.Nodup ∧ second.names.Nodup ∧
          Holds members (first.write record) ∧
          Holds members (second.write record) ∧
          ∀ member ∈ first.write record,
            member.1 ∉ (second.write record).map (·.1) := by
    intro members hNames hHolds
    rw [List.nodup_append] at hNames
    refine ⟨hNames.1, hNames.2.1,
      fun member hMem =>
        hHolds member (List.mem_append_left _ hMem),
      fun member hMem =>
        hHolds member (List.mem_append_right _ hMem), ?_⟩
    intro member hMem hOther
    rw [hSecond.named] at hOther
    have hName : member.1 ∈ first.names := by
      rw [← hFirst.named]
      exact List.mem_map_of_mem hMem
    exact hNames.2.2 _ hName _ hOther rfl
  change Restores (first.andThen second) record _ _
  constructor
  · dsimp only [andThen]
    rw [List.map_append, hFirst.named, hSecond.named]
  · intro members hNames hHolds hVerdict
    rcases hParts members hNames hHolds with
      ⟨hNames₁, hNames₂, hHolds₁, hHolds₂, -⟩
    cases verdict with
    | error cause => cases hVerdict
    | ok =>
        dsimp only [andThen]
        rw [hFirst.restored members hNames₁ hHolds₁ rfl,
          hSecond.restored members hNames₂ hHolds₂ hVerdict]
  · intro members cause hNames hHolds hVerdict
    rcases hParts members hNames hHolds with
      ⟨hNames₁, hNames₂, hHolds₁, hHolds₂, hApart⟩
    dsimp only [andThen]
    cases verdict with
    | ok =>
        rcases hSecond.refused members cause hNames₂ hHolds₂
          hVerdict with ⟨faults, hRead, hBlames⟩
        refine ⟨faults, ?_, hBlames.behind hApart⟩
        rw [hFirst.restored members hNames₁ hHolds₁ rfl, hRead]
    | error found =>
        cases hVerdict
        rcases hFirst.refused members cause hNames₁ hHolds₁
          rfl with ⟨faults, hRead, hBlames⟩
        rw [hRead]
        cases other with
        | ok =>
            rw [hSecond.restored members hNames₂ hHolds₂ rfl]
            refine ⟨faults, rfl, ?_⟩
            have hNone :=
              hBlames.before (List.forall_mem_nil _) hApart
            rwa [List.append_nil] at hNone
        | error last =>
            rcases hSecond.refused members last hNames₂ hHolds₂
              rfl with ⟨more, hMore, hLast⟩
            rw [hMore]
            exact ⟨faults ++ more, rfl,
              hBlames.before hLast.among hApart⟩

/- What is made of a field may be converted. -/
theorem map
    {fields : RecordFields ρ α}
    {item : α}
    (make : α → β)
    (hFields : Restores fields record item verdict) :
    Restores (make <$> fields) record (make item) verdict := by
  have hNone :
      Restores (RecordFields.none make) record make
        (.ok ()) := by
    constructor
    · rfl
    · exact fun _ _ _ _ => rfl
    · intro _ _ _ _ hVerdict
      cases hVerdict
  exact hNone.seq hFields

/- A record comes to the verdict on its fields. -/
theorem form
    {fields : RecordFields ρ ρ}
    (hFields : Restores fields record record verdict)
    (hNames : fields.names.Nodup) :
    fields.form.Restores record verdict := by
  have hHolds := holds_self (hFields.named ▸ hNames)
  change (fields.read (fields.write record)).mapError _ = _
  cases verdict with
  | ok =>
      rw [hFields.restored _ hNames hHolds rfl]
      rfl
  | error cause =>
      rcases hFields.refused _ cause hNames hHolds rfl with
        ⟨faults, hRead, hBlames⟩
      rw [hRead]
      dsimp only [Except.mapError, Except.map]
      rw [firstFault, hBlames.first]
      rfl

end Restores

end RecordFields

------------------------------------------------------------
-- Quantities and Keys
------------------------------------------------------------

open JsonForm

/- Words keep every 64-bit number, which two words spell. -/
theorem Words.form_restores
    (words : Words) : Words.form.Restores words (.ok ()) := by
  refine Restores.convert (Restores.pair ?_ ?_) rfl
  · exact restores_uint32 words.low
  · exact restores_uint32 words.high

theorem Amount.form_restores
    (amount : Amount) :
    Amount.form.Restores amount (.ok ()) :=
  (Words.form_restores amount.words).convert
    (congrArg Amount.mk (Words.join_split amount.value))

theorem StorageSize.form_restores
    (size : StorageSize) :
    StorageSize.form.Restores size (.ok ()) :=
  (Words.form_restores size.words).convert
    (congrArg StorageSize.mk (Words.join_split size.value))

theorem Deadline.form_restores
    (deadline : Deadline) :
    Deadline.form.Restores deadline (.ok ()) :=
  (restores_uint64 deadline.value).convert rfl

theorem Digest.form_restores
    (digest : Digest) : Digest.form.Restores digest (.ok ()) :=
  restores_fixedBytes digest

theorem Signature.form_restores
    (signature : Signature) :
    Signature.form.Restores signature (.ok ()) :=
  restores_fixedBytesOrText signature

theorem BlsPublicKey.form_restores
    (key : BlsPublicKey) :
    BlsPublicKey.form.Restores key (.ok ()) := by
  refine RecordFields.Restores.form
    (RecordFields.Restores.map id (.field "bytes" ?_))
    (by decide)
  exact restores_fixedBytesOrText key

theorem BlsSignature.form_restores
    (signature : BlsSignature) :
    BlsSignature.form.Restores signature (.ok ()) := by
  refine RecordFields.Restores.form
    (RecordFields.Restores.map id (.field "bytes" ?_))
    (by decide)
  exact restores_fixedBytesOrText signature

theorem Network.form_restores
    (network : Network) :
    Network.form.Restores network (.ok ()) :=
  restores_named network.ofName?_name

end DriveMarket
