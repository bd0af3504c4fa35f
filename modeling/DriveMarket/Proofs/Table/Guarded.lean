import DriveMarket.Proofs.Table.Typing
import Mathlib.Algebra.GroupWithZero.Nat

/-
  A reader that looks before every step.

  A reader slices buffers, adds to places, multiplies counts
  by widths and makes room for what it is told to expect.  The
  guarded reader reads the same, but sees its table whole and
  takes each of these steps only if it can: it stops with a
  fault where a slice would be out of range, a number would
  leave 64 bits, or the place would pass the end of the table.
  It also pays for every nested table, entity and element of
  an array, at any depth, from a budget of one for each byte
  that the outermost table declares.

  Key definitions include:
    * `Fault`
    * `Window`
    * `FieldKind.readGuarded`
    * `readTableGuarded`
    * `Value.elements`
    * `Tracks`

  Correctness is proven by:
    * `Tracks.bind`
    * `Tracks.eq_mapError`
-/

namespace DriveMarket

------------------------------------------------------------
-- Guarded Steps
------------------------------------------------------------

/-
  Steps that cannot be taken: to slice where there are no
  bytes, to leave 64 bits, to pass the end of a table, to make
  room for more than can come, to cut into pieces of no width,
  and to produce more than the outermost table declares bytes.
-/
inductive Fault where
  | slice
  | overflow
  | passed
  | room
  | pieces
  | excess
deriving DecidableEq

/- Why a guarded reader stops. -/
inductive Halt where
  | refused (cause : TableError)
  | fault (fault : Fault)
deriving DecidableEq

/- Go on only under a condition. -/
def guarded
    (condition : Prop)
    [Decidable condition]
    (fault : Fault) : Except Halt Unit :=
  if condition then
    .ok ()
  else
    .error (.fault fault)

/- A number that must fit 64 bits. -/
def guardedWord
    (n : Nat) : Except Halt Nat := do
  guarded (n ≤ Word64.top) .overflow
  return n

/- The bytes from one place to another, which must be there. -/
def guardedSlice
    (bytes : Bytes)
    (start stop : Nat) : Except Halt Bytes := do
  guarded (start ≤ stop ∧ stop ≤ bytes.length) .slice
  return (bytes.take stop).drop start

/- The most bytes that room can be made for at once. -/
def maxRoom : Nat :=
  0x7fffffffffffffff

/- A size prefix that is in range. -/
def guardedSize
    (table name : String)
    (buffer : Bytes) : Except Halt Nat :=
  (readSize table name buffer).mapError .refused

------------------------------------------------------------
-- Windows
------------------------------------------------------------

/-
  A place in a table whose bytes are seen as a whole, and how
  many items may still be produced.
-/
structure Window where
  bytes : Bytes
  position : Nat
  budget : Nat

namespace Window

/- The number of bytes that are left. -/
def remaining
    (window : Window) : Nat :=
  window.bytes.length - window.position

/- The bytes that are left. -/
def ahead
    (window : Window) : Except Halt Bytes :=
  guardedSlice window.bytes window.position
    window.bytes.length

/- Another place in the same table. -/
def moveTo
    (position : Nat)
    (window : Window) : Except Halt Window := do
  guarded (position ≤ window.bytes.length) .passed
  return { window with position := position }

/- Pay for items. -/
def pay
    (items : Nat)
    (window : Window) : Except Halt Window := do
  guarded (items ≤ window.budget) .excess
  return { window with budget := window.budget - items }

/- The complaint that a field needs more bytes than are left. -/
def malformed
    (table name : String)
    (needed : Nat)
    (window : Window) : TableError :=
  .malformedBuffer table name window.position needed
    window.remaining

/- The next `n` bytes, and the place after them. -/
def take
    (table name : String)
    (n : Nat)
    (window : Window) : Except Halt (Bytes × Window) :=
  if n ≤ window.remaining then do
    let stop ← guardedWord (window.position + n)
    let bytes ←
      guardedSlice window.bytes window.position stop
    let next ← window.moveTo stop
    return (bytes, next)
  else
    .error (.refused (window.malformed table name n))

/- A number of `width` bytes, which must have been taken. -/
def number
    (table name : String)
    (width : Nat)
    (window : Window) : Except Halt (Nat × Window) := do
  let (bytes, next) ← window.take table name width
  guarded (bytes.length = width) .slice
  return (LittleEndian.decode bytes, next)

/- A count of elements of at least `width` bytes each. -/
def count
    (table name : String)
    (width : Nat)
    (window : Window) : Except Halt (Nat × Window) := do
  let (n, next) ← window.number table name countWidth
  let needed := min (n * width) Word64.top
  if needed ≤ next.remaining then
    return (n, next)
  else
    .error (.refused (next.malformed table name needed))

/- Read the same thing `n` times. -/
def times
    {α : Type}
    (read : Window → Except Halt (α × Window)) :
    (n : Nat) →
    (window : Window) →
    Except Halt (List α × Window)
  | 0, window => .ok ([], window)
  | n + 1, window => do
      let (item, next) ← read window
      let (items, last) ← times read n next
      return (item :: items, last)

end Window

------------------------------------------------------------
-- Guarded Reading
------------------------------------------------------------

/- One entity, which is paid for. -/
def readEntityGuarded
    (table name : String)
    (window : Window) : Except Halt (Bytes × Window) := do
  let buffer ← window.ahead
  let size ← guardedSize table name buffer
  let (bytes, next) ← window.take table name size
  let next ← next.pay 1
  return (bytes, next)

/-
  One nested table, which is paid for.  Its fields are read in
  a window of their own, and pay from the same budget.
-/
def readNestedGuarded
    (table : String)
    (read :
      Window → Except Halt (List ReadField × Window))
    (window : Window) :
    Except Halt (List Value × Window) := do
  let buffer ← window.ahead
  let size ← guardedSize table "size" buffer
  let bytes ← guardedSlice buffer 0 size
  let (fields, last) ← read {
    bytes := bytes
    position := sizeWidth
    budget := window.budget }
  let stop ← guardedWord (window.position + size)
  let next ← window.moveTo stop
  let next ← { next with budget := last.budget }.pay 1
  return (fields.map (·.value), next)

/- An array, whose elements are paid for. -/
def readArrayGuarded
    (table name : String)
    (width : Nat)
    (window : Window) : Except Halt (Value × Window) :=
  if width = 0 then
    .error (.refused (.zeroWidth table name))
  else do
    let (n, next) ← window.count table name width
    let needed ← guardedWord (n * width)
    let (bytes, next) ← next.take table name needed
    guarded (width ≠ 0) .pieces
    let next ← next.pay n
    return (.array (bytes.chunks width n), next)

mutual

/- The value of one field, and the place after it. -/
def FieldKind.readGuarded
    (table name : String) :
    FieldKind →
    Window →
    Except Halt (Value × Window)
  | .u8, window => do
      let (n, next) ← window.number table name 1
      return (.u8 (UInt8.ofNat n), next)
  | .u16, window => do
      let (n, next) ← window.number table name 2
      return (.u16 (UInt16.ofNat n), next)
  | .u32, window => do
      let (n, next) ← window.number table name 4
      return (.u32 (UInt32.ofNat n), next)
  | .u64, window => do
      let (low, next) ← window.number table name 4
      let (high, next) ← next.number table name 4
      let n := low + 0x100000000 * high
      return (.u64 (UInt64.ofNat n), next)
  | .fixed width, window => do
      let (bytes, next) ← window.take table name width
      return (.fixed bytes, next)
  | .bytes, window => do
      let (n, next) ← window.count table name 1
      let (bytes, next) ← next.take table name n
      return (.bytes bytes, next)
  | .array width, window =>
      readArrayGuarded table name width window
  | .tables fields, window => do
      let (n, next) ← window.count table name sizeWidth
      guarded (n ≤ next.remaining) .room
      let (rows, next) ←
        next.times
          (readNestedGuarded name
            (fun w => readFieldsGuarded name fields w))
          n
      return (.tables rows, next)
  | .entities, window => do
      let (n, next) ← window.count table name sizeWidth
      guarded (n ≤ next.remaining) .room
      let (items, next) ←
        next.times (readEntityGuarded table name) n
      return (.entities items, next)
  termination_by structural kind => kind

/-
  The fields of a table.  Room is made for the defaults of
  those that are absent.
-/
def readFieldsGuarded
    (table : String) :
    List Field →
    Window →
    Except Halt (List ReadField × Window)
  | [], window => .ok ([], window)
  | ⟨name, kind⟩ :: fields, window =>
      if window.bytes.length ≤ window.position then do
        guarded (kind.fixedWidth.getD 0 ≤ maxRoom) .room
        let (rest, last) ←
          readFieldsGuarded table fields window
        return ({
          value := kind.default
          offset := none } :: rest, last)
      else do
        let (value, next) ←
          FieldKind.readGuarded table name kind window
        let (rest, last) ←
          readFieldsGuarded table fields next
        return ({
          value := value
          offset := some window.position } :: rest, last)
  termination_by structural fields => fields

end

/- A table, with a budget of one for each byte it declares. -/
def readTableGuarded
    (layout : Layout)
    (buffer : Bytes) : Except Halt DecodedTable := do
  let size ← guardedSize layout.name "size" buffer
  let bytes ← guardedSlice buffer 0 size
  let (fields, _) ←
    readFieldsGuarded layout.name layout.fields {
      bytes := bytes
      position := sizeWidth
      budget := size }
  return {
    layout := layout
    fields := fields
    size := size }

------------------------------------------------------------
-- Counting
------------------------------------------------------------

mutual

/-
  The number of nested tables, entities and array elements in
  a value, at all depths.
-/
def Value.elements : Value → Nat
  | .array items => items.length
  | .tables rows => Value.elementsOfRows rows
  | .entities items => items.length
  | _ => 0
  termination_by structural value => value

/- Nested tables count themselves and what is in them. -/
def Value.elementsOfRows : List (List Value) → Nat
  | [] => 0
  | row :: rows =>
      Value.elementsOfRow row + 1 + Value.elementsOfRows rows
  termination_by structural rows => rows

def Value.elementsOfRow : List Value → Nat
  | [] => 0
  | value :: values =>
      value.elements + Value.elementsOfRow values
  termination_by structural values => values

end

/- The number of elements in a table, at all depths. -/
def DecodedTable.elements
    (table : DecodedTable) : Nat :=
  Value.elementsOfRow table.values

@[simp]
theorem FieldKind.elements_default
    (kind : FieldKind) : kind.default.elements = 0 := by
  cases kind with
  | _ => rfl

theorem Value.elementsOfRows_eq_sum
    (rows : List (List Value)) :
    elementsOfRows rows =
      (rows.map fun row => elementsOfRow row + 1).sum := by
  induction rows with
  | nil => rfl
  | cons row rows ih =>
      rw [elementsOfRows, ih, List.map_cons, List.sum_cons]

------------------------------------------------------------
-- Reading the Same
------------------------------------------------------------

section

variable {α α' β β' : Type}

/-
  A guarded computation comes to what a plain one does: it
  returns something that agrees, or is refused alike.  It does
  not stop with a fault.
-/
def Tracks
    (agrees : α → β → Prop)
    (guarded : Except Halt β)
    (plain : Except TableError α) : Prop :=
  match plain with
  | .ok found => ∃ seen, guarded = .ok seen ∧ agrees found seen
  | .error cause => guarded = .error (.refused cause)

namespace Tracks

variable {agrees : α → β → Prop}
variable {agrees' : α' → β' → Prop}
variable {guarded : Except Halt β}
variable {plain : Except TableError α}

theorem ok
    {found : α}
    {seen : β}
    (hAgrees : agrees found seen) :
    Tracks agrees (.ok seen) (.ok found) :=
  ⟨seen, rfl, hAgrees⟩

theorem bind
    {next : β → Except Halt β'}
    {plainNext : α → Except TableError α'}
    (hFirst : Tracks agrees guarded plain)
    (hNext :
      ∀ found seen,
        agrees found seen →
        Tracks agrees' (next seen) (plainNext found)) :
    Tracks agrees' (guarded >>= next)
      (plain >>= plainNext) := by
  cases plain with
  | error cause =>
      rw [show guarded = .error (.refused cause) from hFirst]
      rfl
  | ok found =>
      rcases hFirst with ⟨seen, rfl, hAgrees⟩
      exact hNext found seen hAgrees

/- Less may be asked of what agrees. -/
theorem imp
    {weaker : α → β → Prop}
    (hTracks : Tracks agrees guarded plain)
    (hWeaker :
      ∀ found seen, agrees found seen → weaker found seen) :
    Tracks weaker guarded plain := by
  cases plain with
  | error cause => exact hTracks
  | ok found =>
      rcases hTracks with ⟨seen, rfl, hAgrees⟩
      exact .ok (hWeaker found seen hAgrees)

/- What a guarded computation does besides must succeed. -/
theorem followed
    {agrees' : α → β' → Prop}
    {next : β → Except Halt β'}
    (hFirst : Tracks agrees guarded plain)
    (hNext :
      ∀ found seen,
        agrees found seen →
        ∃ last, next seen = .ok last ∧ agrees' found last) :
    Tracks agrees' (guarded >>= next) plain := by
  cases plain with
  | error cause =>
      rw [show guarded = .error (.refused cause) from hFirst]
      rfl
  | ok found =>
      rcases hFirst with ⟨seen, rfl, hAgrees⟩
      exact hNext found seen hAgrees

/- What returns the same throughout is the same computation. -/
theorem eq_mapError
    {plain : Except TableError β}
    (hTracks :
      Tracks (fun found seen => seen = found) guarded plain) :
    guarded = plain.mapError .refused := by
  cases plain with
  | error cause => exact hTracks
  | ok found =>
      rcases hTracks with ⟨seen, rfl, rfl⟩
      rfl

end Tracks

end

theorem guarded_eq_ok
    {condition : Prop}
    [Decidable condition]
    {fault : Fault}
    (hCondition : condition) :
    guarded condition fault = .ok () :=
  if_pos hCondition

theorem guardedWord_eq_ok
    {n : Nat}
    (hFits : n ≤ Word64.top) :
    guardedWord n = .ok n := by
  rw [guardedWord, guarded_eq_ok hFits]
  rfl

theorem guardedSlice_eq_ok
    {bytes : Bytes}
    {start stop : Nat}
    (hStart : start ≤ stop)
    (hStop : stop ≤ bytes.length) :
    guardedSlice bytes start stop =
      .ok ((bytes.take stop).drop start) := by
  rw [guardedSlice, guarded_eq_ok ⟨hStart, hStop⟩]
  rfl

theorem guardedSize_tracks
    (table name : String)
    (buffer : Bytes) :
    Tracks
      (fun found seen =>
        seen = found ∧ readSize table name buffer = .ok found)
      (guardedSize table name buffer)
      (readSize table name buffer) := by
  unfold guardedSize
  cases readSize table name buffer with
  | error cause => rfl
  | ok size => exact .ok ⟨rfl, rfl⟩

end DriveMarket
