import DriveMarket.Proofs.Table.Guarded
import DriveMarket.Proofs.Table.ZeroWidth

/-
  A reader stays within bounds.

  The guarded reader never stops with a fault, whatever bytes
  it is given.  A window shows what the reader's cursor has
  before it, and the budget covers the bytes that are left:
  every item that is paid for takes up a byte at least, because
  a count is refused if that many items cannot follow it.  Each
  step keeps this, and so does reading any field, by induction
  on its layout.

  Key definitions include:
    * `Window.Follows`
    * `Window.Leads`
    * `Window.Agrees`
    * `FieldKind.isNarrow`

  Correctness is proven by:
    * `Window.take_tracks`
    * `Window.count_tracks`
    * `Window.times_tracks`
    * `FieldKind.readGuarded_tracks`
    * `readTableGuarded_tracks`
    * `readTable_within_bounds`
-/

namespace DriveMarket

------------------------------------------------------------
-- Windows
------------------------------------------------------------

namespace Window

variable {window next last : Window}
variable {cursor : Cursor}
variable {produced more : Nat}

/-
  A window shows a cursor's place.  The place is in the table,
  whose size is a number of 32 bits, and the budget covers the
  bytes that are left.
-/
structure Follows
    (window : Window)
    (cursor : Cursor) : Prop where
  position_eq : cursor.position = window.position
  rest_eq : cursor.rest = window.bytes.drop window.position
  inside : window.position ≤ window.bytes.length
  short : window.bytes.length < 0x100000000
  funded :
    window.bytes.length ≤ window.budget + window.position

/-
  One window comes after another in the same table.  What was
  produced between them was paid for, and did not exceed the
  number of bytes that were passed.
-/
structure Leads
    (window next : Window)
    (produced : Nat) : Prop where
  bytes_eq : next.bytes = window.bytes
  paid : window.budget = next.budget + produced
  passed : produced + window.position ≤ next.position

theorem Leads.refl
    (window : Window) : window.Leads window 0 := by
  constructor
  · rfl
  · rfl
  · exact Nat.le_of_eq (Nat.zero_add _)

theorem Leads.trans
    (hFirst : window.Leads next produced)
    (hNext : next.Leads last more) :
    window.Leads last (produced + more) := by
  rcases hFirst with ⟨hBytes, hPaid, hPassed⟩
  rcases hNext with ⟨hBytes', hPaid', hPassed'⟩
  constructor
  · rw [hBytes', hBytes]
  · omega
  · omega

/- Further on in the same table a window shows what is left. -/
theorem Follows.moved
    (hFollows : window.Follows cursor)
    (hLeads : window.Leads next produced)
    (hInside : next.position ≤ window.bytes.length) :
    next.Follows {
      position := next.position
      rest := cursor.rest.drop
        (next.position - window.position) } := by
  rcases hFollows with ⟨-, hRest, -, hShort, hFunded⟩
  rcases hLeads with ⟨hBytes, hPaid, hPassed⟩
  have hSum :
      window.position + (next.position - window.position) =
        next.position := by
    omega
  constructor
  · rfl
  · rw [hRest, hBytes, List.drop_drop, hSum]
  · rw [hBytes]
    exact hInside
  · rw [hBytes]
    exact hShort
  · rw [hBytes]
    omega

/- As many bytes are left in a window as behind the cursor. -/
theorem Follows.remaining_eq
    (hFollows : window.Follows cursor) :
    window.remaining = cursor.rest.length := by
  rw [hFollows.rest_eq, List.length_drop, remaining]

/- The cursor has nothing left where a window is at its end. -/
theorem Follows.isEmpty_iff
    (hFollows : window.Follows cursor) :
    cursor.rest.isEmpty ↔
      window.bytes.length ≤ window.position := by
  rw [hFollows.rest_eq, List.isEmpty_iff,
    List.drop_eq_nil_iff]

theorem Follows.malformed_eq
    (hFollows : window.Follows cursor)
    (table name : String)
    (needed : Nat) :
    window.malformed table name needed =
      cursor.malformed table name needed := by
  rw [malformed, Cursor.malformed, hFollows.remaining_eq,
    hFollows.position_eq]

theorem Follows.ahead_eq
    (hFollows : window.Follows cursor) :
    window.ahead = .ok cursor.rest := by
  rw [ahead, guardedSlice_eq_ok hFollows.inside (Nat.le_refl _),
    List.take_length, hFollows.rest_eq]

/- Places in a table are numbers of 64 bits. -/
theorem Follows.guardedWord_eq_ok
    {place : Nat}
    (hFollows : window.Follows cursor)
    (hInside : place ≤ window.bytes.length) :
    guardedWord place = .ok place := by
  have hShort := hFollows.short
  apply DriveMarket.guardedWord_eq_ok
  unfold Word64.top
  omega

theorem moveTo_eq_ok
    {position : Nat}
    (hInside : position ≤ window.bytes.length) :
    window.moveTo position =
      .ok { window with position := position } := by
  rw [moveTo, guarded_eq_ok hInside]
  rfl

/-
  Items can be paid for if, with what was produced before, no
  more of them are produced than bytes were passed.
-/
theorem Follows.pay
    {place : Cursor}
    {items : Nat}
    (hFollows : window.Follows cursor)
    (hNext : next.Follows place)
    (hLeads : window.Leads next produced)
    (hPassed :
      produced + items + window.position ≤ next.position) :
    ∃ paid,
      next.pay items = .ok paid ∧
      paid.Follows place ∧
      window.Leads paid (produced + items) := by
  have hFunded := hFollows.funded
  have hInside := hNext.inside
  have hPaid := hLeads.paid
  rw [hLeads.bytes_eq] at hInside
  have hBudget : items ≤ next.budget := by
    omega
  refine ⟨{ next with budget := next.budget - items }, ?_, ?_,
    ?_⟩
  · rw [Window.pay, guarded_eq_ok hBudget]
    rfl
  · refine ⟨hNext.position_eq, hNext.rest_eq, hNext.inside,
      hNext.short, ?_⟩
    dsimp only
    rw [hLeads.bytes_eq]
    omega
  · refine ⟨hLeads.bytes_eq, ?_, hPassed⟩
    dsimp only
    omega

section

variable {α β : Type}

/-
  What a guarded reader sees from a window is what a reader
  finds, and the elements in it were paid for.
-/
structure Agrees
    (elements : α → Nat)
    (window : Window)
    (found : α × Cursor)
    (seen : α × Window) : Prop where
  same : seen.1 = found.1
  follows : seen.2.Follows found.2
  leads : window.Leads seen.2 (elements found.1)

end

------------------------------------------------------------
-- Bytes and Counts
------------------------------------------------------------

variable (table name : String)

/- Bytes are taken from where they are left. -/
theorem take_tracks
    (n : Nat)
    (hFollows : window.Follows cursor) :
    Tracks
      (fun found seen =>
        window.Agrees (fun _ => 0) found seen ∧
          seen.2.position = window.position + n ∧
          seen.1.length = n)
      (window.take table name n)
      (cursor.take table name n) := by
  have hRemaining := hFollows.remaining_eq
  unfold take Cursor.take
  by_cases hEnough : n ≤ window.remaining
  · have hStop : window.position + n ≤ window.bytes.length := by
      have hInside := hFollows.inside
      unfold remaining at hEnough
      omega
    rw [if_pos hEnough, if_pos (hRemaining ▸ hEnough),
      hFollows.guardedWord_eq_ok hStop, ok_bind,
      guardedSlice_eq_ok (Nat.le_add_right _ _) hStop, ok_bind,
      moveTo_eq_ok hStop]
    let next : Window :=
      { window with position := window.position + n }
    have hLeads : window.Leads next 0 := by
      refine ⟨rfl, rfl, ?_⟩
      rw [Nat.zero_add]
      exact Nat.le_add_right _ _
    have hNext := hFollows.moved hLeads hStop
    rw [show next.position = window.position + n from rfl,
      Nat.add_sub_cancel_left] at hNext
    have hBytes :
        (window.bytes.take (window.position + n)).drop
            window.position =
          cursor.rest.take n := by
      rw [hFollows.rest_eq, List.drop_take,
        Nat.add_sub_cancel_left]
    rw [hBytes]
    refine .ok ⟨⟨rfl, ?_, hLeads⟩, rfl, ?_⟩
    · rw [hFollows.position_eq]
      exact hNext
    · exact List.length_take_of_le (hRemaining ▸ hEnough)
  · rw [if_neg hEnough, if_neg (hRemaining ▸ hEnough),
      hFollows.malformed_eq]
    rfl

theorem number_tracks
    (width : Nat)
    (hFollows : window.Follows cursor) :
    Tracks
      (fun found seen =>
        window.Agrees (fun _ => 0) found seen ∧
          seen.2.position = window.position + width)
      (window.number table name width)
      (cursor.number table name width) := by
  refine (take_tracks table name width hFollows).bind ?_
  rintro ⟨_, place⟩ ⟨bytes, next⟩
    ⟨⟨rfl, hNext, hLeads⟩, hPosition, hLength⟩
  dsimp only
  rw [guarded_eq_ok hLength, ok_bind]
  exact .ok ⟨⟨rfl, hNext, hLeads⟩, hPosition⟩

/- As many elements as are counted can follow the count. -/
theorem count_tracks
    (width : Nat)
    (hFollows : window.Follows cursor) :
    Tracks
      (fun found seen =>
        window.Agrees (fun _ => 0) found seen ∧
          found.1 * width ≤ seen.2.remaining)
      (window.count table name width)
      (cursor.count table name width) := by
  refine (number_tracks table name _ hFollows).bind ?_
  rintro ⟨n, place⟩ ⟨n', next⟩ ⟨hAgrees, -⟩
  cases hAgrees.same
  have hNext := hAgrees.follows
  have hRemaining := hNext.remaining_eq
  have hShort := hNext.short
  dsimp only at hRemaining ⊢
  by_cases hEnough :
      min (n * width) Word64.top ≤ next.remaining
  · rw [if_pos hEnough, if_pos (hRemaining ▸ hEnough)]
    refine .ok ⟨⟨rfl, hNext, hAgrees.leads⟩, ?_⟩
    dsimp only at hShort ⊢
    unfold remaining Word64.top at *
    omega
  · rw [if_neg hEnough, if_neg (hRemaining ▸ hEnough),
      hNext.malformed_eq]
    rfl

------------------------------------------------------------
-- Items
------------------------------------------------------------

/- What is tracked once is tracked again and again. -/
theorem times_tracks
    {α : Type}
    {elements : α → Nat}
    {guardedRead : Window → Except Halt (α × Window)}
    {read : Cursor → Except TableError (α × Cursor)}
    (hRead :
      ∀ {window cursor},
        Follows window cursor →
        Tracks (window.Agrees elements) (guardedRead window)
          (read cursor))
    (n : Nat)
    (hFollows : window.Follows cursor) :
    Tracks
      (window.Agrees fun items => (items.map elements).sum)
      (window.times guardedRead n)
      (cursor.times read n) := by
  induction n generalizing window cursor with
  | zero => exact .ok ⟨rfl, hFollows, .refl window⟩
  | succ n ih =>
      refine (hRead hFollows).bind ?_
      rintro ⟨item, place⟩ ⟨item', next⟩ hFirst
      cases hFirst.same
      refine (ih hFirst.follows).bind ?_
      rintro ⟨items, place'⟩ ⟨items', last⟩ hRest
      cases hRest.same
      refine .ok ⟨rfl, hRest.follows, ?_⟩
      rw [List.map_cons, List.sum_cons]
      exact hFirst.leads.trans hRest.leads

/- An entity is wider than the one element that it is. -/
theorem readEntity_tracks
    (hFollows : window.Follows cursor) :
    Tracks (window.Agrees fun _ => 1)
      (readEntityGuarded table name window)
      (readEntity table name cursor) := by
  rw [readEntityGuarded, readEntity, hFollows.ahead_eq, ok_bind]
  refine (guardedSize_tracks table name cursor.rest).bind ?_
  rintro _ size ⟨rfl, hSize⟩
  refine (take_tracks table name size hFollows).followed ?_
  rintro ⟨bytes, place⟩ ⟨bytes', next⟩ ⟨hAgrees, hPosition, -⟩
  cases hAgrees.same
  have hWide :=
    ((readSize_yields table name cursor.rest).returned _
      hSize).1
  have hPassed :
      0 + 1 + window.position ≤ next.position := by
    dsimp only at hPosition
    unfold sizeWidth at hWide
    omega
  rcases hFollows.pay hAgrees.follows hAgrees.leads hPassed
    with ⟨paid, hPay, hPaid, hLeads⟩
  dsimp only
  rw [hPay]
  exact ⟨_, rfl, rfl, hPaid, hLeads⟩

/-
  The fields that a guarded reader sees from a window are what
  a reader finds, and the elements in them were paid for.
-/
structure AgreesOnFields
    (window : Window)
    (found : List ReadField)
    (seen : List ReadField × Window) : Prop where
  same : seen.1 = found
  leads :
    window.Leads seen.2
      (Value.elementsOfRow (found.map (·.value)))
  inside : seen.2.position ≤ window.bytes.length

/- The window of a table shows where its fields start. -/
theorem follows_start
    {buffer : Bytes}
    {size budget : Nat}
    (hSize : readSize table name buffer = .ok size)
    (hFunded : size ≤ budget + sizeWidth) :
    Follows {
      bytes := buffer.take size
      position := sizeWidth
      budget := budget } (.start size buffer) := by
  rcases (readSize_yields table name buffer).returned _ hSize
    with ⟨hWide, hEnough, hDeclared⟩
  have hLength : (buffer.take size).length = size :=
    List.length_take_of_le hEnough
  have hShort :=
    (isEntity_take hWide hEnough hDeclared).length_lt
  refine ⟨rfl, rfl, ?_, hShort, ?_⟩
  · rw [hLength]
    exact hWide
  · rw [hLength]
    exact hFunded

/- A nested table is wider than all the elements in it. -/
theorem readNested_tracks
    {guardedRead :
      Window → Except Halt (List ReadField × Window)}
    {read : Cursor → Except TableError (List ReadField)}
    (hRead :
      ∀ {window cursor},
        Follows window cursor →
        Tracks window.AgreesOnFields (guardedRead window)
          (read cursor))
    (hFollows : window.Follows cursor) :
    Tracks
      (window.Agrees fun row => Value.elementsOfRow row + 1)
      (readNestedGuarded table guardedRead window)
      (readNested table read cursor) := by
  rw [readNestedGuarded, readNested, hFollows.ahead_eq, ok_bind]
  refine (guardedSize_tracks table "size" cursor.rest).bind ?_
  rintro _ size ⟨rfl, hSize⟩
  rcases (readSize_yields table "size" cursor.rest).returned _
    hSize with ⟨hWide, hEnough, -⟩
  have hLength : (cursor.rest.take size).length = size :=
    List.length_take_of_le hEnough
  have hStop :
      window.position + size ≤ window.bytes.length := by
    have hPlace := hFollows.inside
    have hRemaining := hFollows.remaining_eq
    unfold remaining at hRemaining
    omega
  have hFunded : size ≤ window.budget + sizeWidth := by
    have hBytes := hFollows.funded
    omega
  rw [guardedSlice_eq_ok (Nat.zero_le size) hEnough,
    List.drop_zero, ok_bind]
  refine (hRead
    (follows_start table "size" hSize hFunded)).bind ?_
  rintro _ ⟨fields, last⟩ ⟨rfl, hFields, hInside⟩
  -- The elements lie behind the size prefix of the table, so
  -- the table itself can be paid for as well.
  rcases hFields with ⟨-, hPaid, hPassed⟩
  dsimp only at hPaid hPassed hInside ⊢
  rw [hLength] at hInside
  unfold sizeWidth at hPassed
  rw [hFollows.guardedWord_eq_ok hStop, ok_bind,
    moveTo_eq_ok hStop, ok_bind]
  have hLeads :
      window.Leads
        { window with
          position := window.position + size
          budget := last.budget }
        (Value.elementsOfRow (fields.map (·.value))) := by
    refine ⟨rfl, hPaid, ?_⟩
    dsimp only
    omega
  have hNext := hFollows.moved hLeads hStop
  rw [Nat.add_sub_cancel_left] at hNext
  have hMore :
      Value.elementsOfRow (fields.map (·.value)) + 1 +
          window.position ≤
        window.position + size := by
    omega
  rcases hFollows.pay hNext hLeads hMore with
    ⟨paid, hPay, hPaid, hLeads⟩
  rw [hPay, hFollows.position_eq]
  exact .ok ⟨rfl, hPaid, hLeads⟩

/- An array has elements no narrower than a byte, or fails. -/
theorem readArray_tracks
    (width : Nat)
    (hFollows : window.Follows cursor) :
    Tracks (window.Agrees Value.elements)
      (readArrayGuarded table name width window)
      ((FieldKind.array width).read table name cursor) := by
  rw [readArrayGuarded, FieldKind.read]
  by_cases hWidth : width = 0
  · rw [if_pos hWidth, if_pos hWidth]
    rfl
  rw [if_neg hWidth, if_neg hWidth]
  refine (count_tracks table name width hFollows).bind ?_
  rintro ⟨_, place⟩ ⟨n, next⟩ ⟨⟨rfl, hNext, hLeads⟩, hEnough⟩
  have hFits : n * width ≤ next.bytes.length :=
    Nat.le_trans hEnough (Nat.sub_le _ _)
  dsimp only at hNext ⊢
  rw [hNext.guardedWord_eq_ok hFits, ok_bind]
  refine (take_tracks table name (n * width) hNext).bind ?_
  rintro ⟨_, place'⟩ ⟨bytes, last⟩
    ⟨⟨rfl, hLast, hMore⟩, hPosition, -⟩
  have hPassed :
      0 + 0 + n + window.position ≤ last.position := by
    have hBefore := hLeads.passed
    have hWide : n ≤ n * width :=
      Nat.le_mul_of_pos_right n (Nat.pos_of_ne_zero hWidth)
    dsimp only at hPosition hBefore
    omega
  rcases hFollows.pay hLast (hLeads.trans hMore) hPassed with
    ⟨paid, hPay, hPaid, hAll⟩
  dsimp only
  rw [guarded_eq_ok hWidth, ok_bind, hPay]
  rw [Nat.zero_add] at hAll
  refine .ok ⟨rfl, hPaid, ?_⟩
  rw [Value.elements, Bytes.length_chunks]
  exact hAll

/- More bytes are left than there are sizes among them. -/
theorem le_of_mul_sizeWidth_le
    {n bound : Nat}
    (hEnough : n * sizeWidth ≤ bound) :
    n ≤ bound :=
  Nat.le_trans (Nat.le_mul_of_pos_right n (by decide)) hEnough

end Window

------------------------------------------------------------
-- Fields
------------------------------------------------------------

mutual

/-
  Whether room can be made for the default of a kind, down to
  the fields of nested tables.
-/
def FieldKind.isNarrow : FieldKind → Bool
  | .fixed width => width < 0x100000000
  | .tables fields => areNarrow fields
  | _ => true
  termination_by structural kind => kind

/- Whether room can be made for the defaults of all fields. -/
def areNarrow : List Field → Bool
  | [] => true
  | ⟨_, kind⟩ :: fields => kind.isNarrow && areNarrow fields
  termination_by structural fields => fields

end

/- Room can be made for the default of a narrow kind. -/
theorem FieldKind.fixedWidth_le_maxRoom
    {kind : FieldKind}
    (hNarrow : kind.isNarrow) :
    kind.fixedWidth.getD 0 ≤ maxRoom := by
  have hRoom : 0x100000000 ≤ maxRoom := by
    decide
  cases kind with
  | fixed width =>
      rw [isNarrow, decide_eq_true_eq] at hNarrow
      exact Nat.le_trans (Nat.le_of_lt hNarrow) hRoom
  | array width => exact Nat.zero_le _
  | tables fields => exact Nat.zero_le _
  | _ => decide

section

open Window

mutual

/- A field is read guardedly as it is read. -/
theorem FieldKind.readGuarded_tracks
    (table name : String)
    (kind : FieldKind)
    (hNarrow : kind.isNarrow)
    {window : Window}
    {cursor : Cursor}
    (hFollows : window.Follows cursor) :
    Tracks (window.Agrees Value.elements)
      (kind.readGuarded table name window)
      (kind.read table name cursor) := by
  match kind with
  | .u8 =>
      refine (number_tracks table name 1 hFollows).bind ?_
      rintro ⟨_, place⟩ ⟨n, next⟩ ⟨⟨rfl, hNext, hLeads⟩, -⟩
      exact .ok ⟨rfl, hNext, hLeads⟩
  | .u16 =>
      refine (number_tracks table name 2 hFollows).bind ?_
      rintro ⟨_, place⟩ ⟨n, next⟩ ⟨⟨rfl, hNext, hLeads⟩, -⟩
      exact .ok ⟨rfl, hNext, hLeads⟩
  | .u32 =>
      refine (number_tracks table name 4 hFollows).bind ?_
      rintro ⟨_, place⟩ ⟨n, next⟩ ⟨⟨rfl, hNext, hLeads⟩, -⟩
      exact .ok ⟨rfl, hNext, hLeads⟩
  | .u64 =>
      refine (number_tracks table name 4 hFollows).bind ?_
      rintro ⟨_, place⟩ ⟨low, next⟩ ⟨⟨rfl, hNext, hLeads⟩, -⟩
      refine (number_tracks table name 4 hNext).bind ?_
      rintro ⟨_, place'⟩ ⟨high, last⟩ ⟨⟨rfl, hLast, hMore⟩, -⟩
      exact .ok ⟨rfl, hLast, hLeads.trans hMore⟩
  | .fixed width =>
      refine (take_tracks table name width hFollows).bind ?_
      rintro ⟨_, place⟩ ⟨bytes, next⟩ ⟨⟨rfl, hNext, hLeads⟩, -⟩
      exact .ok ⟨rfl, hNext, hLeads⟩
  | .bytes =>
      refine (count_tracks table name 1 hFollows).bind ?_
      rintro ⟨_, place⟩ ⟨n, next⟩ ⟨⟨rfl, hNext, hLeads⟩, -⟩
      refine (take_tracks table name n hNext).bind ?_
      rintro ⟨_, place'⟩ ⟨bytes, last⟩ ⟨⟨rfl, hLast, hMore⟩, -⟩
      exact .ok ⟨rfl, hLast, hLeads.trans hMore⟩
  | .array width =>
      rw [FieldKind.readGuarded]
      exact readArray_tracks table name width hFollows
  | .tables fields =>
      refine (count_tracks table name sizeWidth
        hFollows).bind ?_
      rintro ⟨_, place⟩ ⟨n, next⟩
        ⟨⟨rfl, hNext, hLeads⟩, hEnough⟩
      have hNested {window : Window} {cursor : Cursor}
          (hFollows : window.Follows cursor) :=
        readNested_tracks name
          (readFieldsGuarded_tracks name fields hNarrow)
          hFollows
      dsimp only
      rw [guarded_eq_ok (le_of_mul_sizeWidth_le hEnough),
        ok_bind]
      refine (times_tracks hNested n hNext).bind ?_
      rintro ⟨_, place'⟩ ⟨rows, last⟩ ⟨rfl, hLast, hMore⟩
      refine .ok ⟨rfl, hLast, ?_⟩
      rw [Value.elements, Value.elementsOfRows_eq_sum,
        ← Nat.zero_add (List.sum _)]
      exact hLeads.trans hMore
  | .entities =>
      refine (count_tracks table name sizeWidth
        hFollows).bind ?_
      rintro ⟨_, place⟩ ⟨n, next⟩
        ⟨⟨rfl, hNext, hLeads⟩, hEnough⟩
      dsimp only
      rw [guarded_eq_ok (le_of_mul_sizeWidth_le hEnough),
        ok_bind]
      refine (times_tracks (readEntity_tracks table name) n
        hNext).bind ?_
      rintro ⟨_, place'⟩ ⟨items, last⟩ ⟨rfl, hLast, hMore⟩
      refine .ok ⟨rfl, hLast, ?_⟩
      rw [List.map_const', List.sum_replicate_nat,
        Nat.mul_one] at hMore
      rw [Value.elements, ← Nat.zero_add items.length]
      exact hLeads.trans hMore
  termination_by structural kind

/- So are the fields of a table. -/
theorem readFieldsGuarded_tracks
    (table : String)
    (fields : List Field)
    (hNarrow : areNarrow fields)
    {window : Window}
    {cursor : Cursor}
    (hFollows : window.Follows cursor) :
    Tracks window.AgreesOnFields
      (readFieldsGuarded table fields window)
      (readFields table fields cursor) := by
  match fields with
  | [] =>
      exact .ok ⟨rfl, .refl window, hFollows.inside⟩
  | ⟨name, kind⟩ :: fields =>
      rw [areNarrow, Bool.and_eq_true] at hNarrow
      have hRest {window : Window} {cursor : Cursor}
          (hFollows : window.Follows cursor) :=
        readFieldsGuarded_tracks table fields hNarrow.2 hFollows
      rw [readFieldsGuarded, readFields]
      by_cases hEnd : window.bytes.length ≤ window.position
      · have hRoom :=
          FieldKind.fixedWidth_le_maxRoom hNarrow.1
        rw [if_pos hEnd, if_pos (hFollows.isEmpty_iff.mpr hEnd),
          guarded_eq_ok hRoom, ok_bind]
        refine (hRest hFollows).bind ?_
        rintro _ ⟨found, last⟩ ⟨rfl, hLeads, hInside⟩
        refine .ok ⟨rfl, ?_, hInside⟩
        rw [List.map_cons, Value.elementsOfRow,
          FieldKind.elements_default, Nat.zero_add]
        exact hLeads
      · rw [if_neg hEnd,
          if_neg (mt hFollows.isEmpty_iff.mp hEnd)]
        refine (FieldKind.readGuarded_tracks table name kind
          hNarrow.1 hFollows).bind ?_
        rintro ⟨_, place⟩ ⟨value, next⟩ ⟨rfl, hNext, hLeads⟩
        refine (hRest hNext).bind ?_
        rintro _ ⟨found, last⟩ ⟨rfl, hMore, hInside⟩
        refine .ok ⟨?_, hLeads.trans hMore, ?_⟩
        · rw [hFollows.position_eq]
        · rw [← hLeads.bytes_eq]
          exact hInside
  termination_by structural fields

end

end

/- A guarded reader comes to what a reader does. -/
theorem readTableGuarded_tracks
    (layout : Layout)
    (buffer : Bytes)
    (hNarrow : areNarrow layout.fields) :
    Tracks
      (fun found seen =>
        seen = found ∧ found.elements ≤ found.size ∧
          found.size ≤ buffer.length)
      (readTableGuarded layout buffer)
      (readTable layout buffer) := by
  refine (guardedSize_tracks layout.name "size" buffer).bind ?_
  rintro _ size ⟨rfl, hSize⟩
  have hEnough :=
    ((readSize_yields layout.name "size" buffer).returned _
      hSize).2.1
  have hStart :=
    Window.follows_start layout.name "size" hSize
      (Nat.le_add_right size sizeWidth)
  rw [guardedSlice_eq_ok (Nat.zero_le size) hEnough,
    List.drop_zero, ok_bind]
  refine (readFieldsGuarded_tracks layout.name layout.fields
    hNarrow hStart).bind ?_
  rintro _ ⟨found, last⟩ ⟨rfl, hLeads, -⟩
  refine .ok ⟨rfl, ?_, hEnough⟩
  -- All that was paid for came out of the size.
  rw [show size = last.budget + _ from hLeads.paid]
  exact Nat.le_add_left _ _

/-
  Reading stays within bounds.  The guarded reader comes to
  what the reader does, so no slice is out of range, nothing
  leaves 64 bits, no place passes the end of its table, and no
  more items are produced than the table declares bytes, not
  even by a reader that fails.  It fails on malformed buffers
  and exactly where it comes to an array without width.
-/
theorem readTable_within_bounds
    (layout : Layout)
    (buffer : Bytes)
    (hNarrow : areNarrow layout.fields) :
    readTableGuarded layout buffer =
      (readTable layout buffer).mapError .refused ∧
    (∀ fault,
      readTableGuarded layout buffer ≠
        .error (.fault fault)) ∧
    (∀ cause,
      readTable layout buffer = .error cause →
      cause.IsMalformed ∨
        ∃ table field, cause = .zeroWidth table field) ∧
    (∀ table field,
      readTable layout buffer =
          .error (.zeroWidth table field) ↔
        layout.ReachesZeroWidth buffer table field) ∧
    ∀ table,
      readTable layout buffer = .ok table →
      table.elements ≤ table.size ∧
        table.size ≤ buffer.length := by
  have hTracks :=
    readTableGuarded_tracks layout buffer hNarrow
  have hSame :
      readTableGuarded layout buffer =
        (readTable layout buffer).mapError .refused :=
    (hTracks.imp fun _ _ hBoth => hBoth.1).eq_mapError
  refine ⟨hSame, ?_, ?_, ?_, ?_⟩
  · intro fault hFault
    rw [hSame, mapError_eq_error_iff] at hFault
    rcases hFault with ⟨cause, -, ⟨⟩⟩
  · intro cause hError
    rcases readTable_error hError with
      hMalformed | ⟨table, field, hCause, -⟩
    · exact .inl hMalformed
    · exact .inr ⟨table, field, hCause⟩
  · exact fun table field => readTable_eq_zeroWidth_iff
  · intro table hRead
    rw [hRead] at hTracks
    rcases hTracks with ⟨_, -, -, hElements⟩
    exact hElements

/-
  A row ends before an array without width, and holds an array
  of two elements before it.  One byte more, and the reader of
  the row comes to the array without width.
-/
theorem readTable_within_bounds_nested :
    let layout : Layout := .table "Order" [
      ⟨"rows", .tables [
        ⟨"items", .array 2⟩,
        ⟨"none", .array 0⟩]⟩]
    let buffer : Bytes :=
      [20, 0, 0, 0, 1, 0, 0, 0] ++
        [12, 0, 0, 0, 2, 0, 0, 0, 1, 2, 3, 4]
    let longer : Bytes :=
      [21, 0, 0, 0, 1, 0, 0, 0] ++
        [13, 0, 0, 0, 2, 0, 0, 0, 1, 2, 3, 4, 5]
    let table : DecodedTable := {
      layout := layout
      fields :=
        [⟨.tables [[.array [[1, 2], [3, 4]], .array []]],
          some 4⟩]
      size := 20 }
    areNarrow layout.fields ∧
    readTable layout buffer = .ok table ∧
    table.elements = 3 ∧
    table.elements ≤ table.size ∧
    table.size ≤ buffer.length ∧
    layout.ReachesZeroWidth longer "rows" "none" := by
  intro layout buffer longer table
  have hNarrow : areNarrow layout.fields := by
    decide
  have hRead : readTable layout buffer = .ok table := rfl
  rcases readTable_within_bounds layout buffer hNarrow with
    ⟨-, -, -, -, hBounds⟩
  rcases readTable_within_bounds layout longer hNarrow with
    ⟨-, -, -, hReaches, -⟩
  exact ⟨hNarrow, hRead, rfl, (hBounds table hRead).1,
    (hBounds table hRead).2,
    (hReaches "rows" "none").mp rfl⟩

end DriveMarket
