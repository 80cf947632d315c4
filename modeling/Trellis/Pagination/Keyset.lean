import Trellis.Core.Keyset
import Mathlib.Data.List.Sort
import Mathlib.Data.String.Basic
import Mathlib.Logic.Equiv.Nat

/-!
# Keyset pagination

`encode`, `decode` and `applyKeyset` of `cursor-pagination.service.ts`.  The database orders rows by
microseconds, and a cursor is made from a `Date`, which holds the milliseconds only.
-/

namespace Trellis.Pagination

open Core List

/-- `createdAt` in microseconds. -/
structure Row where
  createdAt : Int
  id : String
  deriving DecidableEq

inductive Direction where
  | asc | desc

/-- `createdAt` is the time of a `Date`, in milliseconds. -/
structure CursorPosition where
  createdAt : Int
  id : String

def uuidPattern : List (Char → Bool) :=
  let hex (c : Char) : Bool := c ∈ "0123456789abcdefABCDEF".toList
  let dash (c : Char) : Bool := c = '-'
  List.replicate 8 hex ++ dash :: List.replicate 4 hex ++
    dash :: (· ∈ "12345678".toList) :: List.replicate 3 hex ++
    dash :: (· ∈ "89abAB".toList) :: List.replicate 3 hex ++ dash :: List.replicate 12 hex

def assertPosition (position : CursorPosition) : Bool :=
  position.createdAt.natAbs ≤ 8640000000000000 ∧ position.id.toList.length = uuidPattern.length ∧
    (uuidPattern.zipWith (· ·) position.id.toList).all (·)

/-- The base64url text of the payload of a position, and the position that a text holds. -/
structure CursorCodec where
  write : CursorPosition → String
  read : String → Option CursorPosition
  read_empty : read "" = none
  read_write : ∀ position, assertPosition position = true → read (write position) = some position

def invalidCursor : String := "Invalid pagination cursor"

variable (codec : CursorCodec)

def encode (position : CursorPosition) : Except String String :=
  if assertPosition position then .ok (codec.write position) else .error invalidCursor

def decode (cursor : String) : Except String CursorPosition :=
  match codec.read cursor with
  | none => .error invalidCursor
  | some position => if assertPosition position then .ok position else .error invalidCursor

variable (rows : List Row) (direction : Direction)

/-- The row stands after a position in microseconds. -/
def Row.follows (createdAt : Int) (id : String) (row : Row) : Bool :=
  match direction with
  | .asc => row.createdAt > createdAt ∨ (row.createdAt = createdAt ∧ row.id > id)
  | .desc => row.createdAt < createdAt ∨ (row.createdAt = createdAt ∧ row.id < id)

def ordered (rows : List Row) : List Row :=
  rows.insertionSort fun a b => a = b ∨ b.follows direction a.createdAt a.id

def applyKeyset (cursor : Option String) (direction : Direction) : Except String (List Row) :=
  let cursor := cursor.getD ""
  if cursor = "" then .ok (ordered direction rows)
  else do
    let position ← decode codec cursor
    return (ordered direction rows).filter
      (·.follows direction (1000 * position.createdAt) position.id)

/-! ## The walk -/

def Row.position (row : Row) : CursorPosition :=
  ⟨row.createdAt / 1000, row.id⟩

def following (row : Row) : Option (List Row) :=
  ((encode codec row.position).bind fun cursor =>
    applyKeyset codec rows (some cursor) direction).toOption

def keysetWalk (size fuel : Nat) : Option (List Row) :=
  (applyKeyset codec rows none direction).toOption.bind
    (walk (following codec rows direction) size fuel)

/-- The cursor is accepted, and cutting its time to milliseconds moves it past no row. -/
def Row.Exact (row : Row) : Prop :=
  assertPosition row.position = true ∧ ∀ other ∈ rows,
    other.follows direction (1000 * (row.createdAt / 1000)) row.id =
      other.follows direction row.createdAt row.id

variable {codec : CursorCodec} {rows : List Row} {direction : Direction} {row : Row}

theorem following_eq_some {t : List Row} : following codec rows direction row = some t ↔
    assertPosition row.position = true ∧ (ordered direction rows).filter
      (·.follows direction (1000 * (row.createdAt / 1000)) row.id) = t := by
  by_cases hrow : assertPosition row.position = true
  · have hread := codec.read_write _ hrow
    have hne : codec.write row.position ≠ "" := by
      intro hempty
      rw [hempty, codec.read_empty] at hread
      cases hread
    have hencode : encode codec row.position = .ok (codec.write row.position) := if_pos hrow
    have hdecode : decode codec (codec.write row.position) = .ok row.position := by
      rw [decode, hread]
      exact if_pos hrow
    simp only [following, hencode, Except.bind, applyKeyset, Option.getD_some, hne, if_false,
      hdecode, hrow, true_and]
    exact Option.some_inj
  · rw [following, encode, if_neg hrow]
    exact ⟨nofun, fun h => absurd h.1 hrow⟩

theorem Row.follows_trans {a b : Row} {createdAt : Int} {id : String}
    (ha : a.follows direction createdAt id = true)
    (hb : b.follows direction a.createdAt a.id = true) :
    b.follows direction createdAt id = true := by
  cases direction <;>
  · simp only [Row.follows, decide_eq_true_eq] at ha hb ⊢
    rcases ha with ha | ⟨ha, ha'⟩ <;> rcases hb with hb | ⟨hb, hb'⟩
    · exact .inl (by omega)
    · exact .inl (by omega)
    · exact .inl (by omega)
    · exact .inr ⟨by omega, lt_trans ‹_› ‹_›⟩

theorem Row.follows_asymm (a b : Row) (h : b.follows direction a.createdAt a.id = true) :
    a.follows direction b.createdAt b.id = false := by
  rw [Bool.eq_false_iff]
  intro h'
  have hself := Row.follows_trans h h'
  cases direction <;> simp [Row.follows] at hself

theorem Row.follows_or (direction : Direction) (a b : Row) :
    (a = b ∨ b.follows direction a.createdAt a.id = true) ∨
      b = a ∨ a.follows direction b.createdAt b.id = true := by
  obtain ⟨time, id⟩ := a
  obtain ⟨time', id'⟩ := b
  cases direction <;>
  · simp only [Row.follows, decide_eq_true_eq, Row.mk.injEq]
    rcases lt_trichotomy time time' with h | h | h <;>
      rcases lt_trichotomy id id' with hid | hid | hid <;> simp [h, hid]

theorem ordered_pairwise (direction : Direction) (hrows : rows.Nodup) :
    (ordered direction rows).Pairwise fun a b =>
      b.follows direction a.createdAt a.id = true := by
  have : Std.Total fun a b : Row => a = b ∨ b.follows direction a.createdAt a.id = true :=
    ⟨Row.follows_or direction⟩
  have : IsTrans Row fun a b => a = b ∨ b.follows direction a.createdAt a.id = true := by
    refine ⟨fun a b c hab hbc => ?_⟩
    rcases hab with rfl | hab
    · exact hbc
    · rcases hbc with rfl | hbc
      · exact .inr hab
      · exact .inr (Row.follows_trans hab hbc)
  have hsorted := pairwise_insertionSort
    (fun a b : Row => a = b ∨ b.follows direction a.createdAt a.id = true) rows
  have hnodup : (ordered direction rows).Nodup :=
    (perm_insertionSort _ rows).nodup_iff.mpr hrows
  exact (hsorted.and hnodup).imp fun h => h.1.resolve_left h.2

theorem mem_ordered : row ∈ ordered direction rows ↔ row ∈ rows :=
  (perm_insertionSort _ rows).mem_iff

/-- A page end is followed by the remaining rows if and only if its cursor is exact. -/
theorem following_iff_exact (hrows : rows.Nodup) {i : Nat}
    (hi : i < (ordered direction rows).length) :
    following codec rows direction (ordered direction rows)[i] =
        some ((ordered direction rows).drop (i + 1)) ↔
      (ordered direction rows)[i].Exact rows direction := by
  have hsorted := ordered_pairwise direction hrows
  have hdrop := filter_eq_drop hsorted Row.follows_asymm hi
  rw [following_eq_some, ← hdrop]
  refine and_congr_right fun _ => ⟨fun hsame other hother => ?_, fun hexact => ?_⟩
  · have hmem : other ∈ ordered direction rows := mem_ordered.mpr hother
    have hiff : ∀ p : Row → Bool, other ∈ (ordered direction rows).filter p ↔ p other = true :=
      fun p => by rw [mem_filter, and_iff_right hmem]
    rw [Bool.eq_iff_iff, ← hiff, hsame, hiff]
  · exact filter_congr fun other hother => hexact other (mem_ordered.mp hother)

/-- A codec that writes a time as the length of a text. -/
def plainCodec : CursorCodec where
  write position := String.ofList
    (position.id.toList ++ List.replicate (Equiv.intEquivNat position.createdAt) 'x')
  read text := if text = "" then none else
    some ⟨Equiv.intEquivNat.symm (text.toList.length - 36), String.ofList (text.toList.take 36)⟩
  read_empty := rfl
  read_write position h := by
    have hid : position.id.toList.length = 36 := (of_decide_eq_true h).2.1
    rw [if_neg]
    · simp [hid]
    · intro hempty
      have hlength := congrArg (·.toList.length) hempty
      simp [hid] at hlength

def sampleRow (createdAt : Int) (digit : Char) : Row :=
  ⟨createdAt, "00000000-0000-4000-8000-00000000000" ++ digit.toString⟩

/-- Two rows of one millisecond. -/
def closeRows : List Row :=
  [sampleRow 1500 '0', sampleRow 1200 '1']

end Trellis.Pagination
