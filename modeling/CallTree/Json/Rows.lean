import CallTree.Json.Value.Tokens

/-!
# Rows of bytes

An array may have to be a row of so many bytes. Whether it has to, and of how many, depends on
where it stands in the outermost container (`Rows`).

A row is full when one more comma comes behind its last byte (`Progress.fullRow?`).
-/

namespace CallTree

namespace Json

/-- How many bytes the arrays must have that stand in the outermost container. -/
structure Rows where
  /-- For the items of an array, in their order. -/
  items : List (Option Nat)
  /-- For the members of an object, by name. -/
  member : Text → Option Nat

namespace Rows

/-- No array has to be a row of bytes. -/
def none : Rows := ⟨[], fun _ => .none⟩

/-- What is asked of the item behind those that are given. -/
def behind? : List (Option Nat) → List Value → Option Nat
  | [], _ => .none
  | length :: _, [] => length
  | _ :: lengths, _ :: done => behind? lengths done

/-- How many bytes the next value in an open container must have if it is an array. -/
def next? (rows : Rows) : Container → Option Nat
  | .array done => behind? rows.items done
  | .object _ name => rows.member name

theorem behind?_eq (lengths : List (Option Nat)) (done : List Value) :
    behind? lengths done = lengths[done.length]?.join := by
  induction lengths generalizing done with
  | nil => rfl
  | cons length lengths ih =>
    cases done with
    | nil => rfl
    | cons v done => exact ih done

end Rows

/-- What has been read once the row is closed in which one item more would come, if that row is
full. -/
def Progress.fullRow? (rows : Rows) : Progress → Option Progress
  | .value [.array items, outer] =>
    match rows.next? outer with
    | some length =>
      if items.length = length then some (.complete [outer] (.array items.reverse)) else none
    | none => none
  | _ => none

/-- The array is not longer than a row of the given length. -/
def Value.Fits (length : Option Nat) : Value → Prop
  | .array items => ∀ n, length = some n → items.length ≤ n
  | _ => True

/-- No array in the value is longer than its place allows. -/
def Value.FitsRows (rows : Rows) : Value → Prop
  | .array items =>
    ∀ (index : Nat) (item : Value), items[index]? = some item → item.Fits rows.items[index]?.join
  | .object members => ∀ member ∈ members, member.2.Fits (rows.member member.1)
  | _ => True

theorem Value.fits_none (v : Value) : v.Fits none := by
  cases v
  case array => exact fun _ h => by cases h
  all_goals trivial

theorem Value.fitsRows_none (v : Value) : v.FitsRows Rows.none := by
  cases v
  case array items =>
    intro _ item _
    exact item.fits_none
  case object members =>
    intro member _
    exact member.2.fits_none
  all_goals trivial

end Json

end CallTree
