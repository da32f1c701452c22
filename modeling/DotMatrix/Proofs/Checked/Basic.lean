import Mathlib.Algebra.Group.Nat.Defs
import Mathlib.Algebra.Group.Int.Defs

/-!
# Arithmetic that checks itself

A program that is built with its checks turned on stops where an assertion fails, where a number
leaves the range of its type, and where an index is outside what it indexes. Computed here, a number
is exact and its range a condition: what is in range comes back as it is.
-/
namespace DotMatrix

/-- Why a program stops itself. -/
inductive Panic where
  | assertion
  | overflow
  | bounds
deriving DecidableEq, Repr

abbrev Checked (α : Type) := Except Panic α

namespace Checked

variable {α : Type}

def assert (condition : Bool) : Checked Unit := if condition then pure () else throw .assertion

/-- A number in an unsigned type of so many bits. -/
def unsigned (bits n : Nat) : Checked Nat := if n < 2 ^ bits then pure n else throw .overflow

/-- A number in a signed type of sixteen bits. -/
def signed16 (n : Int) : Checked Int :=
  if -2 ^ 15 ≤ n ∧ n < 2 ^ 15 then pure n else throw .overflow

/-- A difference in an unsigned type. -/
def minus (n m : Nat) : Checked Nat := if m ≤ n then pure (n - m) else throw .overflow

/-- How far a byte can be shifted. -/
def distance (bits : Nat) : Checked UInt8 :=
  if bits < 8 then pure (UInt8.ofNat bits) else throw .overflow

def get {n : Nat} (items : Vector α n) (i : Nat) : Checked α :=
  if h : i < n then pure items[i] else throw .bounds

def set {n : Nat} (items : Vector α n) (i : Nat) (item : α) : Checked (Vector α n) :=
  if h : i < n then pure (items.set i item) else throw .bounds

/-- Replaces what is from `start` up to `stop`, which has to be as long as the piece. -/
def copy {n k : Nat} (items : Vector α n) (start stop : Nat) (piece : Vector α k) :
    Checked (Vector α n) :=
  if h : start ≤ stop ∧ stop ≤ n ∧ stop - start = k then
    pure (Fin.foldl k (fun items x => items.set (start + x.val) piece[x] (by omega)) items)
  else throw .bounds

theorem assert_eq {condition : Bool} (h : condition = true) : assert condition = pure () :=
  if_pos h

theorem unsigned_eq {bits n : Nat} (h : n < 2 ^ bits) : unsigned bits n = pure n := if_pos h

theorem signed16_eq {n : Int} (low : -2 ^ 15 ≤ n) (high : n < 2 ^ 15) : signed16 n = pure n :=
  if_pos ⟨low, high⟩

theorem minus_eq {n m : Nat} (h : m ≤ n) : minus n m = pure (n - m) := if_pos h

theorem distance_eq {bits : Nat} (h : bits < 8) : distance bits = pure (UInt8.ofNat bits) :=
  if_pos h

theorem get_eq {n : Nat} (items : Vector α n) {i : Nat} (h : i < n) :
    get items i = pure items[i] :=
  dif_pos h

theorem set_eq {n : Nat} (items : Vector α n) {i : Nat} (h : i < n) (item : α) :
    set items i item = pure (items.set i item) :=
  dif_pos h

theorem copy_eq {n k : Nat} (items : Vector α n) {start stop : Nat} (piece : Vector α k)
    (h : start ≤ stop ∧ stop ≤ n ∧ stop - start = k) :
    copy items start stop piece =
      pure (Fin.foldl k (fun items x => items.set (start + x.val) piece[x] (by omega)) items) :=
  dif_pos h

end Checked

end DotMatrix
