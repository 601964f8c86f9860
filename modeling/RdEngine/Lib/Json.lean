/-
RdEngine/Lib/Json.lean

JSON values as a reader keeps them: an integer that fits 64 bits is kept as one, and
every other number as the double nearest to it, here by its exact value.  An object is
a list of members with its keys in order.
-/
import Mathlib.Algebra.Order.Ring.Nat
import Mathlib.Data.Rat.Defs

namespace Json

/-- A number as it is kept. -/
inductive Number where
  | posInt (n : UInt64)
  | negInt (n : Int64)
  | float (x : ℚ)
  deriving DecidableEq, Repr

namespace Number

/-- The exact value. -/
def toRat : Number → ℚ
  | posInt n => n.toNat
  | negInt n => n.toInt
  | float x => x

/-- Whether the double of the number has no fraction.  An integer keeps none when it is
rounded to a double. -/
def isWhole : Number → Bool
  | posInt _ | negInt _ => true
  | float x => x.den = 1

/-- The integer of a number that is kept as one, in 64 bits. -/
def asI64 : Number → Option Int64
  | posInt n => if n.toNat < 2 ^ 63 then some (Int64.ofNat n.toNat) else none
  | negInt n => some n
  | float _ => none

end Number

/-- A JSON value; an object is the list of its members. -/
inductive Value where
  | null
  | bool (b : Bool)
  | number (n : Number)
  | string (text : String)
  | array (values : List Value)
  | object (members : List (String × Value))

namespace Value

/-- The member of an object. -/
def get (key : String) : Value → Option Value
  | object members => members.lookup key
  | _ => none

def asStr : Value → Option String
  | string text => some text
  | _ => none

end Value

end Json
