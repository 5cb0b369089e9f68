import Mathlib.Algebra.Ring.Nat
import Mathlib.Data.List.Basic
/-!
# Cbor — data items of CBOR as bytes

An item is a head, its major type with an argument in the shortest form, and its content.  Lengths are definite.
-/
namespace Cbor

/-- The last `width` bytes of `n`, the highest first. -/
def beBytes : Nat → Nat → List UInt8
  | 0, _         => []
  | width + 1, n => UInt8.ofNat (n / 256 ^ width) :: beBytes width n

def head (major : UInt8) (n : Nat) : List UInt8 :=
  if n < 24 then [32 * major + UInt8.ofNat n]
  else if n < 256 then (32 * major + 24) :: beBytes 1 n
  else if n < 65536 then (32 * major + 25) :: beBytes 2 n
  else if n < 4294967296 then (32 * major + 26) :: beBytes 4 n
  else (32 * major + 27) :: beBytes 8 n

def unsigned (n : Nat) : List UInt8 := head 0 n

def bytes (content : List UInt8) : List UInt8 := head 2 content.length ++ content

def text (utf8 : List UInt8) : List UInt8 := head 3 utf8.length ++ utf8

def array (items : List (List UInt8)) : List UInt8 := head 4 items.length ++ items.flatten

def map (entries : List (List UInt8 × List UInt8)) : List UInt8 :=
  head 5 entries.length ++ (entries.map (fun (k, v) => k ++ v)).flatten

def bool (b : Bool) : List UInt8 := [if b then 0xf5 else 0xf4]

def null : List UInt8 := [0xf6]

end Cbor
