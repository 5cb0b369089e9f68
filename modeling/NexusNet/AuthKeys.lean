import Mathlib.Data.String.Basic
/-!
# AuthKeys — names and DHT key paths

Network and service names (`auth.rs`): what is accepted, the reserved name, and the key paths built from them.
-/
namespace NexusNet

abbrev Bytes := List UInt8

/-- The bytes of a Rust `&str`. -/
def strBytes (s : String) : Bytes := s.toByteArray.data.toList

theorem strBytes_injective : Function.Injective strBytes := fun _ _ h =>
  String.toByteArray_inj.1 (ByteArray.ext (Array.toList_inj.1 h))

theorem map_toNat_injective : Function.Injective (List.map UInt8.toNat) :=
  List.map_injective_iff.2 (fun _ _ => UInt8.toNat_inj.1)

namespace Auth

/-- `RESERVED_SERVICE`: the last segment of the index key. -/
def reservedService : String := "service"

def authPrefix : String := "/oahd/auth"

def isAsciiAlphanumeric (b : UInt8) : Bool :=
  (decide (48 ≤ b) && decide (b ≤ 57)) || (decide (65 ≤ b) && decide (b ≤ 90)) || (decide (97 ≤ b) && decide (b ≤ 122))

/-- Network name: non-empty, at most 64 bytes, `[A-Za-z0-9_-]`. -/
def isValidNetworkName (s : String) : Bool :=
  !(strBytes s).isEmpty && decide ((strBytes s).length ≤ 64) &&
    (strBytes s).all (fun b => isAsciiAlphanumeric b || b == 95 || b == 45)

/-- Service name: the rule of network names, and not the reserved name. -/
def isValidServiceName (s : String) : Bool := isValidNetworkName s && s != reservedService

end Auth
end NexusNet
