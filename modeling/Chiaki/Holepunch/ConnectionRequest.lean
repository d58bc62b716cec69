import Chiaki.Common

/-!
# Connection requests

The candidates of `holepunch.c` and the request they are part of. An array of the C program is a vector.
-/

namespace Chiaki.Holepunch

/-- `CandidateType`. -/
inductive CandidateType where
  | static | «local» | stun | derived
  deriving DecidableEq

abbrev inet6Addrstrlen : Nat := 46

structure Candidate where
  type : CandidateType
  addr : Vector UInt8 inet6Addrstrlen
  addrMapped : Vector UInt8 inet6Addrstrlen
  port : UInt16
  portMapped : UInt16
  deriving DecidableEq

/-- `ConnectionRequest`, with its candidates in a list. -/
structure ConnectionRequest where
  sid : UInt32
  peerSid : UInt32
  skey : Vector UInt8 16
  natType : UInt8
  candidates : List Candidate
  defaultRouteMacAddr : Vector UInt8 6
  localHashedId : Vector UInt8 20
  deriving DecidableEq

/-- `memcpy` to the front of an array that is large enough. -/
def memcpy {n : Nat} (array : Vector UInt8 n) (data : Bytes) : Vector UInt8 n :=
  Vector.ofFn fun i => data.getD i array[i]

end Chiaki.Holepunch
