import RegisterMachine.Fault
import RegisterMachine.Value.Codec

namespace RegisterMachine

/-- Where printed lines go. A sink may have room for a limited number of bytes, and it may be
unable to pass on what it has taken. -/
structure Sink where
  bytes : Array UInt8 := #[]
  limit : Option Nat := none
  flushFails : Bool := false
  deriving DecidableEq, Repr

namespace Sink

/-- The bytes of a line with its line feed. -/
def lineBytes (line : String) : List UInt8 := Codec.utf8 (line ++ "\n")

/-- Prints a line. Of a line that does not fit, the part that does is kept. -/
def writeLine (line : String) : EStateM Fault Sink Unit := fun s =>
  let bytes := lineBytes line
  let room := (s.limit.map (· - s.bytes.size)).getD bytes.length
  let s' := { s with bytes := s.bytes ++ (bytes.take room).toArray }
  if room < bytes.length then .error (.output "sink full") s'
  else if s.flushFails then .error (.output "flush failed") s'
  else .ok () s'

end Sink

end RegisterMachine
