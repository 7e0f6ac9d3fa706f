import Chip8.Machine

/-!
# Programs from a device

A device delivers a program in pieces, and a delivery can fail. A failure by interruption
is no failure, the next delivery goes on; an empty piece or the last delivery is the end
of the program. One byte more than the largest program is enough to see that a program is
too large, so no more is taken, and what would have come after it does not matter.
-/

namespace Chip8

/-- What a device hands over at a time. -/
inductive Delivery where
  | piece (bytes : List UInt8)
  | failure (reason : ReadFailure)
deriving DecidableEq

/-- Whether a failure only asks to try again. -/
def ReadFailure.isInterruption (failure : ReadFailure) : Bool := failure.kind == "Interrupted"

namespace Delivery

/-- The bytes taken from a device, `limit` at most, and the failure that ended the
delivery. -/
def collect (limit : Nat) (deliveries : List Delivery) : List UInt8 × Option ReadFailure :=
  match limit, deliveries with
  | 0, _ => ([], none)
  | _, [] => ([], none)
  | _, .piece [] :: _ => ([], none)
  | limit + 1, .piece bytes :: rest =>
    let taken := bytes.take (limit + 1)
    let (more, failure?) := collect (limit + 1 - taken.length) rest
    (taken ++ more, failure?)
  | limit + 1, .failure reason :: rest =>
    if reason.isInterruption then collect (limit + 1) rest else ([], some reason)

end Delivery

/-- What came of loading from a device: the machine or why there is none, and the number
of bytes that were taken. -/
structure Reception where
  result : Except Error Machine
  consumed : Nat

/-- A machine with the program that a device delivers. -/
def Machine.ofDeliveries (random : RandomBytes) (deliveries : List Delivery) : Reception :=
  let (bytes, failure?) := Delivery.collect (Memory.programLimit + 1) deliveries
  let result :=
    match failure? with
    | some failure => .error (.readFailed failure)
    | none =>
      match (Machine.fresh random).load bytes with
      | (machine, none) => .ok machine
      | (_, some e) => .error e
  ⟨result, bytes.length⟩

end Chip8
