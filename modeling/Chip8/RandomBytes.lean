/-!
# Random bytes

`RandomBytes` is an endless sequence of bytes of which a number has been used. There are two
kinds: a list of bytes that starts over at its end, and the bytes of a seeded generator that
mixes a 64-bit counter by a 128-bit product.
-/

namespace Chip8

/-- An endless sequence of bytes and the number of those already used. -/
structure RandomBytes where
  byteAt : Nat → UInt8
  used : Nat := 0

namespace RandomBytes

def peek (s : RandomBytes) : UInt8 := s.byteAt s.used

def skip (s : RandomBytes) (count : Nat) : RandomBytes := { s with used := s.used + count }

/-- The next `count` bytes. -/
def take (s : RandomBytes) (count : Nat) : List UInt8 :=
  (List.range count).map fun j => s.byteAt (s.used + j)

/-- Repeats a list of bytes; an empty list stands for zeros. -/
def cycle (bytes : Array UInt8) : RandomBytes where
  byteAt j := bytes.getD (j % bytes.size) 0

/-- What the generator's counter grows by for every eight bytes. -/
def stride : UInt64 := 0xa0761d6478bd642f

/-- What the counter is mixed with. -/
def mask : UInt64 := 0xe7037ed1a0b428db

/-- The exclusive or of the two halves of the 128-bit product of a counter and its masked
value. -/
def mix (counter : UInt64) : UInt64 :=
  let product := counter.toNat * (counter ^^^ mask).toNat
  UInt64.ofNat (product >>> 64) ^^^ UInt64.ofNat product

/-- The generator of a seed. The counter starts at the seed and is moved before each mix;
every mixed counter gives eight bytes, the least significant one first. -/
def ofSeed (seed : UInt64) : RandomBytes where
  byteAt j :=
    UInt8.ofNat ((mix (seed + stride * UInt64.ofNat (j / 8 + 1))).toNat >>> (8 * (j % 8)))

end RandomBytes

end Chip8
