/-!
# The call stack

Sixteen slots for return addresses, of which the first `depth` are in use. A slot keeps
its value when the call it belongs to has returned, until the next call takes it. `toList`
is the stack as a program sees it: the addresses in use, oldest first.
-/

namespace Chip8

/-- The return addresses of the calls that have not returned. -/
structure CallStack where
  slots : Vector UInt16 16
  depth : Fin 17
deriving DecidableEq

namespace CallStack

def capacity : Nat := 16

/-- The stack with no call on it and zero in every slot. -/
def empty : CallStack := ⟨Vector.replicate 16 0, 0⟩

def isFull (s : CallStack) : Bool := s.depth.val == 16

def isEmpty (s : CallStack) : Bool := s.depth.val == 0

/-- The addresses in use, oldest first. -/
def toList (s : CallStack) : List UInt16 := s.slots.toList.take s.depth.val

/-- The most recent address in use. -/
def top? (s : CallStack) : Option UInt16 :=
  if h : 0 < s.depth.val then some (s.slots[s.depth.val - 1]) else none

/-- Takes the next slot for an address. A full stack stays as it is. -/
def push (s : CallStack) (a : UInt16) : CallStack :=
  if h : s.depth.val < 16 then ⟨s.slots.set s.depth.val a h, ⟨s.depth.val + 1, by omega⟩⟩
  else s

/-- Gives the most recent slot back. An empty stack stays as it is. -/
def pop (s : CallStack) : CallStack := ⟨s.slots, ⟨s.depth.val - 1, by omega⟩⟩

theorem isFull_eq_false_iff (s : CallStack) : s.isFull = false ↔ s.depth.val < 16 := by
  simp only [isFull, beq_eq_false_iff_ne]
  omega

theorem push_of_isFull {s : CallStack} (a : UInt16) (h : s.isFull = true) : s.push a = s := by
  have hdepth : s.depth.val = 16 := by simpa [isFull] using h
  rw [push, dif_neg (by omega)]

theorem pop_of_isEmpty {s : CallStack} (h : s.isEmpty = true) : s.pop = s := by
  have hdepth : s.depth.val = 0 := by simpa [isEmpty] using h
  show CallStack.mk s.slots _ = CallStack.mk s.slots s.depth
  congr 1
  apply Fin.ext
  show s.depth.val - 1 = s.depth.val
  omega

theorem top?_eq_none_iff (s : CallStack) : s.top? = none ↔ s.isEmpty = true := by
  unfold top? isEmpty
  split <;> simp <;> omega

theorem top?_of_isEmpty {s : CallStack} (h : s.isEmpty = false) :
    s.top? = some s.slots[s.depth.val - 1] := by
  refine dif_pos ?_
  simp only [isEmpty, beq_eq_false_iff_ne] at h
  omega

@[simp]
theorem length_toList (s : CallStack) : s.toList.length = s.depth.val := by
  simp only [toList, List.length_take, Vector.length_toList]
  omega

/-- A call goes on top of the calls in use. -/
theorem toList_push (s : CallStack) (a : UInt16) (h : s.isFull = false) :
    (s.push a).toList = s.toList ++ [a] := by
  rw [isFull_eq_false_iff] at h
  simp only [push, h, dif_pos, toList]
  rw [List.take_add_one, Vector.toList_set, List.take_set_of_le (Nat.le_refl _)]
  simp [h]

/-- A return leaves all calls but the most recent one. -/
theorem toList_pop (s : CallStack) : s.pop.toList = s.toList.dropLast := by
  rw [List.dropLast_eq_take, length_toList]
  simp only [pop, toList, List.take_take]
  rw [Nat.min_eq_left (Nat.sub_le _ _)]

/-- A call takes one slot and writes no other. -/
theorem slots_push (s : CallStack) (a : UInt16) (h : s.isFull = false) :
    (s.push a).depth.val = s.depth.val + 1
      ∧ ∀ k : Fin 16,
        (s.push a).slots.get k = if k.val = s.depth.val then a else s.slots.get k := by
  rw [isFull_eq_false_iff] at h
  rw [push, dif_pos h]
  refine ⟨rfl, ?_⟩
  intro k
  show (s.slots.set s.depth.val a h)[k.val] = if k.val = s.depth.val then a else s.slots[k.val]
  rw [Vector.getElem_set]
  simp only [eq_comm]

/-- A return gives one slot back and writes none. -/
theorem slots_pop (s : CallStack) (h : s.isEmpty = false) :
    s.pop.depth.val + 1 = s.depth.val ∧ s.pop.slots = s.slots := by
  refine ⟨?_, rfl⟩
  simp only [isEmpty, beq_eq_false_iff_ne] at h
  show s.depth.val - 1 + 1 = s.depth.val
  omega

/-- The top is the most recent call in use. -/
theorem top?_eq_getLast? (s : CallStack) : s.top? = s.toList.getLast? := by
  rw [List.getLast?_eq_getElem?, length_toList, top?]
  split
  · simp only [toList, List.getElem?_take]
    rw [if_pos (by omega)]
    simp
  · rw [List.getElem?_eq_none (by rw [length_toList]; omega)]

end CallStack

end Chip8
