import Chip8.Proofs.Surroundings
import Mathlib.Data.List.Forall2
import Mathlib.Logic.Function.Iterate

/-!
# Random bytes over a run

The words of family C take one random byte each, in order, and nothing else takes any
(`random_run`). So the bytes that a run takes tell all that chance has to do with it:
machines that differ in their sources alone stay the same for as long as the sources give
the same bytes (`sameButRandom_outcomes`). What is in registers and memory may come from
these bytes and decide which words come next, so the two runs are compared step by step.

A source may keep a state of its own (`RandomBytes.ofSource`). The one that reads a list
from a place and goes round at its end gives the bytes of the list over and over
(`ofSource_replay`).
-/

namespace Chip8

namespace RandomBytes

/-- The byte that is next when `j` more have been used. -/
def ahead (s : RandomBytes) (j : Nat) : UInt8 := s.byteAt (s.used + j)

theorem ahead_skip (s : RandomBytes) (count j : Nat) :
    (s.skip count).ahead j = s.ahead (count + j) := by
  simp only [ahead, skip, Nat.add_assoc]

theorem skip_skip (s : RandomBytes) (first second : Nat) :
    (s.skip first).skip second = s.skip (first + second) := by
  simp only [skip, Nat.add_assoc]

theorem ahead_cycle (bytes : Array UInt8) (j : Nat) :
    (cycle bytes).ahead j = bytes.getD (j % bytes.size) 0 := by
  show bytes.getD ((0 + j) % bytes.size) 0 = _
  rw [Nat.zero_add]

theorem ahead_cycle_of_size_eq_zero {bytes : Array UInt8} (h : bytes.size = 0) (j : Nat) :
    (cycle bytes).ahead j = 0 := by
  rw [ahead_cycle, Array.eq_empty_of_size_eq_zero h]
  rfl

/-! ## Sources -/

/-- The bytes of a source that goes from state to state, one for each byte. -/
def ofSource {σ : Type} (next : σ → UInt8 × σ) (start : σ) : RandomBytes where
  byteAt j := (next ((fun state => (next state).2)^[j] start)).1

/-- Reads a list of bytes at a place and moves on; after its end the list starts over. A
list without bytes gives zeros. -/
def replay (bytes : Array UInt8) (place : Nat) : UInt8 × Nat :=
  if bytes.size = 0 then (0, place) else (bytes.getD place 0, (place + 1) % bytes.size)

theorem place_replay (bytes : Array UInt8) (h : bytes.size ≠ 0) (j : Nat) :
    (fun place => (replay bytes place).2)^[j] 0 = j % bytes.size := by
  induction j with
  | zero => exact (Nat.zero_mod _).symm
  | succ j ih =>
    rw [Function.iterate_succ_apply', ih, replay, if_neg h]
    exact Nat.mod_add_mod j bytes.size 1

/-- Reading a list over and over gives its bytes at the remainders of their numbers. -/
theorem ofSource_replay (bytes : Array UInt8) : ofSource (replay bytes) 0 = cycle bytes := by
  have hbyte (j : Nat) : (ofSource (replay bytes) 0).byteAt j = (cycle bytes).byteAt j := by
    by_cases h : bytes.size = 0
    · have hempty : bytes = #[] := Array.eq_empty_of_size_eq_zero h
      subst hempty
      rfl
    · show (replay bytes _).1 = bytes.getD (j % bytes.size) 0
      rw [place_replay bytes h, replay, if_neg h]
  rw [ofSource, cycle, RandomBytes.mk.injEq]
  exact ⟨funext hbyte, rfl⟩

end RandomBytes

namespace Machine

/-- Whether an input is a step on a word that asks for a random byte. -/
def rolls (m : Machine) : Input → Bool
  | .step => m.fetch.family.val == 0xC
  | _ => false

/-- The number of random bytes asked for in a history. -/
def rollCount (moments : List (Machine × Input)) : Nat :=
  moments.countP fun (m, input) => m.rolls input

/-! ## One input -/

theorem performed?_eq_random_iff {m : Machine} {input : Input} {x : Nibble} {mask : UInt8} :
    m.performed? input = some (.random x mask)
      ↔ m.rolls input = true ∧ x = m.fetch.x ∧ mask = m.fetch.kk := by
  cases input with
  | step =>
    rw [performed?_step_eq_some_iff, next_eq_ok_iff, Instruction.decode?_eq_random_iff]
    have hfamily : m.fetch.family = 0xC ↔ m.fetch.family.val = 0xC := Fin.ext_iff
    simp [rolls, fault?, hfamily, -Word.val_family]
  | _ => simp [performed?, rolls]

/-- Such a step succeeds, also where the mask lets nothing of the byte through. -/
theorem performed?_of_rolls {m : Machine} {input : Input} (h : m.rolls input = true) :
    m.performed? input = some (.random m.fetch.x m.fetch.kk) :=
  performed?_eq_random_iff.mpr ⟨h, rfl, rfl⟩

theorem random_of_rolls {m : Machine} {input : Input} (h : m.rolls input = true) :
    (m.handle input).1.random = m.random.skip 1 := by
  rw [random_handle, performed?_of_rolls h]

theorem random_of_not_rolls {m : Machine} {input : Input} (h : m.rolls input = false) :
    (m.handle input).1.random = m.random := by
  rw [random_handle]
  split
  · rename_i hperformed
    rw [performed?_eq_random_iff, h] at hperformed
    cases hperformed.1
  · rfl

/-- A step that asks for a byte does not fail, so what fails has taken none. -/
theorem random_of_error {m : Machine} {input : Input} (h : (m.handle input).2 ≠ none) :
    (m.handle input).1.random = m.random := by
  apply random_of_not_rolls
  rw [Bool.eq_false_iff]
  intro hrolls
  obtain ⟨-, -, hhandle⟩ := handle_of_performed (performed?_of_rolls hrolls)
  rw [hhandle] at h
  exact h rfl

theorem step_of_rolls {m : Machine} (h : m.rolls .step = true) :
    m.step.2 = none ∧ m.step.1.reg m.fetch.x = m.random.peek &&& m.fetch.kk := by
  obtain ⟨-, hnext, -⟩ := handle_of_performed (performed?_of_rolls h)
  rw [step_of_ok hnext]
  refine ⟨rfl, ?_⟩
  show ({ m.advance with random := m.random.skip 1 }.setReg m.fetch.x
    (m.random.peek &&& m.fetch.kk)).reg m.fetch.x = _
  rw [reg_setReg, if_pos rfl]

/-! ## One run -/

theorem rollCount_cons (m : Machine) (input : Input) (moments : List (Machine × Input)) :
    rollCount ((m, input) :: moments)
      = (if m.rolls input then 1 else 0) + rollCount moments := by
  rw [rollCount, List.countP_cons, Nat.add_comm]
  rfl

theorem random_run (m : Machine) (inputs : List Input) :
    (m.run inputs).random = m.random.skip (rollCount (m.history inputs)) := by
  induction inputs generalizing m with
  | nil => rfl
  | cons input rest ih =>
    rw [run, ih, history, rollCount_cons]
    cases hrolls : m.rolls input with
    | true =>
      rw [random_of_rolls hrolls, RandomBytes.skip_skip]
      rfl
    | false =>
      rw [random_of_not_rolls hrolls, if_neg Bool.false_ne_true, Nat.zero_add]

/-! ## Two runs -/

/-- The same came of both: the same error or none, and machines that differ in their
sources of random bytes alone. -/
def SameButRandom (p q : Machine × Option Error) : Prop :=
  q.1 = { p.1 with random := q.1.random } ∧ p.2 = q.2

/-- An input does the same to a machine with another source if the next byte is the same,
or is not asked for. -/
theorem handle_with_random {m : Machine} {other : RandomBytes} {input : Input}
    (h : m.rolls input = true → other.peek = m.random.peek) :
    ({ m with random := other } : Machine).handle input
      = ({ (m.handle input).1 with random := if m.rolls input then other.skip 1 else other },
          (m.handle input).2) := by
  cases hkeys : input.movesKeys with
  | true =>
    cases input with
    | setKey key down => rfl
    | setKeys keys => rfl
    | _ => cases hkeys
  | false =>
    have hanswers : ∀ instruction, m.performed? input = some instruction →
        (Surroundings.mk m.keypad other).Answers m instruction := by
      intro instruction hperformed
      cases instruction with
      | skip condition => cases condition <;> trivial
      | random x mask => exact h (performed?_eq_random_iff.mp hperformed).1
      | _ => trivial
    have hafter : (Surroundings.mk m.keypad other).after (m.performed? input)
        = ⟨(m.handle input).1.keypad, if m.rolls input then other.skip 1 else other⟩ := by
      rw [keypad_handle hkeys]
      cases hrolls : m.rolls input with
      | true =>
        rw [performed?_of_rolls hrolls]
        rfl
      | false =>
        unfold Surroundings.after
        split
        · rename_i hperformed
          rw [performed?_eq_random_iff, hrolls] at hperformed
          cases hperformed.1
        · rfl
    have hhandle := handle_amid hkeys hanswers
    rw [hafter] at hhandle
    exact hhandle

/-- While the sources give the same bytes, chance does the same to both. -/
theorem sameButRandom_outcomes {m : Machine} {other : RandomBytes} {inputs : List Input}
    {count : Nat} (hbytes : ∀ j, j < count → other.ahead j = m.random.ahead j)
    (hcount : rollCount (m.history inputs) ≤ count) :
    List.Forall₂ SameButRandom (m.outcomes inputs)
      (({ m with random := other } : Machine).outcomes inputs) := by
  induction inputs generalizing m other count with
  | nil => exact .nil
  | cons input rest ih =>
    rw [history, rollCount_cons] at hcount
    have hpeek : m.rolls input = true → other.peek = m.random.peek := by
      intro hrolls
      rw [hrolls, if_pos rfl] at hcount
      exact hbytes 0 (by omega)
    have hhandle := handle_with_random hpeek
    rw [outcomes, outcomes, hhandle]
    refine .cons ⟨rfl, rfl⟩ ?_
    cases hrolls : m.rolls input with
    | true =>
      rw [hrolls, if_pos rfl] at hcount
      -- one byte of the allowance is used up, so that the rest is told by one byte less
      have hrest : rollCount ((m.handle input).1.history rest) ≤ count - 1 := by omega
      refine ih ?_ hrest
      intro j hj
      rw [if_pos rfl, random_of_rolls hrolls, RandomBytes.ahead_skip, RandomBytes.ahead_skip]
      exact hbytes (1 + j) (by omega)
    | false =>
      rw [hrolls, if_neg Bool.false_ne_true, Nat.zero_add] at hcount
      refine ih ?_ hcount
      rw [if_neg Bool.false_ne_true, random_of_not_rolls hrolls]
      exact hbytes

/-- **Chance comes in through one door.** In every state that a fresh machine reaches, a
step on a word that asks for a random byte succeeds and gets the byte of the source whose
number is that of the words that have asked before, cut down by the mask of the word; the
source has been moved on by as many bytes and no more. On any machine, only such a step
moves the source, by one byte, and no input that fails does. A list that is read over and
over gives its bytes at the remainders of their numbers, or zeros. Two machines that
differ in their sources alone stay so, with the same errors, over every run that asks for
no more bytes than the sources have in common. -/
theorem one_byte_per_roll (random : RandomBytes) (before : List Input) :
    let m := (fresh random).run before
    let taken := rollCount ((fresh random).history before)
    (m.rolls .step = true →
        m.step.2 = none ∧ m.step.1.reg m.fetch.x = random.ahead taken &&& m.fetch.kk)
      ∧ m.random = random.skip taken
      ∧ (∀ (n : Machine) (input : Input),
        (n.rolls input = true → (n.handle input).1.random = n.random.skip 1)
        ∧ (n.rolls input = false ∨ (n.handle input).2 ≠ none →
          (n.handle input).1.random = n.random))
      ∧ (∀ bytes : Array UInt8,
        RandomBytes.ofSource (RandomBytes.replay bytes) 0 = .cycle bytes
        ∧ (∀ j, bytes.size ≠ 0 →
          (RandomBytes.cycle bytes).ahead j = bytes.getD (j % bytes.size) 0)
        ∧ (∀ j, bytes.size = 0 → (RandomBytes.cycle bytes).ahead j = 0))
      ∧ ∀ (n n' : Machine) (inputs : List Input) (count : Nat),
        n' = { n with random := n'.random } →
        (∀ j, j < count → n'.random.ahead j = n.random.ahead j) →
        rollCount (n.history inputs) ≤ count →
        List.Forall₂ SameButRandom (n.outcomes inputs) (n'.outcomes inputs) := by
  intro m taken
  have hrandom : m.random = random.skip taken := random_run (fresh random) before
  refine ⟨?_, hrandom, ?_, ?_, ?_⟩
  · intro hrolls
    obtain ⟨hsucceeds, hreg⟩ := step_of_rolls hrolls
    rw [hrandom] at hreg
    exact ⟨hsucceeds, hreg⟩
  · intro n input
    refine ⟨random_of_rolls, ?_⟩
    rintro (hidle | hfails)
    · exact random_of_not_rolls hidle
    · exact random_of_error hfails
  · intro bytes
    refine ⟨RandomBytes.ofSource_replay bytes, ?_, ?_⟩
    · intro j _
      exact RandomBytes.ahead_cycle bytes j
    · intro j hnone
      exact RandomBytes.ahead_cycle_of_size_eq_zero hnone j
  · intro n n' inputs count hsame hbytes hcount
    rw [hsame]
    exact sameButRandom_outcomes hbytes hcount

/-- A program that asks for three bytes, one of them under a mask that lets nothing
through. -/
def threeRolls : List UInt8 := [0xC0, 0xFF, 0xC1, 0x00, 0xC2, 0x0F]

/-- Sources that have two bytes in common, before the third one is asked for. -/
theorem one_byte_per_roll_of_three :
    let tape : RandomBytes := .cycle #[0x2A, 0x17, 0x33]
    let inputs : List Input := [.load threeRolls, .step, .step]
    let m := (fresh tape).run inputs
    m.rolls .step = true ∧ m.step.1.reg 2 = 0x03
      ∧ List.Forall₂ SameButRandom ((fresh tape).outcomes inputs)
        ((fresh (.cycle #[0x2A, 0x17, 0x99])).outcomes inputs) := by
  intro tape inputs m
  have hstates : m.rolls .step = true ∧ m.fetch.x = 2 ∧ m.fetch.kk = 0x0F
      ∧ rollCount ((fresh tape).history inputs) = 2 := by decide +kernel
  obtain ⟨hrolls, hx, hkk, hcount⟩ := hstates
  obtain ⟨hroll, -, -, -, htwo⟩ := one_byte_per_roll tape inputs
  obtain ⟨-, hreg⟩ := hroll hrolls
  rw [hx, hkk, hcount] at hreg
  refine ⟨hrolls, hreg.trans (by decide), ?_⟩
  refine htwo (fresh tape) _ inputs 2 rfl ?_ (Nat.le_of_eq hcount)
  intro j hj
  have hj' : j = 0 ∨ j = 1 := by omega
  rcases hj' with rfl | rfl <;> rfl

end Machine

end Chip8
