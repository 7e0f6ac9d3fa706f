import Chip8.Machine.Run

/-!
# Steps that fail

A step fails on a word that is no instruction, on a call without a free slot and on a
return without a call. The machine is then past the word and otherwise as it was, and the
error tells where the word stands, with all sixteen bits of the address
(`failed_step_atomic`). What comes after in a run is what a machine does that was moved
past the word by hand.
-/

namespace Chip8.Machine

/-- The word that is fetched: the byte that the program counter names, and the one after
it. Both addresses go round at the end of memory. -/
theorem bits_fetch (m : Machine) :
    m.fetch.bits.toNat =
      m.memory.bytes[m.pc.toNat % 4096].toNat * 256
        + m.memory.bytes[(m.pc.toNat + 1) % 4096].toNat := by
  have hfirst : m.memory.read m.pc = m.memory.bytes[m.pc.toNat % 4096] := rfl
  have hsecond : m.memory.read (m.pc + 1) = m.memory.bytes[(m.pc.toNat + 1) % 4096] :=
    m.memory.read_add m.pc 1
  rw [fetch, Word.toNat_bits_ofBytes, hfirst, hsecond]

/-- **A failed step is atomic.** It changes the program counter and nothing else, timers
and idle stack slots included. Its error is that of a step and names the address the word
was fetched from; an invalid instruction is reported as the word itself. A run goes on
from there as if the word had only been passed over. -/
theorem failed_step_atomic (m : Machine) (e : Error) (h : m.step.2 = some e) :
    m.step.1 = { m with pc := m.pc + 2 }
      ∧ ((∃ w : Word, e = .invalidInstruction w m.pc
          ∧ w.bits.toNat = m.memory.bytes[m.pc.toNat % 4096].toNat * 256
            + m.memory.bytes[(m.pc.toNat + 1) % 4096].toNat)
        ∨ e = .stackOverflow m.pc ∨ e = .stackUnderflow m.pc)
      ∧ ∀ start before after, run start before = m →
        start.run (before ++ .step :: after) = run { m with pc := m.pc + 2 } after
        ∧ start.outcomes (before ++ .step :: after)
          = start.outcomes before ++ ({ m with pc := m.pc + 2 }, some e)
            :: outcomes { m with pc := m.pc + 2 } after := by
  have hnext := error_step_iff.mp h
  have hstep : m.step = (m.advance, some e) := step_of_error hnext
  refine ⟨congrArg Prod.fst hstep, ?_, ?_⟩
  · rcases error_cases hnext with rfl | hstack
    · exact .inl ⟨m.fetch, rfl, m.bits_fetch⟩
    · exact .inr hstack
  · intro start before after hbefore
    rw [run_append, outcomes_append, hbefore]
    refine ⟨?_, ?_⟩
    · show m.step.1.run after = _
      rw [hstep]
      rfl
    · show _ ++ m.step :: m.step.1.outcomes after = _
      rw [hstep]
      rfl

/-- A word that begins in the last byte of memory and ends in the first. -/
theorem failed_step_atomic_at_end :
    let m : Machine :=
      { fresh (.cycle #[]) with
        pc := 0xFFFF
        memory := (Memory.initial.write 0xFFF 0x80).write 0 0x08 }
    m.step.2 = some (.invalidInstruction ⟨0x8008⟩ 0xFFFF)
      ∧ m.step.1 = { m with pc := 1 } := by
  intro m
  have hfails : m.step.2 = some (.invalidInstruction ⟨0x8008⟩ 0xFFFF) := by decide +kernel
  obtain ⟨hstate, -, -⟩ := failed_step_atomic m _ hfails
  have hpc : m.pc + 2 = 1 := by decide
  exact ⟨hfails, hpc ▸ hstate⟩

end Chip8.Machine
