import Chip8.Proofs.Provenance

/-!
# Registers that are stored and read back

A word stores the registers up to one at the index, another reads them. The bytes between
go round at the end of memory as their addresses do, so the block of registers is wherever
the index says, modulo 4096.

* What is read is what was stored, whatever happens in between, as long as nothing is
  written to the block (`Spares`). A block that is stored over the program is no
  exception: the words that run then are part of what happens in between.
* Storing what has been read leaves memory as it was (`memory_load_store`).
-/

namespace Chip8

/-- To write what is already there changes nothing. -/
theorem Memory.writeBlock_eq_self (m : Memory) {base : UInt16} {block : List UInt8}
    (hlength : block.length ≤ 4096)
    (h : ∀ k b, block[k]? = some b → b = m.read (base + UInt16.ofNat k)) :
    m.writeBlock base block = m := by
  refine congrArg Memory.mk (Vector.ext ?_)
  intro p hp
  by_cases hplace : ∃ k, k < block.length ∧ (base.toNat + k) % 4096 = p
  · obtain ⟨k, hk, rfl⟩ := hplace
    have hbyte := h k block[k] (List.getElem?_eq_getElem hk)
    rw [m.bytes_writeBlock_of_mem hlength hp (List.getElem?_eq_getElem hk) rfl, hbyte,
      read_add]
  · refine m.bytes_writeBlock_of_not_mem hlength hp ?_
    intro k hk heq
    exact hplace ⟨k, hk, heq⟩

namespace Machine

/-- No input of a history writes to the block of the registers up to `last` at `base`. -/
def Spares (moments : List (Machine × Input)) (base : UInt16) (last : Nibble) : Prop :=
  ∀ moment ∈ moments, ∀ r : Nibble, r ≤ last →
    ∀ b, ¬ moment.1.Writes moment.2 ((base.toNat + r.val) % 4096) b

/-- The blocks that the inputs write tell whether they write to this one. -/
theorem spares_iff (moments : List (Machine × Input)) (base : UInt16) (last : Nibble) :
    Spares moments base last
      ↔ ∀ moment ∈ moments, ∀ r : Nibble, r ≤ last →
        ∀ written ∈ moment.1.block? moment.2, ∀ k, k < written.2.length →
          (written.1.toNat + k) % 4096 ≠ (base.toNat + r.val) % 4096 := by
  constructor
  · rintro h moment hmoment r hr ⟨start, block⟩ hblock k hk hplace
    exact h moment hmoment r hr block[k] (writes_iff.mpr
      ⟨start, block, k, hblock, List.getElem?_eq_getElem hk, hplace⟩)
  · intro h moment hmoment r hr b hwrites
    obtain ⟨start, block, k, hblock, hk, hplace⟩ := writes_iff.mp hwrites
    exact h moment hmoment r hr ⟨start, block⟩ hblock k
      (List.getElem?_eq_some_iff.mp hk).1 hplace

instance (moments : List (Machine × Input)) (base : UInt16) (last : Nibble) :
    Decidable (Spares moments base last) :=
  decidable_of_iff _ (spares_iff moments base last).symm

/-! ## The block between the two words -/

theorem byte_run_of_not_writes (m : Machine) (inputs : List Input) {p : Nat} (hp : p < 4096)
    (h : ∀ moment ∈ m.history inputs, ∀ b, ¬ moment.1.Writes moment.2 p b) :
    (m.run inputs).memory.bytes[p] = m.memory.bytes[p] := by
  induction inputs generalizing m with
  | nil => rfl
  | cons input rest ih =>
    have hfirst := byte_of_not_writes hp (h _ List.mem_cons_self)
    exact (ih _ fun moment hmoment => h moment (List.mem_cons_of_mem _ hmoment)).trans hfirst

/-- Every register that is stored is in its place, wherever the block goes round. -/
theorem byte_step_of_store {m : Machine} (hfamily : m.fetch.family = 0xF)
    (hkk : m.fetch.kk = 0x55) {r : Nibble} (hr : r ≤ m.fetch.x) :
    m.step.1.memory.bytes[(m.index.toNat + r.val) % 4096] = m.reg r :=
  byte_of_writes (Nat.mod_lt _ (by decide)) (.store hfamily hkk hr)

theorem byte_run_of_spares {m : Machine} {inputs : List Input}
    (hfamily : m.fetch.family = 0xF) (hkk : m.fetch.kk = 0x55)
    (hspares : Spares (m.step.1.history inputs) m.index m.fetch.x) {r : Nibble}
    (hr : r ≤ m.fetch.x) :
    (m.step.1.run inputs).memory.bytes[(m.index.toNat + r.val) % 4096] = m.reg r := by
  rw [← byte_step_of_store hfamily hkk hr]
  exact m.step.1.byte_run_of_not_writes inputs (Nat.mod_lt _ (by decide))
    fun moment hmoment => hspares moment hmoment r hr

/-! ## Reading -/

theorem reg_loadRegs (m : Machine) (last r : Nibble) :
    (m.loadRegs last).reg r
      = if r ≤ last then m.memory.bytes[(m.index.toNat + r.val) % 4096] else m.reg r := by
  rw [← Memory.read_add]
  exact Bank.entry_ofFn ..

theorem index_loadRegs (m : Machine) (last : Nibble) : (m.loadRegs last).index = m.index :=
  m.index_execute (.load last)

theorem memory_loadRegs (m : Machine) (last : Nibble) : (m.loadRegs last).memory = m.memory :=
  m.memory_execute (.load last)

theorem step_of_load {m : Machine} (hfamily : m.fetch.family = 0xF)
    (hkk : m.fetch.kk = 0x65) :
    m.step = ((m.advance.loadRegs m.fetch.x).tick, none) := by
  have hdecode : Instruction.decode? m.fetch = some (.load m.fetch.x) :=
    (Instruction.decode?_eq_some_iff_of_coded rfl _).mpr ⟨hfamily, hkk, rfl⟩
  rw [step_of_ok (next_eq_ok_iff.mpr ⟨hdecode, rfl⟩)]
  rfl

theorem error_step_of_store {m : Machine} (hfamily : m.fetch.family = 0xF)
    (hkk : m.fetch.kk = 0x55) : m.step.2 = none := by
  have hperformed : m.performed? .step = some (.store m.fetch.x) :=
    (performed?_step_iff_of_coded rfl).mpr ⟨hfamily, hkk, rfl⟩
  exact error_step_of_performed hperformed

/-- What has been read is in its place already. -/
theorem memory_load_store (m : Machine) (last : Nibble) :
    ((m.execute (.load last)).1.execute (.store last)).1.memory = m.memory := by
  have hstored := (m.loadRegs last).memory_execute (.store last)
  simp only [memory_loadRegs, index_loadRegs] at hstored
  refine hstored.trans (m.memory.writeBlock_eq_self ?_ ?_)
  · rw [List.length_take, Vector.length_toList]
    omega
  · intro k b hk
    obtain ⟨r, rfl, hr, rfl⟩ := (getElem?_stored_iff (m.loadRegs last) _ _ _).mp hk
    have hread : r ≤ last := hr
    rw [reg_loadRegs, if_pos hread, Memory.read_add]

/-- **Registers survive in memory.** After a step that stores registers and a run that
spares their block, a step that reads no more registers from the same place gives them
back as they were, and leaves the other registers, the index and memory alone. The other
way round, storing what has been read leaves memory as it was. The index is any
address. -/
theorem registers_survive (m : Machine) :
    (∀ inputs : List Input, m.fetch.family = 0xF → m.fetch.kk = 0x55 →
        Spares (m.step.1.history inputs) m.index m.fetch.x →
        let n := m.step.1.run inputs
        n.fetch.family = 0xF → n.fetch.kk = 0x65 → n.fetch.x ≤ m.fetch.x →
        n.index.toNat % 4096 = m.index.toNat % 4096 →
        (m.step.2 = none ∧ n.step.2 = none)
          ∧ (∀ r, r ≤ n.fetch.x → n.step.1.reg r = m.reg r)
          ∧ (∀ r, n.fetch.x < r → n.step.1.reg r = n.reg r)
          ∧ n.step.1.index = n.index ∧ n.step.1.memory = n.memory)
      ∧ ∀ last, ((m.execute (.load last)).1.execute (.store last)).1.memory = m.memory := by
  refine ⟨?_, m.memory_load_store⟩
  intro inputs hfamily hkk hspares n hfamily' hkk' hlast hindex
  have hstep := step_of_load hfamily' hkk'
  have hreg (r : Nibble) : n.step.1.reg r
      = if r ≤ n.fetch.x then n.memory.bytes[(n.index.toNat + r.val) % 4096] else n.reg r := by
    rw [hstep]
    exact n.advance.reg_loadRegs n.fetch.x r
  refine ⟨⟨error_step_of_store hfamily hkk, by rw [hstep]⟩, ?_, ?_, ?_, ?_⟩
  · intro r hr
    have hplace : (n.index.toNat + r.val) % 4096 = (m.index.toNat + r.val) % 4096 := by omega
    simp only [hreg, if_pos hr, hplace]
    exact byte_run_of_spares hfamily hkk hspares (Fin.le_trans hr hlast)
  · intro r hr
    rw [hreg, if_neg (Fin.not_le.mpr hr)]
  · rw [hstep]
    exact n.advance.index_loadRegs n.fetch.x
  · rw [hstep]
    exact n.advance.memory_loadRegs n.fetch.x

/-- A machine with the numbers of the registers in them, and an index two bytes before
the end of the address space. Its program stores registers 0 to 3, sets register 2, moves
the index to the same place in memory and reads registers 0 to 2. -/
def atSeam : Machine :=
  { fresh (.cycle #[]) with v := .ofFn fun r => UInt8.ofNat r.val, index := 0xFFFE }.run
    [.load [0xF3, 0x55, 0x62, 0x77, 0xAF, 0xFE, 0xF2, 0x65]]

/-- What happens at the seam between storing and reading: a key is pressed, register 2 is
set, a program is loaded over the beginning of the first one, and the index is moved. -/
def betweenAtSeam : List Input := [.setKey 5 true, .step, .load [0xF3, 0x55], .step]

/-- Register 2 comes back although it has been set. -/
theorem registers_survive_at_seam :
    let n := atSeam.step.1.run betweenAtSeam
    Spares (atSeam.step.1.history betweenAtSeam) 0xFFFE 3
      ∧ n.reg 2 = 0x77 ∧ n.index = 0xFFE ∧ n.step.1.reg 2 = 2
      ∧ ((atSeam.execute (.load 3)).1.execute (.store 3)).1.memory = atSeam.memory := by
  intro n
  have hwords : (atSeam.fetch.family = 0xF ∧ atSeam.fetch.kk = 0x55 ∧ atSeam.fetch.x = 3
        ∧ atSeam.index = 0xFFFE ∧ atSeam.reg 2 = 2)
      ∧ Spares (atSeam.step.1.history betweenAtSeam) 0xFFFE 3
      ∧ n.fetch.family = 0xF ∧ n.fetch.kk = 0x65 ∧ n.fetch.x = 2 ∧ n.reg 2 = 0x77
      ∧ n.index = 0xFFE := by
    decide +kernel
  obtain ⟨⟨hfamily, hkk, hx, hindex, htwo⟩, hspares, hfamily', hkk', hx', hset, hindex'⟩ :=
    hwords
  obtain ⟨hsurvive, hback⟩ := registers_survive atSeam
  have hplace : n.index.toNat % 4096 = atSeam.index.toNat % 4096 := by
    rw [hindex, hindex']
    rfl
  have hkept : ∀ r, r ≤ n.fetch.x → n.step.1.reg r = atSeam.reg r :=
    (hsurvive betweenAtSeam hfamily hkk (by rwa [hindex, hx]) hfamily' hkk'
      (by rw [hx, hx']; decide) hplace).2.1
  have htwo' : n.step.1.reg 2 = atSeam.reg 2 :=
    hkept 2 (Nat.le_of_eq (congrArg Fin.val hx'.symm))
  exact ⟨hspares, hset, hindex', htwo'.trans htwo, hback 3⟩

end Machine

end Chip8
