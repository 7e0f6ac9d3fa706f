import Chip8.Proofs.Frame

/-!
# Where the bytes of memory come from

Three kinds of input write to memory: a program that fits, a step that writes the digits
of a register, and a step that stores registers. `Machine.Writes` tells which byte goes
where, by the word and the registers alone. Every byte was put where it is by the last
input that wrote there, or has been there from the beginning (`memory_provenance`); in
particular the glyphs stay for as long as no step writes over them.
-/

namespace Chip8.Machine

/-- An input puts a byte at a position. Blocks that a step writes begin at the index and
go round at the end of memory. -/
inductive Writes (m : Machine) : Input → Nat → UInt8 → Prop
  | load {program : List UInt8} {k : Nat} {b : UInt8} :
    program.length ≤ 3584 → program[k]? = some b → Writes m (.load program) (0x200 + k) b
  /-- The hundreds, tens and ones of the register, one after another. -/
  | decimal {hundreds tens ones k : Nat} {b : UInt8} :
    m.fetch.family = 0xF → m.fetch.kk = 0x33 → hundreds ≤ 9 → tens ≤ 9 → ones ≤ 9 →
    100 * hundreds + 10 * tens + ones = (m.reg m.fetch.x).toNat →
    [hundreds, tens, ones][k]? = some b.toNat →
    Writes m .step ((m.index.toNat + k) % 4096) b
  /-- The registers up to the one named, one after another. -/
  | store {r : Nibble} :
    m.fetch.family = 0xF → m.fetch.kk = 0x55 → r.val ≤ m.fetch.x.val →
    Writes m .step ((m.index.toNat + r.val) % 4096) (m.reg r)

/-! ## Blocks -/

theorem block?_step_of_decimal {m : Machine} (hfamily : m.fetch.family = 0xF)
    (hkk : m.fetch.kk = 0x33) :
    m.block? .step = some (m.index, decimalDigits (m.reg m.fetch.x)) := by
  have hperformed : m.performed? .step = some (.decimal m.fetch.x) :=
    (performed?_step_iff_of_coded rfl).mpr ⟨hfamily, hkk, rfl⟩
  simp only [block?, hperformed]

theorem block?_step_of_store {m : Machine} (hfamily : m.fetch.family = 0xF)
    (hkk : m.fetch.kk = 0x55) :
    m.block? .step = some (m.index, m.v.toList.take (m.fetch.x.val + 1)) := by
  have hperformed : m.performed? .step = some (.store m.fetch.x) :=
    (performed?_step_iff_of_coded rfl).mpr ⟨hfamily, hkk, rfl⟩
  simp only [block?, hperformed]

/-- A step that writes a block has fetched one of two words. -/
theorem block?_step_cases {m : Machine} {base : UInt16} {block : List UInt8}
    (h : m.block? .step = some (base, block)) :
    base = m.index ∧ m.fetch.family = 0xF
      ∧ ((m.fetch.kk = 0x33 ∧ block = decimalDigits (m.reg m.fetch.x))
        ∨ (m.fetch.kk = 0x55 ∧ block = m.v.toList.take (m.fetch.x.val + 1))) := by
  simp only [block?] at h
  split at h
  · rename_i x hperformed
    obtain ⟨hfamily, hkk, rfl⟩ := (performed?_step_iff_of_coded rfl).mp hperformed
    cases h
    exact ⟨rfl, hfamily, .inl ⟨hkk, rfl⟩⟩
  · rename_i last hperformed
    obtain ⟨hfamily, hkk, rfl⟩ := (performed?_step_iff_of_coded rfl).mp hperformed
    cases h
    exact ⟨rfl, hfamily, .inr ⟨hkk, rfl⟩⟩
  · cases h

/-- No block is so long that it would overwrite itself. -/
theorem length_block?_le {m : Machine} {input : Input} {base : UInt16} {block : List UInt8}
    (h : m.block? input = some (base, block)) : block.length ≤ 4096 := by
  cases input with
  | load program =>
    simp only [block?, Option.ite_none_right_eq_some, Option.some.injEq, Prod.mk.injEq] at h
    obtain ⟨hfits, -, rfl⟩ := h
    exact Nat.le_trans hfits (by decide)
  | setKey key down => cases h
  | setKeys keys => cases h
  | step =>
    obtain ⟨-, -, ⟨-, rfl⟩ | ⟨-, rfl⟩⟩ := block?_step_cases h
    · exact Nat.le_trans (Nat.le_of_eq rfl) (by decide : 3 ≤ 4096)
    · rw [List.length_take, Vector.length_toList]
      omega

theorem getElem?_decimalDigits_iff (v b : UInt8) (k : Nat) :
    (decimalDigits v)[k]? = some b
      ↔ ∃ hundreds tens ones, hundreds ≤ 9 ∧ tens ≤ 9 ∧ ones ≤ 9
        ∧ 100 * hundreds + 10 * tens + ones = v.toNat
        ∧ [hundreds, tens, ones][k]? = some b.toNat := by
  have hv := v.toNat_lt
  have hdigits : (decimalDigits v).map UInt8.toNat
      = [v.toNat / 100, v.toNat / 10 % 10, v.toNat % 10] := by
    simp [decimalDigits]
  have hmap : (decimalDigits v)[k]? = some b
      ↔ [v.toNat / 100, v.toNat / 10 % 10, v.toNat % 10][k]? = some b.toNat := by
    rw [← hdigits, List.getElem?_map]
    cases (decimalDigits v)[k]? with
    | none => simp
    | some c => simp [UInt8.toNat_inj]
  rw [hmap]
  constructor
  · intro h
    exact ⟨_, _, _, by omega, by omega, by omega, by omega, h⟩
  · rintro ⟨hundreds, tens, ones, hhundreds, htens, hones, hsum, h⟩
    -- digits are unique
    have h₀ : v.toNat / 100 = hundreds := by omega
    have h₁ : v.toNat / 10 % 10 = tens := by omega
    have h₂ : v.toNat % 10 = ones := by omega
    rw [h₀, h₁, h₂]
    exact h

theorem getElem?_stored_iff (m : Machine) (last : Nibble) (b : UInt8) (k : Nat) :
    (m.v.toList.take (last.val + 1))[k]? = some b
      ↔ ∃ r : Nibble, r.val = k ∧ r.val ≤ last.val ∧ m.reg r = b := by
  rw [List.getElem?_take]
  constructor
  · intro h
    split at h
    · rename_i hle
      have hk : k < 16 := by omega
      refine ⟨⟨k, hk⟩, rfl, by show k ≤ last.val; omega, ?_⟩
      simpa [hk, reg, Bank.entry, Vector.get] using h
    · cases h
  · rintro ⟨r, rfl, hle, rfl⟩
    rw [if_pos (by omega)]
    simp [reg, Bank.entry, Vector.get]

theorem writes_iff {m : Machine} {input : Input} {p : Nat} {b : UInt8} :
    m.Writes input p b
      ↔ ∃ base block k, m.block? input = some (base, block) ∧ block[k]? = some b
        ∧ (base.toNat + k) % 4096 = p := by
  constructor
  · intro h
    cases h with
    | @load program k _ hfits hk =>
      have hlt : k < program.length := (List.getElem?_eq_some_iff.mp hk).1
      have hstart : Memory.programStart.toNat = 0x200 := rfl
      have hfits' : program.length ≤ Memory.programLimit := hfits
      exact ⟨Memory.programStart, program, k, by rw [block?, if_pos hfits'], hk, by omega⟩
    | decimal hfamily hkk hhundreds htens hones hsum hk =>
      refine ⟨_, _, _, block?_step_of_decimal hfamily hkk, ?_, rfl⟩
      exact (getElem?_decimalDigits_iff _ _ _).mpr ⟨_, _, _, hhundreds, htens, hones, hsum, hk⟩
    | store hfamily hkk hle =>
      refine ⟨_, _, _, block?_step_of_store hfamily hkk, ?_, rfl⟩
      exact (getElem?_stored_iff _ _ _ _).mpr ⟨_, rfl, hle, rfl⟩
  · rintro ⟨base, block, k, hblock, hk, rfl⟩
    cases input with
    | load program =>
      simp only [block?, Option.ite_none_right_eq_some, Option.some.injEq,
        Prod.mk.injEq] at hblock
      obtain ⟨hfits, rfl, rfl⟩ := hblock
      change program.length ≤ 3584 at hfits
      have hlt : k < program.length := (List.getElem?_eq_some_iff.mp hk).1
      -- programs that fit end before memory does, so that they do not go round
      have hplace : (Memory.programStart.toNat + k) % 4096 = 0x200 + k := by
        have hstart : Memory.programStart.toNat = 0x200 := rfl
        omega
      rw [hplace]
      exact .load hfits hk
    | setKey key down => cases hblock
    | setKeys keys => cases hblock
    | step =>
      obtain ⟨rfl, hfamily, ⟨hkk, rfl⟩ | ⟨hkk, rfl⟩⟩ := block?_step_cases hblock
      · obtain ⟨hundreds, tens, ones, hhundreds, htens, hones, hsum, hdigit⟩ :=
          (getElem?_decimalDigits_iff _ _ _).mp hk
        exact .decimal hfamily hkk hhundreds htens hones hsum hdigit
      · obtain ⟨r, rfl, hle, rfl⟩ := (getElem?_stored_iff _ _ _ _).mp hk
        exact .store hfamily hkk hle

/-! ## One input -/

theorem byte_of_writes {m : Machine} {input : Input} {p : Nat} {b : UInt8} (hp : p < 4096)
    (h : m.Writes input p b) : (m.handle input).1.memory.bytes[p] = b := by
  obtain ⟨base, block, k, hblock, hk, hplace⟩ := writes_iff.mp h
  have hmemory := m.memory_handle input
  rw [hblock] at hmemory
  simp only [hmemory]
  exact m.memory.bytes_writeBlock_of_mem (length_block?_le hblock) hp hk hplace

theorem byte_of_not_writes {m : Machine} {input : Input} {p : Nat} (hp : p < 4096)
    (h : ∀ b, ¬ m.Writes input p b) :
    (m.handle input).1.memory.bytes[p] = m.memory.bytes[p] := by
  have hmemory := m.memory_handle input
  cases hblock : m.block? input with
  | none =>
    rw [hblock] at hmemory
    simp only [hmemory]
  | some written =>
    obtain ⟨base, block⟩ := written
    rw [hblock] at hmemory
    simp only [hmemory]
    refine m.memory.bytes_writeBlock_of_not_mem (length_block?_le hblock) hp ?_
    intro k hk hplace
    exact h _ (writes_iff.mpr ⟨base, block, k, hblock, List.getElem?_eq_getElem hk, hplace⟩)

/-- A program is taken as a whole or not at all, and touches nothing but memory. -/
theorem load_eq (m : Machine) (program : List UInt8) :
    m.load program =
      if program.length ≤ 3584 then ({ m with memory := (m.load program).1.memory }, none)
      else (m, some (.romTooLarge program.length 3584)) := by
  unfold load Memory.load
  by_cases hfits : program.length ≤ Memory.programLimit
  · have hfits' : program.length ≤ 3584 := hfits
    simp only [if_pos hfits, if_pos hfits']
  · have hfits' : ¬ program.length ≤ 3584 := hfits
    simp only [if_neg hfits, if_neg hfits']
    rfl

/-! ## Runs -/

/-- After a run, a byte is what the last input that wrote there put there, or what it was
before. -/
theorem byte_run (m : Machine) (inputs : List Input) {p : Nat} (hp : p < 4096) :
    (∃ before input after b, inputs = before ++ input :: after
        ∧ (m.run before).Writes input p b
        ∧ (∀ moment ∈ ((m.run before).handle input).1.history after,
          ∀ c, ¬ moment.1.Writes moment.2 p c)
        ∧ (m.run inputs).memory.bytes[p] = b)
      ∨ ((∀ moment ∈ m.history inputs, ∀ c, ¬ moment.1.Writes moment.2 p c)
        ∧ (m.run inputs).memory.bytes[p] = m.memory.bytes[p]) := by
  induction inputs generalizing m with
  | nil => exact .inr ⟨by simp [history], rfl⟩
  | cons input rest ih =>
    rcases ih (m.handle input).1 with
      ⟨before, last, after, b, rfl, hwrites, hlater, hbyte⟩ | ⟨hnever, hbyte⟩
    · exact .inl ⟨input :: before, last, after, b, rfl, hwrites, hlater, hbyte⟩
    · -- nothing in the rest writes there, so this input is the last to do so or none does
      by_cases hwrites : ∃ b, m.Writes input p b
      · obtain ⟨b, hb⟩ := hwrites
        exact .inl ⟨[], input, rest, b, rfl, hb, hnever, hbyte.trans (byte_of_writes hp hb)⟩
      · rw [not_exists] at hwrites
        refine .inr ⟨?_, hbyte.trans (byte_of_not_writes hp hwrites)⟩
        intro moment hmoment
        rcases List.mem_cons.mp hmoment with rfl | hlater
        · exact hwrites
        · exact hnever moment hlater

/-- The byte of a machine that nothing has been written to: the glyphs, and zeros around
them. -/
def initialByte (p : Nat) : UInt8 :=
  if 0x050 ≤ p ∧ p < 0x0A0 then Memory.font.getD (p - 0x050) 0 else 0

/-- **The provenance of memory.** In every state that a fresh machine reaches, and at
every position,

* the byte is the one that the last input to write there has put there, or the initial one
  if no input has;
* it is a glyph's if the position is and no step so far has written over a glyph.

On any machine, an input puts the bytes into memory that it writes and changes no other; a
program of at most 3584 bytes changes nothing but memory, and a longer one changes
nothing. -/
theorem memory_provenance (random : RandomBytes) (inputs : List Input) (p : Nat)
    (hp : p < 4096) :
    ((∃ before input after b, inputs = before ++ input :: after
          ∧ ((fresh random).run before).Writes input p b
          ∧ (∀ moment ∈ (((fresh random).run before).handle input).1.history after,
            ∀ c, ¬ moment.1.Writes moment.2 p c)
          ∧ ((fresh random).run inputs).memory.bytes[p] = b)
        ∨ ((∀ moment ∈ (fresh random).history inputs, ∀ c, ¬ moment.1.Writes moment.2 p c)
          ∧ ((fresh random).run inputs).memory.bytes[p] = initialByte p))
      ∧ ((0x050 ≤ p ∧ p < 0x0A0) →
        (∀ moment ∈ (fresh random).history inputs, moment.2 = .step →
          ∀ q c, 0x050 ≤ q → q < 0x0A0 → ¬ moment.1.Writes .step q c) →
        ((fresh random).run inputs).memory.bytes[p] = Memory.font.getD (p - 0x050) 0)
      ∧ ∀ (m : Machine) (input : Input),
        (∀ b, m.Writes input p b → (m.handle input).1.memory.bytes[p] = b)
        ∧ ((∀ b, ¬ m.Writes input p b) →
          (m.handle input).1.memory.bytes[p] = m.memory.bytes[p])
        ∧ ∀ program, m.load program =
          if program.length ≤ 3584 then ({ m with memory := (m.load program).1.memory }, none)
          else (m, some (.romTooLarge program.length 3584)) := by
  have hrun := (fresh random).byte_run inputs hp
  have hinitial : (fresh random).memory.bytes[p] = initialByte p := Memory.bytes_initial hp
  rw [hinitial] at hrun
  refine ⟨hrun, ?_, ?_⟩
  · intro hfont hkept
    rcases hrun with ⟨before, input, after, b, rfl, hwrites, -, -⟩ | ⟨-, hbyte⟩
    · have hmoment : ((fresh random).run before, input)
          ∈ (fresh random).history (before ++ input :: after) := by
        rw [history_append]
        exact List.mem_append_right _ List.mem_cons_self
      have hstep := hkept _ hmoment
      -- a program lies behind the glyphs
      cases hwrites with
      | load hfits hk => omega
      | decimal hfamily hkk hhundreds htens hones hsum hk =>
        exact absurd (.decimal hfamily hkk hhundreds htens hones hsum hk)
          (hstep rfl _ b hfont.1 hfont.2)
      | store hfamily hkk hle =>
        exact absurd (.store hfamily hkk hle) (hstep rfl _ _ hfont.1 hfont.2)
    · rw [hbyte, initialByte, if_pos hfont]
  · intro m input
    exact ⟨fun b => byte_of_writes hp, byte_of_not_writes hp, m.load_eq⟩

/-- The digits of 254 right before the glyphs, and a shorter program after them. -/
theorem memory_provenance_beside_glyphs :
    let inputs :=
      [.load [0x60, 0xFE, 0xA0, 0x4D, 0xF0, 0x33], .step, .step, .step, .load [0x00]]
    ((fresh (.cycle #[])).run inputs).memory.read 0x04F = 4
      ∧ (∀ moment ∈ (fresh (.cycle #[])).history inputs, moment.2 = .step →
        ∀ q c, 0x050 ≤ q → q < 0x0A0 → ¬ moment.1.Writes .step q c)
      ∧ ((fresh (.cycle #[])).run inputs).memory.bytes[0x050] = 0xF0 := by
  intro inputs
  have hdigit : ((fresh (.cycle #[])).run inputs).memory.read 0x04F = 4 := by decide +kernel
  have hblocks : ((fresh (.cycle #[])).history inputs).map
      (fun moment => moment.1.block? moment.2)
      = [some (0x200, [0x60, 0xFE, 0xA0, 0x4D, 0xF0, 0x33]), none, none,
        some (0x04D, [2, 5, 4]), some (0x200, [0x00])] := by decide +kernel
  have hkept : ∀ moment ∈ (fresh (.cycle #[])).history inputs, moment.2 = .step →
      ∀ q c, 0x050 ≤ q → q < 0x0A0 → ¬ moment.1.Writes .step q c := by
    intro moment hmoment hstep q c hfirst hlast hwrites
    obtain ⟨base, block, k, hblock, hk, hplace⟩ := writes_iff.mp hwrites
    have hlt := (List.getElem?_eq_some_iff.mp hk).1
    have hmem := List.mem_map_of_mem (f := fun moment => moment.1.block? moment.2) hmoment
    rw [hblocks, hstep, hblock] at hmem
    simp only [List.mem_cons, Option.some.injEq, Prod.mk.injEq, reduceCtorEq,
      List.not_mem_nil, false_or, or_false] at hmem
    rcases hmem with ⟨rfl, rfl⟩ | ⟨rfl, rfl⟩ | ⟨rfl, rfl⟩
    · change (512 + k) % 4096 = q at hplace
      change k < 6 at hlt
      omega
    · change (77 + k) % 4096 = q at hplace
      change k < 3 at hlt
      omega
    · change (512 + k) % 4096 = q at hplace
      change k < 1 at hlt
      omega
  obtain ⟨-, hglyph, -⟩ := memory_provenance (.cycle #[]) inputs 0x050 (by decide)
  exact ⟨hdigit, hkept, hglyph (by decide) hkept⟩

end Chip8.Machine
