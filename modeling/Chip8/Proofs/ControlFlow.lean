import Chip8.Proofs.Frame
import Chip8.Proofs.Language

/-!
# Control flow

Where a step leads is told by the number of its word and by what the word looks at: the
registers, the keys and the top of the call stack (`destination`). Returns, jumps and
calls name their goal; a skip passes over the next word or does not (`skips`); a wait
without a key stays where it is; all others go on to the next word. The program counter
goes round at 16 bits, while a jump from an address does not even reach them
(`control_flow`).

Skips come in pairs of which one holds where the other does not (`Opposed`).
-/

namespace Chip8.Machine

variable {m : Machine} {instruction : Instruction} {word word' : Nat}

/-- The number of the word at an address, high byte first. Both bytes are taken modulo the
size of memory.
-/
def wordAt (m : Machine) (address : Nat) : Nat :=
  m.memory.bytes[address % 4096].toNat * 256 + m.memory.bytes[(address + 1) % 4096].toNat

/-- Whether a word passes over the one after it. -/
def skips (m : Machine) (word : Nat) : Bool :=
  let vx := m.reg (.ofNat (word / 256))
  let vy := m.reg (.ofNat (word / 16))
  let down := m.keypad.keys.entry (.ofNat vx.toNat)
  match word / 4096 with
  | 0x3 => vx.toNat == word % 256
  | 0x4 => vx.toNat != word % 256
  | 0x5 => vx == vy
  | 0x9 => vx != vy
  | 0xE => (word % 16 == 0xE && down) || (word % 16 == 0x1 && !down)
  | _ => false

/-- The address of the word after the one at the program counter. -/
def following (m : Machine) : Nat := (m.pc.toNat + 2) % 65536

/-- Where a step leads that succeeds on a word. -/
def destination (m : Machine) (word : Nat) : Nat :=
  match word / 4096 with
  | 0x0 =>
    if word % 16 = 0xE then m.stack.slots[m.stack.depth.val - 1].toNat else m.following
  | 0x1 => word % 4096
  | 0x2 => word % 4096
  | 0xB => word % 4096 + (m.reg (.ofNat 0)).toNat
  | 0xF =>
    if word % 256 = 0x0A ∧ ∀ k : Nibble, m.keypad.keys.entry k = false then m.pc.toNat
    else m.following
  | _ => if m.skips word then (m.pc.toNat + 4) % 65536 else m.following

/-- The words that are skips. -/
def IsSkip (word : Nat) : Prop :=
  word / 4096 ∈ [0x3, 0x4, 0x5, 0x9] ∨ (word / 4096 = 0xE ∧ word % 16 ∈ [0x1, 0xE])

/-- Two skips, on the same operands, of which one asks for the opposite of the other. -/
def Opposed (word word' : Nat) : Prop :=
  (word / 4096 = 0x3 ∧ word' / 4096 = 0x4 ∧ word % 4096 = word' % 4096)
    ∨ (word / 4096 = 0x5 ∧ word' / 4096 = 0x9 ∧ word / 16 % 256 = word' / 16 % 256)
    ∨ (word / 4096 = 0xE ∧ word' / 4096 = 0xE ∧ word % 16 = 0xE ∧ word' % 16 = 0x1
      ∧ word / 256 % 16 = word' / 256 % 16)

theorem bits_fetch_eq_wordAt (m : Machine) : m.fetch.bits.toNat = m.wordAt m.pc.toNat :=
  m.bits_fetch

/-! ## Skips -/

theorem skips_eq_meets {condition : Condition}
    (h : Instruction.decode? m.fetch = some (.skip condition)) :
    m.skips m.fetch.bits.toNat = m.meets condition := by
  have hfamily := (Word.family_eq_iff _ _).mp (Instruction.family_of_decode? h)
  unfold skips
  cases condition with
  | equalsByte x byte =>
    obtain ⟨-, rfl, rfl⟩ := (Instruction.decode?_eq_some_iff_of_valued rfl _).mp h
    change m.fetch.bits.toNat / 4096 = 0x3 at hfamily
    simp only [hfamily]
    show ((m.reg m.fetch.x).toNat == m.fetch.bits.toNat % 256)
      = (m.reg m.fetch.x == m.fetch.kk)
    rw [Bool.eq_iff_iff, beq_iff_eq, beq_iff_eq, ← Word.toNat_kk, UInt8.toNat_inj]
  | differsByte x byte =>
    obtain ⟨-, rfl, rfl⟩ := (Instruction.decode?_eq_some_iff_of_valued rfl _).mp h
    change m.fetch.bits.toNat / 4096 = 0x4 at hfamily
    simp only [hfamily]
    show ((m.reg m.fetch.x).toNat != m.fetch.bits.toNat % 256)
      = (m.reg m.fetch.x != m.fetch.kk)
    rw [Bool.eq_iff_iff, bne_iff_ne, bne_iff_ne, ← Word.toNat_kk, ne_eq, UInt8.toNat_inj]
  | equals x y =>
    obtain ⟨-, rfl, rfl⟩ := (Instruction.decode?_eq_skip_iff_of_paired rfl _).mp h
    change m.fetch.bits.toNat / 4096 = 0x5 at hfamily
    simp only [hfamily]
    rfl
  | differs x y =>
    obtain ⟨-, rfl, rfl⟩ := (Instruction.decode?_eq_skip_iff_of_paired rfl _).mp h
    change m.fetch.bits.toNat / 4096 = 0x9 at hfamily
    simp only [hfamily]
    rfl
  | keyDown x =>
    obtain ⟨-, hlast, rfl⟩ := (Instruction.decode?_eq_skip_iff_of_keyed rfl _).mp h
    rw [Word.n_eq_iff] at hlast
    change m.fetch.bits.toNat / 4096 = 0xE at hfamily
    change m.fetch.bits.toNat % 16 = 0xE at hlast
    simp only [hfamily, hlast]
    exact Bool.or_false _
  | keyUp x =>
    obtain ⟨-, hlast, rfl⟩ := (Instruction.decode?_eq_skip_iff_of_keyed rfl _).mp h
    rw [Word.n_eq_iff] at hlast
    change m.fetch.bits.toNat / 4096 = 0xE at hfamily
    change m.fetch.bits.toNat % 16 = 0x1 at hlast
    simp only [hfamily, hlast]
    rfl

theorem isSkip_of_decode? {condition : Condition} {w : Word}
    (h : Instruction.decode? w = some (.skip condition)) : IsSkip w.bits.toNat := by
  have hfamily := (Word.family_eq_iff _ _).mp (Instruction.family_of_decode? h)
  rw [IsSkip, hfamily]
  cases condition with
  | equalsByte x byte | differsByte x byte | equals x y | differs x y =>
    rw [Instruction.family]
    exact .inl (by decide)
  | keyDown x | keyUp x =>
    have hlast := (Word.n_eq_iff _ _).mp
      ((Instruction.decode?_eq_skip_iff_of_keyed rfl _).mp h).2.1
    rw [Instruction.family, hlast]
    exact .inr (by decide)

theorem isSkip_of_opposed (h : Opposed word word') : IsSkip word ∧ IsSkip word' := by
  simp only [Opposed] at h
  simp only [IsSkip, List.mem_cons, List.not_mem_nil, or_false]
  omega

/-- Of two opposed skips, on machines with the same registers and keys, one passes over a
word. -/
theorem skips_of_opposed {m' : Machine} (h : Opposed word word') (hv : m'.v = m.v)
    (hkeypad : m'.keypad = m.keypad) : m'.skips word' = !m.skips word := by
  have hreg (r : Nibble) : m'.reg r = m.reg r := congrArg (Bank.entry · r) hv
  -- words that agree in a digit name the same register by it
  have hoperand (n n' : Nat) (hdigit : n % 16 = n' % 16) : Nibble.ofNat n' = .ofNat n :=
    Fin.ext hdigit.symm
  unfold skips
  rcases h with ⟨hfamily, hfamily', hsame⟩ | ⟨hfamily, hfamily', hsame⟩
    | ⟨hfamily, hfamily', hlast, hlast', hsame⟩
  · have hbyte : word' % 256 = word % 256 := by omega
    have hx := hoperand (word / 256) (word' / 256) (by omega)
    simp only [hfamily, hfamily', hreg, hx, hbyte]
    rfl
  · have hx := hoperand (word / 256) (word' / 256) (by omega)
    have hy := hoperand (word / 16) (word' / 16) (by omega)
    simp only [hfamily, hfamily', hreg, hx, hy]
    rfl
  · have hx := hoperand (word / 256) (word' / 256) (by omega)
    simp only [hfamily, hfamily', hlast, hlast', hreg, hkeypad, hx]
    simp

/-! ## Destinations -/

theorem following_eq (m : Machine) : m.following = (m.pc + 2).toNat := by
  rw [following, UInt16.toNat_add]
  rfl

/-- Words of these families go on. -/
theorem destination_of_family (h : word / 4096 ∈ [0x6, 0x7, 0x8, 0xA, 0xC, 0xD]) :
    m.destination word = m.following := by
  simp only [List.mem_cons, List.not_mem_nil, or_false] at h
  rcases h with h | h | h | h | h | h
  all_goals
    simp only [destination, skips, h]
    rfl

theorem destination_of_isSkip (h : IsSkip word) :
    m.destination word = if m.skips word then (m.pc + 4).toNat else (m.pc + 2).toNat := by
  have hover : (m.pc + 4).toNat = (m.pc.toNat + 4) % 65536 := UInt16.toNat_add _ _
  rw [hover, ← following_eq]
  simp only [IsSkip, List.mem_cons, List.not_mem_nil, or_false] at h
  rcases h with (h | h | h | h) | ⟨h, -⟩
  all_goals simp only [destination, h]

/-- Words of family F go on, but for the one that waits. -/
theorem destination_of_coded (hfamily : word / 4096 = 0xF) (hcode : word % 256 ≠ 0x0A) :
    m.destination word = m.following := by
  simp only [destination, hfamily]
  exact if_neg fun h => hcode h.1

/-- The destination of the word at the program counter is where its instruction leads. -/
theorem destination_eq (h : m.next = .ok instruction) :
    m.destination m.fetch.bits.toNat = (m.advance.execute instruction).1.pc.toNat := by
  obtain ⟨hdecode, hfault⟩ := next_eq_ok_iff.mp h
  have hfamily := (Word.family_eq_iff _ _).mp (Instruction.family_of_decode? hdecode)
  have hpc : m.advance.pc = m.pc + 2 := rfl
  rw [pc_execute]
  cases instruction with
  | clear =>
    have hlast := (Word.n_eq_iff _ _).mp ((Instruction.decode?_eq_clear_iff _).mp hdecode).2
    change m.fetch.bits.toNat / 4096 = 0x0 at hfamily
    change m.fetch.bits.toNat % 16 = 0x0 at hlast
    simp only [destination, hfamily, hlast]
    exact m.following_eq
  | ret =>
    have hlast := (Word.n_eq_iff _ _).mp ((Instruction.decode?_eq_ret_iff _).mp hdecode).2
    change m.fetch.bits.toNat / 4096 = 0x0 at hfamily
    change m.fetch.bits.toNat % 16 = 0xE at hlast
    simp only [fault?, ite_eq_right_iff, reduceCtorEq, imp_false, Bool.not_eq_true] at hfault
    have htop : m.advance.stack.top? = some m.stack.slots[m.stack.depth.val - 1] :=
      CallStack.top?_of_isEmpty hfault
    simp only [destination, hfamily, hlast, htop]
    rfl
  | jump target =>
    obtain ⟨-, rfl⟩ := (Instruction.decode?_eq_some_iff_of_addressed rfl _).mp hdecode
    change m.fetch.bits.toNat / 4096 = 0x1 at hfamily
    simp only [destination, hfamily]
    exact m.fetch.toNat_nnn.symm
  | call target =>
    obtain ⟨-, rfl⟩ := (Instruction.decode?_eq_some_iff_of_addressed rfl _).mp hdecode
    change m.fetch.bits.toNat / 4096 = 0x2 at hfamily
    simp only [fault?, ite_eq_right_iff, reduceCtorEq, imp_false, Bool.not_eq_true] at hfault
    have hfree : m.advance.stack.isFull = false := hfault
    simp only [destination, hfamily, hfree]
    exact m.fetch.toNat_nnn.symm
  | jumpFrom base =>
    obtain ⟨-, rfl⟩ := (Instruction.decode?_eq_some_iff_of_addressed rfl _).mp hdecode
    change m.fetch.bits.toNat / 4096 = 0xB at hfamily
    have hbyte := (m.reg (.ofNat 0)).toNat_lt
    have hreg : m.advance.reg (.ofNat 0) = m.reg (.ofNat 0) := rfl
    simp only [destination, hfamily, hreg]
    rw [UInt16.toNat_add, UInt8.toNat_toUInt16, Word.toNat_nnn]
    omega
  | skip condition =>
    have hmeets : m.advance.meets condition = m.skips m.fetch.bits.toNat := by
      rw [skips_eq_meets hdecode]
      cases condition <;> rfl
    have hover : m.pc + 2 + 2 = m.pc + 4 := UInt16.add_assoc _ _ _
    rw [destination_of_isSkip (isSkip_of_decode? hdecode)]
    simp only [hmeets, hpc, hover]
    split <;> rfl
  | awaitKey x =>
    have hcode := (Word.kk_eq_iff _ _).mp
      ((Instruction.decode?_eq_some_iff_of_coded rfl _).mp hdecode).2.1
    change m.fetch.bits.toNat / 4096 = 0xF at hfamily
    change m.fetch.bits.toNat % 256 = 0x0A at hcode
    have hback : m.pc + 2 - 2 = m.pc := UInt16.add_sub_cancel _ _
    have hkeypad : m.advance.keypad = m.keypad := rfl
    simp only [destination, hfamily, hcode, true_and, ← Keypad.lowest?_eq_none_iff, hpc,
      hkeypad, hback]
    cases m.keypad.lowest? with
    | none => rfl
    | some key => exact m.following_eq
  | readDelay x | setDelay x | setSound x | addIndex x | glyph x | decimal x | store x | load x =>
    have hcode := (Word.kk_eq_iff _ _).mp
      ((Instruction.decode?_eq_some_iff_of_coded rfl _).mp hdecode).2.1
    have hother : m.fetch.bits.toNat % 256 ≠ 0x0A := by
      rw [hcode]
      decide
    rw [destination_of_coded hfamily hother]
    exact m.following_eq
  | setByte x byte | addByte x byte | compute operation x y | setIndex address | random x mask
  | draw x y height =>
    rw [destination_of_family (by rw [hfamily, Instruction.family]; decide)]
    exact m.following_eq

/-! ## Steps -/

theorem pc_step (h : m.step.2 = none) :
    m.step.1.pc.toNat = m.destination m.fetch.bits.toNat := by
  obtain ⟨instruction, hnext⟩ := error_step_eq_none_iff_next.mp h
  rw [step_of_ok hnext, destination_eq hnext]
  rfl

/-- A skip cannot fail. -/
theorem error_step_of_isSkip (h : IsSkip m.fetch.bits.toNat) : m.step.2 = none := by
  rw [error_step_eq_none_iff, Word.Unassigned, Word.Overflows, Word.Underflows]
  simp only [IsSkip, List.mem_cons, List.not_mem_nil, or_false] at h ⊢
  omega

theorem pc_step_of_isSkip (h : IsSkip m.fetch.bits.toNat) :
    m.step.1.pc = if m.skips m.fetch.bits.toNat then m.pc + 4 else m.pc + 2 := by
  rw [← UInt16.toNat_inj, pc_step (error_step_of_isSkip h), destination_of_isSkip h]
  split <;> rfl

/-- **Control flow.** A step that succeeds goes to the destination of its word. In
particular no arithmetic, no setting of the index, no drawing and no word of family F but
the one that waits changes the flow. Opposed skips always succeed, and on machines with
the same program counter, registers and keys exactly one of them passes over a word. -/
theorem control_flow (m : Machine) :
    let word := m.wordAt m.pc.toNat
    (m.step.2 = none → m.step.1.pc.toNat = m.destination word)
      ∧ (m.step.2 = none →
        word / 4096 ∈ [0x6, 0x7, 0x8, 0xA, 0xC, 0xD]
          ∨ (word / 4096 = 0xF ∧ word % 256 ≠ 0x0A) →
        m.step.1.pc = m.pc + 2)
      ∧ ∀ m' : Machine, m'.pc = m.pc → m'.v = m.v → m'.keypad = m.keypad →
        Opposed word (m'.wordAt m'.pc.toNat) →
        (m.step.2 = none ∧ m'.step.2 = none)
          ∧ ((m.step.1.pc = m.pc + 4 ∧ m'.step.1.pc = m.pc + 2)
            ∨ (m.step.1.pc = m.pc + 2 ∧ m'.step.1.pc = m.pc + 4)) := by
  intro word
  have hword : word = m.fetch.bits.toNat := m.bits_fetch_eq_wordAt.symm
  refine ⟨?_, ?_, ?_⟩
  · intro h
    rw [hword]
    exact pc_step h
  · intro h hplain
    have hdestination : m.destination word = m.following := by
      rcases hplain with hfamily | ⟨hfamily, hcode⟩
      · exact destination_of_family hfamily
      · exact destination_of_coded hfamily hcode
    rw [← UInt16.toNat_inj, pc_step h, ← hword, hdestination, following_eq]
  · intro m' hpc hv hkeypad hopposed
    rw [hword, ← m'.bits_fetch_eq_wordAt] at hopposed
    obtain ⟨hskip, hskip'⟩ := isSkip_of_opposed hopposed
    refine ⟨⟨error_step_of_isSkip hskip, error_step_of_isSkip hskip'⟩, ?_⟩
    rw [pc_step_of_isSkip hskip, pc_step_of_isSkip hskip',
      skips_of_opposed hopposed hv hkeypad, hpc]
    cases m.skips m.fetch.bits.toNat with
    | true => exact .inl ⟨rfl, rfl⟩
    | false => exact .inr ⟨rfl, rfl⟩

/-- A fresh machine at the end of the address space, with a byte and a zero in the last
two bytes of memory. -/
def atEnd (high : UInt8) : Machine :=
  { fresh (.cycle #[]) with pc := 0xFFFE, memory := Memory.initial.write 0xFFE high }

theorem wordAt_atEnd (high : UInt8) :
    (atEnd high).wordAt (atEnd high).pc.toNat = high.toNat * 256 := by
  have hhigh : (atEnd high).memory.bytes[4094] = high := by
    rw [← Memory.read_ofNat _ (by decide)]
    exact (Memory.read_write ..).trans (if_pos rfl)
  have hlow : (atEnd high).memory.bytes[4095] = 0 := by
    rw [← Memory.read_ofNat _ (by decide)]
    refine (Memory.read_write ..).trans ((if_neg (by decide)).trans ?_)
    rw [Memory.read_ofNat _ (by decide), Memory.bytes_initial, if_neg (by decide)]
  have hpc : (atEnd high).pc.toNat = 0xFFFE := rfl
  simp only [wordAt, hpc, Nat.reduceMod, Nat.reduceAdd, hhigh, hlow]
  exact Nat.add_zero _

/-- A skip that holds goes round by four, its opposite and an index that is set go round
by two. -/
theorem control_flow_at_end :
    (atEnd 0x30).step.2 = none ∧ (atEnd 0x30).step.1.pc.toNat = 2
      ∧ (atEnd 0x40).step.1.pc = 0
      ∧ (atEnd 0xA0).step.2 = none ∧ (atEnd 0xA0).step.1.pc = 0 := by
  have hequal : (atEnd 0x30).wordAt (atEnd 0x30).pc.toNat = 0x3000 := wordAt_atEnd 0x30
  have hdiffers : (atEnd 0x40).wordAt (atEnd 0x40).pc.toNat = 0x4000 := wordAt_atEnd 0x40
  have hindex : (atEnd 0xA0).wordAt (atEnd 0xA0).pc.toNat = 0xA000 := wordAt_atEnd 0xA0
  have hdestination : (atEnd 0x30).destination 0x3000 = 2 := by decide +kernel
  have hsucceeds : (atEnd 0xA0).step.2 = none := by
    rw [error_step_eq_none_iff, bits_fetch_eq_wordAt, hindex]
    simp [Word.Unassigned, Word.Overflows, Word.Underflows]
  obtain ⟨hgoes, -, hopposed⟩ := control_flow (atEnd 0x30)
  obtain ⟨-, hplain, -⟩ := control_flow (atEnd 0xA0)
  rw [hequal] at hgoes hopposed
  rw [hindex] at hplain
  obtain ⟨⟨hskips, -⟩, hpcs⟩ := hopposed (atEnd 0x40) rfl rfl rfl
    (by rw [hdiffers]; exact .inl ⟨rfl, rfl, rfl⟩)
  have hover : (atEnd 0x30).step.1.pc.toNat = 2 := (hgoes hskips).trans hdestination
  refine ⟨hskips, hover, ?_, hsucceeds, hplain hsucceeds (.inl (by decide))⟩
  rcases hpcs with ⟨-, hnext⟩ | ⟨hnext, -⟩
  · exact hnext
  · -- the first machine has not gone on to the next word
    rw [hnext] at hover
    exact absurd hover (by decide)

end Chip8.Machine
