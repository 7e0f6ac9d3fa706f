import Chip8.Proofs.Frame

/-!
# Arithmetic and the flag

The words of family 8 compute with two registers and leave the result in the first. Five
of them leave a flag in the last register too, before the result, which matters where one
of the two operands is that register: addition has read its operands by then, while the
others read them again and find the flag (`reg_setFlag`). What is left is a law of its own
for each of them, in terms of the numbers in the registers when the word is fetched
(`Adds`, `Subtracts`, `SubtractsFrom`, `Halves`, `Doubles`). Besides the result and the
flag no register changes, and without a flag nothing but the result does (`WritesOnly`).
-/

namespace Chip8.Machine

/-- The number in a register. -/
def value (m : Machine) (r : Nibble) : Int := (m.reg r).toNat

/-- A flag as a number. -/
def flagged (p : Prop) [Decidable p] : Int := if p then 1 else 0

/-! ## What the operations leave

`before` and `after` give the number in each register before and after the word. -/

/-- The sum, less a carry that is left in the flag. Where the result goes to the flag
register, the flag is lost. -/
structure Adds (before after : Nibble → Int) (x y : Nibble) : Prop where
  result : after x = (before x + before y) % 256
  carry : x ≠ flag → after flag = flagged (255 < before x + before y)

/-- The difference, with a flag that says that it is positive. An operand in the flag
register has become the flag before it is read. -/
structure Subtracts (before after : Nibble → Int) (x y : Nibble) : Prop where
  apart : x ≠ flag → y ≠ flag →
    after x = (before x - before y) % 256 ∧ after flag = flagged (before y < before x)
  fromFlag : x ≠ flag → y = flag →
    after x = before x - flagged (before y < before x)
      ∧ after flag = flagged (before y < before x)
  intoFlag : x = flag → y ≠ flag →
    after flag = (flagged (before y < before x) - before y) % 256
  both : x = flag → y = flag → after flag = 0
  equal : x ≠ flag → before x = before y → after flag = 0

/-- The difference the other way round. -/
structure SubtractsFrom (before after : Nibble → Int) (x y : Nibble) : Prop where
  apart : x ≠ flag → y ≠ flag →
    after x = (before y - before x) % 256 ∧ after flag = flagged (before x < before y)
  fromFlag : x ≠ flag → y = flag →
    after x = (flagged (before x < before y) - before x) % 256
      ∧ after flag = flagged (before x < before y)
  intoFlag : x = flag → y ≠ flag →
    after flag = before y - flagged (before x < before y)
  both : x = flag → y = flag → after flag = 0
  equal : x ≠ flag → before x = before y → after flag = 0

/-- The half, with the bit that is lost in the flag. In the flag register that bit is
halved itself. -/
structure Halves (before after : Nibble → Int) (x : Nibble) : Prop where
  apart : x ≠ flag → after x = before x / 2 ∧ after flag = before x % 2
  intoFlag : x = flag → after flag = 0

/-- The double, with the bit that is lost in the flag. In the flag register that bit is
doubled itself. -/
structure Doubles (before after : Nibble → Int) (x : Nibble) : Prop where
  apart : x ≠ flag → after x = 2 * before x % 256 ∧ after flag = before x / 128
  intoFlag : x = flag → after flag = 2 * (before x / 128)

/-- A step that succeeds and, besides moving past its word and counting the timers down,
changes nothing but some registers. -/
def WritesOnly (m : Machine) (registers : List Nibble) : Prop :=
  m.step = ({ m.advance.tick with v := m.step.1.v }, none)
    ∧ ∀ r, r ∉ registers → m.step.1.reg r = m.reg r

/-! ## Numbers in registers -/

theorem value_nonneg (m : Machine) (r : Nibble) : 0 ≤ m.value r := Int.natCast_nonneg _

theorem value_lt (m : Machine) (r : Nibble) : m.value r < 256 := by
  have := (m.reg r).toNat_lt
  simp only [value]
  omega

theorem value_setReg (m : Machine) (r s : Nibble) (b : UInt8) :
    (m.setReg r b).value s = if r = s then (b.toNat : Int) else m.value s := by
  simp only [value, reg_setReg]
  split <;> rfl

theorem toNat_sub_emod (a b : UInt8) : ((a - b).toNat : Int) = (a.toNat - b.toNat) % 256 := by
  have := a.toNat_lt
  have := b.toNat_lt
  rw [UInt8.toNat_sub]
  omega

/-- An operand that is read after the flag is the flag if it is in the flag register. -/
theorem value_setFlag (m : Machine) (r : Nibble) {on : Bool} {p : Prop} [Decidable p]
    (hon : on = true ↔ p) :
    (m.setFlag on).value r = if flag = r then flagged p else m.value r := by
  have hflag : (on.toUInt8.toNat : Int) = flagged p := by
    simp only [flagged, ← hon]
    cases on <;> rfl
  rw [setFlag, value_setReg, hflag]

/-- The flag outlives a result that goes to another register. -/
theorem value_flag_setReg (m : Machine) {x : Nibble} (b : UInt8) {on : Bool} {p : Prop}
    [Decidable p] (hon : on = true ↔ p) (hx : x ≠ flag) :
    ((m.setFlag on).setReg x b).value flag = flagged p := by
  rw [value_setReg, if_neg hx, value_setFlag _ _ hon, if_pos rfl]

theorem reg_lt_iff (m : Machine) (r s : Nibble) :
    m.reg r < m.reg s ↔ m.value r < m.value s := by
  rw [UInt8.lt_iff_toNat_lt, value, value, Int.ofNat_lt]

/-! ## Operations -/

theorem adds_compute (m : Machine) (x y : Nibble) :
    Adds m.value (m.compute .add x y).value x y := by
  have hsum : ((m.reg x + m.reg y).toNat : Int) = (m.value x + m.value y) % 256 := by
    rw [UInt8.toNat_add]
    simp only [value]
    omega
  have hcarry : decide (255 < (m.reg x).toNat + (m.reg y).toNat) = true
      ↔ 255 < m.value x + m.value y := by
    rw [decide_eq_true_iff]
    simp only [value]
    omega
  constructor
  case result => rw [compute, value_setReg, if_pos rfl, hsum]
  case carry => exact m.value_flag_setReg _ hcarry

/-- What is left when register `x` takes the difference of two registers after the flag
has been set: an operand in the flag register is the flag. -/
theorem value_difference (m : Machine) (x minuend subtrahend : Nibble) :
    let f := flagged (m.value subtrahend < m.value minuend)
    let n := m.setFlag (m.reg subtrahend < m.reg minuend)
    let after := n.setReg x (n.reg minuend - n.reg subtrahend)
    after.value x = ((if flag = minuend then f else m.value minuend)
        - (if flag = subtrahend then f else m.value subtrahend)) % 256
      ∧ (x ≠ flag → after.value flag = f) := by
  intro f n after
  have hon := decide_eq_true_iff.trans (m.reg_lt_iff subtrahend minuend)
  have hoperand (r : Nibble) : ((n.reg r).toNat : Int) = if flag = r then f else m.value r :=
    m.value_setFlag r hon
  refine ⟨?_, m.value_flag_setReg _ hon⟩
  rw [value_setReg, if_pos rfl, toNat_sub_emod, hoperand, hoperand]

/-- The same when it takes the result of an operation `f` on itself, which is `g` on
numbers. -/
theorem value_reread (m : Machine) (x : Nibble) {on : Bool} {p : Prop} [Decidable p]
    (hon : on = true ↔ p) {f : UInt8 → UInt8} {g : Int → Int}
    (hg : ∀ b, ((f b).toNat : Int) = g b.toNat) :
    let n := m.setFlag on
    let after := n.setReg x (f (n.reg x))
    after.value x = g (if flag = x then flagged p else m.value x)
      ∧ (x ≠ flag → after.value flag = flagged p) := by
  intro n after
  have hoperand : ((n.reg x).toNat : Int) = if flag = x then flagged p else m.value x :=
    m.value_setFlag x hon
  refine ⟨?_, m.value_flag_setReg _ hon⟩
  rw [value_setReg, if_pos rfl, hg, hoperand]

/-- The flag is set only if the minuend is positive, so it can be taken from it. -/
theorem sub_flagged_emod {a b : Int} (hb : 0 ≤ b) (ha : 0 ≤ a) (ha' : a < 256) :
    (a - flagged (b < a)) % 256 = a - flagged (b < a) := by
  unfold flagged
  split <;> omega

theorem subtracts_compute (m : Machine) (x y : Nibble) :
    Subtracts m.value (m.compute .subtract x y).value x y := by
  obtain ⟨hresult, hflag⟩ := m.value_difference x x y
  constructor
  case apart =>
    intro hxF hyF
    rw [if_neg (Ne.symm hxF), if_neg (Ne.symm hyF)] at hresult
    exact ⟨hresult, hflag hxF⟩
  case fromFlag =>
    rintro hxF rfl
    rw [if_neg (Ne.symm hxF), if_pos rfl,
      sub_flagged_emod (m.value_nonneg flag) (m.value_nonneg x) (m.value_lt x)] at hresult
    exact ⟨hresult, hflag hxF⟩
  case intoFlag =>
    rintro rfl hyF
    rw [if_pos rfl, if_neg (Ne.symm hyF)] at hresult
    exact hresult
  case both =>
    rintro rfl rfl
    rw [if_pos rfl, Int.sub_self] at hresult
    exact hresult
  case equal =>
    intro hxF hequal
    exact (hflag hxF).trans (if_neg (by omega))

theorem subtractsFrom_compute (m : Machine) (x y : Nibble) :
    SubtractsFrom m.value (m.compute .subtractFrom x y).value x y := by
  obtain ⟨hresult, hflag⟩ := m.value_difference x y x
  constructor
  case apart =>
    intro hxF hyF
    rw [if_neg (Ne.symm hxF), if_neg (Ne.symm hyF)] at hresult
    exact ⟨hresult, hflag hxF⟩
  case fromFlag =>
    rintro hxF rfl
    rw [if_pos rfl, if_neg (Ne.symm hxF)] at hresult
    exact ⟨hresult, hflag hxF⟩
  case intoFlag =>
    rintro rfl hyF
    rw [if_neg (Ne.symm hyF), if_pos rfl,
      sub_flagged_emod (m.value_nonneg flag) (m.value_nonneg y) (m.value_lt y)] at hresult
    exact hresult
  case both =>
    rintro rfl rfl
    rw [if_pos rfl, Int.sub_self] at hresult
    exact hresult
  case equal =>
    intro hxF hequal
    exact (hflag hxF).trans (if_neg (by omega))

theorem halves_compute (m : Machine) (x y : Nibble) :
    Halves m.value (m.compute .halve x y).value x := by
  have hbit : (m.reg x % 2 == 1) = true ↔ m.value x % 2 = 1 := by
    rw [beq_iff_eq, ← UInt8.toNat_inj, UInt8.toNat_mod]
    simp only [value, UInt8.reduceToNat]
    omega
  have hhalf (b : UInt8) : ((b / 2).toNat : Int) = (b.toNat : Int) / 2 := by
    rw [UInt8.toNat_div]
    rfl
  obtain ⟨hresult, hflag⟩ := m.value_reread x hbit (f := (· / 2)) (g := (· / 2)) hhalf
  constructor
  case apart =>
    intro hx
    rw [if_neg (Ne.symm hx)] at hresult
    refine ⟨hresult, (hflag hx).trans ?_⟩
    unfold flagged
    split <;> omega
  case intoFlag =>
    rintro rfl
    rw [if_pos rfl] at hresult
    refine hresult.trans ?_
    unfold flagged
    split <;> rfl

theorem doubles_compute (m : Machine) (x y : Nibble) :
    Doubles m.value (m.compute .double x y).value x := by
  have hlt := m.value_lt x
  have hnonneg := m.value_nonneg x
  have hbit : decide (128 ≤ m.reg x) = true ↔ 128 ≤ m.value x := by
    rw [decide_eq_true_iff, UInt8.le_iff_toNat_le]
    simp only [value, UInt8.reduceToNat]
    omega
  have hdouble (b : UInt8) : ((b * 2).toNat : Int) = 2 * (b.toNat : Int) % 256 := by
    rw [UInt8.toNat_mul]
    simp only [UInt8.reduceToNat]
    omega
  obtain ⟨hresult, hflag⟩ := m.value_reread x hbit (f := (· * 2)) (g := (2 * · % 256)) hdouble
  constructor
  case apart =>
    intro hx
    rw [if_neg (Ne.symm hx)] at hresult
    refine ⟨hresult, (hflag hx).trans ?_⟩
    unfold flagged
    split <;> omega
  case intoFlag =>
    rintro rfl
    rw [if_pos rfl] at hresult
    refine hresult.trans ?_
    unfold flagged
    split <;> omega

/-- Only the result and the flag change, and operations without a flag leave the last
register alone. -/
theorem reg_compute_of_ne (m : Machine) {operation : Arithmetic} {x r : Nibble} (y : Nibble)
    (hx : r ≠ x) (hflag : r ≠ flag ∨ operation ∈ [.copy, .or, .and, .xor]) :
    (m.compute operation x y).reg r = m.reg r := by
  cases operation with
  | copy | or | and | xor => rw [compute, reg_setReg, if_neg (Ne.symm hx)]
  | add | subtract | halve | subtractFrom | double =>
    have hr : flag ≠ r := Ne.symm (hflag.resolve_right (by decide))
    rw [compute, reg_setReg, if_neg (Ne.symm hx), reg_setFlag, if_neg hr]

/-! ## Steps -/

theorem arithmetic?_of_flag : ∀ n : Nibble, n ∈ [0x4, 0x5, 0x6, 0x7, 0xE] →
    ∃ operation, Instruction.arithmetic? n = some operation := by
  intro n hn
  rw [← Option.isSome_iff_exists]
  revert n
  decide

theorem arithmetic?_of_plain : ∀ n : Nibble, n ∈ [0x0, 0x1, 0x2, 0x3] →
    ∃ operation ∈ [Arithmetic.copy, .or, .and, .xor],
      Instruction.arithmetic? n = some operation := by
  decide

theorem writesOnly_of_step {m : Machine} {v : Bank UInt8} {registers : List Nibble}
    (hstep : m.step = ({ m.advance with v := v }.tick, none))
    (hv : ∀ r, r ∉ registers → v.entry r = m.reg r) : m.WritesOnly registers := by
  refine ⟨?_, ?_⟩
  · rw [hstep]
    rfl
  · intro r hr
    rw [hstep]
    exact hv r hr

theorem step_of_compute {m : Machine} {operation : Arithmetic}
    (hfamily : m.fetch.family = 0x8)
    (hdigit : Instruction.arithmetic? m.fetch.n = some operation) :
    m.step =
      ({ m.advance with v := (m.advance.compute operation m.fetch.x m.fetch.y).v }.tick,
        none) := by
  have hdecode := (Instruction.decode?_eq_compute_iff _ _ _ _).mpr ⟨hfamily, hdigit, rfl, rfl⟩
  rw [step_of_ok (next_eq_ok_iff.mpr ⟨hdecode, rfl⟩), execute_compute]

theorem step_of_addByte {m : Machine} (hfamily : m.fetch.family = 0x7) :
    m.step =
      ({ m.advance with
        v := m.v.update m.fetch.x (m.reg m.fetch.x + m.fetch.kk) }.tick, none) := by
  have hdecode : Instruction.decode? m.fetch = some (.addByte m.fetch.x m.fetch.kk) :=
    (Instruction.decode?_eq_some_iff_of_valued rfl _).mpr ⟨hfamily, rfl, rfl⟩
  rw [step_of_ok (next_eq_ok_iff.mpr ⟨hdecode, rfl⟩)]
  rfl

theorem value_step_of_compute {m : Machine} {operation : Arithmetic}
    (hfamily : m.fetch.family = 0x8)
    (hdigit : Instruction.arithmetic? m.fetch.n = some operation) :
    m.step.1.value = (m.advance.compute operation m.fetch.x m.fetch.y).value := by
  rw [step_of_compute hfamily hdigit]
  rfl

theorem writesOnly_of_compute {m : Machine} {operation : Arithmetic} {registers : List Nibble}
    (hfamily : m.fetch.family = 0x8)
    (hdigit : Instruction.arithmetic? m.fetch.n = some operation) (hx : m.fetch.x ∈ registers)
    (hflag : flag ∈ registers ∨ operation ∈ [.copy, .or, .and, .xor]) :
    m.WritesOnly registers := by
  refine writesOnly_of_step (step_of_compute hfamily hdigit) ?_
  intro r hr
  refine m.advance.reg_compute_of_ne m.fetch.y (fun h => hr (h ▸ hx)) ?_
  rcases hflag with hflag | hplain
  · exact .inl fun h => hr (h ▸ hflag)
  · exact .inr hplain

/-- **Arithmetic and the flag.** The five operations that leave a flag obey their laws
whichever of their registers is the flag register, on the numbers that stand in the
registers when the word is fetched, and they write nothing but the result and the flag.
The other four and the addition of a byte write nothing but the result, so that they leave
the flag alone. All of them succeed. -/
theorem flag_arithmetic (m : Machine) :
    let w := m.fetch
    let before := m.value
    let after := m.step.1.value
    (w.family = 0x8 →
      (w.n = 0x4 → Adds before after w.x w.y)
        ∧ (w.n = 0x5 → Subtracts before after w.x w.y)
        ∧ (w.n = 0x6 → Halves before after w.x)
        ∧ (w.n = 0x7 → SubtractsFrom before after w.x w.y)
        ∧ (w.n = 0xE → Doubles before after w.x)
        ∧ (w.n ∈ [0x4, 0x5, 0x6, 0x7, 0xE] → m.WritesOnly [w.x, flag])
        ∧ (w.n ∈ [0x0, 0x1, 0x2, 0x3] → m.WritesOnly [w.x]))
      ∧ (w.family = 0x7 → m.WritesOnly [w.x]) := by
  intro w before after
  refine ⟨?_, ?_⟩
  · intro hfamily
    have hafter {digit : Nibble} {operation : Arithmetic} (hn : w.n = digit)
        (hdigit : Instruction.arithmetic? digit = some operation) :
        after = (m.advance.compute operation w.x w.y).value :=
      value_step_of_compute hfamily (hn ▸ hdigit)
    refine ⟨?_, ?_, ?_, ?_, ?_, ?_, ?_⟩
    · intro hn
      rw [hafter hn rfl]
      exact m.advance.adds_compute w.x w.y
    · intro hn
      rw [hafter hn rfl]
      exact m.advance.subtracts_compute w.x w.y
    · intro hn
      rw [hafter hn rfl]
      exact m.advance.halves_compute w.x w.y
    · intro hn
      rw [hafter hn rfl]
      exact m.advance.subtractsFrom_compute w.x w.y
    · intro hn
      rw [hafter hn rfl]
      exact m.advance.doubles_compute w.x w.y
    · intro hn
      obtain ⟨operation, hdigit⟩ := arithmetic?_of_flag _ hn
      exact writesOnly_of_compute hfamily hdigit List.mem_cons_self
        (.inl (List.mem_cons_of_mem _ List.mem_cons_self))
    · intro hn
      obtain ⟨operation, hplain, hdigit⟩ := arithmetic?_of_plain _ hn
      exact writesOnly_of_compute hfamily hdigit List.mem_cons_self (.inr hplain)
  · intro hfamily
    refine writesOnly_of_step (step_of_addByte hfamily) ?_
    intro r hr
    have hx : w.x ≠ r := fun h => hr (h ▸ List.mem_cons_self)
    rw [Bank.entry_update, if_neg hx]
    rfl

/-- A program that puts 5 and 3 into register 1 and the last register and subtracts the
last from 1, then copies it, and then adds to it. -/
def aliased : List UInt8 := [0x61, 0x05, 0x6F, 0x03, 0x81, 0xF5, 0x81, 0xF0, 0x7F, 0x02]

/-- What is taken from 5 is the flag and not 3. The last register does not change when it
is copied, and nothing else does when it is added to. -/
theorem flag_arithmetic_of_aliased :
    let m := (fresh (.cycle #[])).run [.load aliased, .step, .step]
    let n := m.step.1
    (m.fetch.family = 0x8 ∧ m.fetch.n = 0x5 ∧ m.value 1 = 5 ∧ m.value flag = 3)
      ∧ (n.value 1 = 4 ∧ n.value flag = 1 ∧ n.value 2 = 0)
      ∧ (n.fetch.family = 0x8 ∧ n.fetch.n = 0x0 ∧ n.step.1.reg flag = n.reg flag)
      ∧ n.step.1.fetch.family = 0x7 ∧ n.step.1.WritesOnly [n.step.1.fetch.x] := by
  intro m n
  have hwords : m.fetch.family = 0x8 ∧ m.fetch.n = 0x5 ∧ m.fetch.x = 1 ∧ m.fetch.y = flag
      ∧ m.value 1 = 5 ∧ m.value flag = 3 ∧ m.reg 2 = 0
      ∧ n.fetch.family = 0x8 ∧ n.fetch.n = 0x0 ∧ n.fetch.x = 1
      ∧ n.step.1.fetch.family = 0x7 := by decide +kernel
  obtain ⟨hfamily, hn, hx, hy, hfive, hthree, hzero, hfamily', hn', hx', hfamily''⟩ := hwords
  obtain ⟨-, hsubtracts, -, -, -, hwrites, -⟩ := (flag_arithmetic m).1 hfamily
  obtain ⟨-, -, -, -, -, -, hplain⟩ := (flag_arithmetic n).1 hfamily'
  have hdifference := hsubtracts hn
  obtain ⟨-, hothers⟩ := hwrites (by rw [hn]; decide)
  obtain ⟨-, hkept⟩ := hplain (by rw [hn']; decide)
  rw [hx, hy] at hdifference
  rw [hx] at hothers
  rw [hx'] at hkept
  obtain ⟨hresult, hflag⟩ := hdifference.fromFlag (by decide) rfl
  rw [hfive, hthree] at hresult hflag
  refine ⟨⟨hfamily, hn, hfive, hthree⟩, ⟨hresult, hflag, ?_⟩, ⟨hfamily', hn', ?_⟩,
    hfamily'', ?_⟩
  · show ((m.step.1.reg 2).toNat : Int) = 0
    rw [hothers 2 (by decide), hzero]
    rfl
  · exact hkept flag (by decide)
  · exact (flag_arithmetic n.step.1).2 hfamily''

end Chip8.Machine
