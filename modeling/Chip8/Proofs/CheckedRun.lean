import Chip8.Proofs.CheckedHandlers
import Chip8.Proofs.Frame

/-!
# No check fails

Every word finds its handler in the tables (`dispatches_execute`), so a step passes its
checks (`step_layout`), and so does whatever else a host asks for (`respond_layout`). By
induction over what it asks, a machine that starts fresh never fails a check, and nothing
tells it apart from the machine without checks (`no_check_fails`).
-/

namespace Chip8.Checked

variable {tape : Array UInt8} {m : Machine} {w : Word}

/-! ## Words -/

/-- A handler passes its checks, and does what the machine does with a word. -/
def Dispatches (tape : Array UInt8) (h : Handler) (m : Machine) (w : Word) : Prop :=
  h (layout tape m) w.bits = some (layout tape (m.dispatch w).1, (m.dispatch w).2)

theorem dispatches_of_carries {h : Handler} {instruction : Instruction}
    (hdecode : Instruction.decode? w = some instruction)
    (hcarries : Carries tape h m w instruction) :
    Dispatches tape h m w := by
  rw [Dispatches, Machine.dispatch, hdecode]
  exact hcarries

/-- The handler that a table has for a key fits the instruction that a word stands for. -/
inductive Fits (tape : Array UInt8) (m : Machine) (w : Word) :
    Option Handler → Option Instruction → Prop where
  | none : Fits tape m w none none
  | some {h : Handler} {instruction : Instruction}
      (hcarries : Carries tape h m w instruction) :
    Fits tape m w (some h) (some instruction)

theorem dispatches_lookup {size key : Nat} {entries : List (Nat × Handler)}
    (hkey : key < size) (hfits : Fits tape m w (entries.lookup key) (Instruction.decode? w)) :
    Dispatches tape (lookup (tableOf size entries) key) m w := by
  have hget : (tableOf size entries)[key]? = some (entries.lookup key) := by
    simp [tableOf, hkey]
  rw [Dispatches, lookup, hget, Option.bind_eq_bind, Option.bind_some, Machine.dispatch]
  -- what the table has and what the word stands for are there or missing together
  generalize entries.lookup key = handler?, Instruction.decode? w = instruction? at hfits
  cases hfits with
  | none => rfl
  | some hcarries => exact hcarries

/-- A last digit is below 16. -/
theorem dispatches_byDigit {entries : List (Nat × Handler)}
    (hfits : Fits tape m w (entries.lookup w.n.val) (Instruction.decode? w)) :
    Dispatches tape (byDigit entries) m w := by
  have hlookup : Dispatches tape (lookup (tableOf 16 entries) w.n.val) m w :=
    dispatches_lookup w.n.isLt hfits
  rw [Dispatches, byDigit, n_eq]
  exact hlookup

/-- A byte is below 256. -/
theorem dispatches_byByte {entries : List (Nat × Handler)}
    (hfits : Fits tape m w (entries.lookup w.kk.toNat) (Instruction.decode? w)) :
    Dispatches tape (byByte entries) m w := by
  have hlookup : Dispatches tape (lookup (tableOf 256 entries) w.kk.toNat) m w :=
    dispatches_lookup w.kk.toNat_lt hfits
  rw [Dispatches, byByte, kk_eq]
  exact hlookup

/-! ### Tables -/

theorem lookup_entries0 : ∀ k : Nibble, k ∉ [0x0, 0xE] → entries0.lookup k.val = none := by
  decide

theorem lookup_entries8 :
    ∀ k : Nibble, k ∉ [0x0, 0x1, 0x2, 0x3, 0x4, 0x5, 0x6, 0x7, 0xE] →
      entries8.lookup k.val = none := by
  decide

theorem lookup_entriesE : ∀ k : Nibble, k ∉ [0x1, 0xE] → entriesE.lookup k.val = none := by
  decide

theorem lookup_entriesF {kk : UInt8}
    (h : kk ∉ [0x07, 0x0A, 0x15, 0x18, 0x1E, 0x29, 0x33, 0x55, 0x65]) :
    entriesF.lookup kk.toNat = none := by
  simp only [List.mem_cons, not_or, ← UInt8.toNat_inj] at h
  rw [List.lookup_eq_none_iff]
  simpa [entriesF] using h

theorem fits_entries0 (hfamily : w.family = 0x0) :
    Fits tape m w (entries0.lookup w.n.val) (Instruction.decode? w) := by
  simp only [Instruction.decode?, hfamily]
  split
  case h_1 hn =>
    rw [hn]
    exact .some carries_clear
  case h_2 hn =>
    rw [hn]
    exact .some carries_ret
  case h_3 h0 hE =>
    rw [lookup_entries0 _ (by simp_all)]
    exact .none

theorem fits_entries8 (hfamily : w.family = 0x8) :
    Fits tape m w (entries8.lookup w.n.val) (Instruction.decode? w) := by
  simp only [Instruction.decode?, hfamily, Instruction.arithmetic?]
  split
  case h_1 hn | h_2 hn | h_3 hn | h_4 hn =>
    rw [hn]
    exact .some (carries_combine rfl)
  case h_5 hn =>
    rw [hn]
    exact .some carries_addReg
  case h_6 hn | h_8 hn =>
    rw [hn]
    exact .some (carries_flagged (fun m => (m.reg w.x, m.reg w.y)) (fun _ => both_layout) rfl)
  case h_7 hn =>
    rw [hn]
    refine .some (carries_flagged (fun m => m.reg w.x) (fun _ => reg_x) ?_)
    rw [(halve_bits _).1, (halve_bits _).2]
    rfl
  case h_9 hn =>
    rw [hn]
    refine .some (carries_flagged (fun m => m.reg w.x) (fun _ => reg_x) ?_)
    rw [(double_bits _).1, (double_bits _).2]
    rfl
  case h_10 =>
    rw [lookup_entries8 _ (by simp_all)]
    exact .none

theorem fits_entriesE (hfamily : w.family = 0xE) :
    Fits tape m w (entriesE.lookup w.n.val) (Instruction.decode? w) := by
  simp only [Instruction.decode?, hfamily]
  split
  case h_1 hn =>
    rw [hn]
    exact .some (carries_skipKey (beq_true _).symm)
  case h_2 hn =>
    rw [hn]
    exact .some (carries_skipKey (beq_false _).symm)
  case h_3 hE h1 =>
    rw [lookup_entriesE _ (by simp_all)]
    exact .none

theorem fits_entriesF (hfamily : w.family = 0xF) :
    Fits tape m w (entriesF.lookup w.kk.toNat) (Instruction.decode? w) := by
  rw [Instruction.decode?_eq_special? hfamily]
  unfold Instruction.special?
  split
  case h_1 hkk =>
    rw [hkk]
    exact .some (carries_assign rfl rfl)
  case h_2 hkk =>
    rw [hkk]
    exact .some carries_awaitKey
  case h_3 hkk | h_4 hkk | h_5 hkk =>
    rw [hkk]
    exact .some (carries_transfer rfl rfl)
  case h_6 hkk =>
    rw [hkk]
    exact .some carries_glyph
  case h_7 hkk =>
    rw [hkk]
    exact .some carries_decimal
  case h_8 hkk =>
    rw [hkk]
    exact .some carries_storeRegs
  case h_9 hkk =>
    rw [hkk]
    exact .some carries_loadRegs
  case h_10 =>
    rw [lookup_entriesF (by simp_all)]
    exact .none

/-! ### Families -/

theorem family_cases :
    ∀ k : Nibble, k = 0x0 ∨ k = 0x1 ∨ k = 0x2 ∨ k = 0x3 ∨ k = 0x4 ∨ k = 0x5 ∨ k = 0x6 ∨ k = 0x7
      ∨ k = 0x8 ∨ k = 0x9 ∨ k = 0xA ∨ k = 0xB ∨ k = 0xC ∨ k = 0xD ∨ k = 0xE ∨ k = 0xF := by
  decide

theorem dispatches_primary (h : Handler) {family : Nibble} (hfamily : w.family = family)
    (hget : primary[family.val]? = some h) (hdispatches : Dispatches tape h m w) :
    Dispatches tape execute m w := by
  rw [Dispatches, execute, family_eq, hfamily, hget]
  exact hdispatches

/-- A family in which every word is an instruction has its own handler. -/
theorem dispatches_family (h : Handler) (instruction : Instruction) {family : Nibble}
    (hfamily : w.family = family) (hget : primary[family.val]? = some h)
    (hdecode : Instruction.decode? w = some instruction)
    (hcarries : Carries tape h m w instruction) : Dispatches tape execute m w :=
  dispatches_primary h hfamily hget (dispatches_of_carries hdecode hcarries)

/-- Every word has a handler, and passes all checks of it. -/
theorem dispatches_execute (hsize : tape.size < 2 ^ wordBits) (hfeeds : Feeds tape m)
    (w : Word) :
    Dispatches tape execute m w := by
  rcases family_cases w.family with h | h | h | h | h | h | h | h | h | h | h | h | h | h | h | h
  · exact dispatches_primary (byDigit entries0) h rfl (dispatches_byDigit (fits_entries0 h))
  · exact dispatches_family jump (.jump w.nnn) h rfl
      (by simp only [Instruction.decode?, h]) carries_jump
  · exact dispatches_family call (.call w.nnn) h rfl
      (by simp only [Instruction.decode?, h]) carries_call
  · exact dispatches_family (skipByte (· == ·)) (.skip (.equalsByte w.x w.kk)) h rfl
      (by simp only [Instruction.decode?, h]) (carries_skipByte rfl)
  · exact dispatches_family (skipByte (· != ·)) (.skip (.differsByte w.x w.kk)) h rfl
      (by simp only [Instruction.decode?, h]) (carries_skipByte rfl)
  · exact dispatches_family (skipReg (· == ·)) (.skip (.equals w.x w.y)) h rfl
      (by simp only [Instruction.decode?, h]) (carries_skipReg rfl)
  · exact dispatches_family setByte (.setByte w.x w.kk) h rfl
      (by simp only [Instruction.decode?, h]) carries_setByte
  · exact dispatches_family addByte (.addByte w.x w.kk) h rfl
      (by simp only [Instruction.decode?, h]) carries_addByte
  · exact dispatches_primary (byDigit entries8) h rfl (dispatches_byDigit (fits_entries8 h))
  · exact dispatches_family (skipReg (· != ·)) (.skip (.differs w.x w.y)) h rfl
      (by simp only [Instruction.decode?, h]) (carries_skipReg rfl)
  · exact dispatches_family setIndex (.setIndex w.nnn) h rfl
      (by simp only [Instruction.decode?, h]) carries_setIndex
  · exact dispatches_family jumpFrom (.jumpFrom w.nnn) h rfl
      (by simp only [Instruction.decode?, h]) carries_jumpFrom
  · exact dispatches_family random (.random w.x w.kk) h rfl
      (by simp only [Instruction.decode?, h]) (carries_random hsize hfeeds)
  · exact dispatches_family draw (.draw w.x w.y w.n) h rfl
      (by simp only [Instruction.decode?, h]) carries_draw
  · exact dispatches_primary (byDigit entriesE) h rfl (dispatches_byDigit (fits_entriesE h))
  · exact dispatches_primary (byByte entriesF) h rfl (dispatches_byByte (fits_entriesF h))

/-! ## Inputs -/

theorem step_layout (hsize : tape.size < 2 ^ wordBits) (hfeeds : Feeds tape m) :
    (layout tape m).step = some (layout tape m.step.1, m.step.2) := by
  have hfetch : (m.memory.read m.pc).toUInt16 <<< 8 ||| (m.memory.read (m.pc + 1)).toUInt16
      = m.fetch.bits := ofBytes_eq _ _
  have hexecute : execute (layout tape m.advance) m.fetch.bits
      = some (layout tape (m.advance.dispatch m.fetch).1, (m.advance.dispatch m.fetch).2) :=
    dispatches_execute (m := m.advance) hsize hfeeds m.fetch
  have hpc : (layout tape m).pc = m.pc := rfl
  have hadvance : { layout tape m with pc := m.pc + 2 } = layout tape m.advance := rfl
  rw [State.step, hpc, read_layout, read_layout]
  simp only [Option.bind_eq_bind, Option.bind_some, hfetch, hadvance, hexecute, Machine.step]
  -- the timers are counted down only if there is no error
  rcases m.advance.dispatch m.fetch with ⟨after, _ | e⟩
  · rfl
  · rfl

/-- A block that is copied into memory stands where it would be written. -/
theorem splice_bytes (memory : Memory) (base : UInt16) {block : List UInt8}
    (hfits : base.toNat + block.length ≤ 4096) :
    splice memory.bytes base.toNat (base.toNat + block.length) block
      = some (memory.writeBlock base block).bytes := by
  have hlength : block.length ≤ 4096 := by omega
  have hrange : base.toNat ≤ base.toNat + block.length ∧ base.toNat + block.length ≤ 4096
      ∧ block.length = base.toNat + block.length - base.toNat := by omega
  rw [splice, if_pos hrange]
  refine congrArg some (Vector.ext fun p hp => ?_)
  rw [Vector.getElem_ofFn]
  by_cases hle : base.toNat ≤ p
  · rw [if_pos hle]
    cases hk : block[p - base.toNat]? with
    | some b =>
      have hplace : (base.toNat + (p - base.toNat)) % 4096 = p := by omega
      exact (Memory.bytes_writeBlock_of_mem memory hlength hp hk hplace).symm
    | none =>
      have hout : block.length ≤ p - base.toNat := List.getElem?_eq_none_iff.mp hk
      exact (Memory.bytes_writeBlock_of_not_mem memory hlength hp (by omega)).symm
  · rw [if_neg hle]
    exact (Memory.bytes_writeBlock_of_not_mem memory hlength hp (by omega)).symm

theorem load_layout (m : Machine) (program : List UInt8) :
    (layout tape m).load program
      = some (layout tape (m.load program).1, (m.load program).2) := by
  have hlimit : sub 4096 0x200 = some Memory.programLimit := rfl
  rw [State.load, hlimit, Option.bind_eq_bind, Option.bind_some]
  by_cases hfits : program.length ≤ Memory.programLimit
  · have hlimit : Memory.programLimit = 3584 := rfl
    have hadd : add wordBits 0x200 program.length = some (0x200 + program.length) := by
      apply add_of_lt
      unfold wordBits
      omega
    have hsplice : splice (layout tape m).bytes 0x200 (0x200 + program.length) program
        = some (m.memory.writeBlock Memory.programStart program).bytes :=
      splice_bytes m.memory Memory.programStart (by show 0x200 + program.length ≤ 4096; omega)
    rw [if_neg (Nat.not_lt.mpr hfits), m.load_of_le hfits]
    simp only [hadd, hsplice, Option.bind_eq_bind, Option.bind_some]
    rfl
  · rw [if_pos (Nat.not_le.mp hfits), m.load_of_lt (Nat.not_le.mp hfits)]

theorem fresh_layout (tape : Array UInt8) :
    State.fresh tape = some (layout tape (Machine.fresh (.cycle tape))) := by
  have hadd : add wordBits 0x050 Memory.font.length = some (0x050 + Memory.font.length) := rfl
  have hsplice : splice (.replicate 4096 0) 0x050 (0x050 + Memory.font.length) Memory.font
      = some Memory.initial.bytes :=
    splice_bytes ⟨.replicate 4096 0⟩ Memory.fontStart (by decide)
  have hplace : (layout tape (Machine.fresh (.cycle tape))).place = 0 := Nat.zero_mod _
  simp only [State.fresh, hadd, hsplice, Option.bind_eq_bind, Option.bind_some]
  rw [← hplace]
  rfl

theorem handle_layout (hsize : tape.size < 2 ^ wordBits) (hfeeds : Feeds tape m)
    (input : Input) :
    (layout tape m).handle input
      = some (layout tape (m.handle input).1, (m.handle input).2) := by
  cases input with
  | load program => exact load_layout m program
  | setKey key down =>
    rw [State.handle, setKey_layout]
    rfl
  | setKeys keys => rfl
  | step => exact step_layout hsize hfeeds

/-! ## Runs -/

theorem feeds_handle (h : Feeds tape m) (input : Input) : Feeds tape (m.handle input).1 := by
  rw [Feeds, Machine.random_handle]
  split
  · exact h
  · exact h

theorem respond_layout (hsize : tape.size < 2 ^ wordBits) (hfeeds : Feeds tape m)
    (call : Call) :
    (layout tape m).respond call = some (layout tape (m.run call.inputs), answer m call) := by
  cases call with
  | input input =>
    rw [State.respond, handle_layout hsize hfeeds]
    rfl
  | register r =>
    have hmask : r &&& 0xF = (Nibble.ofNat r).val := Nat.and_two_pow_sub_one_eq_mod r 4
    rw [State.respond, hmask, reg_layout]
    rfl
  | pixel x y =>
    rw [State.respond, pixel_layout]
    rfl

theorem run_layout (hsize : tape.size < 2 ^ wordBits) (hfeeds : Feeds tape m)
    (calls : List Call) :
    (layout tape m).run calls
      = some (layout tape (m.run (calls.flatMap Call.inputs)), answers m calls) := by
  induction calls generalizing m with
  | nil => rfl
  | cons call rest ih =>
    have hafter : Feeds tape (m.run call.inputs) := by
      cases call with
      | input input => exact feeds_handle hfeeds input
      | register r => exact hfeeds
      | pixel x y => exact hfeeds
    simp only [State.run, respond_layout hsize hfeeds, ih hafter, Option.bind_eq_bind,
      Option.bind_some]
    rw [List.flatMap_cons, Machine.run_append, answers]

/-- **No check fails.** Whatever a host asks of a fresh machine, in whatever order, and
whatever the random bytes are, the machine that checks every access and every sum comes to
an end. It is then in the layout of the machine that does without checks, and has given
the same answers. -/
theorem no_check_fails (tape : Array UInt8) (hsize : tape.size < 2 ^ wordBits)
    (calls : List Call) :
    (do
      let s ← State.fresh tape
      s.run calls)
      = some (layout tape ((Machine.fresh (.cycle tape)).run (calls.flatMap Call.inputs)),
          answers (Machine.fresh (.cycle tape)) calls) := by
  have hfeeds : Feeds tape (Machine.fresh (.cycle tape)) := rfl
  rw [fresh_layout, Option.bind_eq_bind, Option.bind_some]
  exact run_layout hsize hfeeds calls

/-- A list of one random byte is used twice, a register and two pixels are asked for by
numbers that are too large, and a return from no call is an error of the machine and of no
check. -/
theorem no_check_fails_in_a_short_run :
    let calls : List Call :=
      [.input (.load [0xC0, 0xFF, 0xC1, 0x0F, 0x00, 0xEE]), .input .step, .input .step,
        .input .step, .register 16, .register 0x10000001, .pixel 64 0,
        .pixel 0 0xFFFFFFFFFFFFFFFF]
    (#[0x2A] : Array UInt8).size < 2 ^ wordBits
      ∧ (do
        let s ← State.fresh #[0x2A]
        let (_, given) ← s.run calls
        some given)
        = some [.done none, .done none, .done none, .done (some (.stackUnderflow 0x204)),
            .byte 0x2A, .byte 0x0A, .lit false, .lit false] := by
  intro calls
  have hsize : (#[0x2A] : Array UInt8).size < 2 ^ wordBits := by decide
  have hrun := no_check_fails #[0x2A] hsize calls
  have hanswers : answers (Machine.fresh (.cycle #[0x2A])) calls
      = [.done none, .done none, .done none, .done (some (.stackUnderflow 0x204)),
          .byte 0x2A, .byte 0x0A, .lit false, .lit false] := by decide +kernel
  rw [fresh_layout, Option.bind_eq_bind, Option.bind_some] at hrun ⊢
  rw [hrun, hanswers]
  exact ⟨hsize, rfl⟩

end Chip8.Checked
