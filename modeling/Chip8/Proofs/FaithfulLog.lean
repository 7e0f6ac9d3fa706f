import Chip8.Proofs.Frame
import Mathlib.Data.List.Basic
import Mathlib.Logic.Function.Basic

/-!
# The log tells the run

With every record shown, the log of a run is what its inputs have to say one after another
(`Machine.entries`): a program that is put into memory its size, and a step the address
and the word that it begins with and then its error, if it fails. The error names the same
address and the same word, though it is made when the program counter is past them.

Addresses and words are written in hexadecimal digits, an address with three or four of
them. They can be read back (`Text.Hex.read?`), so a line of the log tells which address
and which word it is about (`line_injective`), and the lines of two runs are the same only
if their steps are.
-/

namespace Chip8

/-! ## Reading hexadecimal digits -/

namespace Text.Hex

/-- The digits of the values below sixteen, in order. -/
def alphabet : List Char :=
  ['0', '1', '2', '3', '4', '5', '6', '7', '8', '9', 'A', 'B', 'C', 'D', 'E', 'F']

/-- The number that upper-case digits stand for, the most significant digit first. -/
def read? (cs : List Char) : Option Nat :=
  cs.foldlM (fun n c => (alphabet.idxOf? c).map (16 * n + ·)) 0

theorem idxOf?_digit {d : Nat} (h : d < 16) : alphabet.idxOf? (digit d) = some d := by
  have hall : ∀ x : Fin 16, alphabet.idxOf? (digit x.val) = some x.val := by decide
  exact hall ⟨d, h⟩

/-- A number that has no more digits than are written is read back. -/
theorem read?_digits {width n : Nat} (h : n < Nat.pow 16 width) :
    read? (digits width n) = some n := by
  induction width generalizing n with
  | zero =>
    rw [Nat.lt_one_iff.mp h]
    rfl
  | succ width ih =>
    have hpow : Nat.pow 16 (width + 1) = Nat.pow 16 width * 16 := rfl
    rw [hpow] at h
    have hhigh : read? (digits width (n / 16)) = some (n / 16) := ih (by omega)
    unfold read? at hhigh
    rw [read?, digits, List.foldlM_append, hhigh]
    show ((alphabet.idxOf? (digit (n % 16))).map (16 * (n / 16) + ·)).bind some = some n
    rw [idxOf?_digit (Nat.mod_lt n (by decide))]
    show some (16 * (n / 16) + n % 16) = some n
    rw [Nat.div_add_mod]

/-- An address is written with three digits, or with four if it needs them. -/
theorem toList_address (a : UInt16) :
    ∃ written, (address a).toList = '0' :: 'x' :: written
      ∧ written.length = (if a.toNat < 4096 then 3 else 4)
      ∧ read? written = some a.toNat := by
  have hlt := a.toNat_lt
  refine ⟨digits (if a.toNat < 4096 then 3 else 4) a.toNat, ?_, length_digits _ _, ?_⟩
  · simp [address, text]
  · apply read?_digits
    split
    · assumption
    · exact hlt

theorem address_injective : Function.Injective address := by
  intro a b h
  obtain ⟨written, hwritten, -, hread⟩ := toList_address a
  obtain ⟨written', hwritten', -, hread'⟩ := toList_address b
  rw [h, hwritten'] at hwritten
  simp only [List.cons.injEq, true_and] at hwritten
  rw [hwritten, hread] at hread'
  exact UInt16.toNat_inj.mp (Option.some.inj hread')

end Text.Hex

/-- A word is written with four digits. -/
theorem Word.toList_text (w : Word) :
    w.text.toList.length = 4 ∧ Text.Hex.read? w.text.toList = some w.bits.toNat := by
  have htext : w.text.toList = Text.Hex.digits 4 w.bits.toNat := by simp [text, Text.Hex.text]
  rw [htext]
  exact ⟨Text.Hex.length_digits _ _, Text.Hex.read?_digits w.bits.toNat_lt⟩

theorem Word.text_injective : Function.Injective text := by
  intro w w' h
  have hread := w.toList_text.2
  rw [h, w'.toList_text.2] at hread
  have hbits := UInt16.toNat_inj.mp (Option.some.inj hread)
  cases w
  cases w'
  exact congrArg Word.mk hbits.symm

/-! ## What the log says -/

namespace Machine

/-- Whether an input is a step that fails. -/
def fails (m : Machine) : Input → Bool
  | .step => m.step.2.isSome
  | _ => false

/-- The address and the word that an input begins with, if it is a step. -/
def fetched? (m : Machine) : Input → Option (UInt16 × Word)
  | .step => some (m.pc, m.fetch)
  | _ => none

/-- The addresses and words that the steps of a run begin with. -/
def fetches (m : Machine) (inputs : List Input) : List (UInt16 × Word) :=
  (m.history inputs).filterMap fun (n, input) => n.fetched? input

/-- The messages of the records that steps begin with. -/
def traces (log : List Record) : List String :=
  (log.filter (·.level = .trace)).map Record.message

/-- How a log tells that the word at an address is about to be carried out. -/
def line (fetched : UInt16 × Word) : String :=
  Text.Hex.address fetched.1 ++ ": " ++ fetched.2.text

/-- What an input has to say, as levels and messages. -/
def entries (m : Machine) : Input → List (Level × String)
  | .load program =>
    match (m.load program).2 with
    | none => [(.debug, s!"Loaded ROM [size: {program.length}]")]
    | some _ => []
  | .setKey _ _ => []
  | .setKeys _ => []
  | .step =>
    (.trace, line (m.pc, m.fetch)) ::
      match m.step.2 with
      | none => []
      | some e => [(.warn, e.message)]

/-! ## Lines -/

/-- A line begins with the digits of the address and ends with those of the word. -/
theorem toList_line (a : UInt16) (w : Word) :
    ∃ first last, (line (a, w)).toList = '0' :: 'x' :: first ++ [':', ' '] ++ last
      ∧ first.length = (if a.toNat < 4096 then 3 else 4) ∧ last.length = 4
      ∧ Text.Hex.read? first = some a.toNat ∧ Text.Hex.read? last = some w.bits.toNat := by
  obtain ⟨first, hfirst, hlength, hread⟩ := Text.Hex.toList_address a
  obtain ⟨hlength', hread'⟩ := w.toList_text
  refine ⟨first, w.text.toList, ?_, hlength, hlength', hread, hread'⟩
  rw [line, String.toList_append, String.toList_append, hfirst]
  rfl

/-- The word has four digits, whatever the address has, so it is told where the address
ends. -/
theorem line_injective : Function.Injective line := by
  rintro ⟨a, w⟩ ⟨b, w'⟩ h
  have hlist := congrArg String.toList h
  simp only [line, String.toList_append] at hlist
  have hlength : w.text.toList.length = w'.text.toList.length := by
    rw [w.toList_text.1, w'.toList_text.1]
  obtain ⟨hhead, htext⟩ := List.append_inj' hlist hlength
  have haddress := List.append_cancel_right hhead
  rw [Text.Hex.address_injective (String.toList_inj.mp haddress),
    Word.text_injective (String.toList_inj.mp htext)]

/-! ## Inputs -/

theorem records_load (m : Machine) (program : List UInt8) :
    m.records (.load program)
      = match (m.load program).2 with
        | none => [.loaded program.length]
        | some _ => [] := by
  simp only [records, handle]
  cases (m.load program).2 <;> rfl

theorem records_step (m : Machine) :
    m.records .step = .executing m.pc m.fetch :: (m.step.2.map Record.failed).toList := by
  simp only [records, handle]
  cases m.step.2 <;> rfl

/-- The records of an input say what it has to say. -/
theorem map_records (m : Machine) (input : Input) :
    (m.records input).map (fun r => (r.level, r.message)) = m.entries input := by
  cases input with
  | load program =>
    rw [records_load, entries]
    cases (m.load program).2 <;> rfl
  | step =>
    rw [records_step, entries]
    cases m.step.2 <;> rfl
  | setKey key down => rfl
  | setKeys keys => rfl

/-- A step tells its address and word once, and no other input tells any. -/
theorem traces_records (m : Machine) (input : Input) :
    traces (m.records input) = ((m.fetched? input).map line).toList := by
  cases input with
  | load program =>
    rw [records_load]
    cases (m.load program).2 <;> rfl
  | step =>
    rw [records_step]
    cases m.step.2 <;> rfl
  | setKey key down => rfl
  | setKeys keys => rfl

/-- A step that fails warns once, and nothing else warns. -/
theorem warnings_records (m : Machine) (input : Input) :
    (m.records input).countP (·.level = .warn) = if m.fails input then 1 else 0 := by
  cases input with
  | load program =>
    rw [records_load]
    cases (m.load program).2 <;> rfl
  | step =>
    rw [records_step]
    show _ = if m.step.2.isSome then 1 else 0
    cases m.step.2 <;> rfl
  | setKey key down => rfl
  | setKeys keys => rfl

/-! ## Runs -/

/-- Every record is kept by a machine that shows all of them. -/
theorem log_run_all (m : Machine) (inputs : List Input) :
    ((Recorder.mk m .all #[]).run inputs).log.toList
      = (m.history inputs).flatMap fun (n, input) => n.records input := by
  have hshown (records : List Record) : Recorder.shown .all records = records :=
    List.filter_eq_self.mpr fun r _ => LogFilter.shows_all r
  rw [Recorder.log_run, hshown]
  rfl

theorem map_snd_history (m : Machine) (inputs : List Input) :
    (m.history inputs).map Prod.snd = inputs := by
  induction inputs generalizing m with
  | nil => rfl
  | cons input rest ih => exact congrArg (input :: ·) (ih _)

theorem length_fetches (m : Machine) (inputs : List Input) :
    (m.fetches inputs).length = inputs.countP Input.isStep := by
  calc (m.fetches inputs).length
      = (m.history inputs).countP fun (n, input) => (n.fetched? input).isSome := by
        rw [fetches, List.length_filterMap_eq_countP]
    _ = (m.history inputs).countP fun (_, input) => input.isStep := by
        apply List.countP_congr
        rintro ⟨n, input⟩ -
        cases input <;> rfl
    _ = inputs.countP Input.isStep := by
        conv => rhs; rw [← m.map_snd_history inputs, List.countP_map]
        rfl

theorem traces_flatMap {α : Type} (l : List α) (records : α → List Record) :
    traces (l.flatMap records) = l.flatMap fun a => traces (records a) := by
  simp only [traces, List.filter_flatMap, List.map_flatMap]

theorem traces_log (m : Machine) (inputs : List Input) :
    traces ((Recorder.mk m .all #[]).run inputs).log.toList
      = (m.fetches inputs).map line := by
  rw [log_run_all, traces_flatMap, fetches, List.map_filterMap,
    List.filterMap_eq_flatMap_toList]
  exact List.flatMap_congr fun (n, input) _ => n.traces_records input

theorem warnings_log (m : Machine) (inputs : List Input) :
    ((Recorder.mk m .all #[]).run inputs).log.toList.countP (·.level = .warn)
      = (m.history inputs).countP fun (n, input) => n.fails input := by
  rw [log_run_all]
  induction inputs generalizing m with
  | nil => rfl
  | cons input rest ih =>
    rw [history, List.flatMap_cons, List.countP_append, ih, List.countP_cons, Nat.add_comm,
      warnings_records]

/-- **The log is a faithful trace.** The log of a run is what its inputs have to say one
after another: the size of each program that is put into memory, and of each step the
address and the word it begins with and then, if it fails, its error, which names the same
address and, where it names a word, the same word. So it traces as many steps as are tried
and warns of as many as fail. Its lines are told apart by address and word, so two runs
are traced alike iff their steps begin with the same addresses and words. -/
theorem log_is_trace (m : Machine) (inputs : List Input) :
    let log := ((Recorder.mk m .all #[]).run inputs).log.toList
    log.map (fun r => (r.level, r.message))
        = ((m.history inputs).flatMap fun (n, input) => n.entries input)
      ∧ (∀ (n : Machine) (e : Error), n.step.2 = some e →
        e = .invalidInstruction n.fetch n.pc ∨ e = .stackOverflow n.pc
          ∨ e = .stackUnderflow n.pc)
      ∧ log.countP (·.level = .trace) = inputs.countP Input.isStep
      ∧ log.countP (·.level = .warn)
        = ((m.history inputs).countP fun (n, input) => n.fails input)
      ∧ (∀ (a : UInt16) (w : Word), ∃ first last,
        (line (a, w)).toList = '0' :: 'x' :: first ++ [':', ' '] ++ last
          ∧ first.length = (if a.toNat < 4096 then 3 else 4) ∧ last.length = 4
          ∧ Text.Hex.read? first = some a.toNat ∧ Text.Hex.read? last = some w.bits.toNat)
      ∧ Function.Injective line
      ∧ ∀ (m' : Machine) (inputs' : List Input),
        traces log = traces ((Recorder.mk m' .all #[]).run inputs').log.toList
          ↔ m.fetches inputs = m'.fetches inputs' := by
  intro log
  have hlog : log = (m.history inputs).flatMap fun (n, input) => n.records input :=
    m.log_run_all inputs
  refine ⟨?_, ?_, ?_, m.warnings_log inputs, toList_line, line_injective, ?_⟩
  · rw [hlog, List.map_flatMap]
    exact List.flatMap_congr fun (n, input) _ => n.map_records input
  · intro n e h
    exact error_cases (error_step_iff.mp h)
  · rw [← m.length_fetches inputs, ← List.length_map line, ← m.traces_log inputs, traces,
      List.length_map, List.countP_eq_length_filter]
  · intro m' inputs'
    rw [m.traces_log inputs, m'.traces_log inputs']
    exact line_injective.list_map.eq_iff

/-- A word that begins in the last byte of memory fails, a key goes down, a program is too
large, and the next word succeeds: traced like the two steps alone. -/
theorem log_is_trace_at_end :
    let m : Machine :=
      { fresh (.cycle #[]) with
        pc := 0xFFFF
        memory := (Memory.initial.write 0xFFF 0x80).write 0 0x08 }
    let inputs : List Input := [.step, .setKey 2 true, .load (List.replicate 3585 0), .step]
    let log := ((Recorder.mk m .all #[]).run inputs).log.toList
    m.step.2 = some (.invalidInstruction m.fetch m.pc)
      ∧ log.countP (·.level = .trace) = 2 ∧ log.countP (·.level = .warn) = 1
      ∧ traces log = traces ((Recorder.mk m .all #[]).run [.step, .step]).log.toList := by
  intro m inputs log
  have hruns : m.step.2 = some (.invalidInstruction ⟨0x8008⟩ 0xFFFF)
      ∧ ((m.history inputs).countP fun (n, input) => n.fails input) = 1
      ∧ m.fetches inputs = m.fetches [.step, .step] := by decide +kernel
  obtain ⟨hfails, hone, hfetches⟩ := hruns
  obtain ⟨-, hnamed, htwo, hwarned, -, -, halike⟩ := log_is_trace m inputs
  refine ⟨?_, htwo, hwarned.trans hone, (halike m [.step, .step]).mpr hfetches⟩
  rcases hnamed m _ hfails with h | h | h
  · rw [hfails, h]
  · cases h
  · cases h

end Machine

end Chip8
