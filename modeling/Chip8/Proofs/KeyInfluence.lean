import Chip8.Proofs.Surroundings
import Mathlib.Data.List.Forall2
import Mathlib.Tactic.MkIffOfInductiveProp

/-!
# What the keys have to do with a run

A program sees the keys through three words: a skip on a key that is down or up sees one
key, and a wait sees the lowest key that is down (`Machine.SeesAlike`). Two runs with the
same programs and steps, but with any keys moved at any time in each of them, stay the
same but for their keys if at every such word the keys look the same to it
(`sameButKeys_deeds`).

The inputs of the two runs are matched by leaving those out that are about keys (`deeds`),
so the runs need not be of the same length.
-/

namespace Chip8

instance (input : Input) : Decidable (input = .step) :=
  match input with
  | .step => isTrue rfl
  | .load _ => isFalse nofun
  | .setKey _ _ => isFalse nofun
  | .setKeys _ => isFalse nofun

namespace Machine

/-- Two keypads look alike to the word that a machine fetches next. Keys are named by the
last digit of a register. -/
@[mk_iff]
structure SeesAlike (m : Machine) (p q : Keypad) : Prop where
  asked : m.fetch.family.val = 0xE → m.fetch.n.val = 0xE ∨ m.fetch.n.val = 0x1 →
    p.isDown (m.reg m.fetch.x) = q.isDown (m.reg m.fetch.x)
  awaited : m.fetch.family.val = 0xF → m.fetch.kk = 0x0A → p.lowest? = q.lowest?

instance (m : Machine) (p q : Keypad) : Decidable (m.SeesAlike p q) :=
  decidable_of_iff' _ (m.seesAlike_iff p q)

/-- The programs and steps of a run, each with the machine it met. -/
def deeds (m : Machine) (inputs : List Input) : List (Machine × Input) :=
  (m.history inputs).filter fun (_, input) => !input.movesKeys

/-- The same came of both deeds: the same error or none, and machines that differ in their
keys alone. -/
def SameButKeys (p q : Machine × Input) : Prop :=
  (q.1.handle q.2).1 = { (p.1.handle p.2).1 with keypad := (q.1.handle q.2).1.keypad }
    ∧ (q.1.handle q.2).2 = (p.1.handle p.2).2

/-! ## One input -/

theorem answers_of_seesAlike {m : Machine} {keypad : Keypad} {instruction : Instruction}
    (h : m.SeesAlike m.keypad keypad) (hperformed : m.performed? .step = some instruction) :
    (Surroundings.mk keypad m.random).Answers m instruction := by
  have hdecode := (next_eq_ok_iff.mp (performed?_step_eq_some_iff.mp hperformed)).1
  cases instruction with
  | skip condition =>
    cases condition with
    | keyDown x =>
      obtain ⟨hfamily, hn, rfl⟩ := (Instruction.decode?_eq_skip_iff_of_keyed rfl _).mp hdecode
      exact (h.asked (congrArg Fin.val hfamily) (.inl (congrArg Fin.val hn))).symm
    | keyUp x =>
      obtain ⟨hfamily, hn, rfl⟩ := (Instruction.decode?_eq_skip_iff_of_keyed rfl _).mp hdecode
      exact (h.asked (congrArg Fin.val hfamily) (.inr (congrArg Fin.val hn))).symm
    | _ => trivial
  | awaitKey x =>
    obtain ⟨hfamily, hkk, -⟩ := (performed?_step_iff_of_coded rfl).mp hperformed
    exact (h.awaited (congrArg Fin.val hfamily) hkk).symm
  | random x mask => rfl
  | _ => trivial

/-- A program or a step does the same with other keys if they look alike to the word, if
one is fetched. -/
theorem handle_with_keypad {m : Machine} {keypad : Keypad} {input : Input}
    (hkeys : input.movesKeys = false) (h : input = .step → m.SeesAlike m.keypad keypad) :
    ({ m with keypad := keypad } : Machine).handle input
      = ({ (m.handle input).1 with keypad := keypad }, (m.handle input).2) := by
  have hanswers : ∀ instruction, m.performed? input = some instruction →
      (Surroundings.mk keypad m.random).Answers m instruction := by
    intro instruction hperformed
    obtain ⟨rfl, -, -⟩ := handle_of_performed hperformed
    exact answers_of_seesAlike (h rfl) hperformed
  have hafter : (Surroundings.mk keypad m.random).after (m.performed? input)
      = ⟨keypad, (m.handle input).1.random⟩ := by
    rw [random_handle]
    cases m.performed? input with
    | none => rfl
    | some instruction => cases instruction <;> rfl
  have hhandle := handle_amid hkeys hanswers
  rw [hafter] at hhandle
  exact hhandle

theorem handle_of_movesKeys {input : Input} (h : input.movesKeys = true) (m : Machine) :
    (m.handle input).1 = { m with keypad := (m.handle input).1.keypad } := by
  cases input with
  | setKey key down => rfl
  | setKeys keys => rfl
  | _ => cases h

/-! ## Runs -/

theorem deeds_cons_of_movesKeys {input : Input} (h : input.movesKeys = true) (m : Machine)
    (rest : List Input) : m.deeds (input :: rest) = (m.handle input).1.deeds rest := by
  simp [deeds, history, h]

theorem deeds_cons_of_deed {input : Input} (h : input.movesKeys = false) (m : Machine)
    (rest : List Input) :
    m.deeds (input :: rest) = (m, input) :: (m.handle input).1.deeds rest := by
  simp [deeds, history, h]

/-- Inputs that are about keys alone come to nothing but the keys that are down after them. -/
theorem run_of_movesKeys {inputs : List Input} (h : ∀ input ∈ inputs, input.movesKeys = true)
    (m : Machine) :
    m.run inputs = { m with keypad := (m.run inputs).keypad } ∧ m.deeds inputs = [] := by
  induction inputs generalizing m with
  | nil => exact ⟨rfl, rfl⟩
  | cons input rest ih =>
    have hinput := h input List.mem_cons_self
    obtain ⟨hrun, hdeeds⟩ := ih (fun later hlater => h later (List.mem_cons_of_mem _ hlater))
      (m.handle input).1
    refine ⟨?_, ?_⟩
    · rw [run, hrun, handle_of_movesKeys hinput m]
    · rw [deeds_cons_of_movesKeys hinput, hdeeds]

theorem deeds_append (m : Machine) (first second : List Input) :
    m.deeds (first ++ second) = m.deeds first ++ (m.run first).deeds second := by
  rw [deeds, history_append, List.filter_append]
  rfl

theorem sameButKeys_deeds {m : Machine} {keypad : Keypad} {inputs inputs' : List Input}
    (hsame : inputs.filter (!·.movesKeys) = inputs'.filter (!·.movesKeys))
    (hsees : List.Forall₂ (fun p q => p.2 = .step → p.1.SeesAlike p.1.keypad q.1.keypad)
      (m.deeds inputs) (({ m with keypad := keypad } : Machine).deeds inputs')) :
    List.Forall₂ SameButKeys (m.deeds inputs)
        (({ m with keypad := keypad } : Machine).deeds inputs')
      ∧ ∃ keypad', ({ m with keypad := keypad } : Machine).run inputs'
        = { m.run inputs with keypad := keypad' } := by
  induction inputs generalizing m keypad inputs' with
  | nil =>
    have hmoves : ∀ input ∈ inputs', input.movesKeys = true := by
      simpa using List.filter_eq_nil_iff.mp hsame.symm
    obtain ⟨hrun, hdeeds⟩ := run_of_movesKeys hmoves { m with keypad := keypad }
    rw [hdeeds]
    exact ⟨.nil, _, hrun⟩
  | cons input rest ih =>
    cases hkeys : input.movesKeys with
    | true =>
      -- the second run has no part in this input
      have hsame' : rest.filter (!·.movesKeys) = inputs'.filter (!·.movesKeys) := by
        rw [← hsame, List.filter_cons_of_neg (by simp [hkeys])]
      rw [deeds_cons_of_movesKeys hkeys, handle_of_movesKeys hkeys] at hsees ⊢
      have hrest := ih hsame' hsees
      rw [run, handle_of_movesKeys hkeys]
      exact hrest
    | false =>
      rw [List.filter_cons_of_pos (by simp [hkeys])] at hsame
      obtain ⟨keys, rest', rfl, hmoves, -, hsame'⟩ := List.filter_eq_cons_iff.mp hsame.symm
      have hmoves' : ∀ input ∈ keys, input.movesKeys = true := by simpa using hmoves
      obtain ⟨hrun, hdeeds⟩ := run_of_movesKeys hmoves' { m with keypad := keypad }
      -- the keys that the second run has when it comes to the same input
      generalize (({ m with keypad := keypad } : Machine).run keys).keypad = met at hrun
      change _ = ({ m with keypad := met } : Machine) at hrun
      rw [deeds_append, hdeeds, hrun, List.nil_append, deeds_cons_of_deed hkeys,
        deeds_cons_of_deed hkeys] at hsees ⊢
      obtain ⟨hnow, hlater⟩ := List.forall₂_cons.mp hsees
      have hhandle := handle_with_keypad hkeys hnow
      rw [hhandle] at hlater ⊢
      obtain ⟨hdeeds', hend⟩ := ih hsame'.symm hlater
      refine ⟨.cons ⟨?_, ?_⟩ hdeeds', ?_⟩
      · rw [hhandle]
      · rw [hhandle]
      · rw [run_append, hrun, run, run, hhandle]
        exact hend

/-- **The keys have no other way in.** Two runs begin in machines that differ in their
keys alone and have the same programs and steps, while any keys are moved in either of
them at any time. If at every step the keys of the two runs look the same to the word that
the first run fetches, then the same comes of every program and step in both, but for the
keys, with the same errors; and so the machines differ in their keys alone in the end. No
step moves a key. -/
theorem keys_noninterference (m n : Machine) (inputs inputs' : List Input)
    (hstart : n = { m with keypad := n.keypad })
    (hsame : inputs.filter (!·.movesKeys) = inputs'.filter (!·.movesKeys))
    (hsees : List.Forall₂ (fun p q => p.2 = .step → p.1.SeesAlike p.1.keypad q.1.keypad)
      (m.deeds inputs) (n.deeds inputs')) :
    List.Forall₂ SameButKeys (m.deeds inputs) (n.deeds inputs')
      ∧ n.run inputs' = { m.run inputs with keypad := (n.run inputs').keypad }
      ∧ ∀ machine : Machine, machine.step.1.keypad = machine.keypad := by
  rw [hstart] at hsees ⊢
  obtain ⟨hdeeds, keypad', hend⟩ := sameButKeys_deeds hsame hsees
  refine ⟨hdeeds, ?_, keypad_step⟩
  rw [hend]

/-- A program that skips a word if key 5 is down, and then waits for a key. -/
def keyed : List UInt8 := [0x60, 0x05, 0xE0, 0x9E, 0x00, 0x00, 0xF1, 0x0A]

/-- The same steps are taken while other keys are moved at other times. Both runs see key
5 down when they ask for it, and lowest when they wait. -/
theorem keys_noninterference_of_keyed :
    let m : Machine := fresh (.cycle #[])
    let inputs : List Input :=
      [.load keyed, .step, .setKey 5 true, .step, .setKey 0xF true, .step]
    let inputs' : List Input :=
      [.setKey 3 true, .load keyed, .step, .setKey 5 true, .setKey 9 true, .step,
        .setKey 3 false, .step, .setKey 5 false]
    m.run inputs' = { m.run inputs with keypad := (m.run inputs').keypad }
      ∧ (m.run inputs').reg (.ofNat 1) = 5 := by
  intro m inputs inputs'
  have hruns : List.Forall₂ (fun p q => p.2 = .step → p.1.SeesAlike p.1.keypad q.1.keypad)
        (m.deeds inputs) (m.deeds inputs')
      ∧ (m.run inputs).v.entry (.ofNat 1) = 5 := by decide +kernel
  obtain ⟨hsees, hkey⟩ := hruns
  obtain ⟨-, hend, -⟩ := keys_noninterference m m inputs inputs' rfl rfl hsees
  have hregs : (m.run inputs').v = (m.run inputs).v := by rw [hend]
  refine ⟨hend, ?_⟩
  rw [reg, hregs]
  exact hkey

end Machine

end Chip8
