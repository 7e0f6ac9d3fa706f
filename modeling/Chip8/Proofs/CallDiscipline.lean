import Chip8.Proofs.Frame

/-!
# The call stack over a run

The call stack holds the return addresses of the calls that are still open, and nothing else:

* `toList_run` — from any machine, a run takes off the stack what its unmatched returns go
  back to and puts its unmatched calls on top;
* `stack_eq_unmatched_calls` — for a fresh machine no return is unmatched, so the stack in
  use is the list of unmatched calls, and a call is left by the return that first brings
  the stack back to its height, to the address after the call.

Calls and returns are matched from the end of the run (`unmatched`), without a stack: a
call belongs to a return after it if there is one that no later call has taken.
-/

namespace Chip8

/-- What an input has to do with calls. -/
inductive Crossing where
  /-- A call succeeds and is to be left to an address. -/
  | enter (back : UInt16)
  /-- A return succeeds. -/
  | leave
  | stay

/-- The calls that no return after them belongs to, oldest first, and the number of
returns that no call before them takes. -/
def unmatched : List Crossing → List UInt16 × Nat
  | [] => ([], 0)
  | .enter back :: rest =>
    match unmatched rest with
    | (calls, 0) => (back :: calls, 0)
    | (calls, returns + 1) => (calls, returns)
  | .leave :: rest => ((unmatched rest).1, (unmatched rest).2 + 1)
  | .stay :: rest => unmatched rest

namespace Machine

/-- What an input has to do with calls. A call is left to the address after its word,
which has sixteen bits. -/
def crossing (m : Machine) (input : Input) : Crossing :=
  match m.performed? input with
  | some (.call _) => .enter (m.pc + 2)
  | some .ret => .leave
  | _ => .stay

/-- The crossings of a run, in order. -/
def crossings (m : Machine) (inputs : List Input) : List Crossing :=
  (m.history inputs).map fun (m, input) => m.crossing input

/-! ## One input -/

theorem crossing_eq_enter {m : Machine} {input : Input} {target : UInt16}
    (h : m.performed? input = some (.call target)) :
    m.crossing input = .enter (m.pc + 2) := by
  rw [crossing, h]

theorem performed?_of_enter {m : Machine} {input : Input} {back : UInt16}
    (h : m.crossing input = .enter back) :
    back = m.pc + 2 ∧ ∃ target, m.performed? input = some (.call target) := by
  unfold crossing at h
  rcases hperformed : m.performed? input with _ | instruction <;> rw [hperformed] at h
  · cases h
  · cases instruction with
    | call target =>
      cases h
      exact ⟨rfl, target, rfl⟩
    | _ => cases h

theorem performed?_of_leave {m : Machine} {input : Input} (h : m.crossing input = .leave) :
    m.performed? input = some .ret := by
  unfold crossing at h
  rcases hperformed : m.performed? input with _ | instruction <;> rw [hperformed] at h
  · cases h
  · cases instruction with
    | ret => rfl
    | _ => cases h

/-- A call that succeeds has found a slot that is free. -/
theorem toList_of_enter {m : Machine} {input : Input} {back : UInt16}
    (h : m.crossing input = .enter back) :
    (m.handle input).1.stack.toList = m.stack.toList ++ [back] := by
  obtain ⟨rfl, target, hperformed⟩ := performed?_of_enter h
  obtain ⟨-, hnext, -⟩ := handle_of_performed hperformed
  have hfree : m.stack.isFull = false := by
    simpa [fault?] using (next_eq_ok_iff.mp hnext).2
  rw [stack_handle, hperformed]
  exact CallStack.toList_push _ _ hfree

/-- A return that succeeds takes the address off that it goes back to. -/
theorem toList_of_leave {m : Machine} {input : Input} (h : m.crossing input = .leave) :
    m.stack.toList = (m.handle input).1.stack.toList ++ [(m.handle input).1.pc] := by
  have hperformed := performed?_of_leave h
  obtain ⟨-, hnext, hhandle⟩ := handle_of_performed hperformed
  have hused : m.stack.isEmpty = false := by
    simpa [fault?] using (next_eq_ok_iff.mp hnext).2
  obtain ⟨address, htop⟩ : ∃ address, m.stack.top? = some address := by
    rw [← Option.isSome_iff_exists, Option.isSome_iff_ne_none, ne_eq,
      CallStack.top?_eq_none_iff, hused]
    decide
  have hpc : (m.handle input).1.pc = address := by
    rw [hhandle]
    show (m.advance.execute .ret).1.pc = address
    rw [execute_ret]
    show m.stack.top?.getD (m.pc + 2) = address
    rw [htop]
    rfl
  rw [stack_handle, hperformed, hpc]
  show m.stack.toList = m.stack.pop.toList ++ [address]
  rw [CallStack.top?_eq_getLast?, List.getLast?_eq_some_iff] at htop
  obtain ⟨older, holder⟩ := htop
  rw [CallStack.toList_pop, holder, List.dropLast_concat]

theorem stack_of_stay {m : Machine} {input : Input} (h : m.crossing input = .stay) :
    (m.handle input).1.stack = m.stack := by
  unfold crossing at h
  rw [stack_handle]
  cases hperformed : m.performed? input with
  | none => rfl
  | some instruction =>
    rw [hperformed] at h
    cases instruction with
    | ret => cases h
    | call target => cases h
    | _ => rfl

/-! ## Runs -/

/-- The stack after a run: the calls from before that are not left, and the unmatched
calls of the run on top. -/
theorem toList_run (m : Machine) (inputs : List Input) :
    (unmatched (m.crossings inputs)).2 ≤ m.stack.toList.length
      ∧ (m.run inputs).stack.toList =
        m.stack.toList.take (m.stack.toList.length - (unmatched (m.crossings inputs)).2)
          ++ (unmatched (m.crossings inputs)).1 := by
  induction inputs generalizing m with
  | nil =>
    refine ⟨Nat.zero_le _, ?_⟩
    show m.stack.toList = m.stack.toList.take m.stack.toList.length ++ []
    rw [List.take_length, List.append_nil]
  | cons input rest ih =>
    obtain ⟨hle, hrest⟩ := ih (m.handle input).1
    have hcons : m.crossings (input :: rest)
        = m.crossing input :: (m.handle input).1.crossings rest := rfl
    rw [run, hrest, hcons]
    rcases hlater : unmatched ((m.handle input).1.crossings rest) with ⟨calls, returns⟩
    rw [hlater] at hle
    cases hcrossing : m.crossing input with
    | enter back =>
      rw [toList_of_enter hcrossing, List.length_append] at hle ⊢
      -- the call is matched iff a return of the rest is still free
      cases returns with
      | zero =>
        simp only [unmatched, hlater]
        refine ⟨Nat.zero_le _, ?_⟩
        rw [Nat.sub_zero, Nat.sub_zero, ← List.length_append, List.take_length,
          List.take_length, List.append_assoc]
        rfl
      | succ returns =>
        simp only [unmatched, hlater]
        rw [List.length_singleton] at hle ⊢
        refine ⟨by omega, ?_⟩
        rw [List.take_append_of_le_length (by omega), Nat.add_sub_add_right]
    | leave =>
      have hlist := toList_of_leave hcrossing
      simp only [unmatched, hlater]
      rw [hlist, List.length_append, List.length_singleton]
      refine ⟨by omega, ?_⟩
      rw [List.take_append_of_le_length (by omega), Nat.add_sub_add_right]
    | stay =>
      rw [stack_of_stay hcrossing] at hle ⊢
      simp only [unmatched, hlater, and_true]
      exact hle

/-! ## The way back from a call -/

/-- While the stack stays higher than `base`, an address right above `base` stays where it
is. -/
theorem prefix_handle {m : Machine} {base : List UInt16} {back : UInt16} {input : Input}
    (hbase : base ++ [back] <+: m.stack.toList)
    (havoid : (m.handle input).1.stack.toList.length ≠ base.length) :
    base ++ [back] <+: (m.handle input).1.stack.toList := by
  cases hcrossing : m.crossing input with
  | enter back' =>
    rw [toList_of_enter hcrossing]
    exact hbase.trans (List.prefix_append _ _)
  | leave =>
    rw [toList_of_leave hcrossing] at hbase
    -- the address that is taken off lies above `back`, or else the stack were back at `base`
    rcases List.prefix_concat_iff.mp hbase with heq | hprefix
    · have hsame := (List.append_inj' heq rfl).1
      exact absurd (congrArg List.length hsame).symm havoid
    · exact hprefix
  | stay =>
    rw [stack_of_stay hcrossing]
    exact hbase

theorem prefix_run {m : Machine} {base : List UInt16} {back : UInt16} {inputs : List Input}
    (hbase : base ++ [back] <+: m.stack.toList)
    (havoid : ∀ earlier, earlier <+: inputs →
      (m.run earlier).stack.toList.length ≠ base.length) :
    base ++ [back] <+: (m.run inputs).stack.toList := by
  induction inputs generalizing m with
  | nil => exact hbase
  | cons input rest ih =>
    refine ih (prefix_handle hbase (havoid [input] ?_)) ?_
    · exact List.prefix_iff_eq_append.mpr rfl
    · intro earlier hearlier
      exact havoid (input :: earlier) (List.cons_prefix_cons.mpr ⟨rfl, hearlier⟩)

/-- The input that takes the address above `base` off the stack is a return to that
address. -/
theorem leave_of_length_eq {m : Machine} {base : List UInt16} {back : UInt16} {input : Input}
    (hbase : base ++ [back] <+: m.stack.toList)
    (hback : (m.handle input).1.stack.toList.length = base.length) :
    m.performed? input = some .ret ∧ (m.handle input).1.pc = back := by
  have hlength := hbase.length_le
  rw [List.length_append, List.length_singleton] at hlength
  cases hcrossing : m.crossing input with
  | enter back' =>
    rw [toList_of_enter hcrossing, List.length_append, List.length_singleton] at hback
    omega
  | leave =>
    refine ⟨performed?_of_leave hcrossing, ?_⟩
    rw [toList_of_leave hcrossing] at hbase
    have heq :=
      hbase.eq_of_length (by simp only [List.length_append, hback, List.length_singleton])
    exact (List.singleton_inj.mp (List.append_inj' heq rfl).2).symm
  | stay =>
    rw [stack_of_stay hcrossing] at hback
    omega

/-- **Call discipline.** In every state that a fresh machine reaches, at most sixteen
slots are in use, and they hold the return addresses of the calls that are not yet
matched, the oldest one lowest; every return has a call. A call that succeeds takes one
slot more, and the first input after it that brings the stack back to its height is a
return, to the address after the call. -/
theorem stack_eq_unmatched_calls (random : RandomBytes) (before : List Input) :
    let m := (fresh random).run before
    m.stack.depth.val ≤ CallStack.capacity
      ∧ unmatched ((fresh random).crossings before)
        = (m.stack.slots.toList.take m.stack.depth.val, 0)
      ∧ ∀ target, m.performed? .step = some (.call target) →
        m.step.1.stack.depth.val = m.stack.depth.val + 1
        ∧ ∀ between last,
          (∀ earlier, earlier <+: between →
            (m.step.1.run earlier).stack.depth.val ≠ m.stack.depth.val) →
          (m.step.1.run (between ++ [last])).stack.depth.val = m.stack.depth.val →
          last = .step ∧ (m.step.1.run between).performed? last = some .ret
            ∧ (m.step.1.run (between ++ [last])).pc = m.pc + 2 := by
  intro m
  obtain ⟨hle, hrun⟩ := toList_run (fresh random) before
  have hempty : (fresh random).stack.toList = [] := rfl
  refine ⟨Nat.lt_succ_iff.mp m.stack.depth.isLt, ?_, ?_⟩
  · rw [hempty, List.take_nil, List.nil_append] at hrun
    rw [hempty, List.length_nil, Nat.le_zero] at hle
    exact Prod.ext hrun.symm hle
  · intro target hcall
    have henter := toList_of_enter (crossing_eq_enter hcall)
    simp only [← CallStack.length_toList]
    refine ⟨?_, ?_⟩
    · show (m.handle .step).1.stack.toList.length = _
      rw [henter, List.length_append, List.length_singleton]
    · intro between last havoid hback
      have hbase : m.stack.toList ++ [m.pc + 2] <+: (m.handle .step).1.stack.toList :=
        ⟨[], by rw [List.append_nil, henter]⟩
      have hprefix := prefix_run hbase havoid
      rw [run_append] at hback ⊢
      obtain ⟨hret, hpc⟩ := leave_of_length_eq hprefix hback
      exact ⟨(handle_of_performed hret).1, hret, hpc⟩

/-- A program that calls `0x204`, which calls `0x208`, which returns at once. -/
def nestedCalls : List UInt8 := [0x22, 0x04, 0x00, 0xE0, 0x22, 0x08, 0x00, 0xEE, 0x00, 0xEE]

/-- The outer call is left by the second return. -/
theorem outer_call_returns :
    let m := (fresh (.cycle #[])).run [.load nestedCalls]
    m.performed? .step = some (.call 0x204)
      ∧ (m.step.1.run [.step, .step]).stack.depth.val = 1
      ∧ (m.step.1.run [.step, .step, .step]).stack.depth.val = 0
      ∧ (m.step.1.run [.step, .step, .step]).pc = 0x202 := by
  intro m
  have hstates : m.performed? .step = some (.call 0x204)
      ∧ m.stack.depth.val = 0 ∧ m.pc + 2 = 0x202
      ∧ m.step.1.stack.depth.val = 1
      ∧ (m.step.1.run [.step]).stack.depth.val = 2
      ∧ (m.step.1.run [.step, .step]).stack.depth.val = 1
      ∧ (m.step.1.run [.step, .step, .step]).stack.depth.val = 0 := by decide +kernel
  obtain ⟨hcall, hdepth, hpc, h₁, h₂, h₃, hback⟩ := hstates
  have havoid : ∀ earlier, earlier <+: [.step, .step] →
      (m.step.1.run earlier).stack.depth.val ≠ m.stack.depth.val := by
    intro earlier hearlier
    rw [hdepth]
    rcases List.prefix_cons_iff.mp hearlier with rfl | ⟨after, rfl, hafter⟩
    · exact h₁ ▸ Nat.one_ne_zero
    · rcases List.prefix_cons_iff.mp hafter with rfl | ⟨after', rfl, hafter'⟩
      · exact h₂ ▸ Nat.succ_ne_zero 1
      · rw [List.prefix_nil.mp hafter']
        exact h₃ ▸ Nat.one_ne_zero
  obtain ⟨-, -, hcalls⟩ := stack_eq_unmatched_calls (.cycle #[]) [.load nestedCalls]
  obtain ⟨-, hreturn⟩ := hcalls 0x204 hcall
  have hinputs : ([.step, .step] ++ [.step] : List Input) = [.step, .step, .step] := rfl
  have hend := hreturn [.step, .step] .step havoid (by rw [hinputs, hdepth, hback])
  rw [hinputs, hpc] at hend
  obtain ⟨-, -, hend⟩ := hend
  exact ⟨hcall, h₃, hback, hend⟩

end Machine

end Chip8
