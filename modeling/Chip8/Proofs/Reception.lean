import Chip8.Delivery
import Chip8.Proofs.Frame

/-!
# Programs that arrive in pieces

However a device cuts a program into pieces, what comes of it depends on two things alone:
the bytes that arrive before the end (`allBytes`), and the failure that the end is, if it
is one (`breakdown?`). Interruptions leave no trace. `collect_eq` says so of the bytes
that are taken, and `ofDeliveries_eq_load` compares the machine with one that is given all
the bytes at once.
-/

namespace Chip8

namespace Delivery

/-- Whether more can come after a delivery: it has brought something or was interrupted. -/
def goesOn : Delivery → Bool
  | piece bytes => !bytes.isEmpty
  | failure reason => reason.isInterruption

def bytes : Delivery → List UInt8
  | piece bytes => bytes
  | failure _ => []

/-- The bytes that arrive before the end. -/
def allBytes (deliveries : List Delivery) : List UInt8 :=
  (deliveries.takeWhile goesOn).flatMap bytes

/-- The failure that the end is, if it is one. -/
def breakdown? (deliveries : List Delivery) : Option ReadFailure :=
  match deliveries.dropWhile goesOn with
  | failure reason :: _ => some reason
  | _ => none

theorem allBytes_cons {d : Delivery} (h : d.goesOn = true) (rest : List Delivery) :
    allBytes (d :: rest) = d.bytes ++ allBytes rest := by
  rw [allBytes, List.takeWhile_cons_of_pos h, List.flatMap_cons]
  rfl

theorem allBytes_of_end {d : Delivery} (h : d.goesOn = false) (rest : List Delivery) :
    allBytes (d :: rest) = [] := by
  rw [allBytes, List.takeWhile_cons_of_neg (by simp [h])]
  rfl

theorem breakdown?_cons {d : Delivery} (h : d.goesOn = true) (rest : List Delivery) :
    breakdown? (d :: rest) = breakdown? rest := by
  rw [breakdown?, List.dropWhile_cons_of_pos h]
  rfl

theorem breakdown?_of_end {d : Delivery} (h : d.goesOn = false) (rest : List Delivery) :
    breakdown? (d :: rest) =
      match d with
      | failure reason => some reason
      | piece _ => none := by
  rw [breakdown?, List.dropWhile_cons_of_neg (by simp [h])]
  cases d <;> rfl

/-- A limit that is reached ends the delivery before any failure is met. -/
theorem collect_eq (limit : Nat) (deliveries : List Delivery) :
    collect limit deliveries =
      ((allBytes deliveries).take limit,
        if limit ≤ (allBytes deliveries).length then none else breakdown? deliveries) := by
  fun_induction collect limit deliveries with
  | case1 deliveries => simp
  | case2 limit hlimit =>
    have hpos : ¬ limit ≤ 0 := fun h => hlimit (Nat.le_zero.mp h)
    simp [allBytes, breakdown?, hpos]
  | case3 limit rest hlimit =>
    have hpos : ¬ limit ≤ 0 := fun h => hlimit (Nat.le_zero.mp h)
    rw [allBytes_of_end rfl, breakdown?_of_end rfl]
    simp [hpos]
  | case4 limit bytes rest hbytes taken more failure? hmore ih =>
    have hgoes : (piece bytes).goesOn = true := by
      cases bytes with
      | nil => exact absurd rfl hbytes
      | cons b bytes => rfl
    rw [allBytes_cons hgoes, breakdown?_cons hgoes]
    simp only [hmore, Prod.mk.injEq] at ih
    obtain ⟨rfl, rfl⟩ := ih
    have hleft : limit + 1 - taken.length = limit + 1 - bytes.length := by
      simp only [taken, List.length_take]
      omega
    have hreached : limit + 1 - bytes.length ≤ (allBytes rest).length
        ↔ limit + 1 ≤ ((piece bytes).bytes ++ allBytes rest).length := by
      rw [List.length_append]
      show _ ↔ _ ≤ bytes.length + _
      omega
    simp only [hleft, hreached]
    exact Prod.ext List.take_append.symm rfl
  | case5 limit reason rest hinterrupted ih =>
    have hgoes : (failure reason).goesOn = true := hinterrupted
    rw [allBytes_cons hgoes, breakdown?_cons hgoes]
    exact ih
  | case6 limit reason rest hfatal =>
    have hends : (failure reason).goesOn = false := by simpa [goesOn] using hfatal
    rw [allBytes_of_end hends, breakdown?_of_end hends]
    simp

end Delivery

namespace Machine

/-- What comes of a device, from the bytes and the failure alone. -/
theorem ofDeliveries_eq (random : RandomBytes) (deliveries : List Delivery) :
    ofDeliveries random deliveries =
      let bytes := Delivery.allBytes deliveries
      if Memory.programLimit < bytes.length then
        ⟨.error (.romTooLarge (Memory.programLimit + 1) Memory.programLimit),
          Memory.programLimit + 1⟩
      else
        match Delivery.breakdown? deliveries with
        | some failure => ⟨.error (.readFailed failure), bytes.length⟩
        | none => ⟨.ok ((fresh random).load bytes).1, bytes.length⟩ := by
  rw [ofDeliveries, Delivery.collect_eq]
  generalize Delivery.allBytes deliveries = bytes
  by_cases hlong : Memory.programLimit < bytes.length
  · have hlength : (bytes.take (Memory.programLimit + 1)).length
        = Memory.programLimit + 1 := by
      rw [List.length_take]
      omega
    simp only [if_pos hlong, if_pos (Nat.succ_le_of_lt hlong)]
    rw [load_of_lt _ (by omega), hlength]
  · have hall : bytes.take (Memory.programLimit + 1) = bytes :=
      List.take_of_length_le (by omega)
    simp only [if_neg hlong, if_neg (fun h => hlong (Nat.lt_of_succ_le h)), hall]
    cases Delivery.breakdown? deliveries with
    | some failure => rfl
    | none => simp only [load_of_le _ (Nat.le_of_not_lt hlong)]

/-- **A program is received as it would be loaded.** Let `bytes` be all that arrives
before the end.

* If they are too many for memory, one byte more than the limit is taken and reported,
  whatever comes after it.
* Otherwise all of them are taken. If the end is a failure, it is reported, right after
  the last byte that fits as well; if not, the machine is the one that `bytes` are loaded
  into.

Nothing else of the deliveries matters. Where no failure ends them, the device succeeds
just when loading `bytes` at once does, and if they are refused the two errors differ in
the size alone. -/
theorem ofDeliveries_eq_load (random : RandomBytes) (deliveries : List Delivery) :
    let bytes := Delivery.allBytes deliveries
    let reception := ofDeliveries random deliveries
    (3585 ≤ bytes.length → reception = ⟨.error (.romTooLarge 3585 3584), 3585⟩)
      ∧ (bytes.length < 3585 → reception.consumed = bytes.length
        ∧ (∀ failure, Delivery.breakdown? deliveries = some failure →
          reception.result = .error (.readFailed failure))
        ∧ (Delivery.breakdown? deliveries = none → ∀ other : RandomBytes, ∃ machine,
          (fresh other).load bytes = (machine, none)
            ∧ reception.result = .ok { machine with random := random }))
      ∧ (∀ deliveries', Delivery.allBytes deliveries' = bytes →
        Delivery.breakdown? deliveries' = Delivery.breakdown? deliveries →
        ofDeliveries random deliveries' = reception)
      ∧ (Delivery.breakdown? deliveries = none →
        ((∃ machine, reception.result = .ok machine) ↔ ((fresh random).load bytes).2 = none)
          ∧ ∀ e, ((fresh random).load bytes).2 = some e →
            e = .romTooLarge bytes.length 3584
              ∧ reception.result = .error (.romTooLarge 3585 3584)) := by
  intro bytes reception
  have hlimit : Memory.programLimit = 3584 := rfl
  have heq : reception = _ := ofDeliveries_eq random deliveries
  have hlong : 3585 ≤ bytes.length → reception = ⟨.error (.romTooLarge 3585 3584), 3585⟩ := by
    intro h
    rw [heq]
    exact if_pos h
  have hshort : bytes.length < 3585 → reception =
      match Delivery.breakdown? deliveries with
      | some failure => ⟨.error (.readFailed failure), bytes.length⟩
      | none => ⟨.ok ((fresh random).load bytes).1, bytes.length⟩ := by
    intro h
    rw [heq]
    exact if_neg (Nat.not_lt.mpr (Nat.le_of_lt_succ h))
  refine ⟨hlong, ?_, ?_, ?_⟩
  · intro h
    have hfits : bytes.length ≤ Memory.programLimit := Nat.le_of_lt_succ h
    rw [hshort h]
    refine ⟨?_, ?_, ?_⟩
    · cases Delivery.breakdown? deliveries <;> rfl
    · intro failure hfailure
      rw [hfailure]
    · intro hnone other
      rw [hnone]
      refine ⟨_, load_of_le _ hfits, ?_⟩
      rw [load_of_le _ hfits]
      rfl
  · intro deliveries' hbytes hbreakdown
    rw [ofDeliveries_eq, hbytes, hbreakdown]
    exact heq.symm
  · intro hnone
    by_cases hfits : bytes.length ≤ Memory.programLimit
    · rw [hshort (Nat.lt_succ_of_le hfits), hnone, load_of_le _ hfits]
      simp
    · rw [hlong (Nat.lt_of_not_le hfits), load_of_lt _ (Nat.lt_of_not_le hfits)]
      simp [hlimit]

/-- A program of the largest size, an interruption, and then either a failure at once or
one more byte and the same failure. -/
theorem ofDeliveries_at_limit :
    let program : List UInt8 := List.replicate 3584 0xAA
    let interruption : Delivery := .failure ⟨"Interrupted", "try again"⟩
    let broken : ReadFailure := ⟨"Other", "unplugged"⟩
    let early : List Delivery := [.piece program, interruption, .failure broken]
    let late : List Delivery := [.piece program, interruption, .piece [0x12], .failure broken]
    (ofDeliveries (.cycle #[]) early).result = .error (.readFailed broken)
      ∧ (ofDeliveries (.cycle #[]) early).consumed = 3584
      ∧ ofDeliveries (.cycle #[]) late = ⟨.error (.romTooLarge 3585 3584), 3585⟩ := by
  intro program interruption broken early late
  have hearly : (Delivery.allBytes early).length = 3584 := by
    show (program ++ []).length = 3584
    rw [List.append_nil, List.length_replicate]
  have hlate : (Delivery.allBytes late).length = 3585 := by
    show (program ++ [0x12]).length = 3585
    rw [List.length_append, List.length_replicate]
    rfl
  have hbroken : Delivery.breakdown? early = some broken := rfl
  obtain ⟨-, hshort, -, -⟩ := ofDeliveries_eq_load (.cycle #[]) early
  obtain ⟨hconsumed, hfailure, -⟩ := hshort (by omega)
  exact ⟨hfailure broken hbroken, hconsumed.trans hearly,
    (ofDeliveries_eq_load (.cycle #[]) late).1 (by omega)⟩

end Machine

end Chip8
