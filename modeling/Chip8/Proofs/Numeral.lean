import Chip8.CommandLine

/-!
# Numbers on the command line

A number is written with its decimal digits, any number of zeroes before them, and a plus
sign or none (`Numeral`). Exactly these texts are read as numbers, each as the number that
it writes (`number?_eq_some_iff`), whatever its size; the range of an option is looked at
afterwards.
-/

namespace Chip8.CommandLine

/-- A way to write a number. -/
structure Numeral where
  value : Nat
  plus : Bool := false
  zeroes : Nat := 0
deriving DecidableEq

namespace Numeral

/-- The digits of the number after some zeroes. -/
def digits (m : Numeral) : List Char := List.replicate m.zeroes '0' ++ Nat.toDigits 10 m.value

def text (m : Numeral) : List Char := if m.plus then '+' :: m.digits else m.digits

end Numeral

/-! ## Digits -/

theorem isDigit_iff (c : Char) : c.isDigit = true ↔ '0' ≤ c ∧ c ≤ '9' := by
  simp only [Char.isDigit, Bool.and_eq_true, decide_eq_true_eq, ge_iff_le, Char.le_def]

/-- Digits write the number that they write elsewhere. -/
theorem digitsValue?_of_digits (acc : Nat) {cs : List Char} (h : ∀ c ∈ cs, c.isDigit = true) :
    digitsValue? acc cs = some (Nat.ofDigitChars 10 cs acc) := by
  induction cs generalizing acc with
  | nil => rfl
  | cons c rest ih =>
    obtain ⟨hc, hrest⟩ := List.forall_mem_cons.mp h
    rw [digitsValue?, if_pos ((isDigit_iff c).mp hc), ih _ hrest, Nat.mul_comm acc]
    rfl

theorem Numeral.isDigit_of_mem_digits (m : Numeral) : ∀ c ∈ m.digits, c.isDigit = true := by
  intro c hc
  rcases List.mem_append.mp hc with hzero | hdigit
  · rw [List.eq_of_mem_replicate hzero]
    rfl
  · exact Nat.isDigit_of_mem_toDigits (by decide) (by decide) hdigit

theorem Numeral.digits_ne_nil (m : Numeral) : m.digits ≠ [] := by
  simp [Numeral.digits]

/-- Zeroes in front do not count. -/
theorem digitsValue?_digits (m : Numeral) : digitsValue? 0 m.digits = some m.value := by
  rw [digitsValue?_of_digits 0 m.isDigit_of_mem_digits, Numeral.digits]
  induction m.zeroes with
  | zero => exact congrArg some Nat.ofDigitChars_ten_toDigits
  | succ zeroes ih => exact ih

theorem toDigits_of_digit {c : Char} (h : '0' ≤ c ∧ c ≤ '9') :
    Nat.toDigits 10 (c.toNat - 48) = [c] := by
  have hlow : 48 ≤ c.toNat := h.1
  have hhigh : c.toNat ≤ 57 := h.2
  rw [Nat.toDigits_of_lt_base (by omega)]
  congr 1
  apply Char.toNat_inj.mp
  rw [Nat.toNat_digitChar_of_lt_ten (by omega)]
  omega

/-- After digits that write more than zero, more digits only go on with the number. -/
theorem eq_toDigits_of_digitsValue? {acc n : Nat} {cs : List Char} (hacc : 0 < acc)
    (h : digitsValue? acc cs = some n) : Nat.toDigits 10 acc ++ cs = Nat.toDigits 10 n := by
  induction cs generalizing acc with
  | nil =>
    cases h
    exact List.append_nil _
  | cons c rest ih =>
    rw [digitsValue?] at h
    split at h
    · rename_i hc
      have hlow : 48 ≤ c.toNat := hc.1
      have hhigh : c.toNat ≤ 57 := hc.2
      rw [← ih (by omega) h, Nat.mul_comm,
        ← Nat.toDigits_append_toDigits (by decide) hacc (by omega), toDigits_of_digit hc,
        List.append_assoc]
      rfl
    · cases h

/-- Digits are the digits of the number that they write, after some zeroes. -/
theorem eq_digits_of_digitsValue? {n : Nat} {cs : List Char} (hcs : cs ≠ [])
    (h : digitsValue? 0 cs = some n) :
    ∃ zeroes, cs = List.replicate zeroes '0' ++ Nat.toDigits 10 n := by
  induction cs with
  | nil => exact absurd rfl hcs
  | cons c rest ih =>
    rw [digitsValue?] at h
    split at h
    · rename_i hc
      rw [Nat.zero_mul, Nat.zero_add] at h
      rcases Nat.eq_zero_or_pos (c.toNat - 48) with hzero | hpos
      · have hc0 : c = '0' := by
          have := toDigits_of_digit hc
          rw [hzero] at this
          exact (List.cons.inj this).1.symm
        subst hc0
        cases rest with
        | nil =>
          cases h
          exact ⟨0, rfl⟩
        | cons d rest =>
          obtain ⟨zeroes, hrest⟩ := ih (List.cons_ne_nil _ _) h
          rw [hrest]
          exact ⟨zeroes + 1, rfl⟩
      · have hall := eq_toDigits_of_digitsValue? hpos h
        rw [toDigits_of_digit hc] at hall
        exact ⟨0, hall⟩
    · cases h

/-! ## Numbers -/

theorem number?_plus {cs : List Char} (h : cs ≠ []) :
    number? ('+' :: cs) = digitsValue? 0 cs := by
  cases cs with
  | nil => exact absurd rfl h
  | cons c rest => rfl

theorem number?_of_head {c : Char} (h : c ≠ '+') (rest : List Char) :
    number? (c :: rest) = digitsValue? 0 (c :: rest) := by
  unfold number?
  split <;> simp_all

/-- A number does not look like an option. -/
theorem Numeral.head?_text (m : Numeral) : m.text.head? ≠ some '-' := by
  unfold text
  split
  · simp
  · intro h
    cases m.isDigit_of_mem_digits '-' (List.mem_of_mem_head? h)

theorem number?_text (m : Numeral) : number? m.text = some m.value := by
  unfold Numeral.text
  split
  · rw [number?_plus m.digits_ne_nil, digitsValue?_digits]
  · cases hdigits : m.digits with
    | nil => exact absurd hdigits m.digits_ne_nil
    | cons c rest =>
      have hc : c.isDigit = true := m.isDigit_of_mem_digits c (by simp [hdigits])
      have hplus : c ≠ '+' := by
        rintro rfl
        cases hc
      rw [number?_of_head hplus, ← hdigits, digitsValue?_digits]

/-- A text is read as a number if and only if it is a way to write that number. -/
theorem number?_eq_some_iff {cs : List Char} {n : Nat} :
    number? cs = some n ↔ ∃ m : Numeral, m.text = cs ∧ m.value = n := by
  constructor
  · intro h
    cases cs with
    | nil => cases h
    | cons c rest =>
      by_cases hplus : c = '+'
      · subst hplus
        cases rest with
        | nil => cases h
        | cons d rest =>
          obtain ⟨zeroes, hdigits⟩ := eq_digits_of_digitsValue? (List.cons_ne_nil d rest) h
          exact ⟨⟨n, true, zeroes⟩, by rw [hdigits]; rfl, rfl⟩
      · rw [number?_of_head hplus] at h
        obtain ⟨zeroes, hdigits⟩ := eq_digits_of_digitsValue? (List.cons_ne_nil c rest) h
        exact ⟨⟨n, false, zeroes⟩, hdigits.symm, rfl⟩
  · rintro ⟨m, rfl, rfl⟩
    exact number?_text m

/-- An option takes the ways to write a number in its range. -/
theorem Setting.value?_eq_some_iff {setting : Setting} {cs : List Char} {n : Nat} :
    setting.value? cs = some n
      ↔ (∃ m : Numeral, m.text = cs ∧ m.value = n) ∧ setting.least ≤ n ∧ n ≤ setting.most := by
  simp [value?, Option.filter_eq_some_iff, number?_eq_some_iff]

end Chip8.CommandLine
