import Mathlib.Data.Nat.Log
import Mathlib.Data.List.DropRight
import Mathlib.Algebra.Order.Group.Nat
import Mathlib.Tactic.Ring

/-!
# Doubles - whole numbers of 53 bits, and how they are written

A whole number is held to 53 bits: it is rounded to the nearest that is, halves to even.  It is
written with as few digits as tell it from the others, the rest being zeros, and from 22 digits on
with an exponent.

Main results:

- Theorem `nearest_nearest`: what is rounded rounds to itself.
- Theorem `Whole.text_injective`: no two numbers are written alike.
- Theorem `Whole.text_of_lt`: a number below 2 ^ 53 is written with its own digits.
-/

namespace Doubles

/-! ## Rounding -/

/-- A whole number rounded to 53 bits, halves to even. -/
def nearest (m : ℕ) : ℕ :=
  if m < 2 ^ 53 then m
  else
    let unit := 2 ^ (m.log2 - 52)
    if unit < 2 * (m % unit) ∨ (2 * (m % unit) = unit ∧ m / unit % 2 = 1) then (m / unit + 1) * unit
    else m / unit * unit

theorem nearest_of_lt {m : ℕ} (h : m < 2 ^ 53) : nearest m = m :=
  if_pos h

/-- A number of more than 53 bits has 53 of them down to its unit. -/
theorem unit_bounds {m : ℕ} (h : 2 ^ 53 ≤ m) :
    2 ^ 52 ≤ m / 2 ^ (m.log2 - 52) ∧ m / 2 ^ (m.log2 - 52) < 2 ^ 53 ∧ 53 ≤ m.log2 := by
  have hne : m ≠ 0 := by
    rintro rfl
    exact absurd h (by decide)
  have hlog : 53 ≤ m.log2 := (Nat.le_log2 hne).mpr h
  have hsplit : 2 ^ m.log2 = 2 ^ 52 * 2 ^ (m.log2 - 52) := by
    rw [← Nat.pow_add]
    congr 1
    omega
  refine ⟨?_, ?_, hlog⟩
  · rw [Nat.le_div_iff_mul_le (Nat.two_pow_pos _), ← hsplit]
    exact Nat.log2_self_le hne
  · rw [Nat.div_lt_iff_lt_mul (Nat.two_pow_pos _)]
    have hless : m < 2 ^ (m.log2 + 1) := Nat.lt_log2_self
    rw [Nat.pow_succ, hsplit] at hless
    calc m < 2 ^ 52 * 2 ^ (m.log2 - 52) * 2 := hless
      _ = 2 ^ 53 * 2 ^ (m.log2 - 52) := by ring

/-- What is rounded is 53 bits and zeros after them. -/
theorem nearest_eq (m : ℕ) : ∃ q e, q < 2 ^ 53 ∧ nearest m = q * 2 ^ e := by
  by_cases h : m < 2 ^ 53
  · exact ⟨m, 0, h, by rw [nearest_of_lt h, Nat.pow_zero, Nat.mul_one]⟩
  · obtain ⟨-, hhigh, -⟩ := unit_bounds (Nat.not_lt.mp h)
    rw [nearest, if_neg h]
    dsimp only
    split
    · by_cases htop : m / 2 ^ (m.log2 - 52) + 1 = 2 ^ 53
      · refine ⟨1, 53 + (m.log2 - 52), by decide, ?_⟩
        rw [htop, Nat.one_mul, Nat.pow_add]
      · exact ⟨_, _, by omega, rfl⟩
    · exact ⟨_, _, hhigh, rfl⟩

/-- 53 bits and zeros after them round to themselves. -/
theorem nearest_of_bits {q : ℕ} (hq : q < 2 ^ 53) (e : ℕ) : nearest (q * 2 ^ e) = q * 2 ^ e := by
  by_cases h : q * 2 ^ e < 2 ^ 53
  · exact nearest_of_lt h
  · have hlarge := Nat.not_lt.mp h
    obtain ⟨hlow, -, hlog⟩ := unit_bounds hlarge
    have hshift : (q * 2 ^ e).log2 - 52 ≤ e := by
      by_contra hless
      have hbig : 2 ^ (e + 53) ≤ 2 ^ (q * 2 ^ e).log2 :=
        Nat.pow_le_pow_right (by decide) (by omega)
      have hheld : 2 ^ (q * 2 ^ e).log2 ≤ q * 2 ^ e := Nat.log2_self_le (by omega)
      have hsmall : q * 2 ^ e < 2 ^ 53 * 2 ^ e := Nat.mul_lt_mul_of_pos_right hq (Nat.two_pow_pos e)
      rw [← Nat.pow_add, Nat.add_comm] at hsmall
      omega
    have hdvd : 2 ^ ((q * 2 ^ e).log2 - 52) ∣ q * 2 ^ e :=
      (Nat.pow_dvd_pow 2 hshift).mul_left q
    have hrest : q * 2 ^ e % 2 ^ ((q * 2 ^ e).log2 - 52) = 0 := Nat.mod_eq_zero_of_dvd hdvd
    have hunit : 0 < 2 ^ ((q * 2 ^ e).log2 - 52) := Nat.two_pow_pos _
    rw [nearest, if_neg h]
    dsimp only
    rw [hrest, if_neg (by omega), Nat.div_mul_cancel hdvd]

/-- What is rounded rounds to itself. -/
@[simp] theorem nearest_nearest (m : ℕ) : nearest (nearest m) = nearest m := by
  obtain ⟨q, e, hq, hm⟩ := nearest_eq m
  rw [hm, nearest_of_bits hq]

/-- Rounding takes a number no further down than to one that rounds to itself. -/
theorem le_nearest_of_bits {q e m : ℕ} (hq : q < 2 ^ 53) (h : q * 2 ^ e ≤ m) :
    q * 2 ^ e ≤ nearest m := by
  by_cases hsmall : m < 2 ^ 53
  · rwa [nearest_of_lt hsmall]
  · obtain ⟨hlow, -, hlog⟩ := unit_bounds (Nat.not_lt.mp hsmall)
    have hunit : 0 < 2 ^ (m.log2 - 52) := Nat.two_pow_pos _
    -- Where the unit divides the number below it is no more than the multiple below, and else that
    -- multiple has a bit more.
    have hfloor : q * 2 ^ e ≤ m / 2 ^ (m.log2 - 52) * 2 ^ (m.log2 - 52) := by
      by_cases hshift : m.log2 - 52 ≤ e
      · obtain ⟨k, hk⟩ : 2 ^ (m.log2 - 52) ∣ q * 2 ^ e := (Nat.pow_dvd_pow 2 hshift).mul_left q
        rw [hk, Nat.mul_comm] at h
        rw [hk, Nat.mul_comm]
        exact Nat.mul_le_mul_right _ ((Nat.le_div_iff_mul_le hunit).mpr h)
      · have hpow : 2 ^ (e + 1) ≤ 2 ^ (m.log2 - 52) := Nat.pow_le_pow_right (by decide) (by omega)
        calc q * 2 ^ e ≤ 2 ^ 53 * 2 ^ e := Nat.mul_le_mul_right _ hq.le
          _ = 2 ^ 52 * 2 ^ (e + 1) := by ring
          _ ≤ m / 2 ^ (m.log2 - 52) * 2 ^ (m.log2 - 52) := Nat.mul_le_mul hlow hpow
    rw [nearest, if_neg hsmall]
    dsimp only
    split
    · rw [Nat.add_mul]
      omega
    · exact hfloor

/-- A whole number held to 53 bits. -/
structure Whole where
  value : ℕ
  held : nearest value = value
deriving DecidableEq

/-- The number a whole number is held as. -/
def Whole.of (m : ℕ) : Whole where
  value := nearest m
  held := nearest_nearest m

@[ext] theorem Whole.ext_value {m n : Whole} (h : m.value = n.value) : m = n := by
  cases m
  cases n
  cases h
  rfl

/-- A number below 2 ^ 53, which is held as it is. -/
def Whole.small (m : ℕ) (h : m < 2 ^ 53) : Whole where
  value := m
  held := nearest_of_lt h

/-! ## The shortest number -/

/-- The number of a unit's multiples just below and above that rounds to a number, the closer where
both do, and of those as close the one of an even multiple. -/
def closest (n unit : ℕ) : Option ℕ :=
  let low := n / unit * unit
  let high := low + unit
  if nearest low = n then
    if nearest high = n ∧ (high - n < n - low ∨ (high - n = n - low ∧ n / unit % 2 = 1)) then
      some high
    else some low
  else if nearest high = n then some high
  else none

/-- The number with the most zeros after it, up to a count of them, that rounds to a number. -/
def shortestFrom (n : ℕ) : ℕ → ℕ
  | 0 => n
  | zeros + 1 => (closest n (10 ^ (zeros + 1))).getD (shortestFrom n zeros)

/-- What is closest to a number rounds to it. -/
theorem nearest_closest {n unit v : ℕ} (h : closest n unit = some v) : nearest v = n := by
  unfold closest at h
  dsimp only at h
  split at h
  · rename_i hlow
    split at h
    · rename_i hhigh
      exact Option.some.inj h ▸ hhigh.1
    · exact Option.some.inj h ▸ hlow
  · split at h
    · rename_i hhigh
      exact Option.some.inj h ▸ hhigh
    · cases h

/-- The shortest number rounds to the one it stands for. -/
theorem nearest_shortestFrom {n : ℕ} (hheld : nearest n = n) (zeros : ℕ) :
    nearest (shortestFrom n zeros) = n := by
  induction zeros with
  | zero => exact hheld
  | succ zeros ih =>
      rw [shortestFrom]
      cases hclosest : closest n (10 ^ (zeros + 1)) with
      | none => exact ih
      | some v => exact nearest_closest hclosest

/-- The number of as few digits as tell it from the others, that a number is written as. -/
def Whole.shortest (n : Whole) : ℕ :=
  shortestFrom n.value ((Nat.toDigits 10 n.value).length - 1)

theorem Whole.nearest_shortest (n : Whole) : nearest n.shortest = n.value :=
  nearest_shortestFrom n.held _

/-- A number below 2 ^ 53 is written as itself. -/
theorem Whole.shortest_of_lt {n : Whole} (h : n.value < 2 ^ 53) : n.shortest = n.value := by
  have hround := n.nearest_shortest
  by_cases hsmall : n.shortest < 2 ^ 53
  · rwa [nearest_of_lt hsmall] at hround
  · have hlarge := le_nearest_of_bits (q := 1) (e := 53) (by decide) (by omega) (m := n.shortest)
    omega

/-! ## The text -/

/-- Digits without the zeros they end in. -/
def significant (digits : List Char) : List Char :=
  digits.rdropWhile (· == '0')

/-- A number with an exponent: its first digit, the others up to its last that is not zero, and how
many digits follow the first. -/
def exponential (v : ℕ) : List Char :=
  let digits := Nat.toDigits 10 v
  let others := (significant digits).drop 1
  (significant digits).take 1 ++ (if others = [] then [] else '.' :: others) ++
    'e' :: '+' :: Nat.toDigits 10 (digits.length - 1)

/-- How a number is written by the digits it is written with. -/
def written (v : ℕ) : List Char :=
  if (Nat.toDigits 10 v).length ≤ 21 then Nat.toDigits 10 v else exponential v

/-- How a number is written. -/
def Whole.text (n : Whole) : List Char :=
  written n.shortest

/-- Digits are those without the zeros they end in, and the zeros. -/
theorem significant_append (digits : List Char) :
    significant digits ++ List.replicate (digits.length - (significant digits).length) '0' =
      digits := by
  have hsplit : significant digits ++ digits.rtakeWhile (· == '0') = digits :=
    List.rdropWhile_append_rtakeWhile
  have hlength := congrArg List.length hsplit
  rw [List.length_append] at hlength
  have hzeros : digits.rtakeWhile (· == '0') =
      List.replicate (digits.rtakeWhile (· == '0')).length '0' := by
    refine List.eq_replicate_iff.mpr ⟨rfl, fun c hc => ?_⟩
    simpa using List.mem_rtakeWhile_imp hc
  rw [show digits.length - (significant digits).length = (digits.rtakeWhile (· == '0')).length by omega,
    ← hzeros]
  exact hsplit

/-- Each of the digits a number is written with is one of its digits. -/
theorem mem_of_mem_significant {digits : List Char} {c : Char} (h : c ∈ significant digits) :
    c ∈ digits :=
  (List.rdropWhile_prefix _ _).mem h

theorem isDigit_of_mem {v : ℕ} {c : Char} (h : c ∈ Nat.toDigits 10 v) : c.isDigit = true :=
  Nat.isDigit_of_mem_toDigits (by decide) (by decide) h

/-- A number is read back from its digits. -/
theorem toDigits_injective {v w : ℕ} (h : Nat.toDigits 10 v = Nat.toDigits 10 w) : v = w := by
  have hread : ∀ n, Nat.ofDigitChars 10 (Nat.toDigits 10 n) 0 = n :=
    fun n => Nat.ofDigitChars_toDigits (by decide) (by decide)
  rw [← hread v, h, hread]

/-- The characters a number can be written with. -/
def Sign (c : Char) : Prop :=
  c.isDigit = true ∨ c = '.' ∨ c = 'e' ∨ c = '+'

/-- What stands before the exponent. -/
def mantissa (v : ℕ) : List Char :=
  let others := (significant (Nat.toDigits 10 v)).drop 1
  (significant (Nat.toDigits 10 v)).take 1 ++ (if others = [] then [] else '.' :: others)

theorem exponential_eq (v : ℕ) : exponential v =
    mantissa v ++ 'e' :: '+' :: Nat.toDigits 10 ((Nat.toDigits 10 v).length - 1) :=
  rfl

/-- What stands before the exponent is digits and a point. -/
theorem mem_mantissa {v : ℕ} {c : Char} (h : c ∈ mantissa v) : c.isDigit = true ∨ c = '.' := by
  unfold mantissa at h
  rcases List.mem_append.mp h with hfirst | hothers
  · exact .inl (isDigit_of_mem (mem_of_mem_significant (List.mem_of_mem_take hfirst)))
  · split at hothers
    · cases hothers
    · rcases List.mem_cons.mp hothers with rfl | hin
      · exact .inr rfl
      · exact .inl (isDigit_of_mem (mem_of_mem_significant (List.mem_of_mem_drop hin)))

/-- The digits before the exponent are those a number is written with. -/
theorem filter_mantissa (v : ℕ) :
    (mantissa v).filter Char.isDigit = significant (Nat.toDigits 10 v) := by
  have hdigits : ∀ digits, digits ⊆ significant (Nat.toDigits 10 v) →
      digits.filter Char.isDigit = digits := fun digits hsub =>
    List.filter_eq_self.mpr fun c hc => isDigit_of_mem (mem_of_mem_significant (hsub hc))
  have hjoin := List.take_append_drop 1 (significant (Nat.toDigits 10 v))
  unfold mantissa
  dsimp only
  rw [List.filter_append, hdigits _ (List.take_subset 1 _)]
  split
  · rename_i hnone
    rw [List.filter_nil, List.append_nil]
    rw [hnone, List.append_nil] at hjoin
    exact hjoin
  · rw [List.filter_cons_of_neg (by decide), hdigits _ (List.drop_subset 1 _)]
    exact hjoin

/-- No two numbers are written alike with an exponent. -/
theorem exponential_injective {v w : ℕ} (h : exponential v = exponential w) : v = w := by
  have hnot : ∀ n, ∀ c ∈ mantissa n, (c != 'e') = true := by
    intro n c hc
    rcases mem_mantissa hc with hdigit | rfl
    · rw [bne_iff_ne]
      rintro rfl
      exact absurd hdigit (by decide)
    · decide
  have hsplit : ∀ n, (exponential n).takeWhile (· != 'e') = mantissa n ∧
      (exponential n).dropWhile (· != 'e') =
        'e' :: '+' :: Nat.toDigits 10 ((Nat.toDigits 10 n).length - 1) := by
    intro n
    rw [exponential_eq, List.takeWhile_append_of_pos (hnot n), List.dropWhile_append_of_pos (hnot n)]
    simp
  obtain ⟨htake, hdrop⟩ := hsplit v
  rw [h, (hsplit w).1] at htake
  rw [h, (hsplit w).2] at hdrop
  have hsame : significant (Nat.toDigits 10 v) = significant (Nat.toDigits 10 w) := by
    rw [← filter_mantissa, ← htake, filter_mantissa]
  have hcount : (Nat.toDigits 10 w).length - 1 = (Nat.toDigits 10 v).length - 1 :=
    toDigits_injective (List.cons.inj (List.cons.inj hdrop).2).2
  have hpos := Nat.length_toDigits_pos (b := 10) (n := v)
  have hpos' := Nat.length_toDigits_pos (b := 10) (n := w)
  apply toDigits_injective
  rw [← significant_append (Nat.toDigits 10 v), ← significant_append (Nat.toDigits 10 w), hsame,
    show (Nat.toDigits 10 v).length = (Nat.toDigits 10 w).length by omega]

/-- No two numbers are written alike. -/
theorem written_injective {v w : ℕ} (h : written v = written w) : v = w := by
  have hnot : ∀ m n, Nat.toDigits 10 m ≠ exponential n := by
    intro m n hsame
    have hin : 'e' ∈ Nat.toDigits 10 m := by
      rw [hsame, exponential_eq]
      simp
    exact absurd (isDigit_of_mem hin) (by decide)
  unfold written at h
  split at h
  · split at h
    · exact toDigits_injective h
    · exact absurd h (hnot v w)
  · split at h
    · exact absurd h.symm (hnot w v)
    · exact exponential_injective h

/-- No two numbers held to 53 bits are written alike. -/
theorem Whole.text_injective : Function.Injective Whole.text := by
  intro m n h
  have hsame : m.shortest = n.shortest := written_injective h
  apply Whole.ext_value
  rw [← m.nearest_shortest, hsame, n.nearest_shortest]

/-- A number below 2 ^ 53 is written with its own digits. -/
theorem Whole.text_of_lt {n : Whole} (h : n.value < 2 ^ 53) : n.text = Nat.toDigits 10 n.value := by
  have hshort : (Nat.toDigits 10 n.value).length ≤ 21 :=
    (Nat.length_toDigits_le_iff (by decide) (by decide)).mpr (h.trans (by decide))
  rw [Whole.text, Whole.shortest_of_lt h, written, if_pos hshort]

/-- A number below 10 ^ 21 is written with digits that are read back as it. -/
theorem Whole.text_digits {n : Whole} (h : n.value < 10 ^ 21) :
    n.text = Nat.toDigits 10 n.shortest := by
  have hless : n.shortest < 10 ^ 21 := by
    by_contra hlarge
    have hround := le_nearest_of_bits (q := 5 ^ 21) (e := 21) (m := n.shortest) (by decide)
      (by omega)
    rw [n.nearest_shortest] at hround
    omega
  rw [Whole.text, written, if_pos ((Nat.length_toDigits_le_iff (by decide) (by decide)).mpr hless)]

/-- A number is written with digits, a point, and an exponent. -/
theorem Whole.mem_text {n : Whole} {c : Char} (h : c ∈ n.text) : Sign c := by
  rw [Whole.text, written] at h
  split at h
  · exact .inl (isDigit_of_mem h)
  · rw [exponential_eq] at h
    rcases List.mem_append.mp h with hbefore | hafter
    · exact (mem_mantissa hbefore).imp_right .inl
    · rcases List.mem_cons.mp hafter with rfl | hafter
      · exact .inr (.inr (.inl rfl))
      · rcases List.mem_cons.mp hafter with rfl | hafter
        · exact .inr (.inr (.inr rfl))
        · exact .inl (isDigit_of_mem hafter)

end Doubles
