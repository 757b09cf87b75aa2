import Mathlib

/-!
# Digit strings of fixed width

Writing a natural in base `b ≤ 16` with a fixed number of digits, most significant first,
and reading such a string back. Reading accepts both letter cases and rejects everything
that is not a digit of the base. In lexicographic order the strings of one width stand as their
numbers do; a shorter string is compared with the leading digits of the longer one.
-/

namespace ThoriumFrugal.Lib.Digits

/-- The value of a hexadecimal digit. -/
def digitVal (c : Char) : Option ℕ :=
  if 48 ≤ c.toNat ∧ c.toNat ≤ 57 then some (c.toNat - 48)
  else if 97 ≤ c.toNat ∧ c.toNat ≤ 102 then some (c.toNat - 87)
  else if 65 ≤ c.toNat ∧ c.toNat ≤ 70 then some (c.toNat - 55)
  else none

/-- The last `k` digits of `n` in base `b`. -/
def fixedDigits (b : ℕ) : ℕ → ℕ → List Char
  | 0, _ => []
  | k + 1, n => fixedDigits b k (n / b) ++ [Nat.digitChar (n % b)]

/-- One more digit behind the value read so far. -/
def pushDigit (b : ℕ) (acc : Option ℕ) (c : Char) : Option ℕ :=
  match acc, digitVal c with
  | some n, some d => if d < b then some (n * b + d) else none
  | _, _ => none

/-- The number a digit string denotes, none if some character is not a digit. -/
def ofDigits (b : ℕ) (s : List Char) : Option ℕ := s.foldl (pushDigit b) (some 0)

theorem digitVal_digitChar {d : ℕ} (h : d < 16) : digitVal (Nat.digitChar d) = some d := by
  interval_cases d <;> decide

@[simp] theorem length_fixedDigits (b k n : ℕ) : (fixedDigits b k n).length = k := by
  induction k generalizing n with
  | zero => rfl
  | succ k ih => rw [fixedDigits, List.length_append, ih, List.length_singleton]

/-- Every character of a digit string is the digit of some value below the base. -/
theorem exists_of_mem_fixedDigits {b k n : ℕ} (hb : 0 < b) {c : Char}
    (h : c ∈ fixedDigits b k n) : ∃ d < b, c = Nat.digitChar d := by
  induction k generalizing n with
  | zero => simp [fixedDigits] at h
  | succ k ih =>
    rw [fixedDigits, List.mem_append, List.mem_singleton] at h
    rcases h with h | h
    · exact ih h
    · exact ⟨n % b, Nat.mod_lt _ hb, h⟩

/-- Reading back what was written gives the number modulo the range of the width. -/
theorem ofDigits_fixedDigits {b : ℕ} (hb : 0 < b) (hb' : b ≤ 16) (k n : ℕ) :
    ofDigits b (fixedDigits b k n) = some (n % b ^ k) := by
  induction k generalizing n with
  | zero =>
    rw [pow_zero, Nat.mod_one]
    rfl
  | succ k ih =>
    have hlt : n % b < b := Nat.mod_lt _ hb
    have ih : (fixedDigits b k (n / b)).foldl (pushDigit b) (some 0) = some (n / b % b ^ k) :=
      ih (n / b)
    rw [ofDigits, fixedDigits, List.foldl_append, ih, List.foldl_cons, List.foldl_nil]
    unfold pushDigit
    rw [digitVal_digitChar (hlt.trans_le hb')]
    simp only [hlt, if_true]
    -- the digits above the last one are those of `n / b`
    rw [pow_succ', Nat.mod_mul, add_comm, mul_comm]

/-! ## Lexicographic order -/

section Order

theorem append_lt_append_iff {α : Type*} [LinearOrder α] {a b : List α}
    (h : a.length = b.length) (c d : List α) : a ++ c < b ++ d ↔ a < b ∨ a = b ∧ c < d := by
  induction a generalizing b with
  | nil =>
    rw [List.length_nil] at h
    rw [List.length_eq_zero_iff.mp h.symm]
    simp
  | cons x a ih =>
    cases b with
    | nil => simp at h
    | cons y b =>
      rw [List.length_cons, List.length_cons, Nat.add_right_cancel_iff] at h
      rw [List.cons_append, List.cons_append, List.cons_lt_cons_iff, List.cons_lt_cons_iff, ih h,
        List.cons.injEq]
      tauto

theorem digitChar_lt_iff {i j : ℕ} (hi : i < 10) (hj : j < 10) :
    Nat.digitChar i < Nat.digitChar j ↔ i < j := by
  interval_cases i <;> interval_cases j <;> decide

theorem fixedDigits_inj {b : ℕ} (hb : 0 < b) (hb' : b ≤ 16) {k m n : ℕ} :
    fixedDigits b k m = fixedDigits b k n ↔ m % b ^ k = n % b ^ k := by
  constructor
  · intro h
    have hread := congrArg (ofDigits b) h
    rw [ofDigits_fixedDigits hb hb', ofDigits_fixedDigits hb hb'] at hread
    exact Option.some.inj hread
  · intro h
    induction k generalizing m n with
    | zero => rfl
    | succ k ih =>
      rw [pow_succ'] at h
      have hlast : m % b = n % b := by
        have hmod := congrArg (· % b) h
        simpa only [Nat.mod_mul_right_mod] using hmod
      have hfront : m / b % b ^ k = n / b % b ^ k := by
        have hdiv := congrArg (· / b) h
        simpa only [Nat.mod_mul_right_div_self] using hdiv
      rw [fixedDigits, fixedDigits, ih hfront, hlast]

theorem fixedDigits_lt_iff {k m n : ℕ} :
    fixedDigits 10 k m < fixedDigits 10 k n ↔ m % 10 ^ k < n % 10 ^ k := by
  induction k generalizing m n with
  | zero => simp [fixedDigits, Nat.mod_one]
  | succ k ih =>
    have hm : m % 10 < 10 := Nat.mod_lt m (by decide)
    have hn : n % 10 < 10 := Nat.mod_lt n (by decide)
    have hdigit : [Nat.digitChar (m % 10)] < [Nat.digitChar (n % 10)] ↔ m % 10 < n % 10 := by
      rw [← digitChar_lt_iff hm hn]
      exact List.lex_singleton_iff _ _
    unfold fixedDigits
    rw [append_lt_append_iff (by simp), ih, fixedDigits_inj (by decide) (by decide), hdigit,
      pow_succ', Nat.mod_mul, Nat.mod_mul]
    omega

/-- The digits in front and the last ones. -/
theorem fixedDigits_add (b k l n : ℕ) :
    fixedDigits b (k + l) n = fixedDigits b k (n / b ^ l) ++ fixedDigits b l n := by
  induction l generalizing n with
  | zero => simp [fixedDigits]
  | succ l ih =>
    rw [← Nat.add_assoc, fixedDigits, fixedDigits, ih, List.append_assoc, Nat.div_div_eq_div_mul,
      pow_succ']

/-- A string and a longer one. -/
theorem fixedDigits_lt_add_iff {k l m n : ℕ} (hl : 0 < l) :
    fixedDigits 10 k m < fixedDigits 10 (k + l) n ↔ m % 10 ^ k ≤ n / 10 ^ l % 10 ^ k := by
  have hrest : [] < fixedDigits 10 l n := by
    cases h : fixedDigits 10 l n with
    | nil =>
      have hlen := length_fixedDigits 10 l n
      rw [h, List.length_nil] at hlen
      omega
    | cons d ds => exact List.nil_lt_cons d ds
  have happend := append_lt_append_iff (a := fixedDigits 10 k m)
    (b := fixedDigits 10 k (n / 10 ^ l)) (by simp) [] (fixedDigits 10 l n)
  rw [List.append_nil] at happend
  rw [fixedDigits_add, happend, fixedDigits_lt_iff, fixedDigits_inj (by decide) (by decide)]
  simp only [hrest, and_true]
  omega

/-- Padding with zeros gives the string of the width, if the number has no more digits. -/
theorem leftpad_toDigits {k n : ℕ} (hk : 0 < k) (hn : n < 10 ^ k) :
    (Nat.toDigits 10 n).leftpad k '0' = fixedDigits 10 k n := by
  induction k generalizing n with
  | zero => omega
  | succ k ih =>
    by_cases hten : n < 10
    · -- one digit behind zeros
      have hzero : ∀ k, fixedDigits 10 k 0 = List.replicate k '0' := by
        intro k
        induction k with
        | zero => rfl
        | succ k ih =>
          rw [fixedDigits, Nat.zero_div, ih, List.replicate_succ']
          rfl
      rw [Nat.toDigits_of_lt_base hten, fixedDigits, Nat.div_eq_of_lt hten, hzero,
        Nat.mod_eq_of_lt hten]
      rfl
    · have hkpos : 0 < k := by
        rcases Nat.eq_zero_or_pos k with rfl | hpos
        · omega
        · exact hpos
      have hdiv : n / 10 < 10 ^ k := by
        rw [pow_succ'] at hn
        exact Nat.div_lt_of_lt_mul hn
      rw [fixedDigits, ← ih hkpos hdiv, Nat.toDigits_of_base_le (by decide) (by omega)]
      unfold List.leftpad
      rw [List.length_append, List.length_singleton, Nat.add_sub_add_right, List.append_assoc]

end Order

end ThoriumFrugal.Lib.Digits
