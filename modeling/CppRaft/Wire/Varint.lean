import Mathlib.Algebra.Group.Nat.Defs

/-!
# Base-128 numbers

A natural number is written as bytes of seven bits each, the lowest ones first,
and every byte but the last one has its high bit set.  Writers and readers
carry a bound on the number of bytes, as the readers and writers of machine
integers do.
-/

namespace CppRaft.Wire

/-- The shortest form of `n`; after `k` bytes the rest goes into one last byte. -/
def writeVarint : (k : Nat) → (n : Nat) → List UInt8
  | 0, n => [UInt8.ofNat n]
  | k + 1, n =>
      if n < 128 then [UInt8.ofNat n]
      else UInt8.ofNat (n % 128 + 128) :: writeVarint k (n / 128)

/-- Read a number of at most `k` bytes. -/
def readVarint : (k : Nat) → List UInt8 → Option (Nat × List UInt8)
  | 0, _ => none
  | _ + 1, [] => none
  | k + 1, byte :: rest =>
      if byte.toNat < 128 then some (byte.toNat, rest)
      else (readVarint k rest).map fun high => (byte.toNat - 128 + 128 * high.1, high.2)

theorem readVarint_cons_of_lt {k : Nat} {byte : UInt8} {rest : List UInt8}
    (last : byte.toNat < 128) : readVarint (k + 1) (byte :: rest) = some (byte.toNat, rest) := by
  simp only [readVarint, last, if_true]

theorem readVarint_cons_of_le {k : Nat} {byte : UInt8} {rest : List UInt8}
    (more : 128 ≤ byte.toNat) :
    readVarint (k + 1) (byte :: rest) =
      (readVarint k rest).map fun high => (byte.toNat - 128 + 128 * high.1, high.2) := by
  simp only [readVarint, Nat.not_lt.mpr more, if_false]

theorem toNat_ofNat_of_lt {n : Nat} (small : n < 256) : (UInt8.ofNat n).toNat = n := by
  rw [UInt8.toNat_ofNat']
  exact Nat.mod_eq_of_lt small

theorem writeVarint_length_pos (k n : Nat) : 1 ≤ (writeVarint k n).length := by
  cases k with
  | zero => exact Nat.le_refl 1
  | succ k =>
      by_cases last : n < 128
      · simp only [writeVarint, last, if_true, List.length_singleton, Nat.le_refl]
      · simp only [writeVarint, last, if_false, List.length_cons]
        omega

/-- Reading gives back what was written, and what follows it. -/
theorem readVarint_writeVarint {k n : Nat} (fits : n < 128 ^ (k + 1)) {limit : Nat}
    (enough : k < limit) (rest : List UInt8) :
    readVarint limit (writeVarint k n ++ rest) = some (n, rest) := by
  induction k generalizing n limit with
  | zero =>
      obtain ⟨limit, rfl⟩ := Nat.exists_eq_succ_of_ne_zero (Nat.ne_zero_of_lt enough)
      have byte := toNat_ofNat_of_lt (n := n) (by omega)
      rw [writeVarint, List.singleton_append, readVarint_cons_of_lt (by omega), byte]
  | succ k ih =>
      obtain ⟨limit, rfl⟩ := Nat.exists_eq_succ_of_ne_zero (Nat.ne_zero_of_lt enough)
      by_cases last : n < 128
      · have byte := toNat_ofNat_of_lt (n := n) (by omega)
        rw [writeVarint, if_pos last, List.singleton_append,
          readVarint_cons_of_lt (by omega), byte]
      · have byte := toNat_ofNat_of_lt (n := n % 128 + 128) (by omega)
        have high : n / 128 < 128 ^ (k + 1) := by
          rw [Nat.div_lt_iff_lt_mul (by omega), ← Nat.pow_succ]
          exact fits
        rw [writeVarint, if_neg last, List.cons_append, readVarint_cons_of_le (by omega), byte,
          ih high (by omega)]
        simp only [Option.map_some, Option.some.injEq, Prod.mk.injEq, and_true]
        omega

/-- Smaller numbers are not longer. -/
theorem writeVarint_length_mono (k : Nat) {m n : Nat} (smaller : m ≤ n) :
    (writeVarint k m).length ≤ (writeVarint k n).length := by
  induction k generalizing m n with
  | zero => exact Nat.le_refl 1
  | succ k ih =>
      by_cases last : n < 128
      · have last' : m < 128 := by omega
        simp only [writeVarint, last, last', if_true, List.length_singleton, Nat.le_refl]
      · by_cases last' : m < 128
        · simp only [writeVarint, last', if_true, List.length_singleton]
          exact writeVarint_length_pos (k + 1) n
        · simp only [writeVarint, last, last', if_false, List.length_cons]
          have shorter := ih (Nat.div_le_div_right smaller (c := 128))
          omega

/-- No form of a number is shorter than the one that is written. -/
theorem writeVarint_length_le {limit : Nat} {bytes rest : List UInt8} {n : Nat}
    (read : readVarint limit bytes = some (n, rest)) (k : Nat) :
    (writeVarint k n).length + rest.length ≤ bytes.length := by
  induction limit generalizing bytes n rest k with
  | zero => cases read
  | succ limit ih =>
      cases bytes with
      | nil => cases read
      | cons byte tail =>
          by_cases last : byte.toNat < 128
          · rw [readVarint_cons_of_lt last, Option.some.injEq, Prod.mk.injEq] at read
            obtain ⟨rfl, rfl⟩ := read
            have single : (writeVarint k byte.toNat).length = 1 := by
              cases k with
              | zero => rfl
              | succ k => simp only [writeVarint, last, if_true, List.length_singleton]
            rw [single, List.length_cons]
            omega
          · rw [readVarint_cons_of_le (by omega), Option.map_eq_some_iff] at read
            obtain ⟨⟨high, after⟩, readHigh, value⟩ := read
            rw [Prod.mk.injEq] at value
            obtain ⟨rfl, rfl⟩ := value
            cases k with
            | zero =>
                have consumed := ih readHigh 0
                simp only [writeVarint, List.length_cons] at consumed ⊢
                omega
            | succ k =>
                have consumed := ih readHigh k
                have rounded : (byte.toNat - 128 + 128 * high) / 128 = high := by
                  have bound := byte.toNat_lt
                  omega
                by_cases small : byte.toNat - 128 + 128 * high < 128
                · have positive := writeVarint_length_pos k high
                  simp only [writeVarint, small, if_true, List.length_cons, List.length_nil]
                  omega
                · simp only [writeVarint, small, if_false, List.length_cons, rounded]
                  omega

end CppRaft.Wire
