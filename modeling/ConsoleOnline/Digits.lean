/-!
Positional notation. A natural number has `width` digits in base `b`, most significant first,
and a list of digits has a value. Bytes, hexadecimal and decimal text are this notation with
another base and another spelling of the digits.
-/
namespace ConsoleOnline.Digits

/-- The last `width` digits of `n`, most significant first. -/
def fixed (b : Nat) : Nat → Nat → List Nat
  | 0, _ => []
  | width + 1, n => fixed b width (n / b) ++ [n % b]

/-- The number with the given digits. -/
def value (b : Nat) (ds : List Nat) : Nat :=
  ds.foldl (fun n d => n * b + d) 0

/-- How many digits `n` needs. Zero needs one. -/
def count (b n : Nat) : Nat :=
  if h : b < 2 ∨ n < b then 1 else count b (n / b) + 1
termination_by n
decreasing_by exact Nat.div_lt_self (by omega) (by omega)

/-- All digits of `n`, and leading zeros where these are fewer than `width`. -/
def atLeast (b width n : Nat) : List Nat :=
  fixed b (max width (count b n)) n

@[simp] theorem fixed_zero (b n : Nat) : fixed b 0 n = [] := rfl

@[simp] theorem length_fixed (b width n : Nat) : (fixed b width n).length = width := by
  induction width generalizing n with
  | zero => rfl
  | succ width ih => simp [fixed, ih]

@[simp] theorem value_nil (b : Nat) : value b [] = 0 := rfl

@[simp] theorem value_concat (b d : Nat) (ds : List Nat) :
    value b (ds ++ [d]) = value b ds * b + d := by
  simp [value]

theorem value_fixed (b width n : Nat) : value b (fixed b width n) = n % Nat.pow b width := by
  induction width generalizing n with
  | zero => simp [Nat.mod_one]
  | succ width ih =>
    have h : Nat.pow b (width + 1) = b * Nat.pow b width := Nat.mul_comm _ _
    rw [fixed, value_concat, ih, h, Nat.mod_mul, Nat.mul_comm, Nat.add_comm]

theorem mem_fixed_lt {b width n d : Nat} (hb : 0 < b) (h : d ∈ fixed b width n) : d < b := by
  induction width generalizing n with
  | zero => simp at h
  | succ width ih =>
    rw [fixed, List.mem_append, List.mem_singleton] at h
    rcases h with h | rfl
    · exact ih h
    · exact Nat.mod_lt _ hb

end ConsoleOnline.Digits
