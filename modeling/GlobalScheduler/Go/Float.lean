import Mathlib.Data.Int.Log
import Mathlib.Data.Rat.Floor
import Mathlib.Tactic.Positivity

/-! Floating-point numbers as rounded rationals.

A `Format` is a rounding of the rationals to the values it can hold. The
operations of Go's floating-point types are the exact ones followed by that
rounding, with the infinities and the not-a-number that division needs. Two
formats matter: `Format.binary p`, round to nearest even with `p` bits of
precision, and `Format.rational`, which rounds nothing. The exponent is unbounded,
so nothing overflows to an infinity or goes subnormal.

Programs that only count with floats rely on two facts: a whole number read back
from a float is a float again (`Fp.IsValue.toInt64`), and the smaller of two floats
is no larger than either (`Fp.rank_min`). -/
namespace Go

open Int

theorem two_zpow_pos (e : ℤ) : (0 : ℚ) < 2 ^ e := zpow_pos (by norm_num) e

/-- Toward zero, as a conversion to an integer type cuts. -/
def trunc (q : ℚ) : ℤ := if 0 ≤ q then ⌊q⌋ else ⌈q⌉

theorem trunc_intCast (n : ℤ) : trunc (n : ℚ) = n := by
  unfold trunc
  split <;> simp

theorem trunc_mono {a b : ℚ} (hab : a ≤ b) : trunc a ≤ trunc b := by
  unfold trunc
  split
  case isTrue ha =>
    rw [if_pos (ha.trans hab)]
    exact floor_le_floor hab
  case isFalse ha =>
    split
    case isTrue hb => exact (ceil_le.mpr (by exact_mod_cast (not_le.mp ha).le)).trans (floor_nonneg.mpr hb)
    case isFalse hb => exact ceil_le_ceil hab

def roundEven (q : ℚ) : ℤ :=
  let d := q - ⌊q⌋
  if d < 1 / 2 then ⌊q⌋ else if 1 / 2 < d then ⌊q⌋ + 1
  else if ⌊q⌋ % 2 = 0 then ⌊q⌋ else ⌊q⌋ + 1

theorem roundEven_intCast (n : ℤ) : roundEven (n : ℚ) = n := by
  simp [roundEven]

theorem roundEven_cases (q : ℚ) : roundEven q = ⌊q⌋ ∨ roundEven q = ⌊q⌋ + 1 ∧ (⌊q⌋ : ℚ) < q := by
  by_cases hq : q = ⌊q⌋
  · left
    rw [hq, roundEven_intCast, floor_intCast]
  · have hlt : (⌊q⌋ : ℚ) < q := lt_of_le_of_ne (floor_le q) (fun h => hq h.symm)
    simp only [roundEven]
    split_ifs <;> simp [hlt]

theorem abs_roundEven_le {q : ℚ} {n : ℤ} (h : |q| ≤ n) : |roundEven q| ≤ n := by
  obtain ⟨hlo, hhi⟩ := abs_le.mp h
  have hfl : -n ≤ ⌊q⌋ := le_floor.mpr (by push_cast; exact hlo)
  rcases roundEven_cases q with hr | ⟨hr, hlt⟩
  · rw [hr, abs_le]
    exact ⟨hfl, floor_le_iff.mpr (by linarith)⟩
  · rw [hr, abs_le]
    have : ⌊q⌋ < n := by exact_mod_cast lt_of_lt_of_le hlt hhi
    omega

/-- A rounding of the rationals: it fixes what it returns, and the whole part of
what it returns. -/
structure Format where
  round : ℚ → ℚ
  round_round : ∀ q, round (round q) = round q
  round_trunc : ∀ q, round (trunc (round q) : ℚ) = trunc (round q)
  round_minInt64 : round (-2 ^ 63 : ℚ) = -2 ^ 63

namespace Format

/-! ### Binary formats -/

/-- The values with at most `p` significant bits. -/
def Holds (p : ℕ) (q : ℚ) : Prop := ∃ m e : ℤ, |m| ≤ 2 ^ p ∧ q = m * 2 ^ e

/-- The exponent of the last of the `p` bits that start at the first bit of `q`. -/
def lastBit (p : ℕ) (q : ℚ) : ℤ := log 2 |q| - (p - 1)

/-- Round to nearest even with `p` bits. -/
def nearest (p : ℕ) (q : ℚ) : ℚ := roundEven (q * 2 ^ (-lastBit p q)) * 2 ^ lastBit p q

theorem abs_scaled_le (p : ℕ) (q : ℚ) : |q * 2 ^ (-lastBit p q)| ≤ ((2 ^ p : ℤ) : ℚ) := by
  by_cases hq : q = 0
  · subst hq
    simp
  have hlt : |q| < 2 ^ (log 2 |q| + 1) := by
    exact_mod_cast lt_zpow_succ_log_self (b := 2) (by decide) |q|
  have h2 := two_zpow_pos (-lastBit p q)
  rw [abs_mul, abs_of_pos h2]
  calc |q| * 2 ^ (-lastBit p q)
      ≤ 2 ^ (log 2 |q| + 1) * 2 ^ (-lastBit p q) := by
        exact mul_le_mul_of_nonneg_right hlt.le h2.le
    _ = 2 ^ (log 2 |q| + 1 + -lastBit p q) := by
        rw [← zpow_add₀ (by norm_num : (2 : ℚ) ≠ 0)]
    _ = ((2 ^ p : ℤ) : ℚ) := by
        have : log 2 |q| + 1 + -lastBit p q = (p : ℤ) := by
          unfold lastBit
          ring
        rw [this, zpow_natCast]
        push_cast
        rfl

theorem holds_nearest (p : ℕ) (q : ℚ) : Holds p (nearest p q) :=
  ⟨roundEven (q * 2 ^ (-lastBit p q)), lastBit p q, abs_roundEven_le (abs_scaled_le p q), rfl⟩

variable {p : ℕ} {q : ℚ}

theorem Holds.strict (hp : 0 < p) (h : Holds p q) :
    ∃ m e : ℤ, |m| < 2 ^ p ∧ q = m * 2 ^ e := by
  obtain ⟨m, e, hm, rfl⟩ := h
  by_cases hlt : |m| < 2 ^ p
  · exact ⟨m, e, hlt, rfl⟩
  -- The only value left is `2 ^ p` itself, one bit of which moves to the exponent.
  obtain ⟨k, rfl⟩ : ∃ k, p = k + 1 := ⟨p - 1, by omega⟩
  have habs : |m| = 2 ^ (k + 1) := le_antisymm hm (not_lt.mp hlt)
  have hhalf : (2 : ℤ) ^ k < 2 ^ (k + 1) := by
    have : (0 : ℤ) < 2 ^ k := by positivity
    omega
  have hscale : (2 : ℚ) ^ (e + 1) = 2 * 2 ^ e := by
    rw [zpow_add₀ (by norm_num), zpow_one, mul_comm]
  rcases abs_eq (by positivity : (0 : ℤ) ≤ 2 ^ (k + 1)) |>.mp habs with rfl | rfl
  · refine ⟨2 ^ k, e + 1, by rwa [abs_of_pos (by positivity)], ?_⟩
    rw [hscale]
    push_cast
    ring
  · refine ⟨-2 ^ k, e + 1, by rwa [abs_neg, abs_of_pos (by positivity)], ?_⟩
    rw [hscale]
    push_cast
    ring

theorem nearest_of_holds (hp : 0 < p) (h : Holds p q) : nearest p q = q := by
  obtain ⟨m, e, hm, rfl⟩ := h.strict hp
  by_cases hm0 : m = 0
  · subst hm0
    simp [nearest, roundEven]
  have hq0 : (m : ℚ) * 2 ^ e ≠ 0 := mul_ne_zero (by exact_mod_cast hm0) (two_zpow_pos e).ne'
  have hlt : |(m : ℚ) * 2 ^ e| < 2 ^ ((p : ℤ) + e) := by
    rw [abs_mul, abs_of_pos (two_zpow_pos e), zpow_add₀ (by norm_num), zpow_natCast]
    exact mul_lt_mul_of_pos_right (by exact_mod_cast hm) (two_zpow_pos e)
  have hlast : lastBit p (m * 2 ^ e) ≤ e := by
    have := (lt_zpow_iff_log_lt (b := 2) (by decide) (abs_pos.mpr hq0)).mp
      (by exact_mod_cast hlt)
    unfold lastBit
    omega
  -- Scaled to the last bit the value is whole, and whole numbers do not round.
  obtain ⟨k, hk⟩ : ∃ k : ℕ, e + -lastBit p (m * 2 ^ e) = k :=
    ⟨(e + -lastBit p (m * 2 ^ e)).toNat, by omega⟩
  have hscaled : (m : ℚ) * 2 ^ e * 2 ^ (-lastBit p (m * 2 ^ e)) = ((m * 2 ^ k : ℤ) : ℚ) := by
    rw [mul_assoc, ← zpow_add₀ (by norm_num), hk, zpow_natCast]
    push_cast
    rfl
  unfold nearest
  rw [hscaled, roundEven_intCast, ← hscaled, mul_assoc, ← zpow_add₀ (by norm_num),
    neg_add_cancel, zpow_zero, mul_one]

theorem trunc_abs_le (q : ℚ) : |(trunc q : ℚ)| ≤ |q| := by
  unfold trunc
  split
  case isTrue h =>
    have h0 : (0 : ℚ) ≤ ⌊q⌋ := by exact_mod_cast floor_nonneg.mpr h
    rw [abs_of_nonneg h0, abs_of_nonneg h]
    exact floor_le q
  case isFalse h =>
    have hq : q < 0 := not_le.mp h
    have h0 : (⌈q⌉ : ℚ) ≤ 0 := by exact_mod_cast ceil_le.mpr (by exact_mod_cast hq.le)
    rw [abs_of_nonpos h0, abs_of_neg hq]
    exact neg_le_neg (le_ceil q)

theorem Holds.trunc (h : Holds p q) : Holds p (trunc q : ℚ) := by
  obtain ⟨m, e, hm, rfl⟩ := h
  by_cases he : 0 ≤ e
  · obtain ⟨k, rfl⟩ := eq_ofNat_of_zero_le he
    refine ⟨m, k, hm, ?_⟩
    have : (m : ℚ) * 2 ^ (k : ℤ) = ((m * 2 ^ k : ℤ) : ℚ) := by
      push_cast
      rfl
    rw [this, trunc_intCast]
  · refine ⟨Go.trunc (m * 2 ^ e), 0, ?_, by simp⟩
    have hle : (2 : ℚ) ^ e ≤ 1 := zpow_le_one_of_nonpos₀ (by norm_num) (by omega)
    have hmul : |(m : ℚ) * 2 ^ e| ≤ |(m : ℚ)| := by
      rw [abs_mul, abs_of_pos (two_zpow_pos e)]
      exact mul_le_of_le_one_right (abs_nonneg _) hle
    have := (trunc_abs_le ((m : ℚ) * 2 ^ e)).trans hmul
    exact le_trans (by exact_mod_cast this) hm

/-- Round to nearest even with `p` bits of precision. -/
def binary (p : ℕ) (hp : 0 < p) : Format where
  round := nearest p
  round_round := fun q => nearest_of_holds hp (holds_nearest p q)
  round_trunc := fun q => nearest_of_holds hp (holds_nearest p q).trunc
  round_minInt64 := nearest_of_holds hp ⟨-1, 63, by simpa using one_le_pow₀ (by decide), by norm_num⟩

/-- Go's `float64`. -/
def float64 : Format := binary 53 (by decide)

/-- Go's `float32`. -/
def float32 : Format := binary 24 (by decide)

def rational : Format where
  round := id
  round_round := fun _ => rfl
  round_trunc := fun _ => rfl
  round_minInt64 := rfl

theorem float64_round_intCast {n : ℤ} (h : |n| ≤ 2 ^ 53) : float64.round n = n :=
  nearest_of_holds (by decide) ⟨n, 0, h, by simp⟩

theorem two_zpow_le_nearest (hp : 0 < p) {e : ℤ} (h : 2 ^ e ≤ q) : 2 ^ e ≤ nearest p q := by
  have hpos : 0 < q := (two_zpow_pos e).trans_le h
  have hlog : (2 : ℚ) ^ log 2 |q| ≤ q := by
    have hself : ((2 : ℕ) : ℚ) ^ log 2 |q| ≤ |q| := zpow_log_le_self (by decide) (abs_pos.mpr hpos.ne')
    rwa [abs_of_pos hpos] at hself ⊢
  have hexp : e ≤ log 2 |q| := by
    rw [abs_of_pos hpos]
    exact (zpow_le_iff_le_log (b := 2) (by decide) hpos).mp (by exact_mod_cast h)
  -- Scaled to the last bit the first bit is `2 ^ (p - 1)`, a whole number below `q`.
  have hscaled : ((2 ^ (p - 1) : ℤ) : ℚ) ≤ q * 2 ^ (-lastBit p q) := by
    have hsplit : (2 : ℚ) ^ (p - 1) = 2 ^ log 2 |q| * 2 ^ (-lastBit p q) := by
      rw [← zpow_add₀ (by norm_num), ← zpow_natCast]
      congr 1
      unfold lastBit
      omega
    push_cast
    rw [hsplit]
    exact mul_le_mul_of_nonneg_right hlog (two_zpow_pos _).le
  have hround : (2 ^ (p - 1) : ℤ) ≤ roundEven (q * 2 ^ (-lastBit p q)) := by
    have hfloor := le_floor.mpr hscaled
    rcases roundEven_cases (q * 2 ^ (-lastBit p q)) with heq | ⟨heq, -⟩ <;> omega
  calc (2 : ℚ) ^ e ≤ 2 ^ log 2 |q| := zpow_le_zpow_right₀ (by norm_num) hexp
    _ = ((2 ^ (p - 1) : ℤ) : ℚ) * 2 ^ lastBit p q := by
        push_cast
        rw [← zpow_natCast, ← zpow_add₀ (by norm_num)]
        congr 1
        unfold lastBit
        omega
    _ ≤ nearest p q := mul_le_mul_of_nonneg_right (by exact_mod_cast hround) (two_zpow_pos _).le

/-- A value of the format that a number does not fall below, its rounding does not either. -/
theorem le_nearest (hp : 0 < p) {m : ℚ} (hm : nearest p m = m) (hpos : 0 < m) (h : m ≤ q) :
    m ≤ nearest p q := by
  have hq : 0 < q := hpos.trans_le h
  by_cases hbelow : m < 2 ^ log 2 q
  · have hself : ((2 : ℕ) : ℚ) ^ log 2 q ≤ q := zpow_log_le_self (by decide) hq
    exact hbelow.le.trans (two_zpow_le_nearest hp (by exact_mod_cast hself))
  · -- The two have their first bit in the same place, so they are cut at the same bit.
    have hlog : log 2 m = log 2 q :=
      le_antisymm (log_mono_right hpos h)
        ((zpow_le_iff_le_log (b := 2) (by decide) hpos).mp (by exact_mod_cast not_lt.mp hbelow))
    have hlast : lastBit p m = lastBit p q := by
      rw [lastBit, lastBit, abs_of_pos hpos, abs_of_pos hq, hlog]
    have hscale := two_zpow_pos (-lastBit p q)
    have hdigits : m = roundEven (m * 2 ^ (-lastBit p q)) * 2 ^ lastBit p q := by
      conv_lhs => rw [← hm, nearest, hlast]
    have hwhole : m * 2 ^ (-lastBit p q) = roundEven (m * 2 ^ (-lastBit p q)) := by
      conv_lhs => rw [hdigits]
      rw [mul_assoc, ← zpow_add₀ (by norm_num), add_neg_cancel, zpow_zero, mul_one]
    have hle : (roundEven (m * 2 ^ (-lastBit p q)) : ℚ) ≤ q * 2 ^ (-lastBit p q) := by
      rw [← hwhole]
      exact mul_le_mul_of_nonneg_right h hscale.le
    have hround : roundEven (m * 2 ^ (-lastBit p q)) ≤ roundEven (q * 2 ^ (-lastBit p q)) := by
      have hfloor := le_floor.mpr hle
      rcases roundEven_cases (q * 2 ^ (-lastBit p q)) with heq | ⟨heq, -⟩ <;> omega
    rw [hdigits, nearest]
    exact mul_le_mul_of_nonneg_right (by exact_mod_cast hround) (two_zpow_pos _).le

theorem exists_nearest_intCast (hp : 0 < p) (n : ℤ) : ∃ m : ℤ, nearest p n = m := by
  by_cases hsmall : |n| ≤ 2 ^ p
  · exact ⟨n, nearest_of_holds hp ⟨n, 0, hsmall, by simp⟩⟩
  · have hlarge : (2 : ℚ) ^ (p : ℤ) ≤ |(n : ℚ)| := by
      exact_mod_cast (not_le.mp hsmall).le
    have hlog : (p : ℤ) ≤ log 2 |(n : ℚ)| :=
      (zpow_le_iff_le_log (b := 2) (by decide) ((two_zpow_pos _).trans_le hlarge)).mp
        (by exact_mod_cast hlarge)
    obtain ⟨k, hk⟩ : ∃ k : ℕ, lastBit p n = k := ⟨(lastBit p n).toNat, by unfold lastBit; omega⟩
    refine ⟨roundEven (n * 2 ^ (-lastBit p n)) * 2 ^ k, ?_⟩
    rw [nearest]
    conv_lhs => rw [hk, zpow_natCast]
    push_cast
    rw [hk]

end Format

/-! ### Values and operations -/

/-- A floating-point value: zero carries no sign here. -/
inductive Fp where
  | nan
  | inf (negative : Bool)
  | fin (q : ℚ)
deriving DecidableEq

namespace Fp

variable (F : Format)

/-- `float64(x)` of a float of another format. -/
def convert : Fp → Fp
  | .fin a => .fin (F.round a)
  | x => x

/-- `float64(n)`. -/
def ofInt (n : ℤ) : Fp := .fin (F.round n)

def mul : Fp → Fp → Fp
  | .fin a, .fin b => .fin (F.round (a * b))
  | .nan, _ | _, .nan => .nan
  | .inf s, .inf t => .inf (s != t)
  | .inf s, .fin a | .fin a, .inf s => if a = 0 then .nan else .inf (s != decide (a < 0))

def add : Fp → Fp → Fp
  | .fin a, .fin b => .fin (F.round (a + b))
  | .nan, _ | _, .nan => .nan
  | .inf s, .inf t => if s = t then .inf s else .nan
  | .inf s, .fin _ | .fin _, .inf s => .inf s

def neg : Fp → Fp
  | .fin a => .fin (-a)
  | .nan => .nan
  | .inf s => .inf (!s)

def sub (a b : Fp) : Fp := add F a (neg b)

def div : Fp → Fp → Fp
  | .fin a, .fin b =>
    if b = 0 then (if a = 0 then .nan else .inf (decide (a < 0))) else .fin (F.round (a / b))
  | .nan, _ | _, .nan => .nan
  | .inf _, .inf _ => .nan
  | .inf s, .fin b => .inf (s != decide (b < 0))
  | .fin _, .inf _ => .fin 0

/-- `a < b`, false when either is not a number. -/
def lt : Fp → Fp → Bool
  | .fin a, .fin b => decide (a < b)
  | .nan, _ | _, .nan => false
  | .inf s, .inf t => s && !t
  | .inf s, .fin _ => s
  | .fin _, .inf t => !t

/-- `math.Min`. -/
def min (a b : Fp) : Fp :=
  if a = .inf true ∨ b = .inf true then .inf true
  else if a = .nan ∨ b = .nan then .nan
  else if lt a b then a else b

/-- `math.Max`. -/
def max (a b : Fp) : Fp :=
  if a = .inf false ∨ b = .inf false then .inf false
  else if a = .nan ∨ b = .nan then .nan
  else if lt b a then a else b

/-- `math.Floor`. -/
def floor : Fp → Fp
  | .fin a => .fin ⌊a⌋
  | x => x

/-- `int(x)` on a 64-bit machine: what does not fit becomes the least integer, as
the conversion instruction of amd64 has it. -/
def toInt64 : Fp → ℤ
  | .fin a => if -2 ^ 63 ≤ trunc a ∧ trunc a < 2 ^ 63 then trunc a else -2 ^ 63
  | _ => -2 ^ 63

theorem min_fin (a b : ℚ) : Fp.min (.fin a) (.fin b) = .fin (Min.min a b) := by
  simp only [Fp.min, Fp.lt, decide_eq_true_eq]
  rcases lt_or_ge a b with h | h
  · simp [h, h.le]
  · simp [h, not_lt.mpr h]

theorem max_fin (a b : ℚ) : Fp.max (.fin a) (.fin b) = .fin (Max.max a b) := by
  simp only [Fp.max, Fp.lt, decide_eq_true_eq]
  rcases lt_or_ge b a with h | h
  · simp [h, h.le]
  · simp [h, not_lt.mpr h]

theorem toInt64_intCast {n : ℤ} (hlow : -2 ^ 63 ≤ n) (hhigh : n < 2 ^ 63) : (Fp.fin n).toInt64 = n := by
  rw [toInt64, trunc_intCast, if_pos ⟨hlow, hhigh⟩]

/-- `math.MaxFloat64`. -/
def maxFloat64 : Fp := .fin ((2 ^ 53 - 1) * 2 ^ 971)

theorem two_pow_le_maxFloat64 : (2 : ℚ) ^ 63 ≤ (2 ^ 53 - 1) * 2 ^ 971 :=
  calc (2 : ℚ) ^ 63 ≤ 2 ^ 971 := pow_le_pow_right₀ (by norm_num) (by norm_num)
    _ ≤ (2 ^ 53 - 1) * 2 ^ 971 := le_mul_of_one_le_left (by positivity) (by norm_num)

theorem toInt64_of_le {a : ℚ} (h : 2 ^ 63 ≤ a) : (Fp.fin a).toInt64 = -2 ^ 63 := by
  have hnonneg : 0 ≤ a := le_trans (by norm_num) h
  have htrunc : (2 : ℤ) ^ 63 ≤ trunc a := by
    rw [trunc, if_pos hnonneg, le_floor]
    exact_mod_cast h
  rw [toInt64, if_neg fun hrange => absurd hrange.2 (not_lt.mpr htrunc)]

/-! ### As text -/

/-- The digits of `n`, with zeros before them up to the width. -/
def padded (width n : ℕ) : List Char :=
  let digits := (toString n).toList
  List.replicate (width - digits.length) '0' ++ digits

def signed (q : ℚ) (digits : List Char) : String :=
  String.ofList (if q < 0 then '-' :: digits else digits)

/-- `%f`: six digits after the point. -/
def fixed : Fp → String
  | .nan => "NaN"
  | .inf negative => if negative then "-Inf" else "+Inf"
  | .fin q =>
    let n := (roundEven (|q| * 10 ^ 6)).toNat
    signed q ((toString (n / 10 ^ 6)).toList ++ '.' :: padded 6 (n % 10 ^ 6))

/-- A decimal with this exponent of its last digit that reads back as `q`, the closest
one first. -/
def decimal (q : ℚ) (last : ℤ) : Option ℤ :=
  let scaled := q / 10 ^ last
  [roundEven scaled, ⌊scaled⌋, ⌈scaled⌉].find? fun n => F.round (n * 10 ^ last) = q

/-- The shortest decimal that reads back as `q`: the digits, and the exponent of the
first one. Seventeen digits tell any two values of `float64` apart. -/
def shortest (q : ℚ) : List Char × ℤ :=
  let first := log 10 q
  let found := (List.range 17).findSome? fun k : ℕ => (decimal F q (first - k)).map ((·, first - (k : ℤ)))
  let (n, last) := found.getD (roundEven (q / 10 ^ (first - 16)), first - 16)
  let digits := (toString n.toNat).toList
  ((digits.reverse.dropWhile (· = '0')).reverse, last + digits.length - 1)

/-- The digits with the point in its place, or with an exponent where that is far off. -/
def placed (digits : List Char) (exp : ℤ) : List Char :=
  let point (digits : List Char) := if digits = [] then [] else '.' :: digits
  if exp < -4 ∨ 6 ≤ exp then
    digits.take 1 ++ point (digits.drop 1) ++ 'e' :: (if exp < 0 then '-' else '+') :: padded 2 exp.natAbs
  else if exp < 0 then '0' :: '.' :: List.replicate (exp.natAbs - 1) '0' ++ digits
  else
    let whole := digits.take (exp.toNat + 1)
    whole ++ List.replicate (exp.toNat + 1 - whole.length) '0' ++ point (digits.drop (exp.toNat + 1))

/-- `%v`: the shortest decimal that reads back as the value. -/
def general : Fp → String
  | .fin q =>
    if q = 0 then "0"
    else
      let (digits, exp) := shortest F |q|
      signed q (placed digits exp)
  | x => x.fixed

/-! ### Counting with floats -/

/-- A value the format can hold. -/
def IsValue (x : Fp) : Prop := ∀ q, x = .fin q → F.round q = q

theorem isValue_ofInt (n : ℤ) : IsValue F (ofInt F n) := by
  intro q hq
  cases hq
  exact F.round_round _

theorem isValue_convert (x : Fp) : IsValue F (convert F x) := by
  intro q hq
  cases x with
  | nan => cases hq
  | inf s => cases hq
  | fin a =>
    cases hq
    exact F.round_round _

theorem isValue_maxFloat64 : IsValue .float64 maxFloat64 := by
  intro q hq
  cases hq
  exact Format.nearest_of_holds (by decide) ⟨2 ^ 53 - 1, 971, by norm_num, by norm_num⟩

theorem IsValue.min {F : Format} {a b : Fp} (ha : IsValue F a) (hb : IsValue F b) :
    IsValue F (Fp.min a b) := by
  unfold Fp.min
  split_ifs
  · intro q hq
    cases hq
  · intro q hq
    cases hq
  · exact ha
  · exact hb

/-- **A whole number read back from a float is a float again.** -/
theorem IsValue.toInt64 {F : Format} {x : Fp} (hx : IsValue F x) : F.round (x.toInt64 : ℚ) = x.toInt64 := by
  have hmin : F.round ((-2 ^ 63 : ℤ) : ℚ) = ((-2 ^ 63 : ℤ) : ℚ) := by
    have := F.round_minInt64
    exact this
  cases x with
  | nan => exact hmin
  | inf s => exact hmin
  | fin a =>
    simp only [Fp.toInt64]
    split
    · have htrunc := F.round_trunc a
      rwa [hx a rfl] at htrunc
    · exact hmin

/-! ### The order of `math.Min` -/

/-- Where `math.Min` places a value: minus infinity first, then what is not a number. -/
def rank : Fp → WithBot (WithBot (WithTop ℚ))
  | .inf true => ⊥
  | .nan => WithBot.some ⊥
  | .fin q => WithBot.some (WithBot.some (WithTop.some q))
  | .inf false => WithBot.some (WithBot.some ⊤)

theorem rank_fin_le {a b : ℚ} : rank (.fin a) ≤ rank (.fin b) ↔ a ≤ b := by
  simp [rank]

theorem rank_injective : Function.Injective rank := by
  intro a b h
  cases a with
  | nan =>
    cases b with
    | nan => rfl
    | inf s => cases s <;> cases h
    | fin q => cases h
  | inf s =>
    cases b with
    | nan => cases s <;> cases h
    | inf t => cases s <;> cases t <;> first | rfl | cases h
    | fin q => cases s <;> cases h
  | fin p =>
    cases b with
    | nan => cases h
    | inf t => cases t <;> cases h
    | fin q =>
      cases h
      rfl

theorem rank_min (a b : Fp) : rank (Fp.min a b) = Min.min (rank a) (rank b) := by
  cases a with
  | nan =>
    cases b with
    | nan => simp [Fp.min]
    | inf s => cases s <;> simp [Fp.min, rank]
    | fin q => simp [Fp.min, rank]
  | inf s =>
    cases b with
    | nan => cases s <;> simp [Fp.min, rank]
    | inf t => cases s <;> cases t <;> simp [Fp.min, rank, Fp.lt]
    | fin q => cases s <;> simp [Fp.min, rank, Fp.lt]
  | fin p =>
    cases b with
    | nan => simp [Fp.min, rank]
    | inf t => cases t <;> simp [Fp.min, rank, Fp.lt]
    | fin q =>
      rw [min_fin]
      rcases le_total p q with h | h
      · rw [min_eq_left h, min_eq_left (rank_fin_le.mpr h)]
      · rw [min_eq_right h, min_eq_right (rank_fin_le.mpr h)]

/-- The smallest of several values does not depend on their order. -/
instance : RightCommutative Fp.min where
  right_comm a b c := by
    apply rank_injective
    rw [rank_min, rank_min, rank_min, rank_min, min_right_comm]

theorem rank_foldl_min_le {l : List Fp} {x y : Fp} (hy : y ∈ l) : rank (l.foldl Fp.min x) ≤ rank y := by
  have hstart : ∀ (l : List Fp) (x : Fp), rank (l.foldl Fp.min x) ≤ rank x := by
    intro l
    induction l with
    | nil => exact fun x => le_rfl
    | cons z rest ih =>
      intro x
      refine (ih (Fp.min x z)).trans ?_
      rw [rank_min]
      exact min_le_left _ _
  induction l generalizing x with
  | nil => cases hy
  | cons z rest ih =>
    cases hy with
    | head =>
      refine (hstart rest (Fp.min x y)).trans ?_
      rw [rank_min]
      exact min_le_right _ _
    | tail _ hrest => exact ih hrest

theorem min_eq_or (a b : Fp) : Fp.min a b = a ∨ Fp.min a b = b := by
  rcases min_choice (rank a) (rank b) with hmin | hmin
  · exact Or.inl (rank_injective ((rank_min a b).trans hmin))
  · exact Or.inr (rank_injective ((rank_min a b).trans hmin))

theorem foldl_min_mem (l : List Fp) (x : Fp) : l.foldl Fp.min x = x ∨ l.foldl Fp.min x ∈ l := by
  induction l generalizing x with
  | nil => exact Or.inl rfl
  | cons y rest ih =>
    rw [List.foldl_cons]
    rcases ih (Fp.min x y) with heq | hmem
    · rw [heq]
      refine (min_eq_or x y).imp_right fun hy => ?_
      rw [hy]
      exact List.mem_cons_self
    · exact Or.inr (List.mem_cons_of_mem y hmem)

theorem lt_fin_eq_false {a : ℚ} {x : Fp} : lt (.fin a) x = false ↔ rank x ≤ rank (.fin a) := by
  cases x with
  | nan => simp [lt, rank]
  | inf s => cases s <;> simp [lt, rank]
  | fin b => simp [lt, rank_fin_le]

theorem minInt64_le_toInt64 (x : Fp) : -2 ^ 63 ≤ x.toInt64 := by
  cases x with
  | nan | inf s => exact le_rfl
  | fin a =>
    simp only [toInt64]
    split
    case isTrue hrange => exact hrange.1
    case isFalse => exact le_rfl

/-- Reading back keeps the order below the range's end. -/
theorem toInt64_mono {x y : Fp} {b : ℚ} (hxy : rank x ≤ rank y) (hy : rank y ≤ rank (.fin b)) (hb : b < 2 ^ 63) :
    x.toInt64 ≤ y.toInt64 := by
  cases x with
  | nan | inf s => exact minInt64_le_toInt64 y
  | fin a =>
    cases y with
    | nan => simp [rank] at hxy
    | inf s => cases s <;> simp [rank] at hxy hy
    | fin c =>
      have hac := trunc_mono (rank_fin_le.mp hxy)
      have hcb : trunc c < 2 ^ 63 := by
        have hc := (rank_fin_le.mp hy).trans_lt hb
        unfold trunc
        split
        case isTrue => exact floor_lt.mpr (by exact_mod_cast hc)
        case isFalse hneg =>
          exact (ceil_le.mpr (by exact_mod_cast (not_le.mp hneg).le)).trans_lt (by norm_num : (0 : ℤ) < 2 ^ 63)
      simp only [toInt64]
      split_ifs <;> omega

/-- What is read back from a value that does not pass a number does not pass it, or is negative. -/
theorem toInt64_le_of_rank {x : Fp} {q : ℚ} (hx : rank x ≤ rank (.fin q)) : (x.toInt64 : ℚ) ≤ Max.max 0 q := by
  have hlow : ((-2 ^ 63 : ℤ) : ℚ) ≤ Max.max 0 q := le_max_of_le_left (by norm_num)
  cases x with
  | nan => exact hlow
  | inf s => exact hlow
  | fin a =>
    have ha := rank_fin_le.mp hx
    simp only [toInt64]
    split
    · unfold trunc
      split
      · exact le_max_of_le_right ((floor_le a).trans ha)
      · next hneg =>
        have hceil : ⌈a⌉ ≤ 0 := ceil_le.mpr (by exact_mod_cast (not_le.mp hneg).le)
        exact le_max_of_le_left (by exact_mod_cast hceil)
    · exact hlow

theorem toInt64_le_max {x : Fp} {m : ℤ} (hx : rank x ≤ rank (.fin m)) : x.toInt64 ≤ Max.max 0 m := by
  exact_mod_cast toInt64_le_of_rank hx

end Fp

end Go
