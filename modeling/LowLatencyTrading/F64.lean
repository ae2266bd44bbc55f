import LowLatencyTrading.Basic

/-!
# `f64`: IEEE 754 binary64, rounding to nearest, ties to even

The strategies compute with `f64`. A finite `f64` is kept as a sign and a magnitude counted in
units of the smallest subnormal, `2^-1074`: every finite binary64 value is such a multiple, so
the exact result of `*`, `/`, `+` and `-` on two of them is a fraction with a known denominator,
and rounding happens in one function.

* `F64` — `fin neg units`, `inf neg` and `nan`;
* `roundUnits` — the binary64 magnitude nearest to `num / den` units, ties to even, or `none`
  past the largest finite one (the result is then infinite);
* the operations the strategies and the feature engine use: `ofNat`, `ofInt`, decimal
  literals, `*`, `/`, `+`, `-`, `abs`, `<`, `<=`, `==`, `f64::max`, `f64::min`, `f64::clamp`,
  `f64::round`, and the saturating casts `as u64`, `as i64` and `as u32`.

Powers of two are written as shifts so that `decide` evaluates them. The fact the rate limiter
of `LiquidityTaker` needs is `le_toU64_mul_ofNat`: for `n ≤ 2^53` and a factor of at least
`1.0`, `(n as f64 * factor) as u64 ≥ n`. The feature engine needs integers below `2^53` to
convert exactly (`ofNat_of_lt`), a quotient of magnitude at most one to round into
`[-1.0, 1.0]` (`div_inUnitRange`, from `roundUnits_le`: rounding never passes a grid point above
the exact value), and `clamp` to land in its bounds unless its argument is NaN (`clamp_mem`).
-/

namespace LowLatencyTrading

/-- An `f64`: a finite value `(-1)^neg · units · 2^-1074`, an infinity, or NaN. -/
inductive F64 where
  | fin (neg : Bool) (units : Nat)
  | inf (neg : Bool)
  | nan
  deriving DecidableEq, Repr

namespace F64

/-! ## Rounding -/

/-- `2^1074`, the units in `1.0`. -/
def unit : Nat := 1 <<< 1074

/-- The largest finite magnitude, `(2^53 - 1) · 2^971`, in units. -/
def maxUnits : Nat := ((1 <<< 53) - 1) <<< 2045

theorem unit_eq : unit = 2 ^ 1074 := Nat.one_shiftLeft _

/-- `⌊log₂ x⌋` for `2^lo ≤ x < 2^hi`, by bisecting the exponent `fuel` times. -/
def log2Search (x : Nat) : Nat → Nat → Nat → Nat
  | 0, lo, _ => lo
  | fuel + 1, lo, hi =>
    let mid := (lo + hi) / 2
    if x >>> mid = 0 then log2Search x fuel lo mid else log2Search x fuel mid hi

/-- `⌊log₂ x⌋`, by bisection below `2^4096`, which covers every magnitude rounded here. -/
def ilog2 (x : Nat) : Nat := if x >>> 4096 = 0 then log2Search x 12 0 4096 else x.log2

theorem log2Search_eq {x : Nat} (hx : x ≠ 0) :
    ∀ fuel lo hi, 2 ^ lo ≤ x → x < 2 ^ hi → hi ≤ lo + 2 ^ fuel →
      log2Search x fuel lo hi = x.log2 := by
  intro fuel
  induction fuel with
  | zero =>
    intro lo hi hlo hhi hw
    have h1 := (Nat.le_log2 hx).mpr hlo
    have h2 := (Nat.log2_lt hx).mpr hhi
    simp only [log2Search]
    omega
  | succ fuel ih =>
    intro lo hi hlo hhi hw
    simp only [log2Search, Nat.shiftRight_eq_div_pow, Nat.div_eq_zero_iff (Nat.two_pow_pos _)]
    split_ifs with h
    · exact ih lo _ hlo h (by rw [pow_succ] at hw; omega)
    · exact ih _ hi (not_lt.mp h) hhi (by rw [pow_succ] at hw; omega)

theorem ilog2_eq {x : Nat} (hx : x ≠ 0) : ilog2 x = x.log2 := by
  unfold ilog2
  split_ifs with h
  · have h' : x < 2 ^ 4096 := by
      rwa [Nat.shiftRight_eq_div_pow, Nat.div_eq_zero_iff (Nat.two_pow_pos _)] at h
    exact log2Search_eq hx 12 0 4096 (Nat.one_le_iff_ne_zero.mpr hx) h' (by norm_num)
  · rfl

/-- The spacing exponent of binary64 values near `x` units: one unit below `2^53` units, and
`2^q` for values with `⌊log₂⌋ = 52 + q`. -/
def spacing (x : Nat) : Nat := if x < 1 <<< 53 then 0 else ilog2 x - 52

/-- The binary64 magnitude nearest to `num / den` units, ties to even; `none` when it passes
the largest finite magnitude. -/
def roundUnits (num den : Nat) : Option Nat :=
  let q := spacing (num / den)
  let d := den <<< q
  let r := num % d
  let m := if d < 2 * r ∨ (2 * r = d ∧ num / d % 2 = 1) then num / d + 1 else num / d
  if m <<< q ≤ maxUnits then some (m <<< q) else none

/-- A finite result of magnitude `r`, or the infinity of its sign. -/
def ofUnits (neg : Bool) : Option Nat → F64
  | some n => fin neg n
  | none => inf neg

/-! ## Conversions and literals -/

/-- `n as f64` for an unsigned `n`. -/
def ofNat (n : Nat) : F64 := ofUnits false (roundUnits (n * unit) 1)

/-- `z as f64` for a signed `z`. -/
def ofInt (z : Int) : F64 := ofUnits (z < 0) (roundUnits (z.natAbs * unit) 1)

/-- The decimal literal `num / den`, rounded as the compiler rounds it. -/
def lit (num den : Nat) : F64 := ofUnits false (roundUnits (num * unit) den)

/-- `1.0`. -/
def one : F64 := fin false unit

/-- `0.0`. -/
def zero : F64 := fin false 0

/-- A finite value's magnitude with its sign. -/
def signed (neg : Bool) (n : Nat) : Int := if neg then -(n : Int) else n

/-- Truncation toward zero, saturated to `[lo, hi]`, NaN to 0: the `as` cast to an integer
type with that range. -/
def truncSat (lo hi : Int) : F64 → Int
  | fin neg n => max lo (min hi (signed neg (n / unit)))
  | inf neg => if neg then lo else hi
  | nan => 0

/-- `x as u64`. -/
def toU64 (x : F64) : Nat := (truncSat 0 (2 ^ 64 - 1) x).toNat

/-- `x as u32`. -/
def toU32 (x : F64) : Nat := (truncSat 0 (2 ^ 32 - 1) x).toNat

/-- `x as i64`. -/
def toI64 (x : F64) : Int := truncSat (-2 ^ 63) (2 ^ 63 - 1) x

/-! ## Arithmetic -/

/-- `-x`. -/
def neg : F64 → F64
  | fin s n => fin (!s) n
  | inf s => inf (!s)
  | nan => nan

/-- `x.abs()`. -/
def abs : F64 → F64
  | fin _ n => fin false n
  | inf _ => inf false
  | nan => nan

/-- `x * y`. -/
def mul : F64 → F64 → F64
  | nan, _ | _, nan => nan
  | inf a, inf b => inf (a ^^ b)
  | inf a, fin b n | fin b n, inf a => if n = 0 then nan else inf (a ^^ b)
  | fin a m, fin b n => ofUnits (a ^^ b) (roundUnits (m * n) unit)

/-- `x / y`. -/
def div : F64 → F64 → F64
  | nan, _ | _, nan => nan
  | inf _, inf _ => nan
  | inf a, fin b _ => inf (a ^^ b)
  | fin a _, inf b => fin (a ^^ b) 0
  | fin a m, fin b n =>
    if n = 0 then (if m = 0 then nan else inf (a ^^ b))
    else ofUnits (a ^^ b) (roundUnits (m * unit) n)

/-- `x + y`. An exact zero sum is `+0.0` unless both terms are `-0.0`. -/
def add : F64 → F64 → F64
  | nan, _ | _, nan => nan
  | inf a, inf b => if a = b then inf a else nan
  | inf a, fin _ _ => inf a
  | fin _ _, inf b => inf b
  | fin a m, fin b n =>
    let s := signed a m + signed b n
    if s = 0 then fin (a && b) 0 else ofUnits (s < 0) (roundUnits s.natAbs 1)

/-- `x - y`. -/
def sub (x y : F64) : F64 := add x (neg y)

/-! ## Comparisons -/

/-- `x < y`; false when either is NaN. -/
def lt : F64 → F64 → Bool
  | nan, _ | _, nan => false
  | fin a m, fin b n => signed a m < signed b n
  | inf a, inf b => a && !b
  | inf a, fin _ _ => a
  | fin _ _, inf b => !b

/-- `x <= y`; false when either is NaN. -/
def le : F64 → F64 → Bool
  | nan, _ | _, nan => false
  | fin a m, fin b n => signed a m ≤ signed b n
  | inf a, inf b => a || !b
  | inf a, fin _ _ => a
  | fin _ _, inf b => !b

/-- `f64::max`: the other operand when one is NaN. -/
def max : F64 → F64 → F64
  | nan, y => y
  | x, nan => x
  | x, y => if lt x y then y else x

/-- `f64::min`: the other operand when one is NaN. -/
def min : F64 → F64 → F64
  | nan, y => y
  | x, nan => x
  | x, y => if lt y x then y else x

/-- `f64::clamp(x, lo, hi)`. Its `assert!(lo <= hi)` holds at every call site, whose bounds
are the constants `0.0 ≤ 1.0`, `-1.0 ≤ 0.0` and `-1.0 ≤ 1.0`; a NaN `x` stays NaN. -/
def clamp (x lo hi : F64) : F64 :=
  let x := if lt x lo then lo else x
  if lt hi x then hi else x

/-- `x == y`: false when either is NaN, true on `0.0 == -0.0`. -/
def eq (x y : F64) : Bool := le x y && le y x

/-- `x.round()`: the nearest integer, halfway cases away from zero. -/
def round : F64 → F64
  | fin neg n => fin neg ((n / unit + if unit ≤ 2 * (n % unit) then 1 else 0) * unit)
  | x => x

/-! ## The product never rounds below an integer it bounds -/

@[simp] theorem signed_false (n : Nat) : signed false n = n := rfl

@[simp] theorem signed_true (n : Nat) : signed true n = -(n : Int) := rfl

section
variable {num den t n x : Nat}

/-- Rounding keeps at least the exact value rounded down to a multiple of the spacing. -/
theorem roundUnits_floor (hr : roundUnits num den = some t) :
    num / den / 2 ^ spacing (num / den) * 2 ^ spacing (num / den) ≤ t := by
  simp only [roundUnits, Nat.shiftLeft_eq] at hr
  split_ifs at hr <;> simp only [Option.some.injEq] at hr <;> subst hr <;>
    rw [Nat.div_div_eq_div_mul]
  exact Nat.mul_le_mul_right _ (Nat.le_succ _)

/-- Rounding an `x ≥ n · 2^1074` down to its spacing keeps it at least `n · 2^1074`, for
`n ≤ 2^53`: a spacing of at most `2^1074` divides `n · 2^1074`, and a larger one leaves at
least `2^52` spacings, `2^53 · 2^1074` units. -/
theorem le_floor_spacing (hn : n ≤ 2 ^ 53) (hx : n * 2 ^ 1074 ≤ x) :
    n * 2 ^ 1074 ≤ x / 2 ^ spacing x * 2 ^ spacing x := by
  unfold spacing
  split_ifs with hs
  · simpa only [pow_zero, Nat.div_one, Nat.mul_one] using hx
  have hx0 : x ≠ 0 := by rintro rfl; simp [Nat.shiftLeft_eq] at hs
  rw [ilog2_eq hx0]
  set q := x.log2 - 52
  by_cases hq : q ≤ 1074
  · have hd : 2 ^ q ∣ n * 2 ^ 1074 := Dvd.dvd.mul_left (pow_dvd_pow 2 hq) n
    calc n * 2 ^ 1074 = n * 2 ^ 1074 / 2 ^ q * 2 ^ q := (Nat.div_mul_cancel hd).symm
      _ ≤ x / 2 ^ q * 2 ^ q := Nat.mul_le_mul_right _ (Nat.div_le_div_right hx)
  · have hlog : 53 ≤ x.log2 :=
      (Nat.le_log2 hx0).mpr (by simpa [Nat.shiftLeft_eq] using hs)
    have h52 : 2 ^ 52 ≤ x / 2 ^ q := by
      rw [Nat.le_div_iff_mul_le (Nat.two_pow_pos _), ← pow_add, show 52 + q = x.log2 by omega]
      exact Nat.log2_self_le hx0
    calc n * 2 ^ 1074 ≤ 2 ^ 53 * 2 ^ 1074 := Nat.mul_le_mul_right _ hn
      _ = 2 ^ 52 * 2 ^ 1075 := by rw [← pow_add, ← pow_add]
      _ ≤ 2 ^ 52 * 2 ^ q := Nat.mul_le_mul_left _ (Nat.pow_le_pow_right (by norm_num) (by omega))
      _ ≤ x / 2 ^ q * 2 ^ q := Nat.mul_le_mul_right _ h52

/-- Rounding never lands below `n · 2^1074` units, for `n ≤ 2^53`, when the exact value does
not. -/
theorem le_roundUnits (hden : 0 < den) (hn : n ≤ 2 ^ 53) (h : n * 2 ^ 1074 * den ≤ num)
    (hr : roundUnits num den = some t) : n * 2 ^ 1074 ≤ t :=
  (le_floor_spacing hn ((Nat.le_div_iff_mul_le hden).mpr h)).trans (roundUnits_floor hr)

/-- A positive finite value casts to `u64` as its whole part, saturated. -/
theorem toU64_fin_false (n : Nat) : toU64 (fin false n) = Min.min (2 ^ 64 - 1) (n / unit) := by
  simp only [toU64, truncSat, signed_false]
  generalize n / unit = k
  omega

theorem toU64_inf_false : toU64 (inf false) = 2 ^ 64 - 1 := rfl

/-- A factor of at least `1.0` is a finite value of at least `2^1074` units, or `+∞`. -/
theorem one_le_cases {f : F64} (hf : le one f = true) :
    (∃ m, f = fin false m ∧ 2 ^ 1074 ≤ m) ∨ f = inf false := by
  have hu : 0 < unit := by rw [unit_eq]; positivity
  rw [← unit_eq]
  cases f with
  | fin b m => cases b <;> simp [le, one] at hf ⊢ <;> omega
  | inf b => cases b <;> simp [le, one] at hf ⊢
  | nan => simp [le, one] at hf

/-- **`(n as f64 * factor) as u64 ≥ n`** for `n ≤ 2^53` and `factor >= 1.0`: the cast of `n`
and the product each round to no less than `n`, or overflow to `+∞`, which saturates. -/
theorem le_toU64_mul_ofNat (hn : n ≤ 2 ^ 53) {f : F64} (hf : le one f = true) :
    n ≤ toU64 (mul (ofNat n) f) := by
  have hmax : n ≤ 2 ^ 64 - 1 := hn.trans (by norm_num)
  have hunit : 0 < unit := by rw [unit_eq]; positivity
  rcases one_le_cases hf with ⟨m, rfl, hm⟩ | rfl
  · cases h₀ : roundUnits (n * unit) 1 with
    | none =>
      simp only [ofNat, h₀, ofUnits, mul, if_neg (show m ≠ 0 by omega)]
      rw [Bool.false_xor, toU64_inf_false]
      exact hmax
    | some k =>
      have hk : n * 2 ^ 1074 ≤ k := le_roundUnits one_pos hn (by rw [unit_eq, mul_one]) h₀
      cases h₁ : roundUnits (k * m) unit with
      | none =>
        simp only [ofNat, h₀, ofUnits, mul, h₁, Bool.false_xor, toU64_inf_false]
        exact hmax
      | some t =>
        have ht : n * 2 ^ 1074 ≤ t := le_roundUnits hunit hn
          (by rw [unit_eq]; exact Nat.mul_le_mul hk hm) h₁
        simp only [ofNat, h₀, ofUnits, mul, h₁, Bool.false_xor, toU64_fin_false]
        have : n ≤ t / unit := (Nat.le_div_iff_mul_le hunit).mpr (by rwa [unit_eq])
        omega
  · cases h₀ : roundUnits (n * unit) 1 with
    | none =>
      simp only [ofNat, h₀, ofUnits, mul, Bool.false_xor, toU64_inf_false]
      exact hmax
    | some k =>
      have hk : n * 2 ^ 1074 ≤ k := le_roundUnits one_pos hn (by rw [unit_eq, mul_one]) h₀
      simp only [ofNat, h₀, ofUnits, mul, Bool.false_xor]
      split_ifs with hk0
      · subst hk0
        have : n = 0 := (Nat.mul_eq_zero.mp (Nat.le_zero.mp hk)).resolve_right (by positivity)
        omega
      · exact hmax.trans_eq toU64_inf_false.symm

end

/-! ## Small integers are exact, and rounding stays below a grid point -/

section
variable {num den t v x : Nat}

/-- Below `2^(53 + k)` units the spacing is at most `2^k` units. -/
theorem spacing_le {k : Nat} (h : x < 2 ^ (53 + k)) : spacing x ≤ k := by
  unfold spacing
  split_ifs with hs
  · exact Nat.zero_le _
  · have hx0 : x ≠ 0 := by rintro rfl; simp [Nat.shiftLeft_eq] at hs
    have := (Nat.log2_lt hx0).mpr h
    rw [ilog2_eq hx0]
    omega

/-- The spacing near `x` is at most `x + 1`. -/
theorem two_pow_spacing_le (x : Nat) : 2 ^ spacing x ≤ x + 1 := by
  unfold spacing
  split_ifs with hs
  · simp
  · have hx0 : x ≠ 0 := by rintro rfl; simp [Nat.shiftLeft_eq] at hs
    rw [ilog2_eq hx0]
    exact (Nat.pow_le_pow_right (by norm_num) (Nat.sub_le _ _)).trans
      ((Nat.log2_self_le hx0).trans (Nat.le_succ x))

/-- Rounding is finite while twice the exact value, plus one, is within range. -/
theorem roundUnits_isSome (h : 2 * (num / den) + 1 ≤ maxUnits) : (roundUnits num den).isSome := by
  have hs := two_pow_spacing_le (num / den)
  have hq : num / (den * 2 ^ spacing (num / den)) * 2 ^ spacing (num / den) ≤ num / den := by
    rw [← Nat.div_div_eq_div_mul]; exact Nat.div_mul_le_self _ _
  simp only [roundUnits, Nat.shiftLeft_eq]
  rw [if_pos]
  · rfl
  · generalize num / (den * 2 ^ spacing (num / den)) = m at hq
    split_ifs <;> rw [Nat.succ_mul] at * <;> omega

/-- A value on its own grid, within range, rounds to itself. -/
theorem roundUnits_self (hd : 2 ^ spacing x ∣ x) (hx : x ≤ maxUnits) : roundUnits x 1 = some x := by
  have hm : x % 2 ^ spacing x = 0 := Nat.mod_eq_zero_of_dvd hd
  simp only [roundUnits, Nat.shiftLeft_eq, Nat.div_one, Nat.one_mul, hm, Nat.mul_zero,
    Nat.not_lt_zero, (Nat.two_pow_pos (spacing x)).ne, false_and, or_self, if_false,
    Nat.div_mul_cancel hd, hx, if_true]

/-- Rounding never passes a value `v` on the grid it rounds to that bounds the exact value from
above. -/
theorem roundUnits_le (hr : roundUnits num den = some t) (hv : num ≤ v * den)
    (hd : 2 ^ spacing (num / den) ∣ v) (hden : 0 < den) : t ≤ v := by
  simp only [roundUnits, Nat.shiftLeft_eq] at hr
  generalize spacing (num / den) = q at hr hd
  obtain ⟨w, rfl⟩ := hd
  have hD : 0 < den * 2 ^ q := Nat.mul_pos hden (Nat.two_pow_pos q)
  have hnum : num ≤ den * 2 ^ q * w := by rw [Nat.mul_assoc, Nat.mul_comm]; exact hv
  have hle : num / (den * 2 ^ q) ≤ w := Nat.div_le_of_le_mul hnum
  have hdm := Nat.div_add_mod num (den * 2 ^ q)
  split_ifs at hr with hup <;> simp only [Option.some.injEq] at hr <;> subst hr <;>
    rw [Nat.mul_comm (2 ^ q)]
  · apply Nat.mul_le_mul_right
    by_contra hlt
    have heq : num / (den * 2 ^ q) = w := by omega
    have : den * 2 ^ q * w ≤ den * 2 ^ q * (num / (den * 2 ^ q)) := by rw [heq]
    omega
  · exact Nat.mul_le_mul_right _ hle

end

theorem unit_pos : 0 < unit := by rw [unit_eq]; positivity

/-- A value twice `2^64` units, plus one, is within range. -/
theorem small_le_maxUnits {n : Nat} (h : n < 2 ^ 64) : 2 * (n * unit) + 1 ≤ maxUnits := by
  simp only [unit, maxUnits, Nat.shiftLeft_eq, Nat.one_mul]
  omega

/-- An integer below `2^53`, in units, rounds to itself. -/
theorem roundUnits_mul_unit {n : Nat} (h : n < 2 ^ 53) : roundUnits (n * unit) 1 = some (n * unit) := by
  have hs : spacing (n * unit) ≤ 1074 := spacing_le (by
    rw [pow_add, ← unit_eq]
    exact Nat.mul_lt_mul_of_pos_right h unit_pos)
  have hmax := small_le_maxUnits (h.trans (by norm_num))
  refine roundUnits_self ?_ (by omega)
  have hd := (pow_dvd_pow 2 hs).mul_left n
  rwa [← unit_eq] at hd

/-- `n as f64` is exact below `2^53`. -/
theorem ofNat_of_lt {n : Nat} (h : n < 2 ^ 53) : ofNat n = fin false (n * unit) := by
  simp only [ofNat, roundUnits_mul_unit h, ofUnits]

/-- A positive `i64` converts to a positive finite value. -/
theorem ofInt_pos {z : Int} (h₀ : 0 < z) (h : z < 2 ^ 63) : ∃ s, ofInt z = fin false s ∧ 0 < s := by
  have hu : 0 < unit := by rw [unit_eq]; positivity
  have hn : z.natAbs < 2 ^ 64 := by omega
  obtain ⟨s, hs⟩ := Option.isSome_iff_exists.mp
    (@roundUnits_isSome (z.natAbs * unit) 1 (by rw [Nat.div_one]; exact small_le_maxUnits hn))
  have h₁ : 1 * 2 ^ 1074 ≤ s := le_roundUnits one_pos (by norm_num)
    (by rw [← unit_eq, Nat.mul_one, Nat.one_mul]; exact Nat.le_mul_of_pos_left _ (by omega)) hs
  refine ⟨s, ?_, by omega⟩
  simp only [ofInt, hs, ofUnits, show ¬ z < 0 by omega, decide_False]

/-! ## NaN and the bounds `[-1.0, 1.0]` -/

@[simp] theorem ofUnits_ne_nan (s : Bool) (r : Option Nat) : ofUnits s r ≠ nan := by
  cases r <;> nofun

theorem le_refl {x : F64} (hx : x ≠ nan) : le x x = true := by
  cases x <;> simp_all [le]

/-- `<` and `<=` are total away from NaN: `!(x < y)` is `y <= x`. -/
theorem le_of_lt_eq_false {x y : F64} (hx : x ≠ nan) (hy : y ≠ nan) (h : lt x y = false) :
    le y x = true := by
  cases x <;> cases y <;> simp_all [lt, le]
  case inf.inf a b => cases a <;> simp_all

/-- `clamp(x, lo, hi)` lands in `[lo, hi]` unless `x` is NaN. -/
theorem clamp_mem {x lo hi : F64} (hx : x ≠ nan) (hlo : lo ≠ nan) (hhi : hi ≠ nan)
    (h : le lo hi = true) : le lo (clamp x lo hi) = true ∧ le (clamp x lo hi) hi = true := by
  unfold clamp
  cases h₁ : lt x lo <;> simp only [Bool.false_eq_true, if_false, if_true]
  · have hl := le_of_lt_eq_false hx hlo h₁
    cases h₂ : lt hi x <;> simp only [Bool.false_eq_true, if_false, if_true]
    · exact ⟨hl, le_of_lt_eq_false hhi hx h₂⟩
    · exact ⟨h, le_refl hhi⟩
  · cases h₂ : lt hi lo <;> simp only [Bool.false_eq_true, if_false, if_true]
    · exact ⟨le_refl hlo, h⟩
    · exact ⟨h, le_refl hhi⟩

/-- `-1.0 <= x && x <= 1.0`. -/
def InUnitRange (x : F64) : Prop := le one.neg x = true ∧ le x one = true

instance : DecidablePred InUnitRange := fun _ => inferInstanceAs (Decidable (_ ∧ _))

theorem zero_inUnitRange : zero.InUnitRange := by decide

/-- The values in `[-1.0, 1.0]` are the finite ones of magnitude at most `2^1074` units. -/
theorem inUnitRange_iff {x : F64} : InUnitRange x ↔ ∃ s m, x = fin s m ∧ m ≤ unit := by
  cases x with
  | fin s m => cases s <;> simp [InUnitRange, le, one, neg] <;> omega
  | inf b => cases b <;> simp [InUnitRange, le, one, neg]
  | nan => simp [InUnitRange, le]

theorem InUnitRange.ne_nan {x : F64} (h : InUnitRange x) : x ≠ nan := by
  obtain ⟨s, m, rfl, -⟩ := inUnitRange_iff.mp h
  nofun

theorem clamp_inUnitRange {x : F64} (hx : x ≠ nan) : InUnitRange (clamp x one.neg one) :=
  clamp_mem hx nofun nofun (by decide)

theorem mul_ne_nan {a : Bool} {m : Nat} {x : F64} (hm : m ≠ 0) (hx : x ≠ nan) :
    mul (fin a m) x ≠ nan := by
  cases x with
  | fin b n => exact ofUnits_ne_nan _ _
  | inf b => simp [mul, hm]
  | nan => exact absurd rfl hx

theorem add_ne_nan {a : Bool} {m : Nat} {y : F64} (hy : y ≠ nan) : add (fin a m) y ≠ nan := by
  cases y with
  | fin b n => simp only [add]; split_ifs <;> simp
  | inf b => nofun
  | nan => exact absurd rfl hy

theorem div_ne_nan {x : F64} {b : Bool} {n : Nat} (hx : x ≠ nan) (hn : n ≠ 0) :
    div x (fin b n) ≠ nan := by
  cases x with
  | fin a m => simp [div, hn]
  | inf a => nofun
  | nan => exact absurd rfl hx

theorem two_unit_le_maxUnits : 2 * unit + 1 ≤ maxUnits := by
  simpa using @small_le_maxUnits 1 (by norm_num)

/-- The product of two values in `[-1.0, 1.0]` is finite. -/
theorem mul_fin_of_le {a b : Bool} {k m : Nat} (hk : k ≤ unit) (hm : m ≤ unit) :
    ∃ v, mul (fin a k) (fin b m) = fin (a ^^ b) v := by
  have hu : 0 < unit := by rw [unit_eq]; positivity
  have hq : k * m / unit ≤ unit := Nat.div_le_of_le_mul (Nat.mul_le_mul hk hm)
  obtain ⟨v, hv⟩ := Option.isSome_iff_exists.mp
    (@roundUnits_isSome (k * m) unit (by have := two_unit_le_maxUnits; omega))
  exact ⟨v, by simp only [mul, hv, ofUnits]⟩

/-- A quotient of magnitude at most one rounds into `[-1.0, 1.0]`. -/
theorem div_inUnitRange {a b : Bool} {m n : Nat} (hmn : m ≤ n) (hn : n ≠ 0) :
    InUnitRange (div (fin a m) (fin b n)) := by
  have hmn'' : m * unit ≤ n * unit := Nat.mul_le_mul_right unit hmn
  have hmn' : m * unit ≤ unit * n := by rw [Nat.mul_comm unit n]; exact hmn''
  have hq : m * unit / n ≤ unit := Nat.div_le_of_le_mul hmn''
  obtain ⟨t, ht⟩ := Option.isSome_iff_exists.mp
    (@roundUnits_isSome (m * unit) n (by have := two_unit_le_maxUnits; omega))
  have hlt : unit < 2 ^ (53 + 1022) :=
    unit_eq.trans_lt (@Nat.pow_lt_pow_right 2 1074 (53 + 1022) (by norm_num) (by norm_num))
  have hs : spacing (m * unit / n) ≤ 1074 :=
    (@spacing_le (m * unit / n) 1022 (by omega)).trans (by norm_num)
  have hdvd : 2 ^ spacing (m * unit / n) ∣ unit := by
    have hd := pow_dvd_pow 2 hs
    rwa [← unit_eq] at hd
  have hle := roundUnits_le ht hmn' hdvd (Nat.pos_of_ne_zero hn)
  simp only [div, hn, if_false, ht, ofUnits]
  exact inUnitRange_iff.mpr ⟨_, t, rfl, hle⟩

end F64

end LowLatencyTrading
