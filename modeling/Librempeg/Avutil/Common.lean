import Mathlib

/-!
Contract: the C integer semantics the decoder is written against, and the
libavutil arithmetic macros it uses (`RSHIFT`, `ROUNDED_DIV`, the `AVERROR`
codes).

A signed `int` operation whose mathematical result leaves `[INT_MIN, INT_MAX]`
is undefined behaviour; `intOp` returns `none` there, so a model written with
`intOp` at every signed operation returns `some` exactly when the C code runs
without signed overflow. Conversions to `int` (from `unsigned` or `int64_t`)
are implementation-defined and wrap on every supported compiler: `toInt`, and
`toInt16` for a store into an `int16_t`.
`int64_t` arithmetic of the modelled functions stays far below `2^63` and is
written as exact `Int` arithmetic.

Owns: the range predicate, the checked and wrapping operations with their
rewriting lemmas, `rshift` and its exact quotient forms, `roundedDiv`, `avClip`, and the
low bit of `^`, `&` and `|` on `int` (`Int.xor`, `Int.land`, `Int.lor`, two's complement as
in C), and the inversion of a mapped fallible result and of a failed check.

Does not own: any decoder state.
-/

namespace Librempeg.Avutil

/-- `INT_MAX`. -/
def intMax : Int := 2 ^ 31 - 1

/-- `INT_MIN`. -/
def intMin : Int := -2 ^ 31

/-- The values of a C `int`. -/
def InIntRange (value : Int) : Prop := intMin ≤ value ∧ value ≤ intMax

instance (value : Int) : Decidable (InIntRange value) :=
  inferInstanceAs (Decidable (_ ∧ _))

/-- Result of a signed `int` operation: `none` is signed overflow. -/
def intOp (value : Int) : Option Int :=
  if InIntRange value then some value else none

/-- The values of a C `int64_t`. -/
def InInt64Range (value : Int) : Prop := -2 ^ 63 ≤ value ∧ value < 2 ^ 63

instance (value : Int) : Decidable (InInt64Range value) :=
  inferInstanceAs (Decidable (_ ∧ _))

/-- Result of a signed `int64_t` operation: `none` is signed overflow. -/
def int64Op (value : Int) : Option Int :=
  if InInt64Range value then some value else none

/-- `value`, produced by a statement whose signed `int` operations have the results
`ops`: `none` (undefined behaviour) as soon as one of them leaves the `int` range.
Each result is the exact value of its expression, the earlier ones having fit. -/
def afterIntOps {α : Type} (ops : List Int) (value : α) : Option α :=
  if ∀ op ∈ ops, InIntRange op then some value else none

/-- Conversion of an integer to `int`, wrapping modulo `2^32`. -/
def toInt (value : Int) : Int := (value + 2 ^ 31) % 2 ^ 32 - 2 ^ 31

/-- Result of an `unsigned` operation: reduction modulo `2^32`. -/
def toUnsigned (value : Int) : Int := value % 2 ^ 32

/-- Conversion of an `int` to `int16_t` on a store, wrapping modulo `2^16`. -/
def toInt16 (value : Int) : Int := (value + 2 ^ 15) % 2 ^ 16 - 2 ^ 15

/-- `AVERROR_INVALIDDATA`, `FFERRTAG('I','N','D','A')`. -/
def averrorInvalidData : Int := -0x41444E49

/-- `AVERROR_PATCHWELCOME`, `FFERRTAG('P','A','W','E')`. -/
def averrorPatchWelcome : Int := -0x45574150

/-- libavutil's rounded shift `RSHIFT(a,b)`:
`((a) > 0 ? ((a) + ((1<<(b))>>1))>>(b) : ((a) + ((1<<(b))>>1)-1)>>(b))`. -/
def rshift (a : Int) (b : Nat) : Int :=
  if a > 0 then (a + ((1 <<< b >>> 1 : Nat) : Int)) >>> b
  else (a + ((1 <<< b >>> 1 : Nat) : Int) - 1) >>> b

/-- `RSHIFT(a,b)` with its two signed additions checked. -/
def rshiftOp (a : Int) (b : Nat) : Option Int :=
  if a > 0 then (fun sum : Int => sum >>> b) <$> intOp (a + ((1 <<< b >>> 1 : Nat) : Int))
  else (fun sum : Int => sum >>> b) <$> intOp (a + ((1 <<< b >>> 1 : Nat) : Int) - 1)

/-- libavutil's `ROUNDED_DIV(a,b)`:
`(((a)>=0 ? (a) + ((b)>>1) : (a) - ((b)>>1))/(b))`, C division truncating. -/
def roundedDiv (a b : Int) : Int :=
  if a ≥ 0 then (a + (b >>> (1 : Nat))).tdiv b else (a - (b >>> (1 : Nat))).tdiv b

/-- `av_clip(a, amin, amax)`. -/
def avClip (a amin amax : Int) : Int := if a < amin then amin else if amax < a then amax else a

/-! ## Checked and wrapping operations -/

@[simp] theorem intOp_of_inRange {value : Int} (inRange : InIntRange value) :
    intOp value = some value := if_pos inRange

@[simp] theorem int64Op_of_inRange {value : Int} (inRange : InInt64Range value) :
    int64Op value = some value := if_pos inRange

theorem afterIntOps_of_forall {α : Type} {ops : List Int} (value : α)
    (inRange : ∀ op ∈ ops, InIntRange op) : afterIntOps ops value = some value := if_pos inRange

theorem avClip_mem (a : Int) {amin amax : Int} (ordered : amin ≤ amax) :
    amin ≤ avClip a amin amax ∧ avClip a amin amax ≤ amax := by
  unfold avClip
  split_ifs <;> omega

theorem intOp_eq_some {value result : Int} :
    intOp value = some result ↔ InIntRange value ∧ value = result := by
  unfold intOp
  split <;> simp_all

theorem intOp_eq_none {value : Int} (over : intMax < value) : intOp value = none :=
  if_neg fun inRange => absurd inRange.2 (not_le.mpr over)

theorem inRange_of_bounds {value : Int} (low : -2 ^ 31 ≤ value) (high : value < 2 ^ 31) :
    InIntRange value := by
  constructor <;> simp only [intMin, intMax] <;> omega

theorem inRange_of_abs_lt {value : Int} (small : |value| < 2 ^ 31) : InIntRange value := by
  rw [abs_lt] at small
  exact inRange_of_bounds (by omega) (by omega)

theorem pow_inRange {exponent : Nat} (small : exponent ≤ 30) : InIntRange (2 ^ exponent) := by
  have : (2 : Int) ^ exponent ≤ 2 ^ 30 := pow_le_pow_right₀ (by norm_num) small
  have : (0 : Int) < 2 ^ exponent := by positivity
  exact inRange_of_bounds (by omega) (by omega)

theorem abs_mul_le_of_le {x y boundX boundY : Int} (hx : |x| ≤ boundX) (hy : |y| ≤ boundY) :
    |x * y| ≤ boundX * boundY := by
  rw [abs_mul]
  exact mul_le_mul hx hy (abs_nonneg y) ((abs_nonneg x).trans hx)

@[simp] theorem toInt_of_inRange {value : Int} (inRange : InIntRange value) :
    toInt value = value := by
  obtain ⟨low, high⟩ := inRange
  simp only [intMin, intMax] at low high
  unfold toInt
  rw [Int.emod_eq_of_lt (by omega) (by omega)]
  omega

@[simp] theorem toInt_toUnsigned (value : Int) : toInt (toUnsigned value) = toInt value := by
  unfold toInt toUnsigned
  omega

@[simp] theorem toInt_add_toUnsigned (left right : Int) :
    toInt (left + toUnsigned right) = toInt (left + right) := by
  unfold toInt toUnsigned
  omega

theorem toInt_inRange (value : Int) : InIntRange (toInt value) := by
  unfold toInt InIntRange intMin intMax
  omega

theorem toInt16_of_lt {value : Int} (low : -2 ^ 15 ≤ value) (high : value < 2 ^ 15) :
    toInt16 value = value := by
  unfold toInt16
  omega

/-! ## Rounded shift -/

theorem half_pow_eq (bits : Nat) :
    (((1 <<< bits >>> 1 : Nat)) : Int) = if bits = 0 then 0 else 2 ^ (bits - 1) := by
  rcases bits with _ | bits
  · rfl
  · simp only [Nat.shiftLeft_eq, one_mul, Nat.shiftRight_one, Nat.add_one_ne_zero, ↓reduceIte,
      Nat.add_sub_cancel, pow_succ]
    push_cast
    omega

theorem shiftRight_eq_ediv (value : Int) (bits : Nat) : value >>> bits = value / 2 ^ bits := by
  rw [Int.shiftRight_eq_div_pow]
  push_cast
  rfl

theorem rshiftOp_of_inRange {a : Int} {b : Nat}
    (inRange : InIntRange (a + ((1 <<< b >>> 1 : Nat) : Int) - 1))
    (inRangeHigh : InIntRange (a + ((1 <<< b >>> 1 : Nat) : Int))) :
    rshiftOp a b = some (rshift a b) := by
  unfold rshiftOp rshift
  split <;> simp [intOp_of_inRange, *]

private theorem rounded_quotient_le {value divisor bound : Int} (divisorPos : 0 < divisor)
    (nonneg : 0 ≤ value) (small : value ≤ divisor * bound) :
    0 ≤ (value + (divisor >>> (1 : Nat))).tdiv divisor ∧
      (value + (divisor >>> (1 : Nat))).tdiv divisor ≤ bound := by
  rw [shiftRight_eq_ediv, Int.tdiv_eq_ediv (by omega) divisorPos.le]
  refine ⟨Int.ediv_nonneg (by omega) divisorPos.le, ?_⟩
  have halfLt : divisor / 2 ^ 1 < divisor := by omega
  have := (Int.ediv_lt_iff_lt_mul divisorPos).mpr
    (show value + divisor / 2 ^ 1 < (bound + 1) * divisor by linarith)
  omega

theorem roundedDiv_abs_le {numerator divisor bound : Int} (divisorPos : 0 < divisor)
    (small : |numerator| ≤ divisor * bound) : |roundedDiv numerator divisor| ≤ bound := by
  rw [abs_le] at small ⊢
  unfold roundedDiv
  split
  case isTrue nonneg =>
    have := rounded_quotient_le divisorPos nonneg small.2
    omega
  case isFalse negative =>
    have := rounded_quotient_le divisorPos (show 0 ≤ -numerator by omega)
      (show -numerator ≤ divisor * bound by linarith)
    rw [show numerator - divisor >>> (1 : Nat) = -(-numerator + divisor >>> (1 : Nat)) by ring,
      Int.neg_tdiv]
    omega

/-! ## The low bit of `^`, `&` and `|` on `int` -/

theorem bodd_xor (a b : Int) : (Int.xor a b).bodd = xor a.bodd b.bodd := by
  conv_lhs => rw [← Int.bit_decomp a, ← Int.bit_decomp b]
  rw [Int.lxor_bit, Int.bodd_bit]

theorem emod_two_eq_bodd (a : Int) : a % 2 = if a.bodd then 1 else 0 := by
  have decomposed := Int.bodd_add_div2 a
  cases parity : a.bodd <;>
    simp only [parity, cond_true, cond_false, if_true, if_false, Bool.false_eq_true]
      at decomposed ⊢ <;> omega

theorem xor_zero (a : Int) : Int.xor a 0 = a := by
  cases a <;> simp [Int.xor]

private theorem land_zero (a : Int) : Int.land a 0 = 0 := by
  cases a <;> simp [Int.land, Nat.ldiff, Nat.bitwise_zero_left]

theorem land_one (a : Int) : Int.land a 1 = if a.bodd then 1 else 0 := by
  conv_lhs => rw [← Int.bit_decomp a, show (1 : Int) = Int.bit true 0 from rfl]
  rw [Int.land_bit, land_zero]
  cases a.bodd <;> rfl

theorem lor_zero (a : Int) : Int.lor a 0 = a := by
  rcases a with a | a <;> simp [Int.lor, Nat.ldiff]

theorem lor_one (a : Int) : Int.lor a 1 = if a.bodd then a else a + 1 := by
  have decomposed : a = 2 * a.div2 + cond a.bodd 1 0 := by rw [← Int.bit_val, Int.bit_decomp]
  conv_lhs => rw [← Int.bit_decomp a, show (1 : Int) = Int.bit true 0 from rfl]
  rw [Int.lor_bit, lor_zero, Int.bit_val]
  cases parity : a.bodd <;>
    simp only [parity, cond_true, cond_false, Bool.false_or, Bool.true_or, if_true, if_false,
      Bool.false_eq_true] at decomposed ⊢ <;> omega

theorem xor_one (a : Int) : Int.xor a 1 = if a.bodd then a - 1 else a + 1 := by
  have decomposed : a = 2 * a.div2 + cond a.bodd 1 0 := by rw [← Int.bit_val, Int.bit_decomp]
  conv_lhs => rw [← Int.bit_decomp a, show (1 : Int) = Int.bit true 0 from rfl]
  rw [Int.lxor_bit, xor_zero, Int.bit_val]
  cases parity : a.bodd <;>
    simp only [parity, cond_true, cond_false, Bool.false_xor, Bool.true_xor, Bool.not_false,
      Bool.not_true, if_true, if_false, Bool.false_eq_true] at decomposed ⊢ <;> omega

theorem land_neg2048_eq_zero_iff (x : Int) : Int.land x (-2048) = 0 ↔ 0 ≤ x ∧ x < 2048 := by
  cases x with
  | ofNat m =>
    have eleven : (2047 : Nat) = 2 ^ 11 - 1 := rfl
    have low : Nat.ldiff m 2047 = 0 ↔ m < 2 ^ 11 := by
      constructor
      · intro zero
        refine Nat.lt_pow_two_of_testBit m fun i high => ?_
        have bit := congrArg (Nat.testBit · i) zero
        simp only [Nat.testBit_ldiff, Nat.zero_testBit, eleven, Nat.testBit_two_pow_sub_one] at bit
        simpa [show ¬i < 11 by omega] using bit
      · intro small
        refine Nat.eq_of_testBit_eq fun i => ?_
        rw [Nat.testBit_ldiff, Nat.zero_testBit, eleven, Nat.testBit_two_pow_sub_one]
        by_cases below : i < 11
        · simp [below]
        · have bound : 2 ^ 11 ≤ 2 ^ i := Nat.pow_le_pow_right (by decide) (by omega)
          simp [below, Nat.testBit_lt_two_pow (lt_of_lt_of_le small bound)]
    show Int.ofNat (Nat.ldiff m 2047) = 0 ↔ _
    simp only [Int.ofNat_eq_coe, Nat.cast_eq_zero, low]
    omega
  | negSucc m =>
    show Int.negSucc (m ||| 2047) = 0 ↔ _
    simp only [Int.negSucc_ne_zero, false_iff, not_and, not_lt]
    exact fun nonneg => absurd nonneg (not_le.mpr (Int.negSucc_lt_zero m))

/-! ## Fallible results -/

theorem exists_of_map_eq_ok {ε α β : Type} {f : α → β} {e : Except ε α} {b : β}
    (mapped : e.map f = .ok b) : ∃ a, e = .ok a ∧ f a = b := by
  cases e with
  | error _ => cases mapped
  | ok a => exact ⟨a, rfl, by cases mapped; rfl⟩

end Librempeg.Avutil
