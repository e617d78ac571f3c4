import Librempeg.Avcodec.GetBits
import Librempeg.Avutil.Common

/-!
Contract: `h263p_encode_umotion` (libavcodec/ituh263enc.c), the H.263+ code of a motion
vector difference in Unrestricted Motion Vector mode, and the reversible code of H.263
Annex D that it writes: `1` for 0; otherwise `0`, each bit of `|v|` below its leading one
followed by a `1`, then the sign bit and a final `0`.

`put_bits` (libavcodec/put_bits.h, not in this tree) appends the `n` low bits of its value,
most significant first; the writer is the list of bits written so far. `sval`,
`temp_val`, `i` and `n_bits` are `short`s: for `|val| < 2^15` the casts are exact, and the
bit-length loop ends; a negative `short` magnitude keeps its sign under `>>`, and the loop
never ends.

Owns: `put_bits` as an append, the two loops of `h263p_encode_umotion`, the Annex D code
and its reader, that the encoder writes the Annex D code, and that the code is
prefix-free and read back.

Does not own: the macroblock encoder that calls it, or `h263p_decode_umotion`
(libavcodec/ituh263dec.c, not in this tree); the reader here follows the Annex D rule.
-/

namespace Librempeg.Avcodec.Ituh263Enc

open Librempeg.Avcodec Librempeg.Avutil GetBitContext

/-- `PutBitContext`: the bits written so far. -/
structure PutBitContext where
  bits : List Bool
  deriving DecidableEq, Repr

/-- `put_bits(pb, n, value)`: the `n` low bits of `value`, most significant first
(put_bits.h asserts `value < 1 << n`). -/
def PutBitContext.putBits (pb : PutBitContext) (n value : Nat) : PutBitContext :=
  ⟨pb.bits ++ codeBits n value⟩

/-- `while (temp_val != 0) { temp_val = temp_val >> 1; n_bits++; }` for at most `fuel`
rounds: a nonnegative `short` reaches 0 within 15, a negative one never does. -/
def umotionBitCount : Nat → Int → Nat → Option Nat
  | 0, _, _ => none
  | fuel + 1, tempVal, nBits =>
      if tempVal ≠ 0 then umotionBitCount fuel (tempVal >>> (1 : Nat)) (nBits + 1) else some nBits

/-- `while (i > 0) { tcode = (sval & (1 << (i-1))) >> (i-1); tcode = (tcode << 1) | 1;
code = (code << 2) | tcode; i--; }`: `umotionCodeLoop sval (i + 1)` is the round at
`i + 1`, which reads bit `i` of `sval`. -/
def umotionCodeLoop (sval : Nat) : Nat → Nat → Nat
  | 0, code => code
  | i + 1, code =>
      let tcode := (sval &&& (1 <<< i)) >>> i
      let tcode := (tcode <<< 1) ||| 1
      umotionCodeLoop sval i ((code <<< 2) ||| tcode)

/-- `h263p_encode_umotion(pb, val)`, `none` where the bit-length loop never ends. The code
loop runs only on a nonnegative `sval`, where `code` has at most 30 bits. -/
def h263pEncodeUmotion (pb : PutBitContext) (val : Int) : Option PutBitContext :=
  if val = 0 then some (pb.putBits 1 1)
  else if val = 1 then some (pb.putBits 3 0)
  else if val = -1 then some (pb.putBits 3 2)
  else
    let sval := if val < 0 then toInt16 (-val) else toInt16 val
    (umotionBitCount 16 sval 0).map fun nBits =>
      let code := umotionCodeLoop sval.toNat (nBits - 1) 0
      pb.putBits (2 * nBits + 1) (((code <<< 1) ||| (decide (val < 0)).toNat) <<< 1)

/-! ## The Annex D reversible code -/

def umotionPairs (bits : List Bool) : List Bool := bits.flatMap fun bit => [bit, true]

/-- The reversible code of a motion vector difference as Annex D states it: `1` for 0;
otherwise `0`, each bit of `|v|` below its leading one followed by a `1`, then the sign
bit and a final `0`. -/
def annexDCode (v : Int) : List Bool :=
  if v = 0 then [true]
  else false :: umotionPairs (codeBits v.natAbs.log2 v.natAbs) ++ [decide (v < 0), false]

def annexDReadPairs : Nat → List Bool → Option (Int × List Bool)
  | magnitude, bit :: true :: rest => annexDReadPairs (2 * magnitude + bit.toNat) rest
  | magnitude, sign :: false :: rest => some (if sign then -(magnitude : Int) else magnitude, rest)
  | _, _ => none

/-- The Annex D reader: one code from the front of a bit string, and the bits after it. -/
def annexDDecode : List Bool → Option (Int × List Bool)
  | [] => none
  | true :: rest => some (0, rest)
  | false :: rest => annexDReadPairs 1 rest

@[simp] theorem umotionPairs_cons (bit : Bool) (bits : List Bool) :
    umotionPairs (bit :: bits) = bit :: true :: umotionPairs bits := rfl

@[simp] theorem length_umotionPairs (bits : List Bool) :
    (umotionPairs bits).length = 2 * bits.length := by
  induction bits with
  | nil => rfl
  | cons bit bits ih => simp [ih]; omega

theorem annexDReadPairs_append (bits : List Bool) (magnitude : Nat) (sign : Bool)
    (rest : List Bool) :
    annexDReadPairs magnitude (umotionPairs bits ++ sign :: false :: rest) =
      let magnitude := bits.foldl (fun acc bit => 2 * acc + bit.toNat) magnitude
      some (if sign then -(magnitude : Int) else magnitude, rest) := by
  induction bits generalizing magnitude with
  | nil => simp [annexDReadPairs]
  | cons bit bits ih =>
    rw [umotionPairs_cons, List.cons_append, List.cons_append, annexDReadPairs.eq_1, ih,
      List.foldl_cons]

theorem foldl_codeBits_log2 {m : Nat} (positive : m ≠ 0) :
    (codeBits m.log2 m).foldl (fun acc bit => 2 * acc + bit.toNat) 1 = m := by
  have low := Nat.log2_self_le positive
  have high : m < 2 ^ m.log2 * 2 := pow_succ 2 m.log2 ▸ Nat.lt_log2_self
  rw [foldl_bits, fromBitsMSB_codeBits, length_codeBits, Nat.mod_eq_sub_mod low,
    Nat.mod_eq_of_lt (by omega)]
  omega

theorem annexDDecode_append (v : Int) (rest : List Bool) :
    annexDDecode (annexDCode v ++ rest) = some (v, rest) := by
  unfold annexDCode
  split
  case isTrue zero => simp [zero, annexDDecode]
  case isFalse nonzero =>
    have signed : (if decide (v < 0) then -(v.natAbs : Int) else v.natAbs) = v := by
      simp only [decide_eq_true_eq]
      split <;> omega
    simp only [List.cons_append, List.append_assoc, List.singleton_append, annexDDecode,
      annexDReadPairs_append, foldl_codeBits_log2 (Int.natAbs_ne_zero.mpr nonzero), signed,
      List.nil_append]

theorem annexDCode_not_prefix {v w : Int} (distinct : v ≠ w) : ¬annexDCode v <+: annexDCode w := by
  rintro ⟨suffix, prefixed⟩
  have decoded := congrArg annexDDecode prefixed
  rw [annexDDecode_append, ← List.append_nil (annexDCode w), annexDDecode_append] at decoded
  exact distinct (Prod.mk.inj (Option.some.inj decoded)).1

/-! ## The encoder writes the Annex D code -/

theorem log2_one : Nat.log2 1 = 0 := by
  rw [Nat.log2.eq_1]
  rfl

theorem umotionBitCount_of_pos :
    ∀ (fuel m nBits : Nat), 0 < m → m < 2 ^ fuel →
      umotionBitCount (fuel + 1) m nBits = some (nBits + m.log2 + 1)
  | 0, m, _, positive, small => absurd small (by simp; omega)
  | fuel + 1, m, nBits, positive, small => by
    have halved : (m : Int) >>> (1 : Nat) = ((m / 2 : Nat) : Int) := by
      rw [shiftRight_eq_ediv]; omega
    rw [umotionBitCount, if_pos (by omega), halved]
    rcases Nat.lt_or_ge m 2 with one | two
    · obtain rfl : m = 1 := by omega
      simp [umotionBitCount, log2_one]
    · rw [umotionBitCount_of_pos fuel (m / 2) (nBits + 1) (by omega)
        (by rw [pow_succ] at small; omega), Nat.log2.eq_1 m, if_pos two]
      congr 1
      omega

theorem shiftLeft_or_eq {a b i : Nat} (small : b < 2 ^ i) : a <<< i ||| b = 2 ^ i * a + b := by
  rw [Nat.shiftLeft_eq, Nat.mul_comm, Nat.mul_add_lt_is_or small]

theorem and_one_shiftLeft_shiftRight (sval i : Nat) :
    (sval &&& (1 <<< i)) >>> i = (sval.testBit i).toNat := by
  rw [Nat.one_shiftLeft, Nat.and_two_pow, Nat.shiftRight_eq_div_pow,
    Nat.mul_div_cancel _ (Nat.two_pow_pos i)]

theorem umotionCodeLoop_eq (sval : Nat) :
    ∀ (i code : Nat), umotionCodeLoop sval i code =
      (umotionPairs (codeBits i sval)).foldl (fun acc bit => 2 * acc + bit.toNat) code
  | 0, code => rfl
  | i + 1, code => by
    have pair : (sval.testBit i).toNat <<< 1 ||| 1 = 2 * (sval.testBit i).toNat + 1 :=
      shiftLeft_or_eq (by decide)
    have pushed : code <<< 2 ||| (2 * (sval.testBit i).toNat + 1) =
        2 * (2 * code + (sval.testBit i).toNat) + 1 := by
      rw [shiftLeft_or_eq (by cases sval.testBit i <;> decide)]
      ring
    rw [umotionCodeLoop, and_one_shiftLeft_shiftRight, pair, pushed, umotionCodeLoop_eq sval i,
      codeBits_succ, umotionPairs_cons, List.foldl_cons, List.foldl_cons]
    rfl

theorem shiftLeft_or_sign_eq_fromBitsMSB (bits : List Bool) (sign : Bool) :
    ((fromBitsMSB bits <<< 1) ||| sign.toNat) <<< 1 = fromBitsMSB (false :: bits ++ [sign, false]) := by
  rw [shiftLeft_or_eq (by cases sign <;> decide), Nat.shiftLeft_eq, List.cons_append,
    fromBitsMSB_cons, fromBitsMSB, fromBitsMSB, List.foldl_append]
  simp only [pow_one, Bool.toNat_false, zero_mul, zero_add, List.foldl_cons, List.foldl_nil]
  ring

theorem annexDCode_of_natAbs_eq_one {v : Int} (unit : v.natAbs = 1) :
    annexDCode v = [false, decide (v < 0), false] := by
  rw [annexDCode, if_neg (by omega), unit, log2_one]
  rfl

/-- **`h263p_encode_umotion` writes the Annex D code** of every difference with
`|val| < 2^15`, after the bits already written. -/
theorem h263pEncodeUmotion_eq (pb : PutBitContext) {val : Int} (small : |val| < 2 ^ 15) :
    h263pEncodeUmotion pb val = some ⟨pb.bits ++ annexDCode val⟩ := by
  obtain ⟨low, high⟩ := abs_lt.mp small
  unfold h263pEncodeUmotion
  split
  case isTrue zero => subst zero; rfl
  split
  case isTrue one => subst one; rw [@annexDCode_of_natAbs_eq_one 1 rfl]; rfl
  split
  case isTrue minusOne => subst minusOne; rw [@annexDCode_of_natAbs_eq_one (-1) (by decide)]; rfl
  case isFalse nonzero notOne notMinusOne =>
    have magnitude : (if val < 0 then toInt16 (-val) else toInt16 val) = (val.natAbs : Int) := by
      split <;> rw [toInt16_of_lt (by omega) (by omega)] <;> omega
    have positive : 0 < val.natAbs := by omega
    have counted : umotionBitCount 16 val.natAbs 0 = some (val.natAbs.log2 + 1) := by
      simpa using umotionBitCount_of_pos 15 _ 0 positive (by omega)
    dsimp only
    rw [magnitude, counted, Option.map_some', Int.toNat_natCast, Nat.add_sub_cancel,
      umotionCodeLoop_eq, ← fromBitsMSB, shiftLeft_or_sign_eq_fromBitsMSB, PutBitContext.putBits,
      codeBits_eq_of_fromBitsMSB (by simp; omega) rfl, annexDCode, if_neg nonzero]

example : h263pEncodeUmotion ⟨[]⟩ 2 = some ⟨[false, false, true, false, false]⟩ := by decide

example : h263pEncodeUmotion ⟨[]⟩ (-32768) = none := by decide

/-- **Motion vector differences are coded prefix-free and reversibly.** For two distinct
differences below `2^15` in magnitude, `h263p_encode_umotion` writes their Annex D codes,
neither code begins the other, and the Annex D reader returns each value from its code,
whatever follows it. -/
theorem h263pEncodeUmotion_prefix_free (pb : PutBitContext) {v w : Int} (distinct : v ≠ w)
    (vSmall : |v| < 2 ^ 15) (wSmall : |w| < 2 ^ 15) :
    h263pEncodeUmotion pb v = some ⟨pb.bits ++ annexDCode v⟩ ∧
      h263pEncodeUmotion pb w = some ⟨pb.bits ++ annexDCode w⟩ ∧
      ¬annexDCode v <+: annexDCode w ∧ ¬annexDCode w <+: annexDCode v ∧
      ∀ rest, annexDDecode (annexDCode v ++ rest) = some (v, rest) ∧
        annexDDecode (annexDCode w ++ rest) = some (w, rest) :=
  ⟨h263pEncodeUmotion_eq pb vSmall, h263pEncodeUmotion_eq pb wSmall,
    annexDCode_not_prefix distinct, annexDCode_not_prefix distinct.symm,
    fun rest => ⟨annexDDecode_append v rest, annexDDecode_append w rest⟩⟩

theorem h263pEncodeUmotion_prefix_free_twoAndMinusThree :
    (2 : Int) ≠ -3 ∧ |(2 : Int)| < 2 ^ 15 ∧ |(-3 : Int)| < 2 ^ 15 ∧
      h263pEncodeUmotion ⟨[]⟩ 2 = some ⟨[] ++ annexDCode 2⟩ ∧
      h263pEncodeUmotion ⟨[]⟩ (-3) = some ⟨[] ++ annexDCode (-3)⟩ ∧
      ¬annexDCode 2 <+: annexDCode (-3) ∧ ¬annexDCode (-3) <+: annexDCode 2 ∧
      ∀ rest, annexDDecode (annexDCode 2 ++ rest) = some (2, rest) ∧
        annexDDecode (annexDCode (-3) ++ rest) = some (-3, rest) :=
  ⟨by decide, by norm_num, by norm_num,
    h263pEncodeUmotion_prefix_free ⟨[]⟩ (by decide) (by norm_num) (by norm_num)⟩

end Librempeg.Avcodec.Ituh263Enc
