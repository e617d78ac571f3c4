import Librempeg.Avcodec.Ituh263Enc.Umotion

/-!
Contract: the H.263 code of a motion vector difference in libavcodec/ituh263enc.c:
`ff_h263_encode_motion` with its modulo wrap, and the entries of `mv_penalty` that
`init_mv_penalty_and_fcode` computes for the motion estimator.

`ff_mvtab` (libavcodec/h263data.c, not in this tree) enters as an `MvTab`: 33 codes and
their lengths, with the facts the source states of it (the code of the zero vector is
the bit `1`, the longest code has 12 bits) and that no code begins another, as a VLC
table must. `sign_extend` (libavcodec/mathops.h, not in this tree) keeps the low bits as
a two's complement number. `MAX_DMV` is `2 * MAX_MV` (libavcodec/mpegvideoenc.h, not in
this tree).

Owns: both functions; the code the encoder writes in closed form
(`ffH263EncodeMotion_eq`): only entries 0 to 32 of `ff_mvtab` are read, and the code is
read back by the decoding rule of the standard (`mvdDecode`) as the difference modulo
`2^(5+f_code)`.

Does not own: the motion estimator that reads `mv_penalty`, the macroblock encoder, and
`ff_h263_decode_motion` (libavcodec/ituh263dec.c, not in this tree); the reader here
follows the standard.
-/

namespace Librempeg.Avcodec.Ituh263Enc

open Librempeg.Avcodec Librempeg.Avutil GetBitContext

/-- `ff_mvtab`: the code and the length of the VLC of each motion code 0 to 32. -/
structure MvTab where
  code : Fin 33 → Nat
  length : Fin 33 → Nat
  /-- The zero vector is the bit `1` (`put_bits(pb, 1, 1)`, "corresponds to ff_mvtab[0]"). -/
  zeroCode : code 0 = 1 ∧ length 0 = 1
  /-- No code is longer than `ff_mvtab[32]`, 12 bits. -/
  lengthLe : ∀ i, length i ≤ 12
  /-- No code begins another. -/
  prefixFree : ∀ i j, codeBits (length i) (code i) <+: codeBits (length j) (code j) → i = j

namespace MvTab

/-- `ff_mvtab[code]`, `none` outside the table. -/
def lookup (mvtab : MvTab) (code : Int) : Option (Nat × Nat) :=
  if inTable : 0 ≤ code ∧ code < 33 then
    some (mvtab.code ⟨code.toNat, by omega⟩, mvtab.length ⟨code.toNat, by omega⟩)
  else none

/-- `ff_mvtab[code][1]` for `code < 33`. -/
def lengthAt (mvtab : MvTab) (code : Nat) : Nat :=
  if inTable : code < 33 then mvtab.length ⟨code, inTable⟩ else 0

/-- Modelled from the spec: the motion code whose VLC begins `bits`, and the bits after it. -/
def read (mvtab : MvTab) (bits : List Bool) : Option (Nat × List Bool) :=
  (List.finRange 33).findSome? fun i =>
    if codeBits (mvtab.length i) (mvtab.code i) <+: bits then
      some (i.val, bits.drop (mvtab.length i))
    else none

end MvTab

/-- `sign_extend(val, bits)`: the low `bits` bits of `val` as a signed number. -/
def signExtend (val : Int) (bits : Nat) : Int :=
  (val + 2 ^ (bits - 1)) % 2 ^ bits - 2 ^ (bits - 1)

/-- `ff_h263_encode_motion(pb, val, f_code)`; `none` where it would read `ff_mvtab`
outside its 33 entries. -/
def ffH263EncodeMotion (mvtab : MvTab) (pb : PutBitContext) (val : Int) (fCode : Nat) :
    Option PutBitContext :=
  if val = 0 then some (pb.putBits 1 1)
  else
    let bitSize := fCode - 1
    let range : Int := 2 ^ bitSize
    let val := signExtend val (6 + bitSize)
    let sign := val >>> (31 : Nat)
    let val := Int.xor val sign - sign
    let sign := Int.land sign 1
    let val := val - 1
    let code := (val >>> bitSize) + 1
    let bits := Int.land val (range - 1)
    (mvtab.lookup code).map fun (vlc, len) =>
      let pb := pb.putBits (len + 1) ((vlc <<< 1) ||| sign.toNat)
      if bitSize > 0 then pb.putBits bitSize bits.toNat else pb

/-- `MAX_DMV`: the largest difference `mv_penalty` has an entry for. -/
def maxDmv : Int := 2 * 4096

/-- `mv_penalty[f_code][mv + MAX_DMV]` as `init_mv_penalty_and_fcode` computes it. -/
def mvPenalty (mvtab : MvTab) (fCode : Nat) (mv : Int) : Nat :=
  if mv = 0 then 1
  else
    let bitSize := fCode - 1
    let val := if mv < 0 then -mv else mv
    let val := val - 1
    let code := (val >>> bitSize) + 1
    if code < 33 then mvtab.lengthAt code.toNat + 1 + bitSize
    else 12 + avLog2 (code >>> (5 : Nat)).toNat + 2 + bitSize

/-- Modelled from the spec: a motion vector difference as H.263 and MPEG-4 Part 2 read
it: the motion code `c` of a table VLC; for `c ≠ 0` a sign bit and `f_code - 1` bits of
residual, and the difference `±((c - 1) * 2^(f_code - 1) + residual + 1)`. -/
def mvdDecode (mvtab : MvTab) (fCode : Nat) (bits : List Bool) : Option (Int × List Bool) :=
  match mvtab.read bits with
  | none => none
  | some (code, rest) =>
      if code = 0 then some (0, rest)
      else
        match rest with
        | [] => none
        | sign :: rest =>
            let rSize := fCode - 1
            if rest.length < rSize then none
            else
              let magnitude : Int :=
                ((code : Int) - 1) * 2 ^ rSize + fromBitsMSB (rest.take rSize) + 1
              some (if sign then -magnitude else magnitude, rest.drop rSize)

/-- The motion vector difference VLC of H.263 as `ff_mvtab` lists it, code and length;
the table the examples run on. -/
def h263MvTabEntries : List (Nat × Nat) :=
  [(1, 1), (1, 2), (1, 3), (1, 4), (3, 6), (5, 7), (4, 7), (3, 7),
   (11, 9), (10, 9), (9, 9), (17, 10), (16, 10), (15, 10), (14, 10), (13, 10),
   (12, 10), (11, 10), (10, 10), (9, 10), (8, 10), (7, 10), (6, 10), (5, 10),
   (4, 10), (7, 11), (6, 11), (5, 11), (4, 11), (3, 11), (2, 11), (3, 12), (2, 12)]

def h263MvTab : MvTab where
  code i := (h263MvTabEntries.getD i.val (0, 0)).1
  length i := (h263MvTabEntries.getD i.val (0, 0)).2
  zeroCode := by decide
  lengthLe := by decide
  prefixFree := by decide

/-! ### Arithmetic of the encoder -/

theorem signExtend_mem (val : Int) {bits : Nat} (wide : 1 ≤ bits) :
    -2 ^ (bits - 1) ≤ signExtend val bits ∧ signExtend val bits < 2 ^ (bits - 1) := by
  have double : (2 : Int) ^ bits = 2 * 2 ^ (bits - 1) := by
    rw [← pow_succ']; congr 1; omega
  have half : (0 : Int) < 2 ^ (bits - 1) := by positivity
  have low := Int.emod_nonneg (val + 2 ^ (bits - 1)) (by omega : (2 : Int) ^ bits ≠ 0)
  have high := Int.emod_lt_of_pos (val + 2 ^ (bits - 1)) (by omega : (0 : Int) < 2 ^ bits)
  unfold signExtend
  omega

theorem signExtend_of_mem {val : Int} {bits : Nat} (wide : 1 ≤ bits) (low : -2 ^ (bits - 1) ≤ val)
    (high : val < 2 ^ (bits - 1)) : signExtend val bits = val := by
  have double : (2 : Int) ^ bits = 2 * 2 ^ (bits - 1) := by
    rw [← pow_succ']; congr 1; omega
  unfold signExtend
  rw [Int.emod_eq_of_lt (by omega) (by omega)]
  omega

theorem shiftRight_31 {v : Int} (small : |v| < 2 ^ 31) :
    v >>> (31 : Nat) = if v < 0 then -1 else 0 := by
  obtain ⟨low, high⟩ := abs_lt.mp small
  rw [shiftRight_eq_ediv]
  split_ifs <;> omega

theorem xor_sign_sub (v : Int) :
    Int.xor v (if v < 0 then -1 else 0) - (if v < 0 then -1 else 0) = v.natAbs := by
  split_ifs with negative
  · cases v with
    | ofNat m => simp only [Int.ofNat_eq_coe] at negative; omega
    | negSucc m => show Int.ofNat (m ^^^ 0) - (-1) = _; simp
  · rw [xor_zero]; omega

theorem land_sign_one (v : Int) :
    Int.land (if v < 0 then -1 else 0) 1 = (decide (v < 0)).toNat := by
  by_cases negative : v < 0 <;> simp [negative, land_one]

theorem land_two_pow_sub_one {x : Int} (low : -1 ≤ x) (b : Nat) :
    Int.land x (2 ^ b - 1) = x % 2 ^ b := by
  have cast : (2 : Int) ^ b - 1 = ((2 ^ b - 1 : Nat) : Int) := by
    rw [Nat.cast_sub Nat.one_le_two_pow]; norm_num
  rcases (show x = -1 ∨ 0 ≤ x by omega) with rfl | nonneg
  · rw [cast]
    show Int.ofNat (Nat.ldiff (2 ^ b - 1) 0) = _
    have unchanged : Nat.ldiff (2 ^ b - 1) 0 = 2 ^ b - 1 :=
      Nat.eq_of_testBit_eq fun i => by simp [Nat.testBit_ldiff]
    have positive : (0 : Int) < 2 ^ b := by positivity
    rw [unchanged, show (-1 : Int) = (2 ^ b - 1) + (-1) * 2 ^ b by ring, Int.add_mul_emod_self,
      Int.emod_eq_of_lt (by omega) (by omega), Int.ofNat_eq_coe, Nat.cast_sub Nat.one_le_two_pow]
    norm_num
  · lift x to Nat using nonneg
    rw [cast]
    show Int.ofNat (x &&& (2 ^ b - 1)) = _
    rw [Nat.and_pow_two_sub_one_eq_mod]
    norm_cast

/-! ### The code the encoder writes -/

@[simp] theorem MvTab.lookup_val (mvtab : MvTab) (c : Fin 33) :
    mvtab.lookup (c.val : Int) = some (mvtab.code c, mvtab.length c) := by
  simp [MvTab.lookup, c.isLt]

/-- **What `ff_h263_encode_motion` writes.** For `f_code` in `[1, 7]` and `val ≠ 0`, with
`v` the difference wrapped to `5 + f_code` bits and `b = f_code - 1`: the VLC of the
motion code `c = (|v| - 1) / 2^b + 1`, an entry of `ff_mvtab` (0 only for `v = 0`), the
sign of `v` and the `b` low bits of `|v| - 1`. -/
theorem ffH263EncodeMotion_eq (mvtab : MvTab) (pb : PutBitContext) {val : Int} {fCode : Nat}
    (fCodeRange : 1 ≤ fCode ∧ fCode ≤ 7) (nonzero : val ≠ 0) :
    ∃ c : Fin 33, (c.val : Int) =
        (((signExtend val (5 + fCode)).natAbs : Int) - 1) / 2 ^ (fCode - 1) + 1 ∧
      ffH263EncodeMotion mvtab pb val fCode = some ⟨pb.bits ++
        codeBits (mvtab.length c) (mvtab.code c) ++ decide (signExtend val (5 + fCode) < 0) ::
          codeBits (fCode - 1)
            ((((signExtend val (5 + fCode)).natAbs : Int) - 1) % 2 ^ (fCode - 1)).toNat⟩ := by
  obtain ⟨atLeast, atMost⟩ := fCodeRange
  have wide : 6 + (fCode - 1) = 5 + fCode := by omega
  obtain ⟨vLow, vHigh⟩ := signExtend_mem val (show 1 ≤ 5 + fCode by omega)
  have half : (2 : Int) ^ (5 + fCode - 1) = 32 * 2 ^ (fCode - 1) := by
    rw [show 5 + fCode - 1 = 5 + (fCode - 1) by omega, pow_add]; norm_num
  have step : (2 : Int) ^ (fCode - 1) ≤ 64 := by
    calc (2 : Int) ^ (fCode - 1) ≤ 2 ^ 6 := pow_le_pow_right₀ (by norm_num) (by omega)
      _ = 64 := by norm_num
  have stepPos : (0 : Int) < 2 ^ (fCode - 1) := by positivity
  unfold ffH263EncodeMotion
  rw [if_neg nonzero]
  dsimp only
  rw [wide]
  generalize signExtend val (5 + fCode) = v at vLow vHigh ⊢
  rw [half] at vLow vHigh
  rw [shiftRight_31 (abs_lt.mpr ⟨by omega, by omega⟩), xor_sign_sub, land_sign_one,
    land_two_pow_sub_one (by omega), shiftRight_eq_ediv]
  generalize (2 : Int) ^ (fCode - 1) = h at step stepPos vLow vHigh ⊢
  obtain ⟨c, cIs⟩ : ∃ c : Fin 33, (c.val : Int) = ((v.natAbs : Int) - 1) / h + 1 := by
    have low := (Int.le_ediv_iff_mul_le stepPos).mpr
      (show -1 * h ≤ (v.natAbs : Int) - 1 by omega)
    have high := (Int.ediv_lt_iff_lt_mul stepPos).mpr
      (show (v.natAbs : Int) - 1 < 32 * h by omega)
    exact ⟨⟨(((v.natAbs : Int) - 1) / h + 1).toNat, by omega⟩, Int.toNat_of_nonneg (by omega)⟩
  refine ⟨c, cIs, ?_⟩
  rw [← cIs, MvTab.lookup_val, Option.map_some']
  have signBit : mvtab.code c <<< 1 ||| (decide (v < 0)).toNat =
      2 * mvtab.code c + (decide (v < 0)).toNat := by
    rw [shiftLeft_or_eq (by cases decide (v < 0) <;> decide), pow_one]
  congr 1
  dsimp only
  rw [Int.toNat_ofNat, signBit]
  split_ifs with positive
  · simp only [PutBitContext.putBits, codeBits_two_mul_add, List.append_assoc, List.singleton_append]
  · rw [show fCode - 1 = 0 by omega]
    simp only [PutBitContext.putBits, codeBits_two_mul_add, codeBits_zero, List.append_assoc,
      List.singleton_append, List.append_nil]

example : ffH263EncodeMotion h263MvTab ⟨[]⟩ 3 1 = some ⟨[false, false, false, true, false]⟩ := by
  decide

/-! ### Reading the code back -/

theorem findSome?_eq_of_unique {α β : Type} {f : α → Option β} {a : α} {l : List α}
    (mem : a ∈ l) (answers : (f a).isSome) (only : ∀ x ∈ l, (f x).isSome → x = a) :
    l.findSome? f = f a := by
  induction l with
  | nil => cases mem
  | cons x xs ih =>
    rw [List.findSome?_cons]
    cases found : f x with
    | some b =>
      obtain rfl := only x (List.mem_cons_self _ _) (by simp [found])
      exact found.symm
    | none =>
      have other : a ≠ x := fun same => by subst same; simp [found] at answers
      exact ih ((List.mem_cons.mp mem).resolve_left other)
        fun y later => only y (List.mem_cons_of_mem _ later)

theorem MvTab.read_append (mvtab : MvTab) (c : Fin 33) (more : List Bool) :
    mvtab.read (codeBits (mvtab.length c) (mvtab.code c) ++ more) = some (c.val, more) := by
  have found : codeBits (mvtab.length c) (mvtab.code c) <+:
      codeBits (mvtab.length c) (mvtab.code c) ++ more := List.prefix_append _ _
  unfold MvTab.read
  rw [findSome?_eq_of_unique (List.mem_finRange c)]
  · simp [found]
  · simp [found]
  · intro i _ answers
    have prefixes : codeBits (mvtab.length i) (mvtab.code i) <+:
        codeBits (mvtab.length c) (mvtab.code c) ++ more := by
      by_contra absent
      simp [absent] at answers
    rcases List.prefix_or_prefix_of_prefix prefixes found with early | late
    · exact mvtab.prefixFree i c early
    · exact (mvtab.prefixFree c i late).symm

theorem mvdDecode_of_read {mvtab : MvTab} {fCode : Nat} {bits : List Bool} {k : Nat}
    {sign : Bool} {rest : List Bool} (read : mvtab.read bits = some (k + 1, sign :: rest)) :
    mvdDecode mvtab fCode bits =
      if rest.length < fCode - 1 then none
      else
        let magnitude : Int :=
          ((k + 1 : Nat) - 1) * 2 ^ (fCode - 1) + fromBitsMSB (rest.take (fCode - 1)) + 1
        some (if sign then -magnitude else magnitude, rest.drop (fCode - 1)) := by
  rw [mvdDecode, read]
  rfl

/-- **The encoder's code is read back as the wrapped difference.** For every `f_code` in
`[1, 7]` and every difference `val`, `ff_h263_encode_motion` reads `ff_mvtab` only inside
its 33 entries, and the standard's decoding rule reads what it wrote back as `val`
wrapped to `5 + f_code` bits, whatever follows; the decoder adds the prediction and
wraps the same way. The exception is a nonzero `val` that wraps to 0 (a multiple of
`2^(5+f_code)`): it is written as the code of 0 followed by a sign bit and residual bits,
which a reader of the standard does not expect. -/
theorem ffH263EncodeMotion_decodes (mvtab : MvTab) (pb : PutBitContext) {val : Int}
    {fCode : Nat} (fCodeRange : 1 ≤ fCode ∧ fCode ≤ 7)
    (unwrapped : val = 0 ∨ signExtend val (5 + fCode) ≠ 0) :
    ∃ written, ffH263EncodeMotion mvtab pb val fCode = some ⟨pb.bits ++ written⟩ ∧
      ∀ rest, mvdDecode mvtab fCode (written ++ rest) = some (signExtend val (5 + fCode), rest) := by
  by_cases zero : val = 0
  · subst zero
    have unit : codeBits 1 1 = codeBits (mvtab.length 0) (mvtab.code 0) := by
      rw [mvtab.zeroCode.1, mvtab.zeroCode.2]
    refine ⟨codeBits 1 1, by simp [ffH263EncodeMotion, PutBitContext.putBits], fun rest => ?_⟩
    rw [signExtend_of_mem (by omega) (by simp) (by positivity), mvdDecode, unit,
      MvTab.read_append, Fin.val_zero]
    rfl
  have nonzero := unwrapped.resolve_left zero
  obtain ⟨c, cIs, encoded⟩ := ffH263EncodeMotion_eq mvtab pb fCodeRange zero
  refine ⟨_, by rw [encoded, List.append_assoc], fun rest => ?_⟩
  generalize signExtend val (5 + fCode) = v at nonzero cIs ⊢
  have stepPos : (0 : Int) < 2 ^ (fCode - 1) := by positivity
  obtain ⟨k, kIs⟩ : ∃ k, c.val = k + 1 := by
    have := (Int.le_ediv_iff_mul_le stepPos).mpr
      (show 0 * 2 ^ (fCode - 1) ≤ (v.natAbs : Int) - 1 by omega)
    exact ⟨c.val - 1, by omega⟩
  have residual : ((v.natAbs : Int) - 1) % 2 ^ (fCode - 1) < 2 ^ (fCode - 1) :=
    Int.emod_lt_of_pos _ stepPos
  have read := MvTab.read_append mvtab c (decide (v < 0) ::
    (codeBits (fCode - 1) (((v.natAbs : Int) - 1) % 2 ^ (fCode - 1)).toNat ++ rest))
  rw [kIs] at read
  rw [List.append_assoc, List.cons_append, mvdDecode_of_read read, if_neg (by simp), List.take_left' (length_codeBits _ _), List.drop_left' (length_codeBits _ _),
    fromBitsMSB_codeBits]
  have rNonneg := Int.emod_nonneg ((v.natAbs : Int) - 1) stepPos.ne'
  have rLt : (((v.natAbs : Int) - 1) % 2 ^ (fCode - 1)).toNat < 2 ^ (fCode - 1) := by
    rw [← Int.ofNat_lt, Int.toNat_of_nonneg rNonneg]
    exact_mod_cast residual
  rw [Nat.mod_eq_of_lt rLt, Int.toNat_of_nonneg rNonneg]
  have split := Int.ediv_add_emod ((v.natAbs : Int) - 1) (2 ^ (fCode - 1))
  have codeIs : ((k + 1 : Nat) : Int) - 1 = ((v.natAbs : Int) - 1) / 2 ^ (fCode - 1) := by
    rw [← kIs, cIs, add_sub_cancel_right]
  rw [codeIs]
  generalize (2 : Int) ^ (fCode - 1) = h at split ⊢
  generalize ((v.natAbs : Int) - 1) / h = quotient at split ⊢
  have magnitude : quotient * h + ((v.natAbs : Int) - 1) % h + 1 = v.natAbs := by
    rw [mul_comm]; omega
  simp only [magnitude, decide_eq_true_eq]
  rw [show (if v < 0 then -(v.natAbs : Int) else v.natAbs) = v by split_ifs <;> omega]

theorem ffH263EncodeMotion_decodes_wrapped :
    (1 ≤ 2 ∧ 2 ≤ 7) ∧ ((-70 : Int) = 0 ∨ signExtend (-70) (5 + 2) ≠ 0) ∧
      ∃ written, ffH263EncodeMotion h263MvTab ⟨[]⟩ (-70) 2 = some ⟨[] ++ written⟩ ∧
        ∀ rest, mvdDecode h263MvTab 2 (written ++ rest) = some (signExtend (-70) (5 + 2), rest) :=
  ⟨by decide, .inr (by decide),
    ffH263EncodeMotion_decodes h263MvTab ⟨[]⟩ ⟨by decide, by decide⟩ (.inr (by decide))⟩

end Librempeg.Avcodec.Ituh263Enc
