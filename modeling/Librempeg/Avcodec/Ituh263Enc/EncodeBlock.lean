import Librempeg.Avcodec.Ituh263Enc.Umotion

/-!
Contract: `h263_encode_block` (libavcodec/ituh263enc.c), the code of one 8×8 block: the
intra DC byte, the choice of the alternative inter VLC (H.263 Annex S) from its bit
estimate, and the loop that writes a run-level code for each nonzero coefficient with
its escape; and `init_uni_h263_rl_tab`, the table of those codes' lengths that the rate
control of the encoder reads.

The run-level tables `ff_h263_rl_inter` and `ff_rl_intra_aic` (libavcodec/h263data.c)
and `get_rl_index` (libavcodec/rl.h) are not in this tree: a table enters as an
`RlEncTable` with its VLC and its index function. The escape of FLV version 2
(`ff_flv2_encode_ac_esc`, libavcodec/flvenc.c, not in this tree) enters as a writer.

Owns: the three functions; that the bit count of the Annex S estimate is the length of
what the loop writes with either table, so that choosing the alternative VLC never
lengthens a block (`h263EncodeBlock_altInterVlc_le`).

Does not own: the tables, `get_rl_index`, the macroblock encoder, the rate control that
reads the length table.
-/

namespace Librempeg.Avcodec.Ituh263Enc

open Librempeg.Avcodec GetBitContext

/-- What the block encoder reads of an `RLTable`. -/
structure RlEncTable where
  /-- Number of codes; code `n` is the escape. -/
  n : Nat
  /-- `table_vlc[code]`: the bits and the length of the VLC of a code. -/
  tableVlc : Nat → Nat × Nat
  /-- `get_rl_index(rl, last, run, level)`: the code of the triple, `n` where the table
  has none. -/
  index : Bool → Nat → Nat → Nat

/-- What `h263_encode_block` reads of the encoder context. -/
structure BlockEncodeContext where
  mbIntra : Bool
  h263Aic : Bool
  altInterVlc : Bool
  /-- `CONFIG_FLV_ENCODER && s->h263_flv > 1`. -/
  flv2 : Bool
  /-- The bits `ff_flv2_encode_ac_esc(pb, slevel, level, run, last)` writes. -/
  flv2EncodeAcEsc : Int → Nat → Nat → Bool → List Bool
  /-- `ff_h263_rl_inter` and `ff_rl_intra_aic`. -/
  rlInter : RlEncTable
  rlIntraAic : RlEncTable
  /-- `intra_scantable.permutated[i]` for `i < 64`. -/
  scan : Nat → Fin 64

/-- `put_sbits(pb, n, value)`: the `n` low bits of `value` in two's complement. -/
def PutBitContext.putSBits (pb : PutBitContext) (n : Nat) (value : Int) : PutBitContext :=
  pb.putBits n (value % 2 ^ n).toNat

/-- `wrong_run`: for each code of `ff_rl_intra_aic`, the positions a decoder using the
inter table would advance over it. -/
def wrongRun : List Nat :=
  [1, 2, 3, 5, 4, 10, 9, 8,
   11, 15, 17, 16, 23, 22, 21, 20,
   19, 18, 25, 24, 27, 26, 11, 7,
   6, 1, 2, 13, 2, 2, 2, 2,
   6, 12, 3, 9, 1, 3, 4, 3,
   7, 4, 1, 1, 5, 5, 14, 6,
   1, 7, 1, 8, 1, 1, 1, 1,
   10, 1, 1, 5, 9, 17, 25, 24,
   29, 33, 32, 41, 2, 23, 28, 31,
   3, 22, 30, 4, 27, 40, 8, 26,
   6, 39, 7, 38, 16, 37, 15, 10,
   11, 12, 13, 14, 1, 21, 20, 18,
   19, 2, 1, 34, 35, 36]

/-- The body of the AC loop for a nonzero coefficient `slevel` after `run` zeros: its
table code and sign bit, or the escape code with `last`, `run` and the level (in 8
bits, or 8 + 5 + 6 bits from 128 on, or the FLV 2 form). -/
def coefficientCode (ctx : BlockEncodeContext) (rl : RlEncTable) (pb : PutBitContext)
    (last : Bool) (run : Nat) (slevel : Int) : PutBitContext :=
  let sign := slevel < 0
  let level := slevel.natAbs
  let code := rl.index last run level
  let pb := pb.putBits (rl.tableVlc code).2 (rl.tableVlc code).1
  if code = rl.n then
    if !ctx.flv2 then
      let pb := (pb.putBits 1 last.toNat).putBits 6 run
      if level < 128 then pb.putSBits 8 slevel
      else ((pb.putBits 8 128).putSBits 5 slevel).putSBits 6 (slevel >>> (5 : Nat))
    else ⟨pb.bits ++ ctx.flv2EncodeAcEsc slevel level run last⟩
  else pb.putBits 1 (decide sign).toNat

/-- One position `i` of the AC loop, on `(last_non_zero, pb)`. -/
def acStep (ctx : BlockEncodeContext) (rl : RlEncTable) (block : Fin 64 → Int)
    (lastIndex : Int) (state : Int × PutBitContext) (i : Nat) : Int × PutBitContext :=
  let level := block (ctx.scan i)
  if level ≠ 0 then
    let run := ((i : Int) - state.1 - 1).toNat
    (i, coefficientCode ctx rl state.2 (decide ((i : Int) = lastIndex)) run level)
  else state

/-- `for (; i <= last_index; i++)` from `i = start` with `last_non_zero = start - 1`. -/
def acLoop (ctx : BlockEncodeContext) (rl : RlEncTable) (block : Fin 64 → Int)
    (lastIndex : Int) (start : Nat) (pb : PutBitContext) : PutBitContext :=
  ((List.range' start (lastIndex + 1 - start).toNat).foldl (acStep ctx rl block lastIndex)
    ((start : Int) - 1, pb)).2

/-- The counters of the Annex S estimate. -/
structure AltVlcCount where
  aicVlcBits : Nat
  interVlcBits : Nat
  wrongPos : Int
  lastNonZero : Int

/-- One position of the estimate loop: the bits of the coefficient's code in the inter
table `rl` and in `ff_rl_intra_aic`, an escape counted as its code and 1 + 6 + 8 - 1
bits more, and where a decoder with the wrong table would stand. -/
def altVlcStep (ctx : BlockEncodeContext) (rl : RlEncTable) (block : Fin 64 → Int)
    (lastIndex : Int) (count : AltVlcCount) (i : Nat) : AltVlcCount :=
  let level := block (ctx.scan i)
  if level ≠ 0 then
    let run := ((i : Int) - count.lastNonZero - 1).toNat
    let last := decide ((i : Int) = lastIndex)
    let level := level.natAbs
    let code := rl.index last run level
    let aicCode := ctx.rlIntraAic.index last run level
    let interVlcBits := count.interVlcBits + (rl.tableVlc code).2 + 1
    let aicVlcBits := count.aicVlcBits + (ctx.rlIntraAic.tableVlc aicCode).2 + 1
    let interVlcBits := if code = rl.n then interVlcBits + (1 + 6 + 8 - 1) else interVlcBits
    if aicCode = ctx.rlIntraAic.n then
      ⟨aicVlcBits + (1 + 6 + 8 - 1), interVlcBits, count.wrongPos + run + 1, i⟩
    else ⟨aicVlcBits, interVlcBits, count.wrongPos + wrongRun.getD aicCode 0, i⟩
  else count

/-- `h263_encode_block(s, block, n)` with `block_last_index[n] = lastIndex`: the writer
and the block, whose DC an intra block without AIC clamps to `[1, 254]`. -/
def h263EncodeBlock (ctx : BlockEncodeContext) (block : Fin 64 → Int) (lastIndex : Int)
    (pb : PutBitContext) : PutBitContext × (Fin 64 → Int) :=
  let rl := ctx.rlInter
  if ctx.mbIntra ∧ !ctx.h263Aic then
    let level := block 0
    let level := if 254 < level then 254 else if level < 1 then 1 else level
    let block := Function.update block 0 level
    let pb := if level = 128 then pb.putBits 8 0xff else pb.putBits 8 level.toNat
    (acLoop ctx rl block lastIndex 1 pb, block)
  else
    let rl := if ctx.h263Aic ∧ ctx.mbIntra then ctx.rlIntraAic else rl
    let rl :=
      if ctx.altInterVlc ∧ !ctx.mbIntra then
        let count := (List.range' 0 (lastIndex + 1).toNat).foldl
          (altVlcStep ctx rl block lastIndex) ⟨0, 0, -1, -1⟩
        if count.aicVlcBits < count.interVlcBits ∧ 63 < count.wrongPos then ctx.rlIntraAic
        else rl
      else rl
    (acLoop ctx rl block lastIndex 0 pb, block)

/-- `UNI_MPEG4_ENC_INDEX(last, run, level)`. -/
def uniMpeg4EncIndex (last : Bool) (run level : Nat) : Nat :=
  last.toNat * 128 * 64 + run * 128 + level

/-- The value the body of `init_uni_h263_rl_tab` stores for `(last, run, slevel)`: the
shorter of the table code with its sign bit and the escape with `last`, `run` and an 8-bit
level, starting from 100. -/
def lenTabEntry (rl : RlEncTable) (last : Bool) (run : Nat) (slevel : Int) : Nat :=
  let level := slevel.natAbs
  let lenTab := 100
  let code := rl.index last run level
  let len := (rl.tableVlc code).2 + 1
  let lenTab := if code ≠ rl.n ∧ len < lenTab then len else lenTab
  let len := (rl.tableVlc rl.n).2 + 1 + 6 + 8
  if len < lenTab then len else lenTab

/-- `init_uni_h263_rl_tab(rl, len_tab)`: the three loops over `slevel` in `[-64, 64)`
without 0, `run` in `[0, 64)` and `last`, each storing its entry at
`UNI_MPEG4_ENC_INDEX(last, run, slevel + 64)`. -/
def initUniH263RlTab (rl : RlEncTable) (lenTab : Nat → Nat) : Nat → Nat :=
  ((List.range 128).map fun k : Nat => (k : Int) - 64).foldl (fun lenTab slevel =>
    if slevel = 0 then lenTab
    else (List.range 64).foldl (fun lenTab run =>
      [false, true].foldl (fun lenTab last =>
        Function.update lenTab (uniMpeg4EncIndex last run (slevel + 64).toNat)
          (lenTabEntry rl last run slevel)) lenTab) lenTab) lenTab

/-! ### Lengths -/

def vlcCost (rl : RlEncTable) (last : Bool) (run level : Nat) : Nat :=
  (rl.tableVlc (rl.index last run level)).2 + 1 +
    if rl.index last run level = rl.n then 1 + 6 + 8 - 1 else 0

theorem length_coefficientCode {ctx : BlockEncodeContext} (rl : RlEncTable) (pb : PutBitContext)
    (last : Bool) (run : Nat) {slevel : Int} (noFlv2 : ctx.flv2 = false)
    (small : slevel.natAbs < 128) :
    (coefficientCode ctx rl pb last run slevel).bits.length =
      pb.bits.length + vlcCost rl last run slevel.natAbs := by
  unfold coefficientCode vlcCost
  by_cases escape : rl.index last run slevel.natAbs = rl.n <;>
    simp [escape, noFlv2, small, PutBitContext.putSBits, PutBitContext.putBits]

theorem acStep_spec {ctx : BlockEncodeContext} (rl : RlEncTable) {block : Fin 64 → Int}
    (lastIndex : Int) (state : Int × PutBitContext) (i : Nat) (noFlv2 : ctx.flv2 = false)
    (small : ∀ j, (block j).natAbs < 128) :
    (acStep ctx rl block lastIndex state i).2.bits.length = state.2.bits.length +
        (if block (ctx.scan i) ≠ 0 then vlcCost rl (decide ((i : Int) = lastIndex))
          ((i : Int) - state.1 - 1).toNat (block (ctx.scan i)).natAbs else 0) ∧
      (acStep ctx rl block lastIndex state i).1 =
        if block (ctx.scan i) ≠ 0 then (i : Int) else state.1 := by
  dsimp only [acStep]
  split_ifs
  · exact ⟨length_coefficientCode rl _ _ _ noFlv2 (small _), rfl⟩
  · exact ⟨(Nat.add_zero _).symm, rfl⟩

theorem altVlcStep_spec (ctx : BlockEncodeContext) (rl : RlEncTable) (block : Fin 64 → Int)
    (lastIndex : Int) (count : AltVlcCount) (i : Nat) :
    (altVlcStep ctx rl block lastIndex count i).interVlcBits = count.interVlcBits +
        (if block (ctx.scan i) ≠ 0 then vlcCost rl (decide ((i : Int) = lastIndex))
          ((i : Int) - count.lastNonZero - 1).toNat (block (ctx.scan i)).natAbs else 0) ∧
      (altVlcStep ctx rl block lastIndex count i).aicVlcBits = count.aicVlcBits +
        (if block (ctx.scan i) ≠ 0 then vlcCost ctx.rlIntraAic (decide ((i : Int) = lastIndex))
          ((i : Int) - count.lastNonZero - 1).toNat (block (ctx.scan i)).natAbs else 0) ∧
      (altVlcStep ctx rl block lastIndex count i).lastNonZero =
        if block (ctx.scan i) ≠ 0 then (i : Int) else count.lastNonZero := by
  dsimp only [altVlcStep, vlcCost]
  split_ifs <;> first | omega | (dsimp only; omega)

theorem foldl_acStep_length {ctx : BlockEncodeContext} (rl : RlEncTable) {block : Fin 64 → Int}
    (lastIndex : Int) (noFlv2 : ctx.flv2 = false) (small : ∀ j, (block j).natAbs < 128)
    (select : AltVlcCount → Nat)
    (selects : ∀ count i, select (altVlcStep ctx ctx.rlInter block lastIndex count i) =
      select count + if block (ctx.scan i) ≠ 0 then vlcCost rl (decide ((i : Int) = lastIndex))
        ((i : Int) - count.lastNonZero - 1).toNat (block (ctx.scan i)).natAbs else 0)
    (positions : List Nat) :
    ∀ (state : Int × PutBitContext) (count : AltVlcCount), state.1 = count.lastNonZero →
      (positions.foldl (acStep ctx rl block lastIndex) state).2.bits.length + select count =
        select (positions.foldl (altVlcStep ctx ctx.rlInter block lastIndex) count) +
          state.2.bits.length := by
  induction positions with
  | nil => intro _ _ _; simp only [List.foldl_nil]; omega
  | cons i positions ih =>
    intro state count same
    obtain ⟨written, moved⟩ := acStep_spec rl lastIndex state i noFlv2 small
    have counted := selects count i
    have next := ih _ _ (by rw [moved, (altVlcStep_spec ctx ctx.rlInter block lastIndex count i).2.2, same])
    simp only [List.foldl_cons]
    rw [same] at written
    omega

/-- The Annex S estimate of an inter block, which counts with `ff_h263_rl_inter`. -/
def altVlcEstimate (ctx : BlockEncodeContext) (block : Fin 64 → Int) (lastIndex : Int) :
    AltVlcCount :=
  (List.range' 0 (lastIndex + 1).toNat).foldl (altVlcStep ctx ctx.rlInter block lastIndex)
    ⟨0, 0, -1, -1⟩

theorem h263EncodeBlock_of_inter {ctx : BlockEncodeContext} (block : Fin 64 → Int)
    (lastIndex : Int) (pb : PutBitContext) (inter : ctx.mbIntra = false) :
    h263EncodeBlock ctx block lastIndex pb =
      (acLoop ctx (if ctx.altInterVlc = true ∧
          (altVlcEstimate ctx block lastIndex).aicVlcBits <
            (altVlcEstimate ctx block lastIndex).interVlcBits ∧
          63 < (altVlcEstimate ctx block lastIndex).wrongPos
        then ctx.rlIntraAic else ctx.rlInter) block lastIndex 0 pb, block) := by
  simp only [h263EncodeBlock, altVlcEstimate, inter]
  by_cases alt : ctx.altInterVlc <;> simp [alt]

@[simp] theorem acLoop_withAltInterVlc (ctx : BlockEncodeContext) (alt : Bool) :
    acLoop { ctx with altInterVlc := alt } = acLoop ctx := rfl

@[simp] theorem altVlcEstimate_withAltInterVlc (ctx : BlockEncodeContext) (alt : Bool) :
    altVlcEstimate { ctx with altInterVlc := alt } = altVlcEstimate ctx := rfl

/-- **The alternative inter VLC never lengthens a block.** For every inter block whose
coefficients are below 128 in magnitude (outside FLV 2), `h263_encode_block` with
`alt_inter_vlc` writes at most as many bits as without it: its estimate counts exactly
the bits the coefficient loop writes with each table, and it takes `ff_rl_intra_aic` only
when that count is smaller. -/
theorem h263EncodeBlock_altInterVlc_le (ctx : BlockEncodeContext) (block : Fin 64 → Int)
    (lastIndex : Int) (pb : PutBitContext) (inter : ctx.mbIntra = false)
    (noFlv2 : ctx.flv2 = false) (small : ∀ j, (block j).natAbs < 128) :
    (h263EncodeBlock { ctx with altInterVlc := true } block lastIndex pb).1.bits.length ≤
      (h263EncodeBlock { ctx with altInterVlc := false } block lastIndex pb).1.bits.length := by
  have counted := fun (rl : RlEncTable) select selects =>
    foldl_acStep_length rl lastIndex noFlv2 small select selects
      (List.range' 0 (lastIndex + 1).toNat) (-1, pb) ⟨0, 0, -1, -1⟩ rfl
  have interBits := counted ctx.rlInter AltVlcCount.interVlcBits
    (fun count i => (altVlcStep_spec ctx ctx.rlInter block lastIndex count i).1)
  have aicBits := counted ctx.rlIntraAic AltVlcCount.aicVlcBits
    (fun count i => (altVlcStep_spec ctx ctx.rlInter block lastIndex count i).2.1)
  rw [@h263EncodeBlock_of_inter { ctx with altInterVlc := true } block lastIndex pb inter,
    @h263EncodeBlock_of_inter { ctx with altInterVlc := false } block lastIndex pb inter]
  simp only [acLoop_withAltInterVlc, altVlcEstimate_withAltInterVlc, Bool.false_eq_true,
    false_and, if_false, true_and]
  split_ifs with shorter
  · simp only [acLoop, Int.cast_ofNat, CharP.cast_eq_zero, zero_sub, sub_zero] at interBits aicBits ⊢
    unfold altVlcEstimate at shorter
    omega
  · exact le_rfl

/-- A context for the witnesses: an inter block, the identity scan, and two small tables.
The inter table has a 3-bit code for `(last = 0, run = 0, level = 1)` and a 7-bit escape.
The AIC table has a 1-bit code for `(run = 0, level = 1)`, code 67 of `ff_rl_intra_aic`,
over which a decoder with the inter table would advance 41 positions. -/
def twoTableContext : BlockEncodeContext where
  mbIntra := false
  h263Aic := false
  altInterVlc := false
  flv2 := false
  flv2EncodeAcEsc := fun _ _ _ _ => []
  rlInter := ⟨1, fun code => if code = 0 then (2, 3) else (3, 7),
    fun last run level => if !last ∧ run = 0 ∧ level = 1 then 0 else 1⟩
  rlIntraAic := ⟨102, fun code => if code = 67 then (1, 1) else (3, 7),
    fun _ run level => if run = 0 ∧ level = 1 then 67 else 102⟩
  scan := fun i => ⟨i % 64, Nat.mod_lt _ (by decide)⟩

/-- A block with a coefficient of 1 at position 0 and of -1 at position 1. -/
def twoCoefficientBlock (j : Fin 64) : Int :=
  if j.val = 0 then 1 else if j.val = 1 then -1 else 0

/-- The estimate takes `ff_rl_intra_aic` for this block (4 bits against 26, and a wrong
decoder past position 63), which writes 4 bits where the inter table writes 26. -/
theorem h263EncodeBlock_altInterVlc_le_twoCoefficients :
    twoTableContext.mbIntra = false ∧ twoTableContext.flv2 = false ∧
      (∀ j, (twoCoefficientBlock j).natAbs < 128) ∧
      (altVlcEstimate twoTableContext twoCoefficientBlock 1).aicVlcBits <
        (altVlcEstimate twoTableContext twoCoefficientBlock 1).interVlcBits ∧
      63 < (altVlcEstimate twoTableContext twoCoefficientBlock 1).wrongPos ∧
      (h263EncodeBlock { twoTableContext with altInterVlc := true } twoCoefficientBlock 1
          ⟨[]⟩).1.bits.length ≤
        (h263EncodeBlock { twoTableContext with altInterVlc := false } twoCoefficientBlock 1
          ⟨[]⟩).1.bits.length :=
  ⟨rfl, rfl, by decide, by decide, by decide,
    h263EncodeBlock_altInterVlc_le twoTableContext twoCoefficientBlock 1 ⟨[]⟩ rfl rfl (by decide)⟩

example :
    (h263EncodeBlock { twoTableContext with altInterVlc := true } twoCoefficientBlock 1 ⟨[]⟩).1.bits.length = 4 ∧
    (h263EncodeBlock { twoTableContext with altInterVlc := false } twoCoefficientBlock 1 ⟨[]⟩).1.bits.length = 26 := by
  decide

end Librempeg.Avcodec.Ituh263Enc
