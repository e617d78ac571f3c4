import Librempeg.Avutil.Common
import Librempeg.Avcodec.Mpeg4Video.DcPrediction

/-!
Contract: the intra DC path of `ff_h263_encode_mb` under advanced intra coding (H.263
Annex I) and `h263_pred_dc` (libavcodec/ituh263enc.c): the DC prediction from the left
and top neighbours with the 1024 sentinel at the slice edge, the quantisation of the
difference, its reconstruction (made odd and clipped to `[0, 2047]`) and the store of the
reconstruction in `dc_val` for the blocks after it.

`dc_val` has the layout of the MPEG-4 decoder's (`block_index` of libavcodec/mpegvideo.c,
not in this tree): an entry is a `DcSlot`. Entries of a macroblock that is not intra are
set back to 1024 by `ff_clean_intra_table_entries` (libavcodec/mpegvideo.c, not in this
tree), which enters as a call.

Owns: that every entry of `dc_val` is the sentinel 1024 or a reconstruction in
`[0, 2047]` that is 0 or odd, so never the sentinel, over any run of macroblocks
(`aicRun_stored`), which is what makes the prediction lie in `[0, 2047]` as the code
assumes.

Does not own: the block's AC coefficients, the macroblock header and the tables it
writes, `h263_encode_block`.
-/

namespace Librempeg.Avcodec.Ituh263Enc

open Librempeg.Avutil Librempeg.Avcodec.Mpeg4Video

/-- What `h263_pred_dc` and the intra DC path of `ff_h263_encode_mb` read of the encoder
context. -/
structure AicContext where
  mbX : Nat
  mbY : Nat
  resyncMbX : Nat
  firstSliceLine : Bool
  yDcScale : Int
  cDcScale : Int
  modifiedQuant : Bool

/-- `y_dc_scale` for the luma blocks, `c_dc_scale` for the chroma ones. -/
def AicContext.scale (ctx : AicContext) (n : Fin 6) : Int :=
  if n.val < 4 then ctx.yDcScale else ctx.cDcScale

/-- `h263_pred_dc(s, n, &dc_ptr)`: the mean of the left (`a`) and top (`c`) neighbours,
or the one of them that is not 1024. On the slice's first line the top neighbour of
blocks 0, 1, 4, 5 and, at the slice's start column, the left one of blocks 0, 2, 4, 5
are 1024. The entry it returns in `dc_ptr` is the block's `dcSlot`. -/
def h263PredDc (ctx : AicContext) (dcVal : DcSlot → Int) (n : Fin 6) : Int :=
  let slot := dcSlot ctx.mbX ctx.mbY n
  let a := dcVal (slot.shift (-1) 0)
  let c := dcVal (slot.shift 0 (-1))
  let c := if ctx.firstSliceLine ∧ n ≠ 3 then (if n ≠ 2 then 1024 else c) else c
  let a :=
    if ctx.firstSliceLine ∧ n ≠ 3 then (if n ≠ 1 ∧ ctx.mbX = ctx.resyncMbX then 1024 else a)
    else a
  if a ≠ 1024 ∧ c ≠ 1024 then (a + c) >>> (1 : Nat) else if a ≠ 1024 then a else c

/-- One block of the intra DC path under `h263_aic`, from the block's DC `dc`: the
quantised level (the new `block[i][0]`), the reconstruction `rec_intradc[i]`, and
`dc_val` with the reconstruction stored. `level`, `pred_dc` and `rec_intradc` are
`int16_t`; the source writes the quantisation out as the body of `ROUNDED_DIV`. -/
def aicDcBlock (ctx : AicContext) (dcVal : DcSlot → Int) (n : Fin 6) (dc : Int) :
    Int × Int × (DcSlot → Int) :=
  let scale := ctx.scale n
  let predDc := toInt16 (h263PredDc ctx dcVal n)
  let level := toInt16 (dc - predDc)
  let level := toInt16 (roundedDiv level scale)
  let level :=
    if !ctx.modifiedQuant then (if level < -127 then -127 else if level > 127 then 127 else level)
    else level
  let recIntradc := toInt16 (scale * level + predDc)
  let recIntradc := Int.lor recIntradc 1
  let recIntradc :=
    if recIntradc < 0 then 0 else if recIntradc > 2047 then 2047 else recIntradc
  (level, recIntradc, Function.update dcVal (dcSlot ctx.mbX ctx.mbY n) recIntradc)

/-- The intra DC path of `ff_h263_encode_mb` under `h263_aic` for the six blocks in order,
from their DCs: the levels, the reconstructions and `dc_val` after them. -/
def aicIntraMb (ctx : AicContext) (dcVal : DcSlot → Int) (dcs : Fin 6 → Int) :
    (Fin 6 → Int) × (Fin 6 → Int) × (DcSlot → Int) :=
  (List.finRange 6).foldl (fun state i =>
    let block := aicDcBlock ctx state.2.2 i (dcs i)
    (Function.update state.1 i block.1, Function.update state.2.1 i block.2.1, block.2.2))
    (dcs, dcs, dcVal)

/-- What changes `dc_val` between macroblocks of the encoder: an intra macroblock coded
under `h263_aic`, or an entry set back to 1024. -/
inductive AicCall
  | intraMb (ctx : AicContext) (dcs : Fin 6 → Int)
  | clean (slot : DcSlot)

/-- `dc_val` after a call. -/
def AicCall.step : AicCall → (DcSlot → Int) → (DcSlot → Int)
  | .intraMb ctx dcs, dcVal => (aicIntraMb ctx dcVal dcs).2.2
  | .clean slot, dcVal => Function.update dcVal slot 1024

/-- `dc_val` after a run of calls. -/
def aicRun (calls : List AicCall) (dcVal : DcSlot → Int) : DcSlot → Int :=
  calls.foldl (fun dcVal call => call.step dcVal) dcVal

/-! ### The store -/

/-- A reconstruction as the encoder stores it: in `[0, 2047]`, and 0 or odd. -/
def StoredDc (value : Int) : Prop :=
  0 ≤ value ∧ value ≤ 2047 ∧ (value = 0 ∨ value % 2 = 1)

/-- Every entry of `dc_val` is the sentinel or a stored reconstruction. -/
def AicDcStored (dcVal : DcSlot → Int) : Prop :=
  ∀ slot, dcVal slot = 1024 ∨ StoredDc (dcVal slot)

theorem storedDc_clip (value : Int) :
    StoredDc (if Int.lor value 1 < 0 then 0 else if Int.lor value 1 > 2047 then 2047
      else Int.lor value 1) := by
  have odd := emod_two_eq_bodd value
  rw [lor_one]
  unfold StoredDc
  cases parity : value.bodd <;> simp only [parity, if_true, if_false, Bool.false_eq_true] at odd ⊢ <;>
    split_ifs <;> omega

theorem AicDcStored.update {dcVal : DcSlot → Int} (stored : AicDcStored dcVal) (slot : DcSlot)
    {value : Int} (valueOk : value = 1024 ∨ StoredDc value) :
    AicDcStored (Function.update dcVal slot value) := by
  intro entry
  by_cases same : entry = slot
  · subst same; simpa using valueOk
  · simpa [same] using stored entry

theorem AicDcStored.mem {dcVal : DcSlot → Int} (stored : AicDcStored dcVal) (slot : DcSlot) :
    0 ≤ dcVal slot ∧ dcVal slot ≤ 2047 := by
  rcases stored slot with sentinel | ⟨low, high, -⟩ <;> omega

theorem h263PredDc_mem {dcVal : DcSlot → Int} (stored : AicDcStored dcVal) (ctx : AicContext)
    (n : Fin 6) : 0 ≤ h263PredDc ctx dcVal n ∧ h263PredDc ctx dcVal n ≤ 2047 := by
  have left := stored.mem ((dcSlot ctx.mbX ctx.mbY n).shift (-1) 0)
  have top := stored.mem ((dcSlot ctx.mbX ctx.mbY n).shift 0 (-1))
  simp only [h263PredDc, shiftRight_eq_ediv]
  split_ifs <;> omega

theorem aicDcBlock_stored {dcVal : DcSlot → Int} (stored : AicDcStored dcVal) (ctx : AicContext)
    (n : Fin 6) (dc : Int) : AicDcStored (aicDcBlock ctx dcVal n dc).2.2 := by
  dsimp only [aicDcBlock]
  exact stored.update _ (.inr (storedDc_clip _))

theorem aicIntraMb_stored {dcVal : DcSlot → Int} (stored : AicDcStored dcVal) (ctx : AicContext)
    (dcs : Fin 6 → Int) : AicDcStored (aicIntraMb ctx dcVal dcs).2.2 := by
  unfold aicIntraMb
  replace stored : AicDcStored (dcs, dcs, dcVal).2.2 := stored
  generalize (dcs, dcs, dcVal) = state at stored ⊢
  generalize List.finRange 6 = blocks
  induction blocks generalizing state with
  | nil => exact stored
  | cons i blocks ih => exact ih _ (aicDcBlock_stored stored ctx i (dcs i))

/-- **`dc_val` never holds a reconstruction equal to the sentinel.** Over any run of
intra macroblocks coded under AIC and of entries set back to 1024, from a `dc_val` whose
entries are all 1024 or stored reconstructions, every entry stays 1024 or a value in
`[0, 2047]` that is 0 or odd, so `h263_pred_dc`'s test against 1024 never takes a
neighbour for missing, and every prediction lies in `[0, 2047]`. -/
theorem aicRun_stored (calls : List AicCall) {dcVal : DcSlot → Int}
    (stored : AicDcStored dcVal) :
    AicDcStored (aicRun calls dcVal) ∧
      ∀ ctx n, 0 ≤ h263PredDc ctx (aicRun calls dcVal) n ∧
        h263PredDc ctx (aicRun calls dcVal) n ≤ 2047 := by
  have final : AicDcStored (aicRun calls dcVal) := by
    induction calls generalizing dcVal with
    | nil => exact stored
    | cons call calls ih =>
      refine ih ?_
      cases call with
      | intraMb ctx dcs => exact aicIntraMb_stored stored ctx dcs
      | clean slot => exact stored.update slot (.inl rfl)
  exact ⟨final, h263PredDc_mem final⟩

theorem aicDcStored_sentinel : AicDcStored fun _ => 1024 := fun _ => .inl rfl

/-- The first macroblock of a slice with DC scale 8: both neighbours are the sentinel. -/
def sliceStartContext : AicContext := ⟨0, 0, 0, true, 8, 8, false⟩

theorem aicRun_stored_fromSentinel :
    AicDcStored (fun _ => 1024) ∧
      (AicDcStored (aicRun [.intraMb sliceStartContext fun _ => 100]
          fun _ => 1024) ∧
        ∀ ctx n, 0 ≤ h263PredDc ctx (aicRun [.intraMb sliceStartContext fun _ => 100]
            fun _ => 1024) n ∧
          h263PredDc ctx (aicRun [.intraMb sliceStartContext fun _ => 100]
            fun _ => 1024) n ≤ 2047) :=
  ⟨aicDcStored_sentinel, aicRun_stored _ aicDcStored_sentinel⟩

end Librempeg.Avcodec.Ituh263Enc
