import Librempeg.Avcodec.Mpeg4Video.Headers

/-!
Contract: the complexity estimation block of `decode_vol_header` in
libavcodec/mpeg4videodec.c and the bits `decode_vop_header` skips for it. The block keeps
three counters, `cplx_estimation_trash_i`, `_p` and `_b`, in the decoder context; every
flag of an enabled group adds its weight to one of them, a failed marker check rewinds
the reader to `pos` (just after `complexity_estimation_disable`) and clears them
(`no_cplx_est`), as a set disable bit does, and an invalid `estimation_method` leaves them
as they were. Nothing else in the decoder writes them, so an enabled block adds to
whatever the previous VOL header left.

The counters are `int`s that only grow, by at most 100 a header; they are kept as
naturals (an overflow needs over twenty million VOL headers). `check_marker`
(libavcodec/mpegvideodec.h, not in this tree) reads one bit and returns it.

Owns: `CplxTrash` and its flag lists, `decodeCplxEstimation`, how the counters it leaves
depend on the ones it finds, and the VOP header's view of them (`VopEnv.withCplxTrash`).

Does not own: the rest of the VOL header and the VOP header (`Mpeg4Video.Headers`).
-/

namespace Librempeg.Avcodec.Mpeg4Video

open Librempeg.Avcodec

/-- `cplx_estimation_trash_i`, `cplx_estimation_trash_p` and `cplx_estimation_trash_b`:
the bits an I-VOP, a P-VOP and a B-VOP header skip for the estimation data. -/
@[ext] structure CplxTrash where
  i : Nat
  p : Nat
  b : Nat
  deriving DecidableEq, Repr

/-- Which counter a flag adds to. -/
inductive TrashCounter
  | i
  | p
  | b
  deriving DecidableEq, Repr

namespace CplxTrash

/-- The counters of a fresh context, and the ones `no_cplx_est` leaves. -/
instance : Zero CplxTrash := ⟨⟨0, 0, 0⟩⟩

instance : Add CplxTrash := ⟨fun t u => ⟨t.i + u.i, t.p + u.p, t.b + u.b⟩⟩

@[simp] theorem zero_i : (0 : CplxTrash).i = 0 := rfl
@[simp] theorem zero_p : (0 : CplxTrash).p = 0 := rfl
@[simp] theorem zero_b : (0 : CplxTrash).b = 0 := rfl
@[simp] theorem add_i (t u : CplxTrash) : (t + u).i = t.i + u.i := rfl
@[simp] theorem add_p (t u : CplxTrash) : (t + u).p = t.p + u.p := rfl
@[simp] theorem add_b (t u : CplxTrash) : (t + u).b = t.b + u.b := rfl

@[simp] theorem add_zero (t : CplxTrash) : t + 0 = t := by ext <;> simp

/-- `ctx->cplx_estimation_trash_<counter> += amount`. -/
def bump (t : CplxTrash) : TrashCounter → Nat → CplxTrash
  | .i, amount => { t with i := t.i + amount }
  | .p, amount => { t with p := t.p + amount }
  | .b, amount => { t with b := t.b + amount }

theorem bump_add (t u : CplxTrash) (counter : TrashCounter) (amount : Nat) :
    (t + u).bump counter amount = t + u.bump counter amount := by
  cases counter <;> ext <;> simp [bump, Nat.add_assoc]

end CplxTrash

/-- The flags of a group, each with its counter and weight, in the order
`ctx->cplx_estimation_trash_<counter> += weight * get_bits1(gb)` reads them. The shape
group: opaque, transparent, intra_cae, inter_cae, no_update, upsampling. -/
def shapeFlags : List (TrashCounter × Nat) :=
  [(.i, 8), (.i, 8), (.i, 8), (.i, 8), (.i, 8), (.i, 8)]

/-- intra_blocks, inter_blocks, inter4v_blocks, not coded blocks. -/
def blockFlags : List (TrashCounter × Nat) := [(.i, 8), (.p, 8), (.p, 8), (.i, 8)]

/-- dct_coeffs, dct_lines, vlc_syms, vlc_bits. -/
def textureFlags : List (TrashCounter × Nat) := [(.i, 8), (.i, 8), (.i, 8), (.i, 4)]

/-- apm, npm, interpolate_mc_q, forwback_mc_q, halfpel2, halfpel4. -/
def motionFlags : List (TrashCounter × Nat) :=
  [(.p, 8), (.p, 8), (.b, 8), (.p, 8), (.p, 8), (.p, 8)]

/-- sadct and qpel, read for `estimation_method == 1`. -/
def version2Flags : List (TrashCounter × Nat) := [(.i, 8), (.p, 8)]

/-- The flags of a list, read one bit each. -/
def addFlags : List (TrashCounter × Nat) → CplxTrash → GetBitContext → CplxTrash × GetBitContext
  | [], t, gb => (t, gb)
  | (counter, weight) :: flags, t, gb =>
      let flag := gb.getBits1
      addFlags flags (t.bump counter (weight * flag.1.toNat)) flag.2

/-- `if (!get_bits1(gb)) { ... }`: a group of flags behind its disable bit. -/
def flagGroup (flags : List (TrashCounter × Nat)) (t : CplxTrash) (gb : GetBitContext) :
    CplxTrash × GetBitContext :=
  let disabled := gb.getBits1
  if disabled.1 then (t, disabled.2) else addFlags flags t disabled.2

/-- An enabled block from `estimation_method` on: the counters and the reader after the
fields, or the reader after the marker bit of a failed `check_marker`. An invalid method
reads nothing more and keeps the counters. -/
def cplxEstimationFields (t : CplxTrash) (gb : GetBitContext) :
    Except GetBitContext (CplxTrash × GetBitContext) :=
  let method := gb.getBits 2
  if method.1 < 2 then
    let shape := flagGroup shapeFlags t method.2
    let blocks := flagGroup blockFlags shape.1 shape.2
    let marker := blocks.2.getBits1
    if !marker.1 then .error marker.2
    else
      let texture := flagGroup textureFlags blocks.1 marker.2
      let motion := flagGroup motionFlags texture.1 texture.2
      let marker := motion.2.getBits1
      if !marker.1 then .error marker.2
      else if method.1 = 1 then .ok (addFlags version2Flags motion.1 marker.2)
      else .ok (motion.1, marker.2)
  else .ok (t, method.2)

/-- The complexity estimation block of `decode_vol_header`, from the counters the context
holds: a set `complexity_estimation_disable` bit clears them (`no_cplx_est`); a failed
marker check rewinds with `skip_bits_long(gb, pos - get_bits_count(gb))` and clears them. -/
def decodeCplxEstimation (t : CplxTrash) (gb : GetBitContext) : CplxTrash × GetBitContext :=
  let disable := gb.getBits1
  if disable.1 then (0, disable.2)
  else
    let pos := disable.2.index
    match cplxEstimationFields t disable.2 with
    | .ok fields => fields
    | .error gb => (0, gb.skipBitsLong (pos - gb.index))

/-- The context `decode_vop_header` reads the counters from. -/
def VopEnv.withCplxTrash (env : VopEnv) (t : CplxTrash) : VopEnv :=
  { env with cplxEstimationTrashI := t.i, cplxEstimationTrashP := t.p,
             cplxEstimationTrashB := t.b }

/-- Whether the block keeps the counters it finds: it is enabled and no marker check
fails. -/
def cplxEstimationKeeps (gb : GetBitContext) : Bool :=
  !(gb.getBits1).1 && (cplxEstimationFields 0 (gb.getBits1).2).isOk

/-! ### The counters found peel out -/

section Peel

variable (t u : CplxTrash) (gb : GetBitContext)

theorem addFlags_add (flags : List (TrashCounter × Nat)) :
    addFlags flags (t + u) gb = (t + (addFlags flags u gb).1, (addFlags flags u gb).2) := by
  induction flags generalizing u gb with
  | nil => rfl
  | cons flag flags ih => simp only [addFlags, CplxTrash.bump_add, ih]

theorem flagGroup_add (flags : List (TrashCounter × Nat)) :
    flagGroup flags (t + u) gb = (t + (flagGroup flags u gb).1, (flagGroup flags u gb).2) := by
  dsimp only [flagGroup]
  split_ifs
  · rfl
  · exact addFlags_add t u _ flags

theorem cplxEstimationFields_add :
    cplxEstimationFields (t + u) gb =
      (cplxEstimationFields u gb).map fun fields => (t + fields.1, fields.2) := by
  simp only [cplxEstimationFields, flagGroup_add]
  split_ifs <;> simp [Except.map, addFlags_add]

@[simp] theorem addFlags_reader (flags : List (TrashCounter × Nat)) :
    (addFlags flags t gb).2 = gb.skipBits flags.length := by
  induction flags generalizing t gb with
  | nil => rfl
  | cons flag flags ih =>
    simp only [addFlags, ih, GetBitContext.getBits1_snd, GetBitContext.skipBits_skipBits,
      List.length_cons, Nat.add_comm]

theorem flagGroup_reader (flags : List (TrashCounter × Nat)) :
    (flagGroup flags t gb).2 = gb.skipBits (1 + if (gb.getBits1).1 then 0 else flags.length) := by
  dsimp only [flagGroup]
  split_ifs <;> simp [GetBitContext.getBits1_snd]

theorem cplxEstimationFields_error (failed : GetBitContext)
    (fails : cplxEstimationFields t gb = .error failed) :
    ∃ count, failed = gb.skipBits count := by
  simp only [cplxEstimationFields] at fails
  split_ifs at fails <;> cases fails <;>
    simp only [flagGroup_reader, GetBitContext.getBits_snd, GetBitContext.getBits1_snd,
      GetBitContext.skipBits_skipBits] <;> exact ⟨_, rfl⟩

end Peel

theorem decodeCplxEstimation_of_error (t : CplxTrash) (gb failed : GetBitContext)
    (enabled : (gb.getBits1).1 = false)
    (fails : cplxEstimationFields t (gb.skipBits 1) = .error failed) :
    decodeCplxEstimation t gb = (0, gb.skipBits 1) := by
  obtain ⟨count, rfl⟩ := cplxEstimationFields_error t _ failed fails
  simp only [decodeCplxEstimation, enabled, GetBitContext.getBits1_snd, fails,
    GetBitContext.skipBits_skipBitsLong_back, Bool.false_eq_true, if_false]

/-- **The block adds to the counters it finds.** From any counters `t`, the block leaves
`t` plus what it leaves in a fresh context where it keeps them, and clears them with the
reader just after `complexity_estimation_disable` where it does not. -/
theorem decodeCplxEstimation_eq_found (t : CplxTrash) (gb : GetBitContext) :
    decodeCplxEstimation t gb =
      if cplxEstimationKeeps gb then
        (t + (decodeCplxEstimation 0 gb).1, (decodeCplxEstimation 0 gb).2)
      else (0, gb.skipBits 1) := by
  have fields := cplxEstimationFields_add t 0 (gb.skipBits 1)
  rw [CplxTrash.add_zero] at fields
  by_cases disable : (gb.getBits1).1
  · simp [decodeCplxEstimation, cplxEstimationKeeps, disable, GetBitContext.getBits1_snd]
  · cases found : cplxEstimationFields 0 (gb.skipBits 1) with
    | ok r =>
      simp [decodeCplxEstimation, cplxEstimationKeeps, disable, GetBitContext.getBits1_snd,
        fields, found, Except.map, Except.isOk, Except.toBool]
    | error failed =>
      have keeps : cplxEstimationKeeps gb = false := by
        simp [cplxEstimationKeeps, GetBitContext.getBits1_snd, found, Except.isOk, Except.toBool]
      rw [if_neg (by simp [keeps]), decodeCplxEstimation_of_error t gb failed (by simpa using disable)
        (by rw [fields, found]; rfl)]

theorem cplxEstimationTrash_withCplxTrash_add (env : VopEnv) (t u : CplxTrash) (pictType : Nat) :
    cplxEstimationTrash (env.withCplxTrash (t + u)) pictType =
      cplxEstimationTrash (env.withCplxTrash t) pictType +
        cplxEstimationTrash (env.withCplxTrash u) pictType := by
  simp only [cplxEstimationTrash, VopEnv.withCplxTrash, CplxTrash.add_i, CplxTrash.add_p,
    CplxTrash.add_b]
  split_ifs <;> omega

theorem cplxEstimationTrash_withCplxTrash_zero (env : VopEnv) (pictType : Nat) :
    cplxEstimationTrash (env.withCplxTrash 0) pictType = 0 := by
  simp [cplxEstimationTrash, VopEnv.withCplxTrash]

/-- **The counters depend on the VOL headers before.** Whatever counters a context holds,
a VOL header whose estimation block is enabled and passes its marker checks leaves them
plus the ones it leaves in a fresh context, and every later VOP header skips the bits of
both; a disabled block, or one whose marker check fails, clears them with the reader just
after `complexity_estimation_disable`, whatever they were. -/
theorem decodeCplxEstimation_adds_found (t : CplxTrash) (gb : GetBitContext) :
    decodeCplxEstimation t gb =
      (if cplxEstimationKeeps gb then
        (t + (decodeCplxEstimation 0 gb).1, (decodeCplxEstimation 0 gb).2)
      else (0, gb.skipBits 1)) ∧
    ∀ (env : VopEnv) (pictType : Nat),
      cplxEstimationTrash (env.withCplxTrash (decodeCplxEstimation t gb).1) pictType =
        (if cplxEstimationKeeps gb then cplxEstimationTrash (env.withCplxTrash t) pictType else 0) +
          cplxEstimationTrash (env.withCplxTrash (decodeCplxEstimation 0 gb).1) pictType := by
  have found := decodeCplxEstimation_eq_found t gb
  refine ⟨found, fun env pictType => ?_⟩
  have fresh := decodeCplxEstimation_eq_found 0 gb
  rw [found]
  split_ifs at fresh ⊢
  · exact cplxEstimationTrash_withCplxTrash_add env t _ pictType
  · rw [fresh, cplxEstimationTrash_withCplxTrash_zero]

/-- A VOL header with an enabled estimation block of method 0 whose only set flag is
`opaque`. -/
def opaqueOnlyVolBits : GetBitContext :=
  ⟨[false, false, false, false, true, false, false, false, false, false, true, true, true, true,
    true], 0⟩

/-- The header parsed twice leaves twice the counters it leaves once: an I-VOP header
then skips 16 bits where the stream has 8. -/
theorem decodeCplxEstimation_opaqueOnly_twice :
    decodeCplxEstimation 0 opaqueOnlyVolBits = (⟨8, 0, 0⟩, opaqueOnlyVolBits.skipBits 15) ∧
      decodeCplxEstimation (decodeCplxEstimation 0 opaqueOnlyVolBits).1 opaqueOnlyVolBits =
        (⟨16, 0, 0⟩, opaqueOnlyVolBits.skipBits 15) := by
  have once : decodeCplxEstimation 0 opaqueOnlyVolBits =
      (⟨8, 0, 0⟩, opaqueOnlyVolBits.skipBits 15) := by decide
  refine ⟨once, ?_⟩
  rw [(decodeCplxEstimation_adds_found _ opaqueOnlyVolBits).1, once]
  decide

end Librempeg.Avcodec.Mpeg4Video
