import Mathlib

/-!
Contract: `ff_mpeg4_frame_end` (libavcodec/mpeg4videodec.c), the detection of packed
B-frames: after a frame of a DivX 5.01+ stream with packed B-frames, the decoder scans the
rest of the packet byte by byte for a VOP start code `00 00 01 B6` and, when the first one
it meets codes an I- or B-VOP, keeps the packet from the end of the decoded frame as the
bitstream buffer the next call decodes.

`av_buffer_replace` (libavutil/buffer.c) is not in this tree; its allocation failure is
left out, and the saved buffer is the bytes it would hold.

Owns: the scan with its bounds and its `break`, the start position, and the statement
that the scan finds exactly the first VOP start code after the frame.
-/

namespace Librempeg.Avcodec.Mpeg4Video

/-- `buf[i] == 0 && buf[i + 1] == 0 && buf[i + 2] == 1 && buf[i + 3] == 0xB6`: a VOP start
code at byte `i`. -/
def vopStartCodeAt (buf : List UInt8) (i : Nat) : Bool :=
  buf.getD i 0 == 0 && buf.getD (i + 1) 0 == 0 && buf.getD (i + 2) 0 == 1 &&
    buf.getD (i + 3) 0 == 0xB6

/-- `for (i = current_pos; i < buf_size - 4; i++) if (<start code at i>) { startcode_found
= !(buf[i + 4] & 0x40); break; }` over the positions `positions`. -/
def scanVopStartCode (buf : List UInt8) : List Nat → Bool
  | [] => false
  | i :: rest =>
      if vopStartCodeAt buf i then buf.getD (i + 4) 0 &&& 0x40 == 0
      else scanVopStartCode buf rest

/-- What `ff_mpeg4_frame_end` reads of the decoder: `divx_packed`, whether the frame was read
from the saved bitstream buffer (`s->gb.buffer == ctx->bitstream_buffer->data`),
`get_bits_count(&s->gb)` and `showed_packed_warning`. -/
structure FrameEndContext where
  divxPacked : Bool
  fromSavedBuffer : Bool
  bitsCount : Nat
  showedPackedWarning : Bool

/-- `current_pos`: 0 after a frame read from the saved buffer, else the byte the reader
stopped in. -/
def FrameEndContext.currentPos (ctx : FrameEndContext) : Nat :=
  if ctx.fromSavedBuffer then 0 else ctx.bitsCount >>> 3

/-- `ff_mpeg4_frame_end(avctx, pkt)`: the bitstream buffer it keeps (`none` for an empty
one) and `showed_packed_warning`. -/
def ffMpeg4FrameEnd (ctx : FrameEndContext) (pkt : List UInt8) : Option (List UInt8) × Bool :=
  if ctx.divxPacked then
    let currentPos := ctx.currentPos
    let startcodeFound :=
      if (pkt.length : Int) - currentPos > 7 then
        scanVopStartCode pkt (List.range' currentPos (pkt.length - 4 - currentPos))
      else false
    if startcodeFound then (some (pkt.drop currentPos), true)
    else (none, ctx.showedPackedWarning)
  else (none, ctx.showedPackedWarning)

/-- The first VOP start code at or after byte `start`, among those the scan can reach (its
coding-type byte inside the packet), codes an I- or B-VOP: bit 6 of `vop_coding_type`'s
byte is clear. -/
def FirstVopIsIOrB (pkt : List UInt8) (start : Nat) : Prop :=
  ∃ i, start ≤ i ∧ i + 4 < pkt.length ∧ vopStartCodeAt pkt i = true ∧
    (∀ j, start ≤ j → j < i → vopStartCodeAt pkt j = false) ∧ pkt.getD (i + 4) 0 &&& 0x40 = 0

theorem scanVopStartCode_range' (pkt : List UInt8) (count : Nat) : ∀ start : Nat,
    scanVopStartCode pkt (List.range' start count) = true ↔
      ∃ i, start ≤ i ∧ i < start + count ∧ vopStartCodeAt pkt i = true ∧
        (∀ j, start ≤ j → j < i → vopStartCodeAt pkt j = false) ∧
        pkt.getD (i + 4) 0 &&& 0x40 = 0 := by
  induction count with
  | zero =>
    intro start
    simp only [List.range'_zero, scanVopStartCode, Bool.false_eq_true, false_iff, not_exists,
      not_and]
    intro i low high
    omega
  | succ count ih =>
    intro start
    simp only [List.range'_succ, scanVopStartCode]
    split_ifs with found
    · constructor
      · intro clear
        exact ⟨start, le_rfl, by omega, found, fun j low high => by omega, by simpa using clear⟩
      · rintro ⟨i, low, -, -, first, clear⟩
        have atStart : i = start := by
          by_contra later
          have := first start le_rfl (by omega)
          rw [found] at this
          cases this
        subst atStart
        simpa using clear
    · rw [ih (start + 1)]
      constructor
      · rintro ⟨i, low, high, code, first, clear⟩
        refine ⟨i, by omega, by omega, code, fun j lowJ highJ => ?_, clear⟩
        rcases Nat.eq_or_lt_of_le lowJ with rfl | later
        · simpa using found
        · exact first j later highJ
      · rintro ⟨i, low, high, code, first, clear⟩
        have notStart : i ≠ start := by
          rintro rfl
          simp [code] at found
        exact ⟨i, by omega, by omega, code, fun j lowJ highJ => first j (by omega) highJ, clear⟩

theorem ffMpeg4FrameEnd_packed (ctx : FrameEndContext) (pkt : List UInt8) :
    ((ffMpeg4FrameEnd ctx pkt).1.isSome ↔
        ctx.divxPacked ∧ ctx.currentPos + 7 < pkt.length ∧ FirstVopIsIOrB pkt ctx.currentPos) ∧
      ∀ saved, (ffMpeg4FrameEnd ctx pkt).1 = some saved → saved = pkt.drop ctx.currentPos := by
  simp only [ffMpeg4FrameEnd]
  by_cases packed : ctx.divxPacked
  · by_cases room : ((pkt.length : Int) - ctx.currentPos > 7)
    · have fits : ctx.currentPos + 7 < pkt.length := by omega
      have scanned := scanVopStartCode_range' pkt (pkt.length - 4 - ctx.currentPos) ctx.currentPos
      simp only [packed, room, if_true, fits, true_and]
      split_ifs with found
      · refine ⟨⟨fun _ => ?_, fun _ => rfl⟩, fun saved kept => (Option.some.inj kept).symm⟩
        obtain ⟨i, low, high, code, first, clear⟩ := scanned.1 found
        exact ⟨i, low, by omega, code, first, clear⟩
      · refine ⟨⟨fun empty => by simp at empty, fun ⟨i, low, high, code, first, clear⟩ => ?_⟩,
          fun saved kept => by simp at kept⟩
        exact absurd (scanned.2 ⟨i, low, by omega, code, first, clear⟩) found
    · have short : ¬ ctx.currentPos + 7 < pkt.length := by omega
      simp [packed, room, short]
  · simp [packed]

/-- A B-VOP (`vop_coding_type` `10`) after the frame keeps the packet from the frame's end;
a P-VOP (`01`) first keeps nothing, whatever follows it. -/
example :
    (ffMpeg4FrameEnd ⟨true, false, 16, false⟩ [0x11, 0x22, 0, 0, 1, 0xB6, 0x80, 0, 0, 0]).1 =
        some [0, 0, 1, 0xB6, 0x80, 0, 0, 0] ∧
      (ffMpeg4FrameEnd ⟨true, true, 0, false⟩ [0, 0, 1, 0xB6, 0x40, 0, 0, 1, 0xB6, 0x80, 0, 0]).1 =
        none := by
  decide

end Librempeg.Avcodec.Mpeg4Video
