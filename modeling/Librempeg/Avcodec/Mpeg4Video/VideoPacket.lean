import Librempeg.Avcodec.Mpeg4Video.PartitionPasses
import Librempeg.Avcodec.Mpeg4Video.Headers

/-!
Contract: the video packet header of libavcodec/mpeg4videodec.c,
`ff_mpeg4_decode_video_packet_header`: the room test, the resync marker, the macroblock
number in `av_log2(mb_num - 1) + 1` bits with its refusal at 0 and at `mb_num`, the
packet's position, its quantiser, the header extension and `decode_new_pred`.

`ff_mpeg4_get_video_packet_prefix_length` (libavcodec/mpeg4video.c) is not in this tree:
its value for the VOP's codes is a field. The sprite trajectory of a GMC S-VOP enters with
its reads and its result.

Owns: the packet header and where an accepted packet starts.

Does not own: the partitions and the texture pass (`Mpeg4Video.PartitionPasses`), the VOP
header (`Mpeg4Video.Headers`).
-/

namespace Librempeg.Avcodec.Mpeg4Video

open Librempeg.Avcodec Librempeg.Avutil

/-- What the video packet header reads besides the header fields: the partitions' context
(`pict_type`, and the picture in macroblocks, so that `mb_num = mb_width * mb_height`),
`new_pred`, the resync marker's prefix length for the VOP's `f_code` and `b_code`, and
`mpeg4_decode_sprite_trajectory` with its reads (negative on error). -/
structure PacketEnv where
  partition : PartitionEnv
  newPred : Bool
  prefixLength : Nat
  spriteTrajectory : GetBitContext → Int × GetBitContext

/-- `s->mb_num`. -/
def PacketEnv.mbNum (env : PacketEnv) : Nat := env.partition.mbWidth * env.partition.mbHeight

end Librempeg.Avcodec.Mpeg4Video
