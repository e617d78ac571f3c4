import Librempeg.Avutil.Common
import Librempeg.Avcodec.Mpeg4Video.SpriteTrajectory
import Librempeg.Avcodec.Mpeg4Video.AverageMotion
import Librempeg.Avcodec.Mpeg4Video.TrajectoryRange
import Librempeg.Avcodec.GetBits
import Librempeg.Avcodec.Mpeg4Video.Resync
import Librempeg.Avcodec.Mpeg4Video.DecodeBlock
import Librempeg.Avcodec.Mpeg4Video.DcPrediction
import Librempeg.Avcodec.Mpeg4Video.Partitions
import Librempeg.Avcodec.Mpeg4Video.PartitionPasses
import Librempeg.Avcodec.Mpeg4Video.Headers
import Librempeg.Avcodec.Mpeg4Video.HeaderBounds
import Librempeg.Avfilter.Speechnorm.Analyze
import Librempeg.Avfilter.Speechnorm.Ring
import Librempeg.Avfilter.Speechnorm.Consume
import Librempeg.Avfilter.Speechnorm.Filter
import Librempeg.Avcodec.Ituh263Enc.CleanQscales
import Librempeg.Avcodec.Mpeg4Video.QuantMatrix
import Librempeg.Avcodec.Mpeg4Video.VopTiming
import Librempeg.Avcodec.Mpeg4Video.ComplexityEstimation
import Librempeg.Avcodec.Mpeg4Video.StudioSlice
import Librempeg.Avcodec.Mpeg4Video.StudioBlock
import Librempeg.Avcodec.Mpeg4Video.VideoPacket
import Librempeg.Avcodec.Mpeg4Video.StudioDpcm
import Librempeg.Avcodec.Mpeg4Video.StudioMacroblock
import Librempeg.Avcodec.Ituh263Enc.Umotion
import Librempeg.Avcodec.Mpeg4Video.DcLevel
import Librempeg.Avcodec.Ituh263Enc.Motion
import Librempeg.Avcodec.Ituh263Enc.EncodeBlock
import Librempeg.Avcodec.Mpeg4Video.AcPrediction
import Librempeg.Avcodec.Ituh263Enc.AicDc
import Librempeg.Avcodec.Mpeg4Video.DecodeMb
import Librempeg.Avcodec.Mpeg4Video.FrameEnd
