import OutlierBand.Binary64.Bits
import OutlierBand.Config.Json
import OutlierBand.Session
import OutlierBand.Proofs.SessionHistory
import OutlierBand.Proofs.BandMonotonicity
import OutlierBand.Proofs.OpenBand
import OutlierBand.Proofs.RepeatedRow
import OutlierBand.Proofs.BandEdge
import OutlierBand.Proofs.Isolation
import OutlierBand.Proofs.OverflowGuard
import OutlierBand.Proofs.MagnitudeBound
import OutlierBand.Proofs.RunningMean
import OutlierBand.Proofs.ColumnBounds
import OutlierBand.Proofs.ModerateSamples
import OutlierBand.Proofs.SampleDefects
import OutlierBand.Proofs.FitOutcome
import OutlierBand.Proofs.PredictOutcome
import OutlierBand.Proofs.FitThenPredict
import OutlierBand.Proofs.StoredBands
import OutlierBand.Proofs.MirroredNumbers
import OutlierBand.Proofs.MedianRank
import OutlierBand.Proofs.Reflection
import OutlierBand.Proofs.SeparateFeatures
import OutlierBand.Proofs.MajorityValue
import OutlierBand.Proofs.MedianCover
import OutlierBand.Proofs.ScoreRatios
import OutlierBand.Proofs.MedianSummary
import OutlierBand.Proofs.JsonGrammar
import OutlierBand.Proofs.ConfigDecoding
import OutlierBand.Proofs.WrittenNumber
import OutlierBand.Proofs.WrittenText
import OutlierBand.Proofs.ConfigRoundTrip
import OutlierBand.Proofs.SummationOrder
import OutlierBand.Proofs.MeanAccuracy
import OutlierBand.Proofs.ExactSums
import OutlierBand.Proofs.SpreadRange
import OutlierBand.Proofs.MedianDistribution
import OutlierBand.Proofs.InlierBox
import OutlierBand.Proofs.PredictionViews
import OutlierBand.Proofs.SplitBatch
import OutlierBand.Proofs.EqualBands
import OutlierBand.Proofs.ZeroScale
import OutlierBand.Proofs.MatrixOfRows
import OutlierBand.Proofs.QuotedText
import OutlierBand.Proofs.ReportMessages
import OutlierBand.Proofs.ShortestDecimal
import OutlierBand.Proofs.ReportedNumbers
