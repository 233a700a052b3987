import OutlierBand.Decimal.Text
import OutlierBand.Report

namespace OutlierBand

inductive Fault where
  | raggedRow (row length width : Nat)
  | notAMatrix (dimensions : Nat)
  | emptySamples (height width : Nat)
  | nonFinite (value : Binary64) (row column : Nat)
  | overflow (column : Nat)
  | wrongWidth (expected actual : Nat)
  | sensitivity (value : Binary64)
  | deviationScale (value : Binary64)
  | minTolerance (value : Binary64)
  | statistic (name : String)
  | unknownModel (id : String)
deriving DecidableEq

def Fault.report : Fault → Report
  | raggedRow row length width => .invalidInput s!"row {row} has {length} features, expected {width}"
  | notAMatrix dimensions => .invalidInput s!"samples must be a 2-D array, got {dimensions}-D"
  | emptySamples height width =>
    .invalidInput s!"samples must have at least one row and one column, got shape ({height}, {width})"
  | nonFinite value row column => .invalidInput s!"non-finite value {value.text} at row {row}, column {column}"
  | overflow column => .invalidInput s!"samples overflow the band statistics at column {column}"
  | wrongWidth expected actual => .invalidInput s!"expected {expected} features, got {actual}"
  | sensitivity value => .invalidParameter "sensitivity" s!"must be in (0, 1), got {value.text}"
  | deviationScale value => .invalidParameter "deviation_scale" s!"must be finite and non-negative, got {value.text}"
  | minTolerance value => .invalidParameter "min_tolerance" s!"must be finite and positive, got {value.text}"
  | statistic name => .invalidParameter "reference" s!"expected 'mean' or 'median', got '{name}'"
  | unknownModel id => .unknownModel id

end OutlierBand
