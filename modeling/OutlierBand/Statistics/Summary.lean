import OutlierBand.Statistics.Median
import OutlierBand.Statistics.Spread
import OutlierBand.Statistics.Sum

namespace OutlierBand

open Statistics

inductive Statistic where
  | mean
  | median
deriving DecidableEq

structure Summary where
  centre : Binary64
  dispersion : Binary64
deriving DecidableEq

namespace Statistic

def name : Statistic → String
  | mean => "mean"
  | median => "median"

def ofName? (name : String) : Option Statistic :=
  if name = "mean" then some mean else if name = "median" then some median else none

def ofText (text : String) : Except Fault Statistic :=
  let name := text.map Char.toLower
  match ofName? name with
  | some statistic => .ok statistic
  | none => .error (.statistic name)

def summary (statistic : Statistic) (sum : List Binary64 → Binary64) (column : List Binary64) : Summary :=
  match statistic with
  | mean =>
    ⟨if column = [] then .zero else sum column / .ofNat column.length, (Spread.ofList column).deviation⟩
  | median =>
    let centre := Statistics.median column
    ⟨centre, medianDeviation centre column⟩

theorem ofName?_name (s : Statistic) : ofName? s.name = some s := by cases s <;> rfl

end Statistic

def Samples.summaries (xs : Samples) (statistic : Statistic) : List Summary :=
  xs.columns.map (statistic.summary (xs.layout.sum xs.width))

end OutlierBand
