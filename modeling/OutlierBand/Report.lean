namespace OutlierBand

inductive Report where
  | invalidInput (text : String)
  | invalidParameter (name reason : String)
  | unknownModel (id : String)
deriving DecidableEq

def Report.message : Report → String
  | invalidInput text => "Invalid input: " ++ text
  | invalidParameter name reason => "Invalid parameter: " ++ name ++ " - " ++ reason
  | unknownModel id => "Unknown model: no fitted model for identifier " ++ id

end OutlierBand
