import TrustBoundary.Pipeline.Settings

/-!
# Errors of scoring

What can go wrong when records are scored, one by one or in a pipeline.
-/

namespace TrustBoundary

/-- Why no amount is found. -/
inductive AmountFault where
  /-- The text holds no amount. -/
  | noAmount
  /-- The amount is too large for a double. -/
  | notFinite (numeral : String)
deriving DecidableEq

/-- The wording of a fault. -/
def AmountFault.message : AmountFault → String
  | noAmount => "no amount field found"
  | notFinite numeral => "amount is not a finite number: " ++ numeral

/-- What can go wrong in scoring and in its pipeline. -/
inductive RiskError where
  /-- No amount is found in a record. -/
  | streamParse (fault : AmountFault)
  /-- A value cannot be read or written as JSON. -/
  | serialization (e : Json.Error)
  /-- The pipeline is gone. -/
  | channelClosed
  /-- The settings of a pipeline are refused. -/
  | settings (fault : PipelineSettings.Fault)
deriving DecidableEq

/-- The wording of an error. -/
def RiskError.message : RiskError → String
  | streamParse fault => "stream record could not be parsed: " ++ fault.message
  | serialization e => "serialization error: " ++ e.message
  | channelClosed => "risk pipeline not running"
  | settings fault => "invalid configuration: " ++ fault.message

end TrustBoundary
