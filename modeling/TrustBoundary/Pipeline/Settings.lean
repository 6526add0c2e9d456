import TrustBoundary.Json.Printer
import TrustBoundary.Json.Shape
import TrustBoundary.Steps

/-!
# Settings of the pipeline

The topics it reads and writes, the number of its scoring lanes and the sizes of its queues.
-/

namespace TrustBoundary

open Json

/-- The settings of a pipeline. -/
structure PipelineSettings where
  /-- The topic from which transactions are read. -/
  ingestTopic : String := "transactions"
  /-- The topic to which alerts are written. -/
  alertTopic : String := "risk-alerts"
  /-- The number of lanes that score side by side. -/
  lanes : UInt64 := 4
  /-- How many records wait for each lane. -/
  laneCapacity : UInt64 := 256
  /-- How many records wait at the entrance, and in each of the queues behind it. -/
  ingestCapacity : UInt64 := 1024
deriving DecidableEq

namespace PipelineSettings

/-- Why settings are refused. -/
inductive Fault where
  /-- There is no lane. -/
  | noLanes
  /-- A queue has no room. -/
  | noCapacity
  /-- The alerts have no topic. -/
  | noAlertTopic
  /-- The alerts would come back as transactions. -/
  | sameTopics
deriving DecidableEq

/-- The wording of a fault. -/
def Fault.message : Fault → String
  | noLanes => "lanes must be at least 1"
  | noCapacity => "channel capacities must be at least 1"
  | noAlertTopic => "alert_topic is empty"
  | sameTopics => "alert_topic must differ from ingest_topic"

/-- Refuses settings with which no pipeline can work.  Numbers that are too large are not refused.
-/
def validate (s : PipelineSettings) : Except Fault Unit := do
  if s.lanes = 0 then throw .noLanes
  if s.laneCapacity = 0 ∨ s.ingestCapacity = 0 then throw .noCapacity
  if s.alertTopic.isEmpty then throw .noAlertTopic
  if s.alertTopic = s.ingestTopic then throw .sameTopics

/-- Which settings are not refused. -/
theorem validate_eq_ok_iff {s : PipelineSettings} :
    s.validate = .ok () ↔ s.lanes ≠ 0 ∧ ¬ (s.laneCapacity = 0 ∨ s.ingestCapacity = 0) ∧
      s.alertTopic.isEmpty = false ∧ s.alertTopic ≠ s.ingestTopic := by
  rw [validate]
  simp only [throw_bind, ite_throw_eq_ok_iff, pure_eq_ok_iff, and_true, Bool.not_eq_true, ne_eq]

/-- The JSON object of settings. -/
def toValue (s : PipelineSettings) : Value := .object [
  ("ingest_topic", .string s.ingestTopic),
  ("alert_topic", .string s.alertTopic),
  ("lanes", .ofUInt64 s.lanes),
  ("lane_capacity", .ofUInt64 s.laneCapacity),
  ("ingest_capacity", .ofUInt64 s.ingestCapacity)]

/-- The text of settings. -/
def text (s : PipelineSettings) : String := s.toValue.text

/-- Settings that may still be missing. -/
structure Draft where
  ingestTopic : Option String := none
  alertTopic : Option String := none
  lanes : Option UInt64 := none
  laneCapacity : Option UInt64 := none
  ingestCapacity : Option UInt64 := none

/-- How settings are read; all of them have to be there. -/
def shape : Shape Draft PipelineSettings where
  title := "PipelineConfig"
  members := [
    .of "ingest_topic" textDecoder (·.ingestTopic) fun d v => { d with ingestTopic := some v },
    .of "alert_topic" textDecoder (·.alertTopic) fun d v => { d with alertTopic := some v },
    .of "lanes" sizeDecoder (·.lanes) fun d v => { d with lanes := some v },
    .of "lane_capacity" sizeDecoder (·.laneCapacity) fun d v => { d with laneCapacity := some v },
    .of "ingest_capacity" sizeDecoder (·.ingestCapacity)
      fun d v => { d with ingestCapacity := some v }]
  blank := {}
  complete d := do
    return ⟨← required "ingest_topic" d.ingestTopic, ← required "alert_topic" d.alertTopic,
      ← required "lanes" d.lanes, ← required "lane_capacity" d.laneCapacity,
      ← required "ingest_capacity" d.ingestCapacity⟩

/-- Reads settings from a text. -/
def read (text : String) : Except Json.Error PipelineSettings := shape.decoder.run text

end PipelineSettings

end TrustBoundary
