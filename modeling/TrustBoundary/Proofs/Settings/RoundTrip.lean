import TrustBoundary.Event.StreamRecord
import TrustBoundary.Pipeline.Settings
import TrustBoundary.Proofs.Json.Whole
import TrustBoundary.Protection.KeySettings

/-!
# Settings and stream records are read as they are written

Stream records and the settings of keys and of a pipeline hold texts, truth values, names and
natural numbers, all of which are read back as they are written.  So a whole one comes back from its
text, too, whatever characters its texts hold (`read_text_eq_self`): a tombstone as a tombstone, and
settings from which the same keys are derived.
-/

namespace TrustBoundary

open Json

theorem StreamRecord.reads_toValue (r : StreamRecord) : shape.decoder.Reads r.toValue r := by
  have hvalue : (optionalDecoder textDecoder).Reads (r.value.elim .null .string) r.value := by
    cases r.value with
    | none => exact reads_optionalDecoder_null textDecoder
    | some s => exact reads_optionalDecoder_string s
  have htakes : Takes shape.enterMember shape.blank
      [("topic", .string r.topic), ("key", .string r.key), ("value", r.value.elim .null .string)]
      ⟨some r.topic, some r.key, some r.value⟩ :=
    Shape.takes_cons rfl rfl ((reads_textDecoder r.topic).map _) <|
    Shape.takes_cons rfl rfl ((reads_textDecoder r.key).map _) <|
    Shape.takes_cons rfl rfl (hvalue.map _) <| .nil _
  exact Shape.reads_decoder htakes rfl

theorem Argon2id.Cost.reads_toValue (c : Cost) : shape.decoder.Reads c.toValue c := by
  have htakes : Takes shape.enterMember shape.blank
      [("memory_kib", .ofUInt32 c.memory), ("iterations", .ofUInt32 c.iterations),
        ("parallelism", .ofUInt32 c.parallelism)]
      ⟨some c.memory, some c.iterations, some c.parallelism⟩ :=
    Shape.takes_cons rfl rfl ((reads_uint32Decoder c.memory).map _) <|
    Shape.takes_cons rfl rfl ((reads_uint32Decoder c.iterations).map _) <|
    Shape.takes_cons rfl rfl ((reads_uint32Decoder c.parallelism).map _) <| .nil _
  exact Shape.reads_decoder htakes rfl

theorem KeySettings.reads_toValue (s : KeySettings) : shape.decoder.Reads s.toValue s := by
  have hmode : (choiceDecoder CipherMode.named).Reads (.string s.mode.name) s.mode :=
    reads_choiceDecoder (by cases s.mode <;> rfl)
  have htakes : Takes shape.enterMember shape.blank
      [("secret", .string s.secret), ("salt", .string s.salt), ("mode", .string s.mode.name),
        ("kdf", s.cost.toValue), ("allow_placeholder", .bool s.allowPlaceholder)]
      ⟨some s.secret, some s.salt, some s.mode, some s.cost, some s.allowPlaceholder⟩ :=
    Shape.takes_cons rfl rfl ((reads_textDecoder s.secret).map _) <|
    Shape.takes_cons rfl rfl ((reads_textDecoder s.salt).map _) <|
    Shape.takes_cons rfl rfl (hmode.map _) <|
    Shape.takes_cons rfl rfl (s.cost.reads_toValue.map _) <|
    Shape.takes_cons rfl rfl ((reads_boolDecoder s.allowPlaceholder).map _) <| .nil _
  exact Shape.reads_decoder htakes rfl

theorem PipelineSettings.reads_toValue (s : PipelineSettings) :
    shape.decoder.Reads s.toValue s := by
  have htakes : Takes shape.enterMember shape.blank
      [("ingest_topic", .string s.ingestTopic), ("alert_topic", .string s.alertTopic),
        ("lanes", .ofUInt64 s.lanes), ("lane_capacity", .ofUInt64 s.laneCapacity),
        ("ingest_capacity", .ofUInt64 s.ingestCapacity)]
      ⟨some s.ingestTopic, some s.alertTopic, some s.lanes, some s.laneCapacity,
        some s.ingestCapacity⟩ :=
    Shape.takes_cons rfl rfl ((reads_textDecoder s.ingestTopic).map _) <|
    Shape.takes_cons rfl rfl ((reads_textDecoder s.alertTopic).map _) <|
    Shape.takes_cons rfl rfl ((reads_sizeDecoder s.lanes).map _) <|
    Shape.takes_cons rfl rfl ((reads_sizeDecoder s.laneCapacity).map _) <|
    Shape.takes_cons rfl rfl ((reads_sizeDecoder s.ingestCapacity).map _) <| .nil _
  exact Shape.reads_decoder htakes rfl

/-- Every stream record, all settings of keys and all settings of a pipeline are read from their
texts as they were, and the same keys are derived from what is read. -/
theorem read_text_eq_self :
    (∀ r : StreamRecord, StreamRecord.read r.text = .ok r) ∧
    (∀ s : KeySettings, KeySettings.read s.text = .ok s ∧
      ∀ s', KeySettings.read s.text = .ok s' →
        FieldKey.ofSecret s'.secret = .ofSecret s.secret ∧
        SealedKey.derive s'.secret (Text.utf8 s'.salt) s'.cost =
          SealedKey.derive s.secret (Text.utf8 s.salt) s.cost) ∧
    ∀ s : PipelineSettings, PipelineSettings.read s.text = .ok s := by
  refine ⟨fun r => r.reads_toValue.run, fun s => ?_, fun s => s.reads_toValue.run⟩
  have hread : KeySettings.read s.text = .ok s := s.reads_toValue.run
  refine ⟨hread, fun s' h => ?_⟩
  rw [hread] at h
  obtain rfl := Except.ok.inj h
  exact ⟨rfl, rfl⟩

end TrustBoundary
