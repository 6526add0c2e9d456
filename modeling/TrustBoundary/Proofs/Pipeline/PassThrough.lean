import TrustBoundary.Proofs.Pipeline.Ending
import TrustBoundary.Proofs.Pipeline.Forwarding
import TrustBoundary.Proofs.Pipeline.Requests

/-!
# What is passed through

The pass-through consumer is given the accepted records as they are and in the order in which they
were accepted, whatever becomes of the alerts (`passed_in_order`).  Only a stop and the loss of the
consumer leave records out.
-/

namespace TrustBoundary.Pipeline

variable {p : Plan} {s : State} {passedOn : List StreamRecord}

namespace Forwards

/-- The forwarder is done with the oldest of the accepted records. -/
theorem passedOn_prefix (hf : Forwards p s passedOn) : passedOn <+: s.inbound.log := by
  cases hpass : p.passCapacity with
  | none =>
    rw [hf.idle hpass]
    exact List.nil_prefix
  | some n => exact ⟨_, hf.order (by rw [hpass]; rfl)⟩

/-- At the end the forwarder is done with all accepted records. -/
theorem eq_log_of_finished (hf : Forwards p s passedOn) (hw : Wired p s)
    (hpass : p.passCapacity.isSome = true) (hphase : s.phase = .finished) :
    passedOn = s.inbound.log := by
  have hended := (State.workersEnded_iff.1 (hw.finished hphase).1).1
  have horder := hf.order hpass
  rwa [(hw.forwarder_end hended).2, hw.waiting_eq_nil hphase, hphase, Phase.toForward,
    List.append_nil, List.append_nil, List.append_nil] at horder

end Forwards

/-- Of every pipeline, at all times: the records in the channel of the pass-through consumer, those
that it has taken among them, are some of the accepted records, in the order of acceptance, and the
totals tell how many.  They are the first of these unless the pipeline is stopping, which it does
only when a stop was asked for or the handle is lost, or the consumer is gone.  Where neither was so
when the pipeline came to its end, they are all of these; later events do not change this.  Nothing
of it depends on what the records score or on the consumer of the alerts. -/
theorem passed_in_order (p : Plan) (history : List Event) :
    let s := p.after history
    let accepted := p.accepted history
    s.passed.log.Sublist accepted ∧
    s.totals.forwarded = s.passed.log.length ∧
    (.act .stop ∉ history → s.hasHandle = true → s.isStopping = false) ∧
    (s.isStopping = false → s.passed.isOpen = true → s.passed.log <+: accepted) ∧
    (p.passCapacity.isSome = true → s.phase = .finished → s.isStopping = false →
      s.passed.isOpen = true → ∀ events,
        (p.after (history ++ events)).passed.log = p.accepted (history ++ events)) := by
  intro s accepted
  obtain ⟨passedOn, hf⟩ : ∃ passedOn, Forwards p s passedOn := exists_forwards p history
  have hw : Wired p s := wired_after p history
  have hlog : s.inbound.log = accepted := log_after p history
  refine ⟨?_, hf.forwarded, isStopping_eq_false p, ?_, ?_⟩
  · rw [← hlog]
    exact hf.passed.trans hf.passedOn_prefix.sublist
  · intro hgoing hopen
    -- nobody gave a record up, so those passed on are all that the forwarder is done with
    rw [hf.kept hgoing hopen, ← hlog]
    exact hf.passedOn_prefix
  · -- nothing was lost, and the forwarder is done with all records
    intro hpass hphase hgoing hopen events
    have hkeeps : s.Keeps (p.after (history ++ events)) := keeps_after p hphase events
    rw [← log_after p (history ++ events), hkeeps.inbound, hkeeps.passed]
    exact (hf.kept hgoing hopen).trans (hf.eq_log_of_finished hw hpass hphase)

/-- A record without a value and one that raises an alert are passed through, and the pipeline comes
to its end. -/
def bothPassed : List Event :=
  [.act .start, .act (.send tombstone), .act (.send largeAmount)] ++
    (Plan.narrowPassing 2).turns ++ .act .closeInbound ::
      ((Plan.narrowPassing 2).turns ++ (Plan.narrowPassing 2).turns)

theorem passed_in_order_bothPassed :
    ((Plan.narrowPassing 2).after bothPassed).phase = .finished ∧
    (Plan.narrowPassing 2).accepted bothPassed = [tombstone, largeAmount] ∧
    ((Plan.narrowPassing 2).after bothPassed).passed.log = [tombstone, largeAmount] ∧
    ((Plan.narrowPassing 2).after bothPassed).totals.forwarded = 2 := by
  have hphase : ((Plan.narrowPassing 2).after bothPassed).phase = .finished := by decide +kernel
  have haccepted : (Plan.narrowPassing 2).accepted bothPassed = [tombstone, largeAmount] := by
    decide +kernel
  obtain ⟨-, hforwarded, -, -, hfinished⟩ := passed_in_order (.narrowPassing 2) bothPassed
  have hall := hfinished rfl hphase (by decide +kernel) (by decide +kernel) []
  rw [List.append_nil, haccepted] at hall
  rw [hall] at hforwarded
  exact ⟨hphase, haccepted, hall, hforwarded⟩

end TrustBoundary.Pipeline
