import TrustBoundary.Proofs.Pipeline.Conservation
import TrustBoundary.Proofs.Pipeline.Quiescence

/-!
# Isolation

The dispatcher hands every record to the forwarder first and to the router then, through a queue for
each.  So a consumer that takes nothing holds up its own side only, until the queue of this side is
full (`stall_isolation`): at rest the other side has gone on with every record that was taken in,
but for the one with which the dispatcher waits at the full queue.
-/

namespace TrustBoundary.Pipeline

variable {p : Plan} {s : State}

/-! ### The dispatcher at rest -/

/-- At rest the dispatcher has nothing and nothing waits for it, or it waits with a record at the
full queue of the forwarder or of the router. -/
theorem Wired.dispatcher_of_rest (hw : Wired p s) (hstarted : s.IsStarted)
    (hrest : isAtRest p s = true) (hgoing : s.phase ≠ .finished) :
    (s.phase.toForward = [] ∧ s.phase.toScore = [] ∧ s.inbound.waiting = []) ∨
    ((∃ r, s.phase = .forwarding r) ∧ s.forwarder.queue.length = p.ingestCapacity) ∨
    ((∃ r, s.phase = .routing r) ∧ s.router.queue.length = p.ingestCapacity) := by
  have hstep : s.dispatch? p = none := hw.step_eq_none hrest .dispatcher
  obtain hphase | ⟨hphase, -⟩ | ⟨-, h⟩ := State.of_dispatch?_eq_none hstarted hstep
  · exact absurd hphase hgoing
  · have hwaiting : s.inbound.waiting = [] := by
      -- the queues were closed only when the entrance was empty
      refine (hw.closed ?_).1
      rw [hphase]
      rfl
    rw [hphase]
    exact .inl ⟨rfl, rfl, hwaiting⟩
  obtain ⟨hphase, -, -, hwaiting⟩ | ⟨hphase, hfull⟩ | ⟨hphase, hfull⟩ := h
  · rw [hphase]
    exact .inl ⟨rfl, rfl, hwaiting⟩
  · exact .inr (.inl ⟨hphase, Nat.le_antisymm hw.forwarder_le hfull⟩)
  · exact .inr (.inr ⟨hphase, Nat.le_antisymm hw.router_le hfull⟩)

/-- A pipeline at rest that has not come to its end is not stopping. -/
theorem Wired.going_of_rest (hw : Wired p s) (hstarted : s.IsStarted)
    (hrest : isAtRest p s = true) (hgoing : s.phase ≠ .finished) : s.isStopping = false := by
  obtain hphase | hidle | ⟨hstopping, -⟩ := hw.rest_cases hstarted hrest
  · exact absurd hphase hgoing
  · exact hidle.going
  · exact hstopping

/-! ### Either side -/

/-- The forwarder is done with the records that were taken in, but for those that it still has and
the one that the dispatcher has for it. -/
theorem Forwards.length_add {passedOn : List StreamRecord} (hf : Forwards p s passedOn)
    (hw : Wired p s) (hpass : p.passCapacity.isSome = true) :
    passedOn.length + s.forwarder.content.length + s.phase.toForward.length =
      s.inbound.taken := by
  have horder := congrArg List.length (hf.order hpass)
  rw [hw.length_log] at horder
  simp only [List.length_append] at horder
  omega

/-- While its consumer takes records, the forwarder keeps up with the dispatcher. -/
theorem Wired.forwarded_eq_seen (hw : Wired p s) {passedOn done : List StreamRecord}
    (hf : Forwards p s passedOn) (ha : Accounts p s done) (hstarted : s.IsStarted)
    (hrest : isAtRest p s = true) (hgoing : s.phase ≠ .finished) {n : Nat}
    (hpass : p.passCapacity = some n) (hopen : s.passed.isOpen = true)
    (hroom : s.passed.hasRoom n = true) :
    s.totals.forwarded = s.totals.seen ∧
      (s.inbound.waiting ≠ [] → s.router.queue.length = p.ingestCapacity) := by
  have hwait : ¬ (s.isStopping = false ∧ s.WaitsForPassed p) := by
    rintro ⟨-, -, ⟨m, hm, hfull⟩, -⟩
    obtain rfl : n = m := Option.some.inj (hpass.symm.trans hm)
    exact absurd (hroom.symm.trans hfull) nofun
  -- nothing keeps the forwarder waiting, so at rest it has no record
  have hcontent := (hw.forwarder_of_rest hrest hwait).1
  have hstopping := hw.going_of_rest hstarted hrest hgoing
  have hlength := hf.length_add hw (by rw [hpass]; rfl)
  rw [← hf.kept hstopping hopen, ← hf.forwarded, ← ha.seen, hcontent, List.length_nil,
    Nat.add_zero] at hlength
  obtain ⟨hforward, -, hwaiting⟩ | ⟨-, hfull⟩ | ⟨⟨r, hphase⟩, hfull⟩ :=
    hw.dispatcher_of_rest hstarted hrest hgoing
  · rw [hforward] at hlength
    exact ⟨hlength, fun h => absurd hwaiting h⟩
  · -- a dispatcher that waits for the forwarder finds records there
    exact absurd hcontent (Worker.content_ne_nil p.ingestCapacity_pos (Nat.le_of_eq hfull.symm))
  · rw [hphase] at hlength
    exact ⟨hlength, fun _ => hfull⟩

/-- While no lane waits for the consumer of the alerts, the lanes keep up with the dispatcher, but
for the record with which it waits for the forwarder. -/
theorem Wired.scored_eq_seen (hw : Wired p s) {done : List StreamRecord} (ha : Accounts p s done)
    (hstarted : s.IsStarted) (hrest : isAtRest p s = true) (hgoing : s.phase ≠ .finished)
    (hfree : s.alerts.hasRoom p.alertCapacity = true ∨ s.alerts.isOpen = false) :
    s.router.content = [] ∧ (∀ w ∈ s.lanes, w.content = []) ∧
      (s.totals.scored = s.totals.seen ∨
        s.totals.scored + 1 = s.totals.seen ∧ (∃ r, s.phase = .forwarding r) ∧
          s.forwarder.queue.length = p.ingestCapacity) := by
  have hwait : ¬ (s.isStopping = false ∧ s.WaitsForAlerts p) := by
    rintro ⟨-, hopen, hfull, -⟩
    obtain hroom | hgone := hfree
    · exact absurd (hroom.symm.trans hfull) nofun
    · exact absurd (hopen.symm.trans hgone) nofun
  -- no lane is kept waiting, so neither the router nor a lane has a record
  have hrouter := (hw.router_of_rest hrest hwait).1
  have hlanes : ∀ w ∈ s.lanes, w.content = [] :=
    fun w hmem => (hw.lane_of_rest hrest hwait hmem).1
  have hseen : s.totals.seen = s.totals.scored + s.phase.toScore.length := by
    rw [ha.seen_eq hw, State.pending, List.flatMap_eq_nil_iff.2 hlanes, hrouter]
    rfl
  refine ⟨hrouter, hlanes, ?_⟩
  obtain ⟨-, hscore, -⟩ | ⟨⟨r, hphase⟩, hfull⟩ | ⟨-, hfull⟩ :=
    hw.dispatcher_of_rest hstarted hrest hgoing
  · rw [hscore] at hseen
    exact .inl hseen.symm
  · -- the dispatcher holds the only record that is under way to a lane
    rw [hphase] at hseen
    exact .inr ⟨hseen.symm, ⟨r, hphase⟩, hfull⟩
  · exact absurd hrouter (Worker.content_ne_nil p.ingestCapacity_pos (Nat.le_of_eq hfull.symm))

/-- Of every started pipeline with a pass-through consumer that rests and has not come to its end:
when this consumer is there and has room, every record that was taken in is in its channel, and
records wait at the entrance only behind the full queue of the router.  When the consumer of the
alerts has room or is gone, no record is on its way to a lane, and every record that was taken in is
scored, but for the one with which the dispatcher may wait at the full queue of the forwarder.

Such a pipeline is not stopping, so that nothing need be said of stops. -/
theorem stall_isolation (p : Plan) (history : List Event) {n : Nat}
    (hpass : p.passCapacity = some n) (hstarted : (p.after history).IsStarted)
    (hrest : isAtRest p (p.after history) = true)
    (hgoing : (p.after history).phase ≠ .finished) :
    let s := p.after history
    (s.passed.isOpen = true → s.passed.hasRoom n = true →
      s.totals.forwarded = s.totals.seen ∧
      (s.inbound.waiting ≠ [] → s.router.queue.length = p.ingestCapacity)) ∧
    (s.alerts.hasRoom p.alertCapacity = true ∨ s.alerts.isOpen = false →
      s.router.content = [] ∧ (∀ w ∈ s.lanes, w.content = []) ∧
      (s.totals.scored = s.totals.seen ∨
        s.totals.scored + 1 = s.totals.seen ∧ (∃ r, s.phase = .forwarding r) ∧
          s.forwarder.queue.length = p.ingestCapacity)) := by
  intro s
  obtain ⟨done, ha⟩ : ∃ done, Accounts p s done := exists_accounts p history
  obtain ⟨passedOn, hf⟩ : ∃ passedOn, Forwards p s passedOn := exists_forwards p history
  have hw : Wired p s := wired_after p history
  exact ⟨hw.forwarded_eq_seen hf ha hstarted hrest hgoing hpass,
    hw.scored_eq_seen ha hstarted hrest hgoing⟩

/-- Seven records without a value, one after the other: one more than there is room for behind the
dispatcher of a narrow plan when nobody takes what is passed through. -/
def forwarderStalled : List Event :=
  .act .start ::
    (List.replicate 7 (.act (.send tombstone) :: (Plan.narrowPassing 1).turns)).flatten

theorem stall_isolation_forwarderStalled :
    ((Plan.narrowPassing 1).after forwarderStalled).totals.seen = 7 ∧
    ((Plan.narrowPassing 1).after forwarderStalled).totals.forwarded = 1 ∧
    ((Plan.narrowPassing 1).after forwarderStalled).totals.scored = 6 ∧
    ((Plan.narrowPassing 1).after forwarderStalled).forwarder.queue.length = 4 := by
  have hseen : ((Plan.narrowPassing 1).after forwarderStalled).totals.seen = 7 := by
    decide +kernel
  have hscored : ((Plan.narrowPassing 1).after forwarderStalled).totals.scored = 6 := by
    decide +kernel
  have hsides := stall_isolation (.narrowPassing 1) forwarderStalled rfl
    ⟨by decide +kernel, by decide +kernel⟩ (by decide +kernel) (by decide +kernel)
  obtain ⟨-, -, hall | ⟨-, -, hfull⟩⟩ := hsides.2 (.inl (by decide +kernel))
  · rw [hseen, hscored] at hall
    cases hall
  · exact ⟨hseen, by decide +kernel, hscored, hfull⟩

end TrustBoundary.Pipeline
