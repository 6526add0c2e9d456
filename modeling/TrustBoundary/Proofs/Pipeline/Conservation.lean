import TrustBoundary.Proofs.Pipeline.Ending
import TrustBoundary.Proofs.Pipeline.Forwarding
import TrustBoundary.Proofs.Pipeline.Requests

/-!
# Conservation

Every record that is accepted stays in the pipeline until a lane is done with it, and the totals
count each once (`totals_conserved`).
-/

namespace TrustBoundary.Pipeline

variable {p : Plan} {s : State}

/-! ### Records under way -/

/-- How many records a worker has before it and in its hand. -/
def Worker.load (w : Worker) : Nat := w.queue.length + w.hand.toList.length

/-- How many records the lanes have before them and in their hands. -/
def lanesLoad : List Worker → Nat
  | [] => 0
  | w :: lanes => w.load + lanesLoad lanes

theorem Worker.length_content (w : Worker) : w.content.length = w.load := by
  rw [content, load, List.length_append, Nat.add_comm]

theorem Worker.load_le {w : Worker} {capacity : Nat} (h : w.queue.length ≤ capacity) :
    w.load ≤ capacity + 1 := by
  have hhand : w.hand.toList.length ≤ 1 := by
    cases w.hand with
    | none => exact Nat.zero_le 1
    | some r => exact Nat.le_refl 1
  exact Nat.add_le_add h hhand

theorem length_flatMap_content (lanes : List Worker) :
    (lanes.flatMap Worker.content).length = lanesLoad lanes := by
  induction lanes with
  | nil => rfl
  | cons w lanes ih => rw [List.flatMap_cons, List.length_append, w.length_content, ih, lanesLoad]

theorem lanesLoad_le {lanes : List Worker} {capacity : Nat}
    (h : ∀ w ∈ lanes, w.queue.length ≤ capacity) :
    lanesLoad lanes ≤ lanes.length * (capacity + 1) := by
  induction lanes with
  | nil => exact Nat.zero_le _
  | cons w lanes ih =>
    have hw := Worker.load_le (h w List.mem_cons_self)
    have hlanes := ih fun v hv => h v (List.mem_cons_of_mem w hv)
    rw [lanesLoad, List.length_cons, Nat.add_one_mul]
    omega

theorem State.length_pending (s : State) :
    s.pending.length = lanesLoad s.lanes + s.router.load + s.phase.toScore.length := by
  rw [pending, List.length_append, List.length_append, length_flatMap_content,
    s.router.length_content]

theorem Phase.length_toScore_le (phase : Phase) : phase.toScore.length ≤ 1 := by
  cases phase <;> simp [toScore]

/-- No more records are under way than there is room for. -/
theorem Wired.length_pending_le (hw : Wired p s) :
    s.pending.length + s.inbound.waiting.length ≤
      2 * p.ingestCapacity + p.laneCount * (p.laneCapacity + 1) + 2 := by
  have hlanes := lanesLoad_le hw.lane_le
  rw [hw.length_lanes] at hlanes
  have hrouter := Worker.load_le hw.router_le
  have hphase := s.phase.length_toScore_le
  have hinbound := hw.inbound_le
  rw [s.length_pending]
  omega

/-! ### Totals -/

theorem Wired.length_log (hw : Wired p s) :
    s.inbound.log.length = s.inbound.taken + s.inbound.waiting.length := by
  rw [Channel.waiting, List.length_drop]
  have := hw.taken_le
  omega

/-- A record is dropped, or it raises an alert, or neither. -/
theorem countP_dropped_add_le (p : Plan) (rs : List StreamRecord) :
    (rs.countP fun r => p.scorer.score r = .dropped) + (rs.filterMap p.alertFor?).length ≤
      rs.length := by
  have hsplit := rs.length_eq_countP_add_countP fun r => p.scorer.score r = .dropped
  rw [hsplit, List.length_filterMap_eq_countP]
  -- whatever raises an alert is among the records that are not dropped
  refine Nat.add_le_add_left (List.countP_mono_left fun r _ hsome => ?_) _
  obtain ⟨a, ha⟩ := Option.isSome_iff_exists.1 hsome
  simpa using p.score_ne_dropped_of_alertFor? ha

/-- The records that were taken in and that no lane is done with are all under way. -/
theorem Accounts.seen_eq {done : List StreamRecord} (ha : Accounts p s done) (hw : Wired p s) :
    s.totals.seen = s.totals.scored + s.pending.length := by
  have horder := ha.order.perm.length_eq
  rw [List.length_append, List.length_append, hw.length_log, ← ha.seen, ← ha.scored] at horder
  exact (Nat.add_right_cancel horder).symm

/-- Where no record is under way or waits at the entrance, all have been scored. -/
theorem Accounts.totals_of_pending_eq_nil {done : List StreamRecord} (ha : Accounts p s done)
    (hw : Wired p s) (hpending : s.pending = []) (hwaiting : s.inbound.waiting = []) :
    s.totals.seen = s.inbound.log.length ∧ s.totals.scored = s.inbound.log.length ∧
      s.totals.dropped = s.inbound.log.countP fun r => p.scorer.score r = .dropped := by
  have hseen := ha.seen_eq hw
  have hlog := hw.length_log
  have horder := ha.order
  rw [hpending, List.length_nil, Nat.add_zero] at hseen
  rw [hwaiting, List.length_nil, Nat.add_zero, ← ha.seen] at hlog
  rw [hpending, hwaiting, List.append_nil, List.append_nil] at horder
  exact ⟨hlog.symm, hseen.symm.trans hlog.symm, ha.dropped.trans (horder.perm.countP_eq _)⟩

theorem Forwards.forwarded_le_seen {passedOn done : List StreamRecord} (hf : Forwards p s passedOn)
    (ha : Accounts p s done) (hw : Wired p s) : s.totals.forwarded ≤ s.totals.seen := by
  have hle := hf.passed.length_le
  rw [hf.forwarded, ha.seen]
  cases hpass : p.passCapacity with
  | none =>
    rw [hf.idle hpass] at hle
    exact Nat.le_trans hle (Nat.zero_le _)
  | some n =>
    have horder := congrArg List.length (hf.order (by rw [hpass]; rfl))
    rw [hw.length_log] at horder
    simp only [List.length_append] at horder
    omega

/-- Of every pipeline, at all times: the accepted records are those that were taken in and those
that wait at the entrance; those taken in are those that a lane is done with and those under way to
a lane, for which there is only so much room; what became of a record is counted once at most; and
nothing goes wrong between the tasks.  So a pipeline that has come to its end has scored all
accepted records and gives back totals that say so. -/
theorem totals_conserved (p : Plan) (history : List Event) :
    let s := p.after history
    let accepted := p.accepted history
    accepted.length = s.totals.seen + s.inbound.waiting.length ∧
    s.totals.seen =
      s.totals.scored + (s.router.load + lanesLoad s.lanes + s.phase.toScore.length) ∧
    accepted.length ≤
      s.totals.scored + (2 * p.ingestCapacity + p.laneCount * (p.laneCapacity + 1) + 2) ∧
    s.totals.dropped + s.totals.emitted + s.totals.abandoned ≤ s.totals.scored ∧
    s.totals.forwarded ≤ s.totals.seen ∧
    s.mishaps = [] ∧
    (s.phase = .finished →
      s.totals.scored = s.totals.seen ∧
      s.totals.seen = accepted.length ∧
      s.totals.dropped = accepted.countP (fun r => p.scorer.score r = .dropped) ∧
      s.returned = some s.totals) := by
  intro s accepted
  obtain ⟨done, ha⟩ : ∃ done, Accounts p s done := exists_accounts p history
  obtain ⟨passedOn, hf⟩ : ∃ passedOn, Forwards p s passedOn := exists_forwards p history
  have hw : Wired p s := wired_after p history
  have hlog : s.inbound.log = accepted := log_after p history
  have haccepted : accepted.length = s.totals.seen + s.inbound.waiting.length := by
    rw [← hlog, hw.length_log, ha.seen]
  have hseen : s.totals.seen = s.totals.scored + s.pending.length := ha.seen_eq hw
  refine ⟨haccepted, ?_, ?_, ?_, hf.forwarded_le_seen ha hw, hw.no_mishaps, ?_⟩
  · rw [hseen, s.length_pending]
    omega
  · -- what is under way is in a queue or in a hand, and these are bounded
    have hroom := hw.length_pending_le
    omega
  · -- a record that is dropped raises no alert, so none is counted twice
    have hraised := ha.raised_le
    have hone := countP_dropped_add_le p done
    rw [ha.scored, ha.dropped]
    omega
  · -- at the end nothing is under way, so that all counts fall together
    intro hphase
    obtain ⟨hall, hscored, hdropped⟩ :=
      ha.totals_of_pending_eq_nil hw (hw.pending_eq_nil hphase) (hw.waiting_eq_nil hphase)
    rw [hlog] at hall hscored hdropped
    exact ⟨hscored.trans hall.symm, hall, hdropped, (hw.finished hphase).2⟩

theorem totals_conserved_twoAlertsTaken :
    (Plan.narrow.after twoAlertsTaken).phase = .finished ∧
    (Plan.narrow.after twoAlertsTaken).totals.seen = 2 ∧
    (Plan.narrow.after twoAlertsTaken).totals.scored =
      (Plan.narrow.after twoAlertsTaken).totals.seen ∧
    (Plan.narrow.after twoAlertsTaken).returned =
      some (Plan.narrow.after twoAlertsTaken).totals := by
  refine ⟨by decide +kernel, by decide +kernel, ?_⟩
  obtain ⟨-, -, -, -, -, -, hfinished⟩ := totals_conserved .narrow twoAlertsTaken
  obtain ⟨hscored, -, -, hreturned⟩ := hfinished (by decide +kernel)
  exact ⟨hscored, hreturned⟩

end TrustBoundary.Pipeline
