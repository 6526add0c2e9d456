import TrustBoundary.Proofs.Pipeline.Moves

/-!
# Wiring

The tasks of a pipeline hang together as they should (`Wired`): in particular no worker ever ends
before those that hand records to it, so that nothing goes wrong between them.

A step of a wired pipeline is a move (`Wired.move_of_step`).  Moves and actions keep the wiring
(`Wired.move`, `Wired.touch`), and so every pipeline is wired at all times (`wired_after`).  To show
that something holds at all times it is enough to show it for moves and for what actions do
(`Wired.after_induction`).
-/

namespace TrustBoundary.Pipeline

/-- A worker is at its end only if `c` holds, and then it has no records. -/
def Worker.EndsOnly (w : Worker) (c : Prop) : Prop := w.hasEnded = true → c ∧ w.content = []

/-- How the tasks of a pipeline hang together: which records are where, how many there are at most,
and that no task ends before those from which it gets its records. -/
structure Wired (p : Plan) (s : State) : Prop where
  length_lanes : s.lanes.length = p.laneCount
  /-- Every record is in the lane of its key. -/
  placed : ∀ (index : Nat) (w : Worker), s.lanes[index]? = some w →
    ∀ r ∈ w.content, State.laneIndex p r = index
  inbound_le : s.inbound.waiting.length ≤ p.ingestCapacity
  forwarder_le : s.forwarder.queue.length ≤ p.ingestCapacity
  router_le : s.router.queue.length ≤ p.ingestCapacity
  lane_le : ∀ w ∈ s.lanes, w.queue.length ≤ p.laneCapacity
  /-- Records that were taken from the entrance were put there before. -/
  taken_le : s.inbound.taken ≤ s.inbound.log.length
  /-- Without a pass-through consumer there is no forwarder. -/
  forwarder_gone : p.passCapacity = none → s.forwarder.hasEnded = true
  forwarding : ∀ r, s.phase = .forwarding r → p.passCapacity.isSome = true
  forwarder_end : s.forwarder.EndsOnly (p.passCapacity = none ∨ s.phase.isClosed = true)
  router_end : s.router.EndsOnly (s.phase.isClosed = true)
  lane_end : ∀ w ∈ s.lanes, w.EndsOnly (s.router.hasEnded = true)
  /-- The dispatcher goes on until no record comes any more. -/
  closed : s.phase.isClosed = true →
    s.inbound.waiting = [] ∧ (s.isStopping = true ∨ s.inbound.isOpen = false)
  finished : s.phase = .finished → s.workersEnded = true ∧ s.returned = some s.totals
  no_mishaps : s.mishaps = []

variable {p : Plan} {s s' : State}

theorem State.workersEnded_iff : s.workersEnded = true ↔
    s.forwarder.hasEnded = true ∧ s.router.hasEnded = true ∧ ∀ w ∈ s.lanes, w.hasEnded = true := by
  simp only [workersEnded, Bool.and_eq_true, List.all_eq_true, and_assoc]

/-- The lane of every record is there. -/
theorem laneIndex_lt (p : Plan) (r : StreamRecord) : State.laneIndex p r < p.laneCount :=
  UInt64.lt_iff_toNat_lt.1 (laneOf_lt (UInt64.lt_iff_toNat_lt.2 p.laneCount_pos))

/-! ### Ends of workers -/

namespace Worker

theorem EndsOnly.mono {w : Worker} {c d : Prop} (h : w.EndsOnly c) (hcd : c → d) : w.EndsOnly d :=
  fun hended => ⟨hcd (h hended).1, (h hended).2⟩

theorem endsOnly_of_going {w : Worker} (c : Prop) (h : w.hasEnded = false) : w.EndsOnly c := by
  intro hended
  rw [h] at hended
  cases hended

/-- A worker that holds a record is not at its end. -/
theorem EndsOnly.going_of_hand {w : Worker} {c : Prop} {r : StreamRecord} (h : w.EndsOnly c)
    (hhand : w.hand = some r) : w.hasEnded = false := by
  cases hended : w.hasEnded with
  | false => rfl
  | true =>
    have hnil := (h hended).2
    rw [content_eq_cons hhand] at hnil
    cases hnil

/-- A worker that receives was not at its end. -/
theorem EndsOnly.going_of_receive {w w' : Worker} {c : Prop} {isClosed : Bool} (h : w.EndsOnly c)
    (hreceive : w.receive? isClosed = some w') : w.hasEnded = false := by
  cases hended : w.hasEnded with
  | false => rfl
  | true =>
    have hqueue : w.queue = [] := (List.append_eq_nil_iff.1 (h hended).2).2
    simp [receive?, hqueue, hended] at hreceive

theorem EndsOnly.receive {w w' : Worker} {c : Prop} {isClosed : Bool} (h : w.EndsOnly c)
    (hc : isClosed = true → c) (hhand : w.hand = none) (hreceive : w.receive? isClosed = some w') :
    w'.EndsOnly c := by
  obtain ⟨hcontent, -, hend⟩ := of_receive?_eq_some hhand hreceive
  intro hended
  obtain hold | ⟨hclosed, hnil⟩ := hend hended
  · exact ⟨(h hold).1, hcontent.trans (h hold).2⟩
  · exact ⟨hc hclosed, hnil⟩

end Worker

/-! ### A step of a wired pipeline is a move -/

namespace Wired

/-- The forwarder goes on as long as the dispatcher has a record for it. -/
theorem forwarder_going (hw : Wired p s) {r : StreamRecord} (hphase : s.phase = .forwarding r) :
    s.forwarder.hasEnded = false := by
  cases hended : s.forwarder.hasEnded with
  | false => rfl
  | true =>
    -- a forwarder that has ended has nobody to forward to, or nothing more to come
    obtain hnone | hclosed := (hw.forwarder_end hended).1
    · have hpass := hw.forwarding r hphase
      rw [hnone] at hpass
      cases hpass
    · rw [hphase] at hclosed
      cases hclosed

/-- The router goes on as long as the queues behind the dispatcher are open. -/
theorem router_going (hw : Wired p s) (hopen : s.phase.isClosed = false) :
    s.router.hasEnded = false := by
  cases hended : s.router.hasEnded with
  | false => rfl
  | true =>
    have hclosed := (hw.router_end hended).1
    rw [hopen] at hclosed
    cases hclosed

theorem move_of_dispatch (hw : Wired p s) (h : s.dispatch? p = some s') : Move p s s' := by
  unfold State.dispatch? at h
  cases hphase : s.phase with
  | receiving =>
    simp only [hphase, Option.orElse_eq_orElse, Option.orElse_eq_or, Option.or_eq_some_iff] at h
    obtain h | ⟨hheed, h | ⟨hempty, h⟩⟩ := h
    · obtain ⟨hgoing, hstop, rfl⟩ := State.heedStop?_eq_some_iff.1 h
      exact .heedStop (by rw [hphase]; rfl) hgoing hstop
    · obtain ⟨r, inbound, htake, rfl⟩ := State.admit?_eq_some_iff.1 h
      exact .takeIn hphase hheed htake
    · simp only [Option.ite_none_right_eq_some, Bool.or_eq_true, Bool.not_eq_true',
        Option.some.injEq] at h
      obtain ⟨hclosed, rfl⟩ := h
      exact .close hphase hheed (State.admit?_eq_none_iff.1 hempty) hclosed
  | forwarding r =>
    -- the forwarder is there, so the record is handed to it or waits for room
    simp only [hphase, hw.forwarder_going hphase, Bool.false_eq_true, if_false] at h
    split at h
    · rename_i forwarder henqueue
      obtain ⟨hroom, rfl⟩ := Worker.enqueue?_eq_some_iff.1 henqueue
      obtain rfl := Option.some.inj h
      exact .handToForwarder hphase hroom
    · obtain ⟨hgoing, hstop, rfl⟩ := State.heedStop?_eq_some_iff.1 h
      exact .heedStop (by rw [hphase]; rfl) hgoing hstop
  | routing r =>
    -- the router is there as well
    have hopen : s.phase.isClosed = false := by rw [hphase]; rfl
    simp only [hphase, hw.router_going hopen, Bool.false_eq_true, if_false] at h
    split at h
    · rename_i router henqueue
      obtain ⟨hroom, rfl⟩ := Worker.enqueue?_eq_some_iff.1 henqueue
      obtain rfl := Option.some.inj h
      exact .handToRouter hphase hroom
    · obtain ⟨hgoing, hstop, rfl⟩ := State.heedStop?_eq_some_iff.1 h
      exact .heedStop hopen hgoing hstop
  | draining =>
    simp only [hphase, Option.ite_none_right_eq_some, Option.some.injEq] at h
    obtain ⟨hended, rfl⟩ := h
    exact .finish hphase hended
  | unstarted | finished | discarded =>
    simp only [hphase] at h
    cases h

theorem move_of_forward (h : s.forward? p = some s') : Move p s s' := by
  unfold State.forward? at h
  cases hhand : s.forwarder.hand with
  | none =>
    simp only [hhand, Option.map_eq_some_iff] at h
    obtain ⟨w, hreceive, rfl⟩ := h
    exact .forwarderReceives hhand hreceive
  | some r =>
    simp only [hhand, Option.bind_eq_bind, Option.bind_eq_some_iff, Option.pure_def,
      Option.some.injEq, Prod.exists] at h
    obtain ⟨d, passed, hdeliver, rfl⟩ := h
    exact .forward hhand hdeliver

/-- The router holds a record only before its end, and the lanes do not end before the router. -/
theorem lane_going (hw : Wired p s) {r : StreamRecord} (hhand : s.router.hand = some r)
    {lane : Worker} (hlane : lane ∈ s.lanes) : lane.hasEnded = false := by
  cases hended : lane.hasEnded with
  | false => rfl
  | true =>
    have hrouter := (hw.lane_end lane hlane hended).1
    rw [hw.router_end.going_of_hand hhand] at hrouter
    cases hrouter

/-- The forwarder takes a record in hand only if there is somebody to pass it on to. -/
theorem isSome_of_hand (hw : Wired p s) {r : StreamRecord} (hhand : s.forwarder.hand = some r) :
    p.passCapacity.isSome = true := by
  cases hpass : p.passCapacity with
  | some n => rfl
  | none =>
    have hgoing := hw.forwarder_end.going_of_hand hhand
    rw [hw.forwarder_gone hpass] at hgoing
    cases hgoing

theorem move_of_route (hw : Wired p s) (h : s.route? p = some s') : Move p s s' := by
  unfold State.route? at h
  cases hhand : s.router.hand with
  | none =>
    simp only [hhand, Option.map_eq_some_iff] at h
    obtain ⟨w, hreceive, rfl⟩ := h
    exact .routerReceives hhand hreceive
  | some r =>
    -- the lane of the record is there, and it goes on as long as the router does
    have hlt : State.laneIndex p r < s.lanes.length := by
      rw [hw.length_lanes]
      exact laneIndex_lt p r
    have hlane := List.getElem?_eq_getElem hlt
    have hgoing := hw.lane_going hhand (List.mem_of_getElem? hlane)
    simp only [hhand, hlane, hgoing, Bool.false_eq_true, if_false, Option.map_eq_some_iff] at h
    obtain ⟨lane', henqueue, rfl⟩ := h
    obtain ⟨hroom, rfl⟩ := Worker.enqueue?_eq_some_iff.1 henqueue
    exact .route hhand hlane hgoing hroom

theorem move_of_score {index : Nat} {lane : Worker} {r : StreamRecord} {t : State}
    (hlane : s.lanes[index]? = some lane) (hhand : lane.hand = some r)
    (h : s.score? p r = some t) : Move p s { t with lanes := s.lanes.set index lane.release } := by
  unfold State.score? at h
  cases houtcome : p.scorer.score r with
  | noAlert | dropped =>
    have hquiet : p.alertFor? r = none := by rw [Plan.alertFor?, houtcome]
    -- a record without an alert is scored and let go
    have hmove := Move.score hlane hhand hquiet
    simp only [houtcome, Option.some.injEq] at h
    subst h
    simpa [houtcome] using hmove
  | alert a =>
    have halert : p.alertFor? r = some (State.alertRecord p r a) := by
      rw [Plan.alertFor?, houtcome]
    simp only [houtcome, Option.bind_eq_bind, Option.bind_eq_some_iff, Option.pure_def,
      Option.some.injEq, Prod.exists] at h
    obtain ⟨d, alerts, hdeliver, rfl⟩ := h
    exact .raise hlane hhand halert hdeliver

theorem move_of_runLane {index : Nat} (h : s.runLane? p index = some s') : Move p s s' := by
  simp only [State.runLane?, Option.bind_eq_bind, Option.bind_eq_some_iff] at h
  obtain ⟨lane, hlane, h⟩ := h
  cases hhand : lane.hand with
  | none =>
    simp only [hhand, Option.bind_eq_some_iff, Option.pure_def, Option.some.injEq] at h
    obtain ⟨w, hreceive, rfl⟩ := h
    exact .laneReceives hlane hhand hreceive
  | some r =>
    simp only [hhand, Option.bind_eq_some_iff, Option.pure_def, Option.some.injEq] at h
    obtain ⟨t, hscore, rfl⟩ := h
    exact move_of_score hlane hhand hscore

theorem move_of_step (hw : Wired p s) {t : Task} (h : step p t s = some s') : Move p s s' := by
  cases t with
  | dispatcher => exact hw.move_of_dispatch h
  | forwarder => exact move_of_forward h
  | router => exact hw.move_of_route h
  | lane index => exact move_of_runLane h

/-! ### What the wiring is kept by -/

theorem initial (p : Plan) : Wired p (.initial p) where
  length_lanes := List.length_replicate
  placed index w hw r hr := by
    rw [List.eq_of_mem_replicate (List.mem_of_getElem? hw)] at hr
    cases hr
  inbound_le := Nat.zero_le _
  forwarder_le := Nat.zero_le _
  router_le := Nat.zero_le _
  lane_le w hw := by
    rw [List.eq_of_mem_replicate hw]
    exact Nat.zero_le _
  taken_le := Nat.le_refl _
  forwarder_gone hnone := by simp [State.initial, hnone]
  forwarding r h := by cases h
  forwarder_end h := ⟨.inl (Option.isNone_iff_eq_none.1 h), rfl⟩
  router_end h := by cases h
  lane_end w hw h := by
    rw [List.eq_of_mem_replicate hw] at h
    cases h
  closed h := by cases h
  finished h := by cases h
  no_mishaps := rfl

/-- The pipeline goes on to another phase, and the queues behind the dispatcher stay open. -/
theorem of_open (hw : Wired p s) (hphase : s.phase.isClosed = false) (phase : Phase)
    (hforwarding : ∀ r, phase = .forwarding r → p.passCapacity.isSome = true)
    (hopen : phase.isClosed = false) : Wired p { s with phase } := by
  have hmono : s.phase.isClosed = true → phase.isClosed = true := by rw [hphase]; nofun
  refine { hw with
    forwarding := hforwarding
    forwarder_end := hw.forwarder_end.mono (Or.imp_right hmono)
    router_end := hw.router_end.mono hmono
    closed := fun h => ?_
    finished := fun h => ?_ }
  · rw [hopen] at h
    cases h
  · change phase = .finished at h
    rw [h] at hopen
    cases hopen

/-- The pipeline goes on to a phase in which the queues behind the dispatcher are closed: no record
comes any more. -/
theorem of_closed (hw : Wired p s) (hend : s.inbound.waiting = [] ∧
      (s.isStopping = true ∨ s.inbound.isOpen = false)) {phase : Phase}
    (hclosed : phase.isClosed = true) {returned : Option Totals}
    (hfinished : phase = .finished → s.workersEnded = true ∧ returned = some s.totals) :
    Wired p { s with phase, returned } := by
  refine { hw with
    forwarding := fun r h => ?_
    forwarder_end := hw.forwarder_end.mono fun _ => .inr hclosed
    router_end := hw.router_end.mono fun _ => hclosed
    closed := fun _ => hend
    finished := hfinished }
  change phase = .forwarding r at h
  rw [h] at hclosed
  cases hclosed

theorem touch (hw : Wired p s) {a : Action} (h : Touch p s a s') : Wired p s' := by
  cases h with
  | nothing => exact hw
  | start hphase => exact hw.of_open (by rw [hphase]; rfl) .receiving nofun rfl
  | discard hphase => exact hw.of_open (by rw [hphase]; rfl) .discarded nofun rfl
  | @send r haccepted =>
    obtain ⟨hopen, hgoing, -, hroom⟩ := State.sendReply_eq_accepted_iff.1 haccepted
    have hwaiting := Channel.waiting_put hw.taken_le r
    refine { hw with inbound_le := ?_, taken_le := ?_, closed := fun h => ?_ }
    · rw [hwaiting, List.length_append, List.length_singleton]
      exact of_decide_eq_true hroom
    · rw [Channel.put, List.length_append]
      exact Nat.le_add_right_of_le hw.taken_le
    · -- nothing is accepted any more when the queues are closed
      obtain hstopping | hclosed := (hw.closed h).2
      · rw [hgoing] at hstopping
        cases hstopping
      · rw [hopen] at hclosed
        cases hclosed
  | closeInbound => exact { hw with closed := fun h => ⟨(hw.closed h).1, .inr rfl⟩ }
  | stop | dropHandle | dropAlerts | dropPassed | takeAlert | takePassed => exact { hw with }

theorem placed_set {lanes : List Worker} {index : Nat} {w' : Worker}
    (hplaced : ∀ (i : Nat) (w : Worker), lanes[i]? = some w →
      ∀ r ∈ w.content, State.laneIndex p r = i)
    (hw' : ∀ r ∈ w'.content, State.laneIndex p r = index) :
    ∀ (i : Nat) (w : Worker), (lanes.set index w')[i]? = some w →
      ∀ r ∈ w.content, State.laneIndex p r = i := by
  intro i w hw
  rw [List.getElem?_set] at hw
  split at hw
  · rename_i heq
    split at hw
    · obtain rfl := Option.some.inj hw
      exact heq ▸ hw'
    · cases hw
  · exact hplaced i w hw

theorem forall_mem_set {lanes : List Worker} {index : Nat} {w' : Worker} {P : Worker → Prop}
    (h : ∀ w ∈ lanes, P w) (hw' : P w') : ∀ w ∈ lanes.set index w', P w := by
  intro w hw
  obtain hmem | rfl := List.mem_or_eq_of_mem_set hw
  · exact h w hmem
  · exact hw'

/-- The forwarder changes before the end of the pipeline. -/
theorem of_forwarder (hw : Wired p s) (hgoing : s.phase ≠ .finished) {w : Worker}
    (hle : w.queue.length ≤ p.ingestCapacity)
    (hgone : p.passCapacity = none → w.hasEnded = true)
    (hend : w.EndsOnly (p.passCapacity = none ∨ s.phase.isClosed = true)) :
    Wired p { s with forwarder := w } :=
  { hw with
    forwarder_le := hle
    forwarder_gone := hgone
    forwarder_end := hend
    finished := fun h => absurd h hgoing }

/-- The router changes before the end of the pipeline. -/
theorem of_router (hw : Wired p s) (hgoing : s.phase ≠ .finished) {w : Worker}
    (hle : w.queue.length ≤ p.ingestCapacity) (hend : w.EndsOnly (s.phase.isClosed = true))
    (hkeep : s.router.hasEnded = true → w.hasEnded = true) : Wired p { s with router := w } :=
  { hw with
    router_le := hle
    router_end := hend
    lane_end := fun lane hlane => (hw.lane_end lane hlane).mono hkeep
    finished := fun h => absurd h hgoing }

/-- A lane changes before the end of the pipeline. -/
theorem of_lane (hw : Wired p s) (hgoing : s.phase ≠ .finished) {index : Nat} {w : Worker}
    (hplaced : ∀ r ∈ w.content, State.laneIndex p r = index)
    (hle : w.queue.length ≤ p.laneCapacity) (hend : w.EndsOnly (s.router.hasEnded = true)) :
    Wired p { s with lanes := s.lanes.set index w } :=
  { hw with
    length_lanes := by rw [List.length_set]; exact hw.length_lanes
    placed := placed_set hw.placed hplaced
    lane_le := forall_mem_set hw.lane_le hle
    lane_end := forall_mem_set hw.lane_end hend
    finished := fun h => absurd h hgoing }

/-- While a worker goes on, the pipeline has not come to its end. -/
theorem ne_finished_of_going (hw : Wired p s) {w : Worker}
    (hmem : w = s.forwarder ∨ w = s.router ∨ w ∈ s.lanes) (hgoing : w.hasEnded = false) :
    s.phase ≠ .finished := by
  intro hphase
  obtain ⟨hforwarder, hrouter, hlanes⟩ := State.workersEnded_iff.1 (hw.finished hphase).1
  obtain rfl | rfl | hlane := hmem
  · rw [hgoing] at hforwarder
    cases hforwarder
  · rw [hgoing] at hrouter
    cases hrouter
  · rw [hlanes w hlane] at hgoing
    cases hgoing

/-! ### Moves keep the wiring

Each kind of move has its lemma.  What a move leaves as it is stays wired as it was; what it changes
is a worker that has not come to its end, or the phase. -/

/-- The dispatcher takes a record in, and goes on to hand it over. -/
theorem takeIn_of_open (hw : Wired p s) {r : StreamRecord} {inbound : Channel}
    (hphase : s.phase = .receiving) (htake : s.inbound.take? = some (r, inbound)) (phase : Phase)
    (hforwarding : ∀ x, phase = .forwarding x → p.passCapacity.isSome = true)
    (hopen : phase.isClosed = false) :
    Wired p { s with inbound, phase, totals.seen := s.totals.seen + 1 } := by
  have htaken := Channel.taken_lt_of_take? htake
  obtain ⟨hwaiting, rfl⟩ := Channel.take?_eq_some_iff.1 htake
  have hle := hw.inbound_le
  rw [hwaiting, List.length_cons] at hle
  -- the queues behind the dispatcher are open before and after, so nothing is at an end
  have hnot : ¬ phase.isClosed = true := by rw [hopen]; exact Bool.false_ne_true
  refine { hw.of_open (by rw [hphase]; rfl) phase hforwarding hopen with
    inbound_le := Nat.le_of_succ_le hle
    taken_le := htaken
    closed := fun h => absurd h hnot
    finished := fun h => ?_ }
  change phase = .finished at h
  rw [h] at hnot
  exact absurd rfl hnot

theorem takeIn (hw : Wired p s) {r : StreamRecord} {inbound : Channel}
    (hphase : s.phase = .receiving) (htake : s.inbound.take? = some (r, inbound)) :
    Wired p { s with
      inbound
      phase := if p.passCapacity.isSome then .forwarding r else .routing r
      totals.seen := s.totals.seen + 1 } := by
  split
  next hpass => exact hw.takeIn_of_open hphase htake (.forwarding r) (fun _ _ => hpass) rfl
  next => exact hw.takeIn_of_open hphase htake (.routing r) nofun rfl

theorem handToForwarder (hw : Wired p s) {r : StreamRecord} (hphase : s.phase = .forwarding r)
    (hroom : s.forwarder.queue.length < p.ingestCapacity) :
    Wired p { s with forwarder := s.forwarder.put r, phase := .routing r } := by
  have hopen : s.phase.isClosed = false := by rw [hphase]; rfl
  have hpass := hw.forwarding r hphase
  refine (hw.of_open hopen (.routing r) nofun rfl).of_forwarder nofun ?_ ?_ ?_
  · rw [Worker.length_put]
    exact hroom
  · -- there is a forwarder, because the dispatcher has a record for it
    intro hnone
    rw [hnone] at hpass
    cases hpass
  · exact Worker.endsOnly_of_going _ (hw.forwarder_going hphase)

theorem handToRouter (hw : Wired p s) {r : StreamRecord} (hphase : s.phase = .routing r)
    (hroom : s.router.queue.length < p.ingestCapacity) :
    Wired p { s with router := s.router.put r, phase := .receiving } := by
  have hopen : s.phase.isClosed = false := by rw [hphase]; rfl
  refine (hw.of_open hopen .receiving nofun rfl).of_router nofun ?_ ?_ id
  · rw [Worker.length_put]
    exact hroom
  · exact Worker.endsOnly_of_going _ (hw.router_going hopen)

theorem forwarderReceives (hw : Wired p s) {w : Worker} (hhand : s.forwarder.hand = none)
    (hreceive : s.forwarder.receive? (s.phase = .draining) = some w) :
    Wired p { s with forwarder := w } := by
  have hgoing := hw.forwarder_end.going_of_receive hreceive
  have hle := (Worker.of_receive?_eq_some hhand hreceive).2.1
  refine hw.of_forwarder (hw.ne_finished_of_going (.inl rfl) hgoing)
    (Nat.le_trans hle hw.forwarder_le) (fun hnone => ?_) ?_
  · -- a forwarder that nobody needs is at its end, and does not receive
    rw [hw.forwarder_gone hnone] at hgoing
    cases hgoing
  · refine hw.forwarder_end.receive (fun hclosed => .inr ?_) hhand hreceive
    rw [of_decide_eq_true hclosed]
    rfl

theorem forward (hw : Wired p s) {r : StreamRecord} {passed : Channel} {totals : Totals}
    (hhand : s.forwarder.hand = some r) :
    Wired p { s with forwarder := s.forwarder.release, passed, totals } := by
  have hgoing := hw.forwarder_end.going_of_hand hhand
  have hne := hw.ne_finished_of_going (.inl rfl) hgoing
  exact { hw.of_forwarder (w := s.forwarder.release) hne hw.forwarder_le hw.forwarder_gone
      (Worker.endsOnly_of_going _ hgoing) with
    finished := fun h => absurd h hne }

theorem routerReceives (hw : Wired p s) {w : Worker} (hhand : s.router.hand = none)
    (hreceive : s.router.receive? (s.phase = .draining) = some w) :
    Wired p { s with router := w } := by
  have hgoing := hw.router_end.going_of_receive hreceive
  have hle := (Worker.of_receive?_eq_some hhand hreceive).2.1
  refine hw.of_router (hw.ne_finished_of_going (.inr (.inl rfl)) hgoing)
    (Nat.le_trans hle hw.router_le) ?_ (fun hended => ?_)
  · refine hw.router_end.receive (fun hclosed => ?_) hhand hreceive
    rw [of_decide_eq_true hclosed]
    rfl
  · rw [hgoing] at hended
    cases hended

/-- The router hands a record to the lane of its key, which is there and has room for it. -/
theorem route (hw : Wired p s) {r : StreamRecord} {lane : Worker} (hhand : s.router.hand = some r)
    (hlane : s.lanes[State.laneIndex p r]? = some lane) (hgoing : lane.hasEnded = false)
    (hroom : lane.queue.length < p.laneCapacity) :
    Wired p { s with
      router := s.router.release, lanes := s.lanes.set (State.laneIndex p r) (lane.put r) } := by
  have hrouter := hw.router_end.going_of_hand hhand
  have hne := hw.ne_finished_of_going (.inr (.inl rfl)) hrouter
  have hrelease := hw.of_router hne (w := s.router.release) hw.router_le
    (Worker.endsOnly_of_going _ hrouter) id
  refine hrelease.of_lane hne (fun x hx => ?_) ?_ (Worker.endsOnly_of_going _ hgoing)
  · -- the new record is in the lane of its key, as those before it are
    rw [Worker.content_put] at hx
    obtain hx | hx := List.mem_append.1 hx
    · exact hw.placed _ _ hlane x hx
    · rw [List.mem_singleton.1 hx]
  · rw [Worker.length_put]
    exact hroom

theorem laneReceives (hw : Wired p s) {index : Nat} {lane w : Worker}
    (hlane : s.lanes[index]? = some lane) (hhand : lane.hand = none)
    (hreceive : lane.receive? s.router.hasEnded = some w) :
    Wired p { s with lanes := s.lanes.set index w } := by
  have hmem := List.mem_of_getElem? hlane
  have hgoing := (hw.lane_end _ hmem).going_of_receive hreceive
  obtain ⟨hcontent, hle, -⟩ := Worker.of_receive?_eq_some hhand hreceive
  refine hw.of_lane (hw.ne_finished_of_going (.inr (.inr hmem)) hgoing) (fun x hx => ?_)
    (Nat.le_trans hle (hw.lane_le _ hmem)) ?_
  · rw [hcontent] at hx
    exact hw.placed _ _ hlane x hx
  · exact (hw.lane_end _ hmem).receive id hhand hreceive

/-- A lane is done with the record that it holds, and the totals and the alerts tell so. -/
theorem release (hw : Wired p s) {index : Nat} {lane : Worker} {r : StreamRecord}
    (hlane : s.lanes[index]? = some lane) (hhand : lane.hand = some r) {alerts : Channel}
    {totals : Totals} :
    Wired p { s with lanes := s.lanes.set index lane.release, alerts, totals } := by
  have hmem := List.mem_of_getElem? hlane
  have hgoing := (hw.lane_end lane hmem).going_of_hand hhand
  have hne := hw.ne_finished_of_going (.inr (.inr hmem)) hgoing
  have hplaced : ∀ x ∈ lane.release.content, State.laneIndex p x = index := by
    intro x hx
    refine hw.placed index lane hlane x ?_
    rw [Worker.content_eq_cons hhand]
    exact List.mem_cons_of_mem r hx
  -- the totals matter at the end only
  exact { hw.of_lane (w := lane.release) hne hplaced (hw.lane_le lane hmem)
      (Worker.endsOnly_of_going _ hgoing) with
    finished := fun h => absurd h hne }

/-- A move of a wired pipeline keeps it wired. -/
theorem move (hw : Wired p s) (h : Move p s s') : Wired p s' := by
  cases h with
  -- the dispatcher
  | heedStop hphase hgoing hstop =>
    exact { hw with closed := fun h => ⟨(hw.closed h).1, .inl rfl⟩ }
  | takeIn hphase hheed htake => exact hw.takeIn hphase htake
  | close hphase hheed hwaiting hclosed => exact hw.of_closed ⟨hwaiting, hclosed⟩ rfl nofun
  | handToForwarder hphase hroom => exact hw.handToForwarder hphase hroom
  | handToRouter hphase hroom => exact hw.handToRouter hphase hroom
  | finish hphase hended =>
    -- what is given back are the totals of just this state
    exact hw.of_closed (hw.closed (by rw [hphase]; rfl)) rfl fun _ => ⟨hended, rfl⟩
  -- the workers
  | forwarderReceives hhand hreceive => exact hw.forwarderReceives hhand hreceive
  | forward hhand hdeliver => exact hw.forward hhand
  | routerReceives hhand hreceive => exact hw.routerReceives hhand hreceive
  | route hhand hlane hgoing hroom => exact hw.route hhand hlane hgoing hroom
  | laneReceives hlane hhand hreceive => exact hw.laneReceives hlane hhand hreceive
  | score hlane hhand hquiet => exact hw.release hlane hhand
  | raise hlane hhand halert hdeliver => exact hw.release hlane hhand

end Wired

/-- Whatever happens to a wired pipeline, it stays wired. -/
theorem Wired.after (hw : Wired p s) (events : List Event) : Wired p (s.after p events) :=
  State.after_induction (fun s a _ hw => hw.touch (touch_act p s a))
    (fun _ _ _ hw h => hw.move (hw.move_of_step h)) hw

/-- What is kept by all that the actions among some events and the moves can do to a wired pipeline
is kept in the course of these events. -/
theorem Wired.after_induction {motive : State → Prop} {events : List Event} (hw : Wired p s)
    (h : motive s)
    (touch : ∀ s a s', Wired p s → .act a ∈ events → motive s → Touch p s a s' → motive s')
    (move : ∀ s s', Wired p s → motive s → Move p s s' → motive s') :
    motive (s.after p events) := by
  suffices hboth : Wired p (s.after p events) ∧ motive (s.after p events) from hboth.2
  refine State.after_induction (motive := fun s => Wired p s ∧ motive s) ?_ ?_ ⟨hw, h⟩
  · intro s a ha ⟨hw, h⟩
    have htouch := touch_act p s a
    exact ⟨hw.touch htouch, touch s a _ hw ha h htouch⟩
  · intro s t s' ⟨hw, h⟩ hstep
    have hmove := hw.move_of_step hstep
    exact ⟨hw.move hmove, move s s' hw h hmove⟩

/-- Every pipeline is wired at all times. -/
theorem wired_after (p : Plan) (history : List Event) : Wired p (p.after history) :=
  (Wired.initial p).after history

end TrustBoundary.Pipeline
