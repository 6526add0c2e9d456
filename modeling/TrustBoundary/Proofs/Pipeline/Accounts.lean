import TrustBoundary.Proofs.Pipeline.Wiring

/-!
# Accounts

At all times there is a list `done` of the records that the lanes are done with, in the order in
which they were done (`exists_accounts`).  `Accounts p s done` says that `done` and the records that
are still under way make up the records that were accepted, in the order of acceptance for every
key, and what `done` says of the totals and of the alerts.

Records with different keys overtake each other, so the order is kept for every key only
(`SameByKey`).  A step reorders records at two places: when a record goes into its lane, past the
records of the lanes behind it, and when it is done, past those of the lanes before it.  Neither
have records with its key, because all of these are in one lane.
-/

namespace TrustBoundary.Pipeline

/-! ### Order by key -/

/-- The records with this key. -/
def ofKey (k : String) (rs : List StreamRecord) : List StreamRecord := rs.filter (·.key = k)

/-- Two lists have the same records in the same order for every key. -/
def SameByKey (rs ts : List StreamRecord) : Prop := ∀ k, ofKey k rs = ofKey k ts

theorem ofKey_append (k : String) (rs ts : List StreamRecord) :
    ofKey k (rs ++ ts) = ofKey k rs ++ ofKey k ts := List.filter_append rs ts

namespace SameByKey

variable {rs ts us : List StreamRecord}

theorem trans (h : SameByKey rs ts) (h' : SameByKey ts us) : SameByKey rs us :=
  fun k => (h k).trans (h' k)

theorem append_right (h : SameByKey rs ts) (us : List StreamRecord) :
    SameByKey (rs ++ us) (ts ++ us) := by
  intro k
  rw [ofKey_append, ofKey_append, h k]

/-- A record goes past records with other keys. -/
theorem move_right (rs us : List StreamRecord) {r : StreamRecord}
    (h : ∀ x ∈ ts, x.key ≠ r.key) :
    SameByKey (rs ++ (r :: ts) ++ us) (rs ++ (ts ++ [r]) ++ us) := by
  intro k
  simp only [ofKey_append]
  congr 2
  by_cases hk : r.key = k
  · -- no record with the key of `r` is among those that it goes past
    have hnone : ofKey k ts = [] := by
      rw [ofKey, List.filter_eq_nil_iff]
      intro x hx
      simp only [decide_eq_true_eq, ← hk]
      exact h x hx
    rw [hnone, List.nil_append, ← List.singleton_append, ofKey_append, hnone, List.append_nil]
  · have hnone : ofKey k [r] = [] := by simp [ofKey, hk]
    rw [hnone, List.append_nil, ← List.singleton_append, ofKey_append, hnone, List.nil_append]

theorem perm (h : SameByKey rs ts) : rs.Perm ts := by
  rw [List.perm_iff_count]
  intro x
  have hcount := congrArg (List.count x) (h x.key)
  simp only [ofKey] at hcount
  rwa [List.count_filter (by simp), List.count_filter (by simp)] at hcount

end SameByKey

/-! ### Records under way -/

/-- The record that the dispatcher holds and that does not wait for the router yet. -/
def Phase.toScore : Phase → List StreamRecord
  | .forwarding r | .routing r => [r]
  | .unstarted | .receiving | .draining | .finished | .discarded => []

/-- The records that were taken in and that no lane is done with, the oldest of each key first. -/
def State.pending (s : State) : List StreamRecord :=
  s.lanes.flatMap Worker.content ++ s.router.content ++ s.phase.toScore

theorem exists_split {lanes : List Worker} {index : Nat} {lane : Worker}
    (h : lanes[index]? = some lane) :
    ∃ before behind, before.length = index ∧ lanes = before ++ lane :: behind ∧
      ∀ w, lanes.set index w = before ++ w :: behind := by
  obtain ⟨hlt, rfl⟩ := List.getElem?_eq_some_iff.1 h
  refine ⟨lanes.take index, lanes.drop (index + 1), ?_, ?_, fun w => ?_⟩
  · rw [List.length_take, Nat.min_eq_left (Nat.le_of_lt hlt)]
  · rw [← List.drop_eq_getElem_cons hlt, List.take_append_drop]
  · rw [List.set_eq_take_append_cons_drop, if_pos hlt]

/-- The other lanes have no record with a key of this lane. -/
theorem Wired.exists_split {p : Plan} {s : State} (hw : Wired p s) {index : Nat} {lane : Worker}
    {r : StreamRecord} (hlane : s.lanes[index]? = some lane)
    (hr : State.laneIndex p r = index) :
    ∃ before behind : List Worker, s.lanes = before ++ lane :: behind ∧
      (∀ w, s.lanes.set index w = before ++ w :: behind) ∧
      (∀ x ∈ before.flatMap Worker.content, x.key ≠ r.key) ∧
      ∀ x ∈ behind.flatMap Worker.content, x.key ≠ r.key := by
  obtain ⟨before, behind, hlength, hlanes, hset⟩ := Pipeline.exists_split hlane
  -- the key of a record tells its lane
  have hother : ∀ i w x, s.lanes[i]? = some w → x ∈ w.content → i ≠ index → x.key ≠ r.key := by
    intro i w x hi hx hne hkey
    have hplaced := hw.placed i w hi x hx
    rw [State.laneIndex, hkey] at hplaced
    exact hne (hplaced.symm.trans hr)
  refine ⟨before, behind, hlanes, hset, fun x hx => ?_, fun x hx => ?_⟩
  · obtain ⟨w, hmem, hx⟩ := List.mem_flatMap.1 hx
    obtain ⟨i, hlt, rfl⟩ := List.getElem_of_mem hmem
    refine hother i _ x ?_ hx (by omega)
    rw [hlanes, List.getElem?_append_left hlt, List.getElem?_eq_getElem hlt]
  · obtain ⟨w, hmem, hx⟩ := List.mem_flatMap.1 hx
    obtain ⟨i, hlt, rfl⟩ := List.getElem_of_mem hmem
    refine hother (before.length + (i + 1)) _ x ?_ hx (by omega)
    rw [hlanes, List.getElem?_append_right (by omega), Nat.add_sub_cancel_left,
      List.getElem?_cons_succ, List.getElem?_eq_getElem hlt]

/-! ### Accounts -/

/-- The lanes are done with the records `done`, and the totals and the alerts tell just this. -/
structure Accounts (p : Plan) (s : State) (done : List StreamRecord) : Prop where
  order : SameByKey (done ++ s.pending ++ s.inbound.waiting) s.inbound.log
  seen : s.totals.seen = s.inbound.taken
  scored : s.totals.scored = done.length
  dropped : s.totals.dropped = done.countP fun r => p.scorer.score r = .dropped
  alerts : s.alerts.log.Sublist (done.filterMap p.alertFor?)
  emitted : s.totals.emitted = s.alerts.log.length
  raised_le : s.totals.emitted + s.totals.abandoned ≤ (done.filterMap p.alertFor?).length
  /-- No alert is lost without being counted while its consumer is there. -/
  raised : s.alerts.isOpen = true →
    s.totals.emitted + s.totals.abandoned = (done.filterMap p.alertFor?).length
  abandoned : s.isStopping = false → s.totals.abandoned = 0

namespace Accounts

variable {p : Plan} {s s' : State} {done : List StreamRecord}

theorem initial (p : Plan) : Accounts p (.initial p) [] where
  order k := by
    have hpending : (State.initial p).pending = [] := by
      simp [State.pending, State.initial, Worker.content, Phase.toScore]
    rw [hpending]
    rfl
  seen := rfl
  scored := rfl
  dropped := rfl
  alerts := List.nil_sublist _
  emitted := rfl
  raised_le := Nat.le_refl _
  raised _ := rfl
  abandoned _ := rfl

theorem touch (ha : Accounts p s done) (hw : Wired p s) {a : Action} (h : Touch p s a s') :
    Accounts p s' done := by
  cases h with
  | nothing => exact ha
  | start hphase | discard hphase =>
    refine { ha with order := ?_ }
    have horder := ha.order
    simp only [State.pending, hphase, Phase.toScore] at horder ⊢
    exact horder
  | @send r haccepted =>
    refine { ha with order := ?_ }
    -- the new record is the last one, whatever its key
    have horder := ha.order.append_right [r]
    rw [List.append_assoc] at horder
    rwa [Channel.waiting_put hw.taken_le]
  | dropAlerts => exact { ha with raised := nofun }
  | takeAlert htake =>
    obtain ⟨-, rfl⟩ := Channel.take?_eq_some_iff.1 htake
    exact { ha with }
  | stop | closeInbound | dropHandle | dropPassed | takePassed => exact { ha with }

/-- The lane that holds the record `r` is done with it. -/
theorem order_done (ha : Accounts p s done) (hw : Wired p s) {index : Nat} {lane : Worker}
    {r : StreamRecord} (hlane : s.lanes[index]? = some lane) (hhand : lane.hand = some r) :
    SameByKey
      (done ++ [r] ++ { s with lanes := s.lanes.set index lane.release }.pending ++
        s.inbound.waiting) s.inbound.log := by
  have hcontent := Worker.content_eq_cons hhand
  have hr : State.laneIndex p r = index := by
    refine hw.placed index lane hlane r ?_
    rw [hcontent]
    exact List.mem_cons_self
  obtain ⟨before, behind, hlanes, hset, hbefore, -⟩ := hw.exists_split hlane hr
  refine SameByKey.trans ?_ ha.order
  -- the record leaves its lane past the records of the lanes before it
  have hmove := SameByKey.move_right done (lane.release.content ++
    (behind.flatMap Worker.content ++ (s.router.content ++ (s.phase.toScore ++
      s.inbound.waiting)))) hbefore
  simp only [State.pending, hset]
  rw [hlanes]
  simpa [hcontent] using hmove

/-- The router hands the record `r` to its lane. -/
theorem order_route (ha : Accounts p s done) (hw : Wired p s) {r : StreamRecord} {lane : Worker}
    (hhand : s.router.hand = some r) (hlane : s.lanes[State.laneIndex p r]? = some lane) :
    SameByKey (done ++ { s with
      router := s.router.release
      lanes := s.lanes.set (State.laneIndex p r) (lane.put r) }.pending ++ s.inbound.waiting)
      s.inbound.log := by
  have hcontent := Worker.content_eq_cons hhand
  obtain ⟨before, behind, hlanes, hset, -, hbehind⟩ := hw.exists_split hlane rfl
  refine SameByKey.trans ?_ ha.order
  -- the record goes into its lane past the records of the lanes behind it
  have hmove := SameByKey.move_right (done ++ before.flatMap Worker.content ++ lane.content)
    (s.router.release.content ++ (s.phase.toScore ++ s.inbound.waiting)) hbehind
  simp only [State.pending, hset]
  rw [hlanes]
  simpa [hcontent] using hmove

/-- What is under way stays the same. -/
theorem of_pending (ha : Accounts p s done) (lanes : List Worker) (router : Worker) (phase : Phase)
    (hpending : { s with lanes, router, phase }.pending = s.pending) :
    Accounts p { s with lanes, router, phase } done :=
  { ha with
    order := by
      have horder := ha.order
      rw [← hpending] at horder
      exact horder }

/-- A lane is done with a record that raises the alert `a`.  Whatever becomes of the alert, it is
enough to account for the alerts. -/
theorem done_raising (ha : Accounts p s done) (hw : Wired p s) {index : Nat} {lane : Worker}
    {r a : StreamRecord} (hlane : s.lanes[index]? = some lane) (hhand : lane.hand = some r)
    (halert : p.alertFor? r = some a) (alerts : Channel) {emitted abandoned : Nat}
    (hlog : alerts.log.Sublist (done.filterMap p.alertFor? ++ [a]))
    (hemitted : emitted = alerts.log.length)
    (hle : emitted + abandoned ≤ (done.filterMap p.alertFor?).length + 1)
    (hopen : alerts.isOpen = true →
      emitted + abandoned = (done.filterMap p.alertFor?).length + 1)
    (hcalm : s.isStopping = false → abandoned = 0) :
    Accounts p { s with
      lanes := s.lanes.set index lane.release
      alerts
      totals := { s.totals with scored := s.totals.scored + 1, emitted, abandoned } }
      (done ++ [r]) := by
  have hnew : (done ++ [r]).filterMap p.alertFor? = done.filterMap p.alertFor? ++ [a] := by
    simp [halert]
  have hlength : ((done ++ [r]).filterMap p.alertFor?).length =
      (done.filterMap p.alertFor?).length + 1 := by
    rw [hnew, List.length_append, List.length_singleton]
  refine { ha with
    order := ha.order_done hw hlane hhand
    scored := ?_
    dropped := ?_
    alerts := hnew ▸ hlog
    emitted := hemitted
    raised_le := hlength ▸ hle
    raised := hlength ▸ hopen
    abandoned := hcalm }
  · simp [ha.scored]
  · have hne := p.score_ne_dropped_of_alertFor? halert
    simp [ha.dropped, hne]

section

variable {index : Nat} {lane : Worker} {r a : StreamRecord}

/-- The alert is lost with its consumer. -/
theorem raise_closed (ha : Accounts p s done) (hw : Wired p s)
    (hlane : s.lanes[index]? = some lane) (hhand : lane.hand = some r)
    (halert : p.alertFor? r = some a) (hclosed : s.alerts.isOpen = false) :
    Accounts p { s with
      lanes := s.lanes.set index lane.release, totals.scored := s.totals.scored + 1 }
      (done ++ [r]) := by
  refine ha.done_raising hw hlane hhand halert s.alerts ?_ ha.emitted
    (Nat.le_add_right_of_le ha.raised_le) (fun hopen => ?_) ha.abandoned
  · exact ha.alerts.trans (List.sublist_append_left _ _)
  · rw [hclosed] at hopen
    cases hopen

/-- The alert comes out. -/
theorem raise_sent (ha : Accounts p s done) (hw : Wired p s)
    (hlane : s.lanes[index]? = some lane) (hhand : lane.hand = some r)
    (halert : p.alertFor? r = some a) (hopen : s.alerts.isOpen = true) :
    Accounts p { s with
      lanes := s.lanes.set index lane.release
      alerts := s.alerts.put a
      totals.scored := s.totals.scored + 1
      totals.emitted := s.totals.emitted + 1 } (done ++ [r]) := by
  -- the consumer is there, so the alerts so far are all accounted for
  have heq := ha.raised hopen
  refine ha.done_raising hw hlane hhand halert (s.alerts.put a) ?_ ?_ (by omega)
    (fun _ => by omega) ha.abandoned
  · exact ha.alerts.append (List.Sublist.refl [a])
  · rw [ha.emitted, Channel.put, List.length_append, List.length_singleton]

/-- The alert is given up, and counted as such. -/
theorem raise_abandoned (ha : Accounts p s done) (hw : Wired p s)
    (hlane : s.lanes[index]? = some lane) (hhand : lane.hand = some r)
    (halert : p.alertFor? r = some a) (hopen : s.alerts.isOpen = true)
    (hstopping : s.isStopping = true) :
    Accounts p { s with
      lanes := s.lanes.set index lane.release
      totals.scored := s.totals.scored + 1
      totals.abandoned := s.totals.abandoned + 1 } (done ++ [r]) := by
  have heq := ha.raised hopen
  refine ha.done_raising hw hlane hhand halert s.alerts ?_ ha.emitted (by omega)
    (fun _ => by omega) (fun hgoing => ?_)
  · exact ha.alerts.trans (List.sublist_append_left _ _)
  · rw [hstopping] at hgoing
    cases hgoing

/-- A lane is done with a record that raises an alert, and the alert is delivered. -/
theorem raise (ha : Accounts p s done) (hw : Wired p s) {d : Delivery} {alerts : Channel}
    (hlane : s.lanes[index]? = some lane) (hhand : lane.hand = some r)
    (halert : p.alertFor? r = some a)
    (hdeliver : s.alerts.deliver? p.alertCapacity s.isStopping a = some (d, alerts)) :
    Accounts p { s with
      lanes := s.lanes.set index lane.release
      alerts
      totals := { s.totals with scored := s.totals.scored + 1 }.countAlert d } (done ++ [r]) := by
  obtain ⟨hclosed, rfl, rfl⟩ | ⟨hopen, -, rfl, rfl⟩ | ⟨hopen, -, hstopping, rfl, rfl⟩ :=
    Channel.deliver?_eq_some_iff.1 hdeliver
  · exact ha.raise_closed hw hlane hhand halert hclosed
  · exact ha.raise_sent hw hlane hhand halert hopen
  · exact ha.raise_abandoned hw hlane hhand halert hopen hstopping

end

/-- A lane is done with a record that raises no alert. -/
theorem score (ha : Accounts p s done) (hw : Wired p s) {index : Nat} {lane : Worker}
    {r : StreamRecord} (hlane : s.lanes[index]? = some lane) (hhand : lane.hand = some r)
    (hquiet : p.alertFor? r = none) :
    Accounts p { s with
      lanes := s.lanes.set index lane.release
      totals.scored := s.totals.scored + 1
      totals.dropped := s.totals.dropped + if p.scorer.score r = .dropped then 1 else 0 }
      (done ++ [r]) := by
  have hsame : (done ++ [r]).filterMap p.alertFor? = done.filterMap p.alertFor? := by
    simp [hquiet]
  refine { ha with
    order := ha.order_done hw hlane hhand
    scored := ?_
    dropped := ?_
    alerts := ?_
    raised_le := ?_
    raised := ?_ }
  · simp [ha.scored]
  · simp [ha.dropped]
  · rw [hsame]
    exact ha.alerts
  · rw [hsame]
    exact ha.raised_le
  · rw [hsame]
    exact ha.raised

/-- The dispatcher takes a record in: it waits at the entrance no more, and is under way. -/
theorem takeIn (ha : Accounts p s done) {r : StreamRecord} {inbound : Channel}
    (hphase : s.phase = .receiving) (htake : s.inbound.take? = some (r, inbound)) :
    Accounts p { s with
      inbound
      phase := if p.passCapacity.isSome then .forwarding r else .routing r
      totals.seen := s.totals.seen + 1 } done := by
  obtain ⟨hwaiting, rfl⟩ := Channel.take?_eq_some_iff.1 htake
  refine { ha with order := ?_, seen := congrArg (· + 1) ha.seen }
  have horder := ha.order
  rw [hwaiting] at horder
  simp only [State.pending, hphase, Phase.toScore] at horder ⊢
  cases p.passCapacity.isSome <;> simpa using horder

theorem move (ha : Accounts p s done) (hw : Wired p s) (h : Move p s s') :
    ∃ done', Accounts p s' done' := by
  cases h with
  | heedStop hphase hgoing hstop =>
    refine ⟨done, { ha with abandoned := ?_ }⟩
    intro h
    cases h
  | takeIn hphase hheed htake => exact ⟨done, ha.takeIn hphase htake⟩
  -- the records under way change hands between the tasks, or only the phase changes
  | close hphase hheed hwaiting hclosed =>
    refine ⟨done, ha.of_pending _ _ _ ?_⟩
    simp only [State.pending, hphase, Phase.toScore]
  | @handToForwarder r hphase hroom =>
    refine ⟨done, { ha.of_pending s.lanes s.router (.routing r) ?_ with }⟩
    simp only [State.pending, hphase, Phase.toScore]
  | @handToRouter r hphase hroom =>
    refine ⟨done, ha.of_pending _ _ _ ?_⟩
    simp only [State.pending, hphase, Phase.toScore, Worker.content_put, List.append_assoc,
      List.append_nil]
  | finish hphase hended =>
    refine ⟨done, { ha.of_pending s.lanes s.router .finished ?_ with }⟩
    simp only [State.pending, hphase, Phase.toScore]
  | routerReceives hhand hreceive =>
    refine ⟨done, ha.of_pending _ _ _ ?_⟩
    simp only [State.pending, (Worker.of_receive?_eq_some hhand hreceive).1]
  | laneReceives hlane hhand hreceive =>
    refine ⟨done, ha.of_pending _ _ _ ?_⟩
    obtain ⟨before, behind, -, hlanes, hset⟩ := exists_split hlane
    simp only [State.pending, hset]
    rw [hlanes]
    simp [(Worker.of_receive?_eq_some hhand hreceive).1]
  -- what the forwarder has is not under way to a lane
  | forwarderReceives hhand hreceive => exact ⟨done, { ha with }⟩
  | @forward r d passed hhand hdeliver => exact ⟨done, by cases d <;> exact { ha with }⟩
  -- records overtake others, and none with their key
  | route hhand hlane hgoing hroom =>
    exact ⟨done, { ha with order := ha.order_route hw hhand hlane }⟩
  | score hlane hhand hquiet => exact ⟨_, ha.score hw hlane hhand hquiet⟩
  | raise hlane hhand halert hdeliver => exact ⟨_, ha.raise hw hlane hhand halert hdeliver⟩

end Accounts

/-- The accounts of every pipeline are in order at all times. -/
theorem exists_accounts (p : Plan) (history : List Event) :
    ∃ done, Accounts p (p.after history) done :=
  (Wired.initial p).after_induction (motive := fun s => ∃ done, Accounts p s done)
    ⟨[], .initial p⟩ (fun _ _ _ hw _ ⟨done, ha⟩ h => ⟨done, ha.touch hw h⟩)
    (fun _ _ hw ⟨_, ha⟩ h => ha.move hw h)

end TrustBoundary.Pipeline
