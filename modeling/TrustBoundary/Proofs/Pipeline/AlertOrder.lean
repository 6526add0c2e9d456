import Mathlib.Algebra.BigOperators.Group.Finset.Piecewise
import TrustBoundary.Proofs.Pipeline.Ending
import TrustBoundary.Proofs.Pipeline.Requests

/-!
# The order of the alerts

The lanes score side by side, but the alerts for a key come out as if the records with this key had
been scored one after the other, in the order in which they were accepted (`alerts_in_order`).  Only
a stop and the loss of the consumer leave alerts out.
-/

namespace TrustBoundary.Pipeline

variable {p : Plan}

/-! ### The alerts for a key -/

/-- The text of the alert that a record raises. -/
def Plan.alertText? (p : Plan) (r : StreamRecord) : Option String :=
  match p.scorer.score r with
  | .alert a => some a.text
  | .noAlert | .dropped => none

/-- The texts of the alerts for a key, when its records are scored one after the other. -/
def Plan.alertTexts (p : Plan) (k : String) (rs : List StreamRecord) : List String :=
  (ofKey k rs).filterMap p.alertText?

/-- The records that bring these alerts to their consumer. -/
def Plan.alertRecords (p : Plan) (k : String) (rs : List StreamRecord) : List StreamRecord :=
  (p.alertTexts k rs).map fun text => ⟨p.settings.alertTopic, k, some text⟩

theorem Plan.alertFor?_eq (p : Plan) (r : StreamRecord) : p.alertFor? r =
    (p.alertText? r).map fun text => ⟨p.settings.alertTopic, r.key, some text⟩ := by
  unfold alertFor? alertText?
  cases p.scorer.score r <;> rfl

theorem alertTexts_cons (p : Plan) (k : String) (r : StreamRecord) (rs : List StreamRecord) :
    p.alertTexts k (r :: rs) =
      (if r.key = k then (p.alertText? r).toList else []) ++ p.alertTexts k rs := by
  unfold Plan.alertTexts ofKey
  by_cases hk : r.key = k
  · rw [if_pos hk, List.filter_cons_of_pos (by simpa using hk), List.filterMap_cons]
    cases p.alertText? r <;> rfl
  · rw [if_neg hk, List.filter_cons_of_neg (by simpa using hk), List.nil_append]

theorem ofKey_filterMap_alertFor? (p : Plan) (k : String) (rs : List StreamRecord) :
    ofKey k (rs.filterMap p.alertFor?) = p.alertRecords k rs := by
  induction rs with
  | nil => rfl
  | cons r rs ih =>
    have hcons := alertTexts_cons p k r rs
    unfold Plan.alertRecords at ih ⊢
    rw [hcons, List.map_append, ← ih, List.filterMap_cons, p.alertFor?_eq]
    cases p.alertText? r with
    | none => simp
    | some text =>
      by_cases hk : r.key = k
      · subst hk
        simp [ofKey]
      · simp [ofKey, hk]

theorem topic_of_mem_filterMap {rs : List StreamRecord} {a : StreamRecord}
    (h : a ∈ rs.filterMap p.alertFor?) : a.topic = p.settings.alertTopic := by
  obtain ⟨r, -, hr⟩ := List.mem_filterMap.1 h
  rw [p.alertFor?_eq, Option.map_eq_some_iff] at hr
  obtain ⟨text, -, rfl⟩ := hr
  rfl

/-- All alerts together are those for all keys. -/
theorem length_filterMap_alertFor? (p : Plan) {keys : Finset String} {rs : List StreamRecord}
    (h : ∀ r ∈ rs, r.key ∈ keys) :
    (rs.filterMap p.alertFor?).length = ∑ k ∈ keys, (p.alertTexts k rs).length := by
  induction rs with
  | nil => exact (Finset.sum_eq_zero fun k _ => rfl).symm
  | cons r rs ih =>
    -- the head counts for its own key only
    have hsplit : ∀ k ∈ keys, (p.alertTexts k (r :: rs)).length =
        (if r.key = k then (p.alertText? r).toList.length else 0) +
          (p.alertTexts k rs).length := by
      intro k _
      rw [alertTexts_cons, List.length_append]
      split <;> rfl
    rw [Finset.sum_congr rfl hsplit, Finset.sum_add_distrib, Finset.sum_ite_eq,
      if_pos (h r List.mem_cons_self), ← ih fun x hx => h x (List.mem_cons_of_mem r hx),
      List.filterMap_cons, p.alertFor?_eq]
    cases p.alertText? r with
    | none => exact (Nat.zero_add _).symm
    | some text => exact Nat.add_comm _ 1

/-! ### The alerts that came out -/

namespace Accounts

variable {s : State} {done : List StreamRecord}

/-- The records of a key that the lanes are done with are the oldest of those accepted. -/
theorem ofKey_prefix (ha : Accounts p s done) (k : String) :
    ofKey k done <+: ofKey k s.inbound.log := by
  have horder := ha.order k
  rw [List.append_assoc, ofKey_append] at horder
  exact ⟨_, horder⟩

theorem alertRecords_prefix (ha : Accounts p s done) (k : String) :
    p.alertRecords k done <+: p.alertRecords k s.inbound.log :=
  ((ha.ofKey_prefix k).filterMap p.alertText?).map _

theorem ofKey_alerts_sublist (ha : Accounts p s done) (k : String) :
    (ofKey k s.alerts.log).Sublist (p.alertRecords k done) := by
  rw [← ofKey_filterMap_alertFor?]
  exact ha.alerts.filter _

/-- Every alert came out, if nobody stops the pipeline and the consumer is there. -/
theorem alerts_eq (ha : Accounts p s done) (hgoing : s.isStopping = false)
    (hopen : s.alerts.isOpen = true) : s.alerts.log = done.filterMap p.alertFor? := by
  refine ha.alerts.eq_of_length ?_
  have hraised := ha.raised hopen
  rwa [ha.abandoned hgoing, Nat.add_zero, ha.emitted] at hraised

end Accounts

/-- Of every pipeline, at all times: the alerts for a key bear the topic for alerts and are some of
those that its accepted records raise, scored one after the other in the order of acceptance.  They
are the first of these unless the pipeline is stopping, which it does only when a stop was asked for
or the handle is lost, or the consumer is gone.  Where neither was so when the pipeline came to its
end, they are all of these, and the totals tell as much; later events do not change this. -/
theorem alerts_in_order (p : Plan) (history : List Event) :
    let s := p.after history
    let accepted := p.accepted history
    (∀ a ∈ s.alerts.log, a.topic = p.settings.alertTopic) ∧
    (∀ k, (ofKey k s.alerts.log).Sublist (p.alertRecords k accepted)) ∧
    (.act .stop ∉ history → s.hasHandle = true → s.isStopping = false) ∧
    (s.isStopping = false → s.alerts.isOpen = true →
      ∀ k, ofKey k s.alerts.log <+: p.alertRecords k accepted) ∧
    (s.phase = .finished → s.isStopping = false → s.alerts.isOpen = true → ∀ events,
      let t := p.after (history ++ events)
      (∀ k, ofKey k t.alerts.log = p.alertRecords k (p.accepted (history ++ events))) ∧
      t.totals.emitted = ∑ k ∈ ((p.accepted (history ++ events)).map (·.key)).toFinset,
        (p.alertTexts k (p.accepted (history ++ events))).length ∧
      t.totals.abandoned = 0) := by
  intro s accepted
  obtain ⟨done, ha⟩ := exists_accounts p history
  have hlog : s.inbound.log = accepted := log_after p history
  refine ⟨?_, ?_, isStopping_eq_false p, ?_, ?_⟩
  · intro a hmem
    exact topic_of_mem_filterMap (ha.alerts.subset hmem)
  · -- some came out of those raised, and raised were only the first
    intro k
    rw [← hlog]
    exact (ha.ofKey_alerts_sublist k).trans (ha.alertRecords_prefix k).sublist
  · intro hgoing hopen k
    rw [ha.alerts_eq hgoing hopen, ofKey_filterMap_alertFor?, ← hlog]
    exact ha.alertRecords_prefix k
  · -- at the end no record is under way, and later events change neither the log nor the totals
    intro hphase hgoing hopen events t
    have hkeeps : s.Keeps t := keeps_after p hphase events
    have hsame : SameByKey done s.inbound.log := ha.order_of_finished (wired_after p history) hphase
    rw [← log_after p (history ++ events), hkeeps.alerts, hkeeps.inbound, hkeeps.totals]
    refine ⟨?_, ?_, ha.abandoned hgoing⟩
    · intro k
      rw [ha.alerts_eq hgoing hopen, ofKey_filterMap_alertFor?]
      unfold Plan.alertRecords Plan.alertTexts
      rw [hsame k]
    · -- all alerts together are those for the keys of the accepted records
      rw [ha.emitted, ha.alerts_eq hgoing hopen, (hsame.perm.filterMap p.alertFor?).length_eq]
      refine length_filterMap_alertFor? p fun r hr => ?_
      rw [List.mem_toFinset]
      exact List.mem_map_of_mem hr

theorem alerts_in_order_twoAlertsTaken :
    (Plan.narrow.after twoAlertsTaken).phase = .finished ∧
    (Plan.narrow.after twoAlertsTaken).totals.emitted = 2 ∧
    ofKey "k" (Plan.narrow.after twoAlertsTaken).alerts.log =
      Plan.narrow.alertRecords "k" (Plan.narrow.accepted twoAlertsTaken) := by
  refine ⟨by decide +kernel, by decide +kernel, ?_⟩
  obtain ⟨-, -, -, -, hfinished⟩ := alerts_in_order .narrow twoAlertsTaken
  have hall := hfinished (by decide +kernel) (by decide +kernel) (by decide +kernel) []
  rw [List.append_nil] at hall
  exact hall.1 "k"

end TrustBoundary.Pipeline
