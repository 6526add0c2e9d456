import TrustBoundary.Proofs.Pipeline.Wiring

/-!
# Requests

What the state of a pipeline tells of the requests that were made of it: the records that were ever
put into the channel at the entrance are those that were accepted (`log_after`), and a stop is taken
up only if one was asked for or the handle is lost (`isStopping_eq_false`).
-/

namespace TrustBoundary.Pipeline

variable {p : Plan} {s s' : State}

/-! ### Accepted records -/

theorem Move.log_eq (h : Move p s s') : s'.inbound.log = s.inbound.log := by
  cases h with
  | takeIn hphase hheed htake =>
    obtain ⟨-, rfl⟩ := Channel.take?_eq_some_iff.1 htake
    rfl
  | _ => rfl

theorem Touch.log_eq {a : Action} (h : Touch p s a s') (ha : ∀ r, a ≠ .send r) :
    s'.inbound.log = s.inbound.log := by
  cases h with
  | @send r haccepted => exact absurd rfl (ha r)
  | _ => rfl

theorem log_act (p : Plan) (s : State) (a : Action) :
    (act p s a).inbound.log = s.inbound.log ++ s.acceptedBy p (.act a) := by
  cases a with
  | send r =>
    simp only [act, State.send, State.acceptedBy]
    split
    · rfl
    · exact (List.append_nil _).symm
  | _ => exact ((touch_act p s _).log_eq fun r h => by cases h).trans (List.append_nil _).symm

/-- What is put in at the entrance is what is accepted. -/
theorem Wired.log_after (hw : Wired p s) (events : List Event) :
    (s.after p events).inbound.log = s.inbound.log ++ s.accepted p events := by
  induction events generalizing s with
  | nil => exact (List.append_nil _).symm
  | cons e events ih =>
    have hnext : (s.next p e).inbound.log = s.inbound.log ++ s.acceptedBy p e := by
      cases e with
      | act a => exact log_act p s a
      | step t =>
        simp only [State.next, State.acceptedBy, List.append_nil]
        cases hstep : step p t s with
        | none => rfl
        | some s' => exact (hw.move_of_step hstep).log_eq
    -- the next state is wired too, so the induction goes on from there
    have htail := ih (hw.after [e])
    calc (s.after p (e :: events)).inbound.log
        = (s.next p e).inbound.log ++ (s.next p e).accepted p events := htail
      _ = s.inbound.log ++ s.accepted p (e :: events) := by
        rw [hnext, List.append_assoc]
        rfl

theorem log_after (p : Plan) (history : List Event) :
    (p.after history).inbound.log = p.accepted history :=
  (Wired.initial p).log_after history

/-! ### Stops -/

/-- While somebody has the handle, no stop waits and none was taken up. -/
def State.IsCalm (s : State) : Prop :=
  s.hasHandle = true → s.commands = 0 ∧ s.isStopping = false

theorem State.IsCalm.touch (hs : s.IsCalm) {a : Action} (ha : a ≠ .stop) (h : Touch p s a s') :
    s'.IsCalm := by
  cases h with
  | stop haccepted => exact absurd rfl ha
  | dropHandle => exact nofun
  | _ => exact hs

theorem State.IsCalm.move (hs : s.IsCalm) (h : Move p s s') : s'.IsCalm := by
  cases h with
  | heedStop hphase hgoing hstop =>
    intro hhandle
    obtain hcommand | hlost := hstop
    · rw [(hs hhandle).1] at hcommand
      cases hcommand
    · exact absurd (hhandle.symm.trans hlost) nofun
  | _ => exact hs

/-- A stop is taken up only if one was asked for or nobody has the handle any more. -/
theorem isStopping_eq_false (p : Plan) {history : List Event} (hstop : .act .stop ∉ history)
    (hhandle : (p.after history).hasHandle = true) : (p.after history).isStopping = false := by
  have hcalm : (p.after history).IsCalm := by
    refine (Wired.initial p).after_induction (fun _ => ⟨rfl, rfl⟩) ?_ fun _ _ _ hs => hs.move
    intro s a s' hw ha hs h
    exact hs.touch (fun heq => hstop (heq ▸ ha)) h
  exact (hcalm hhandle).2

end TrustBoundary.Pipeline
