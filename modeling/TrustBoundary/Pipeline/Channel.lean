import TrustBoundary.Event.StreamRecord

/-!
# Channels

A channel joins the pipeline with the outside.  It keeps all records that were ever put into it and
how many of them were taken out; the rest waits, and no more wait than the channel has room for.
-/

namespace TrustBoundary.Pipeline

/-- A channel between the pipeline and the outside. -/
structure Channel where
  /-- The records that were put in, the oldest first. -/
  log : List StreamRecord := []
  /-- How many of them were taken out. -/
  taken : Nat := 0
  /-- Whether somebody outside is still at the channel. -/
  isOpen : Bool := true
deriving DecidableEq

/-- What becomes of a record for a consumer. -/
inductive Delivery where
  /-- It is in the channel. -/
  | sent
  /-- It is lost because the consumer is gone. -/
  | closed
  /-- It is given up because there is no room and nobody waits any longer. -/
  | abandoned
deriving DecidableEq

namespace Channel

/-- The records that wait. -/
def waiting (c : Channel) : List StreamRecord := c.log.drop c.taken

/-- Whether one more record may wait in a channel of this capacity. -/
def hasRoom (c : Channel) (capacity : Nat) : Bool := c.waiting.length < capacity

/-- A record put in. -/
def put (c : Channel) (r : StreamRecord) : Channel := { c with log := c.log ++ [r] }

/-- The oldest record that waits, taken out. -/
def take? (c : Channel) : Option (StreamRecord × Channel) :=
  c.log[c.taken]?.map fun r => (r, { c with taken := c.taken + 1 })

/-- A record delivered to a consumer.  Where there is no room it waits, unless the pipeline is
stopping.  -/
def deliver? (c : Channel) (capacity : Nat) (isStopping : Bool) (r : StreamRecord) :
    Option (Delivery × Channel) :=
  if !c.isOpen then some (.closed, c)
  else if c.hasRoom capacity then some (.sent, c.put r)
  else if isStopping then some (.abandoned, c)
  else none

theorem take?_eq_some_iff {c d : Channel} {r : StreamRecord} :
    c.take? = some (r, d) ↔ c.waiting = r :: d.waiting ∧ d = { c with taken := c.taken + 1 } := by
  rcases c with ⟨log, taken, isOpen⟩
  simp only [take?, waiting, Option.map_eq_some_iff, Prod.mk.injEq]
  constructor
  · rintro ⟨x, hx, rfl, rfl⟩
    obtain ⟨h, rfl⟩ := List.getElem?_eq_some_iff.1 hx
    exact ⟨List.drop_eq_getElem_cons h, rfl⟩
  · rintro ⟨h, rfl⟩
    have hlt : taken < log.length := by
      have := congrArg List.length h
      simp only [List.length_drop, List.length_cons] at this
      omega
    rw [List.drop_eq_getElem_cons hlt] at h
    exact ⟨_, by rw [List.getElem?_eq_getElem hlt, (List.cons.inj h).1], rfl, rfl⟩

theorem waiting_put {c : Channel} (h : c.taken ≤ c.log.length) (r : StreamRecord) :
    (c.put r).waiting = c.waiting ++ [r] :=
  List.drop_append_of_le_length h

theorem taken_lt_of_take? {c d : Channel} {r : StreamRecord} (h : c.take? = some (r, d)) :
    c.taken < c.log.length := by
  simp only [take?, Option.map_eq_some_iff] at h
  obtain ⟨x, hx, -⟩ := h
  exact (List.getElem?_eq_some_iff.1 hx).1

theorem take?_eq_none_iff {c : Channel} : c.take? = none ↔ c.waiting = [] := by
  simp [take?, waiting, List.drop_eq_nil_iff]

end Channel

end TrustBoundary.Pipeline
