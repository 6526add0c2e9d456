import TrustBoundary.Proofs.Json.Members
import TrustBoundary.Record.Basic

/-!
# What a record holds

A record is read from a text if the members of an object are (`Record.read_eq_ok_iff`).  Under a
name it holds the last member of that name, as a scalar (`Record.get?_of_read`).
-/

namespace TrustBoundary

open Json

/-- The value of the last member with a name. -/
def lastMember? (name : String) (ms : List (String × Value)) : Option Value :=
  Fields.lookup name ms.reverse

namespace Record

variable {text : String} {r : Record}

theorem read_eq_ok_iff :
    read text = .ok r ↔ ∃ ms, members text = .ok ms ∧ r = ofObject (Fields.ofList ms) := by
  rw [read]
  constructor
  · intro h
    split at h
    · cases h
    next v hv =>
      cases v with
      | object fs =>
        obtain ⟨ms, hms, rfl⟩ := Value.read_eq_object_iff.1 hv
        refine ⟨ms, hms, ?_⟩
        -- the members of the object are already in order
        rw [← Fields.ofList_toList (Fields.ofList ms)]
        exact (Except.ok.inj h).symm
      | _ => cases h
  · rintro ⟨ms, hms, rfl⟩
    rw [Value.read_eq_object_iff.2 ⟨ms, hms, rfl⟩]
    dsimp only [ofValue?]
    rw [Fields.ofList_toList]

/-- A record holds the last member of each name. -/
theorem get?_of_read {ms : List (String × Value)} (h : read text = .ok r)
    (hms : members text = .ok ms) (name : String) :
    r.get? name = (lastMember? name ms).map Scalar.ofValue := by
  obtain ⟨ms', hms', rfl⟩ := read_eq_ok_iff.1 h
  obtain rfl := Except.ok.inj (hms.symm.trans hms')
  rw [ofObject, Fields.get?_map, Fields.get?_ofList]
  rfl

end Record

end TrustBoundary
