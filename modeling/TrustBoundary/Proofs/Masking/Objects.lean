import TrustBoundary.Masking

/-!
# Masking objects and masking records

`Record.masked` is what masking makes of the value of one field.  The members of a JSON object can
be masked before they become the fields of a record or afterwards.  Both see the same of a value:
its display (`Scalar.display_ofValue`), where a list or object, which a record keeps as its text, is
shown as that text.  So both ways lead to the same record, and replace equally many values
(`Record.mask_ofObject`).
-/

namespace TrustBoundary

open Json

/-! ### What masking sees of a value -/

namespace Scalar

theorem isNull_iff {v : Scalar} : v.isNull = true ↔ v = .null := by
  cases v <;> simp [isNull]

theorem isNull_ofValue (v : Value) : (ofValue v).isNull = v.isNull := by
  cases v <;> rfl

/-- A field shows what the JSON value shows that it is made of. -/
theorem display_ofValue (v : Value) : (ofValue v).display = v.display := by
  cases v with
  | bool b => cases b <;> rfl
  | null | number n | string s | array items | object members => rfl

end Scalar

namespace Record

/-- What masking makes of the value of a field. -/
def masked (name : String) (v : Scalar) : Scalar :=
  if isMasked name v then .text (TrustBoundary.mask v.display) else v

theorem toList_mask (r : Record) : r.mask.toList = r.toList.map fun e => (e.1, masked e.1 e.2) :=
  rfl

theorem get?_mask (r : Record) (name : String) :
    r.mask.get? name = (r.get? name).map (masked name) :=
  Fields.get?_map masked r name

theorem names_mask (r : Record) : r.mask.names = r.names :=
  Fields.names_map masked r

theorem isMasked_ofValue (name : String) (v : Value) :
    isMasked name (Scalar.ofValue v) = isMaskedMember name v := by
  rw [isMasked, isMaskedMember, Scalar.isNull_ofValue]

/-- A value is masked alike before and after it becomes that of a field. -/
theorem masked_ofValue (name : String) (v : Value) :
    masked name (Scalar.ofValue v) =
      Scalar.ofValue
        (if isMaskedMember name v then .string (TrustBoundary.mask v.display) else v) := by
  rw [masked, isMasked_ofValue, Scalar.display_ofValue]
  split <;> rfl

/-! ### Whole objects -/

/-- The record of a masked object is the masked record of the object, and the same number of values
is replaced in both, whatever the names and however deep the values are nested. -/
theorem mask_ofObject (members : Fields Value) :
    ofObject (maskObject members) = (ofObject members).mask ∧
      maskObjectCount members = (ofObject members).maskCount := by
  constructor
  · apply Fields.ext_get?
    intro name
    rw [get?_mask, ofObject, maskObject, ofObject, Fields.get?_map, Fields.get?_map,
      Fields.get?_map, Option.map_map, Option.map_map]
    cases members.get? name with
    | none => rfl
    | some v => exact congrArg some (masked_ofValue name v).symm
  · unfold maskObjectCount maskCount ofObject
    rw [Fields.toList_map, List.countP_map]
    apply List.countP_congr
    intro e _
    rw [Function.comp_apply, isMasked_ofValue]

end Record

end TrustBoundary
