import Mathlib.Logic.Function.Basic

/-! Remote references of `rref.rs`. A shared-heap block holds a 64-bit domain-id
slot next to the value; an `RRef` keeps the two addresses and the `exist` flag.
Only the domain-id slots are modelled (`TagHeap`), not payload bytes, and
`move_to` is the one operation on them: read the old tag, write the new one. -/

namespace HotUpgrade.RemoteRef

abbrev DomainId := UInt64

/-- The shared heap's domain-id slots, by address. -/
abbrev TagHeap := Nat → DomainId

structure RRef where
  domainIdPointer : Nat
  valuePointer : Nat
  exist : Bool
deriving DecidableEq, Repr

namespace RRef

/-- `RRef::domain_id`. -/
def domainId (r : RRef) (h : TagHeap) : DomainId := h r.domainIdPointer

/-- `SharedData::move_to`: the old tag, and the heap with `new_domain_id` written. -/
def moveTo (r : RRef) (newDomainId : DomainId) (h : TagHeap) : DomainId × TagHeap :=
  (h r.domainIdPointer, Function.update h r.domainIdPointer newDomainId)

variable (r : RRef) (x y : DomainId) (h : TagHeap)

@[simp] theorem moveTo_fst : (r.moveTo x h).1 = r.domainId h := rfl

end RRef

end HotUpgrade.RemoteRef
