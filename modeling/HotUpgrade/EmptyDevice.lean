import HotUpgrade.RemoteRef
import HotUpgrade.SRcuData

/-! The domain side of `empty_device.rs`. A `Box<dyn EmptyDeviceDomain>` is the
record of its methods, each an action on the tag slots of the shared heap:
`domain_id` returns the domain's own id, the same on every call, and may
write any slot; `init`, `read` and `write` return what they return and may
write any slot. The proxy's bodies `_domain_id`, `_read` and `_write` run one
method on the domain `read_directly` loaded; `_read` calls `domain_id()`,
retags its argument to that id on entry and the result back on return.
`RRefVec<u8>` is not under `src/`; it is modelled by the `RRef` of its buffer,
whose `move_to` is `RRef::move_to`. -/

namespace HotUpgrade.EmptyDevice
open RemoteRef SRcu

/-- The `LinuxError` values the modelled code names; `other` is any other errno. -/
inductive LinuxError
  | EINVAL
  | ENOSYS
  | other (errno : Nat)
deriving DecidableEq, Repr

abbrev LinuxResult (α : Type) := Except LinuxError α

/-- Modelled from the spec: `RRefVec<u8>`, not under `src/`, as the `RRef` of its buffer. -/
abbrev RRefVec := RRef

/-- `Box<dyn EmptyDeviceDomain>`: the methods of `Basic` and `EmptyDeviceDomain`.
`domain_id()` returns `domainId` and leaves the tag slots as `domainIdOn` says. -/
structure EmptyDeviceDomain where
  domainId : DomainId
  domainIdOn : TagHeap → TagHeap
  init : TagHeap → LinuxResult Unit × TagHeap
  read : RRefVec → TagHeap → LinuxResult RRefVec × TagHeap
  write : RRefVec → TagHeap → LinuxResult Nat × TagHeap

/-- `EmptyDeviceDomainEmptyImpl::new()`: the placeholder with id `u64::MAX`. -/
def EmptyDeviceDomainEmptyImpl.new : EmptyDeviceDomain where
  domainId := 18446744073709551615
  domainIdOn h := h
  init h := (.ok (), h)
  read _ h := (.error .ENOSYS, h)
  write _ h := (.error .ENOSYS, h)

/-- The three proxy methods that dispatch on `flag`. -/
inductive Method
  | domainId
  | read (data : RRefVec)
  | write (data : RRefVec)

inductive Reply
  | domainId (id : DomainId)
  | read (r : LinuxResult RRefVec)
  | write (r : LinuxResult Nat)

/-- What `_read` does with the domain `read_directly` loaded: call its
`domain_id()`, retag `data` to that id, call its `read`, and retag an `Ok`
result to the caller's old id. -/
def readOn (domain : EmptyDeviceDomain) (data : RRefVec) (h : TagHeap) :
    LinuxResult RRefVec × TagHeap :=
  let (oldId, h) := data.moveTo domain.domainId (domain.domainIdOn h)
  match domain.read data h with
  | (.ok r, h) => (.ok r, (r.moveTo oldId h).2)
  | (.error e, h) => (.error e, h)

/-- The bodies `_domain_id`, `_read` and `_write`, on the domain they loaded. -/
def runMethod (domain : EmptyDeviceDomain) : Method → TagHeap → Reply × TagHeap
  | .domainId, h => (.domainId domain.domainId, domain.domainIdOn h)
  | .read data, h => let r := readOn domain data h; (.read r.1, r.2)
  | .write data, h => let r := domain.write data h; (.write r.1, r.2)

/-- `EmptyDeviceDomainProxy::_domain_id`. -/
def _domainId (domain : SRcuData EmptyDeviceDomain) (h : TagHeap) : DomainId × TagHeap :=
  domain.readDirectly fun d => (d.domainId, d.domainIdOn h)

/-- `EmptyDeviceDomainProxy::_write`: a borrow of `data`, retagged by nobody. -/
def _write (domain : SRcuData EmptyDeviceDomain) (data : RRefVec) (h : TagHeap) :
    LinuxResult Nat × TagHeap :=
  domain.readDirectly fun d => d.write data h

section ReadOn

variable (d : EmptyDeviceDomain) (data : RRefVec) (h : TagHeap)

end ReadOn

end HotUpgrade.EmptyDevice
