import HotUpgrade.ProxyLocks

/-! The calls of `free_domain_resource(old_id, FreeShared::NotFree(new_domain_id))`
that `replace` makes, over every run of calls, `replace`s and
`sys_update_domain`s. The cell keeps every box it has published, in order, and
each swap makes one call naming the implementation it replaced and the one it
installed. The calls so far are therefore the consecutive pairs of installed
implementations, none lost and none made twice, up to the one call a `replace`
between `update_directly` and `free_domain_resource` still owes. -/

namespace HotUpgrade.Proxy
open RemoteRef SRcu EmptyDevice

/-- The `free_domain_resource` calls a history of installed implementations
asks for: one per swap, with the replaced id and its successor's. -/
def swapIds : List EmptyDeviceDomain → List (DomainId × DomainId)
  | a :: b :: l => (a.domainId, b.domainId) :: swapIds (b :: l)
  | _ => []

theorem swapIds_concat (l : List EmptyDeviceDomain) (a x : EmptyDeviceDomain) :
    swapIds (l ++ [a, x]) = swapIds (l ++ [a]) ++ [(a.domainId, x.domainId)] := by
  induction l with
  | nil => rfl
  | cons b l ih =>
    cases l with
    | nil => rfl
    | cons c l => exact congrArg ((b.domainId, c.domainId) :: ·) ih

theorem swapIds_assignBox (c : SRcuData EmptyDeviceDomain) (x : EmptyDeviceDomain) :
    swapIds (c.assignBox x).boxes = swapIds c.boxes ++ [(c.current.domainId, x.domainId)] := by
  rw [SRcuData.assignBox_boxes, c.boxes_eq, List.append_assoc]
  exact swapIds_concat _ _ _

/-- The `free_domain_resource` call a `replace` owes, from `update_directly`
until the call. -/
def ReplacePc.pendingRelease : ReplacePc → Option (DomainId × DomainId)
  | .swapped oldId newId _ | .unflagged oldId newId => some (oldId, newId)
  | _ => none

def Thread.pendingRelease (th : Thread) : Option (DomainId × DomainId) :=
  th.replaceOf.bind fun r => r.2.pendingRelease

/-- The new id a `replace` carries before its swap is its new implementation's. -/
def ReplacePc.newIdOk (new : EmptyDeviceDomain) : ReplacePc → Prop
  | .initialized _ newId | .swapLoaded _ newId _ => newId = new.domainId
  | _ => True

namespace Thread

theorem pendingRelease_of_replaceOf {th : Thread} {new : EmptyDeviceDomain} {pc : ReplacePc}
    (h : th.replaceOf = some (new, pc)) : th.pendingRelease = pc.pendingRelease := by
  rw [pendingRelease, h]; rfl

theorem holdsLock_of_pendingRelease {th : Thread} {p : DomainId × DomainId}
    (h : th.pendingRelease = some p) : th.holdsLock = true := by
  obtain ⟨⟨new, pc⟩, hr, hp⟩ := Option.bind_eq_some.mp h
  rw [holdsLock_of_replaceOf hr]
  cases pc <;> first | rfl | cases hp

end Thread

/-! ## What a step does to the calls -/

section Release

variable {t cpu : Nat} {sh sh' : Shared}

theorem CallMove.released_eq {m : Method} {pc pc' : CallPc} (h : CallMove t cpu m sh pc pc' sh') :
    sh'.released = sh.released := by
  cases h <;> rfl

theorem ReplaceMove.release_cases {new : EmptyDeviceDomain} {loader : DomainLoader} {pc pc' : ReplacePc}
    (h : ReplaceMove t cpu new loader sh pc pc' sh') :
    (sh'.released = sh.released ∧ sh'.domain = sh.domain ∧ pc'.pendingRelease = pc.pendingRelease) ∨
    (∃ o n q, pc = .swapLoaded o n q ∧ pc' = .swapped o n q ∧ sh'.released = sh.released ∧
      sh'.domain = sh.domain.assignBox new) ∨
    (∃ o n, pc = .unflagged o n ∧ pc' = .freed ∧ sh'.released = sh.released ++ [(o, n)] ∧
      sh'.domain = sh.domain) := by
  cases h with
  | query hm _ | queried hm => exact .inl ⟨hm.released_eq, hm.footprint.2.2.1, rfl⟩
  | assign o n q => exact .inr (.inl ⟨o, n, q, rfl, rfl, rfl, rfl⟩)
  | free o n => exact .inr (.inr ⟨o, n, rfl, rfl, rfl, rfl⟩)
  | _ => exact .inl ⟨rfl, rfl, rfl⟩

theorem ThreadMove.release_cases {th th' : Thread} (h : ThreadMove t cpu sh th th' sh') :
    (sh'.released = sh.released ∧ sh'.domain = sh.domain ∧ th'.pendingRelease = th.pendingRelease) ∨
    (∃ new o n q, th.replaceOf = some (new, .swapLoaded o n q) ∧ th'.pendingRelease = some (o, n) ∧
      sh'.released = sh.released ∧ sh'.domain = sh.domain.assignBox new) ∨
    (∃ o n, th.pendingRelease = some (o, n) ∧ th'.pendingRelease = none ∧
      sh'.released = sh.released ++ [(o, n)] ∧ sh'.domain = sh.domain) := by
  cases h with
  | call hm => exact .inl ⟨hm.released_eq, hm.footprint.2.2.1, rfl⟩
  | replace hm =>
    rcases hm.release_cases with h | ⟨o, n, q, rfl, rfl, h⟩ | ⟨o, n, rfl, rfl, h⟩
    · exact .inl h
    · exact .inr (.inl ⟨_, o, n, q, rfl, rfl, h⟩)
    · exact .inr (.inr ⟨o, n, rfl, rfl, h⟩)
  | update hm =>
    cases hm with
    | queryOld hm _ | queriedOld hm | queryArm _ hm _ | queriedArm _ hm =>
      exact .inl ⟨hm.released_eq, hm.footprint.2.2.1, rfl⟩
    | replace _ _ hm _ =>
      rcases hm.release_cases with h | ⟨o, n, q, rfl, rfl, h⟩ | ⟨o, n, rfl, rfl, h⟩
      · exact .inl h
      · exact .inr (.inl ⟨_, o, n, q, rfl, rfl, h⟩)
      · exact .inr (.inr ⟨o, n, rfl, rfl, h⟩)
    | replaced _ _ hm =>
      rcases hm.release_cases with h | ⟨_, _, _, -, h, -⟩ | ⟨_, _, -, h, -⟩
      · exact .inl h
      · cases h
      · cases h
    | found _ | notFound _ | updateList => exact .inl ⟨rfl, rfl, rfl⟩

theorem ReplaceMove.newIdOk_step {new : EmptyDeviceDomain} {loader : DomainLoader} {pc pc' : ReplacePc}
    (h : ReplaceMove t cpu new loader sh pc pc' sh') (hok : pc.newIdOk new) : pc'.newIdOk new := by
  cases h with
  | initOk _ _ => rfl
  | loadOld => exact hok
  | _ => trivial

theorem ThreadMove.newIdOk_step {th th' : Thread} (h : ThreadMove t cpu sh th th' sh')
    (hok : ∀ new pc, th.replaceOf = some (new, pc) → pc.newIdOk new) :
    ∀ new pc, th'.replaceOf = some (new, pc) → pc.newIdOk new := by
  intro new' pc' hr
  cases h with
  | call _ => cases hr
  | replace hm => cases hr; exact hm.newIdOk_step (hok _ _ rfl)
  | update hm =>
    cases hm with
    | queriedArm _ _ => cases hr; trivial
    | replace _ _ hm _ => cases hr; exact hm.newIdOk_step (hok _ _ rfl)
    | found _ | notFound _ | queryOld _ _ | queriedOld _ | queryArm _ _ _ | replaced _ _ _ | updateList =>
      cases hr

end Release

/-! ## The invariant -/

structure ReleaseInv (s : State) : Prop where
  newId : ∀ (i : Nat) th new pc, s.threads[i]? = some th → th.replaceOf = some (new, pc) → pc.newIdOk new
  pending : ∀ (i : Nat) th o n, s.threads[i]? = some th → th.pendingRelease = some (o, n) →
    s.shared.released ++ [(o, n)] = swapIds s.shared.domain.boxes
  settled : (∀ th ∈ s.threads, th.pendingRelease = none) →
    s.shared.released = swapIds s.shared.domain.boxes

theorem releaseInv_init (name : String) (domain : EmptyDeviceDomain) (loader : DomainLoader) (ncpu : Nat)
    (tags : TagHeap) (domainList : DomainList) (ts : List Thread) (h : ∀ th ∈ ts, th.atStart) :
    ReleaseInv (init name domain loader ncpu tags domainList ts) := by
  have idle : ∀ (i : Nat) th new pc, ts[i]? = some th → th.replaceOf = some (new, pc) → pc = .start :=
    fun i th new pc hi => (Thread.idle_of_atStart (h th (List.getElem?_mem hi))).2.2.2 new pc
  refine ⟨fun i th new pc hi hr => by rw [idle i th new pc hi hr]; trivial, fun i th o n hi hp => ?_,
    fun _ => rfl⟩
  obtain ⟨⟨new, pc⟩, hr, hp⟩ := Option.bind_eq_some.mp hp
  rw [idle i th new pc hi hr] at hp
  cases hp

theorem ReleaseInv.step {s s' : State} {t cpu : Nat} (hinv : ReleaseInv s) (hlock : LockInv s)
    (h : step s t cpu = some s') : ReleaseInv s' := by
  obtain ⟨th, th', ht, hm, hts⟩ := step_cases h
  obtain ⟨sh', ts'⟩ := s'
  subst hts
  have ht' : (s.threads.set t th')[t]? = some th' := getElem?_set_of_getElem? ht
  -- a thread that owes a call holds `lock`, so while `t` holds it no other thread owes one
  have halone : th.holdsLock = true → ∀ (i : Nat) x p, (s.threads.set t th')[i]? = some x →
      x.pendingRelease = some p → x = th' := fun hl i x p hi hp => by
    rcases getElem?_set_cases hi with ⟨-, rfl⟩ | ⟨hit, hi⟩
    · rfl
    · exact absurd (hlock.lock.eq_of_holds hi ht (Thread.holdsLock_of_pendingRelease hp) hl) hit
  have newId : ∀ (i : Nat) x new pc, (s.threads.set t th')[i]? = some x → x.replaceOf = some (new, pc) →
      pc.newIdOk new := fun i x new pc hi => by
    rcases getElem?_set_cases hi with ⟨-, rfl⟩ | ⟨-, hi⟩
    · exact hm.newIdOk_step (fun new pc => hinv.newId t th new pc ht) new pc
    · exact hinv.newId i x new pc hi
  refine ⟨newId, ?_, ?_⟩ <;>
    rcases hm.release_cases with ⟨hr, hd, hp⟩ | ⟨new, o, n, q, hrep, hp, hr, hd⟩ | ⟨o, n, hp, hp', hr, hd⟩
  · -- a step that leaves the calls and the cell alone keeps what each thread owes
    intro i x o n hi hx
    rw [hr, hd]
    rcases getElem?_set_cases hi with ⟨rfl, rfl⟩ | ⟨-, hi⟩
    · exact hinv.pending i th o n ht (hp ▸ hx)
    · exact hinv.pending i x o n hi hx
  · -- `update_directly`: the new call is the only one owed, from the current id to the new one
    intro i x o' n' hi hx
    have hl : th.holdsLock = true := by rw [Thread.holdsLock_of_replaceOf hrep]; rfl
    obtain rfl := halone hl i x _ hi hx
    cases hp.symm.trans hx
    have hquiet : ∀ x ∈ s.threads, x.pendingRelease = none := fun x hx => by
      obtain ⟨j, hj⟩ := List.getElem?_of_mem hx
      cases hpx : x.pendingRelease with
      | none => rfl
      | some p =>
        obtain rfl := hlock.lock.eq_of_holds hj ht (Thread.holdsLock_of_pendingRelease hpx) hl
        cases hj.symm.trans ht
        rw [Thread.pendingRelease_of_replaceOf hrep] at hpx
        cases hpx
    obtain ⟨-, hcur⟩ := hlock.replace t th new _ ht hrep
    show sh'.released ++ _ = _
    rw [hr, hd, swapIds_assignBox, hinv.settled hquiet, hcur, hinv.newId t th new _ ht hrep]
  · -- `free_domain_resource`: the call `t` owed is made, and none is owed
    intro i x o' n' hi hx
    obtain rfl := halone (Thread.holdsLock_of_pendingRelease hp) i x _ hi hx
    cases hp'.symm.trans hx
  · intro hall
    rw [hr, hd]
    exact hinv.settled (forall_mem_of_forall_mem_set ht (hp ▸ hall th' (List.getElem?_mem ht')) hall)
  · intro hall
    cases hp.symm.trans (hall th' (List.getElem?_mem ht'))
  · intro _
    show sh'.released = _
    rw [hr, hd]
    exact hinv.pending t th o n ht hp

theorem Reachable.releaseInv {s : State} (h : Reachable s) : ReleaseInv s := by
  induction h with
  | init name domain loader ncpu tags domainList ts h =>
    exact releaseInv_init name domain loader ncpu tags domainList ts h
  | step _ _ hr hst ih => exact ih.step hr.lockInv hst

/-- In every run, `free_domain_resource` has been called once for each swap of
the proxy's implementation so far, in order, with the replaced id and its
successor's: the consecutive pairs of the boxes the cell has published, but for
the last pair while the `replace` that made it has yet to call. -/
theorem free_domain_resource_once_per_swap {s : State} (hs : Reachable s) :
    ((∀ th ∈ s.threads, th.pendingRelease = none) →
      s.shared.released = swapIds s.shared.domain.boxes) ∧
    ∀ (i : Nat) th o n, s.threads[i]? = some th → th.pendingRelease = some (o, n) →
      s.shared.released ++ [(o, n)] = swapIds s.shared.domain.boxes :=
  ⟨hs.releaseInv.settled, hs.releaseInv.pending⟩

theorem swapDemoSwapped_release :
    ((∀ th ∈ swapDemoSwapped.threads, th.pendingRelease = none) →
      swapDemoSwapped.shared.released = swapIds swapDemoSwapped.shared.domain.boxes) ∧
    ∀ (i : Nat) th o n, swapDemoSwapped.threads[i]? = some th → th.pendingRelease = some (o, n) →
      swapDemoSwapped.shared.released ++ [(o, n)] = swapIds swapDemoSwapped.shared.domain.boxes :=
  free_domain_resource_once_per_swap (run_reachable (.init _ _ _ _ _ _ _ (by decide))
    (show run swapDemo (List.replicate 12 (0, 0) ++ [(1, 0)]) = some swapDemoSwapped from rfl))

end HotUpgrade.Proxy
