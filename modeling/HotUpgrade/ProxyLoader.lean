import HotUpgrade.ProxyLocks

/-! The proxy's `domain_loader` over every run of calls, `replace`s and
`sys_update_domain`s. Only a `replace` writes it, with `*loader_guard =
domain_loader` after its `update_directly`, and it holds the loader's mutex
from before the swap until after the store. So between the two the installed
implementation is the new one of that `replace`, and while no `replace` holds
the mutex the installed implementation and `domain_loader` came together from
one `replace` past its store, unless no `replace` has swapped yet. That is the
pair the proxy keeps for reloading. -/

namespace HotUpgrade.Proxy
open RemoteRef SRcu EmptyDevice

namespace ReplacePc

/-- Between `update_directly` and `*loader_guard = domain_loader`. -/
def swapping : ReplacePc → Bool
  | .swapped .. | .unflagged .. | .freed => true
  | _ => false

/-- Past `*loader_guard = domain_loader`. -/
def loaderStored : ReplacePc → Bool
  | .loaderSet | .unlocked | .done => true
  | _ => false

theorem holdsLoader_of_swapping {pc : ReplacePc} (h : pc.swapping = true) : pc.holdsLoader = true := by
  cases pc <;> first | rfl | cases h

end ReplacePc

namespace Thread

/-- The `replace` a thread runs, with its new implementation and loader; a
`sys_update_domain` past its `replace` counts as one that has returned. -/
def replaceCall : Thread → Option (EmptyDeviceDomain × DomainLoader × ReplacePc)
  | .replace new loader pc | .update _ _ new loader (.replacing _ _ pc) => some (new, loader, pc)
  | .update _ _ new loader (.replaced ..) | .update _ _ new loader (.done (.ok ())) => some (new, loader, .done)
  | _ => none

/-- The new implementation and loader of a `replace` between its swap and its
store of the loader. -/
def swapping (th : Thread) : Option (EmptyDeviceDomain × DomainLoader) :=
  th.replaceCall.bind fun (new, loader, pc) => if pc.swapping then some (new, loader) else none

/-- The new implementation and loader of a `replace` past its store of the loader. -/
def loaderStored (th : Thread) : Option (EmptyDeviceDomain × DomainLoader) :=
  th.replaceCall.bind fun (new, loader, pc) => if pc.loaderStored then some (new, loader) else none

variable {th : Thread} {new : EmptyDeviceDomain} {loader : DomainLoader} {pc : ReplacePc}

theorem swapping_of_replaceCall (h : th.replaceCall = some (new, loader, pc)) :
    th.swapping = if pc.swapping then some (new, loader) else none := by
  rw [swapping, h]; rfl

theorem loaderStored_of_replaceCall (h : th.replaceCall = some (new, loader, pc)) :
    th.loaderStored = if pc.loaderStored then some (new, loader) else none := by
  rw [loaderStored, h]; rfl

theorem holdsLoader_of_replaceCall (h : th.replaceCall = some (new, loader, pc)) :
    th.holdsLoader = pc.holdsLoader := by
  rcases th with _ | _ | ⟨_, _, _, _, _ | _ | _ | _ | _ | _ | _⟩ <;> cases h <;> rfl

theorem holdsLoader_of_swapping {x : EmptyDeviceDomain × DomainLoader} (h : th.swapping = some x) :
    th.holdsLoader = true := by
  obtain ⟨⟨new, loader, pc⟩, hr, hs⟩ := Option.bind_eq_some.mp h
  rw [holdsLoader_of_replaceCall hr]
  exact ReplacePc.holdsLoader_of_swapping (by by_contra hp; simp [hp] at hs)

theorem swapping_of_atStart (h : th.atStart = true) : th.swapping = none := by
  rcases th with ⟨_, _ | _⟩ | ⟨_, _, _ | _⟩ | ⟨_, _, _, _, _ | _⟩ <;> first | rfl | cases h

end Thread

/-! ## What a step does to the installed implementation and the loader -/

section Step

variable {t cpu : Nat} {sh sh' : Shared}

theorem CallMove.domainLoader_eq {m : Method} {pc pc' : CallPc} (h : CallMove t cpu m sh pc pc' sh') :
    sh'.domainLoader = sh.domainLoader := by
  cases h <;> rfl

theorem ReplaceMove.loader_cases {new : EmptyDeviceDomain} {loader : DomainLoader} {pc pc' : ReplacePc}
    (h : ReplaceMove t cpu new loader sh pc pc' sh') :
    (sh'.domain = sh.domain ∧ sh'.domainLoader = sh.domainLoader ∧ pc'.swapping = pc.swapping ∧
      pc'.loaderStored = pc.loaderStored) ∨
    (∃ o n q, pc = .swapLoaded o n q ∧ pc' = .swapped o n q ∧ sh'.domain = sh.domain.assignBox new) ∨
    (pc = .freed ∧ pc' = .loaderSet ∧ sh'.domain = sh.domain ∧ sh'.domainLoader = loader) := by
  cases h with
  | query hm _ | queried hm => exact .inl ⟨hm.footprint.2.2.1, hm.domainLoader_eq, rfl, rfl⟩
  | assign o n q => exact .inr (.inl ⟨o, n, q, rfl, rfl, rfl⟩)
  | setLoader => exact .inr (.inr ⟨rfl, rfl, rfl, rfl⟩)
  | _ => exact .inl ⟨rfl, rfl, rfl, rfl⟩

/-- The three cases of `ReplaceMove.loader_cases`, for a thread: the swap is
made by a thread holding the loader's mutex, and the store ends the thread's
swap. -/
def LoaderStep (sh sh' : Shared) (th th' : Thread) : Prop :=
  (sh'.domain = sh.domain ∧ sh'.domainLoader = sh.domainLoader ∧ th'.swapping = th.swapping ∧
    th'.loaderStored = th.loaderStored) ∨
  (∃ new loader, th.holdsLoader = true ∧ th'.swapping = some (new, loader) ∧
    sh'.domain = sh.domain.assignBox new) ∨
  (∃ new loader, th.swapping = some (new, loader) ∧ th'.swapping = none ∧
    th'.loaderStored = some (new, loader) ∧ sh'.domain = sh.domain ∧ sh'.domainLoader = loader)

theorem ReplaceMove.loaderStep {new : EmptyDeviceDomain} {loader : DomainLoader} {pc pc' : ReplacePc}
    (h : ReplaceMove t cpu new loader sh pc pc' sh') {th th' : Thread}
    (hth : th.replaceCall = some (new, loader, pc)) (hth' : th'.replaceCall = some (new, loader, pc')) :
    LoaderStep sh sh' th th' := by
  rw [LoaderStep, Thread.swapping_of_replaceCall hth, Thread.swapping_of_replaceCall hth',
    Thread.loaderStored_of_replaceCall hth, Thread.loaderStored_of_replaceCall hth',
    Thread.holdsLoader_of_replaceCall hth]
  rcases h.loader_cases with ⟨hd, hk, hsw, hst⟩ | ⟨o, n, q, rfl, rfl, hd⟩ | ⟨rfl, rfl, hd, hk⟩
  · exact .inl ⟨hd, hk, by rw [hsw], by rw [hst]⟩
  · exact .inr (.inl ⟨new, loader, rfl, rfl, hd⟩)
  · exact .inr (.inr ⟨new, loader, rfl, rfl, rfl, hd, hk⟩)

theorem ThreadMove.loaderStep {th th' : Thread} (h : ThreadMove t cpu sh th th' sh') :
    LoaderStep sh sh' th th' := by
  cases h with
  | call hm => exact .inl ⟨hm.footprint.2.2.1, hm.domainLoader_eq, rfl, rfl⟩
  | replace hm => exact hm.loaderStep rfl rfl
  | update hm =>
    cases hm with
    | replace _ _ hm _ | replaced _ _ hm => exact hm.loaderStep rfl rfl
    | queryOld hm _ | queriedOld hm | queryArm _ hm _ | queriedArm _ hm =>
      exact .inl ⟨hm.footprint.2.2.1, hm.domainLoader_eq, rfl, rfl⟩
    | found _ | notFound _ | updateList => exact .inl ⟨rfl, rfl, rfl, rfl⟩

end Step

/-! ## The invariant -/

/-- A `replace` between its swap and its store installed its implementation,
and with none there, the installed implementation and `domain_loader` are the
pair of one `replace` past its store, unless nothing has been swapped. -/
structure LoaderInv (s : State) : Prop where
  swap : ∀ th ∈ s.threads, ∀ new loader, th.swapping = some (new, loader) → s.shared.domain.current = new
  settled : (∀ th ∈ s.threads, th.swapping = none) → s.shared.domain.dataPtr = 0 ∨
    ∃ th ∈ s.threads, th.loaderStored = some (s.shared.domain.current, s.shared.domainLoader)

theorem loaderInv_init (name : String) (domain : EmptyDeviceDomain) (loader : DomainLoader) (ncpu : Nat)
    (tags : TagHeap) (domainList : DomainList) (ts : List Thread) (h : ∀ th ∈ ts, th.atStart) :
    LoaderInv (init name domain loader ncpu tags domainList ts) :=
  ⟨fun th hth _ _ hs => by simp [Thread.swapping_of_atStart (h th hth)] at hs, fun _ => .inl rfl⟩

theorem LoaderInv.step {s s' : State} {t cpu : Nat} (hinv : LoaderInv s) (hlock : LockInv s)
    (h : step s t cpu = some s') : LoaderInv s' := by
  obtain ⟨th, th', ht, hm, hts⟩ := step_cases h
  have hmem : th' ∈ s'.threads := hts ▸ List.getElem?_mem (getElem?_set_of_getElem? ht)
  have others : ∀ x ∈ s'.threads, x = th' ∨ ∃ j, j ≠ t ∧ s.threads[j]? = some x := fun x hx => by
    obtain ⟨j, hj⟩ := List.getElem?_of_mem (hts ▸ hx)
    rcases getElem?_set_cases hj with ⟨-, rfl⟩ | ⟨hjt, hj⟩
    · exact .inl rfl
    · exact .inr ⟨j, hjt, hj⟩
  -- while `t` holds the loader's mutex, no other thread is between its swap and its store
  have sole : th.holdsLoader = true → ∀ x ∈ s'.threads, ∀ n l, x.swapping = some (n, l) → x = th' :=
    fun hl x hx n l hx' => (others x hx).resolve_right fun ⟨j, hjt, hj⟩ =>
      hjt (hlock.loader.eq_of_holds hj ht (Thread.holdsLoader_of_swapping hx') hl)
  rcases hm.loaderStep with ⟨hd, hk, hsw, hst⟩ | ⟨new, loader, hl, hsome, hd⟩ |
    ⟨new, loader, hsome, hnone, hst, hd, hk⟩
  · -- neither the swap nor the store
    refine ⟨fun x hx n l hx' => ?_, fun hall => ?_⟩
    · rw [hd]
      rcases others x hx with rfl | ⟨j, -, hj⟩
      · exact hinv.swap th (List.getElem?_mem ht) n l (hsw ▸ hx')
      · exact hinv.swap x (List.getElem?_mem hj) n l hx'
    · rw [hts] at hall
      rcases hinv.settled (forall_mem_of_forall_mem_set ht (hsw ▸ hall th' (hts ▸ hmem)) hall) with h0 | hex
      · exact .inl (by rw [hd, h0])
      · exact .inr (by rw [hd, hk, hts]; exact exists_mem_set_of_exists_mem ht (fun h => hst ▸ h) hex)
  · -- the swap, by the holder of the loader's mutex
    refine ⟨fun x hx n l hx' => ?_, fun hall => by simp [hall th' hmem] at hsome⟩
    obtain rfl := sole hl x hx n l hx'
    rw [hd, SRcuData.current_assignBox]
    exact (Prod.mk.inj (Option.some.inj (hsome.symm.trans hx'))).1
  · -- the store of the loader
    refine ⟨fun x hx n l hx' => ?_, fun _ => .inr ⟨th', hmem, ?_⟩⟩
    · obtain rfl := sole (Thread.holdsLoader_of_swapping hsome) x hx n l hx'
      simp [hnone] at hx'
    · rw [hst, hd, hk, hinv.swap th (List.getElem?_mem ht) new loader hsome]

theorem Reachable.loaderInv {s : State} (h : Reachable s) : LoaderInv s := by
  induction h with
  | init name domain loader ncpu tags domainList ts h => exact loaderInv_init name domain loader ncpu tags domainList ts h
  | step _ _ hr hst ih => exact ih.step hr.lockInv hst

/-- In every reachable state, a `replace` between `update_directly` and
`*loader_guard = domain_loader` has its new implementation installed; and
while no `replace` holds `domain_loader`'s mutex, the installed implementation
and `domain_loader` are the new implementation and the loader of one `replace`
that has stored its loader, unless no `replace` has swapped. -/
theorem domain_loader_matches_installed {s : State} (hs : Reachable s) :
    (∀ th ∈ s.threads, ∀ new loader, th.swapping = some (new, loader) → s.shared.domain.current = new) ∧
    (s.shared.loaderLock = none → s.shared.domain.dataPtr = 0 ∨
      ∃ th ∈ s.threads, th.loaderStored = some (s.shared.domain.current, s.shared.domainLoader)) := by
  have hinv := hs.loaderInv
  refine ⟨hinv.swap, fun hfree => hinv.settled fun th hth => ?_⟩
  obtain ⟨i, hi⟩ := List.getElem?_of_mem hth
  cases hsw : th.swapping with
  | none => rfl
  | some x => simpa [hfree] using (hs.lockInv.loader i th hi).mp (Thread.holdsLoader_of_swapping hsw)

/-- `swapDemoLocked` once the `replace` has released `domain_loader`'s mutex. -/
def swapDemoReturned : State :=
  (run swapDemo (List.replicate 12 (0, 0) ++ [(1, 0)] ++ List.replicate 4 (0, 0) ++ [(1, 0), (1, 0), (0, 0)])).getD
    swapDemo

theorem swapDemoReturned_loader :
    (∃ th ∈ swapDemoSwapped.threads, th.swapping.isSome) ∧
    (∀ th ∈ swapDemoSwapped.threads, ∀ new loader, th.swapping = some (new, loader) →
      swapDemoSwapped.shared.domain.current = new) ∧
    swapDemoReturned.shared.loaderLock = none ∧ swapDemoReturned.shared.domain.dataPtr ≠ 0 ∧
    (swapDemoReturned.shared.domain.dataPtr = 0 ∨ ∃ th ∈ swapDemoReturned.threads,
      th.loaderStored = some (swapDemoReturned.shared.domain.current, swapDemoReturned.shared.domainLoader)) :=
  have hswapped : Reachable swapDemoSwapped := Reachable.run_getD (.init _ _ _ _ _ _ _ (by decide)) _
  have hreturned : Reachable swapDemoReturned := Reachable.run_getD (.init _ _ _ _ _ _ _ (by decide)) _
  have hfree : swapDemoReturned.shared.loaderLock = none := by decide
  ⟨by decide, (domain_loader_matches_installed hswapped).1, hfree, by decide,
    (domain_loader_matches_installed hreturned).2 hfree⟩

end HotUpgrade.Proxy
