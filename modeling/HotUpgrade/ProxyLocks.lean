import HotUpgrade.Proxy

/-! The proxy's two mutexes and `flag` over every run of calls, `replace`s and
`sys_update_domain`s. Each mutex names the one thread in a state that holds
it, and `flag` is true exactly while some `replace` is between its two stores;
such a `replace` holds both mutexes, so there is only one. Its
`self.domain_id()` therefore loads `flag` false and runs on the fast path, and
the id it records is that of the box its `update_directly` hands back. -/

namespace HotUpgrade.Proxy
open RemoteRef SRcu EmptyDevice

namespace CallPc

/-- Between `self.lock.lock()` and `drop(lock)`. -/
def holdsLock : CallPc → Bool
  | .entered .withLock | .running .withLock _ | .returned .withLock _ => true
  | _ => false

/-- Has loaded `flag` true. -/
def onLockedPath : CallPc → Bool
  | .chose .withLock | .entered .withLock | .running .withLock _ | .returned .withLock _ => true
  | _ => false

end CallPc

namespace ReplacePc

/-- Holds `domain_loader`'s mutex. -/
def holdsLoader : ReplacePc → Bool
  | .start | .done => false
  | _ => true

/-- Holds `lock`. -/
def holdsLock : ReplacePc → Bool
  | .start | .loaderLocked | .unlocked | .done => false
  | _ => true

/-- Between `flag.store(true)` and `flag.store(false)`. -/
def flagging : ReplacePc → Bool
  | .flagged _ | .drained _ | .initialized .. | .swapLoaded .. | .swapped .. | .panicked _ => true
  | _ => false

theorem holdsLock_of_flagging {pc : ReplacePc} (h : pc.flagging = true) : pc.holdsLock = true := by
  cases pc <;> first | rfl | cases h

theorem holdsLoader_of_holdsLock {pc : ReplacePc} (h : pc.holdsLock = true) : pc.holdsLoader = true := by
  cases pc <;> first | rfl | cases h

end ReplacePc

namespace Thread

/-- The `replace` a thread runs, directly or in `sys_update_domain`: its new
implementation and where it is. -/
def replaceOf : Thread → Option (EmptyDeviceDomain × ReplacePc)
  | .replace new _ pc | .update _ _ new _ (.replacing _ _ pc) => some (new, pc)
  | _ => none

def holdsLoader (th : Thread) : Bool := (th.replaceOf.map fun r => r.2.holdsLoader).getD false

def flagging (th : Thread) : Bool := (th.replaceOf.map fun r => r.2.flagging).getD false

def holdsLock : Thread → Bool
  | .call _ pc => pc.holdsLock
  | .replace _ _ pc => pc.holdsLock
  | .update _ _ _ _ (.queryOld sub) | .update _ _ _ _ (.queryArm _ sub) => sub.holdsLock
  | .update _ _ _ _ (.replacing _ _ pc) => pc.holdsLock
  | .update _ _ _ _ _ => false

theorem holdsLock_of_replaceOf {th : Thread} {new : EmptyDeviceDomain} {pc : ReplacePc}
    (h : th.replaceOf = some (new, pc)) : th.holdsLock = pc.holdsLock := by
  rcases th with _ | _ | ⟨_, _, _, _, _ | _ | _ | _ | _ | _⟩ <;> cases h <;> rfl

theorem replaceOf_of_flagging {th : Thread} (h : th.flagging = true) :
    ∃ new pc, th.replaceOf = some (new, pc) ∧ pc.flagging = true := by
  cases hr : th.replaceOf with
  | none => simp [flagging, hr] at h
  | some r =>
    obtain ⟨new, pc⟩ := r
    exact ⟨new, pc, rfl, by simpa [flagging, hr] using h⟩

theorem holdsLock_of_flagging {th : Thread} (h : th.flagging = true) : th.holdsLock = true := by
  obtain ⟨_, _, hr, hf⟩ := replaceOf_of_flagging h
  rw [holdsLock_of_replaceOf hr]
  exact ReplacePc.holdsLock_of_flagging hf

theorem holdsLoader_of_flagging {th : Thread} (h : th.flagging = true) : th.holdsLoader = true := by
  obtain ⟨_, _, hr, hf⟩ := replaceOf_of_flagging h
  simpa [holdsLoader, hr] using ReplacePc.holdsLoader_of_holdsLock (ReplacePc.holdsLock_of_flagging hf)

theorem idle_of_atStart {th : Thread} (h : th.atStart = true) :
    th.holdsLoader = false ∧ th.holdsLock = false ∧ th.flagging = false ∧
      ∀ new pc, th.replaceOf = some (new, pc) → pc = .start := by
  rcases th with ⟨_, _ | _⟩ | ⟨_, _, _ | _⟩ | ⟨_, _, _, _, _ | _⟩ <;> cases h <;>
    exact ⟨rfl, rfl, rfl, fun _ _ h => by cases h <;> rfl⟩

end Thread

/-! ## Mutexes and the flag -/

/-- How a step of thread `t` moves a mutex from `m` to `m'`, `held` and `held'`
saying whether `t` holds it before and after: it keeps it as it was, takes it
when free, or drops it. -/
def MutexStep (t : Nat) (held held' : Bool) (m m' : Option Nat) : Prop :=
  (m' = m ∧ held' = held) ∨ (m = none ∧ m' = some t ∧ held' = true) ∨
    (held = true ∧ held' = false ∧ m' = none)

/-- `m` names the thread of `ts` that holds it, by `holds`. -/
def MutexOf (holds : Thread → Bool) (ts : List Thread) (m : Option Nat) : Prop :=
  ∀ (i : Nat) th, ts[i]? = some th → (holds th = true ↔ m = some i)

/-- How a step moves `flag` and whether its thread is between the two stores. -/
def FlagStep (flagging flagging' f f' : Bool) : Prop :=
  (f' = f ∧ flagging' = flagging) ∨ (f' = true ∧ flagging' = true) ∨
    (flagging = true ∧ flagging' = false ∧ f' = false)

/-- `flag` is true exactly while a thread of `ts` is between the two stores. -/
def FlagOf (ts : List Thread) (f : Bool) : Prop :=
  f = true ↔ ∃ (i : Nat) (th : Thread), ts[i]? = some th ∧ th.flagging = true

section Mutex

variable {holds : Thread → Bool} {ts : List Thread} {t : Nat} {th th' : Thread}

theorem MutexOf.step {m m' : Option Nat} (hm : MutexOf holds ts m) (ht : ts[t]? = some th)
    (h : MutexStep t (holds th) (holds th') m m') : MutexOf holds (ts.set t th') m' := by
  intro i th₂ hi
  rcases getElem?_set_cases hi with ⟨rfl, rfl⟩ | ⟨hit, hi⟩
  · rcases h with ⟨rfl, he⟩ | ⟨-, rfl, he⟩ | ⟨-, he, rfl⟩
    · rw [he]; exact hm i th ht
    · simp [he]
    · simp [he]
  · have hi' := hm i th₂ hi
    rcases h with ⟨rfl, -⟩ | ⟨hn, rfl, -⟩ | ⟨hh, -, rfl⟩
    · exact hi'
    · rw [hn] at hi'; simp [hi', Ne.symm hit]
    · rw [(hm t th ht).mp hh] at hi'; simp [hi', Ne.symm hit]

theorem MutexOf.eq_of_holds {m : Option Nat} (hm : MutexOf holds ts m) {i j : Nat} {thi thj : Thread}
    (hi : ts[i]? = some thi) (hj : ts[j]? = some thj) (hhi : holds thi = true) (hhj : holds thj = true) :
    i = j :=
  Option.some.inj (((hm i thi hi).mp hhi).symm.trans ((hm j thj hj).mp hhj))

theorem FlagOf.step {f f' : Bool} {lock : Option Nat} (hf : FlagOf ts f)
    (hm : MutexOf Thread.holdsLock ts lock) (ht : ts[t]? = some th)
    (h : FlagStep th.flagging th'.flagging f f') : FlagOf (ts.set t th') f' := by
  have hset : (ts.set t th')[t]? = some th' := getElem?_set_of_getElem? ht
  rcases h with ⟨rfl, he⟩ | ⟨rfl, he⟩ | ⟨hth, he, rfl⟩
  · refine hf.trans ⟨fun ⟨i, th₂, hi, hfl⟩ => ?_, fun ⟨i, th₂, hi, hfl⟩ => ?_⟩
    · by_cases hit : i = t
      · subst hit; cases ht.symm.trans hi; exact ⟨i, th', hset, he.trans hfl⟩
      · exact ⟨i, th₂, by rwa [List.getElem?_set_ne (Ne.symm hit)], hfl⟩
    · rcases getElem?_set_cases hi with ⟨rfl, rfl⟩ | ⟨-, hi⟩
      · exact ⟨i, th, ht, he ▸ hfl⟩
      · exact ⟨i, th₂, hi, hfl⟩
  · exact ⟨fun _ => ⟨t, th', hset, he⟩, fun _ => rfl⟩
  · refine ⟨nofun, fun ⟨i, th₂, hi, hfl⟩ => ?_⟩
    rcases getElem?_set_cases hi with ⟨rfl, rfl⟩ | ⟨hit, hi⟩
    · simp [he] at hfl
    · exact absurd (hm.eq_of_holds hi ht (Thread.holdsLock_of_flagging hfl)
        (Thread.holdsLock_of_flagging hth)) hit

end Mutex

/-! ## What a step does to the mutexes and the flag -/

section Footprint

variable {t cpu : Nat} {sh sh' : Shared}

theorem CallMove.footprint {m : Method} {pc pc' : CallPc} (h : CallMove t cpu m sh pc pc' sh') :
    sh'.loaderLock = sh.loaderLock ∧ sh'.flag = sh.flag ∧ sh'.domain = sh.domain ∧
    MutexStep t pc.holdsLock pc'.holdsLock sh.lock sh'.lock := by
  cases h with
  | loadFlag => exact ⟨rfl, rfl, rfl, .inl ⟨rfl, rfl⟩⟩
  | lock hl => exact ⟨rfl, rfl, rfl, .inr (.inl ⟨hl, rfl, rfl⟩)⟩
  | unlock r => exact ⟨rfl, rfl, rfl, .inr (.inr ⟨rfl, rfl, rfl⟩)⟩
  | load path | run path _ _ _ => cases path <;> exact ⟨rfl, rfl, rfl, .inl ⟨rfl, rfl⟩⟩
  | count _ | uncount _ _ => exact ⟨rfl, rfl, rfl, .inl ⟨rfl, rfl⟩⟩

theorem CallMove.lock_eq {m : Method} {pc pc' : CallPc} (h : CallMove t cpu m sh pc pc' sh')
    (hp : pc.onLockedPath = false) : sh'.lock = sh.lock := by
  cases h <;> first | rfl | cases hp

theorem ReplaceMove.footprint {new : EmptyDeviceDomain} {loader : DomainLoader} {pc pc' : ReplacePc}
    (h : ReplaceMove t cpu new loader sh pc pc' sh')
    (hself : ∀ sub, pc = .querying sub → sub.onLockedPath = false) :
    MutexStep t pc.holdsLoader pc'.holdsLoader sh.loaderLock sh'.loaderLock ∧
    MutexStep t pc.holdsLock pc'.holdsLock sh.lock sh'.lock ∧
    FlagStep pc.flagging pc'.flagging sh.flag sh'.flag ∧
    (sh'.domain = sh.domain ∨ pc.holdsLock = true) := by
  cases h with
  | lockLoader hl => exact ⟨.inr (.inl ⟨hl, rfl, rfl⟩), .inl ⟨rfl, rfl⟩, .inl ⟨rfl, rfl⟩, .inl rfl⟩
  | lockLock hl => exact ⟨.inl ⟨rfl, rfl⟩, .inr (.inl ⟨hl, rfl, rfl⟩), .inl ⟨rfl, rfl⟩, .inl rfl⟩
  | query hm _ | queried hm =>
    obtain ⟨hl, hf, hd, -⟩ := hm.footprint
    exact ⟨.inl ⟨hl, rfl⟩, .inl ⟨hm.lock_eq (hself _ rfl), rfl⟩, .inl ⟨hf, rfl⟩, .inl hd⟩
  | storeTrue => exact ⟨.inl ⟨rfl, rfl⟩, .inl ⟨rfl, rfl⟩, .inr (.inl ⟨rfl, rfl⟩), .inl rfl⟩
  | storeFalse => exact ⟨.inl ⟨rfl, rfl⟩, .inl ⟨rfl, rfl⟩, .inr (.inr ⟨rfl, rfl, rfl⟩), .inl rfl⟩
  | assign => exact ⟨.inl ⟨rfl, rfl⟩, .inl ⟨rfl, rfl⟩, .inl ⟨rfl, rfl⟩, .inr rfl⟩
  | unlock => exact ⟨.inl ⟨rfl, rfl⟩, .inr (.inr ⟨rfl, rfl, rfl⟩), .inl ⟨rfl, rfl⟩, .inl rfl⟩
  | unlockLoader => exact ⟨.inr (.inr ⟨rfl, rfl, rfl⟩), .inl ⟨rfl, rfl⟩, .inl ⟨rfl, rfl⟩, .inl rfl⟩
  | drain | initOk | initErr | loadOld | free | setLoader =>
    exact ⟨.inl ⟨rfl, rfl⟩, .inl ⟨rfl, rfl⟩, .inl ⟨rfl, rfl⟩, .inl rfl⟩

theorem ThreadMove.footprint {th th' : Thread} (h : ThreadMove t cpu sh th th' sh')
    (hself : ∀ new sub, th.replaceOf = some (new, .querying sub) → sub.onLockedPath = false) :
    MutexStep t th.holdsLoader th'.holdsLoader sh.loaderLock sh'.loaderLock ∧
    MutexStep t th.holdsLock th'.holdsLock sh.lock sh'.lock ∧
    FlagStep th.flagging th'.flagging sh.flag sh'.flag ∧
    (sh'.domain = sh.domain ∨ th.holdsLock = true) := by
  have call : ∀ {m sub sub'}, CallMove t cpu m sh sub sub' sh' →
      MutexStep t false false sh.loaderLock sh'.loaderLock ∧
      MutexStep t sub.holdsLock sub'.holdsLock sh.lock sh'.lock ∧
      FlagStep false false sh.flag sh'.flag ∧ sh'.domain = sh.domain := fun hm =>
    have ⟨hl, hf, hd, hk⟩ := hm.footprint
    ⟨.inl ⟨hl, rfl⟩, hk, .inl ⟨hf, rfl⟩, hd⟩
  cases h with
  | call hm => have ⟨hl, hk, hf, hd⟩ := call hm; exact ⟨hl, hk, hf, .inl hd⟩
  | replace hm => exact hm.footprint fun sub h => hself _ sub (by rw [h]; rfl)
  | update hm =>
    cases hm with
    | found _ | notFound _ | updateList =>
      exact ⟨.inl ⟨rfl, rfl⟩, .inl ⟨rfl, rfl⟩, .inl ⟨rfl, rfl⟩, .inl rfl⟩
    | queryOld hm _ | queriedOld hm | queryArm _ hm _ | queriedArm _ hm =>
      have ⟨hl, hk, hf, hd⟩ := call hm; exact ⟨hl, hk, hf, .inl hd⟩
    | replace _ _ hm _ | replaced _ _ hm => exact hm.footprint fun sub h => hself _ sub (by rw [h]; rfl)

end Footprint

/-! ## What a `replace` knows of the cell -/

/-- The `self.domain_id()` of a `replace`: it has loaded `flag` false, and
what it has read from the cell is still what the cell holds. -/
def queryOk (c : SRcuData EmptyDeviceDomain) : CallPc → Prop
  | .start => True
  | .chose path | .entered path => path = .noLock
  | .running path p => path = .noLock ∧ p = c.dataPtr
  | .returned path r => path = .noLock ∧ r = .domainId c.current.domainId
  | .done _ => False

/-- The id a `replace` records is the installed box's, up to its own
`update_directly`; then it is the id of the box handed back. -/
def replaceOk (c : SRcuData EmptyDeviceDomain) : ReplacePc → Prop
  | .querying sub => queryOk c sub
  | .recorded oldId | .flagged oldId | .drained oldId | .initialized oldId _ | .panicked oldId =>
    c.current.domainId = oldId
  | .swapLoaded oldId _ q => q = c.dataPtr ∧ c.current.domainId = oldId
  | .swapped oldId _ q => (c.deref q).map EmptyDeviceDomain.domainId = some oldId
  | _ => True

theorem onLockedPath_of_queryOk {c : SRcuData EmptyDeviceDomain} {sub : CallPc} (h : queryOk c sub) :
    sub.onLockedPath = false := by
  rcases sub with _ | _ | _ | ⟨_, _⟩ | ⟨_, _⟩ | _ <;> first | rfl | (cases h; rfl) | (cases h.1; rfl)

theorem replaceOk_of_holdsLock_eq_false {c : SRcuData EmptyDeviceDomain} {pc : ReplacePc}
    (h : pc.holdsLock = false) : replaceOk c pc := by
  cases pc <;> trivial

section Knows

variable {t cpu : Nat} {sh sh' : Shared}

theorem CallMove.queryOk_step {sub sub' : CallPc} (h : CallMove t cpu .domainId sh sub sub' sh')
    (hok : queryOk sh.domain sub) (hflag : sh.flag = false) (hne : ∀ id, sub' ≠ .done (.domainId id)) :
    queryOk sh'.domain sub' := by
  cases h with
  | loadFlag => simp [queryOk, hflag]
  | count _ => rfl
  | lock _ => cases hok
  | unlock _ => cases hok.1
  | load path => exact ⟨hok, rfl⟩
  | run path p d hd =>
    obtain ⟨rfl, rfl⟩ := hok
    rw [SRcuData.deref_dataPtr] at hd
    cases hd
    exact ⟨rfl, rfl⟩
  | uncount r _ => exact absurd (congrArg CallPc.done hok.2) (hne _)

theorem CallMove.queried_id {sub : CallPc} {id : DomainId}
    (h : CallMove t cpu .domainId sh sub (.done (.domainId id)) sh') (hok : queryOk sh.domain sub) :
    sh'.domain.current.domainId = id := by
  cases h with
  | uncount _ _ => exact (Reply.domainId.inj hok.2).symm
  | unlock _ => cases hok.1

theorem ReplaceMove.replaceOk_step {new : EmptyDeviceDomain} {loader : DomainLoader} {pc pc' : ReplacePc}
    (h : ReplaceMove t cpu new loader sh pc pc' sh') (hok : replaceOk sh.domain pc)
    (hflag : pc.holdsLock = true → sh.flag = true → pc.flagging = true) : replaceOk sh'.domain pc' := by
  cases h with
  | lockLock _ => trivial
  | query hm hne =>
    exact hm.queryOk_step hok (Bool.eq_false_iff.mpr fun hf => by simpa [ReplacePc.flagging] using hflag rfl hf) hne
  | queried hm => exact hm.queried_id hok
  | storeTrue | drain _ | initOk _ | initErr _ _ => exact hok
  | loadOld => exact ⟨rfl, hok⟩
  | assign =>
    obtain ⟨rfl, hid⟩ := hok
    show ((sh.domain.assignBox new).deref sh.domain.dataPtr).map _ = _
    rw [SRcuData.deref_assignBox_of_le _ _ le_rfl, SRcuData.deref_dataPtr]
    exact congrArg some hid
  | lockLoader _ | storeFalse | free | setLoader | unlock | unlockLoader => trivial

theorem ThreadMove.replaceOk_step {th th' : Thread} (h : ThreadMove t cpu sh th th' sh')
    (hok : ∀ new pc, th.replaceOf = some (new, pc) → replaceOk sh.domain pc)
    (hflag : th.holdsLock = true → sh.flag = true → th.flagging = true) :
    ∀ new pc, th'.replaceOf = some (new, pc) → replaceOk sh'.domain pc := by
  intro new' pc' hr
  cases h with
  | call _ => cases hr
  | replace hm => cases hr; exact hm.replaceOk_step (hok _ _ rfl) hflag
  | update hm =>
    cases hm with
    | queriedArm _ _ => cases hr; trivial
    | replace _ _ hm _ => cases hr; exact hm.replaceOk_step (hok _ _ rfl) hflag
    | found _ | notFound _ | queryOld _ _ | queriedOld _ | queryArm _ _ _ | replaced _ _ _ | updateList =>
      cases hr

end Knows

/-! ## The invariant -/

structure LockInv (s : State) : Prop where
  loader : MutexOf Thread.holdsLoader s.threads s.shared.loaderLock
  lock : MutexOf Thread.holdsLock s.threads s.shared.lock
  flag : FlagOf s.threads s.shared.flag
  replace : ∀ (i : Nat) th new pc, s.threads[i]? = some th → th.replaceOf = some (new, pc) →
    replaceOk s.shared.domain pc

theorem lockInv_init (name : String) (domain : EmptyDeviceDomain) (loader : DomainLoader) (ncpu : Nat)
    (tags : TagHeap) (domainList : DomainList) (ts : List Thread) (h : ∀ th ∈ ts, th.atStart) :
    LockInv (init name domain loader ncpu tags domainList ts) := by
  have idle : ∀ (i : Nat) th, ts[i]? = some th → _ := fun i th hi =>
    Thread.idle_of_atStart (h th (List.getElem?_mem hi))
  refine ⟨fun i th hi => ?_, fun i th hi => ?_, ⟨nofun, fun ⟨i, th, hi, hf⟩ => ?_⟩,
    fun i th new pc hi hr => ?_⟩
  · simp [init, (idle i th hi).1]
  · simp [init, (idle i th hi).2.1]
  · simp [(idle i th hi).2.2.1] at hf
  · rw [(idle i th hi).2.2.2 new pc hr]; trivial

theorem LockInv.step {s s' : State} {t cpu : Nat} (hinv : LockInv s) (h : step s t cpu = some s') :
    LockInv s' := by
  obtain ⟨th, th', ht, hm, hts⟩ := step_cases h
  obtain ⟨sh', ts'⟩ := s'
  subst hts
  have hflag : th.holdsLock = true → s.shared.flag = true → th.flagging = true := fun hl hf => by
    obtain ⟨j, thj, hj, hfj⟩ := hinv.flag.mp hf
    obtain rfl := hinv.lock.eq_of_holds hj ht (Thread.holdsLock_of_flagging hfj) hl
    cases hj.symm.trans ht
    exact hfj
  obtain ⟨hl, hk, hf, hd⟩ :=
    hm.footprint fun new sub hr => onLockedPath_of_queryOk (hinv.replace t th new _ ht hr)
  refine ⟨hinv.loader.step ht hl, hinv.lock.step ht hk, hinv.flag.step hinv.lock ht hf, ?_⟩
  intro i th₂ new pc hi hr
  rcases getElem?_set_cases hi with ⟨rfl, rfl⟩ | ⟨hit, hi⟩
  · exact hm.replaceOk_step (fun new pc => hinv.replace _ th new pc ht) hflag new pc hr
  · rcases hd with hd | hd
    · rw [hd]; exact hinv.replace i th₂ new pc hi hr
    · cases hh : pc.holdsLock
      · exact replaceOk_of_holdsLock_eq_false hh
      · exact absurd (hinv.lock.eq_of_holds hi ht (by rw [Thread.holdsLock_of_replaceOf hr, hh]) hd) hit

theorem Reachable.lockInv {s : State} (h : Reachable s) : LockInv s := by
  induction h with
  | init name domain loader ncpu tags domainList ts h => exact lockInv_init name domain loader ncpu tags domainList ts h
  | step _ _ _ hst ih => exact ih.step hst

/-! ## `flag`, `lock` and the recorded id -/

theorem callStep_isSome_of_queryOk (t : Nat) {cpu : Nat} {sh : Shared} {sub : CallPc} (hok : queryOk sh.domain sub)
    (hcpu : cpu < sh.counter.length) : (callStep t cpu .domainId sub sh).isSome := by
  cases sub with
  | start | entered _ => rfl
  | chose path => obtain rfl := hok; simp [callStep, hcpu]
  | running path p => obtain ⟨rfl, rfl⟩ := hok; simp [callStep]
  | returned path r => obtain ⟨rfl, -⟩ := hok; simp [callStep, hcpu]
  | done _ => exact hok.elim

theorem step_isSome_of_querying {s : State} {i cpu : Nat} {th : Thread} {new : EmptyDeviceDomain}
    {sub : CallPc} (ht : s.threads[i]? = some th) (hr : th.replaceOf = some (new, .querying sub))
    (hok : queryOk s.shared.domain sub) (hcpu : cpu < s.shared.counter.length) : (step s i cpu).isSome := by
  have hc := callStep_isSome_of_queryOk i hok hcpu
  cases th with
  | call _ _ => cases hr
  | replace _ _ _ => cases hr; simp [step, ht, replaceStep, hc]
  | update _ _ _ _ pc =>
    cases pc with
    | replacing _ _ _ => cases hr; simp [step, ht, updateStep, replaceStep, hc]
    | start | queryOld _ | queryArm _ _ | replaced _ _ | done _ => cases hr

/-- In every run of any proxy calls, `replace`s and `sys_update_domain`s on any
number of CPUs: `flag` is true exactly while some `replace` is between its two
stores; that `replace` holds `lock` and `domain_loader`'s mutex, so it is the
only one. The `self.domain_id()` of a `replace` never takes the locked path and
can always go on, and the id a `replace` records is that of the box its
`update_directly` hands back. -/
theorem flag_only_while_replacing {s : State} (hs : Reachable s) :
    (s.shared.flag = true ↔ ∃ (i : Nat) (th : Thread), s.threads[i]? = some th ∧ th.flagging = true) ∧
    (∀ (i : Nat) th, s.threads[i]? = some th → th.flagging = true →
      s.shared.lock = some i ∧ s.shared.loaderLock = some i ∧
      ∀ (j : Nat) th', s.threads[j]? = some th' → th'.flagging = true → j = i) ∧
    (∀ (i : Nat) th new sub, s.threads[i]? = some th → th.replaceOf = some (new, .querying sub) →
      sub.onLockedPath = false ∧ ∀ cpu < s.shared.counter.length, (step s i cpu).isSome) ∧
    (∀ (i : Nat) th new oldId newId q, s.threads[i]? = some th →
      th.replaceOf = some (new, .swapped oldId newId q) →
      (s.shared.domain.deref q).map EmptyDeviceDomain.domainId = some oldId) := by
  have hinv := hs.lockInv
  refine ⟨hinv.flag, fun i th hi hf => ⟨(hinv.lock i th hi).mp (Thread.holdsLock_of_flagging hf),
    (hinv.loader i th hi).mp (Thread.holdsLoader_of_flagging hf), fun j th' hj hf' =>
      hinv.lock.eq_of_holds hj hi (Thread.holdsLock_of_flagging hf') (Thread.holdsLock_of_flagging hf)⟩,
    fun i th new sub hi hr => ?_, fun i th new _ _ _ hi hr => hinv.replace i th new _ hi hr⟩
  have hok := hinv.replace i th new _ hi hr
  exact ⟨onLockedPath_of_queryOk hok, fun cpu hcpu => step_isSome_of_querying hi hr hok hcpu⟩

/-- A proxy on the empty implementation under id `7`, one CPU; a `replace` by
the empty implementation under id `8`, and a `domain_id()` call. -/
def swapDemo : State :=
  init "empty_device" { EmptyDeviceDomainEmptyImpl.new with domainId := 7 } 1 1 (fun _ => 0) []
    [.replace { EmptyDeviceDomainEmptyImpl.new with domainId := 8 } 2 .start, .call .domainId .start]

/-- `swapDemo` once the `replace` has swapped the boxes and the call has
loaded `flag` true. -/
def swapDemoSwapped : State := (run swapDemo (List.replicate 12 (0, 0) ++ [(1, 0)])).getD swapDemo

/-- `swapDemo` with the `replace` inside its `self.domain_id()`, which has loaded
`flag` false. -/
def swapDemoQuerying : State := (run swapDemo (List.replicate 3 (0, 0))).getD swapDemo

theorem swapDemoSwapped_flag :
    ((swapDemoSwapped.shared.flag = true ↔
      ∃ (i : Nat) (th : Thread), swapDemoSwapped.threads[i]? = some th ∧ th.flagging = true) ∧
    (∀ (i : Nat) th, swapDemoSwapped.threads[i]? = some th → th.flagging = true →
      swapDemoSwapped.shared.lock = some i ∧ swapDemoSwapped.shared.loaderLock = some i ∧
      ∀ (j : Nat) th', swapDemoSwapped.threads[j]? = some th' → th'.flagging = true → j = i) ∧
    (∀ (i : Nat) th new sub, swapDemoSwapped.threads[i]? = some th →
      th.replaceOf = some (new, .querying sub) →
      sub.onLockedPath = false ∧ ∀ cpu < swapDemoSwapped.shared.counter.length,
        (step swapDemoSwapped i cpu).isSome) ∧
    (∀ (i : Nat) th new oldId newId q, swapDemoSwapped.threads[i]? = some th →
      th.replaceOf = some (new, .swapped oldId newId q) →
      (swapDemoSwapped.shared.domain.deref q).map EmptyDeviceDomain.domainId = some oldId)) ∧
    (swapDemoQuerying.threads[0]? =
        some (.replace { EmptyDeviceDomainEmptyImpl.new with domainId := 8 } 2 (.querying (.chose .noLock))) ∧
      (CallPc.chose .noLock).onLockedPath = false ∧
      ∀ cpu < swapDemoQuerying.shared.counter.length, (step swapDemoQuerying 0 cpu).isSome) :=
  have hquery : swapDemoQuerying.threads[0]? =
      some (.replace { EmptyDeviceDomainEmptyImpl.new with domainId := 8 } 2 (.querying (.chose .noLock))) := rfl
  ⟨flag_only_while_replacing (Reachable.run_getD (.init _ _ _ _ _ _ _ (by decide)) _),
    hquery, (flag_only_while_replacing (Reachable.run_getD (.init _ _ _ _ _ _ _ (by decide)) _)).2.2.1 0 _ _ _
      hquery rfl⟩

/-! ## The locked path -/

/-- The `self.domain_id()` a `replace` runs. -/
def ReplacePc.callOf : ReplacePc → Option CallPc
  | .querying pc => some pc
  | _ => none

/-- The proxy call a thread runs: itself, or the `domain_id()` of its
`replace` or of its `sys_update_domain`. -/
def Thread.callOf : Thread → Option CallPc
  | .call _ pc | .update _ _ _ _ (.queryOld pc) | .update _ _ _ _ (.queryArm _ pc) => some pc
  | .replace _ _ pc | .update _ _ _ _ (.replacing _ _ pc) => pc.callOf
  | _ => none

/-- A call on the locked path runs on the box the cell publishes. -/
def lockedOk (c : SRcuData EmptyDeviceDomain) (th : Thread) : Prop :=
  ∀ p, th.callOf = some (.running .withLock p) → p = c.dataPtr

namespace Thread

theorem holdsLock_of_callOf {th : Thread} {sub : CallPc} (h : th.callOf = some sub)
    (hl : sub.holdsLock = true) : th.holdsLock = true := by
  rcases th with _ | ⟨_, _, _ | _ | _⟩ | ⟨_, _, _, _, _ | _ | _ | ⟨_, _, _ | _ | _⟩⟩ <;> cases h <;>
    first | rfl | exact hl

theorem flagging_of_callOf {th : Thread} {sub : CallPc} (h : th.callOf = some sub) :
    th.flagging = false := by
  rcases th with _ | ⟨_, _, _ | _ | _⟩ | ⟨_, _, _, _, _ | _ | _ | ⟨_, _, _ | _ | _⟩⟩ <;> cases h <;> rfl

end Thread

section Locked

variable {t cpu : Nat} {sh sh' : Shared}

theorem CallMove.dataPtr_of_running {m : Method} {sub : CallPc} {path : Path} {p : Nat}
    (h : CallMove t cpu m sh sub (.running path p) sh') : p = sh'.domain.dataPtr := by
  cases h; rfl

theorem ReplaceMove.callOf_step {new : EmptyDeviceDomain} {loader : DomainLoader} {pc pc' : ReplacePc}
    {sub' : CallPc} (h : ReplaceMove t cpu new loader sh pc pc' sh') (h' : pc'.callOf = some sub') :
    sub' = .start ∨ ∃ sub, pc.callOf = some sub ∧ CallMove t cpu .domainId sh sub sub' sh' := by
  cases h with
  | lockLock _ => cases h'; exact .inl rfl
  | query hm _ => cases h'; exact .inr ⟨_, rfl, hm⟩
  | _ => cases h'

theorem ThreadMove.callOf_step {th th' : Thread} {sub' : CallPc} (h : ThreadMove t cpu sh th th' sh')
    (h' : th'.callOf = some sub') :
    sub' = .start ∨ ∃ m sub, th.callOf = some sub ∧ CallMove t cpu m sh sub sub' sh' := by
  have rep : ∀ {new loader pc pc'}, ReplaceMove t cpu new loader sh pc pc' sh' → pc'.callOf = some sub' →
      sub' = .start ∨ ∃ m sub, pc.callOf = some sub ∧ CallMove t cpu m sh sub sub' sh' := fun hm h' =>
    (hm.callOf_step h').imp_right fun ⟨sub, hs, hc⟩ => ⟨_, sub, hs, hc⟩
  cases h with
  | call hm => cases h'; exact .inr ⟨_, _, rfl, hm⟩
  | replace hm => exact rep hm h'
  | update hm =>
    cases hm with
    | found _ | queriedOld _ => cases h'; exact .inl rfl
    | queryOld hm _ | queryArm _ hm _ => cases h'; exact .inr ⟨_, _, rfl, hm⟩
    | replace _ _ hm _ => exact rep hm h'
    | notFound _ | queriedArm _ _ | replaced _ _ _ | updateList => cases h'

end Locked

theorem lockedOk_step {s s' : State} {t cpu : Nat} (hinv : LockInv s)
    (hok : ∀ (i : Nat) th, s.threads[i]? = some th → lockedOk s.shared.domain th)
    (h : step s t cpu = some s') : ∀ (i : Nat) th, s'.threads[i]? = some th → lockedOk s'.shared.domain th := by
  obtain ⟨th, th', ht, hm, hts⟩ := step_cases h
  have hd := (hm.footprint fun new sub hr => onLockedPath_of_queryOk (hinv.replace t th new _ ht hr)).2.2.2
  rw [hts]
  intro i th₂ hi p hp
  rcases getElem?_set_cases hi with ⟨rfl, rfl⟩ | ⟨hit, hi⟩
  · rcases hm.callOf_step hp with h0 | ⟨_, _, -, hc⟩
    · cases h0
    · exact hc.dataPtr_of_running
  · rcases hd with hd | hd
    · rw [hd]; exact hok i th₂ hi p hp
    · exact absurd (hinv.lock.eq_of_holds hi ht (Thread.holdsLock_of_callOf hp rfl) hd) hit

theorem Reachable.lockedOk {s : State} (h : Reachable s) :
    ∀ (i : Nat) th, s.threads[i]? = some th → lockedOk s.shared.domain th := by
  induction h with
  | init _ _ _ _ _ _ ts h =>
    intro i th hi p hp
    have hs := h th (List.getElem?_mem hi)
    rcases th with ⟨_, _ | _⟩ | ⟨_, _, _ | _⟩ | ⟨_, _, _, _, _ | _⟩ <;> cases hs <;> cases hp
  | step _ _ hr hst ih => exact lockedOk_step hr.lockInv ih hst

/-- In every run, a proxy call on the locked path, alone or inside a
`sys_update_domain`, runs its method on the implementation installed now: it
holds `lock`, and `flag` is false, so no `replace` is between its two stores. -/
theorem locked_call_runs_installed {s : State} (hs : Reachable s) {i p : Nat} {th : Thread}
    (hi : s.threads[i]? = some th) (hc : th.callOf = some (.running .withLock p)) :
    s.shared.domain.deref p = some s.shared.domain.current ∧ s.shared.lock = some i ∧
      s.shared.flag = false := by
  have hinv := hs.lockInv
  have hl := Thread.holdsLock_of_callOf hc rfl
  refine ⟨by rw [hs.lockedOk i th hi p hc, SRcuData.deref_dataPtr], (hinv.lock i th hi).mp hl,
    Bool.eq_false_iff.mpr fun hf => ?_⟩
  obtain ⟨j, thj, hj, hfj⟩ := hinv.flag.mp hf
  obtain rfl := hinv.lock.eq_of_holds hj hi (Thread.holdsLock_of_flagging hfj) hl
  cases hj.symm.trans hi
  simp [Thread.flagging_of_callOf hc] at hfj

/-- `swapDemo` once the `replace` has returned and the call, which loaded
`flag` true, has taken `lock` and loaded the new box. -/
def swapDemoLocked : State :=
  (run swapDemo (List.replicate 12 (0, 0) ++ [(1, 0)] ++ List.replicate 4 (0, 0) ++ [(1, 0), (1, 0)])).getD
    swapDemo

theorem swapDemoLocked_installed :
    swapDemoLocked.shared.domain.deref 1 = some swapDemoLocked.shared.domain.current ∧
      swapDemoLocked.shared.lock = some 1 ∧ swapDemoLocked.shared.flag = false :=
  @locked_call_runs_installed swapDemoLocked (run_reachable (.init _ _ _ _ _ _ _ (by decide))
    (show run swapDemo (List.replicate 12 (0, 0) ++ [(1, 0)] ++ List.replicate 4 (0, 0) ++ [(1, 0), (1, 0)]) =
      some swapDemoLocked from rfl)) 1 1 (.call .domainId (.running .withLock 1)) rfl rfl

/-! ## The drain's blind spot

The drain waits until `counter.sum()` is `0`, and a fast-path call counts
itself only after it has loaded `flag`. A call that has loaded `flag` false
but not yet counted itself is not seen: it can count itself after the drain,
load the old box and still be running on it once `replace` has swapped it out
and called `free_domain_resource` for its domain. -/

/-- One CPU; a `domain_id()` call and a `replace` by the empty implementation
under id `8` of a proxy on the empty implementation under id `7`. -/
def raceDemo : State :=
  init "empty_device" { EmptyDeviceDomainEmptyImpl.new with domainId := 7 } 1 1 (fun _ => 0) []
    [.call .domainId .start, .replace { EmptyDeviceDomainEmptyImpl.new with domainId := 8 } 2 .start]

/-- The call loads `flag` false; `replace` takes both mutexes, runs its
`domain_id()`, stores `flag` and drains; the call counts itself and loads box
`0`; `replace` initialises, swaps and frees domain `7`. -/
def raceDemoSchedule : List (Nat × Nat) :=
  [(0, 0)] ++ List.replicate 9 (1, 0) ++ [(0, 0), (0, 0)] ++ List.replicate 5 (1, 0)

def raceDemoFreed : State := (run raceDemo raceDemoSchedule).getD raceDemo

/-- Not every call runs wholly on the old implementation and before the swap,
or wholly on the new one: a fast-path call can still be running on box `p` once
`replace` has swapped it out and called `free_domain_resource` for its domain. -/
theorem fast_call_outlives_replace :
    ¬ ∀ s : State, Reachable s → ∀ (i p : Nat) m path, s.threads[i]? = some (.call m (.running path p)) →
      ¬ (p < s.shared.domain.dataPtr ∧ ∃ d newId, s.shared.domain.deref p = some d ∧
        (d.domainId, newId) ∈ s.shared.released) := fun h =>
  h raceDemoFreed (Reachable.run_getD (.init _ _ _ _ _ _ _ (by decide)) _) 0 0 .domainId .noLock rfl
    ⟨by decide, { EmptyDeviceDomainEmptyImpl.new with domainId := 7 }, 8, rfl, by decide⟩

end HotUpgrade.Proxy
