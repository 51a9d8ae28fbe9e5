import Mathlib.Algebra.BigOperators.Group.List
import Mathlib.Algebra.Ring.Int.Defs
import HotUpgrade.EmptyDevice
import HotUpgrade.Interleaving

/-! `EmptyDeviceDomainProxy` of `empty_device.rs` and `sys_update_domain` of
`syscall.rs`, run by any number of threads, one call per thread. A thread is a
proxy call (`domain_id`, `read`, `write`), a `replace`, or a
`sys_update_domain` of the proxy's name; a step is one access to shared state.
The `domain_id()` calls inside `replace` (line 335) and `sys_update_domain`
(lines 103 and 132) are proxy calls, run as part of the enclosing thread.

Not under `src/`, and modelled from the spec: `LongLongPerCpu` is a list of
shards, `get_with` acts on the shard of the CPU the step runs on and `sum`
reads them all at once; `free_domain_resource(old, NotFree(new))` is recorded and
nothing else; `create_domain_or_empty` returns the implementation the
`sys_update_domain` thread carries, with its `domain_id()` as the id, and a
loader; `query_domain` finds the proxy under one name. A `panic!`, at
`init().unwrap()`, stops its thread where it is, with what it holds. The
`DOMAIN_INFO` critical section is one step: nothing else touches the list.

The drain's `while` loop is one step, which can be taken once `counter.sum()`
is `0`; its spinning is no step. A domain's method runs in one step and
returns: a method that panics or never returns is not modelled. -/

namespace HotUpgrade.Proxy
open RemoteRef SRcu EmptyDevice

/-- `DomainLoader`, by the file it loaded. -/
abbrev DomainLoader := Nat

abbrev DomainTypeRaw := Nat

/-- `DomainDataInfo`; `file_info` is the loader's `domain_file_info()`. -/
structure DomainDataInfo where
  name : String
  ty : DomainTypeRaw
  panicCount : Nat
  fileInfo : DomainLoader
deriving DecidableEq, Repr

/-- `DOMAIN_INFO.domain_list`: a `BTreeMap<u64, DomainDataInfo>`. -/
abbrev DomainList := List (DomainId × DomainDataInfo)

/-- `BTreeMap::remove`. -/
def DomainList.remove (m : DomainList) (k : DomainId) : DomainList := m.filter (·.1 != k)

/-- `BTreeMap::insert`: an entry under `k` is replaced. -/
def DomainList.insert (m : DomainList) (k : DomainId) (v : DomainDataInfo) : DomainList :=
  (k, v) :: DomainList.remove m k

/-- `LongLongPerCpu::get_with(|counter| *counter += d)` on the shard of `cpu`. -/
def getWith (counter : List Int) (cpu : Nat) (d : Int) : List Int :=
  counter.set cpu (counter.getD cpu 0 + d)

/-- The proxy's fields, the tag slots of the shared heap, the calls of
`free_domain_resource` so far and `DOMAIN_INFO.domain_list`. `lock` and
`loaderLock` name the thread holding the mutex. -/
structure Shared where
  proxyName : String
  domain : SRcuData EmptyDeviceDomain
  lock : Option Nat
  domainLoader : DomainLoader
  loaderLock : Option Nat
  flag : Bool
  counter : List Int
  tags : TagHeap
  released : List (DomainId × DomainId)
  domainList : DomainList

/-- The dispatch's choice: `_method_no_lock` or `_method_with_lock`. -/
inductive Path
  | noLock
  | withLock
deriving DecidableEq, Repr

/-- A proxy call: it loads `flag`, counts itself on a shard or takes `lock`,
loads the domain pointer (`read_directly`), runs the method on that box,
and uncounts itself or releases `lock`. -/
inductive CallPc
  | start
  | chose (path : Path)
  | entered (path : Path)
  | running (path : Path) (p : Nat)
  | returned (path : Path) (r : Reply)
  | done (r : Reply)

/-- `replace(new_domain, domain_loader)`, after each of its shared accesses;
`querying` runs its `self.domain_id()`. -/
inductive ReplacePc
  | start
  | loaderLocked
  | querying (sub : CallPc)
  | recorded (oldId : DomainId)
  | flagged (oldId : DomainId)
  | drained (oldId : DomainId)
  | initialized (oldId newId : DomainId)
  | swapLoaded (oldId newId : DomainId) (q : Nat)
  | swapped (oldId newId : DomainId) (q : Nat)
  | unflagged (oldId newId : DomainId)
  | freed
  | loaderSet
  | unlocked
  | done
  | panicked (oldId : DomainId)

/-- `sys_update_domain(old_domain_name, new_domain_name, ty)` on an
`EmptyDeviceDomain`: the two `domain_id()` calls, `replace`, and the update
of `DOMAIN_INFO`. -/
inductive UpdatePc
  | start
  | queryOld (sub : CallPc)
  | queryArm (oldDomainId : DomainId) (sub : CallPc)
  | replacing (oldDomainId newId : DomainId) (rpc : ReplacePc)
  | replaced (oldDomainId newId : DomainId)
  | done (r : LinuxResult Unit)

inductive Thread
  | call (m : Method) (pc : CallPc)
  | replace (new : EmptyDeviceDomain) (loader : DomainLoader) (pc : ReplacePc)
  | update (oldDomainName : String) (ty : DomainTypeRaw) (new : EmptyDeviceDomain)
      (loader : DomainLoader) (pc : UpdatePc)

structure State where
  shared : Shared
  threads : List Thread

/-- An embedded `domain_id()` call after a step: `k` goes on with the id once
it has returned, `wrap` keeps the call running. -/
def callThen {σ : Type} (wrap : CallPc → σ) (k : DomainId → σ) : CallPc → σ
  | .done (.domainId id) => k id
  | pc => wrap pc

/-- One step of proxy call `m` by thread `t` on CPU `cpu`: `domain_id`, `read`
and `write` dispatch on `flag` to `_method_no_lock` or `_method_with_lock`. -/
def callStep (t cpu : Nat) (m : Method) : CallPc → Shared → Option (CallPc × Shared)
  | .start, sh => some (.chose (if sh.flag then .withLock else .noLock), sh)
  | .chose .noLock, sh =>
    if cpu < sh.counter.length then
      some (.entered .noLock, { sh with counter := getWith sh.counter cpu 1 })
    else none
  | .chose .withLock, sh =>
    if sh.lock = none then some (.entered .withLock, { sh with lock := some t }) else none
  | .entered path, sh => some (.running path sh.domain.srcuDefererence, sh)
  | .running path p, sh =>
    (sh.domain.deref p).map fun d =>
      let r := runMethod d m sh.tags
      (.returned path r.1, { sh with tags := r.2 })
  | .returned .noLock r, sh =>
    if cpu < sh.counter.length then
      some (.done r, { sh with counter := getWith sh.counter cpu (-1) })
    else none
  | .returned .withLock r, sh => some (.done r, { sh with lock := none })
  | .done _, _ => none

/-- One step of `replace(new, loader)` by thread `t`. The drain waits for
`counter.sum() == 0`; `new_domain.domain_id()` and `init()` run in one step,
and `init().unwrap()` panics on `Err`. -/
def replaceStep (t cpu : Nat) (new : EmptyDeviceDomain) (loader : DomainLoader) :
    ReplacePc → Shared → Option (ReplacePc × Shared)
  | .start, sh =>
    if sh.loaderLock = none then some (.loaderLocked, { sh with loaderLock := some t }) else none
  | .loaderLocked, sh =>
    if sh.lock = none then some (.querying .start, { sh with lock := some t }) else none
  | .querying sub, sh =>
    (callStep t cpu .domainId sub sh).map fun r => (callThen .querying .recorded r.1, r.2)
  | .recorded oldId, sh => some (.flagged oldId, { sh with flag := true })
  | .flagged oldId, sh => if sh.counter.sum = 0 then some (.drained oldId, sh) else none
  | .drained oldId, sh =>
    let r := new.init (new.domainIdOn sh.tags)
    match r.1 with
    | .ok () => some (.initialized oldId new.domainId, { sh with tags := r.2 })
    | .error _ => some (.panicked oldId, { sh with tags := r.2 })
  | .initialized oldId newId, sh => some (.swapLoaded oldId newId sh.domain.dataPtr, sh)
  | .swapLoaded oldId newId q, sh =>
    some (.swapped oldId newId q, { sh with domain := sh.domain.assignBox new })
  | .swapped oldId newId _, sh => some (.unflagged oldId newId, { sh with flag := false })
  | .unflagged oldId newId, sh => some (.freed, { sh with released := sh.released ++ [(oldId, newId)] })
  | .freed, sh => some (.loaderSet, { sh with domainLoader := loader })
  | .loaderSet, sh => some (.unlocked, { sh with lock := none })
  | .unlocked, sh => some (.done, { sh with loaderLock := none })
  | .done, _ | .panicked _, _ => none

/-- One step of `sys_update_domain(oldDomainName, _, ty)` by thread `t`, whose
creator returns `new` and `loader`. -/
def updateStep (t cpu : Nat) (oldDomainName : String) (ty : DomainTypeRaw)
    (new : EmptyDeviceDomain) (loader : DomainLoader) : UpdatePc → Shared → Option (UpdatePc × Shared)
  | .start, sh =>
    if oldDomainName = sh.proxyName then some (.queryOld .start, sh)
    else some (.done (.error .EINVAL), sh)
  | .queryOld sub, sh =>
    (callStep t cpu .domainId sub sh).map fun r => (callThen .queryOld (.queryArm · .start) r.1, r.2)
  | .queryArm oldDomainId sub, sh =>
    (callStep t cpu .domainId sub sh).map fun r =>
      (callThen (.queryArm oldDomainId) (fun _ => .replacing oldDomainId new.domainId .start) r.1, r.2)
  | .replacing oldDomainId newId rpc, sh =>
    (replaceStep t cpu new loader rpc sh).map fun r =>
      (match r.1 with
        | .done => .replaced oldDomainId newId
        | rpc' => .replacing oldDomainId newId rpc', r.2)
  | .replaced oldDomainId newId, sh =>
    let info : DomainDataInfo := ⟨oldDomainName, ty, 0, loader⟩
    let m := DomainList.insert (DomainList.remove sh.domainList oldDomainId) newId info
    some (.done (.ok ()), { sh with domainList := m })
  | .done _, _ => none

/-- A step of thread `t` on CPU `cpu`. -/
def step (s : State) (t cpu : Nat) : Option State :=
  match s.threads[t]? with
  | some (.call m pc) =>
    (callStep t cpu m pc s.shared).map fun r => ⟨r.2, s.threads.set t (.call m r.1)⟩
  | some (.replace new loader pc) =>
    (replaceStep t cpu new loader pc s.shared).map fun r =>
      ⟨r.2, s.threads.set t (.replace new loader r.1)⟩
  | some (.update n ty new loader pc) =>
    (updateStep t cpu n ty new loader pc s.shared).map fun r =>
      ⟨r.2, s.threads.set t (.update n ty new loader r.1)⟩
  | none => none

def Thread.atStart : Thread → Bool
  | .call _ .start | .replace _ _ .start | .update _ _ _ _ .start => true
  | _ => false

/-- `EmptyDeviceDomainProxy::new(domain, loader)` under `name`, with `ncpu`
shards, next to any tag slots and any `domain_list`. -/
def init (name : String) (domain : EmptyDeviceDomain) (loader : DomainLoader) (ncpu : Nat)
    (tags : TagHeap) (domainList : DomainList) (ts : List Thread) : State :=
  ⟨⟨name, SRcuData.new domain, none, loader, none, false, List.replicate ncpu 0, tags, [],
    domainList⟩, ts⟩

inductive Reachable : State → Prop
  | init (name : String) (domain : EmptyDeviceDomain) (loader : DomainLoader) (ncpu : Nat)
    (tags : TagHeap) (domainList : DomainList) (ts : List Thread) (h : ∀ th ∈ ts, th.atStart) :
    Reachable (init name domain loader ncpu tags domainList ts)
  | step {s s' : State} (t cpu : Nat) : Reachable s → step s t cpu = some s' → Reachable s'

/-- Take the listed steps, each a thread and the CPU it runs on. -/
def run : State → List (Nat × Nat) → Option State := runSteps fun s i => step s i.1 i.2

theorem run_reachable {s s' : State} {l : List (Nat × Nat)} :
    Reachable s → run s l = some s' → Reachable s' :=
  runSteps_closed fun _ i _ hs h => .step i.1 i.2 hs h

theorem Reachable.run_getD {s : State} (hs : Reachable s) (l : List (Nat × Nat)) :
    Reachable ((run s l).getD s) := by
  cases h : run s l with
  | none => exact hs
  | some s' => exact run_reachable hs h

/-! ## What one step does -/

/-- What one step of a proxy call can do. -/
inductive CallMove (t cpu : Nat) (m : Method) (sh : Shared) : CallPc → CallPc → Shared → Prop
  | loadFlag : CallMove t cpu m sh .start (.chose (if sh.flag then .withLock else .noLock)) sh
  | count : cpu < sh.counter.length →
    CallMove t cpu m sh (.chose .noLock) (.entered .noLock) { sh with counter := getWith sh.counter cpu 1 }
  | lock : sh.lock = none →
    CallMove t cpu m sh (.chose .withLock) (.entered .withLock) { sh with lock := some t }
  | load (path : Path) : CallMove t cpu m sh (.entered path) (.running path sh.domain.dataPtr) sh
  | run (path : Path) (p : Nat) (d : EmptyDeviceDomain) : sh.domain.deref p = some d →
    CallMove t cpu m sh (.running path p) (.returned path (runMethod d m sh.tags).1)
      { sh with tags := (runMethod d m sh.tags).2 }
  | uncount (r : Reply) : cpu < sh.counter.length →
    CallMove t cpu m sh (.returned .noLock r) (.done r) { sh with counter := getWith sh.counter cpu (-1) }
  | unlock (r : Reply) : CallMove t cpu m sh (.returned .withLock r) (.done r) { sh with lock := none }

/-- What one step of `replace` can do; `query` and `queried` are steps of its
`self.domain_id()`, the last one returning the id. -/
inductive ReplaceMove (t cpu : Nat) (new : EmptyDeviceDomain) (loader : DomainLoader) (sh : Shared) :
    ReplacePc → ReplacePc → Shared → Prop
  | lockLoader : sh.loaderLock = none →
    ReplaceMove t cpu new loader sh .start .loaderLocked { sh with loaderLock := some t }
  | lockLock : sh.lock = none →
    ReplaceMove t cpu new loader sh .loaderLocked (.querying .start) { sh with lock := some t }
  | query {sub sub' : CallPc} {sh' : Shared} : CallMove t cpu .domainId sh sub sub' sh' →
    (∀ id, sub' ≠ .done (.domainId id)) → ReplaceMove t cpu new loader sh (.querying sub) (.querying sub') sh'
  | queried {sub : CallPc} {id : DomainId} {sh' : Shared} :
    CallMove t cpu .domainId sh sub (.done (.domainId id)) sh' →
    ReplaceMove t cpu new loader sh (.querying sub) (.recorded id) sh'
  | storeTrue (oldId : DomainId) :
    ReplaceMove t cpu new loader sh (.recorded oldId) (.flagged oldId) { sh with flag := true }
  | drain (oldId : DomainId) : sh.counter.sum = 0 →
    ReplaceMove t cpu new loader sh (.flagged oldId) (.drained oldId) sh
  | initOk (oldId : DomainId) : (new.init (new.domainIdOn sh.tags)).1 = .ok () →
    ReplaceMove t cpu new loader sh (.drained oldId) (.initialized oldId new.domainId)
      { sh with tags := (new.init (new.domainIdOn sh.tags)).2 }
  | initErr (oldId : DomainId) (e : LinuxError) : (new.init (new.domainIdOn sh.tags)).1 = .error e →
    ReplaceMove t cpu new loader sh (.drained oldId) (.panicked oldId)
      { sh with tags := (new.init (new.domainIdOn sh.tags)).2 }
  | loadOld (oldId newId : DomainId) :
    ReplaceMove t cpu new loader sh (.initialized oldId newId) (.swapLoaded oldId newId sh.domain.dataPtr) sh
  | assign (oldId newId : DomainId) (q : Nat) :
    ReplaceMove t cpu new loader sh (.swapLoaded oldId newId q) (.swapped oldId newId q)
      { sh with domain := sh.domain.assignBox new }
  | storeFalse (oldId newId : DomainId) (q : Nat) :
    ReplaceMove t cpu new loader sh (.swapped oldId newId q) (.unflagged oldId newId) { sh with flag := false }
  | free (oldId newId : DomainId) :
    ReplaceMove t cpu new loader sh (.unflagged oldId newId) .freed
      { sh with released := sh.released ++ [(oldId, newId)] }
  | setLoader : ReplaceMove t cpu new loader sh .freed .loaderSet { sh with domainLoader := loader }
  | unlock : ReplaceMove t cpu new loader sh .loaderSet .unlocked { sh with lock := none }
  | unlockLoader : ReplaceMove t cpu new loader sh .unlocked .done { sh with loaderLock := none }

/-- What one step of `sys_update_domain` can do. -/
inductive UpdateMove (t cpu : Nat) (n : String) (ty : DomainTypeRaw) (new : EmptyDeviceDomain)
    (loader : DomainLoader) (sh : Shared) : UpdatePc → UpdatePc → Shared → Prop
  | found : n = sh.proxyName → UpdateMove t cpu n ty new loader sh .start (.queryOld .start) sh
  | notFound : n ≠ sh.proxyName → UpdateMove t cpu n ty new loader sh .start (.done (.error .EINVAL)) sh
  | queryOld {sub sub' : CallPc} {sh' : Shared} : CallMove t cpu .domainId sh sub sub' sh' →
    (∀ id, sub' ≠ .done (.domainId id)) → UpdateMove t cpu n ty new loader sh (.queryOld sub) (.queryOld sub') sh'
  | queriedOld {sub : CallPc} {id : DomainId} {sh' : Shared} :
    CallMove t cpu .domainId sh sub (.done (.domainId id)) sh' →
    UpdateMove t cpu n ty new loader sh (.queryOld sub) (.queryArm id .start) sh'
  | queryArm (o : DomainId) {sub sub' : CallPc} {sh' : Shared} : CallMove t cpu .domainId sh sub sub' sh' →
    (∀ id, sub' ≠ .done (.domainId id)) →
    UpdateMove t cpu n ty new loader sh (.queryArm o sub) (.queryArm o sub') sh'
  | queriedArm (o : DomainId) {sub : CallPc} {id : DomainId} {sh' : Shared} :
    CallMove t cpu .domainId sh sub (.done (.domainId id)) sh' →
    UpdateMove t cpu n ty new loader sh (.queryArm o sub) (.replacing o new.domainId .start) sh'
  | replace (o i : DomainId) {rpc rpc' : ReplacePc} {sh' : Shared} : ReplaceMove t cpu new loader sh rpc rpc' sh' →
    rpc' ≠ .done → UpdateMove t cpu n ty new loader sh (.replacing o i rpc) (.replacing o i rpc') sh'
  | replaced (o i : DomainId) {rpc : ReplacePc} {sh' : Shared} : ReplaceMove t cpu new loader sh rpc .done sh' →
    UpdateMove t cpu n ty new loader sh (.replacing o i rpc) (.replaced o i) sh'
  | updateList (o i : DomainId) :
    UpdateMove t cpu n ty new loader sh (.replaced o i) (.done (.ok ()))
      { sh with domainList := DomainList.insert (DomainList.remove sh.domainList o) i ⟨n, ty, 0, loader⟩ }

inductive ThreadMove (t cpu : Nat) (sh : Shared) : Thread → Thread → Shared → Prop
  | call {m : Method} {pc pc' : CallPc} {sh' : Shared} : CallMove t cpu m sh pc pc' sh' →
    ThreadMove t cpu sh (.call m pc) (.call m pc') sh'
  | replace {new : EmptyDeviceDomain} {loader : DomainLoader} {pc pc' : ReplacePc} {sh' : Shared} :
    ReplaceMove t cpu new loader sh pc pc' sh' →
    ThreadMove t cpu sh (.replace new loader pc) (.replace new loader pc') sh'
  | update {n : String} {ty : DomainTypeRaw} {new : EmptyDeviceDomain} {loader : DomainLoader}
    {pc pc' : UpdatePc} {sh' : Shared} : UpdateMove t cpu n ty new loader sh pc pc' sh' →
    ThreadMove t cpu sh (.update n ty new loader pc) (.update n ty new loader pc') sh'

theorem callThen_cases {σ : Type} (wrap : CallPc → σ) (k : DomainId → σ) (pc : CallPc) :
    (∃ id, pc = .done (.domainId id) ∧ callThen wrap k pc = k id) ∨
    ((∀ id, pc ≠ .done (.domainId id)) ∧ callThen wrap k pc = wrap pc) := by
  rcases pc with _ | _ | _ | _ | _ | ⟨_ | _ | _⟩
  case done.domainId id => exact .inl ⟨id, rfl, rfl⟩
  all_goals exact .inr ⟨fun _ => nofun, rfl⟩

section Moves

variable {t cpu : Nat} {sh sh' : Shared}

theorem callStep_move {m : Method} {pc pc' : CallPc} (h : callStep t cpu m pc sh = some (pc', sh')) :
    CallMove t cpu m sh pc pc' sh' := by
  cases pc with
  | start => cases h; exact .loadFlag
  | chose path =>
    cases path <;> simp only [callStep] at h <;> split at h <;> cases h
    · exact .count ‹_›
    · exact .lock ‹_›
  | entered path => cases h; exact .load path
  | running path p =>
    obtain ⟨d, hd, h⟩ := Option.map_eq_some'.mp h
    cases h
    exact .run path p d hd
  | returned path r =>
    cases path <;> simp only [callStep] at h
    · split at h <;> cases h
      exact .uncount r ‹_›
    · cases h; exact .unlock r
  | done _ => cases h

theorem replaceStep_move {new : EmptyDeviceDomain} {loader : DomainLoader} {pc pc' : ReplacePc}
    (h : replaceStep t cpu new loader pc sh = some (pc', sh')) : ReplaceMove t cpu new loader sh pc pc' sh' := by
  cases pc with
  | start => simp only [replaceStep] at h; split at h <;> cases h; exact .lockLoader ‹_›
  | loaderLocked => simp only [replaceStep] at h; split at h <;> cases h; exact .lockLock ‹_›
  | querying sub =>
    obtain ⟨⟨sub', sh₁⟩, hs, h⟩ := Option.map_eq_some'.mp h
    cases h
    rcases callThen_cases ReplacePc.querying ReplacePc.recorded sub' with ⟨id, rfl, he⟩ | ⟨hne, he⟩
    · rw [he]; exact .queried (callStep_move hs)
    · rw [he]; exact .query (callStep_move hs) hne
  | recorded oldId => cases h; exact .storeTrue oldId
  | flagged oldId => simp only [replaceStep] at h; split at h <;> cases h; exact .drain oldId ‹_›
  | drained oldId =>
    simp only [replaceStep] at h
    split at h <;> cases h
    · exact .initOk oldId ‹_›
    · exact .initErr oldId _ ‹_›
  | initialized oldId newId => cases h; exact .loadOld oldId newId
  | swapLoaded oldId newId q => cases h; exact .assign oldId newId q
  | swapped oldId newId q => cases h; exact .storeFalse oldId newId q
  | unflagged oldId newId => cases h; exact .free oldId newId
  | freed => cases h; exact .setLoader
  | loaderSet => cases h; exact .unlock
  | unlocked => cases h; exact .unlockLoader
  | done | panicked _ => cases h

theorem updateStep_move {n : String} {ty : DomainTypeRaw} {new : EmptyDeviceDomain} {loader : DomainLoader}
    {pc pc' : UpdatePc} (h : updateStep t cpu n ty new loader pc sh = some (pc', sh')) :
    UpdateMove t cpu n ty new loader sh pc pc' sh' := by
  cases pc with
  | start =>
    simp only [updateStep] at h
    split at h <;> cases h
    · exact .found ‹_›
    · exact .notFound ‹_›
  | queryOld sub =>
    obtain ⟨⟨sub', sh₁⟩, hs, h⟩ := Option.map_eq_some'.mp h
    cases h
    rcases callThen_cases UpdatePc.queryOld (UpdatePc.queryArm · .start) sub' with ⟨id, rfl, he⟩ | ⟨hne, he⟩
    · rw [he]; exact .queriedOld (callStep_move hs)
    · rw [he]; exact .queryOld (callStep_move hs) hne
  | queryArm o sub =>
    obtain ⟨⟨sub', sh₁⟩, hs, h⟩ := Option.map_eq_some'.mp h
    cases h
    rcases callThen_cases (UpdatePc.queryArm o) (fun _ => UpdatePc.replacing o new.domainId .start) sub' with
      ⟨id, rfl, he⟩ | ⟨hne, he⟩
    · rw [he]; exact .queriedArm o (callStep_move hs)
    · rw [he]; exact .queryArm o (callStep_move hs) hne
  | replacing o i rpc =>
    obtain ⟨⟨rpc', sh₁⟩, hs, h⟩ := Option.map_eq_some'.mp h
    cases h
    by_cases hd : rpc' = .done
    · subst hd; exact .replaced o i (replaceStep_move hs)
    · have : (match rpc' with | .done => UpdatePc.replaced o i | rpc' => .replacing o i rpc') =
          .replacing o i rpc' := by cases rpc' <;> simp_all
      rw [this]; exact .replace o i (replaceStep_move hs) hd
  | replaced o i => cases h; exact .updateList o i
  | done _ => cases h

end Moves

theorem step_cases {s s' : State} {t cpu : Nat} (h : step s t cpu = some s') :
    ∃ th th', s.threads[t]? = some th ∧ ThreadMove t cpu s.shared th th' s'.shared ∧
      s'.threads = s.threads.set t th' := by
  unfold step at h
  split at h
  · next ht => obtain ⟨⟨_, _⟩, hs, rfl⟩ := Option.map_eq_some'.mp h; exact ⟨_, _, ht, .call (callStep_move hs), rfl⟩
  · next ht =>
    obtain ⟨⟨_, _⟩, hs, rfl⟩ := Option.map_eq_some'.mp h
    exact ⟨_, _, ht, .replace (replaceStep_move hs), rfl⟩
  · next ht =>
    obtain ⟨⟨_, _⟩, hs, rfl⟩ := Option.map_eq_some'.mp h
    exact ⟨_, _, ht, .update (updateStep_move hs), rfl⟩
  · cases h

end HotUpgrade.Proxy
