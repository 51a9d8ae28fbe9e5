import HotUpgrade.ProxyLocks

/-! `replace` when the new implementation's `init` returns `Err`: there is no
rollback. `new_domain.init().unwrap()` panics after `flag.store(true)` and the
drain, so the swap, `flag.store(false)`, the free, the loader write and both
unlocks never run, and a `sys_update_domain` that called it never reaches
`DOMAIN_INFO`. The panicked thread keeps both mutexes, and every call that
loads `flag` from then on waits for `lock` for good. -/

namespace HotUpgrade.Proxy
open RemoteRef SRcu EmptyDevice

/-- Past `new_domain.init().unwrap()`. -/
def ReplacePc.passedInit : ReplacePc → Bool
  | .initialized .. | .swapLoaded .. | .swapped .. | .unflagged .. | .freed | .loaderSet | .unlocked
  | .done => true
  | _ => false

/-- Past the `init().unwrap()` of its `replace`. -/
def UpdatePc.passedInit : UpdatePc → Bool
  | .replacing _ _ rpc => rpc.passedInit
  | .replaced .. | .done (.ok _) => true
  | _ => false

/-- A thread past `init().unwrap()` runs an implementation whose `init` returned `Ok`. -/
def Thread.initOk : Thread → Prop
  | .call _ _ => True
  | .replace new _ pc => pc.passedInit = true → ∃ h, (new.init h).1 = .ok ()
  | .update _ _ new _ pc => pc.passedInit = true → ∃ h, (new.init h).1 = .ok ()

section Steps

variable {t cpu : Nat} {sh sh' : Shared}

theorem ReplaceMove.passedInit_step {new : EmptyDeviceDomain} {loader : DomainLoader} {pc pc' : ReplacePc}
    (h : ReplaceMove t cpu new loader sh pc pc' sh') (hp : pc'.passedInit = true) :
    pc.passedInit = true ∨ ∃ h, (new.init h).1 = .ok () := by
  cases h with
  | initOk _ hinit => exact .inr ⟨_, hinit⟩
  | loadOld | assign | storeFalse | free | setLoader | unlock | unlockLoader => exact .inl rfl
  | lockLoader _ | lockLock _ | query _ _ | queried _ | storeTrue | drain _ | initErr _ _ _ => cases hp

theorem ThreadMove.initOk {th th' : Thread} (h : ThreadMove t cpu sh th th' sh') (hok : th.initOk) :
    th'.initOk := by
  cases h with
  | call _ => trivial
  | replace hm => exact fun hp => (hm.passedInit_step hp).elim hok id
  | update hm =>
    cases hm with
    | replace _ _ hm _ => exact fun hp => (hm.passedInit_step hp).elim hok id
    | replaced _ _ hm => exact fun _ => (hm.passedInit_step rfl).elim hok id
    | updateList => exact hok
    | found _ | notFound _ | queryOld _ _ | queriedOld _ | queryArm _ _ _ | queriedArm _ _ => nofun

end Steps

theorem Reachable.initOk {s : State} (h : Reachable s) :
    ∀ (i : Nat) th, s.threads[i]? = some th → th.initOk := by
  induction h with
  | init _ _ _ _ _ _ ts h =>
    intro i th hi
    have hs := h th (List.getElem?_mem hi)
    rcases th with ⟨_, _⟩ | ⟨_, _, _ | _⟩ | ⟨_, _, _, _, _ | _⟩
    all_goals first | trivial | exact nofun
  | step _ _ _ hst ih =>
    obtain ⟨th, th', ht, hm, hts⟩ := step_cases hst
    rw [hts]
    exact forall_set_of_forall ih (hm.initOk (ih _ th ht))

theorem step_eq_none_of_panicked {s : State} {i cpu : Nat} {th : Thread} {new : EmptyDeviceDomain}
    {oldId : DomainId} (ht : s.threads[i]? = some th) (hr : th.replaceOf = some (new, .panicked oldId)) :
    step s i cpu = none := by
  cases th with
  | call _ _ => cases hr
  | replace _ _ _ => cases hr; simp [step, ht, replaceStep]
  | update _ _ _ _ pc =>
    cases pc with
    | replacing _ _ _ => cases hr; simp [step, ht, updateStep, replaceStep]
    | start | queryOld _ | queryArm _ _ | replaced _ _ | done _ => cases hr

/-- In every run, a `replace` whose new implementation's `init` returns `Err`,
alone or in a `sys_update_domain`, never gets past `init().unwrap()`, and the
`sys_update_domain` never updates `DOMAIN_INFO` nor returns `Ok`. Once it has
panicked there, `flag` is true, the thread holds `lock` and `domain_loader`'s
mutex, the old implementation is still installed, the thread takes no step,
and no call that loaded `flag` true gets `lock`. -/
theorem init_error_stops_replace {s : State} (hs : Reachable s) {new : EmptyDeviceDomain}
    (he : ∀ h, ∃ e, (new.init h).1 = .error e) :
    (∀ (i : Nat) th pc, s.threads[i]? = some th → th.replaceOf = some (new, pc) → pc.passedInit = false) ∧
    (∀ (i : Nat) n ty loader pc, s.threads[i]? = some (.update n ty new loader pc) →
      pc.passedInit = false) ∧
    (∀ (i : Nat) th oldId, s.threads[i]? = some th → th.replaceOf = some (new, .panicked oldId) →
      s.shared.flag = true ∧ s.shared.lock = some i ∧ s.shared.loaderLock = some i ∧
      s.shared.domain.current.domainId = oldId ∧ (∀ cpu, step s i cpu = none) ∧
      ∀ (j : Nat) m cpu, s.threads[j]? = some (.call m (.chose .withLock)) → step s j cpu = none) := by
  have hok := hs.initOk
  have hinv := hs.lockInv
  have hnot : ¬ ∃ h, (new.init h).1 = .ok () := fun ⟨h, hok⟩ =>
    (he h).elim fun _ he => by cases he.symm.trans hok
  refine ⟨fun i th pc hi hr => ?_, fun i n ty loader pc hi => ?_, fun i th oldId hi hr => ?_⟩
  · cases th with
    | call _ _ => cases hr
    | replace _ _ _ => cases hr; exact Bool.eq_false_iff.mpr fun hp => hnot (hok i _ hi hp)
    | update _ _ _ _ pc =>
      cases pc with
      | replacing _ _ _ => cases hr; exact Bool.eq_false_iff.mpr fun hp => hnot (hok i _ hi hp)
      | start | queryOld _ | queryArm _ _ | replaced _ _ | done _ => cases hr
  · exact Bool.eq_false_iff.mpr fun hp => hnot (hok i _ hi hp)
  · have hf : th.flagging = true := by simp [Thread.flagging, hr, ReplacePc.flagging]
    have hlock := (hinv.lock i th hi).mp (Thread.holdsLock_of_flagging hf)
    refine ⟨hinv.flag.mpr ⟨i, th, hi, hf⟩, hlock, (hinv.loader i th hi).mp (Thread.holdsLoader_of_flagging hf),
      hinv.replace i th new _ hi hr, fun _ => step_eq_none_of_panicked hi hr, fun j m cpu hj => ?_⟩
    simp [step, hj, callStep, hlock]

/-- The empty implementation under id `9`, with an `init` that returns `EIO`. -/
def eioDomain : EmptyDeviceDomain := { EmptyDeviceDomainEmptyImpl.new with domainId := 9, init := fun h => (.error (.other 5), h) }

/-- A proxy on the empty implementation under id `7`, one CPU; a `replace` by
`eioDomain`, and a `domain_id()` call. -/
def initFailDemo : State :=
  init "empty_device" { EmptyDeviceDomainEmptyImpl.new with domainId := 7 } 1 1 (fun _ => 0) []
    [.replace eioDomain 2 .start, .call .domainId .start]

/-- `initFailDemo` once the `replace` has panicked and the call has loaded `flag`. -/
def initFailDemoPanicked : State := (run initFailDemo (List.replicate 10 (0, 0) ++ [(1, 0)])).getD initFailDemo

theorem initFailDemoPanicked_stuck :
    (∀ (i : Nat) th pc, initFailDemoPanicked.threads[i]? = some th →
      th.replaceOf = some (eioDomain, pc) →
      pc.passedInit = false) ∧
    (∀ (i : Nat) n ty loader pc, initFailDemoPanicked.threads[i]? =
      some (.update n ty eioDomain loader pc) →
      pc.passedInit = false) ∧
    (∀ (i : Nat) th oldId, initFailDemoPanicked.threads[i]? = some th →
      th.replaceOf = some (eioDomain, .panicked oldId) →
      initFailDemoPanicked.shared.flag = true ∧ initFailDemoPanicked.shared.lock = some i ∧
      initFailDemoPanicked.shared.loaderLock = some i ∧
      initFailDemoPanicked.shared.domain.current.domainId = oldId ∧
      (∀ cpu, step initFailDemoPanicked i cpu = none) ∧
      ∀ (j : Nat) m cpu, initFailDemoPanicked.threads[j]? = some (.call m (.chose .withLock)) →
        step initFailDemoPanicked j cpu = none) :=
  init_error_stops_replace (Reachable.run_getD (.init _ _ _ _ _ _ _ (by decide)) _) fun _ => ⟨_, rfl⟩

/-- A `replace` whose new implementation's `init` fails does not roll back:
once it can take no more steps, `flag` is still true and it still holds both
mutexes. -/
theorem failed_init_never_rolls_back :
    ¬ ∀ s : State, Reachable s → ∀ (i : Nat) th new pc, s.threads[i]? = some th →
      th.replaceOf = some (new, pc) → (∀ h, ∃ e, (new.init h).1 = .error e) → (∀ cpu, step s i cpu = none) →
      s.shared.flag = false ∧ s.shared.lock = none ∧ s.shared.loaderLock = none := fun h =>
  absurd (h initFailDemoPanicked (Reachable.run_getD (.init _ _ _ _ _ _ _ (by decide)) _)
    0 _ eioDomain (.panicked 7) rfl rfl (fun _ => ⟨_, rfl⟩) fun _ => step_eq_none_of_panicked rfl rfl).1 (by decide)

end HotUpgrade.Proxy
