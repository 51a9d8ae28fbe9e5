import HotUpgrade.ProxyLocks

/-! `DOMAIN_INFO.domain_list` under concurrent `sys_update_domain`s of one
name. `old_domain_id` is read at line 103 with no lock held, while the
`replace`s are put in order only later, by `domain_loader`'s mutex; the update
of the list then removes the id read at the start, not the one `replace`
swapped out. Two upgrades that both read the first id each remove it, and the
id the first one installed keeps its entry after the second has replaced it.
When no two upgrades overlap and no `replace` runs outside one, the list keeps
the proxy's name once, under the installed id. -/

namespace HotUpgrade.Proxy
open RemoteRef SRcu EmptyDevice

/-- Started and not yet returned. -/
def Thread.inProgress : Thread → Bool
  | .call _ .start | .call _ (.done _) | .replace _ _ .start | .replace _ _ .done
  | .update _ _ _ _ .start | .update _ _ _ _ (.done _) => false
  | _ => true

/-- The keys of the entries of `domain_list` under `name`. -/
def DomainList.idsNamed (m : DomainList) (name : String) : List DomainId :=
  (m.filter fun e => e.2.name = name).map Prod.fst

/-- Two upgrades of the proxy, to the empty implementation under ids `8` and
`9`, from the one under id `7`, registered under the proxy's name. -/
def upgradeDemo : State :=
  init "empty_device" { EmptyDeviceDomainEmptyImpl.new with domainId := 7 } 1 1 (fun _ => 0)
    [(7, ⟨"empty_device", 0, 0, 1⟩)]
    [.update "empty_device" 0 { EmptyDeviceDomainEmptyImpl.new with domainId := 8 } 2 .start,
      .update "empty_device" 0 { EmptyDeviceDomainEmptyImpl.new with domainId := 9 } 3 .start]

/-- Both read `old_domain_id = 7` and the proxy's id; the first replaces `7`
by `8` and updates the list, then the second replaces `8` by `9` and updates
it, removing `7` again. -/
def upgradeDemoSchedule : List (Nat × Nat) :=
  List.replicate 6 (0, 0) ++ List.replicate 6 (1, 0) ++ List.replicate 5 (0, 0) ++
    List.replicate 5 (1, 0) ++ List.replicate 18 (0, 0) ++ List.replicate 18 (1, 0)

def upgradeDemoDone : State := (run upgradeDemo upgradeDemoSchedule).getD upgradeDemo

/-- Once no call is in progress, the list need not hold exactly one entry
under the proxy's name, keyed by the id of the installed implementation: after
two concurrent upgrades it holds entries under `9` and under the replaced `8`. -/
theorem concurrent_updates_leave_stale_entry :
    ¬ ∀ s : State, Reachable s → (∀ th ∈ s.threads, th.inProgress = false) →
      DomainList.idsNamed s.shared.domainList s.shared.proxyName = [s.shared.domain.current.domainId] :=
  fun h => absurd (h upgradeDemoDone (run_reachable (.init _ _ _ _ _ _ _ (by decide))
    (show run upgradeDemo upgradeDemoSchedule = some upgradeDemoDone from rfl)) (by decide)) (by decide)

/-! ## Serialized upgrades -/

/-- Between its first step and its return. -/
def UpdatePc.updating : UpdatePc → Bool
  | .start | .done _ => false
  | _ => true

/-- A `sys_update_domain` between its first step and its return. -/
def Thread.updating : Thread → Bool
  | .update _ _ _ _ pc => pc.updating
  | _ => false

/-- A `replace` called outside `sys_update_domain`. -/
def Thread.isReplace : Thread → Bool
  | .replace .. => true
  | _ => false

/-- No two `sys_update_domain`s are running at once. -/
def Serialized (s : State) : Prop := AtMostOne Thread.updating s.threads

instance (s : State) : Decidable (Serialized s) := inferInstanceAs (Decidable (AtMostOne _ _))

/-- The runs of proxy calls and `sys_update_domain`s from a `domain_list` that
lists the proxy's name once, under the installed id, in which no two
`sys_update_domain`s overlap. -/
inductive SerialReach : State → Prop
  | init (name : String) (domain : EmptyDeviceDomain) (loader : DomainLoader) (ncpu : Nat)
    (tags : TagHeap) (domainList : DomainList) (ts : List Thread)
    (h : ∀ th ∈ ts, th.atStart ∧ th.isReplace = false) (hreg : domainList.idsNamed name = [domain.domainId]) :
    SerialReach (init name domain loader ncpu tags domainList ts)
  | step {s s' : State} (t cpu : Nat) : SerialReach s → step s t cpu = some s' → Serialized s' →
    SerialReach s'

/-- `run`, stopping at the first state in which two `sys_update_domain`s overlap. -/
def serialRun : State → List (Nat × Nat) → Option State :=
  runSteps (guardStep (fun s i => step s i.1 i.2) Serialized)

theorem serialRun_reach {s s' : State} {l : List (Nat × Nat)} : SerialReach s →
    serialRun s l = some s' → SerialReach s' :=
  runSteps_guardStep_closed fun _ i _ hs h hser => .step i.1 i.2 hs h hser

theorem SerialReach.reachable {s : State} (h : SerialReach s) : Reachable s := by
  induction h with
  | init name domain loader ncpu tags domainList ts h _ =>
    exact .init name domain loader ncpu tags domainList ts fun th hth => (h th hth).1
  | step t cpu _ hst _ ih => exact .step t cpu ih hst

theorem Thread.updating_of_atStart {th : Thread} (h : th.atStart = true) : th.updating = false := by
  rcases th with _ | _ | ⟨_, _, _, _, _ | _⟩ <;> first | rfl | cases h

theorem SerialReach.serialized {s : State} (h : SerialReach s) : Serialized s := by
  cases h with
  | init _ _ _ _ _ _ ts h _ =>
    intro i j hi _
    obtain ⟨th, hth, hp⟩ := Option.map_eq_some'.mp hi
    simp [Thread.updating_of_atStart (h th (List.getElem?_mem hth)).1] at hp
  | step _ _ _ _ h => exact h

/-! ### The list update -/

namespace DomainList

theorem idsNamed_remove (m : DomainList) (k : DomainId) (name : String) :
    (m.remove k).idsNamed name = (m.idsNamed name).filter (· != k) := by
  simp only [idsNamed, remove, List.filter_map, List.filter_filter, Function.comp_def, Bool.and_comm]

theorem idsNamed_insert {m : DomainList} {k : DomainId} {v : DomainDataInfo} {name : String}
    (hv : v.name = name) : (m.insert k v).idsNamed name = k :: (m.idsNamed name).filter (· != k) := by
  rw [← idsNamed_remove]
  simp [DomainList.insert, idsNamed, hv]

theorem idsNamed_update {m : DomainList} {o i : DomainId} {v : DomainDataInfo} {name : String}
    (hm : m.idsNamed name = [o]) (hv : v.name = name) : ((m.remove o).insert i v).idsNamed name = [i] := by
  rw [idsNamed_insert hv, idsNamed_remove, hm]
  simp

end DomainList

/-! ### The invariant -/

/-- The cell holds the implementation whose id was read, up to `update_directly`,
and the new one after it. -/
def ReplacePc.installed (c : SRcuData EmptyDeviceDomain) (oldId : DomainId) (new : EmptyDeviceDomain) :
    ReplacePc → Prop
  | .swapped .. | .unflagged .. | .freed | .loaderSet | .unlocked | .done => c.current = new
  | _ => c.current.domainId = oldId

/-- What a running `sys_update_domain` knows of the cell and of the ids `ids`
listed under the proxy's name: the id it read is the one listed, and the
installed one until its `replace` swaps in `new`. -/
def UpdatePc.regOk (c : SRcuData EmptyDeviceDomain) (ids : List DomainId) (new : EmptyDeviceDomain) :
    UpdatePc → Prop
  | .start | .done _ => True
  | .queryOld sub => ids = [c.current.domainId] ∧ queryOk c sub
  | .queryArm o sub => ids = [o] ∧ c.current.domainId = o ∧ queryOk c sub
  | .replacing o n rpc => ids = [o] ∧ n = new.domainId ∧ rpc.installed c o new
  | .replaced o n => ids = [o] ∧ n = new.domainId ∧ c.current = new

/-- A running `sys_update_domain` of the proxy's name `name` knows `regOk`. -/
def Thread.regOk (name : String) (c : SRcuData EmptyDeviceDomain) (ids : List DomainId) : Thread → Prop
  | .update n _ new _ pc => pc.updating = true → n = name ∧ pc.regOk c ids new
  | _ => True

theorem Thread.regOk_of_updating {th : Thread} (h : th.updating = false) (name : String)
    (c : SRcuData EmptyDeviceDomain) (ids : List DomainId) : th.regOk name c ids := by
  cases th with
  | update _ _ _ _ pc => exact fun hu => absurd (h.symm.trans hu) Bool.false_ne_true
  | call _ _ | replace _ _ _ => trivial

theorem Thread.updating_of_flagging {th : Thread} (hr : th.isReplace = false) (hf : th.flagging = true) :
    th.updating = true := by
  obtain ⟨_, _, hrep, -⟩ := Thread.replaceOf_of_flagging hf
  rcases th with _ | _ | ⟨_, _, _, _, _ | _ | _ | _ | _ | _⟩ <;> cases hrep <;> first | rfl | cases hr

structure RegInv (s : State) : Prop where
  noReplace : ∀ (i : Nat) th, s.threads[i]? = some th → th.isReplace = false
  update : ∀ (i : Nat) th, s.threads[i]? = some th →
    th.regOk s.shared.proxyName s.shared.domain (s.shared.domainList.idsNamed s.shared.proxyName)
  quiet : (∀ th ∈ s.threads, th.updating = false) →
    s.shared.domainList.idsNamed s.shared.proxyName = [s.shared.domain.current.domainId]

section Steps

variable {t cpu : Nat} {sh sh' : Shared}

theorem CallMove.registry_eq {m : Method} {pc pc' : CallPc} (h : CallMove t cpu m sh pc pc' sh') :
    sh'.proxyName = sh.proxyName ∧ sh'.domainList = sh.domainList := by
  cases h <;> exact ⟨rfl, rfl⟩

theorem ReplaceMove.registry_eq {new : EmptyDeviceDomain} {loader : DomainLoader} {pc pc' : ReplacePc}
    (h : ReplaceMove t cpu new loader sh pc pc' sh') :
    sh'.proxyName = sh.proxyName ∧ sh'.domainList = sh.domainList := by
  cases h with
  | query hm _ | queried hm => exact hm.registry_eq
  | _ => exact ⟨rfl, rfl⟩

theorem ReplaceMove.installed_step {new : EmptyDeviceDomain} {loader : DomainLoader} {pc pc' : ReplacePc}
    (h : ReplaceMove t cpu new loader sh pc pc' sh') {o : DomainId} (hok : pc.installed sh.domain o new) :
    pc'.installed sh'.domain o new := by
  cases h with
  | query hm _ | queried hm => rw [hm.footprint.2.2.1]; exact hok
  | assign => exact SRcuData.current_assignBox _ _
  | _ => exact hok

theorem ThreadMove.isReplace_eq {th th' : Thread} (h : ThreadMove t cpu sh th th' sh') :
    th'.isReplace = th.isReplace := by
  cases h <;> rfl

theorem ThreadMove.registry_frame {th th' : Thread} (h : ThreadMove t cpu sh th th' sh')
    (hr : th.isReplace = false) : sh'.proxyName = sh.proxyName ∧
      (sh'.domain = sh.domain ∧ sh'.domainList = sh.domainList ∨ th.updating = true) := by
  have call : ∀ {m sub sub'}, CallMove t cpu m sh sub sub' sh' → sh'.proxyName = sh.proxyName ∧
      (sh'.domain = sh.domain ∧ sh'.domainList = sh.domainList ∨ th.updating = true) := fun hm =>
    ⟨hm.registry_eq.1, .inl ⟨hm.footprint.2.2.1, hm.registry_eq.2⟩⟩
  cases h with
  | call hm => exact call hm
  | replace _ => cases hr
  | update hm =>
    cases hm with
    | found _ | notFound _ => exact ⟨rfl, .inl ⟨rfl, rfl⟩⟩
    | queryOld hm _ | queriedOld hm | queryArm _ hm _ | queriedArm _ hm => exact call hm
    | replace _ _ hm _ | replaced _ _ hm => exact ⟨hm.registry_eq.1, .inr rfl⟩
    | updateList => exact ⟨rfl, .inr rfl⟩

theorem ThreadMove.regOk_step {th th' : Thread} (h : ThreadMove t cpu sh th th' sh')
    (hok : th.regOk sh.proxyName sh.domain (sh.domainList.idsNamed sh.proxyName))
    (hstart : th.updating = false → th'.updating = true →
      sh.domainList.idsNamed sh.proxyName = [sh.domain.current.domainId])
    (hflag : th.updating = true → th.flagging = false → sh.flag = false) :
    th'.regOk sh'.proxyName sh'.domain (sh'.domainList.idsNamed sh'.proxyName) := by
  cases h with
  | call _ | replace _ => trivial
  | update hm =>
    intro hu'
    cases hm with
    | found hn => exact ⟨hn, hstart rfl rfl, trivial⟩
    | notFound _ | updateList => cases hu'
    | queryOld hm hne =>
      obtain ⟨hn, hids, hq⟩ := hok rfl
      rw [hm.registry_eq.1, hm.registry_eq.2, hm.footprint.2.2.1]
      exact ⟨hn, hids, hm.footprint.2.2.1 ▸ hm.queryOk_step hq (hflag rfl rfl) hne⟩
    | queriedOld hm =>
      obtain ⟨hn, hids, hq⟩ := hok rfl
      rw [hm.registry_eq.1, hm.registry_eq.2]
      exact ⟨hn, by rw [hids, ← hm.queried_id hq, hm.footprint.2.2.1], hm.queried_id hq, trivial⟩
    | queryArm o hm hne =>
      obtain ⟨hn, hids, hcur, hq⟩ := hok rfl
      rw [hm.registry_eq.1, hm.registry_eq.2, hm.footprint.2.2.1]
      exact ⟨hn, hids, hcur, hm.footprint.2.2.1 ▸ hm.queryOk_step hq (hflag rfl rfl) hne⟩
    | queriedArm o hm =>
      obtain ⟨hn, hids, hcur, -⟩ := hok rfl
      rw [hm.registry_eq.1, hm.registry_eq.2, hm.footprint.2.2.1]
      exact ⟨hn, hids, rfl, hcur⟩
    | replace o i hm _ | replaced o i hm =>
      obtain ⟨hn, hids, hi, hins⟩ := hok rfl
      rw [hm.registry_eq.1, hm.registry_eq.2]
      exact ⟨hn, hids, hi, hm.installed_step hins⟩

theorem ThreadMove.quiet_step {th th' : Thread} (h : ThreadMove t cpu sh th th' sh')
    (hok : th.regOk sh.proxyName sh.domain (sh.domainList.idsNamed sh.proxyName))
    (hu : th.updating = true) (hu' : th'.updating = false) :
    sh'.domainList.idsNamed sh'.proxyName = [sh'.domain.current.domainId] := by
  cases h with
  | call _ | replace _ => cases hu
  | update hm =>
    cases hm with
    | updateList o i =>
      obtain ⟨rfl, hids, hi, hcur⟩ := hok rfl
      exact (DomainList.idsNamed_update hids rfl).trans (by rw [hi, ← hcur])
    | _ => cases hu <;> cases hu'

end Steps

theorem regInv_init (name : String) (domain : EmptyDeviceDomain) (loader : DomainLoader) (ncpu : Nat)
    (tags : TagHeap) (domainList : DomainList) (ts : List Thread)
    (h : ∀ th ∈ ts, th.atStart ∧ th.isReplace = false) (hreg : domainList.idsNamed name = [domain.domainId]) :
    RegInv (init name domain loader ncpu tags domainList ts) :=
  ⟨fun _ th hi => (h th (List.getElem?_mem hi)).2,
    fun _ th hi => Thread.regOk_of_updating (Thread.updating_of_atStart (h th (List.getElem?_mem hi)).1) _ _ _,
    fun _ => hreg⟩

theorem RegInv.step {s s' : State} {t cpu : Nat} (hreach : Reachable s) (hser : Serialized s)
    (hser' : Serialized s') (hinv : RegInv s) (h : step s t cpu = some s') : RegInv s' := by
  obtain ⟨th, th', ht, hm, hts⟩ := step_cases h
  have hr := hinv.noReplace t th ht
  have ht' : s'.threads[t]? = some th' := hts ▸ getElem?_set_of_getElem? ht
  obtain ⟨hp, hframe⟩ := hm.registry_frame hr
  -- no thread of `s` runs if `t` did not and none of the others of `s'` does
  have hbefore : th.updating = false →
      (∀ (j : Nat) x, j ≠ t → s'.threads[j]? = some x → x.updating = false) →
      ∀ x ∈ s.threads, x.updating = false := fun hu hothers x hx => by
    obtain ⟨j, hj⟩ := List.getElem?_of_mem hx
    by_cases hjt : j = t
    · subst hjt; cases hj.symm.trans ht; exact hu
    · exact hothers j x hjt (by rw [hts, List.getElem?_set_ne (Ne.symm hjt), hj])
  have hstart : th.updating = false → th'.updating = true →
      s.shared.domainList.idsNamed s.shared.proxyName = [s.shared.domain.current.domainId] := fun hu hu' =>
    hinv.quiet (hbefore hu fun j x hjt hj => Bool.eq_false_iff.mpr fun hx => hjt (hser'.eq hj ht' hx hu'))
  have hflag : th.updating = true → th.flagging = false → s.shared.flag = false := fun hu hf =>
    Bool.eq_false_iff.mpr fun hfl => by
      obtain ⟨j, thj, hj, hfj⟩ := hreach.lockInv.flag.mp hfl
      obtain rfl := hser.eq hj ht (Thread.updating_of_flagging (hinv.noReplace j thj hj) hfj) hu
      cases hj.symm.trans ht
      simp [hf] at hfj
  refine ⟨?_, ?_, fun hall => ?_⟩
  · rw [hts]; exact forall_set_of_forall hinv.noReplace (hm.isReplace_eq.trans hr)
  · rw [hts]
    intro i thi hi
    rcases getElem?_set_cases hi with ⟨rfl, rfl⟩ | ⟨hit, hi⟩
    · exact hm.regOk_step (hinv.update _ th ht) hstart hflag
    · rcases hframe with ⟨hd, hl⟩ | hu
      · rw [hp, hd, hl]; exact hinv.update i thi hi
      · exact Thread.regOk_of_updating (Bool.eq_false_iff.mpr fun hui => hit (hser.eq hi ht hui hu)) _ _ _
  · have hu' := hall th' (List.getElem?_mem ht')
    cases hu : th.updating
    · rcases hframe with ⟨hd, hl⟩ | hu2
      · rw [hp, hd, hl]
        exact hinv.quiet (hbefore hu fun _ x _ hj => hall x (List.getElem?_mem hj))
      · rw [hu] at hu2; cases hu2
    · exact hm.quiet_step (hinv.update t th ht) hu hu'

theorem SerialReach.regInv {s : State} (h : SerialReach s) : RegInv s := by
  induction h with
  | init name domain loader ncpu tags domainList ts h hreg =>
    exact regInv_init name domain loader ncpu tags domainList ts h hreg
  | step _ _ hs hst hser' ih => exact ih.step hs.reachable hs.serialized hser' hst

/-- In every run in which no two `sys_update_domain`s of the proxy overlap and
no `replace` is called outside one, whenever no `sys_update_domain` is running
`domain_list` lists the proxy's name once, under the installed implementation's id. -/
theorem serialized_updates_keep_registry {s : State} (hs : SerialReach s)
    (hq : ∀ th ∈ s.threads, th.updating = false) :
    DomainList.idsNamed s.shared.domainList s.shared.proxyName = [s.shared.domain.current.domainId] :=
  hs.regInv.quiet hq

/-- The two upgrades of `upgradeDemo`, one after the other. -/
def serialUpgradeDone : State :=
  (serialRun upgradeDemo (List.replicate 29 (0, 0) ++ List.replicate 29 (1, 0))).getD upgradeDemo

theorem serialUpgradeDone_registered :
    (∀ th ∈ serialUpgradeDone.threads, th.updating = false) ∧
      DomainList.idsNamed serialUpgradeDone.shared.domainList serialUpgradeDone.shared.proxyName =
        [serialUpgradeDone.shared.domain.current.domainId] :=
  ⟨by decide, serialized_updates_keep_registry (serialRun_reach (.init _ _ _ _ _ _ _ (by decide) (by decide))
    (show serialRun upgradeDemo (List.replicate 29 (0, 0) ++ List.replicate 29 (1, 0)) = some serialUpgradeDone
      from rfl)) (by decide)⟩

end HotUpgrade.Proxy
