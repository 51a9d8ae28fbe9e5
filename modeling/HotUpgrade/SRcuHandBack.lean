import HotUpgrade.SRcuThreads

/-! Who is handed each old box. `update` and `update_directly` load `data_ptr`
and publish their own box in two steps, and nothing in `SRcuData` keeps another
updater out in between. Two calls that overlap there load the same pointer:
both are handed that box, and the box the first one published is handed to no
one (`overlapping_updates_share_old_box`). When the calls are serialized among
themselves, as `EmptyDeviceDomainProxy::replace` serializes its
`update_directly` under its locks, every published box but the current one goes
back to exactly one call (`serialized_updates_hand_back_once`). -/

namespace HotUpgrade.SRcuThreads
open SRcu

variable {α : Type}

/-- How many calls have been handed box `p`. -/
def returnedTo (s : State α) (p : Nat) : Nat :=
  s.threads.countP fun th => th.handedBack = some p

/-- No two update calls are in progress at once. -/
def Serialized (s : State α) : Prop := AtMostOne Thread.inProgress s.threads

instance (s : State α) : Decidable (Serialized s) :=
  inferInstanceAs (Decidable (AtMostOne _ _))

/-- No update call is in progress. -/
def Quiescent (s : State α) : Prop := ∀ th ∈ s.threads, th.inProgress = false

instance (s : State α) : Decidable (Quiescent s) :=
  inferInstanceAs (Decidable (∀ th ∈ s.threads, th.inProgress = false))

/-- The runs in which update calls never overlap. -/
inductive SerialReach : State α → Prop
  | init (data : α) (ts : List (Thread α)) (h : ∀ th ∈ ts, th.atStart) :
    SerialReach (init data ts)
  | step {s s' : State α} (t : Nat) : SerialReach s → step s t = some s' → Serialized s' →
    SerialReach s'

/-- `run`, stopping at the first state in which two update calls overlap. -/
def serialRun : State α → List Nat → Option (State α) := runSteps (guardStep step Serialized)

theorem serialRun_reach {s s' : State α} {l : List Nat} : SerialReach s →
    serialRun s l = some s' → SerialReach s' :=
  runSteps_guardStep_closed fun _ t _ hs h hser => .step t hs h hser

/-! ## Overlapping calls -/

/-- Two `update_directly` calls, publishing `1` and `2` over the initial `0`. -/
def twoDirectUpdates : List (Thread Nat) :=
  [.updater .updateDirectly 1 .start, .updater .updateDirectly 2 .start]

/-- Both calls load `data_ptr` before either publishes: once both have returned,
box 0 has been handed to both and box 1, no longer published, to neither. -/
theorem overlapping_updates_share_old_box :
    ¬ ∀ s : State Nat, Reachable s →
      (∀ p, returnedTo s p ≤ 1) ∧ (Quiescent s → ∀ p < s.cell.dataPtr, returnedTo s p = 1) := by
  intro h
  obtain ⟨s, hr, hs⟩ : ∃ s, run (init 0 twoDirectUpdates) [0, 1, 0, 1, 0, 1] = some s ∧
      returnedTo s 0 = 2 ∧ returnedTo s 1 = 0 ∧ s.cell.dataPtr = 2 ∧ Quiescent s :=
    ⟨_, rfl, by decide⟩
  have := (h s (run_reachable (.init 0 _ (by decide)) hr)).2 hs.2.2.2 1 (by omega)
  omega

/-! ## Serialized calls -/

/-- Every published box but the current one is held by exactly one call, and a
call that has loaded `data_ptr` but not yet published loaded the current one. -/
structure HandBackInv (s : State α) : Prop where
  held : ∀ p, s.threads.countP (fun th => th.heldOld = some p) =
    if p < s.cell.dataPtr then 1 else 0
  loaded : ∀ (i : Nat) k d old, s.threads[i]? = some (.updater k d (.loaded old)) →
    old = s.cell.dataPtr

theorem handBackInv_init (data : α) (ts : List (Thread α)) (h : ∀ th ∈ ts, th.atStart) :
    HandBackInv (init data ts) := by
  have hs : ∀ th ∈ ts, th.heldOld = none ∧ ∀ k d old, th ≠ .updater k d (.loaded old) :=
    fun th hth => by
      have := h th hth
      rcases th with ⟨_ | _ | _ | _⟩ | ⟨_, _, _ | _ | _ | _ | _⟩ <;> cases this <;> exact ⟨rfl, fun _ _ _ => nofun⟩
  refine ⟨fun p => ?_, fun i k d old hi => ?_⟩
  · simpa [init] using fun th hth => by simp [(hs th hth).1]
  · exact absurd rfl ((hs _ (List.getElem?_mem hi)).2 k d old)

theorem SerialReach.serialized {s : State α} (h : SerialReach s) : Serialized s := by
  cases h with
  | init data ts hs =>
    intro i j hi _
    obtain ⟨th, hth, hp⟩ := Option.map_eq_some'.mp hi
    have := hs th (List.getElem?_mem hth)
    rcases th with ⟨_ | _ | _ | _⟩ | ⟨_, _, _ | _ | _ | _ | _⟩ <;> cases this <;> cases hp
  | step _ _ _ h => exact h

private theorem handBackInv_set {s : State α} {t : Nat} {th th' : Thread α} (hinv : HandBackInv s)
    (ht : s.threads[t]? = some th) (hheld : th'.heldOld = th.heldOld)
    (hl : ∀ k d old, th' = .updater k d (.loaded old) → old = s.cell.dataPtr) :
    HandBackInv ⟨s.cell, s.threads.set t th'⟩ := by
  refine ⟨fun p => ?_, fun i k d old hi => ?_⟩
  · rw [countP_set_of_eq _ ht (by rw [hheld])]
    exact hinv.held p
  · by_cases hit : i = t
    · subst hit
      rw [List.getElem?_set_self (List.getElem?_eq_some_iff.mp ht).1] at hi
      exact hl k d old (Option.some.inj hi)
    · exact hinv.loaded i k d old (by rwa [List.getElem?_set_ne (Ne.symm hit)] at hi)

private theorem handBackInv_publish {s : State α} {t : Nat} {k : UpdateKind} {d : α} {old : Nat}
    (hser : Serialized s) (hinv : HandBackInv s)
    (ht : s.threads[t]? = some (.updater k d (.loaded old))) :
    HandBackInv ⟨s.cell.assignBox d, s.threads.set t (.updater k d (.assigned old))⟩ := by
  have hold := hinv.loaded t k d old ht
  refine ⟨fun p => ?_, fun i k' d' old' hi => ?_⟩
  · rw [countP_set_of_getElem? _ ht, hinv.held p]
    simp only [Thread.heldOld, SRcuData.assignBox_dataPtr, hold]
    split_ifs <;> simp_all <;> omega
  · have hit : i ≠ t := by
      rintro rfl
      simp [List.getElem?_set_self (List.getElem?_eq_some_iff.mp ht).1] at hi
    rw [List.getElem?_set_ne (Ne.symm hit)] at hi
    exact absurd (hser.eq hi ht rfl rfl) hit

theorem handBackInv_step {s s' : State α} {t : Nat} (hser : Serialized s) (hinv : HandBackInv s)
    (h : step s t = some s') : HandBackInv s' := by
  rcases step_cases h with ⟨pc, pc', ht, _, rfl⟩ | ⟨k, d, pc, pc', c', ht, hu, rfl⟩
  · exact handBackInv_set hinv ht rfl (by simp)
  · rcases updaterStep_cases hu with ⟨rfl, rfl, rfl⟩ | ⟨old, rfl, rfl, rfl⟩ |
      ⟨old, rfl, -, rfl, rfl⟩ | ⟨old, rfl, -, rfl, rfl⟩ | ⟨old, _, rfl, -, rfl, rfl⟩
    · exact handBackInv_set hinv ht rfl (by simp)
    · exact handBackInv_publish hser hinv ht
    all_goals exact handBackInv_set hinv ht rfl (by simp)

theorem SerialReach.handBackInv {s : State α} (h : SerialReach s) : HandBackInv s := by
  induction h with
  | init data ts hs => exact handBackInv_init data ts hs
  | step _ hs hst _ ih => exact handBackInv_step hs.serialized ih hst

/-- With update calls serialized among themselves, no box is handed to two
calls, and once no call is in progress every box published before the current
one has been handed to exactly one. -/
theorem serialized_updates_hand_back_once {s : State α} (h : SerialReach s) :
    (∀ p, returnedTo s p ≤ 1) ∧ (Quiescent s → ∀ p < s.cell.dataPtr, returnedTo s p = 1) := by
  have hinv := h.handBackInv
  have hle : ∀ p, returnedTo s p ≤ s.threads.countP (fun th => th.heldOld = some p) :=
    fun p => List.countP_mono_left fun th _ hp => by
      simpa using Thread.heldOld_of_handedBack (by simpa using hp)
  refine ⟨fun p => (hle p).trans (by rw [hinv.held p]; split_ifs <;> omega), ?_⟩
  intro hq p hp
  have heq : returnedTo s p = s.threads.countP (fun th => th.heldOld = some p) :=
    List.countP_congr fun th hth => by
      constructor
      · intro hb; simpa using Thread.heldOld_of_handedBack (by simpa using hb)
      · intro hh; simpa using Thread.handedBack_of_heldOld (by simpa using hh) (hq th hth)
  rw [heq, hinv.held p, if_pos hp]

/-- The same two calls one after the other: each is handed the box before its own. -/
def serialDirectUpdates : State Nat :=
  ⟨((SRcuData.new 0).assignBox 1).assignBox 2,
    [.updater .updateDirectly 1 (.done 0), .updater .updateDirectly 2 (.done 1)]⟩

theorem serialDirectUpdates_hand_back_once :
    (∀ p, returnedTo serialDirectUpdates p ≤ 1) ∧ (Quiescent serialDirectUpdates →
      ∀ p < serialDirectUpdates.cell.dataPtr, returnedTo serialDirectUpdates p = 1) :=
  serialized_updates_hand_back_once (serialRun_reach (.init 0 twoDirectUpdates (by decide))
    (show serialRun (init 0 twoDirectUpdates) [0, 0, 0, 1, 1, 1] = some serialDirectUpdates from rfl))

end HotUpgrade.SRcuThreads
