import HotUpgrade.SRcuData
import HotUpgrade.Interleaving

/-! `SRcuData::read`, `update` and `update_directly` of `srcu.rs`, run by any
number of threads, one call per thread. A step is one access to shared state:
the read lock, `srcu_defererence`, the unlock; the load of `data_ptr`, the
publication of the new box, `synchronize_srcu`. Under the SRCU contract
`synchronize_srcu` returns once every read-side section begun before it has
ended: a waiting updater keeps the readers it found in a section, and returns
when none of them is still there. A reader's `e` is ghost state, the published
pointer when it took the lock; `e'` is the one when it unlocked. The reader's
`f` is no step: it touches no shared state and always returns, and the reader
is `running` from its dereference to its unlock. -/

namespace HotUpgrade.SRcuThreads
open SRcu

inductive UpdateKind
  | update
  | updateDirectly
deriving DecidableEq, Repr

inductive ReaderPc
  | start
  | locked (e : Nat)
  | running (e p : Nat)
  | done (e p e' : Nat)
deriving DecidableEq, Repr

inductive UpdaterPc
  | start
  | loaded (old : Nat)
  | assigned (old : Nat)
  | waiting (old : Nat) (pending : List Nat)
  | done (old : Nat)
deriving DecidableEq, Repr

inductive Thread (α : Type)
  | reader (pc : ReaderPc)
  | updater (kind : UpdateKind) (data : α) (pc : UpdaterPc)
deriving DecidableEq, Repr

structure State (α : Type) where
  cell : SRcuData α
  threads : List (Thread α)

variable {α : Type}

namespace Thread

/-- Between `__srcu_read_lock` and `__srcu_read_unlock`. -/
def inSection : Thread α → Bool
  | .reader (.locked _) | .reader (.running _ _) => true
  | _ => false

def atStart : Thread α → Bool
  | .reader .start | .updater _ _ .start => true
  | _ => false

/-- The old pointer a call holds once it has published its own box. -/
def heldOld : Thread α → Option Nat
  | .updater _ _ (.assigned old) | .updater _ _ (.waiting old _) | .updater _ _ (.done old) =>
    some old
  | _ => none

/-- The box a call has returned, `Box::from_raw(old_ptr)`. -/
def handedBack : Thread α → Option Nat
  | .updater _ _ (.done old) => some old
  | _ => none

/-- An update call between its start and its return. -/
def inProgress : Thread α → Bool
  | .updater _ _ (.loaded _) | .updater _ _ (.assigned _) | .updater _ _ (.waiting _ _) => true
  | _ => false

theorem heldOld_of_handedBack {th : Thread α} {p : Nat} (h : th.handedBack = some p) :
    th.heldOld = some p := by
  rcases th with _ | ⟨_, _, _ | _ | _ | _ | _⟩ <;> cases h
  rfl

theorem handedBack_of_heldOld {th : Thread α} {p : Nat} (h : th.heldOld = some p)
    (hq : th.inProgress = false) : th.handedBack = some p := by
  rcases th with _ | ⟨_, _, _ | _ | _ | _ | _⟩ <;> cases h <;> first | rfl | cases hq

end Thread

def inSectionAt (ts : List (Thread α)) (t : Nat) : Bool := (ts[t]?.map Thread.inSection).getD false

/-- The readers a `synchronize_srcu` that begins now waits for. -/
def sectionReaders (ts : List (Thread α)) : List Nat :=
  (List.range ts.length).filter (inSectionAt ts)

/-- `SRcuData::read`: lock, dereference, run `f` and unlock. -/
def readerStep (c : SRcuData α) : ReaderPc → Option ReaderPc
  | .start => some (.locked c.dataPtr)
  | .locked e => some (.running e c.srcuDefererence)
  | .running e p => some (.done e p c.dataPtr)
  | .done .. => none

/-- `SRcuData::update` and `update_directly`; they differ after the publication. -/
def updaterStep (ts : List (Thread α)) (kind : UpdateKind) (data : α) :
    UpdaterPc → SRcuData α → Option (UpdaterPc × SRcuData α)
  | .start, c => some (.loaded c.dataPtr, c)
  | .loaded old, c => some (.assigned old, c.assignBox data)
  | .assigned old, c =>
    match kind with
    | .updateDirectly => some (.done old, c)
    | .update => some (.waiting old (sectionReaders ts), c)
  | .waiting old pending, c =>
    if pending.all fun t => !inSectionAt ts t then some (.done old, c) else none
  | .done _, _ => none

def step (s : State α) (t : Nat) : Option (State α) :=
  match s.threads[t]? with
  | some (.reader pc) => (readerStep s.cell pc).map fun pc => ⟨s.cell, s.threads.set t (.reader pc)⟩
  | some (.updater k d pc) =>
    (updaterStep s.threads k d pc s.cell).map fun r => ⟨r.2, s.threads.set t (.updater k d r.1)⟩
  | none => none

def init (data : α) (ts : List (Thread α)) : State α := ⟨SRcuData.new data, ts⟩

inductive Reachable : State α → Prop
  | init (data : α) (ts : List (Thread α)) (h : ∀ th ∈ ts, th.atStart) : Reachable (init data ts)
  | step {s s' : State α} (t : Nat) : Reachable s → step s t = some s' → Reachable s'

/-- Run the steps of the listed threads in order. -/
def run : State α → List Nat → Option (State α) := runSteps step

theorem run_reachable {s s' : State α} {l : List Nat} : Reachable s → run s l = some s' →
    Reachable s' :=
  runSteps_closed fun _ t _ hs h => .step t hs h

/-! ## What one step does -/

variable {s s' : State α} {t : Nat}

theorem step_cases (h : step s t = some s') :
    (∃ pc pc', s.threads[t]? = some (.reader pc) ∧ readerStep s.cell pc = some pc' ∧
      s' = ⟨s.cell, s.threads.set t (.reader pc')⟩) ∨
    (∃ k d pc pc' c', s.threads[t]? = some (.updater k d pc) ∧
      updaterStep s.threads k d pc s.cell = some (pc', c') ∧
      s' = ⟨c', s.threads.set t (.updater k d pc')⟩) := by
  unfold step at h
  split at h
  · obtain ⟨pc', hpc, rfl⟩ := Option.map_eq_some'.mp h
    exact .inl ⟨_, pc', ‹_›, hpc, rfl⟩
  · obtain ⟨⟨pc', c'⟩, hpc, rfl⟩ := Option.map_eq_some'.mp h
    exact .inr ⟨_, _, _, pc', c', ‹_›, hpc, rfl⟩
  · cases h

theorem updaterStep_cases {ts : List (Thread α)} {k : UpdateKind} {d : α} {pc pc' : UpdaterPc}
    {c c' : SRcuData α} (h : updaterStep ts k d pc c = some (pc', c')) :
    (pc = .start ∧ pc' = .loaded c.dataPtr ∧ c' = c) ∨
    (∃ old, pc = .loaded old ∧ pc' = .assigned old ∧ c' = c.assignBox d) ∨
    (∃ old, pc = .assigned old ∧ k = .updateDirectly ∧ pc' = .done old ∧ c' = c) ∨
    (∃ old, pc = .assigned old ∧ k = .update ∧ pc' = .waiting old (sectionReaders ts) ∧ c' = c) ∨
    (∃ old pending, pc = .waiting old pending ∧ (∀ i ∈ pending, inSectionAt ts i = false) ∧
      pc' = .done old ∧ c' = c) := by
  cases pc with
  | waiting old pending =>
    simp only [updaterStep] at h
    split at h
    next hall =>
      obtain ⟨rfl, rfl⟩ := Prod.mk.inj (Option.some.inj h)
      exact .inr (.inr (.inr (.inr ⟨old, pending, rfl, by simpa using hall, rfl, rfl⟩)))
    · cases h
  | assigned old =>
    cases k <;> obtain ⟨rfl, rfl⟩ := Prod.mk.inj (Option.some.inj h) <;> simp
  | done _ => cases h
  | _ => obtain ⟨rfl, rfl⟩ := Prod.mk.inj (Option.some.inj h); simp

end HotUpgrade.SRcuThreads
