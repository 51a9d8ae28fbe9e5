import HotUpgrade.RemoteRef
import HotUpgrade.Interleaving

/-! `DROP`, `RRef::new_with_layout` and `drop_domain_share_data` of `rref.rs`,
run by any number of threads, one call per thread. `DROP` maps a `TypeId` to
`drop_no_type::<T>`, named here by `T`; `T::type_id()` is the parameter
`typeId`, since `TypeIdentifiable` is not under `src/`. Neither is the shared
heap: its blocks are modelled from the spec, each keeping the type id and
layout it was allocated with, and `share_heap_alloc` may fail. Block `b` has
its domain-id slot at `2 * b` and its value at `2 * b + 1`, and records, as
ghost state, the `T` it was allocated for. Payload bytes are not modelled, and
the function `drop_domain_share_data` finds is recorded, not run: no block is
freed. -/

namespace HotUpgrade.DropRegistry
open RemoteRef

abbrev TypeId := Nat

structure Layout where
  size : Nat
  align : Nat
deriving DecidableEq, Repr

variable {Ty : Type}

/-- `DROP`: a `BTreeMap<TypeId, DropFn>`, newest entry first. -/
abbrev DropMap (Ty : Type) := List (TypeId × Ty)

/-- `entry(type_id).or_insert(f)`: an existing entry is kept. -/
def orInsert (m : DropMap Ty) (id : TypeId) (f : Ty) : DropMap Ty :=
  match m.lookup id with
  | some _ => m
  | none => (id, f) :: m

/-- `drop_domain_share_data(id, ptr)`: the function `DROP` holds for `id`;
`none` is the `unwrap()` panic. -/
def dropDomainShareData (m : DropMap Ty) (id : TypeId) : Option Ty := m.lookup id

/-- A shared-heap allocation, with the `T` it was made for. -/
structure Block (Ty : Type) where
  typeId : TypeId
  layout : Layout
  ty : Ty

/-- `RRef::<T>::new_with_layout(value, layout, init)`, called from `domain`. -/
structure NewCall (Ty : Type) where
  ty : Ty
  layout : Layout
  init : Bool
  domain : DomainId

inductive NewPc
  | start
  | locked
  | registered
  | allocated (b : Nat)
  | tagged (b : Nat)
  | done (r : RRef)
  | panicked

/-- `drop_domain_share_data(type_id, ptr)` called on block `b`. -/
inductive SweepPc (Ty : Type)
  | start
  | locked
  | dropping (f : Ty)
  | done
  | panicked

inductive Thread (Ty : Type)
  | new (call : NewCall Ty) (pc : NewPc)
  | sweep (b : Nat) (pc : SweepPc Ty)

structure Heap (Ty : Type) where
  drop : DropMap Ty
  dropLock : Option Nat
  blocks : List (Block Ty)
  tags : TagHeap

structure State (Ty : Type) where
  heap : Heap Ty
  threads : List (Thread Ty)

section Constructors

variable (layoutNew : Ty → Layout) (T : Ty) (align : Nat) (domain : DomainId)

/-- `RRef::new`. -/
def RRef.new : NewCall Ty := ⟨T, layoutNew T, true, domain⟩

/-- `RRef::new_aligned`: `size_of::<T>()` with `align`. -/
def RRef.newAligned : NewCall Ty := ⟨T, ⟨(layoutNew T).size, align⟩, true, domain⟩

/-- `RRef::new_uninit`. -/
def RRef.newUninit : NewCall Ty := ⟨T, layoutNew T, false, domain⟩

/-- `RRef::new_uninit_aligned`. -/
def RRef.newUninitAligned : NewCall Ty := ⟨T, ⟨(layoutNew T).size, align⟩, false, domain⟩

end Constructors

variable (typeId : Ty → TypeId)

/-- `new_with_layout`: register `drop_no_type::<T>` under `DROP`'s lock, allocate
(`ok` is the allocator's answer), write the caller's domain id, return the `RRef`. -/
def newStep (t : Nat) (call : NewCall Ty) (ok : Bool) : NewPc → Heap Ty → Option (NewPc × Heap Ty)
  | .start, hp => if hp.dropLock = none then some (.locked, { hp with dropLock := some t }) else none
  | .locked, hp =>
    some (.registered, { hp with drop := orInsert hp.drop (typeId call.ty) call.ty, dropLock := none })
  | .registered, hp =>
    if ok then
      some (.allocated hp.blocks.length,
        { hp with blocks := hp.blocks ++ [⟨typeId call.ty, call.layout, call.ty⟩] })
    else some (.panicked, hp)
  | .allocated b, hp => some (.tagged b, { hp with tags := Function.update hp.tags (2 * b) call.domain })
  | .tagged b, hp => some (.done ⟨2 * b, 2 * b + 1, false⟩, hp)
  | .done _, _ | .panicked, _ => none

/-- `drop_domain_share_data` on block `b`: `DROP.lock()`, look the type id up,
run the function found and release the lock. -/
def sweepStep (t b : Nat) : SweepPc Ty → Heap Ty → Option (SweepPc Ty × Heap Ty)
  | .start, hp =>
    if hp.dropLock = none ∧ b < hp.blocks.length then some (.locked, { hp with dropLock := some t })
    else none
  | .locked, hp =>
    hp.blocks[b]?.map fun blk =>
      match dropDomainShareData hp.drop blk.typeId with
      | some f => (.dropping f, hp)
      | none => (.panicked, hp)
  | .dropping _, hp => some (.done, { hp with dropLock := none })
  | .done, _ | .panicked, _ => none

def step (s : State Ty) (t : Nat) (ok : Bool) : Option (State Ty) :=
  match s.threads[t]? with
  | some (.new call pc) =>
    (newStep typeId t call ok pc s.heap).map fun r => ⟨r.2, s.threads.set t (.new call r.1)⟩
  | some (.sweep b pc) =>
    (sweepStep t b pc s.heap).map fun r => ⟨r.2, s.threads.set t (.sweep b r.1)⟩
  | none => none

def Thread.atStart : Thread Ty → Bool
  | .new _ .start | .sweep _ .start => true
  | _ => false

/-- `DROP` starts empty and so does the shared heap. -/
def init (ts : List (Thread Ty)) : State Ty := ⟨⟨[], none, [], fun _ => 0⟩, ts⟩

inductive Reachable : State Ty → Prop
  | init (ts : List (Thread Ty)) (h : ∀ th ∈ ts, th.atStart) : Reachable (init ts)
  | step {s s' : State Ty} (t : Nat) (ok : Bool) :
    Reachable s → step typeId s t ok = some s' → Reachable s'

/-- Take the listed steps, each with the allocator's answer. -/
def run : State Ty → List (Nat × Bool) → Option (State Ty) := runSteps fun s i => step typeId s i.1 i.2

theorem run_reachable {s s' : State Ty} {l : List (Nat × Bool)} :
    Reachable typeId s → run typeId s l = some s' → Reachable typeId s' :=
  runSteps_closed fun _ i _ hs h => .step i.1 i.2 hs h

/-! ## `DROP` only grows -/

theorem isSome_lookup_orInsert {m : DropMap Ty} {id x : TypeId} (g : Ty)
    (h : (m.lookup x).isSome ∨ x = id) : ((orInsert m id g).lookup x).isSome := by
  unfold orInsert
  split
  · next hs =>
    rcases h with h | rfl
    · exact h
    · simp [hs]
  · rw [List.lookup_cons]
    split
    · rfl
    · next hne => exact h.resolve_right (by simpa using hne)

theorem lookup_orInsert {m : DropMap Ty} {id x : TypeId} {f g : Ty}
    (h : (orInsert m id g).lookup x = some f) : m.lookup x = some f ∨ (x = id ∧ f = g) := by
  unfold orInsert at h
  split at h
  · exact .inl h
  · rw [List.lookup_cons] at h
    split at h
    · next he => simp at he; exact .inr ⟨he, (Option.some.inj h).symm⟩
    · exact .inl h

/-! ## Registration precedes allocation -/

/-- What a thread's position says about the heap: a call about to allocate has
registered its type, a sweep about to run `f` found it for its block's type,
and no sweep has panicked. -/
def threadOk (hp : Heap Ty) : Thread Ty → Prop
  | .new call .registered => (hp.drop.lookup (typeId call.ty)).isSome
  | .sweep b (.dropping f) => ∃ blk, hp.blocks[b]? = some blk ∧ typeId f = typeId blk.ty
  | .sweep _ .panicked => False
  | _ => True

/-- Every `DROP` entry for `id` is `drop_no_type::<T>` for a `T` with that id,
every block's type id is registered, and every thread is where `threadOk` allows. -/
structure DropInv (hp : Heap Ty) (ts : List (Thread Ty)) : Prop where
  entries : ∀ id f, hp.drop.lookup id = some f → typeId f = id
  blocks : ∀ blk ∈ hp.blocks, blk.typeId = typeId blk.ty ∧ (hp.drop.lookup blk.typeId).isSome
  threads : ∀ (i : Nat) th, ts[i]? = some th → threadOk typeId hp th

variable {typeId}

section Steps

variable {hp hp' : Heap Ty} {ts : List (Thread Ty)} {t : Nat}

theorem threadOk_mono {th : Thread Ty}
    (hgrow : ∀ id, (hp.drop.lookup id).isSome → (hp'.drop.lookup id).isSome)
    (hstay : ∀ (b : Nat) blk, hp.blocks[b]? = some blk → hp'.blocks[b]? = some blk)
    (h : threadOk typeId hp th) : threadOk typeId hp' th := by
  cases th with
  | new call pc => cases pc <;> first | exact hgrow _ h | exact h
  | sweep b pc =>
    cases pc with
    | dropping f => obtain ⟨blk, hb, he⟩ := h; exact ⟨blk, hstay b blk hb, he⟩
    | _ => exact h

theorem dropInv_init (ts : List (Thread Ty)) (h : ∀ th ∈ ts, th.atStart) :
    DropInv typeId (init ts).heap (init ts).threads where
  entries _ _ hl := by cases hl
  blocks _ hb := by cases hb
  threads i th hi := by
    have hs := h th (List.getElem?_mem hi)
    rcases th with ⟨_, _ | _ | _ | _ | _ | _ | _⟩ | ⟨_, _ | _ | _ | _ | _⟩ <;> trivial

private theorem dropInv_set {th' : Thread Ty} (hinv : DropInv typeId hp ts)
    (hentries : ∀ id f, hp'.drop.lookup id = some f → typeId f = id)
    (hblocks : ∀ blk ∈ hp'.blocks, blk.typeId = typeId blk.ty ∧ (hp'.drop.lookup blk.typeId).isSome)
    (hgrow : ∀ id, (hp.drop.lookup id).isSome → (hp'.drop.lookup id).isSome)
    (hstay : ∀ (b : Nat) blk, hp.blocks[b]? = some blk → hp'.blocks[b]? = some blk)
    (hth : threadOk typeId hp' th') : DropInv typeId hp' (ts.set t th') where
  entries := hentries
  blocks := hblocks
  threads i th hi := by
    rcases getElem?_set_cases hi with ⟨-, rfl⟩ | ⟨-, h⟩
    · exact hth
    · exact threadOk_mono hgrow hstay (hinv.threads i th h)

private theorem dropInv_keep {th' : Thread Ty} (hinv : DropInv typeId hp ts)
    (hd : hp'.drop = hp.drop) (hb : hp'.blocks = hp.blocks) (hth : threadOk typeId hp' th') :
    DropInv typeId hp' (ts.set t th') :=
  dropInv_set hinv (hd ▸ hinv.entries) (hd ▸ hb ▸ hinv.blocks) (fun _ => hd ▸ id)
    (fun _ _ => hb ▸ id) hth

private theorem dropInv_register {call : NewCall Ty} (hinv : DropInv typeId hp ts) :
    DropInv typeId { hp with drop := orInsert hp.drop (typeId call.ty) call.ty, dropLock := none }
      (ts.set t (.new call .registered)) := by
  refine dropInv_set hinv (fun id f hl => ?_)
    (fun blk hb => ⟨(hinv.blocks blk hb).1, isSome_lookup_orInsert _ (.inl (hinv.blocks blk hb).2)⟩)
    (fun _ h => isSome_lookup_orInsert _ (.inl h)) (fun _ _ => id)
    (isSome_lookup_orInsert _ (.inr rfl))
  rcases lookup_orInsert hl with hl | ⟨rfl, rfl⟩
  · exact hinv.entries id f hl
  · rfl

private theorem dropInv_allocate {call : NewCall Ty} (hinv : DropInv typeId hp ts)
    (ht : ts[t]? = some (.new call .registered)) :
    DropInv typeId { hp with blocks := hp.blocks ++ [⟨typeId call.ty, call.layout, call.ty⟩] }
      (ts.set t (.new call (.allocated hp.blocks.length))) := by
  refine dropInv_set hinv hinv.entries (fun blk hb => ?_) (fun _ => id)
    (fun b blk h => (List.getElem?_append_left (List.getElem?_eq_some_iff.mp h).1).trans h) trivial
  rcases List.mem_append.mp hb with hb | hb
  · exact hinv.blocks blk hb
  · obtain rfl := List.mem_singleton.mp hb
    exact ⟨rfl, hinv.threads t _ ht⟩

theorem newStep_dropInv {call : NewCall Ty} {ok : Bool} {pc pc' : NewPc}
    (hinv : DropInv typeId hp ts) (ht : ts[t]? = some (.new call pc))
    (h : newStep typeId t call ok pc hp = some (pc', hp')) :
    DropInv typeId hp' (ts.set t (.new call pc')) := by
  have keep : ∀ {hp₁ : Heap Ty} {pc₁ : NewPc}, some (pc₁, hp₁) = some (pc', hp') →
      hp₁.drop = hp.drop → hp₁.blocks = hp.blocks → threadOk typeId hp₁ (.new call pc₁) →
      DropInv typeId hp' (ts.set t (.new call pc')) := by
    rintro hp₁ pc₁ ⟨⟩ hd hb hth
    exact dropInv_keep hinv hd hb hth
  cases pc with
  | start =>
    simp only [newStep] at h
    split at h
    · exact keep h rfl rfl trivial
    · cases h
  | locked => cases h; exact dropInv_register hinv
  | registered =>
    simp only [newStep] at h
    split at h
    · cases h; exact dropInv_allocate hinv ht
    · exact keep h rfl rfl trivial
  | allocated b => exact keep h rfl rfl trivial
  | tagged b => exact keep h rfl rfl trivial
  | done _ | panicked => cases h

theorem sweepStep_dropInv {b : Nat} {pc pc' : SweepPc Ty} (hinv : DropInv typeId hp ts)
    (h : sweepStep t b pc hp = some (pc', hp')) :
    DropInv typeId hp' (ts.set t (.sweep b pc')) := by
  have keep : ∀ {hp₁ : Heap Ty} {pc₁ : SweepPc Ty}, some (pc₁, hp₁) = some (pc', hp') →
      hp₁.drop = hp.drop → hp₁.blocks = hp.blocks → threadOk typeId hp₁ (.sweep b pc₁) →
      DropInv typeId hp' (ts.set t (.sweep b pc')) := by
    rintro hp₁ pc₁ ⟨⟩ hd hb hth
    exact dropInv_keep hinv hd hb hth
  cases pc with
  | start =>
    simp only [sweepStep] at h
    split at h
    · exact keep h rfl rfl trivial
    · cases h
  | locked =>
    obtain ⟨blk, hblk, h⟩ := Option.map_eq_some'.mp h
    have hreg := hinv.blocks blk (List.getElem?_mem hblk)
    split at h
    · next f hf => exact keep (congrArg some h) rfl rfl ⟨blk, hblk, (hinv.entries _ _ hf).trans hreg.1⟩
    · next hnone => rw [dropDomainShareData] at hnone; simp [hnone] at hreg
  | dropping f => exact keep h rfl rfl trivial
  | done | panicked => cases h

end Steps

theorem dropInv_step {s s' : State Ty} {t : Nat} {ok : Bool} (hinv : DropInv typeId s.heap s.threads)
    (h : step typeId s t ok = some s') : DropInv typeId s'.heap s'.threads := by
  unfold step at h
  split at h
  · next ht =>
    obtain ⟨⟨pc', hp'⟩, hst, rfl⟩ := Option.map_eq_some'.mp h
    exact newStep_dropInv hinv ht hst
  · obtain ⟨⟨pc', hp'⟩, hst, rfl⟩ := Option.map_eq_some'.mp h
    exact sweepStep_dropInv hinv hst
  · cases h

theorem Reachable.dropInv {s : State Ty} (h : Reachable typeId s) : DropInv typeId s.heap s.threads := by
  induction h with
  | init ts h => exact dropInv_init ts h
  | step _ _ _ hst ih => exact dropInv_step ih hst

/-- In every run of any `new*` calls and sweeps: every allocated block's type
id is in `DROP`, so no `drop_domain_share_data` reaches its `unwrap()` on
`None`; and when distinct types have distinct ids, `DROP` holds
`drop_no_type::<T>` for a block allocated for `T`, and that is the function a
sweep of the block runs. -/
theorem drop_domain_share_data_total {s : State Ty} (hs : Reachable typeId s) :
    (∀ blk ∈ s.heap.blocks, (dropDomainShareData s.heap.drop blk.typeId).isSome) ∧
    (∀ (i : Nat) b, s.threads[i]? ≠ some (.sweep b .panicked)) ∧
    (Function.Injective typeId →
      (∀ blk ∈ s.heap.blocks, dropDomainShareData s.heap.drop blk.typeId = some blk.ty) ∧
      ∀ (i : Nat) b f, s.threads[i]? = some (.sweep b (.dropping f)) →
        s.heap.blocks[b]?.map Block.ty = some f) := by
  have hinv := hs.dropInv
  refine ⟨fun blk hb => (hinv.blocks blk hb).2, fun i b hi => hinv.threads i _ hi,
    fun hinj => ⟨fun blk hb => ?_, fun i b f hi => ?_⟩⟩
  · obtain ⟨f, hf⟩ := Option.isSome_iff_exists.mp (hinv.blocks blk hb).2
    rw [dropDomainShareData, hf, hinj ((hinv.entries _ _ hf).trans (hinv.blocks blk hb).1)]
  · obtain ⟨blk, hblk, he⟩ := hinv.threads i _ hi
    rw [hblk, hinj he]
    rfl

/-- Two calls register and allocate for types `3` and `5` (type ids the types
themselves), and a sweep of block 0 is about to run the function for `3`. -/
def allocateThenSweep : State Nat :=
  ⟨⟨[(5, 5), (3, 3)], some 2, [⟨3, ⟨8, 8⟩, 3⟩, ⟨5, ⟨4, 16⟩, 5⟩],
    Function.update (Function.update (fun _ => 0) 0 1) 2 2⟩,
   [.new (RRef.new (fun _ => ⟨8, 8⟩) 3 1) (.done ⟨0, 1, false⟩),
    .new (RRef.newUninitAligned (fun _ => ⟨4, 4⟩) 5 16 2) (.done ⟨2, 3, false⟩),
    .sweep 0 (.dropping 3)]⟩

theorem allocateThenSweep_total :
    (∀ blk ∈ allocateThenSweep.heap.blocks,
      (dropDomainShareData allocateThenSweep.heap.drop blk.typeId).isSome) ∧
    (∀ (i : Nat) b, allocateThenSweep.threads[i]? ≠ some (.sweep b .panicked)) ∧
    (Function.Injective (id : Nat → TypeId) →
      (∀ blk ∈ allocateThenSweep.heap.blocks,
        dropDomainShareData allocateThenSweep.heap.drop blk.typeId = some blk.ty) ∧
      ∀ (i : Nat) b f, allocateThenSweep.threads[i]? = some (.sweep b (.dropping f)) →
        allocateThenSweep.heap.blocks[b]?.map Block.ty = some f) :=
  drop_domain_share_data_total (run_reachable id (.init _ (by decide))
    (show run id (init [.new (RRef.new (fun _ => ⟨8, 8⟩) 3 1) .start,
        .new (RRef.newUninitAligned (fun _ => ⟨4, 4⟩) 5 16 2) .start, .sweep 0 .start])
      [(0, true), (0, true), (1, true), (1, true), (0, true), (1, true), (2, true), (2, true),
        (0, true), (0, true), (1, true), (1, true)] = some allocateThenSweep from rfl))

end HotUpgrade.DropRegistry
