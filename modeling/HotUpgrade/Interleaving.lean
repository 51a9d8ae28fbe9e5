import Mathlib.Data.List.Basic

/-! What the interleaving models share: a run is a list of steps taken in
order, and a step of thread `t` replaces entry `t` of the thread list and
leaves every other entry as it was. -/

namespace HotUpgrade

/-- Take the listed steps in order; `none` at the first that cannot be taken. -/
def runSteps {σ ι : Type} (step : σ → ι → Option σ) : σ → List ι → Option σ
  | s, [] => some s
  | s, i :: l => (step s i).bind (runSteps step · l)

theorem runSteps_closed {σ ι : Type} {step : σ → ι → Option σ} {R : σ → Prop}
    (hR : ∀ s i s', R s → step s i = some s' → R s') :
    ∀ {s s' : σ} {l : List ι}, R s → runSteps step s l = some s' → R s'
  | _, _, [], hs, h => by cases h; exact hs
  | s, _, i :: l, hs, h => by
    cases hst : step s i with
    | none => simp [runSteps, hst] at h
    | some s₁ => exact runSteps_closed hR (hR s i s₁ hs hst) (by simpa [runSteps, hst] using h)

/-- `step`, refused where it would leave `P`. -/
def guardStep {σ ι : Type} (step : σ → ι → Option σ) (P : σ → Prop) [DecidablePred P] (s : σ) (i : ι) :
    Option σ :=
  (step s i).bind fun s' => if P s' then some s' else none

theorem runSteps_guardStep_closed {σ ι : Type} {step : σ → ι → Option σ} {P : σ → Prop}
    [DecidablePred P] {R : σ → Prop} (hR : ∀ s i s', R s → step s i = some s' → P s' → R s')
    {s s' : σ} {l : List ι} : R s → runSteps (guardStep step P) s l = some s' → R s' :=
  runSteps_closed fun s i _ hs h => by
    obtain ⟨s₁, hst, hp⟩ := Option.bind_eq_some.mp h
    split at hp
    · exact Option.some.inj hp ▸ hR s i s₁ hs hst ‹_›
    · cases hp

/-- At most one entry of `l` satisfies `p`. -/
def AtMostOne {β : Type} (p : β → Bool) (l : List β) : Prop :=
  ∀ i j : Nat, l[i]?.map p = some true → l[j]?.map p = some true → i = j

theorem lt_length_of_map {β γ : Type} {l : List β} {i : Nat} {f : β → γ} {b : γ}
    (h : l[i]?.map f = some b) : i < l.length := by
  obtain ⟨_, hi, -⟩ := Option.map_eq_some'.mp h
  exact (List.getElem?_eq_some_iff.mp hi).1

instance {β : Type} (p : β → Bool) (l : List β) : Decidable (AtMostOne p l) :=
  decidable_of_iff (∀ i < l.length, ∀ j < l.length,
      l[i]?.map p = some true → l[j]?.map p = some true → i = j)
    ⟨fun h i j hi hj => h i (lt_length_of_map hi) j (lt_length_of_map hj) hi hj,
      fun h i _ j _ => h i j⟩

theorem AtMostOne.eq {β : Type} {p : β → Bool} {l : List β} (h : AtMostOne p l) {i j : Nat} {a b : β}
    (hi : l[i]? = some a) (hj : l[j]? = some b) (ha : p a = true) (hb : p b = true) : i = j :=
  h i j (by rw [hi]; exact congrArg some ha) (by rw [hj]; exact congrArg some hb)

theorem getElem?_set_cases {β : Type} {l : List β} {t i : Nat} {b x : β}
    (h : (l.set t b)[i]? = some x) : (i = t ∧ x = b) ∨ (i ≠ t ∧ l[i]? = some x) := by
  by_cases hit : i = t
  · subst hit
    have hlt : i < l.length := by simpa using (List.getElem?_eq_some_iff.mp h).1
    exact .inl ⟨rfl, (Option.some.inj ((List.getElem?_set_self hlt).symm.trans h)).symm⟩
  · exact .inr ⟨hit, by rwa [List.getElem?_set_ne (Ne.symm hit)] at h⟩

theorem getElem?_set_of_getElem? {β : Type} {l : List β} {t : Nat} {b b' : β} (h : l[t]? = some b) :
    (l.set t b')[t]? = some b' :=
  List.getElem?_set_self (List.getElem?_eq_some_iff.mp h).1

theorem forall_set_of_forall {β : Type} {P : β → Prop} {l : List β} {t : Nat} {b : β}
    (hall : ∀ (i : Nat) x, l[i]? = some x → P x) (hb : P b) :
    ∀ (i : Nat) x, (l.set t b)[i]? = some x → P x := fun i x hi => by
  rcases getElem?_set_cases hi with ⟨-, rfl⟩ | ⟨-, hi⟩
  · exact hb
  · exact hall i x hi

theorem forall_mem_of_forall_mem_set {β : Type} {P : β → Prop} {l : List β} {t : Nat} {a b : β}
    (h : l[t]? = some a) (ha : P a) (hall : ∀ x ∈ l.set t b, P x) : ∀ x ∈ l, P x := fun x hx => by
  obtain ⟨j, hj⟩ := List.getElem?_of_mem hx
  by_cases hjt : j = t
  · subst hjt; cases hj.symm.trans h; exact ha
  · exact hall x (List.getElem?_mem (by rwa [List.getElem?_set_ne (Ne.symm hjt)]))

theorem exists_mem_set_of_exists_mem {β : Type} {P : β → Prop} {l : List β} {t : Nat} {a b : β}
    (h : l[t]? = some a) (hab : P a → P b) (hex : ∃ x ∈ l, P x) : ∃ x ∈ l.set t b, P x := by
  obtain ⟨x, hx, hp⟩ := hex
  obtain ⟨j, hj⟩ := List.getElem?_of_mem hx
  by_cases hjt : j = t
  · subst hjt; cases hj.symm.trans h
    exact ⟨b, List.getElem?_mem (getElem?_set_of_getElem? h), hab hp⟩
  · exact ⟨x, List.getElem?_mem (by rwa [List.getElem?_set_ne (Ne.symm hjt)]), hp⟩

theorem countP_set_of_getElem? {β : Type} {l : List β} {t : Nat} {a b : β}
    (q : β → Bool) (h : l[t]? = some a) :
    (l.set t b).countP q = l.countP q - (if q a then 1 else 0) + (if q b then 1 else 0) := by
  obtain ⟨ht, rfl⟩ := List.getElem?_eq_some_iff.mp h
  exact List.countP_set q l t b ht

theorem countP_set_of_eq {β : Type} {l : List β} {t : Nat} {a b : β}
    (q : β → Bool) (h : l[t]? = some a) (hq : q b = q a) : (l.set t b).countP q = l.countP q := by
  rw [countP_set_of_getElem? q h, hq]
  split_ifs with ha
  · have := List.countP_pos_iff.mpr ⟨a, List.getElem?_mem h, ha⟩
    omega
  · simp

end HotUpgrade
