import Mathlib.Algebra.GroupWithZero.Nat
import Mathlib.Data.List.Basic

/-!
# Runs of a step function

A system is a step function `step : σ → α → Option σ`: the action `a` is enabled in the state `s` when
`step s a` is `some _`, and everything a scheduler, a network or an operator chooses is part of the
action. A run is a list of actions that are enabled one after the other.

Two properties of a run are used throughout: `Always P`, every state it visits satisfies `P`, and
`Guarded G`, every action it takes satisfies `G` in the state it is taken in.
-/

namespace Runs

variable {σ α : Type*}

/-- The state after the actions `as`, when every one of them is enabled in its turn. -/
def run (step : σ → α → Option σ) : σ → List α → Option σ
  | s, [] => some s
  | s, a :: as => (step s a).bind fun s' => run step s' as

/-- Every state the run visits satisfies `P`, the first and the last one included. -/
def Always (step : σ → α → Option σ) (P : σ → Prop) : σ → List α → Prop
  | s, [] => P s
  | s, a :: as => P s ∧ ∀ s', step s a = some s' → Always step P s' as

/-- Every action the run takes satisfies `G` in the state it is taken in. -/
def Guarded (step : σ → α → Option σ) (G : σ → α → Prop) : σ → List α → Prop
  | _, [] => True
  | s, a :: as => ∀ s', step s a = some s' → G s a ∧ Guarded step G s' as

variable {step : σ → α → Option σ} {P I : σ → Prop} {G : σ → α → Prop}

instance decidableAlways [DecidablePred P] : ∀ s as, Decidable (Always step P s as)
  | s, [] => inferInstanceAs (Decidable (P s))
  | s, a :: as =>
    match h : step s a with
    | none => decidable_of_iff (P s) (by simp [Always, h])
    | some s' =>
      have := decidableAlways s' as
      decidable_of_iff (P s ∧ Always step P s' as) (by simp [Always, h])

instance decidableGuarded [∀ s a, Decidable (G s a)] : ∀ s as, Decidable (Guarded step G s as)
  | _, [] => isTrue trivial
  | s, a :: as =>
    match h : step s a with
    | none => isTrue (by simp [Guarded, h])
    | some s' =>
      have := decidableGuarded s' as
      decidable_of_iff (G s a ∧ Guarded step G s' as) (by simp [Guarded, h])

@[simp] theorem run_nil (s : σ) : run step s [] = some s := rfl

theorem run_cons {s t : σ} {a : α} {as : List α} :
    run step s (a :: as) = some t ↔ ∃ s', step s a = some s' ∧ run step s' as = some t := by
  simp only [run, Option.bind_eq_some_iff]

theorem run_append {s t : σ} {as bs : List α} :
    run step s (as ++ bs) = some t ↔ ∃ u, run step s as = some u ∧ run step u bs = some t := by
  induction as generalizing s with
  | nil => simp
  | cons a as ih =>
    rw [List.cons_append, run_cons]
    constructor
    · rintro ⟨s', hs, hr⟩
      obtain ⟨u, hu, ht⟩ := ih.mp hr
      exact ⟨u, run_cons.mpr ⟨s', hs, hu⟩, ht⟩
    · rintro ⟨u, hu, ht⟩
      obtain ⟨s', hs, hr⟩ := run_cons.mp hu
      exact ⟨s', hs, ih.mpr ⟨u, hr, ht⟩⟩

theorem run_append_eq (s : σ) (as bs : List α) :
    run step s (as ++ bs) = (run step s as).bind fun u => run step u bs := by
  refine Option.ext fun t => ?_
  rw [run_append, Option.bind_eq_some_iff]

/-- What every enabled action preserves holds at the end of a run. -/
theorem run_invariant (hstep : ∀ s a s', I s → step s a = some s' → I s') {s t : σ} {as : List α}
    (hs : I s) (hr : run step s as = some t) : I t := by
  induction as generalizing s with
  | nil => cases hr; exact hs
  | cons a as ih =>
    obtain ⟨s', hs', hr'⟩ := run_cons.mp hr
    exact ih (hstep s a s' hs hs') hr'

/-- What every guarded action preserves holds at the end of a guarded run. -/
theorem run_invariant_of_guarded (hstep : ∀ s a s', I s → G s a → step s a = some s' → I s')
    {s t : σ} {as : List α} (hs : I s) (hg : Guarded step G s as) (hr : run step s as = some t) :
    I t := by
  induction as generalizing s with
  | nil => cases hr; exact hs
  | cons a as ih =>
    obtain ⟨s', hs', hr'⟩ := run_cons.mp hr
    obtain ⟨hga, hg'⟩ := hg s' hs'
    exact ih (hstep s a s' hs hga hs') hg' hr'

/-- What every guarded action preserves holds in all states of a guarded run. -/
theorem always_of_guarded (hstep : ∀ s a s', I s → G s a → step s a = some s' → I s') {s : σ}
    {as : List α} (hs : I s) (hg : Guarded step G s as) : Always step I s as := by
  induction as generalizing s with
  | nil => exact hs
  | cons a as ih =>
    refine ⟨hs, fun s' hs' => ?_⟩
    obtain ⟨hga, hg'⟩ := hg s' hs'
    exact ih (hstep s a s' hs hga hs') hg'

theorem Always.mono {Q : σ → Prop} (hPQ : ∀ s, P s → Q s) {s : σ} {as : List α}
    (h : Always step P s as) : Always step Q s as := by
  induction as generalizing s with
  | nil => exact hPQ s h
  | cons a as ih => exact ⟨hPQ s h.1, fun s' hs' => ih (h.2 s' hs')⟩

theorem Always.head {s : σ} {as : List α} (h : Always step P s as) : P s := by
  cases as with
  | nil => exact h
  | cons a as => exact h.1

theorem Always.last {s t : σ} {as : List α} (h : Always step P s as)
    (hr : run step s as = some t) : P t := by
  induction as generalizing s with
  | nil => cases hr; exact h
  | cons a as ih =>
    obtain ⟨s', hs', hr'⟩ := run_cons.mp hr
    exact ih (h.2 s' hs') hr'

/-- `P` holds all along exactly the guarded runs, when guarded actions preserve an invariant that
implies `P`, and an action that breaks the guard breaks `P`. -/
theorem always_iff_guarded (hstep : ∀ s a s', I s → G s a → step s a = some s' → I s')
    (hP : ∀ s, I s → P s) (hG : ∀ s a s', I s → step s a = some s' → P s' → G s a) {s : σ}
    {as : List α} (hs : I s) : Always step P s as ↔ Guarded step G s as := by
  refine ⟨fun h => ?_, fun h => (always_of_guarded hstep hs h).mono hP⟩
  induction as generalizing s with
  | nil => trivial
  | cons a as ih =>
    intro s' hs'
    have hga := hG s a s' hs hs' (h.2 s' hs').head
    exact ⟨hga, ih (hstep s a s' hs hga hs') (h.2 s' hs')⟩

/-- A run is guarded and keeps `A`, or it breaks the guard once and keeps `B` from then on. `H` is a
condition on all actions of the run, `I` an invariant. -/
theorem run_dichotomy {A B : σ → Prop} {H : σ → α → Prop}
    (hI : ∀ s a s', I s → step s a = some s' → I s')
    (hA : ∀ s a s', I s → A s → G s a → step s a = some s' → A s')
    (hG : ∀ s a s', I s → A s → ¬ G s a → step s a = some s' → B s')
    (hB : ∀ s a s', I s → B s → H s a → step s a = some s' → B s')
    {s t : σ} {as : List α} (hs : I s) (ha : A s) (hH : Guarded step H s as)
    (hr : run step s as = some t) :
    (Guarded step G s as ∧ A t) ∨ (¬ Guarded step G s as ∧ B t) := by
  have hbroken : ∀ {s : σ} {as : List α}, I s → B s → Guarded step H s as → run step s as = some t →
      B t := by
    intro s as hs hb hH hr
    induction as generalizing s with
    | nil => cases hr; exact hb
    | cons a as ih =>
      obtain ⟨s', hs', hr'⟩ := run_cons.mp hr
      obtain ⟨hHa, hH'⟩ := hH s' hs'
      exact ih (hI s a s' hs hs') (hB s a s' hs hb hHa hs') hH' hr'
  induction as generalizing s with
  | nil => cases hr; exact Or.inl ⟨trivial, ha⟩
  | cons a as ih =>
    obtain ⟨s', hs', hr'⟩ := run_cons.mp hr
    obtain ⟨-, hH'⟩ := hH s' hs'
    have hother : ∀ s'', step s a = some s'' → s'' = s' := fun s'' hs'' =>
      Option.some.inj (hs''.symm.trans hs')
    by_cases hg : G s a
    · rcases ih (hI s a s' hs hs') (hA s a s' hs ha hg hs') hH' hr' with ⟨hgs, hat⟩ | ⟨hgs, hbt⟩
      · exact Or.inl ⟨fun s'' hs'' => hother s'' hs'' ▸ ⟨hg, hgs⟩, hat⟩
      · exact Or.inr ⟨fun hall => hgs (hall s' hs').2, hbt⟩
    · refine Or.inr ⟨fun hall => hg (hall s' hs').1, ?_⟩
      exact hbroken (hI s a s' hs hs') (hG s a s' hs ha hg hs') hH' hr'

/-- A condition every action meets is a guard of every run. -/
theorem guarded_of_forall (h : ∀ s a, G s a) (s : σ) (as : List α) : Guarded step G s as := by
  induction as generalizing s with
  | nil => trivial
  | cons a as ih => exact fun s' _ => ⟨h s a, ih s'⟩

theorem Guarded.append {s u : σ} {as bs : List α} (has : Guarded step G s as) (hr : run step s as = some u)
    (hbs : Guarded step G u bs) : Guarded step G s (as ++ bs) := by
  induction as generalizing s with
  | nil =>
    cases hr
    exact hbs
  | cons a as ih =>
    obtain ⟨s', hs', hr'⟩ := run_cons.mp hr
    intro s'' hs''
    obtain rfl := Option.some.inj (hs'.symm.trans hs'')
    obtain ⟨ha, has'⟩ := has s' hs'
    exact ⟨ha, ih has' hr'⟩

/-! ## Histories -/

/-- A step that was taken. -/
structure Transition (σ α : Type*) where
  before : σ
  action : α
  after : σ

/-- The steps of a run, in their order. -/
def history (step : σ → α → Option σ) : σ → List α → List (Transition σ α)
  | _, [] => []
  | s, a :: as =>
    match step s a with
    | none => []
    | some s' => ⟨s, a, s'⟩ :: history step s' as

/-- What every guarded step preserves of the state and of what happened before holds at the end of a
guarded run. -/
theorem run_history_from {J : σ → List (Transition σ α) → Prop}
    (hstep : ∀ s a s' past, J s past → G s a → step s a = some s' → J s' (past ++ [⟨s, a, s'⟩])) {s t : σ}
    {as : List α} {past : List (Transition σ α)} (hs : J s past) (hg : Guarded step G s as)
    (hr : run step s as = some t) : J t (past ++ history step s as) := by
  induction as generalizing s past with
  | nil =>
    cases hr
    rwa [history, List.append_nil]
  | cons a as ih =>
    obtain ⟨s', hs', hr'⟩ := run_cons.mp hr
    obtain ⟨hga, hg'⟩ := hg s' hs'
    have hrest := ih (hstep s a s' past hs hga hs') hg' hr'
    rw [List.append_assoc, List.singleton_append] at hrest
    rwa [history, hs']

theorem run_history {J : σ → List (Transition σ α) → Prop}
    (hstep : ∀ s a s' past, J s past → G s a → step s a = some s' → J s' (past ++ [⟨s, a, s'⟩])) {s t : σ}
    {as : List α} (hs : J s []) (hg : Guarded step G s as) (hr : run step s as = some t) :
    J t (history step s as) :=
  run_history_from hstep hs hg hr

/-! ## Ranks -/

/-- A run is not longer than the rank it uses up and the cost of its actions. -/
theorem length_le_of_rank {A : α → Prop} {rank : σ → Nat} {cost : α → Nat}
    (hstep : ∀ s a s', A a → step s a = some s' → rank s' + 1 ≤ rank s + cost a) {s t : σ} {as : List α}
    (has : ∀ a ∈ as, A a) (hr : run step s as = some t) : as.length + rank t ≤ rank s + (as.map cost).sum := by
  induction as generalizing s with
  | nil =>
    cases hr
    simp
  | cons a as ih =>
    obtain ⟨s', hs', hr'⟩ := run_cons.mp hr
    rw [List.forall_mem_cons] at has
    have hrest := ih has.2 hr'
    have hfirst := hstep s a s' has.1 hs'
    rw [List.length_cons, List.map_cons, List.sum_cons]
    omega

/-- Where guarded actions always lead to a lower rank, they lead to the end. -/
theorem exists_run_of_rank {rank : σ → Nat}
    (hstep : ∀ s, ¬ P s → ∃ as t, Guarded step G s as ∧ run step s as = some t ∧ rank t < rank s) (s : σ) :
    ∃ as t, Guarded step G s as ∧ run step s as = some t ∧ P t := by
  induction hn : rank s using Nat.strongRecOn generalizing s with
  | ind n ih =>
    by_cases hP : P s
    · exact ⟨[], s, trivial, rfl, hP⟩
    · obtain ⟨as, u, has, hu, hlt⟩ := hstep s hP
      obtain ⟨bs, t, hbs, ht, hPt⟩ := ih (rank u) (hn ▸ hlt) u rfl
      exact ⟨as ++ bs, t, has.append hu hbs, run_append.mpr ⟨u, hu, ht⟩, hPt⟩

/-! ## Projections -/

/-- A part of the state that only some actions touch, each as a function of that part: after a run it
is what those actions alone make of it. -/
theorem foldl_project {ν : Type*} {f : σ → α → σ} {g : ν → α → ν} (view : σ → ν) (mine : α → Bool)
    (hI : ∀ s a, I s → I (f s a)) (hmine : ∀ s a, I s → mine a = true → view (f s a) = g (view s) a)
    (hother : ∀ s a, I s → mine a = false → view (f s a) = view s) {s : σ} (hs : I s) (as : List α) :
    view (as.foldl f s) = (as.filter mine).foldl g (view s) := by
  induction as generalizing s with
  | nil => rfl
  | cons a as ih =>
    rw [List.foldl_cons, ih (hI s a hs)]
    cases hm : mine a with
    | true => rw [List.filter_cons_of_pos hm, List.foldl_cons, hmine s a hs hm]
    | false => rw [List.filter_cons_of_neg (by simp [hm]), hother s a hs hm]

end Runs
