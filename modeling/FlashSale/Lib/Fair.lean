import Mathlib.Tactic.ByContra
import FlashSale.Lib.Runs
/-!
# Fair traces

A trace is an endless run that may idle at any moment. It is fair to a class
of actions when one of them is taken again and again unless at some moment
none can be. `Trace.eventually` is the rule for what must happen: in each state
some class is helpful, a step that does not help leaves it so, and one that
does lowers a rank.
-/

namespace FlashSale.Lib.Fair
open Lib.Runs

section
variable {σ α κ : Type*}

structure Trace (step : σ → α → Option σ) (s₀ : σ) where
  state : Nat → σ
  action : Nat → Option α
  start : state 0 = s₀
  next : ∀ n, (∃ a, action n = some a ∧ step (state n) a = some (state (n + 1))) ∨
    (action n = none ∧ state (n + 1) = state n)

/-- One of the actions `A` can be taken in `s`. -/
def Enabled (step : σ → α → Option σ) (A : α → Prop) (s : σ) : Prop := ∃ a, A a ∧ (step s a).isSome

variable {step : σ → α → Option σ} {s₀ : σ}

/-- If from some moment on one of `A` can always be taken, one is. -/
def Trace.FairTo (t : Trace step s₀) (A : α → Prop) : Prop :=
  ∀ n, (∀ m, n ≤ m → Enabled step A (t.state m)) → ∃ m, n ≤ m ∧ ∃ a, t.action m = some a ∧ A a

/-- The states of a trace whose actions `ok` allows are reached by such steps. -/
theorem Trace.steps_of (t : Trace step s₀) {ok : σ → α → Prop}
    (hok : ∀ n a, t.action n = some a → ok (t.state n) a) (n : Nat) : Steps step ok s₀ (t.state n) := by
  induction n with
  | zero =>
    rw [t.start]
    exact .refl
  | succ n ih =>
    rcases t.next n with ⟨a, ha, hstep⟩ | ⟨-, hidle⟩
    · exact ih.tail a (hok n a ha) hstep
    · rw [hidle]
      exact ih

theorem Trace.steps (t : Trace step s₀) (n : Nat) : Steps step (fun _ _ => True) s₀ (t.state n) :=
  t.steps_of (fun _ _ _ => trivial) n

/-- What every step from some moment on keeps holds from then on. -/
theorem Trace.keeps (t : Trace step s₀) {I : σ → Prop} {n m : Nat}
    (hI : ∀ k a, n ≤ k → I (t.state k) → step (t.state k) a = some (t.state (k + 1)) → I (t.state (k + 1)))
    (hnm : n ≤ m) (h : I (t.state n)) : I (t.state m) := by
  induction hnm with
  | refl => exact h
  | @step m hm ih =>
    rcases t.next m with ⟨a, -, hstep⟩ | ⟨-, hidle⟩
    · exact hI m a hm ih hstep
    · rw [hidle]
      exact ih

/-- If, short of the goal, the class `cls` names can always move, a step of it
lowers the rank, and no other step raises the rank or changes the class without
lowering it, the goal is reached. -/
theorem Trace.eventually (t : Trace step s₀) {A : κ → α → Prop} (hfair : ∀ c, t.FairTo (A c)) {I G : σ → Prop}
    (rank : σ → Nat) (cls : σ → κ)
    (henabled : ∀ s, I s → ¬ G s → Enabled step (A (cls s)) s)
    (hstep : ∀ s a s', I s → ¬ G s → step s a = some s' →
      G s' ∨ rank s' < rank s ∨ (rank s' = rank s ∧ cls s' = cls s ∧ ¬ A (cls s) a))
    {n : Nat} (hI : ∀ m, n ≤ m → I (t.state m)) : ∃ m, n ≤ m ∧ G (t.state m) := by
  induction hr : rank (t.state n) using Nat.strongRecOn generalizing n with
  | ind r ih =>
    by_contra hno
    have hnG : ∀ m, n ≤ m → ¬ G (t.state m) := fun m hm hG => hno ⟨m, hm, hG⟩
    -- The rank never gets below what it is now: from there the goal would be reached.
    have hlow : ∀ m, n ≤ m → ¬ rank (t.state m) < r := by
      intro m hm hlt
      obtain ⟨m', hm', hG⟩ := ih _ hlt (fun k hk => hI k (Nat.le_trans hm hk)) rfl
      exact hnG m' (Nat.le_trans hm hm') hG
    -- So no step helps, and the same class stays the helpful one.
    have hsame : ∀ m, n ≤ m → rank (t.state m) = r ∧ cls (t.state m) = cls (t.state n) := by
      intro m hm
      induction hm with
      | refl => exact ⟨hr, rfl⟩
      | @step m hm ihm =>
        rcases t.next m with ⟨a, -, ha⟩ | ⟨-, hidle⟩
        · rcases hstep _ a _ (hI m hm) (hnG m hm) ha with hG | hlt | ⟨hrank, hcls, -⟩
          · exact absurd hG (hnG _ (Nat.le_succ_of_le hm))
          · exact absurd (ihm.1 ▸ hlt) (hlow _ (Nat.le_succ_of_le hm))
          · exact ⟨hrank.trans ihm.1, hcls.trans ihm.2⟩
        · rw [hidle]
          exact ihm
    obtain ⟨m, hm, a, ha, hA⟩ := hfair (cls (t.state n)) n fun m hm => by
      rw [← (hsame m hm).2]
      exact henabled _ (hI m hm) (hnG m hm)
    -- Fairness takes the helpful class, which is a step that helps.
    rcases t.next m with ⟨b, hb, hstep'⟩ | ⟨hnone, -⟩
    · obtain rfl := Option.some.inj (ha.symm.trans hb)
      rcases hstep _ a _ (hI m hm) (hnG m hm) hstep' with hG | hlt | ⟨-, -, hnot⟩
      · exact hnG _ (Nat.le_succ_of_le hm) hG
      · rw [(hsame m hm).1] at hlt
        exact hlow _ (Nat.le_succ_of_le hm) hlt
      · rw [(hsame m hm).2] at hnot
        exact hnot hA
    · rw [ha] at hnone
      cases hnone

/-- The rule with one class, every step of which reaches the goal. -/
theorem Trace.eventually_of (t : Trace step s₀) {A : α → Prop} (hfair : t.FairTo A) {I G : σ → Prop}
    (henabled : ∀ s, I s → ¬ G s → Enabled step A s)
    (hstep : ∀ s a s', I s → ¬ G s → A a → step s a = some s' → G s')
    {n : Nat} (hI : ∀ m, n ≤ m → I (t.state m)) : ∃ m, n ≤ m ∧ G (t.state m) := by
  refine t.eventually (fun _ : Unit => hfair) (fun _ => 0) (fun _ => ()) henabled ?_ hI
  intro s a s' hs hG ha
  by_cases hA : A a
  · exact .inl (hstep s a s' hs hG hA ha)
  · exact .inr (.inr ⟨rfl, rfl, hA⟩)

/-! ## Runs that come to rest -/

/-- Where `as` is after `n` of its actions, and the next one. -/
def play (step : σ → α → Option σ) (s : σ) : List α → Nat → σ × Option α
  | [], _ => (s, none)
  | a :: _, 0 => (s, some a)
  | a :: as, n + 1 => play step ((step s a).getD s) as n

theorem play_next {s t : σ} {as : List α} (h : run step (fun _ _ => True) s as = some t) (n : Nat) :
    (∃ a, (play step s as n).2 = some a ∧
      step (play step s as n).1 a = some (play step s as (n + 1)).1) ∨
    ((play step s as n).2 = none ∧ (play step s as (n + 1)).1 = (play step s as n).1) := by
  induction as generalizing s n with
  | nil => exact .inr ⟨rfl, rfl⟩
  | cons a as ih =>
    rw [run, if_pos trivial] at h
    obtain ⟨u, hu, hrest⟩ := Option.bind_eq_some_iff.1 h
    cases n with
    | zero =>
      refine .inl ⟨a, rfl, ?_⟩
      cases as with
      | nil => simp [play, hu]
      | cons b bs => simp [play, hu]
    | succ n =>
      have hplay : ∀ m, play step s (a :: as) (m + 1) = play step u as m := by
        intro m
        simp [play, hu]
      rw [hplay, hplay]
      exact ih hrest n

theorem play_rest {s t : σ} {as : List α} (h : run step (fun _ _ => True) s as = some t) {n : Nat}
    (hn : as.length ≤ n) : play step s as n = (t, none) := by
  induction as generalizing s n with
  | nil =>
    obtain rfl := Option.some.inj h
    rfl
  | cons a as ih =>
    rw [run, if_pos trivial] at h
    obtain ⟨u, hu, hrest⟩ := Option.bind_eq_some_iff.1 h
    obtain ⟨m, rfl⟩ : ∃ m, n = m + 1 := ⟨n - 1, by simp only [List.length_cons] at hn; omega⟩
    simp only [play, hu, Option.getD_some]
    exact ih hrest (Nat.le_of_succ_le_succ hn)

/-- A run that `ok` allows takes only actions that it allows. -/
theorem play_ok {ok : σ → α → Prop} [∀ s a, Decidable (ok s a)] {s t : σ} {as : List α} (h : run step ok s as = some t)
    {n : Nat} {a : α} (ha : (play step s as n).2 = some a) : ok (play step s as n).1 a := by
  induction as generalizing s n with
  | nil => cases ha
  | cons b as ih =>
    rw [run] at h
    split at h
    · rename_i hok
      obtain ⟨u, hu, hrest⟩ := Option.bind_eq_some_iff.1 h
      cases n with
      | zero =>
        obtain rfl := Option.some.inj ha
        exact hok
      | succ n =>
        simp only [play, hu, Option.getD_some] at ha ⊢
        exact ih hrest ha
    · cases h

/-- A run, and then nothing any more. -/
def Trace.ofRun {t : σ} (as : List α) (h : run step (fun _ _ => True) s₀ as = some t) : Trace step s₀ where
  state n := (play step s₀ as n).1
  action n := (play step s₀ as n).2
  start := by cases as <;> rfl
  next := play_next h

/-- It is fair to what cannot be taken at its end. -/
theorem Trace.ofRun_fair {t : σ} {as : List α} (h : run step (fun _ _ => True) s₀ as = some t) {A : α → Prop}
    (hrest : ¬ Enabled step A t) : (Trace.ofRun as h).FairTo A := by
  intro n hn
  have hlast := hn (max n as.length) (Nat.le_max_left _ _)
  have hstate : (Trace.ofRun as h).state (max n as.length) = t :=
    congrArg Prod.fst (play_rest h (Nat.le_max_right _ _))
  rw [hstate] at hlast
  exact absurd hlast hrest

/-- What holds all through the run and at its end always holds. -/
theorem Trace.ofRun_forall {t : σ} {as : List α} (h : run step (fun _ _ => True) s₀ as = some t) {p : σ → Prop}
    (hp : ∀ n ≤ as.length, p (play step s₀ as n).1) (n : Nat) : p ((Trace.ofRun as h).state n) := by
  rcases Nat.le_total n as.length with hn | hn
  · exact hp n hn
  · have hend := hp as.length (Nat.le_refl _)
    rw [play_rest h (Nat.le_refl _)] at hend
    have hstate : (Trace.ofRun as h).state n = t := congrArg Prod.fst (play_rest h hn)
    rw [hstate]
    exact hend

theorem Trace.ofRun_end {t : σ} {as : List α} (h : run step (fun _ _ => True) s₀ as = some t) :
    (Trace.ofRun as h).state as.length = t :=
  congrArg Prod.fst (play_rest h (Nat.le_refl _))

end

end FlashSale.Lib.Fair
