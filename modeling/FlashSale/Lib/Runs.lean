import Mathlib.Logic.Basic
/-!
# Runs

A system is a partial step function: `step s a` is what action `a` makes of
`s`, and `none` where `a` cannot be taken. `Steps` are the runs whose every
step `ok` allows. A service that answers is a total function of its state
and a request; `answers` are its answers to a list of requests.
-/

namespace FlashSale.Lib.Runs

section Steps
variable {σ α : Type*}

/-- `t` is reached from `s` by steps that `ok` allows. -/
inductive Steps (step : σ → α → Option σ) (ok : σ → α → Prop) (s : σ) : σ → Prop
  | refl : Steps step ok s s
  | tail {t u} (a : α) : Steps step ok s t → ok t a → step t a = some u → Steps step ok s u

variable {step : σ → α → Option σ} {ok : σ → α → Prop} {s t : σ}

/-- What every allowed step keeps holds after every run. -/
theorem Steps.inv {I : σ → Prop} (h : Steps step ok s t) (h0 : I s)
    (hI : ∀ s a t, I s → ok s a → step s a = some t → I t) : I t := by
  induction h with
  | refl => exact h0
  | tail a _ hok hstep ih => exact hI _ a _ ih hok hstep

theorem Steps.imp {ok' : σ → α → Prop} (h : Steps step ok s t) (himp : ∀ s a, ok s a → ok' s a) :
    Steps step ok' s t := by
  induction h with
  | refl => exact .refl
  | tail a _ hok hstep ih => exact ih.tail a (himp _ _ hok) hstep

theorem Steps.trans {u : σ} (h : Steps step ok s t) (h' : Steps step ok t u) : Steps step ok s u := by
  induction h' with
  | refl => exact h
  | tail a _ hok hstep ih => exact ih.tail a hok hstep

theorem Steps.head {a : α} {u : σ} (hok : ok s a) (hstep : step s a = some u) (h : Steps step ok u t) :
    Steps step ok s t :=
  Steps.trans (.tail a .refl hok hstep) h

/-- Forward simulation: when every step from a state in `I` stays in `I` and is,
through `abs`, a run of another system, so is every run. -/
theorem Steps.simulates {τ γ : Type*} {step' : τ → γ → Option τ} {ok' : τ → γ → Prop} {abs : σ → τ} {I : σ → Prop}
    (h : Steps step ok s t) (h0 : I s)
    (hI : ∀ s a t, I s → ok s a → step s a = some t → I t ∧ Steps step' ok' (abs s) (abs t)) :
    I t ∧ Steps step' ok' (abs s) (abs t) := by
  induction h with
  | refl => exact ⟨h0, .refl⟩
  | tail a _ hok hstep ih =>
    obtain ⟨hinv, hrun⟩ := ih
    obtain ⟨hnext, hmore⟩ := hI _ a _ hinv hok hstep
    exact ⟨hnext, hrun.trans hmore⟩

/-- The state after `as`, if each can be taken and is allowed where it is. -/
def run (step : σ → α → Option σ) (ok : σ → α → Prop) [∀ s a, Decidable (ok s a)] (s : σ) : List α → Option σ
  | [] => some s
  | a :: as => if ok s a then (step s a).bind fun t => run step ok t as else none

theorem Steps.of_run [∀ s a, Decidable (ok s a)] {as : List α} (h : run step ok s as = some t) :
    Steps step ok s t := by
  induction as generalizing s with
  | nil =>
    obtain rfl := Option.some.inj h
    exact .refl
  | cons a as ih =>
    simp only [run] at h
    split at h
    · rename_i hok
      obtain ⟨u, hu, hrest⟩ := Option.bind_eq_some_iff.1 h
      exact .head hok hu (ih hrest)
    · cases h

/-- A run can be found by taking it. -/
theorem exists_run [∀ s a, Decidable (ok s a)] {p : σ → Prop} [DecidablePred p] {as : List α}
    (h : (run step ok s as).any (p ·) = true) : ∃ t, run step ok s as = some t ∧ p t := by
  cases ht : run step ok s as with
  | none => simp [ht] at h
  | some t => exact ⟨t, rfl, by simpa [ht] using h⟩

theorem Steps.exists_of_run [∀ s a, Decidable (ok s a)] {p : σ → Prop} [DecidablePred p] (as : List α)
    (h : (run step ok s as).any (p ·) = true) : ∃ t, Steps step ok s t ∧ p t := by
  obtain ⟨t, ht, hp⟩ := exists_run h
  exact ⟨t, .of_run ht, hp⟩

end Steps

section Answers
variable {σ τ α β γ δ : Type*}

/-- The answers to requests made one after the other, and the state after. -/
def answers (f : σ → α → β × σ) (s : σ) : List α → List β × σ
  | [] => ([], s)
  | a :: as =>
    let (b, t) := f s a
    let (bs, u) := answers f t as
    (b :: bs, u)

theorem answers_append (f : σ → α → β × σ) (s : σ) (as bs : List α) :
    answers f s (as ++ bs) = ((answers f s as).1 ++ (answers f (answers f s as).2 bs).1,
      (answers f (answers f s as).2 bs).2) := by
  induction as generalizing s with
  | nil => rfl
  | cons a as ih => simp [answers, ih]

theorem answers_length (f : σ → α → β × σ) (s : σ) (as : List α) : (answers f s as).1.length = as.length := by
  induction as generalizing s with
  | nil => rfl
  | cons a as ih => simp [answers, ih]

/-- The answer to a request depends on the requests before it only. -/
theorem answers_get (f : σ → α → β × σ) (s : σ) (before : List α) (a : α) (after : List α) :
    (answers f s (before ++ a :: after)).1[before.length]? = some (f (answers f s before).2 a).1 := by
  rw [answers_append, List.getElem?_append_right (Nat.le_of_eq (answers_length f s before))]
  simp [answers, answers_length]

/-- Two services whose answers agree, as `p` and `q` read them, in states that
`R` relates, and that stay related, agree on every list of requests. -/
theorem answers_agree {f : σ → α → β × σ} {g : τ → α → γ × τ} {R : σ → τ → Prop} {p : β → δ} {q : γ → δ}
    (hstep : ∀ s t a, R s t → p (f s a).1 = q (g t a).1 ∧ R (f s a).2 (g t a).2) {s : σ} {t : τ} (h : R s t)
    (as : List α) :
    (answers f s as).1.map p = (answers g t as).1.map q ∧ R (answers f s as).2 (answers g t as).2 := by
  induction as generalizing s t with
  | nil => exact ⟨rfl, h⟩
  | cons a as ih =>
    obtain ⟨hsame, hnext⟩ := hstep s t a h
    obtain ⟨hrest, hend⟩ := ih hnext
    exact ⟨congrArg₂ List.cons hsame hrest, hend⟩

end Answers

end FlashSale.Lib.Runs
