import Mathlib.Data.List.Basic
import Mathlib.Data.List.Perm.Basic
/-!
# Systems made of parts

A list of parts, of which a step changes, takes away or adds one. What the
parts hold together, up to the order, is what the part that moves holds and
what the others do; what holds of every part is proved for the part that moves.
-/

namespace FlashSale.Lib.Parts

section
variable {α β : Type*} {l : List α} {i : Nat} {x : α}

theorem split_at (h : l[i]? = some x) :
    ∃ before after, l = before ++ x :: after ∧ l.eraseIdx i = before ++ after ∧
      ∀ y, l.set i y = before ++ y :: after := by
  induction l generalizing i with
  | nil => cases h
  | cons a l ih =>
    cases i with
    | zero =>
      obtain rfl := Option.some.inj h
      exact ⟨[], l, rfl, rfl, fun _ => rfl⟩
    | succ i =>
      obtain ⟨before, after, rfl, herase, hset⟩ := ih h
      refine ⟨a :: before, after, rfl, ?_, fun y => ?_⟩
      · rw [List.eraseIdx_cons_succ, herase]
        rfl
      · rw [List.set_cons_succ, hset]
        rfl

/-- What part `i` holds, and what the others do. -/
theorem flatMap_perm (f : α → List β) (h : l[i]? = some x) : (l.flatMap f).Perm (f x ++ (l.eraseIdx i).flatMap f) := by
  obtain ⟨before, after, hl, herase, -⟩ := split_at h
  rw [herase, hl, List.flatMap_append, List.flatMap_append, List.flatMap_cons]
  exact List.perm_append_comm_assoc _ _ _

theorem flatMap_set_perm (f : α → List β) (h : l[i]? = some x) (y : α) :
    ((l.set i y).flatMap f).Perm (f y ++ (l.eraseIdx i).flatMap f) := by
  obtain ⟨before, after, -, herase, hset⟩ := split_at h
  rw [herase, hset, List.flatMap_append, List.flatMap_append, List.flatMap_cons]
  exact List.perm_append_comm_assoc _ _ _

/-- The first part that is asked for, and the others. -/
theorem find?_perm {p : α → Bool} (h : l.find? p = some x) : l.Perm (x :: l.eraseP p) := by
  induction l with
  | nil => cases h
  | cons a l ih =>
    rw [List.find?_cons] at h
    split at h
    · rename_i ha
      obtain rfl := Option.some.inj h
      rw [List.eraseP_cons_of_pos ha]
    · rename_i ha
      rw [List.eraseP_cons_of_neg (by simp [ha])]
      exact ((ih h).cons a).trans (.swap x a _)

theorem forall_set {P : α → Prop} (h : ∀ z ∈ l, P z) {y : α} (hy : P y) : ∀ z ∈ l.set i y, P z := by
  intro z hz
  rcases List.mem_or_eq_of_mem_set hz with hz | rfl
  · exact h z hz
  · exact hy

theorem forall_concat {P : α → Prop} (h : ∀ z ∈ l, P z) {y : α} (hy : P y) : ∀ z ∈ l ++ [y], P z := by
  intro z hz
  rcases List.mem_append.1 hz with hz | hz
  · exact h z hz
  · exact List.mem_singleton.1 hz ▸ hy

end

/-! ## Values made out of parts, if each can be made -/

section
variable {α β : Type*} {f : α → Option β} {l : List α} {l' : List β}

theorem mapM_mem (h : l.mapM f = some l') {x : α} (hx : x ∈ l) : ∃ y ∈ l', f x = some y := by
  induction l generalizing l' with
  | nil => cases hx
  | cons a l ih =>
    rw [List.mapM_cons] at h
    obtain ⟨b, hb, h⟩ := Option.bind_eq_some_iff.1 h
    obtain ⟨bs, hbs, h⟩ := Option.bind_eq_some_iff.1 h
    obtain rfl := Option.some.inj h
    rcases List.mem_cons.1 hx with rfl | hx
    · exact ⟨b, List.mem_cons_self, hb⟩
    · obtain ⟨y, hy, hf⟩ := ih hbs hx
      exact ⟨y, List.mem_cons_of_mem b hy, hf⟩

theorem mem_mapM (h : l.mapM f = some l') {y : β} (hy : y ∈ l') : ∃ x ∈ l, f x = some y := by
  induction l generalizing l' with
  | nil =>
    obtain rfl := Option.some.inj h
    cases hy
  | cons a l ih =>
    rw [List.mapM_cons] at h
    obtain ⟨b, hb, h⟩ := Option.bind_eq_some_iff.1 h
    obtain ⟨bs, hbs, h⟩ := Option.bind_eq_some_iff.1 h
    obtain rfl := Option.some.inj h
    rcases List.mem_cons.1 hy with rfl | hy
    · exact ⟨a, List.mem_cons_self, hb⟩
    · obtain ⟨x, hx, hf⟩ := ih hbs hy
      exact ⟨x, List.mem_cons_of_mem a hx, hf⟩

end

end FlashSale.Lib.Parts
