import Mathlib.Data.List.Induction
import Mathlib.Data.List.Nodup
import Mathlib.Tactic.Tauto
import Mathlib.Data.List.Count
/-!
# Rows with unique keys

`newRows` is what an insert that skips conflicts adds to a table whose rows
are told apart by `key`: each row whose key neither the table nor an earlier
row of the same insert has. `tally` counts a list the way a JavaScript `Map`
of counters does, in insertion order.
-/

namespace FlashSale.Lib.Keyed

section Rows
variable {α κ : Type*} [DecidableEq κ] (key : α → κ)

/-- Adds `x` after `new`, unless `old` or `new` already has its key. -/
def addNew (old new : List α) (x : α) : List α :=
  if key x ∈ (old ++ new).map key then new else new ++ [x]

/-- The rows of `xs` that an insert into `old` adds. -/
def newRows (old xs : List α) : List α := xs.foldl (addNew key old) []

theorem addNew_congr {old old' new : List α} {x : α}
    (h : key x ∈ old.map key ↔ key x ∈ old'.map key) : addNew key old new x = addNew key old' new x := by
  unfold addNew
  rw [List.map_append, List.map_append]
  simp only [List.mem_append, h]

@[simp] theorem newRows_nil (old : List α) : newRows key old [] = [] := rfl

theorem newRows_concat (old xs : List α) (x : α) :
    newRows key old (xs ++ [x]) = addNew key old (newRows key old xs) x := by
  simp [newRows, List.foldl_append]

theorem newRows_subset (old xs : List α) : newRows key old xs ⊆ xs := by
  induction xs using List.reverseRecOn with
  | nil => simp
  | append_singleton xs x ih =>
    rw [newRows_concat, addNew]
    split
    · exact fun r hr => List.mem_append_left _ (ih hr)
    · exact List.append_subset.2 ⟨fun r hr => List.mem_append_left _ (ih hr), by simp⟩

/-- The added rows have new keys, each once. -/
theorem newRows_fresh (old xs : List α) :
    ((newRows key old xs).map key).Nodup ∧ ∀ r ∈ newRows key old xs, key r ∉ old.map key := by
  induction xs using List.reverseRecOn with
  | nil => simp
  | append_singleton xs x ih =>
    rw [newRows_concat, addNew]
    split
    · exact ih
    · rename_i hx
      rw [List.map_append, List.mem_append, not_or] at hx
      refine ⟨?_, ?_⟩
      · rw [List.map_append, List.nodup_append]
        refine ⟨ih.1, by simp, ?_⟩
        rintro k hk _ hk' rfl
        simp only [List.map_cons, List.map_nil, List.mem_singleton] at hk'
        exact hx.2 (hk' ▸ hk)
      · intro r hr
        rcases List.mem_append.1 hr with hr | hr
        · exact ih.2 r hr
        · rw [List.mem_singleton.1 hr]
          exact hx.1

/-- A key finds the one row that has it. -/
theorem filter_key_eq {rows : List α} (h : (rows.map key).Nodup) {x : α} (hx : x ∈ rows) :
    rows.filter (fun y => key y = key x) = [x] := by
  induction rows with
  | nil => cases hx
  | cons y rows ih =>
    obtain ⟨hnot, hrows⟩ := List.nodup_cons.1 h
    rcases List.mem_cons.1 hx with rfl | hx
    · rw [List.filter_cons_of_pos (by simp), List.filter_eq_nil_iff.2]
      intro z hz hkey
      exact hnot (of_decide_eq_true hkey ▸ List.mem_map_of_mem hz)
    · have hne : key y ≠ key x := fun hkey => hnot (hkey ▸ List.mem_map_of_mem hx)
      rw [List.filter_cons_of_neg (by simpa using hne)]
      exact ih hrows hx

/-- Every row of the insert ends up in the table under its key. -/
theorem key_mem_newRows (old xs : List α) {x : α} (hx : x ∈ xs) :
    key x ∈ old.map key ∨ key x ∈ (newRows key old xs).map key := by
  rw [← List.mem_append, ← List.map_append]
  induction xs using List.reverseRecOn with
  | nil => simp at hx
  | append_singleton xs y ih =>
    rw [newRows_concat, addNew]
    rcases List.mem_append.1 hx with hx | hx
    · split
      · exact ih hx
      · have := ih hx
        simp only [List.map_append, List.mem_append] at this ⊢
        tauto
    · rw [List.mem_singleton.1 hx]
      split
      · assumption
      · simp

/-- Rows that other inserts add, under keys this insert did not add, do not
change what this insert adds. -/
theorem newRows_stable (old extra xs : List α)
    (h : ∀ r ∈ newRows key old xs, key r ∉ extra.map key) :
    newRows key (old ++ extra) xs = newRows key old xs := by
  have hx : ∀ x ∈ xs, key x ∈ (old ++ extra).map key ↔ key x ∈ old.map key := by
    intro x hx
    rw [List.map_append, List.mem_append, or_iff_left_iff_imp]
    intro he
    rcases key_mem_newRows key old xs hx with ho | hn
    · exact ho
    · obtain ⟨r, hr, hk⟩ := List.mem_map.1 hn
      exact absurd (hk ▸ he) (h r hr)
  clear h
  induction xs using List.reverseRecOn with
  | nil => rfl
  | append_singleton xs y ih =>
    rw [newRows_concat, newRows_concat, ih fun x hm => hx x (List.mem_append_left _ hm)]
    exact addNew_congr key (hx y (by simp))

end Rows

section Tally
variable {ι : Type*} [DecidableEq ι]

/-- `map.set(i, (map.get(i) ?? 0) + 1)`. -/
def bump (i : ι) : List (ι × Nat) → List (ι × Nat)
  | [] => [(i, 1)]
  | (j, n) :: rest => if j = i then (j, n + 1) :: rest else (j, n) :: bump i rest

/-- The count of each element of `l`, in the order they first occur. -/
def tally (l : List ι) : List (ι × Nat) := l.foldl (fun m i => bump i m) []

theorem tally_concat (l : List ι) (i : ι) : tally (l ++ [i]) = bump i (tally l) := by
  simp [tally, List.foldl_append]

theorem bump_keys (i : ι) (m : List (ι × Nat)) :
    (bump i m).map Prod.fst = if i ∈ m.map Prod.fst then m.map Prod.fst else m.map Prod.fst ++ [i] := by
  induction m with
  | nil => simp [bump]
  | cons p rest ih =>
    obtain ⟨j, n⟩ := p
    by_cases hj : j = i
    · simp [bump, hj]
    · simp only [bump, hj, if_false, List.map_cons, ih, List.mem_cons, Ne.symm hj, false_or]
      split <;> rfl

theorem tally_keys_nodup (l : List ι) : ((tally l).map Prod.fst).Nodup := by
  induction l using List.reverseRecOn with
  | nil => simp [tally]
  | append_singleton l i ih =>
    rw [tally_concat, bump_keys]
    split
    · exact ih
    · rename_i h
      refine List.nodup_append.2 ⟨ih, by simp, ?_⟩
      rintro a ha _ hb rfl
      exact h (List.mem_singleton.1 hb ▸ ha)

theorem mem_bump {i j : ι} {n : Nat} {m : List (ι × Nat)} (hm : (m.map Prod.fst).Nodup) :
    (j, n) ∈ bump i m ↔
      if j = i then (i ∉ m.map Prod.fst ∧ n = 1) ∨ ∃ k, (i, k) ∈ m ∧ n = k + 1 else (j, n) ∈ m := by
  induction m with
  | nil => by_cases h : j = i <;> simp [bump, h]
  | cons p rest ih =>
    obtain ⟨a, k⟩ := p
    simp only [List.map_cons, List.nodup_cons] at hm
    have hrest : ∀ k', (a, k') ∉ rest := fun k' h => hm.1 (List.mem_map_of_mem (f := Prod.fst) h)
    -- The head is the key to bump, or the rest has it.
    by_cases ha : a = i
    · subst ha
      by_cases hj : j = a
      · subst hj
        simp only [bump, if_true, List.mem_cons, Prod.mk.injEq, true_and, List.map_cons, true_or, not_true,
          false_and, false_or]
        constructor
        · rintro (h | h)
          · exact ⟨k, .inl rfl, h⟩
          · exact absurd h (hrest n)
        · rintro ⟨k', hk | hk, hn⟩
          · exact .inl (hk ▸ hn)
          · exact absurd hk (hrest k')
      · simp [bump, hj]
    · simp only [bump, ha, if_false, List.mem_cons, ih hm.2, Prod.mk.injEq, List.map_cons, Ne.symm ha, false_or]
      by_cases hj : j = i
      · subst hj
        simp [Ne.symm ha]
      · simp [hj]

/-- `tally` counts each element that occurs, and no other. -/
theorem mem_tally {l : List ι} {i : ι} {n : Nat} : (i, n) ∈ tally l ↔ n = l.count i ∧ 0 < n := by
  induction l using List.reverseRecOn generalizing i n with
  | nil => simp [tally]
  | append_singleton l j ih =>
    have hkey : j ∈ (tally l).map Prod.fst ↔ 0 < l.count j := by
      rw [List.mem_map]
      constructor
      · rintro ⟨⟨_, k⟩, h, rfl⟩
        obtain ⟨rfl, hk⟩ := ih.1 h
        exact hk
      · exact fun h => ⟨(j, l.count j), ih.2 ⟨rfl, h⟩, rfl⟩
    rw [tally_concat, mem_bump (tally_keys_nodup l), List.count_append]
    by_cases hi : i = j
    · subst hi
      simp only [if_true, hkey, ih, List.count_cons_self, List.count_nil]
      constructor
      · rintro (⟨h, rfl⟩ | ⟨k, ⟨rfl, hk⟩, rfl⟩) <;> omega
      · rintro ⟨rfl, -⟩
        rcases Nat.eq_zero_or_pos (l.count i) with h | h
        · exact .inl ⟨by omega, by omega⟩
        · exact .inr ⟨_, ⟨rfl, h⟩, by omega⟩
    · simp [hi, ih, Ne.symm hi]

end Tally

end FlashSale.Lib.Keyed
