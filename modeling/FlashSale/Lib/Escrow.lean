import Mathlib.Data.Finset.Card
import Mathlib.Tactic.Linarith
/-!
# Units promised before they are settled

A gate hands out units of a stock that a slower store keeps. `Balanced` is the
account of a gate that alone decides: what it may still hand out and what it
has promised but the store has not settled add up to what the store has left.
`Covered` is the weaker fact that is left when units are also taken from the
store directly: the open promises fit in what the store has left.
-/

namespace FlashSale.Lib.Escrow

variable {β : Type*} [DecidableEq β]

/-- `free` units and the buyers `held` on the gate's side, `left` units and the
buyers `settled` on the store's side. -/
structure Account (β : Type*) where
  free : ℤ
  held : Finset β
  left : ℤ
  settled : Finset β

/-- The gate promises a unit to `b`. -/
def Account.reserve (a : Account β) (b : β) : Account β := { a with free := a.free - 1, held := insert b a.held }

/-- The store settles one unit for each buyer in `t`. -/
def Account.settle (a : Account β) (t : Finset β) : Account β :=
  { a with left := a.left - t.card, settled := a.settled ∪ t }

structure Balanced (a : Account β) : Prop where
  recorded : a.settled ⊆ a.held
  free_nonneg : 0 ≤ a.free
  balance : a.free + ((a.held \ a.settled).card : ℤ) = a.left

/-- A gate opened from the store's own record. -/
theorem balanced_open {n : ℤ} (hn : 0 ≤ n) (s : Finset β) : Balanced ⟨n, s, n, s⟩ where
  recorded := subset_rfl
  free_nonneg := hn
  balance := by simp

theorem Balanced.reserve {a : Account β} (h : Balanced a) {b : β} (hb : b ∉ a.held) (hf : 0 < a.free) :
    Balanced (a.reserve b) where
  recorded := h.recorded.trans (Finset.subset_insert _ _)
  free_nonneg := by simp only [Account.reserve]; omega
  balance := by
    have hs : b ∉ a.settled := fun hb' => hb (h.recorded hb')
    have hcard : ((insert b a.held) \ a.settled).card = (a.held \ a.settled).card + 1 := by
      rw [Finset.insert_sdiff_of_notMem _ hs, Finset.card_insert_of_notMem (by simp [hb])]
    have := h.balance
    simp only [Account.reserve, hcard]
    push_cast
    omega

/-- Settling buyers moves them out of the open promises, one for one. -/
theorem card_sdiff_settle {s t p : Finset β} (ht : t ⊆ p) (hd : Disjoint t s) :
    (p \ (s ∪ t)).card + t.card = (p \ s).card := by
  have hsub : t ⊆ p \ s := fun b hb => Finset.mem_sdiff.2 ⟨ht hb, Finset.disjoint_left.1 hd hb⟩
  have he : p \ (s ∪ t) = (p \ s) \ t := by
    ext b
    simp only [Finset.mem_sdiff, Finset.mem_union, not_or]
    tauto
  rw [he, Finset.card_sdiff_of_subset hsub]
  have := Finset.card_le_card hsub
  omega

theorem Balanced.settle {a : Account β} (h : Balanced a) {t : Finset β} (ht : t ⊆ a.held)
    (hd : Disjoint t a.settled) : Balanced (a.settle t) where
  recorded := Finset.union_subset h.recorded ht
  free_nonneg := h.free_nonneg
  balance := by
    have := card_sdiff_settle ht hd
    have := h.balance
    simp only [Account.settle]
    omega

/-- The store can settle any buyers the gate has promised. -/
theorem Balanced.absorbs {a : Account β} (h : Balanced a) {t : Finset β} (ht : t ⊆ a.held)
    (hd : Disjoint t a.settled) : (t.card : ℤ) ≤ a.left := by
  have := card_sdiff_settle ht hd
  have := h.balance
  have := h.free_nonneg
  omega

/-! ## Promises covered by what is left -/

def Covered (promised settled : Finset β) (left : ℤ) : Prop := ((promised \ settled).card : ℤ) ≤ left

/-- Another promise is covered if the promises to others left a unit. -/
theorem Covered.promise {p s : Finset β} {n : ℤ} {b : β} (hb : (((p \ s).erase b).card : ℤ) < n) :
    Covered (insert b p) s n := by
  have hsub : insert b p \ s ⊆ insert b ((p \ s).erase b) := by
    intro c hc
    by_cases hcb : c = b
    · exact hcb ▸ Finset.mem_insert_self _ _
    · simp only [Finset.mem_sdiff, Finset.mem_insert, hcb, false_or] at hc
      exact Finset.mem_insert_of_mem (Finset.mem_erase.2 ⟨hcb, Finset.mem_sdiff.2 hc⟩)
  have h1 := Finset.card_le_card hsub
  have h2 := Finset.card_insert_le b ((p \ s).erase b)
  unfold Covered
  omega

/-- Settling promises keeps the rest covered. -/
theorem Covered.settle {p s t : Finset β} {n : ℤ} (h : Covered p s n) (ht : t ⊆ p) (hd : Disjoint t s) :
    Covered p (s ∪ t) (n - t.card) := by
  have := card_sdiff_settle ht hd
  unfold Covered at *
  omega

/-- A unit taken from the store directly keeps the promises to others covered,
if they left one. -/
theorem Covered.spend {p s : Finset β} {n : ℤ} {b : β} (hb : (((p \ s).erase b).card : ℤ) < n) :
    Covered p (insert b s) (n - 1) := by
  have he : p \ insert b s = (p \ s).erase b := by
    ext c
    simp only [Finset.mem_sdiff, Finset.mem_insert, Finset.mem_erase]
    tauto
  unfold Covered
  rw [he]
  omega

theorem Covered.mono {p p' s : Finset β} {n : ℤ} (h : Covered p s n) (hp : p' \ s ⊆ p \ s) : Covered p' s n := by
  have := Finset.card_le_card hp
  unfold Covered at *
  omega

/-- Everyone promised a unit, with everyone the store started from, fits in the
settled and the left units together. -/
theorem Covered.bound {p s s₀ : Finset β} {n : ℤ} (h : Covered p s n) (h₀ : s₀ ⊆ s) (hd : Disjoint p s₀) :
    ((p.card + s₀.card : ℕ) : ℤ) ≤ s.card + n := by
  have hsub : p ∪ s₀ ⊆ s ∪ (p \ s) := by
    intro b hb
    rw [Finset.mem_union] at hb ⊢
    rw [Finset.mem_sdiff]
    by_cases hbs : b ∈ s
    · exact .inl hbs
    · exact .inr ⟨hb.resolve_right fun h' => hbs (h₀ h'), hbs⟩
  have h1 := Finset.card_le_card hsub
  have h2 := Finset.card_union_le s (p \ s)
  rw [Finset.card_union_of_disjoint hd] at h1
  unfold Covered at h
  push_cast
  omega

end FlashSale.Lib.Escrow
