import FlashSale.Lib.Json
import FlashSale.Reservations
import Mathlib.Data.Finset.Card
import Mathlib.Data.Rat.Floor
/-!
# The herd

The k6 side of a load test (packages/load-test/k6): who its virtual users say
they are (lib/identity.ts), and what the gate answers a herd of them on the
sale that `prepare` loaded, `syncSale` with no buyers.
-/

namespace FlashSale
open Lib.Json Lib.Runs

/-! ## `identity.ts` -/

def LOAD_TEST_EMAIL_DOMAIN : String := "loadtest.invalid"

def uniqueEmail (runId : String) (vu iter : Nat) : String :=
  "vu" ++ toString vu ++ "-iter" ++ toString iter ++ "-" ++ runId ++ "@" ++ LOAD_TEST_EMAIL_DOMAIN

def repeatEmail (runId : String) (slot : Nat) : String :=
  "repeat" ++ toString slot ++ "-" ++ runId ++ "@" ++ LOAD_TEST_EMAIL_DOMAIN

/-- One iteration: `__VU`, `__ITER`, its two draws of `Math.random()`, and the
api's clock when it gets to the gate. -/
structure Iteration where
  vu : Nat
  iter : Nat
  coin : ℚ
  draw : ℚ
  now : Int
deriving DecidableEq

/-- `emailRepeatShare` and `emailRepeatPoolSize`. -/
structure Tuning where
  share : ℚ
  poolSize : Nat

/-- `Math.floor(Math.random() * emailRepeatPoolSize(200))`. -/
def Iteration.slot (t : Tuning) (it : Iteration) : Nat := ⌊it.draw * t.poolSize⌋₊

def purchaseEmail (t : Tuning) (runId : String) (it : Iteration) : String :=
  if t.share ≤ it.coin then uniqueEmail runId it.vu it.iter else repeatEmail runId (it.slot t)

/-- Who the iteration is. -/
inductive Identity where
  | unique (vu iter : Nat)
  | repeated (slot : Nat)
deriving DecidableEq

def Iteration.identity (t : Tuning) (it : Iteration) : Identity :=
  if t.share ≤ it.coin then .unique it.vu it.iter else .repeated (it.slot t)

def Identity.email (runId : String) : Identity → String
  | .unique vu iter => uniqueEmail runId vu iter
  | .repeated slot => repeatEmail runId slot

theorem purchaseEmail_eq (t : Tuning) (runId : String) (it : Iteration) :
    purchaseEmail t runId it = (it.identity t).email runId := by
  unfold purchaseEmail Iteration.identity
  split <;> rfl

example : (Iteration.identity ⟨3 / 10, 200⟩ ⟨1, 2, 1 / 4, 1 / 3, 0⟩).email "x" = "repeat66-x@loadtest.invalid" := by
  decide +kernel

/-! ## Whom the stores take for one -/

section
variable {runId : String} {vu iter slot : Nat}

theorem toLower_digit {c : Char} (h : c.isDigit = true) : c.toLower = c := by
  unfold Char.isDigit at h
  delta Char.toLower
  grind

theorem map_toLower_toDigits (n : Nat) : (Nat.toDigits 10 n).map Char.toLower = Nat.toDigits 10 n := by
  conv_rhs => rw [← List.map_id (Nat.toDigits 10 n)]
  exact List.map_congr_left fun c hc => toLower_digit (toDigits_isDigit c hc)

/-- What follows the numbers in an email, case-folded. -/
def emailTail (runId : String) : List Char :=
  '-' :: (runId ++ "@" ++ LOAD_TEST_EMAIL_DOMAIN).toList.map Char.toLower

theorem noDigit_dash (cs : List Char) : NoDigit ('-' :: cs) := by
  intro c hc
  obtain rfl := Option.some.inj hc
  decide

theorem uniqueEmail_toList : (normalizeEmail (uniqueEmail runId vu iter)).toList =
    'v' :: 'u' :: (Nat.toDigits 10 vu ++ '-' :: 'i' :: 't' :: 'e' :: 'r' ::
      (Nat.toDigits 10 iter ++ emailTail runId)) := by
  have hvu : (toString vu).toList = Nat.toDigits 10 vu := Nat.toList_repr
  have hiter : (toString iter).toList = Nat.toDigits 10 iter := Nat.toList_repr
  have hu : "vu".toList = ['v', 'u'] := rfl
  have hi : "-iter".toList = ['-', 'i', 't', 'e', 'r'] := rfl
  have hd : "-".toList = ['-'] := rfl
  simp only [normalizeEmail, toLowerCase, uniqueEmail, emailTail, String.toList_ofList, String.toList_append,
    List.map_append, hvu, hiter, hu, hi, hd, map_toLower_toDigits, List.append_assoc]
  rfl

theorem repeatEmail_toList : (normalizeEmail (repeatEmail runId slot)).toList =
    'r' :: 'e' :: 'p' :: 'e' :: 'a' :: 't' :: (Nat.toDigits 10 slot ++ emailTail runId) := by
  have hslot : (toString slot).toList = Nat.toDigits 10 slot := Nat.toList_repr
  have hr : "repeat".toList = ['r', 'e', 'p', 'e', 'a', 't'] := rfl
  have hd : "-".toList = ['-'] := rfl
  simp only [normalizeEmail, toLowerCase, repeatEmail, emailTail, String.toList_ofList, String.toList_append,
    List.map_append, hslot, hr, hd, map_toLower_toDigits, List.append_assoc]
  rfl

theorem uniqueEmail_inj {vu' iter' : Nat}
    (h : normalizeEmail (uniqueEmail runId vu iter) = normalizeEmail (uniqueEmail runId vu' iter')) :
    vu = vu' ∧ iter = iter' := by
  have hlist := congrArg String.toList h
  rw [uniqueEmail_toList, uniqueEmail_toList] at hlist
  have hvu := congrArg parseNat (List.cons.inj (List.cons.inj hlist).2).2
  rw [parseNat_print _ (noDigit_dash _), parseNat_print _ (noDigit_dash _)] at hvu
  obtain ⟨hvu, hrest⟩ := Prod.mk.inj (Option.some.inj hvu)
  have hiter := congrArg (fun cs => parseNat (cs.drop 5)) hrest
  dsimp only [List.drop] at hiter
  rw [emailTail, parseNat_print _ (noDigit_dash _), parseNat_print _ (noDigit_dash _)] at hiter
  exact ⟨hvu, (Prod.mk.inj (Option.some.inj hiter)).1⟩

theorem repeatEmail_inj {slot' : Nat}
    (h : normalizeEmail (repeatEmail runId slot) = normalizeEmail (repeatEmail runId slot')) : slot = slot' := by
  have hlist := congrArg String.toList h
  rw [repeatEmail_toList, repeatEmail_toList] at hlist
  have hslot := congrArg (fun cs => parseNat (cs.drop 6)) hlist
  dsimp only [List.drop] at hslot
  rw [emailTail, parseNat_print _ (noDigit_dash _), parseNat_print _ (noDigit_dash _)] at hslot
  exact (Prod.mk.inj (Option.some.inj hslot)).1

/-- The stores take two iterations of a run for one buyer only if the script
does. -/
theorem email_inj : Function.Injective fun identity : Identity => normalizeEmail (identity.email runId) := by
  have hapart (vu iter slot : Nat) :
      normalizeEmail (uniqueEmail runId vu iter) ≠ normalizeEmail (repeatEmail runId slot) := fun h => by
    have hlist := congrArg String.toList h
    rw [uniqueEmail_toList, repeatEmail_toList] at hlist
    exact absurd (List.cons.inj hlist).1 (by decide)
  intro a b h
  cases a with
  | unique vu iter =>
    cases b with
    | unique vu' iter' =>
      obtain ⟨rfl, rfl⟩ := uniqueEmail_inj h
      rfl
    | repeated slot => exact absurd h (hapart vu iter slot)
  | repeated slot =>
    cases b with
    | unique vu iter => exact absurd h.symm (hapart vu iter slot)
    | repeated slot' =>
      obtain rfl := repeatEmail_inj h
      rfl

end

/-! ## What the gate answers them -/

/-- `attemptFlashSalePurchase`, as it gets to the gate. -/
def Iteration.attempt (t : Tuning) (runId saleId : String) (it : Iteration) : ReservePurchaseParams :=
  ⟨saleId, purchaseEmail t runId it, it.now⟩

/-- The attempts are for the sale, in its window. -/
def Inside (sale : SyncSaleInput) (attempts : List ReservePurchaseParams) : Prop :=
  sale.cancelledAt = none ∧ ∀ p ∈ attempts, p.saleId = sale.id ∧ sale.startsAt ≤ p.now ∧ p.now < sale.endsAt

section
variable (redis : Redis) {sale : SyncSaleInput} {attempts : List ReservePurchaseParams} {p : ReservePurchaseParams}

theorem Inside.init (h : Inside sale (attempts ++ [p])) : Inside sale attempts :=
  ⟨h.1, fun q hq => h.2 q (List.mem_append_left _ hq)⟩

/-- One more attempt, after all others. -/
theorem reserveAll_inside (h : Inside sale (attempts ++ [p])) (hstock : 0 ≤ sale.remainingStock) :
    ∃ code, (reserveAll (syncSale redis sale []) (attempts ++ [p])).1 =
        (reserveAll (syncSale redis sale []) attempts).1 ++ [code] ∧
      granted sale.id (syncSale redis sale []) (attempts ++ [p]) =
        granted sale.id (syncSale redis sale []) attempts ++
          (if code = .reserved then [normalizeEmail p.email] else []) ∧
      code = if normalizeEmail p.email ∈ granted sale.id (syncSale redis sale []) attempts then .already_purchased
        else if sale.remainingStock ≤ (granted sale.id (syncSale redis sale []) attempts).length then .sold_out
        else .reserved := by
  obtain ⟨hid, hstarts, hends⟩ := h.2 p (List.mem_append_right _ (List.mem_singleton_self p))
  refine ⟨(reservePurchase (reserveAll (syncSale redis sale []) attempts).2 p.saleId p.email p.now).1, ?_, ?_, ?_⟩
  · rw [reserveAll, answers_append]
    rfl
  · rw [granted_concat]
    simp only [grantedEmail, hid, true_and]
    split <;> rfl
  · rw [hid, reserve_after, h.1]
    have hfold := (granted_spec redis hstock [] attempts).2.2.2
    have hmap : ([] ++ granted sale.id (syncSale redis sale []) attempts).map normalizeEmail =
        granted sale.id (syncSale redis sale []) attempts := by
      rw [List.nil_append]
      conv_rhs => rw [← List.map_id (granted _ _ _)]
      exact List.map_congr_left hfold
    rw [hmap, if_neg]
    simp only [Option.isSome_none, Bool.false_eq_true, false_or, not_or, Int.not_lt, Int.not_le]
    exact ⟨hstarts, hends⟩

/-- What the answers and the grants say of the buyers who have asked. -/
structure Answered (sale : SyncSaleInput) (buyers : Finset String) (codes : List ReservationCode)
    (granted : List String) : Prop where
  counted : codes.count .reserved = granted.length
  asked : granted.toFinset ⊆ buyers
  open_all : (granted.length : Int) < sale.remainingStock → buyers ⊆ granted.toFinset
  kinds : ∀ c ∈ codes, c = .reserved ∨ c = .already_purchased ∨ c = .sold_out
  sold_out : .sold_out ∈ codes → sale.remainingStock < buyers.card

theorem Answered.step {buyers : Finset String} {codes : List ReservationCode} {g : List String}
    (h : Answered sale buyers codes g) (honce : g.Nodup) (b : String) {code : ReservationCode}
    (hcode : code = if b ∈ g then .already_purchased else if sale.remainingStock ≤ g.length then .sold_out
      else .reserved) :
    Answered sale (insert b buyers) (codes ++ [code]) (g ++ if code = .reserved then [b] else []) := by
  have hkinds (c : ReservationCode) (hc : c = .reserved ∨ c = .already_purchased ∨ c = .sold_out) :
      ∀ c' ∈ codes ++ [c], c' = .reserved ∨ c' = .already_purchased ∨ c' = .sold_out := by
    intro c' hc'
    rcases List.mem_append.1 hc' with hc' | hc'
    · exact h.kinds c' hc'
    · exact List.mem_singleton.1 hc' ▸ hc
  have hmore : .sold_out ∈ codes → sale.remainingStock < (insert b buyers).card := fun hmem => by
    have hle := Finset.card_le_card (Finset.subset_insert b buyers)
    have hlt := h.sold_out hmem
    omega
  split_ifs at hcode with hb hz
  · -- Asked before, and granted.
    subst hcode
    have hin : insert b buyers = buyers := Finset.insert_eq_of_mem (h.asked (List.mem_toFinset.2 hb))
    rw [hin] at hmore ⊢
    refine ⟨by simpa using h.counted, by simpa using h.asked, by simpa using h.open_all, hkinds _ (by simp), ?_⟩
    simpa using h.sold_out
  · subst hcode
    refine ⟨by simpa using h.counted, ?_, fun hlt => ?_, hkinds _ (by simp), fun _ => ?_⟩
    · simpa using h.asked.trans (Finset.subset_insert b buyers)
    · simp only [reduceCtorEq, if_false, List.append_nil] at hlt
      omega
    · have hnew : b ∉ g.toFinset := fun hmem => hb (List.mem_toFinset.1 hmem)
      have hle := Finset.card_le_card (Finset.insert_subset_insert b h.asked)
      rw [Finset.card_insert_of_notMem hnew, List.toFinset_card_of_nodup honce] at hle
      omega
  · subst hcode
    have hall := h.open_all (by omega)
    have hgrown : (g ++ [b]).toFinset = insert b g.toFinset := by
      simp [List.toFinset_append]
    rw [if_pos rfl]
    refine ⟨by simp [h.counted], ?_, fun _ => ?_, hkinds _ (by simp), ?_⟩
    · rw [hgrown]
      exact Finset.insert_subset_insert b h.asked
    · rw [hgrown]
      exact Finset.insert_subset_insert b hall
    · simpa using hmore

theorem answered_inside (hstock : 0 ≤ sale.remainingStock) (h : Inside sale attempts) :
    Answered sale (attempts.map (normalizeEmail ·.email)).toFinset (reserveAll (syncSale redis sale []) attempts).1
      (granted sale.id (syncSale redis sale []) attempts) := by
  induction attempts using List.reverseRecOn with
  | nil => constructor <;> simp [reserveAll, answers]
  | append_singleton attempts p ih =>
    obtain ⟨code, hcodes, hgranted, hcode⟩ := reserveAll_inside redis h hstock
    have hstep := (ih h.init).step (granted_spec redis hstock [] attempts).1 _ hcode
    have hasked : ((attempts ++ [p]).map (normalizeEmail ·.email)).toFinset =
        insert (normalizeEmail p.email) (attempts.map (normalizeEmail ·.email)).toFinset := by
      simp [List.toFinset_append]
    rw [hcodes, hgranted, hasked]
    exact hstep

/-- It grants each buyer who asks a unit while there are any. -/
theorem granted_length (hstock : 0 ≤ sale.remainingStock) (h : Inside sale attempts) :
    ((granted sale.id (syncSale redis sale []) attempts).length : Int) =
      min sale.remainingStock (attempts.map (normalizeEmail ·.email)).toFinset.card := by
  obtain ⟨honce, -, hle, -⟩ := granted_spec redis hstock [] attempts
  have hanswered := answered_inside redis hstock h
  have hasked := Finset.card_le_card hanswered.asked
  rw [List.toFinset_card_of_nodup honce] at hasked
  rcases Int.lt_or_eq_of_le hle with hlt | heq
  · have hall := Finset.card_le_card (hanswered.open_all hlt)
    rw [List.toFinset_card_of_nodup honce] at hall
    omega
  · omega

/-- Buyers who ask once each: the first of them get the units. -/
theorem codes_of_nodup (hstock : 0 ≤ sale.remainingStock) (h : Inside sale attempts)
    (honce : (attempts.map (normalizeEmail ·.email)).Nodup) :
    (reserveAll (syncSale redis sale []) attempts).1 =
      List.replicate (min sale.remainingStock.toNat attempts.length) .reserved ++
        List.replicate (attempts.length - sale.remainingStock.toNat) .sold_out := by
  induction attempts using List.reverseRecOn with
  | nil => simp [reserveAll, answers]
  | append_singleton attempts p ih =>
    rw [List.map_append, List.nodup_append] at honce
    obtain ⟨honce, -, hapart⟩ := honce
    obtain ⟨code, hcodes, -, hcode⟩ := reserveAll_inside redis h hstock
    have hlength := granted_length redis hstock h.init
    rw [List.toFinset_card_of_nodup honce, List.length_map] at hlength
    have hnew : normalizeEmail p.email ∉ granted sale.id (syncSale redis sale []) attempts := fun hmem => by
      have hasked := (answered_inside redis hstock h.init).asked (List.mem_toFinset.2 hmem)
      exact hapart _ (List.mem_toFinset.1 hasked) _ (List.mem_singleton_self _) rfl
    rw [if_neg hnew] at hcode
    rw [hcodes, ih h.init honce, List.length_append, List.length_singleton]
    split_ifs at hcode with hz
    · have hn : min sale.remainingStock.toNat (attempts.length + 1) =
          min sale.remainingStock.toNat attempts.length := by
        omega
      have hk : attempts.length + 1 - sale.remainingStock.toNat = attempts.length - sale.remainingStock.toNat + 1 := by
        omega
      rw [hcode, hn, hk, List.replicate_succ', List.append_assoc]
    · have hn : min sale.remainingStock.toNat (attempts.length + 1) =
          min sale.remainingStock.toNat attempts.length + 1 := by
        omega
      have hk : attempts.length - sale.remainingStock.toNat = 0 := by omega
      have hk' : attempts.length + 1 - sale.remainingStock.toNat = 0 := by omega
      rw [hcode, hn, hk, hk', List.replicate_zero, List.append_nil, List.append_nil, List.replicate_succ']

end

/-! ## Main theorem -/

theorem herd_emails (t : Tuning) (runId saleId : String) (its : List Iteration) :
    (its.map (Iteration.attempt t runId saleId)).map (normalizeEmail ·.email) =
      (its.map (Iteration.identity t)).map fun identity => normalizeEmail (identity.email runId) := by
  rw [List.map_map, List.map_map]
  refine List.map_congr_left fun it _ => ?_
  simp only [Function.comp_apply, Iteration.attempt, purchaseEmail_eq]

/-- A herd of virtual users, in the window of the sale that was prepared for
them. As many calls reserve as there are units, or identities among the
iterations; the sale sells out only if there are more of these than units; no
other answer is given. With no repeated identities the first calls to come get
the units, and all later ones find it sold out: none has purchased already. -/
theorem herd_sells (t : Tuning) (runId : String) (redis : Redis) {sale : SyncSaleInput}
    (hstock : 0 ≤ sale.remainingStock) (hopen : sale.cancelledAt = none) {its : List Iteration}
    (hin : ∀ it ∈ its, sale.startsAt ≤ it.now ∧ it.now < sale.endsAt) :
    let codes := (reserveAll (syncSale redis sale []) (its.map (Iteration.attempt t runId sale.id))).1
    let identities := (its.map (Iteration.identity t)).toFinset
    (codes.count .reserved : Int) = min sale.remainingStock identities.card ∧
    (.sold_out ∈ codes → sale.remainingStock < identities.card) ∧
    (∀ c ∈ codes, c = .reserved ∨ c = .already_purchased ∨ c = .sold_out) ∧
    ((its.map fun it => (it.vu, it.iter)).Nodup → (∀ it ∈ its, t.share ≤ it.coin) →
      codes = List.replicate (min sale.remainingStock.toNat its.length) .reserved ++
        List.replicate (its.length - sale.remainingStock.toNat) .sold_out) := by
  intro codes identities
  have hinside : Inside sale (its.map (Iteration.attempt t runId sale.id)) := by
    refine ⟨hopen, fun p hp => ?_⟩
    obtain ⟨it, hit, rfl⟩ := List.mem_map.1 hp
    exact ⟨rfl, hin it hit⟩
  have hcard : ((its.map (Iteration.attempt t runId sale.id)).map (normalizeEmail ·.email)).toFinset.card =
      identities.card := by
    have himage : ((its.map (Iteration.attempt t runId sale.id)).map (normalizeEmail ·.email)).toFinset =
        identities.image fun identity => normalizeEmail (identity.email runId) := by
      rw [herd_emails]
      ext email
      simp [identities]
    rw [himage, Finset.card_image_of_injective _ email_inj]
  have hanswered := answered_inside redis hstock hinside
  refine ⟨?_, fun hmem => ?_, hanswered.kinds, fun honce hunique => ?_⟩
  · rw [hanswered.counted, granted_length redis hstock hinside, hcard]
  · rw [← hcard]
    exact hanswered.sold_out hmem
  · have hnodup : ((its.map (Iteration.attempt t runId sale.id)).map (normalizeEmail ·.email)).Nodup := by
      rw [herd_emails]
      refine List.Nodup.map email_inj ?_
      have hids : its.map (Iteration.identity t) =
          (its.map fun it => (it.vu, it.iter)).map fun p => .unique p.1 p.2 := by
        rw [List.map_map]
        exact List.map_congr_left fun it hit => if_pos (hunique it hit)
      rw [hids]
      refine honce.map fun p q hpq => ?_
      obtain ⟨hvu, hiter⟩ := Identity.unique.inj hpq
      exact Prod.ext hvu hiter
    have hcodes := codes_of_nodup redis hstock hinside hnodup
    rwa [List.length_map] at hcodes

/-- Two units, and three users of whom one comes twice. -/
def smallHerd : List Iteration := [⟨1, 0, 1, 0, 5⟩, ⟨2, 0, 1 / 10, 0, 6⟩, ⟨3, 0, 1 / 5, 0, 7⟩, ⟨4, 0, 1 / 2, 0, 8⟩]

theorem herd_sells_demo :
    (((reserveAll (syncSale (fun _ => .none) ⟨"s", 2, 0, 1000, none⟩ [])
      (smallHerd.map (Iteration.attempt ⟨3 / 10, 200⟩ "x" "s"))).1.count .reserved : Nat) : Int) = min 2 3 := by
  have hin : ∀ it ∈ smallHerd, (0 : Int) ≤ it.now ∧ it.now < 1000 := by decide +kernel
  have hcard : ((smallHerd.map (Iteration.identity ⟨3 / 10, 200⟩)).toFinset.card : Int) = 3 := by decide +kernel
  have hstock : 0 ≤ (⟨"s", 2, 0, 1000, none⟩ : SyncSaleInput).remainingStock := by decide
  have hsells := herd_sells ⟨3 / 10, 200⟩ "x" (fun _ => .none) hstock rfl hin
  rw [← hcard]
  exact hsells.1

end FlashSale
