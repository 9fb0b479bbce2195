import FlashSale.System
/-!
# Undisturbed

A call to `purchase`, or a run of the warm script, with nothing else happening
from its start to its end: the steps of the system then make up the function
of the source.
-/

namespace FlashSale
open Lib.Runs

/-- What one api process sees. -/
def System.world (S : System) (replica : Nat) : World := ⟨S.redis, S.queue, S.db, S.caches replica⟩

/-- The system once a call of that process has ended so. -/
def System.ended (S : System) (replica : Nat) (saleId email : String) (r : Except JsError PurchaseResult × World) :
    System :=
  { S with
    redis := r.2.redis
    queue := r.2.queue
    db := r.2.db
    caches := Function.update S.caches replica r.2.cache
    answers := S.answers ++ [⟨saleId, email, r.1⟩] }

/-- The system while its last call is at `stage`. -/
def System.calling (S : System) (replica : Nat) (saleId email : String) (now : Int) (stage : Stage) : System :=
  { S with pending := S.pending ++ [⟨replica, saleId, email, now, stage⟩] }

theorem System.calling_last (S : System) (replica : Nat) (saleId email : String) (now : Int) (stage : Stage) :
    (S.calling replica saleId email now stage).pending[S.pending.length]? =
      some ⟨replica, saleId, email, now, stage⟩ := by
  simp [System.calling]

theorem System.calling_finish (S : System) (replica : Nat) (saleId email : String) (now : Int) (stage : Stage)
    (result : Except JsError PurchaseResult) :
    (S.calling replica saleId email now stage).finish S.pending.length ⟨replica, saleId, email, now, stage⟩ result =
      { S with answers := S.answers ++ [⟨saleId, email, result⟩] } := by
  simp [System.calling, System.finish, Pending.answer, List.eraseIdx_append_of_length_le]

theorem System.calling_goOn (S : System) (replica : Nat) (saleId email : String) (now : Int) (stage stage' : Stage) :
    (S.calling replica saleId email now stage).goOn S.pending.length ⟨replica, saleId, email, now, stage⟩ stage' =
      S.calling replica saleId email now stage' := by
  simp [System.calling, System.goOn]

theorem System.calling_publish (S : System) (replica : Nat) (saleId email : String) (now : Int) (queued : Bool) :
    Reaches (S.calling replica saleId email now .publish)
      (stepPublish (S.calling replica saleId email now .publish) S.pending.length
        ⟨replica, saleId, email, now, .publish⟩ queued) := by
  refine .head (a := .publish S.pending.length queued) trivial ?_ .refl
  simp only [step, S.calling_last, if_true]

theorem System.calling_lookup (S : System) (replica : Nat) (saleId email : String) (now : Int) (pgUp : Bool)
    (lookupNow : Int) :
    Reaches (S.calling replica saleId email now .lookup)
      (stepLookup (S.calling replica saleId email now .lookup) S.pending.length
        ⟨replica, saleId, email, now, .lookup⟩ pgUp lookupNow) := by
  refine .head (a := .lookup S.pending.length pgUp lookupNow) trivial ?_ .refl
  simp only [step, S.calling_last, if_true]

/-- A call that is to write its row, and then answers. -/
theorem write_alone (S : System) (replica : Nat) (saleId email : String) (now : Int) {stage : Stage}
    (hstage : stage = .write ∨ stage = .record) (env : Env) :
    Reaches (S.calling replica saleId email now stage)
      (S.ended replica saleId email ((S.world replica).writePurchase env saleId email)) := by
  refine .head (a := .write S.pending.length env.dbNow env.fate) trivial ?_ .refl
  simp only [step, S.calling_last, hstage, if_true, stepWrite, S.calling_finish]
  simp [System.ended, System.world, World.writePurchase, System.calling]

/-- A call that is to ask Postgres alone. -/
theorem recordPurchase_alone (S : System) (replica : Nat) (saleId email : String) (now : Int) (env : Env) :
    Reaches (S.calling replica saleId email now .lookup)
      (S.ended replica saleId email (recordPurchase env saleId email (S.world replica))) := by
  rcases hf : findRowById env.pgUp S.db (S.caches replica) saleId with ⟨found, cache⟩
  let S' : System := { S with caches := Function.update S.caches replica cache }
  let p : Pending := ⟨replica, saleId, email, now, .lookup⟩
  have hlookup := S.calling_lookup replica saleId email now env.pgUp env.lookupNow
  have hfound : findRowById env.pgUp (S.world replica).db (S.world replica).cache saleId = (found, cache) := hf
  have hfound' : findRowById env.pgUp (S.calling replica saleId email now .lookup).db
      ((S.calling replica saleId email now .lookup).caches p.replica) p.saleId = (found, cache) := hf
  have hends (result : Except JsError PurchaseResult)
      (h : stepLookup (S.calling replica saleId email now .lookup) S.pending.length p env.pgUp env.lookupNow =
        (S'.calling replica saleId email now .lookup).finish S'.pending.length p result) :
      Reaches (S.calling replica saleId email now .lookup)
        (S.ended replica saleId email (result, { S.world replica with cache })) := by
    rw [h, S'.calling_finish] at hlookup
    exact hlookup
  simp only [recordPurchase, hfound]
  rcases found with e | _ | sale
  · exact hends _ (by simp only [stepLookup, hfound']; rfl)
  · exact hends _ (by simp only [stepLookup, hfound']; rfl)
  · dsimp only
    by_cases hopen : isSaleOpen sale env.lookupNow = true
    · have hstep : stepLookup (S.calling replica saleId email now .lookup) S.pending.length p env.pgUp env.lookupNow =
          (S'.calling replica saleId email now .lookup).goOn S'.pending.length p .record := by
        simp only [stepLookup, hfound', hopen, if_true]
        rfl
      rw [if_pos hopen]
      rw [hstep, S'.calling_goOn] at hlookup
      have hwrite := write_alone S' replica saleId email now (.inr rfl) env
      have hend : S'.ended replica saleId email ((S'.world replica).writePurchase env saleId email) =
          S.ended replica saleId email (World.writePurchase env saleId email { S.world replica with cache }) := by
        simp [S', System.ended, System.world, World.writePurchase]
      exact hlookup.trans (hend ▸ hwrite)
    · rw [if_neg hopen]
      exact hends _ (by simp only [stepLookup, hfound', hopen]; rfl)

/-- A call with nothing else happening from its start to its end does what
`purchase` does. -/
theorem purchase_alone (S : System) (replica : Nat) (saleId email : String) (env : Env) :
    Reaches S (S.ended replica saleId email (purchase env saleId email (S.world replica))) := by
  have hattempt : Reaches S (stepAttempt S replica saleId email env.now env.link) :=
    .head (a := .attempt replica saleId email env.now env.link) trivial rfl .refl
  rcases hr : reserve env.link S.redis saleId email env.now with ⟨reservation, redis⟩
  let S' : System := { S with redis }
  have hreserve : reserve env.link (S.world replica).redis saleId email env.now = (reservation, redis) := hr
  have hanswers (result : PurchaseResult) : S.ended replica saleId email (.ok result, { S.world replica with redis }) =
      { S' with answers := S.answers ++ [⟨saleId, email, .ok result⟩] } := by
    simp [System.ended, System.world, S']
  simp only [stepAttempt, hr] at hattempt
  simp only [purchase, hreserve]
  rcases reservation with _ | code
  · exact hattempt.trans (recordPurchase_alone S' replica saleId email env.now env)
  cases code with
  | not_warmed => exact hattempt.trans (recordPurchase_alone S' replica saleId email env.now env)
  | sale_not_active => exact hanswers _ ▸ hattempt
  | already_purchased => exact hanswers _ ▸ hattempt
  | sold_out => exact hanswers _ ▸ hattempt
  | reserved =>
    refine hattempt.trans ?_
    have hpublish := S'.calling_publish replica saleId email env.now env.queued
    cases hq : env.queued with
    | true =>
      simp only [hq, stepPublish, if_true, S'.calling_finish] at hpublish
      simpa [System.ended, System.world, S', System.calling, Pending.message] using hpublish
    | false =>
      simp only [hq, stepPublish, Bool.false_eq_true, if_false, S'.calling_goOn] at hpublish
      exact hpublish.trans (write_alone S' replica saleId email env.now (.inl rfl) env)

theorem warmSales_alone (S : System) (rows : List SaleRow) (redis : Redis) :
    Reaches { S with redis, warm := ⟨rows, none⟩ }
      { S with redis := rows.foldl (warmSale S.db) redis, warm := .idle } := by
  induction rows generalizing redis with
  | nil => exact .refl
  | cons row rows ih =>
    have hbuyers : step { S with redis, warm := ⟨row :: rows, none⟩ } .warmBuyers =
        some { S with redis, warm := ⟨rows, some (row, S.db.buyerEmails (.ofText row.id))⟩ } := rfl
    have hsync : step { S with redis, warm := ⟨rows, some (row, S.db.buyerEmails (.ofText row.id))⟩ } .warmSync =
        some { S with redis := warmSale S.db redis row, warm := ⟨rows, none⟩ } := rfl
    exact .head trivial hbuyers (.head trivial hsync (ih _))

/-- The warm script with nothing else running does what `warm` does. -/
theorem warm_alone (S : System) (now : Int) :
    Reaches S { S with redis := warm now S.db S.redis, warm := .idle } :=
  .head (a := .warmRows now) trivial rfl (warmSales_alone S _ S.redis)

end FlashSale
