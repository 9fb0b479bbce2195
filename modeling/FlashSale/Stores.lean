import FlashSale.System
/-!
# The stores

What a step does to the stores as a whole, and the facts about them that every
step keeps.
-/

namespace FlashSale

structure System.Ok (S : System) : Prop where
  schema : S.db.Schema
  printed : S.redis.Printed
  rows : ∀ row ∈ S.warm.rows, toLowerCase row.id = row.id
  reading : ∀ row buyers, S.warm.reading = some (row, buyers) → toLowerCase row.id = row.id

/-- A step sells some purchases, or none. Without a sync it leaves the warm
script's reads as they are, or reads what is there now. -/
theorem step_frame {S S' : System} {a : Action} (hok : S.Ok) (h : step S a = some S') :
    (∃ new, Sold S.db S'.db new) ∧ S'.redis.Printed ∧
      (S'.warm = S.warm ∨ (∃ now, S'.warm = ⟨S'.db.warmRows now, none⟩) ∨
        (∃ row, S.warm = ⟨row :: S'.warm.rows, none⟩ ∧
          S'.warm.reading = some (row, S'.db.buyerEmails (.ofText row.id))) ∨
        S'.warm = ⟨S.warm.rows, none⟩) := by
  have hsame : Sold S.db S.db [] := hok.schema.sold_nothing
  cases Step.of_step h with
  | attempt =>
    obtain ⟨hdb, -, hwarm, hredis⟩ := stepAttempt_frame S _ _ _ _ _
    refine ⟨⟨[], by rw [hdb]; exact hsame⟩, ?_, .inl hwarm⟩
    rw [hredis, reserve_redis]
    split
    · exact hok.printed.reserve _ _ _
    · exact hok.printed
  | @publish i queued p hi hstage =>
    cases queued <;> exact ⟨⟨[], hsame⟩, hok.printed, .inl rfl⟩
  | @lookup i pgUp now p hi hstage =>
    obtain ⟨hdb, -, hwarm, hredis⟩ := stepLookup_frame S i p pgUp now
    exact ⟨⟨[], by rw [hdb]; exact hsame⟩, by rw [hredis]; exact hok.printed, .inl hwarm⟩
  | @write i dbNow fate p hi hstage =>
    rcases writePurchase_sold hok.schema fate dbNow p.saleId p.email with hsold | hdb
    · exact ⟨⟨_, hsold⟩, hok.printed, .inl rfl⟩
    · have hdb' : (stepWrite S i p dbNow fate).db = S.db := hdb
      exact ⟨⟨[], by rw [hdb']; exact hsame⟩, hok.printed, .inl rfl⟩
  | @drain entries fate settled hsub =>
    obtain ⟨hdb, hredis, hwarm⟩ := stepDrain_frame S entries fate settled
    rw [hdb, hredis]
    rcases writePurchaseBatch_sold hok.schema fate entries with hsold | hsold
    · exact ⟨⟨_, hsold⟩, hok.printed, .inl hwarm⟩
    · exact ⟨⟨[], by rw [hsold]; exact hsame⟩, hok.printed, .inl hwarm⟩
  | flush => exact ⟨⟨[], hsame⟩, hok.printed.del _, .inl rfl⟩
  | expire => exact ⟨⟨[], hsame⟩, hok.printed, .inl rfl⟩
  | @warmRows now => exact ⟨⟨[], hsame⟩, hok.printed, .inr (.inl ⟨now, rfl⟩)⟩
  | @warmBuyers row rows hwarm => exact ⟨⟨[], hsame⟩, hok.printed, .inr (.inr (.inl ⟨row, hwarm, rfl⟩))⟩
  | @warmSync row buyers hreading =>
    exact ⟨⟨[], hsame⟩, hok.printed.sync row.toSync (hok.reading row buyers hreading) buyers, .inr (.inr (.inr rfl))⟩

theorem System.Ok.step {S S' : System} {a : Action} (hok : S.Ok) (h : FlashSale.step S a = some S') : S'.Ok := by
  obtain ⟨⟨new, hsold⟩, hprinted, hwarm⟩ := step_frame hok h
  refine ⟨hsold.schema hok.schema, hprinted, ?_, ?_⟩
  · intro row hrow
    rcases hwarm with he | ⟨now, he⟩ | ⟨row', he, -⟩ | he
    · exact hok.rows row (he ▸ hrow)
    · rw [he] at hrow
      obtain ⟨s, -, rfl⟩ := List.mem_map.1 hrow
      exact s.id.printed
    · exact hok.rows row (by rw [he]; exact List.mem_cons_of_mem _ hrow)
    · exact hok.rows row (by rwa [he] at hrow)
  · intro row buyers hreading
    rcases hwarm with he | ⟨now, he⟩ | ⟨row', he, he'⟩ | he
    · exact hok.reading row buyers (he ▸ hreading)
    · simp [he] at hreading
    · obtain ⟨rfl, -⟩ := Prod.mk.inj (Option.some.inj (he'.symm.trans hreading))
      exact hok.rows row' (by rw [he]; exact List.mem_cons_self)
    · simp [he] at hreading

end FlashSale
