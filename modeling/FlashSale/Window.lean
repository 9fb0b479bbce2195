import FlashSale.Agreement
import FlashSale.Batches
import FlashSale.Reservations
/-!
# The window, three times

A sale's window is a pair of `timestamptz`s with microseconds in Postgres, a
pair of `Date`s with milliseconds in JavaScript, and a pair of numbers in
Redis. The gate's window is half-open and the trigger's is closed, so they
nest at the end; at the start they do only if `starts_at` is a whole
millisecond, because the `Date` is the millisecond before it.
-/

namespace FlashSale

/-- The attempt gets past the script's window check. -/
def ReservationCode.inWindow (code : ReservationCode) : Prop := code ≠ .not_warmed ∧ code ≠ .sale_not_active

/-- On the keys of a loaded sale the window check reads the loaded times. -/
theorem inWindow_iff (s : PgSale) (redis : Redis) (buyers : List String) (attempts : List ReservePurchaseParams)
    (email : String) (now : Int) :
    (reservePurchase (reserveAll (syncSale redis s.toRow.toSync buyers) attempts).2 s.id.text email now).1.inWindow ↔
      s.cancelledAt = none ∧ s.startsAt / 1000 ≤ now ∧ now < s.endsAt / 1000 := by
  have hcode := reserve_after redis s.toRow.toSync buyers attempts email now
  rw [show s.toRow.toSync.id = s.id.text from rfl] at hcode
  rw [hcode, ReservationCode.inWindow]
  have hcancel : s.toRow.toSync.cancelledAt.isSome ↔ s.cancelledAt ≠ none := by
    cases hc : s.cancelledAt <;> simp [SaleRow.toSync, PgSale.toRow, hc]
  have hopen : (s.toRow.toSync.cancelledAt.isSome ∨ now < s.toRow.toSync.startsAt ∨ s.toRow.toSync.endsAt ≤ now) ↔
      ¬ (s.cancelledAt = none ∧ s.startsAt / 1000 ≤ now ∧ now < s.endsAt / 1000) := by
    rw [hcancel, not_and_or, not_and_or, not_le, not_lt]
    rfl
  simp only [hopen]
  by_cases hin : s.cancelledAt = none ∧ s.startsAt / 1000 ≤ now ∧ now < s.endsAt / 1000
  · simp only [hin, not_true, and_self, if_false, iff_true]
    split_ifs <;> simp
  · simp [hin]

/-- The insert raises P1002 exactly when the trigger does. -/
theorem insert_outside_iff (db : Db) (row : PgPurchase) :
    insertOnConflictDoNothing db [row] = .error outsideSaleWindow ↔ outsideSalePeriod db row = true := by
  rw [insertOnConflictDoNothing_eq]
  cases h : outsideSalePeriod db row with
  | true => simp [h]
  | false =>
    simp only [List.any_cons, h, List.any_nil, Bool.or_self, Bool.false_eq_true, if_false, iff_false]
    split <;> simp [foreignKeyViolation, outsideSaleWindow, PURCHASE_OUTSIDE_SALE_WINDOW]

/-- A batch that ends in P1002 has a row for which the trigger raised. -/
theorem writePurchaseBatch_outside {db : Db} (hs : db.Schema) {entries : List PurchaseWriteEntry}
    (h : (writePurchaseBatch .runs entries db).1 = .error outsideSaleWindow) :
    (entries.map (·.row)).any (outsideSalePeriod db) = true := by
  have htx : writePurchaseBatchTx entries db = .error outsideSaleWindow := by
    unfold writePurchaseBatch transaction at h
    split at h
    · cases h
    · cases hb : writePurchaseBatchTx entries db <;> simp_all
  unfold writePurchaseBatchTx at htx
  rw [insertOnConflictDoNothing_eq] at htx
  split at htx
  · assumption
  · -- Past the trigger only a missing sale or the stock can fail.
    split at htx
    · simp only [bind, Except.bind] at htx
      split at htx
      · rename_i e hd
        obtain ⟨id, n, -, rfl, -⟩ := decrementAll_error (by exact hs.sales_pkey) (countBySale_keys_nodup _) hd
        simp [outsideSaleWindow] at htx
      · cases htx
    · simp [bind, Except.bind, foreignKeyViolation, outsideSaleWindow, PURCHASE_OUTSIDE_SALE_WINDOW] at htx

theorem outside_of_mem {db : Db} (hs : db.Schema) {s : PgSale} (hm : s ∈ db.sales) (email : String) (now : Int) :
    outsideSalePeriod db (PurchaseWriteEntry.row ⟨s.id.text, email, now⟩) = true ↔
      now * 1000 < s.startsAt ∨ s.endsAt < now * 1000 := by
  have hid : (PurchaseWriteEntry.row ⟨s.id.text, email, now⟩).saleId = s.id := Uuid.ofText_text s.id
  rw [outsideSalePeriod_iff hs, hid]
  constructor
  · rintro ⟨t, ht, hts, hout⟩
    obtain rfl : t = s := List.inj_on_of_nodup_map hs.sales_pkey ht hm hts
    exact hout
  · exact fun hout => ⟨s, hm, rfl, hout⟩

/-- The gate admits an instant that the trigger rejects exactly when the sale
starts between two milliseconds and the instant is the earlier of the two, in
a sale that is not cancelled and lasts past it. -/
theorem inWindow_accepted_iff {db : Db} (hs : db.Schema) {s : PgSale} (hm : s ∈ db.sales) (redis : Redis)
    (buyers : List String) (attempts : List ReservePurchaseParams) (email : String) (now : Int) :
    ((reservePurchase (reserveAll (syncSale redis s.toRow.toSync buyers) attempts).2 s.id.text email now).1.inWindow →
      insertOnConflictDoNothing db [PurchaseWriteEntry.row ⟨s.id.text, email, now⟩] ≠ .error outsideSaleWindow) ↔
    (s.startsAt % 1000 = 0 ∨ now ≠ s.startsAt / 1000 ∨ s.cancelledAt ≠ none ∨
      s.endsAt / 1000 ≤ s.startsAt / 1000) := by
  rw [inWindow_iff, ne_eq, insert_outside_iff, outside_of_mem hs hm]
  constructor
  · intro h
    by_contra hno
    simp only [not_or, not_not, not_le] at hno
    obtain ⟨hfrac, hnow, hcancel, hlasts⟩ := hno
    exact h ⟨hcancel, by omega, by omega⟩ (.inl (by omega))
  · rintro h ⟨hcancel, hfrom, hto⟩ (hearly | hlate)
    · -- Too early for the trigger only: the truncated start itself.
      rcases h with hfrac | hnow | hc | hlasts
      · omega
      · omega
      · exact hc hcancel
      · omega
    · omega

/-- A sale that starts half a millisecond into its first. -/
def oddDb : Db := ⟨[⟨demoId, 5, 5, 500, 1000000, none⟩], []⟩

theorem oddDb_schema : oddDb.Schema := by
  constructor <;> simp [oddDb]

theorem inWindow_accepted_iff_oddDb :
    (reservePurchase (reserveAll (syncSale (fun _ => .none)
        (PgSale.toRow ⟨demoId, 5, 5, 500, 1000000, none⟩).toSync []) []).2 demoId.text "ann@x.io" 1).1.inWindow ∧
      insertOnConflictDoNothing oddDb [PurchaseWriteEntry.row ⟨demoId.text, "ann@x.io", 1⟩] ≠
        .error outsideSaleWindow := by
  have hin : (reservePurchase (reserveAll (syncSale (fun _ => .none)
      (PgSale.toRow ⟨demoId, 5, 5, 500, 1000000, none⟩).toSync []) []).2 demoId.text "ann@x.io" 1).1.inWindow := by
    constructor <;> decide +kernel
  exact ⟨hin, (inWindow_accepted_iff oddDb_schema (s := ⟨demoId, 5, 5, 500, 1000000, none⟩) (by simp [oddDb])
    (fun _ => .none) [] [] "ann@x.io" 1).2 (by decide) hin⟩

/-- At that first millisecond the gate reserves, and the trigger rejects the
whole batch the reservation is in, Bob's purchase included. -/
theorem inWindow_rejected :
    oddDb.Schema ∧
    (reservePurchase (syncSale (fun _ => .none) (PgSale.toRow ⟨demoId, 5, 5, 500, 1000000, none⟩).toSync [])
      demoId.text "ann@x.io" 0).1 = .reserved ∧
    insertOnConflictDoNothing oddDb [PurchaseWriteEntry.row ⟨demoId.text, "ann@x.io", 0⟩] =
      .error outsideSaleWindow ∧
    (writePurchaseBatch .runs [⟨demoId.text, "ann@x.io", 0⟩, ⟨demoId.text, "bob@x.io", 500⟩] oddDb).1 =
      .error outsideSaleWindow := by
  refine ⟨oddDb_schema, by decide +kernel, ?_, by decide +kernel⟩
  exact (insert_outside_iff _ _).2 (by decide +kernel)

/-- Whatever a batch holds, the trigger does not reject it for an entry the
gate let in and recorded at any other instant. -/
theorem batch_inWindow {db : Db} (hs : db.Schema) {entries : List PurchaseWriteEntry}
    (h : ∀ e ∈ entries, ∃ s ∈ db.sales, s.id.text = e.saleId ∧
      (s.startsAt % 1000 = 0 ∨ e.reservedAt ≠ s.startsAt / 1000) ∧
      ∃ redis buyers attempts, (reservePurchase (reserveAll (syncSale redis s.toRow.toSync buyers) attempts).2
        s.id.text e.email e.reservedAt).1.inWindow) :
    (writePurchaseBatch .runs entries db).1 ≠ .error outsideSaleWindow := by
  have hin : (entries.map (·.row)).any (outsideSalePeriod db) = false := by
    rw [List.any_eq_false]
    intro row hrow
    obtain ⟨e, he, rfl⟩ := List.mem_map.1 hrow
    obtain ⟨s, hm, hid, hms, redis, buyers, attempts, hpass⟩ := h e he
    obtain ⟨-, hfrom, hto⟩ := (inWindow_iff s redis buyers attempts e.email e.reservedAt).1 hpass
    have hout := outside_of_mem hs hm e.email e.reservedAt
    rw [hid] at hout
    rw [hout]
    omega
  intro herr
  have := writePurchaseBatch_outside hs herr
  rw [hin] at this
  cases this

end FlashSale
