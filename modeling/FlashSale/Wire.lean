import FlashSale.Lib.Json
import FlashSale.Lib.Parts
import FlashSale.Writers
import FlashSale.Drain
import FlashSale.Listing
import FlashSale.AsyncData
/-!
# What goes over the wire

The message `publishPurchaseWrite` queues and the drain loop reads
(packages/queue/src). `JSON.parse` is followed by a cast in the source; here the
cast reads the fields, and a value without them is nothing.
-/

namespace FlashSale
open Lib.Json Lib.Parts

/-! ## Purchase messages -/

/-- The object `PurchasesService.purchase` publishes, its keys in that order. -/
def PurchaseWriteEntry.toJson (m : PurchaseWriteEntry) : Value :=
  .obj [("saleId", .str m.saleId), ("email", .str m.email), ("reservedAt", .num m.reservedAt)]

def PurchaseWriteEntry.ofJson (x : Value) : Option PurchaseWriteEntry := do
  let saleId ← x.getStr "saleId"
  let email ← x.getStr "email"
  let reservedAt ← x.getInt "reservedAt"
  some ⟨saleId, email, reservedAt⟩

/-- The content `publishPurchaseWrite` gives a message, as text. -/
def PurchaseWriteEntry.content (m : PurchaseWriteEntry) : String := print m.toJson

/-- How `flush` reads a message. An object without these fields is nothing here;
the source would cast it and go on. -/
def parsePurchaseWrite (content : String) : Option PurchaseWriteEntry := (parse content).bind PurchaseWriteEntry.ofJson

def drainPurchaseWrites (batchSize maxAttempts : Nat) : DrainOptions String PurchaseWriteEntry :=
  ⟨parsePurchaseWrite, batchSize, maxAttempts⟩

/-- A worker reads what was published. -/
theorem parsePurchaseWrite_content (m : PurchaseWriteEntry) : parsePurchaseWrite m.content = some m := by
  rw [parsePurchaseWrite, PurchaseWriteEntry.content, parse_print]
  rfl

theorem drainPurchaseWrites_parse (batchSize maxAttempts : Nat) (m : PurchaseWriteEntry) :
    (drainPurchaseWrites batchSize maxAttempts).parse m.content = some m := by
  simp only [drainPurchaseWrites, parsePurchaseWrite_content]

end FlashSale
