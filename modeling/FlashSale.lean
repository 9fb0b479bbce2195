import FlashSale.Transactions
import FlashSale.Redis
import FlashSale.Oversell
import FlashSale.Backlog
import FlashSale.Outage
import FlashSale.Spelling
import FlashSale.Lib.Escrow
import FlashSale.Broker
import FlashSale.Alone
import FlashSale.Batches
import FlashSale.Reservations
import FlashSale.Window
import FlashSale.Flush
import FlashSale.Usable
import FlashSale.Malformed
import FlashSale.Listing
import FlashSale.Lookups
import FlashSale.Closing
import FlashSale.Publish
import FlashSale.Barrier
import FlashSale.AtRest
import FlashSale.Cleanup
import FlashSale.Countdown
import FlashSale.WorkerMain
import FlashSale.PurchasePanel
import FlashSale.LoadStages
import FlashSale.Herd
import FlashSale.Metrics
import FlashSale.PostgresOnly
import FlashSale.Staleness
import FlashSale.Recovery
import FlashSale.Orders
import FlashSale.Tickets
import FlashSale.Envelope
import FlashSale.AsyncData
