import CaseCellShop.Library.Steps
import CaseCellShop.Library.Table
import CaseCellShop.Library.PrefixCode
import CaseCellShop.Library.Protocol
import CaseCellShop.Platform.Json
import CaseCellShop.Platform.Number
import CaseCellShop.Platform.Numeral
import CaseCellShop.Platform.Rounding
import CaseCellShop.Platform.Text
import CaseCellShop.Library.Script
import CaseCellShop.Store.Schema
import CaseCellShop.Checkout.Request
import CaseCellShop.Checkout.Transaction
import CaseCellShop.Checkout.Body
import CaseCellShop.Checkout.Effects
import CaseCellShop.Checkout.Service
import CaseCellShop.Library.Program
import CaseCellShop.Library.Interleave
import CaseCellShop.Catalog.Sync
import CaseCellShop.Library.ThrowingSort
import CaseCellShop.Library.StableSort
import CaseCellShop.Library.Pages
import CaseCellShop.Library.UniqueColumn
import CaseCellShop.Catalog.Convergence
import CaseCellShop.Library.Shuffle
import CaseCellShop.Catalog.Admission
import CaseCellShop.Catalog.Concurrency
import CaseCellShop.Catalog.Mirror
import CaseCellShop.Store.Updates
import CaseCellShop.Erp.Service
import CaseCellShop.Erp.Catalog
import CaseCellShop.Queue.Broker
import CaseCellShop.Queue.Channel
import CaseCellShop.Queue.SingleChannel
import CaseCellShop.Shop.Calls
import CaseCellShop.Workers.Billing
import CaseCellShop.Workers.Consumer
import CaseCellShop.Workers.Startup
import CaseCellShop.Workers.Outbox
import CaseCellShop.Workers.Reconciliation
import CaseCellShop.Workers.Correlation
import CaseCellShop.Observability.Context
import CaseCellShop.Observability.Trace
import CaseCellShop.Observability.OrderId
import CaseCellShop.Observability.Spans
import CaseCellShop.Shop.System
import CaseCellShop.Library.Correspondence
import CaseCellShop.Library.Locking
import CaseCellShop.Checkout.Locks
import CaseCellShop.Products.Query
import CaseCellShop.Products.Fetch
import CaseCellShop.Products.Pages
import CaseCellShop.Products.CacheKeys
import CaseCellShop.Products.Calls
import CaseCellShop.Products.Service
import CaseCellShop.Storefront.DeviceFilter
import CaseCellShop.Storefront.FailedSync
import CaseCellShop.Storefront.Freshness
import CaseCellShop.Storefront.Leases
import CaseCellShop.Storefront.Ownership
import CaseCellShop.Storefront.System
import CaseCellShop.Storefront.Availability
import CaseCellShop.Checkout.Pricing
import CaseCellShop.Checkout.Failures
import CaseCellShop.Checkout.Isolation
import CaseCellShop.Shop.Book
import CaseCellShop.Shop.Ledger
import CaseCellShop.Shop.Replay
import CaseCellShop.Shop.Receipts
import CaseCellShop.Shop.Billed
import CaseCellShop.Shop.Delivery
import CaseCellShop.Shop.OutboxStatus
import CaseCellShop.Shop.Attempts
import CaseCellShop.Shop.Stock
import CaseCellShop.Shop.OneKey
import CaseCellShop.Shop.Sequential
import CaseCellShop.Shop.Convergence
import CaseCellShop.Shop.Repair
import CaseCellShop.Checkout.Faults
import CaseCellShop.Checkout.Acceptance
import CaseCellShop.Checkout.Parts
import CaseCellShop.Checkout.Accounting
import CaseCellShop.Checkout.Range
import CaseCellShop.Checkout.Canonical
import CaseCellShop.Storefront.Atomicity
import CaseCellShop.Storefront.Hydration
import CaseCellShop.Library.Refinement
import CaseCellShop.Platform.JsonText
import CaseCellShop.Workers.Wire
import CaseCellShop.Shop.Wire
import CaseCellShop.Products.Cache
import CaseCellShop.Storefront.Entries
import CaseCellShop.Library.Alone
import CaseCellShop.Shop.Cycles
import CaseCellShop.Shop.Recovery
import CaseCellShop.Shop.Stranded
import CaseCellShop.Shop.Healthy
import CaseCellShop.Library.References
import CaseCellShop.Shop.References
import CaseCellShop.Shop.Lookups
import CaseCellShop.Shop.Restarts
