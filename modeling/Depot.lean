import Depot.Main
import Depot.Listing.Inquiry
import Depot.Proofs.Listing.Retries
import Depot.Memory.Basic
import Depot.Proofs.Config.Roots
import Depot.Proofs.Lookup
import Depot.Proofs.Pool.Close
import Depot.Proofs.Pool.Slots
import Depot.Scripted
import Depot.Storage.History
import Depot.Proofs.Storage.Turn
import Depot.Proofs.Pool.Parties
import Depot.Proofs.Storage.Parties
import Depot.Proofs.Storage.Serves
import Depot.Proofs.Storage.Calls
import Depot.Proofs.Storage.Clients
import Depot.Proofs.Memory
import Depot.Proofs.Storage.Effects
import Depot.Proofs.Stream
import Depot.Proofs.Pool.Single
import Depot.Proofs.Reference
import Depot.Proofs.Storage.Refines
import Depot.Memory.Paging
import Depot.Proofs.Listing.Items
import Depot.Proofs.Key.Bytes
import Depot.Proofs.Listing.Pages
import Depot.Proofs.Listing.Tree
import Depot.Proofs.Storage.Traversal
import Depot.Storage.Shared
import Depot.Proofs.Storage.Shared
import Depot.Proofs.Storage.Origin
import Depot.Proofs.Pool.Accounts
import Depot.Proofs.Storage.Owners
import Depot.Proofs.Storage.Accounts
import Depot.Proofs.Storage.Close
import Depot.Proofs.Storage.Walking
import Depot.Proofs.S3.Listing
import Depot.Proofs.S3.Walk
import Depot.Proofs.S3.Errors
import Depot.Proofs.S3.Truncation
import Depot.Proofs.Storage.Addresses
import Depot.Proofs.Pool.Live
import Depot.Proofs.Pool.Abandoned
import Depot.Proofs.Entry
import Depot.Proofs.Console.Document
import Depot.Proofs.Pool.Deadline
import Depot.Proofs.Storage.Undisturbed
import Depot.Storage.Uploads
import Depot.S3.Sent
import Depot.Proofs.Storage.Gathering
import Depot.Proofs.Storage.Ends
import Depot.Proofs.Storage.Uploads
import Depot.Proofs.Storage.Outcome
import Depot.Proofs.S3.Uploads
import Depot.Memory.Changes
import Depot.Memory.Writing
import Depot.Proofs.Memory.Writing
import Depot.Proofs.Listing.Changes
import Depot.Entry.Shallow
import Depot.Proofs.Storage.Shallow
import Depot.Storage.Walks
import Depot.Proofs.Storage.Inquiries
import Depot.Proofs.Storage.Names
import Depot.Proofs.Storage.Prompt
import Depot.Proofs.Key.Laws
import Depot.Proofs.Text.Base64
import Depot.Proofs.Text.Percent
import Depot.Proofs.S3.CopySource
import Depot.Proofs.Config.Credentials
import Depot.Proofs.Console.Totals
