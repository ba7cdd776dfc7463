import KeyPool.Bytes
import KeyPool.Certificate.Basic
import KeyPool.Certificate.Chain
import KeyPool.Certificate.Labels
import KeyPool.Certificate.Name
import KeyPool.Certificate.NameText
import KeyPool.Certificate.Signature
import KeyPool.Certificate.Validity
import KeyPool.Console.Arguments
import KeyPool.Console.Quoted
import KeyPool.Console.Report
import KeyPool.Console.Run
import KeyPool.Console.Styled
import KeyPool.Console.Unseen
import KeyPool.Crash
import KeyPool.Crypto.Ecdsa
import KeyPool.Crypto.Ed25519
import KeyPool.Crypto.PrimeField
import KeyPool.Crypto.Sha256
import KeyPool.Crypto.Sha512
import KeyPool.Crypto.Weierstrass
import KeyPool.Decimal
import KeyPool.Der.Element
import KeyPool.Der.Value
import KeyPool.Json.Document
import KeyPool.Json.Format
import KeyPool.Json.Records
import KeyPool.Json.Text
import KeyPool.Main
import KeyPool.Number.Binary64
import KeyPool.Number.Shortest
import KeyPool.Proofs.Certificate.Chains
import KeyPool.Proofs.Certificate.Fields
import KeyPool.Proofs.Certificate.Links
import KeyPool.Proofs.Certificate.NameTexts
import KeyPool.Proofs.Certificate.Names
import KeyPool.Proofs.Certificate.Plain
import KeyPool.Proofs.Certificate.Roots
import KeyPool.Proofs.Certificate.Splitting
import KeyPool.Proofs.Certificate.Times
import KeyPool.Proofs.Certificate.Written
import KeyPool.Proofs.Console.Status
import KeyPool.Proofs.Decimal
import KeyPool.Proofs.Der.Parts
import KeyPool.Proofs.Der.Reading
import KeyPool.Proofs.Der.Values
import KeyPool.Proofs.Hexadecimal
import KeyPool.Proofs.Json.Formats
import KeyPool.Proofs.Json.Reading
import KeyPool.Proofs.Json.RoundTrip
import KeyPool.Proofs.Provisioning.Accounting
import KeyPool.Proofs.Provisioning.Batching
import KeyPool.Proofs.Provisioning.Course
import KeyPool.Proofs.Provisioning.Crashing
import KeyPool.Proofs.Provisioning.Cycling
import KeyPool.Proofs.Provisioning.Exchange
import KeyPool.Proofs.Provisioning.Filling
import KeyPool.Proofs.Provisioning.Frame
import KeyPool.Proofs.Provisioning.Independence
import KeyPool.Proofs.Provisioning.Matching
import KeyPool.Proofs.Provisioning.Mirror
import KeyPool.Proofs.Provisioning.Origin
import KeyPool.Proofs.Provisioning.Reporting
import KeyPool.Proofs.Provisioning.Settling
import KeyPool.Proofs.Provisioning.Sizes
import KeyPool.Proofs.Results
import KeyPool.Proofs.Store.Admission
import KeyPool.Proofs.Store.Binding
import KeyPool.Proofs.Store.Call
import KeyPool.Proofs.Store.Draining
import KeyPool.Proofs.Store.Expiry
import KeyPool.Proofs.Store.Handout
import KeyPool.Proofs.Store.History
import KeyPool.Proofs.Store.Holding
import KeyPool.Proofs.Store.Purge
import KeyPool.Proofs.Store.Reading
import KeyPool.Proofs.Store.Refusal
import KeyPool.Proofs.Store.Restoring
import KeyPool.Proofs.Store.Rows
import KeyPool.Proofs.Store.Skipping
import KeyPool.Proofs.Store.Times
import KeyPool.Proofs.Time.Calendar
import KeyPool.Proofs.Time.Millis
import KeyPool.Proofs.Time.Texts
import KeyPool.Provisioning.Assigner
import KeyPool.Provisioning.Attempt
import KeyPool.Provisioning.Batch
import KeyPool.Provisioning.Cycle
import KeyPool.Provisioning.Error
import KeyPool.Provisioning.Event
import KeyPool.Provisioning.Geek
import KeyPool.Provisioning.Policy
import KeyPool.Provisioning.Provision
import KeyPool.Provisioning.Service
import KeyPool.Rehearsal.Authority
import KeyPool.Rehearsal.Fault
import KeyPool.Rehearsal.KeyPair
import KeyPool.Rehearsal.Laboratory
import KeyPool.Rehearsal.Script
import KeyPool.Rehearsal.Session
import KeyPool.Settings.Basic
import KeyPool.Settings.Document
import KeyPool.Settings.KeyPath
import KeyPool.Settings.Merge
import KeyPool.Store.Address
import KeyPool.Store.Cell
import KeyPool.Store.Database
import KeyPool.Store.Disk
import KeyPool.Store.Error
import KeyPool.Store.Key
import KeyPool.Store.Opening
import KeyPool.Store.Operation
import KeyPool.Store.Path
import KeyPool.Store.PoolStatus
import KeyPool.Store.Snapshot
import KeyPool.Time.Calendar
import KeyPool.Time.Text
import KeyPool.Time.Timestamp
import KeyPool.Toml.Document
import KeyPool.Toml.Lexical
import KeyPool.Toml.Scalar
import KeyPool.Toml.Table
import KeyPool.Utf8
