import RegisteredHeap.Address
import RegisteredHeap.Backing
import RegisteredHeap.Bisect
import RegisteredHeap.Block
import RegisteredHeap.Config
import RegisteredHeap.Contents
import RegisteredHeap.DefaultHeap
import RegisteredHeap.Description
import RegisteredHeap.Device
import RegisteredHeap.Element
import RegisteredHeap.Error
import RegisteredHeap.Heap
import RegisteredHeap.IdList
import RegisteredHeap.Layout
import RegisteredHeap.Memory
import RegisteredHeap.Numa
import RegisteredHeap.Override
import RegisteredHeap.Owner
import RegisteredHeap.Pool
import RegisteredHeap.Registrar
import RegisteredHeap.Segment
import RegisteredHeap.Session.Basic
import RegisteredHeap.Session.Devices
import RegisteredHeap.Session.Group
import RegisteredHeap.Session.Nodes
import RegisteredHeap.Session.Registrations
import RegisteredHeap.Session.Run
import RegisteredHeap.Session.Slots
import RegisteredHeap.Settings
import RegisteredHeap.SettingsFile
import RegisteredHeap.SizeClass
import RegisteredHeap.Stats
import RegisteredHeap.Text.Blank
import RegisteredHeap.Text.CaseIgnorable
import RegisteredHeap.Text.Cased
import RegisteredHeap.Text.Hidden
import RegisteredHeap.Text.LowerCase
import RegisteredHeap.Text.Numeral
import RegisteredHeap.Text.Quoted
import RegisteredHeap.Text.Ranges
import RegisteredHeap.Text.Record
import RegisteredHeap.Toml.Document
import RegisteredHeap.Toml.Expression
import RegisteredHeap.Toml.Layout
import RegisteredHeap.Toml.Moment
import RegisteredHeap.Toml.Number
import RegisteredHeap.Toml.Quote
import RegisteredHeap.Toml.Reader
import RegisteredHeap.Toml.Tree
import RegisteredHeap.Toml.Value
import RegisteredHeap.Word
import RegisteredHeap.Proofs.Inventory
import RegisteredHeap.Proofs.Holding
import RegisteredHeap.Proofs.Slicing
import RegisteredHeap.Proofs.Growth
import RegisteredHeap.Proofs.Balance
import RegisteredHeap.Proofs.Circulation
import RegisteredHeap.Proofs.Geometry
import RegisteredHeap.Proofs.Routing
import RegisteredHeap.Proofs.Requests
import RegisteredHeap.Proofs.Ledger
import RegisteredHeap.Proofs.Calls
import RegisteredHeap.Proofs.Tenancy
import RegisteredHeap.Proofs.Survey
import RegisteredHeap.Proofs.Conservation
import RegisteredHeap.Proofs.Coverage
import RegisteredHeap.Proofs.Accounting
import RegisteredHeap.Proofs.Release
import RegisteredHeap.Proofs.Sizing
import RegisteredHeap.Proofs.Reach
import RegisteredHeap.Proofs.Saturation
import RegisteredHeap.Proofs.Peak
import RegisteredHeap.Proofs.Fixtures
import RegisteredHeap.Proofs.Rollback
import RegisteredHeap.Proofs.Refusal
import RegisteredHeap.Proofs.Demands
import RegisteredHeap.Proofs.Turns
import RegisteredHeap.Proofs.Alignment
import RegisteredHeap.Proofs.Isolation
import RegisteredHeap.Proofs.Tally
import RegisteredHeap.Proofs.Notes
import RegisteredHeap.Proofs.Acceptance
import RegisteredHeap.Proofs.Recycling
import RegisteredHeap.Proofs.Reordering
import RegisteredHeap.Proofs.Endings
import RegisteredHeap.Proofs.Erasure
import RegisteredHeap.Proofs.Precedence
import RegisteredHeap.Proofs.Overflow
import RegisteredHeap.Proofs.ClassTables
import RegisteredHeap.Proofs.HugeClasses
import RegisteredHeap.Proofs.Resemblance
import RegisteredHeap.Proofs.Unseen
import RegisteredHeap.Proofs.Numerals
import RegisteredHeap.Proofs.Overrides
import RegisteredHeap.Proofs.Readers
import RegisteredHeap.Proofs.PlainDocuments
import RegisteredHeap.Proofs.SettingsFiles
import RegisteredHeap.Proofs.Custody
import RegisteredHeap.Proofs.Lifetimes
import RegisteredHeap.Proofs.Occasions
import RegisteredHeap.Proofs.IdLists
import RegisteredHeap.Proofs.Admissions
import RegisteredHeap.Proofs.Emulation
import RegisteredHeap.Proofs.FirstUse
import RegisteredHeap.Proofs.Rounds
import RegisteredHeap.Proofs.Deferral
import RegisteredHeap.Proofs.Pages
