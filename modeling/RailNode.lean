import RailNode.Device
import RailNode.Node.Application
import RailNode.Node.Ticker
import RailNode.Proofs.Configuration.Parts
import RailNode.Proofs.Configuration.Setters
import RailNode.Proofs.Configuration.Index
import RailNode.Proofs.Configuration.Edits
import RailNode.Proofs.Service.Edits
import RailNode.Proofs.Service.MinimumNode
import RailNode.Proofs.Service.Teaching
import RailNode.Proofs.Node.Cycle
import RailNode.Proofs.Configuration.Start
import RailNode.Proofs.Device.Run
import RailNode.Proofs.Device.EventIndex
import RailNode.Proofs.Configuration.Table
import RailNode.Proofs.Service.Learning
import RailNode.Proofs.Service.Safety
import RailNode.Proofs.Node.Visit
import RailNode.Proofs.Device.LearnedEvents
import RailNode.Proofs.Service.Standing
import RailNode.Proofs.Device.Identity
import RailNode.Proofs.Device.Restart
import RailNode.Proofs.Service.LongMessage.Visits
import RailNode.Proofs.Service.LongMessage.RoundTrip
import RailNode.Proofs.Service.LongMessage.Headers
import RailNode.Proofs.Layout.Cells
import RailNode.Proofs.Configuration.Items
import RailNode.Proofs.Configuration.Assignments
import RailNode.Proofs.Configuration.Capacity
import RailNode.Proofs.Checked.Basic
import RailNode.Proofs.Checked.Configuration
import RailNode.Proofs.Checked.EventTable
import RailNode.Proofs.Checked.Start
import RailNode.Proofs.Checked.Turn
import RailNode.Proofs.Checked.VariableAccess
import RailNode.Proofs.Checked.Events
import RailNode.Proofs.Checked.Teaching
import RailNode.Proofs.Checked.BusAccess
import RailNode.Proofs.Checked.MinimumNode
import RailNode.Proofs.Checked.LongMessage.Reception
import RailNode.Proofs.Checked.LongMessage.Transmission
import RailNode.Proofs.Checked.LongMessage
import RailNode.Proofs.Checked.Service
import RailNode.Proofs.Checked.Node
import RailNode.Proofs.Checked.Device
import RailNode.Proofs.Backlog
import RailNode.Proofs.Service.Queueing
import RailNode.Proofs.Node.Queue
import RailNode.Proofs.Node.Life
import RailNode.Proofs.Service.BusAccess
import RailNode.Proofs.Node.AddressSearch
import RailNode.Proofs.Node.AddressConflicts
import RailNode.Proofs.Node.MessageOrder
import RailNode.Proofs.Pacing
import RailNode.Proofs.Service.Listings.MinimumNode
import RailNode.Proofs.Service.Listings.VariableAccess
import RailNode.Proofs.Service.Listings.Teaching
import RailNode.Proofs.Service.Listings.Reporter
import RailNode.Proofs.Service.LongAnswers
import RailNode.Proofs.Node.Speakers
import RailNode.Proofs.Service.WellFormed
import RailNode.Proofs.Node.Silence
import RailNode.Proofs.Node.LongAnswers
import RailNode.Proofs.Configuration.FactoryReset
import RailNode.Proofs.Device.FactoryReset
import RailNode.Proofs.Service.LongMessage.Losses
import RailNode.Proofs.Service.LearnMode
import RailNode.Proofs.Service.Quiet
import RailNode.Proofs.Device.Quiet
import RailNode.Proofs.Service.Refusals.Basic
import RailNode.Proofs.Service.Refusals.Services
import RailNode.Proofs.Service.Refusals
import RailNode.Proofs.Node.Refusals
import RailNode.Proofs.Recognition
import RailNode.Proofs.Node.Production
import RailNode.Proofs.Service.Notices
import RailNode.Proofs.Node.Releases
import RailNode.Proofs.Service.AddressAnswers
import RailNode.Proofs.Node.BusAddresses
import RailNode.Proofs.Node.Learners
import RailNode.Proofs.Configuration.Reopening
import RailNode.Proofs.Service.LearnScope
import RailNode.Proofs.Device.LearnScope
import RailNode.Proofs.Node.Stops
import RailNode.Proofs.Device.WellFormed
import RailNode.Proofs.Service.Addressing
import RailNode.Proofs.Node.Addressing
import RailNode.Proofs.Device.Addressing
import RailNode.Proofs.Sweep
import RailNode.Proofs.Node.EventListing
import RailNode.Proofs.Service.Reports
import RailNode.Proofs.Device.Reports
import RailNode.Proofs.Service.Lessons
import RailNode.Proofs.Device.Lessons
import RailNode.Proofs.Service.Consumption
import RailNode.Proofs.Node.Consumption
import RailNode.Proofs.Service.Negotiation
import RailNode.Proofs.Node.MinimumNode
import RailNode.Proofs.Node.Negotiation
import RailNode.Proofs.Service.Heartbeat
import RailNode.Proofs.Node.Heartbeat
import RailNode.Proofs.Service.LongMessage.Fragments
import RailNode.Proofs.Service.LongMessage.Uses
import RailNode.Proofs.Service.LongMessage.Transmission
import RailNode.Proofs.Service.Diagnostics
import RailNode.Proofs.Node.Diagnostics
import RailNode.Proofs.Backlog.History
import RailNode.Proofs.Service.Indications
import RailNode.Proofs.Node.Indications
import RailNode.Proofs.Configuration.Transfer
import RailNode.Proofs.Service.Transfer
import RailNode.Proofs.Node.Transfer
import RailNode.Proofs.Device.Transfer
