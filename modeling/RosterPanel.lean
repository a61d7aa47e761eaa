import RosterPanel.App.Gesture
import RosterPanel.Dispatch
import RosterPanel.Drag
import RosterPanel.Endpoint
import RosterPanel.Frame
import RosterPanel.Network
import RosterPanel.Outlet
import RosterPanel.Panel
import RosterPanel.View.Notice
import RosterPanel.Proofs.Addressing
import RosterPanel.Proofs.AppRun
import RosterPanel.Proofs.Areas
import RosterPanel.Proofs.Backoff
import RosterPanel.Proofs.CallStack
import RosterPanel.Proofs.Coherence
import RosterPanel.Proofs.Decoration
import RosterPanel.Proofs.Deleting
import RosterPanel.Proofs.Displaying
import RosterPanel.Proofs.Dropping
import RosterPanel.Proofs.Editing
import RosterPanel.Proofs.InStep
import RosterPanel.Proofs.LatchHistory
import RosterPanel.Proofs.LatchRefusal
import RosterPanel.Proofs.LatchRelease
import RosterPanel.Proofs.LinkDelays
import RosterPanel.Proofs.LinkSteady
import RosterPanel.Proofs.LinkStranded
import RosterPanel.Proofs.Membership
import RosterPanel.Proofs.Naming
import RosterPanel.Proofs.PageInSync
import RosterPanel.Proofs.PageMirror
import RosterPanel.Proofs.PropertyTable
import RosterPanel.Proofs.Reconnecting
import RosterPanel.Proofs.Redelivery
import RosterPanel.Proofs.Relaying
import RosterPanel.Proofs.Relisting
import RosterPanel.Proofs.RepeatedDrawing
import RosterPanel.Proofs.RoundTrip
import RosterPanel.Proofs.Separation
import RosterPanel.Proofs.SlotHistory
import RosterPanel.Proofs.Updating
