import PageWidgets.Consent.Visit
import PageWidgets.Listbox.Identifier
import PageWidgets.Main
import PageWidgets.Page.Snapshot
import PageWidgets.Proofs.Consent.AskedOnce
import PageWidgets.Proofs.Consent.Attributes
import PageWidgets.Proofs.Consent.Naming
import PageWidgets.Proofs.Consent.Rounds
import PageWidgets.Proofs.Consent.Stores
import PageWidgets.Proofs.Listbox.Announcements
import PageWidgets.Proofs.Listbox.Cycle
import PageWidgets.Proofs.Listbox.Focus
import PageWidgets.Proofs.Listbox.Identifier
import PageWidgets.Proofs.Listbox.Keyboard
import PageWidgets.Proofs.Listbox.Panel
import PageWidgets.Proofs.SettingsDocument
import PageWidgets.Proofs.Tester.Checks
import PageWidgets.Proofs.Tester.Expansion
import PageWidgets.Proofs.Tester.PageState
import PageWidgets.Proofs.Tester.ReportReadBack
import PageWidgets.Proofs.Tester.ReportReading
import PageWidgets.Proofs.Tester.Waiting
import PageWidgets.Proofs.Widget.Expiry
import PageWidgets.Proofs.Widget.FailedEnhancement
import PageWidgets.Proofs.Widget.Neighbours
import PageWidgets.Proofs.Widget.OverlayAgrees
import PageWidgets.Proofs.Widget.Projection
import PageWidgets.Proofs.Widget.Saving
import PageWidgets.Proofs.Widget.SelectReentry
import PageWidgets.Proofs.Widget.WiringUp
import PageWidgets.Widget.Visitor
