import ZioControl.Block.Acceptance
import ZioControl.Block.Summary
import ZioControl.Codec
import ZioControl.Counter
import ZioControl.Description
import ZioControl.Dialogue.Interleaving
import ZioControl.Form
import ZioControl.Layout.Lemmas
import ZioControl.Main
import ZioControl.Monitor.Schedule
import ZioControl.Program
import ZioControl.Proofs.Cells
import ZioControl.Proofs.Names
import ZioControl.Proofs.Slots
import ZioControl.Session
import ZioControl.Source
import ZioControl.Text.Fixed
import ZioControl.Text.Lines
import ZioControl.Word.Lemmas
import ZioControl.Proofs.Records
import ZioControl.Proofs.NormalForm
import ZioControl.Proofs.Edits
import ZioControl.Proofs.Numerals
import ZioControl.Proofs.Simulation
import ZioControl.Proofs.Samples
import ZioControl.Proofs.Files
import ZioControl.Proofs.Runs
import ZioControl.Proofs.Acceptance
import ZioControl.Proofs.Apply
import ZioControl.Proofs.Sharing
import ZioControl.Proofs.SetCommand
import ZioControl.Proofs.Ordinary
import ZioControl.Proofs.SlotMaps
import ZioControl.Proofs.Following
import ZioControl.Proofs.Schedules
import ZioControl.Proofs.Table
import ZioControl.Proofs.Mirror
import ZioControl.Proofs.FormRoundTrip
import ZioControl.Proofs.Padding
import ZioControl.Proofs.TypedNames
import ZioControl.Proofs.Locality
import ZioControl.Proofs.DryRun
import ZioControl.Proofs.Losses
import ZioControl.Proofs.Pieces
import ZioControl.Proofs.Resolution
import ZioControl.Proofs.Reach
import ZioControl.Proofs.Dictionary
import ZioControl.Proofs.Order
import ZioControl.Proofs.Blanked
import ZioControl.Proofs.Reentry
import ZioControl.Proofs.Syncing
import ZioControl.Proofs.Limit
import ZioControl.Proofs.Lines
import ZioControl.Proofs.Described
import ZioControl.Proofs.Targets
import ZioControl.Proofs.Languages
import ZioControl.Proofs.Counting
import ZioControl.Proofs.Spaced
import ZioControl.Proofs.AttributeLines
import ZioControl.Proofs.Parting
import ZioControl.Proofs.Summaries
import ZioControl.Proofs.SlotNames
