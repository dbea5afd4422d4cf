import EventScript.Main
import EventScript.Decimal.Fixed
import EventScript.Document.Writer
import EventScript.Proofs.Bounds
import EventScript.Proofs.Skip
import EventScript.Proofs.Limit
import EventScript.Proofs.Queue
import EventScript.Proofs.Quota
import EventScript.Proofs.Agreement
import EventScript.Proofs.Printing
import EventScript.Proofs.Sequence
import EventScript.Proofs.Roundtrip
import EventScript.Proofs.Summary
import EventScript.Proofs.Chronicle
import EventScript.Proofs.History
import EventScript.Proofs.Liveness
import EventScript.Proofs.Certain
import EventScript.Proofs.Jump
import EventScript.Proofs.Rest
import EventScript.Proofs.Wording
import EventScript.Proofs.Members
import EventScript.Proofs.Circle
import EventScript.Proofs.Tally
import EventScript.Proofs.Telling
import EventScript.Proofs.Branching
import EventScript.Proofs.Expression
import EventScript.Proofs.Quotation
import EventScript.Proofs.Descent
import EventScript.Proofs.Guard
import EventScript.Proofs.Address
import EventScript.Proofs.Share
import EventScript.Proofs.Casting
import EventScript.Proofs.Merging
import EventScript.Proofs.Answering
import EventScript.Proofs.Digits
import EventScript.Proofs.Dates
import EventScript.Proofs.Parts
import EventScript.Proofs.Wrapping
import EventScript.Proofs.Showing
