import AccelControl.Config.Load
import AccelControl.Proofs.Config.Address
import AccelControl.Proofs.Config.Agreement
import AccelControl.Proofs.Config.Saving
import AccelControl.Proofs.Deprecation.Repetition
import AccelControl.Proofs.Json.Conservation
import AccelControl.Proofs.Json.Listed
import AccelControl.Proofs.Json.Rejection
import AccelControl.Proofs.Json.Written
import AccelControl.Proofs.Rpc.Abandonment
import AccelControl.Proofs.Rpc.Caller
import AccelControl.Proofs.Rpc.Causality
import AccelControl.Proofs.Rpc.Classification
import AccelControl.Proofs.Rpc.Connect
import AccelControl.Proofs.Rpc.Pairing
import AccelControl.Proofs.Rpc.ReadBack
import AccelControl.Proofs.Rpc.Reassembly
import AccelControl.Proofs.Rpc.Responder
import AccelControl.Proofs.Rpc.Sending
import AccelControl.Proofs.Scan.Agreement
import AccelControl.Proofs.Scan.Distinction
import AccelControl.Proofs.Scan.Grammar
import AccelControl.Proofs.Scan.Notice
import AccelControl.Proofs.Scan.Presence
import AccelControl.Proofs.Scan.Saving
import AccelControl.Proofs.Scan.Setting
import AccelControl.Proofs.Scan.Verbatim
import AccelControl.Proofs.Schema.Agreement
import AccelControl.Proofs.Schema.Direct
import AccelControl.Proofs.Schema.Scalar
import AccelControl.Rehearsal.Session
import AccelControl.Rpc.Recorder
import AccelControl.Text.Utf8.RoundTrip
