import Qusb.Proto.Msg

/-! The errors of a transfer: those that end the session and those that are reported to the borrower's
driver in the reply. -/

namespace Qusb.Proto

open Msg

/-- Errors after which the session is over. -/
inductive AbortableError where
  | invalidData
  | deviceDisconnected
  | proto
  | oops
  | other
  deriving DecidableEq, Repr

def AbortableError.asProto : AbortableError → Status
  | .invalidData => .proto
  | .deviceDisconnected => .noDev
  | .proto => .devErr
  | .oops => .failed
  | .other => .unexpected

/-- Errors that are reported to the driver. -/
inductive ReportableError where
  | timedOut
  | cancelled
  | stall
  | overflow
  | notEnoughBandwidth
  deriving DecidableEq, Repr

def ReportableError.toStatus : ReportableError → TransferStatus
  | .timedOut => .timedOut
  | .cancelled => .cancelled
  | .stall => .stall
  | .overflow => .overflow
  | .notEnoughBandwidth => .notEnoughBandwidth

theorem ReportableError.toStatus_ne_pending (err : ReportableError) : err.toStatus ≠ .pending := by
  cases err <;> decide

inductive TransferError where
  | reportable (err : ReportableError)
  | abortable (err : AbortableError)
  deriving DecidableEq, Repr

abbrev Seqnum := UInt32

/-- Data with the sequence number of the frame it belongs to. -/
structure Seq (α : Type) where
  seqnum : Seqnum
  data : α

end Qusb.Proto
