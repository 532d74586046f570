import Zynax.Golang.Strings

namespace Zynax.Golang.Grpc

open Golang

/-!
# gRPC statuses
-/

inductive Code where
  | ok | canceled | unknown | invalidArgument | deadlineExceeded | notFound | alreadyExists
  | permissionDenied | resourceExhausted | failedPrecondition | aborted | outOfRange
  | unimplemented | internal | unavailable | dataLoss | unauthenticated
  deriving DecidableEq, Repr

def Code.name : Code → String
  | .ok => "OK"
  | .canceled => "Canceled"
  | .unknown => "Unknown"
  | .invalidArgument => "InvalidArgument"
  | .deadlineExceeded => "DeadlineExceeded"
  | .notFound => "NotFound"
  | .alreadyExists => "AlreadyExists"
  | .permissionDenied => "PermissionDenied"
  | .resourceExhausted => "ResourceExhausted"
  | .failedPrecondition => "FailedPrecondition"
  | .aborted => "Aborted"
  | .outOfRange => "OutOfRange"
  | .unimplemented => "Unimplemented"
  | .internal => "Internal"
  | .unavailable => "Unavailable"
  | .dataLoss => "DataLoss"
  | .unauthenticated => "Unauthenticated"

structure Status where
  code : Code
  message : Formatted
  deriving DecidableEq, Repr

def Status.error (st : Status) : Formatted :=
  ⟨"rpc error: code = %s desc = " ++ st.message.format, .str st.code.name :: st.message.args⟩

def Code.ofLibrary : Code → Bool
  | .canceled | .unknown | .deadlineExceeded | .permissionDenied | .resourceExhausted
  | .unimplemented | .internal | .unavailable | .unauthenticated => true
  | _ => false

structure CallFailure where
  code : Code
  message : String
  ofLibrary : code.ofLibrary = true

def CallFailure.status (f : CallFailure) : Status := ⟨f.code, .text f.message⟩

theorem CallFailure.code_ne_notFound (f : CallFailure) : f.status.code ≠ .notFound := by
  intro h
  have hlib := f.ofLibrary
  rw [show f.code = .notFound from h] at hlib
  exact absurd hlib (by decide)

inductive ContextError where
  | canceled | deadlineExceeded
  deriving DecidableEq, Repr

def ContextError.text : ContextError → String
  | .canceled => "context canceled"
  | .deadlineExceeded => "context deadline exceeded"

end Zynax.Golang.Grpc
