import DistributedFs.Fsm.Handlers

namespace DistributedFs.Server

open Go Fsm

inductive Code where
  | notFound | internal | invalidArgument | alreadyExists | failedPrecondition | unavailable
  | canceled | unknown | deadlineExceeded | permissionDenied | resourceExhausted | aborted
  | outOfRange | unimplemented | dataLoss | unauthenticated
deriving DecidableEq

def Code.text : Code → String
  | notFound => "NotFound"
  | internal => "Internal"
  | invalidArgument => "InvalidArgument"
  | alreadyExists => "AlreadyExists"
  | failedPrecondition => "FailedPrecondition"
  | unavailable => "Unavailable"
  | canceled => "Canceled"
  | unknown => "Unknown"
  | deadlineExceeded => "DeadlineExceeded"
  | permissionDenied => "PermissionDenied"
  | resourceExhausted => "ResourceExhausted"
  | aborted => "Aborted"
  | outOfRange => "OutOfRange"
  | unimplemented => "Unimplemented"
  | dataLoss => "DataLoss"
  | unauthenticated => "Unauthenticated"

/-- A failed call. A redirect carries the gRPC address of the leader in a trailer
    when the state machine knows it. -/
structure RpcError where
  code : Code
  message : String
  leaderGrpcAddr : Option String := none
deriving DecidableEq

def RpcError.text (err : RpcError) : String :=
  "rpc error: code = " ++ err.code.text ++ " desc = " ++ err.message

structure RaftView where
  isLeader : Bool
  leaderAddress : String

def leaderRedirect {ρ : Type} (raft : RaftView) (m : MetadataFSM ρ) : RpcError :=
  if raft.leaderAddress = "" then
    { code := .unavailable, message := "no leader elected yet" }
  else
    { code := .failedPrecondition, message := "not leader"
      leaderGrpcAddr := (m.mdNodeRegistry.lookup raft.leaderAddress).map MetadataNodeEntry.grpcAddr }

end DistributedFs.Server
