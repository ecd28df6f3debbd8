import FiduciaRouting.Routing

/-! Versioned lock-coordination-domain routing. -/

namespace FiduciaRouting
open Library CheckedArithmetic

def lockCoordinationDomainV1Prefix : String := "\u0000fiducia-lock-domain-v1"

/-- The authority namespace whose lock and semaphore state is serialized together. -/
inductive LockCoordinationDomain where
  | tenant (id : String)
  | shared (id : String)
  | system (id : String)
  deriving DecidableEq, Repr

def LockCoordinationDomain.kindAndId : LockCoordinationDomain → String × String
  | tenant id => ("tenant", id)
  | shared id => ("shared", id)
  | system id => ("system", id)

inductive LockRoutingMode where
  | legacyGlobal
  | domainV1
  deriving DecidableEq, Repr

instance : Inhabited LockRoutingMode := ⟨.legacyGlobal⟩

/-- The stable internal routing key of one coordination domain. The identifier
is framed by its length in bytes, written in decimal. -/
def lockCoordinationDomainKey (domain : LockCoordinationDomain) : String :=
  let (kind, id) := domain.kindAndId
  lockCoordinationDomainV1Prefix ++ "\u0000" ++ kind ++ "\u0000" ++ Nat.repr id.utf8ByteSize ++ "\u0000" ++ id

def lockCoordinationShardFor (mode : LockRoutingMode) (domain : LockCoordinationDomain) (shardCount : UInt32) :
    Checked ShardId :=
  match mode with
  | .legacyGlobal => lockCoordinationShard shardCount
  | .domainV1 => shardFor (lockCoordinationDomainKey domain) shardCount

end FiduciaRouting
