import SharedGraph.Ids
import SharedGraph.Store.Phase
import SharedGraph.Text.Quoted

/-!
# Failures

Everything that can go wrong is one cause of the type `Failure`.  A cause belongs to a
kind, and the kind says how callers may treat it: fatal failures are errors of the
program or its configuration, a timeout leaves the outcome open, and the rest may be
tried again.  The wording of a message is decided here alone.
-/

namespace SharedGraph

inductive FailureKind where
  | assertion
  | illegalState
  | unknownObjectType
  | unsupported
  | invalidProjection
  | timeout
  | disconnected
  | configuration
  | serialization
  | replication
  | locking
  | execution
deriving DecidableEq, Inhabited

namespace FailureKind

def heading : FailureKind → String
  | .assertion => "Assertion failed"
  | .illegalState => "Illegal state"
  | .unknownObjectType => "Unknown object type"
  | .unsupported => "Unsupported operation"
  | .invalidProjection => "Invalid projection"
  | .timeout => "Nonstop timeout"
  | .disconnected => "Disconnected"
  | .configuration => "Configuration error"
  | .serialization => "Serialization error"
  | .replication => "Replication error"
  | .locking => "Lock error"
  | .execution => "Execution error"

/-- Failures that must never be retried or absorbed. -/
def neverRetried : FailureKind → Bool
  | .assertion | .illegalState | .unknownObjectType => true
  | _ => false

end FailureKind

inductive Failure where
  | danglingRoot (root : String) (object : ObjectId) (transaction : TransactionName)
  | strayIgnored (object : ObjectId) (transaction : TransactionName)
  | unreferencedWrite (transaction : TransactionName) (object : ObjectId)
  | incompleteMembership (members attached : List String)
  | notMember (name : String) (group : GroupId)
  | noNodeToActivate (name : String) (group : GroupId)
  | alreadySequenced (transaction : TransactionName) (existing attempted : GlobalId)
  | notSequenced (transaction : TransactionName)
  | relayedOutOfOrder (given last : GlobalId)
  | cannotStart (phase : StorePhase)
  | storeNotStarted (phase : StorePhase)
  | commitWithoutBegin
  | alreadyBegun (phase : TransactionPhase)
  | notActive (action : String) (phase : TransactionPhase)
  | wrongThread (action : String)
  | notTheActive (group : GroupId) (lost active : String)
  | unknownTag (object : ObjectId) (tag : UInt8)
  | assignThroughView (attempted : GlobalId) (transaction : TransactionName)
  | rollbackUnsupported
  /-- A transaction was asked to abort on a store that has no way to roll back. -/
  | abortUnsupported
  | changesNotProjected (transaction : TransactionName)
  | referencesNotProjected (transaction : TransactionName)
  | newIdsNotProjected (transaction : TransactionName)
  | nonstopTimeout (operation : String) (limit : UInt64)
  | notRegistered (passive : String)
  | partitioned (passive : String)
  | noAnswer (passive : String) (limit : UInt64)
  /-- A shipment ended without an error and without delivering the id. -/
  | leftQueued (passive : String) (id : GlobalId)
  | noObjectMap (name : String)
  | blankMember
  | repeatedMember (member : String)
  | zeroElectionTime (group : GroupId)
  | repeatedGroup (group : GroupId)
  | noServerEntry (member : String) (group : GroupId)
  | memberOfTwoGroups (member : String) (first second : GroupId)
  | noServer (member : String)
  | zeroShipLimit
  | zeroTimeout
  | zeroCapacity
  | blankPassive
  | shortValue (object : ObjectId) (length : Nat)
  | shortObject (length needed : Nat)
  | malformedBody
  /-- Some passives did not apply a record; `failed` says which, and why. -/
  | notApplied (id : GlobalId) (group : GroupId) (acknowledged : Nat) (failed : List String)
  | mapAttached (name : String)
  | nothingToPromote (group : GroupId) (failed : String)
  | observerRefused (object : ObjectId)
  /-- A failure that another component reports in its own words. -/
  | reported (kind : FailureKind) (detail : String)
deriving DecidableEq, Inhabited

namespace Failure

def kind : Failure → FailureKind
  | .danglingRoot .. | .strayIgnored .. | .unreferencedWrite .. | .incompleteMembership ..
  | .notMember .. | .noNodeToActivate .. => .assertion
  | .alreadySequenced .. | .notSequenced .. | .relayedOutOfOrder .. | .cannotStart ..
  | .storeNotStarted .. | .commitWithoutBegin | .alreadyBegun .. | .notActive ..
  | .wrongThread .. | .notTheActive .. => .illegalState
  | .unknownTag .. => .unknownObjectType
  | .assignThroughView .. | .rollbackUnsupported | .abortUnsupported => .unsupported
  | .changesNotProjected .. | .referencesNotProjected .. | .newIdsNotProjected .. =>
    .invalidProjection
  | .nonstopTimeout .. => .timeout
  | .notRegistered .. | .partitioned .. | .noAnswer .. | .leftQueued .. => .disconnected
  | .noObjectMap .. | .blankMember | .repeatedMember .. | .zeroElectionTime ..
  | .repeatedGroup .. | .noServerEntry .. | .memberOfTwoGroups .. | .noServer ..
  | .zeroShipLimit | .zeroTimeout | .zeroCapacity | .blankPassive => .configuration
  | .shortValue .. | .shortObject .. | .malformedBody => .serialization
  | .notApplied .. => .replication
  | .mapAttached .. | .nothingToPromote .. | .observerRefused .. => .execution
  | .reported kind _ => kind

def detail : Failure → String
  | .danglingRoot root object transaction =>
    s!"Root '{root}' points at {object.text} which is not referenced by {transaction.text}"
  | .strayIgnored object transaction =>
    s!"Ignored broadcast {object.text} is not referenced by {transaction.text}"
  | .unreferencedWrite transaction object =>
    s!"{transaction.text} writes {object.text} without referencing it"
  | .incompleteMembership members attached =>
    "group membership is inconsistent: members " ++ Text.quotedList members ++
      ", attached nodes " ++ Text.quotedList attached
  | .notMember name group => s!"{name} is not a member of {group.groupText}"
  | .noNodeToActivate name group =>
    s!"cannot activate {name}: no node attached for it in {group.groupText}"
  | .alreadySequenced transaction existing attempted =>
    s!"Global transaction id already assigned for {transaction.text}: " ++
      s!"existing=Some(GlobalTransactionId({existing.number.toNat})), " ++
      s!"attempted={attempted.text}"
  | .notSequenced transaction =>
    s!"{transaction.text} has no global transaction id and cannot be relayed"
  | .relayedOutOfOrder given last =>
    s!"{given.text} relayed after {last.text}; records must be relayed in global id order"
  | .cannotStart phase => s!"object store cannot start from {phase.text}"
  | .storeNotStarted phase => s!"object store is {phase.text}, not started"
  | .commitWithoutBegin => "commit without an open store transaction"
  | .alreadyBegun phase => s!"Cannot begin: transaction is already {phase.text}"
  | .notActive action phase => s!"Cannot {action}: transaction is {phase.text}"
  | .wrongThread action => s!"Begin and {action} threads don't match"
  | .notTheActive group lost active =>
    s!"{group.groupText} reported {lost} as failed but the active is {active}"
  | .unknownTag object tag => s!"tag {tag.toNat} for object {object.text}"
  | .assignThroughView attempted transaction =>
    s!"cannot assign {attempted.text} through a pruned view of {transaction.text}"
  | .rollbackUnsupported => "backing store does not support rollback"
  | .abortUnsupported => "abort is not supported by this backing store"
  | .changesNotProjected transaction =>
    s!"changes of {transaction.text} are not a sub-sequence of the original"
  | .referencesNotProjected transaction =>
    s!"referenced ids of {transaction.text} exceed the original set"
  | .newIdsNotProjected transaction =>
    s!"new ids of {transaction.text} must lie within the original new ids " ++
      "and the projected references"
  | .nonstopTimeout operation limit => s!"{operation} did not complete within {limit.toNat}ms"
  | .notRegistered passive => s!"passive '{passive}' is not registered"
  | .partitioned passive => s!"passive '{passive}' is partitioned"
  | .noAnswer passive limit => s!"passive '{passive}' did not answer within {limit.toNat}ms"
  | .leftQueued passive id => s!"passive '{passive}' left {id.text} queued"
  | .noObjectMap name => s!"object store has no '{name}' map configured"
  | .blankMember => "member name must not be empty"
  | .repeatedMember member => s!"member '{member}' is listed more than once"
  | .zeroElectionTime group => s!"group {group.text} election time must be > 0"
  | .repeatedGroup group => s!"group {group.text} is declared more than once"
  | .noServerEntry member group => s!"member '{member}' of group {group.text} has no server entry"
  | .memberOfTwoGroups member first second =>
    s!"server '{member}' belongs to both group {first.text} and group {second.text}"
  | .noServer member => s!"no server configured for member '{member}'"
  | .zeroShipLimit => "ship_timeout_ms must be > 0"
  | .zeroTimeout => "nonstop timeout_ms must be > 0"
  | .zeroCapacity => "nonstop local_cache_capacity must be > 0"
  | .blankPassive => "passive name must not be empty"
  | .shortValue object length =>
    s!"value for {object.text} is {length} bytes, shorter than the object header"
  | .shortObject length needed => s!"managed object is {length} bytes, header needs {needed}"
  | .malformedBody => "object body cannot be read"
  | .notApplied id group acknowledged failed =>
    s!"{id.text} not applied by every passive of {group.groupText}: " ++
      s!"acknowledged {acknowledged}, failed: " ++ "; ".intercalate failed
  | .mapAttached name => s!"map '{name}' is already attached"
  | .nothingToPromote group failed =>
    s!"{group.groupText} has no passive left to promote after losing {failed}"
  | .observerRefused object => s!"observer refused {object.number.toNat}"
  | .reported _ detail => detail

def message (failure : Failure) : String :=
  match failure with
  | .unknownTag .. => s!"{failure.kind.heading} {failure.detail}"
  | _ => s!"{failure.kind.heading}: {failure.detail}"

def neverRetried (failure : Failure) : Bool :=
  failure.kind.neverRetried

/-- Failures that leave the outcome of a cache operation open. -/
def leavesOpen (failure : Failure) : Bool :=
  failure.kind == .timeout

def isDisconnected (failure : Failure) : Bool :=
  failure.kind == .disconnected

end Failure
end SharedGraph
