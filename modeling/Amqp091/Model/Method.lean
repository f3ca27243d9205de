import Amqp091.Model.Field

/-! # Protocol methods

The generated methods as data: identifiers, argument layouts, and which of them carry
content. A run of adjacent bits shares one octet. -/

namespace Amqp091

open ByteCodec

inductive ArgKind where
  | octet
  | short
  | long
  | longlong
  | shortstr
  | longstr
  | table
  | bits (n : ℕ)
  deriving DecidableEq, Repr

def ArgKind.Val : ArgKind → Type
  | .octet => UInt8
  | .short => UInt16
  | .long => UInt32
  | .longlong => UInt64
  | .shortstr => Bytes
  | .longstr => Bytes
  | .table => Table
  | .bits n => Vector Bool n

/-- The argument values of a method with the given layout. -/
def Args : List ArgKind → Type
  | [] => Unit
  | kind :: kinds => kind.Val × Args kinds

inductive Method where
  | connectionStart | connectionStartOk | connectionSecure | connectionSecureOk
  | connectionTune | connectionTuneOk | connectionOpen | connectionOpenOk | connectionClose
  | connectionCloseOk | connectionBlocked | connectionUnblocked | connectionUpdateSecret
  | connectionUpdateSecretOk
  | channelOpen | channelOpenOk | channelFlow | channelFlowOk | channelClose
  | channelCloseOk
  | exchangeDeclare | exchangeDeclareOk | exchangeDelete | exchangeDeleteOk | exchangeBind
  | exchangeBindOk | exchangeUnbind | exchangeUnbindOk
  | queueDeclare | queueDeclareOk | queueBind | queueBindOk | queueUnbind | queueUnbindOk
  | queuePurge | queuePurgeOk | queueDelete | queueDeleteOk
  | basicQos | basicQosOk | basicConsume | basicConsumeOk | basicCancel | basicCancelOk
  | basicPublish | basicReturn | basicDeliver | basicGet | basicGetOk | basicGetEmpty
  | basicAck | basicReject | basicRecoverAsync | basicRecover | basicRecoverOk | basicNack
  | txSelect | txSelectOk | txCommit | txCommitOk | txRollback | txRollbackOk
  | confirmSelect | confirmSelectOk
  deriving DecidableEq, Repr

/-- Class and method identifier. -/
def Method.id : Method → UInt16 × UInt16
  | .connectionStart => (10, 10)
  | .connectionStartOk => (10, 11)
  | .connectionSecure => (10, 20)
  | .connectionSecureOk => (10, 21)
  | .connectionTune => (10, 30)
  | .connectionTuneOk => (10, 31)
  | .connectionOpen => (10, 40)
  | .connectionOpenOk => (10, 41)
  | .connectionClose => (10, 50)
  | .connectionCloseOk => (10, 51)
  | .connectionBlocked => (10, 60)
  | .connectionUnblocked => (10, 61)
  | .connectionUpdateSecret => (10, 70)
  | .connectionUpdateSecretOk => (10, 71)
  | .channelOpen => (20, 10)
  | .channelOpenOk => (20, 11)
  | .channelFlow => (20, 20)
  | .channelFlowOk => (20, 21)
  | .channelClose => (20, 40)
  | .channelCloseOk => (20, 41)
  | .exchangeDeclare => (40, 10)
  | .exchangeDeclareOk => (40, 11)
  | .exchangeDelete => (40, 20)
  | .exchangeDeleteOk => (40, 21)
  | .exchangeBind => (40, 30)
  | .exchangeBindOk => (40, 31)
  | .exchangeUnbind => (40, 40)
  | .exchangeUnbindOk => (40, 51)
  | .queueDeclare => (50, 10)
  | .queueDeclareOk => (50, 11)
  | .queueBind => (50, 20)
  | .queueBindOk => (50, 21)
  | .queueUnbind => (50, 50)
  | .queueUnbindOk => (50, 51)
  | .queuePurge => (50, 30)
  | .queuePurgeOk => (50, 31)
  | .queueDelete => (50, 40)
  | .queueDeleteOk => (50, 41)
  | .basicQos => (60, 10)
  | .basicQosOk => (60, 11)
  | .basicConsume => (60, 20)
  | .basicConsumeOk => (60, 21)
  | .basicCancel => (60, 30)
  | .basicCancelOk => (60, 31)
  | .basicPublish => (60, 40)
  | .basicReturn => (60, 50)
  | .basicDeliver => (60, 60)
  | .basicGet => (60, 70)
  | .basicGetOk => (60, 71)
  | .basicGetEmpty => (60, 72)
  | .basicAck => (60, 80)
  | .basicReject => (60, 90)
  | .basicRecoverAsync => (60, 100)
  | .basicRecover => (60, 110)
  | .basicRecoverOk => (60, 111)
  | .basicNack => (60, 120)
  | .txSelect => (90, 10)
  | .txSelectOk => (90, 11)
  | .txCommit => (90, 20)
  | .txCommitOk => (90, 21)
  | .txRollback => (90, 30)
  | .txRollbackOk => (90, 31)
  | .confirmSelect => (85, 10)
  | .confirmSelectOk => (85, 11)

def Method.layout : Method → List ArgKind
  | .connectionStart => [.octet, .octet, .table, .longstr, .longstr]
  | .connectionStartOk => [.table, .shortstr, .longstr, .shortstr]
  | .connectionSecure => [.longstr]
  | .connectionSecureOk => [.longstr]
  | .connectionTune => [.short, .long, .short]
  | .connectionTuneOk => [.short, .long, .short]
  | .connectionOpen => [.shortstr, .shortstr, .bits 1]
  | .connectionOpenOk => [.shortstr]
  | .connectionClose => [.short, .shortstr, .short, .short]
  | .connectionCloseOk => []
  | .connectionBlocked => [.shortstr]
  | .connectionUnblocked => []
  | .connectionUpdateSecret => [.longstr, .shortstr]
  | .connectionUpdateSecretOk => []
  | .channelOpen => [.shortstr]
  | .channelOpenOk => [.longstr]
  | .channelFlow => [.bits 1]
  | .channelFlowOk => [.bits 1]
  | .channelClose => [.short, .shortstr, .short, .short]
  | .channelCloseOk => []
  | .exchangeDeclare => [.short, .shortstr, .shortstr, .bits 5, .table]
  | .exchangeDeclareOk => []
  | .exchangeDelete => [.short, .shortstr, .bits 2]
  | .exchangeDeleteOk => []
  | .exchangeBind => [.short, .shortstr, .shortstr, .shortstr, .bits 1, .table]
  | .exchangeBindOk => []
  | .exchangeUnbind => [.short, .shortstr, .shortstr, .shortstr, .bits 1, .table]
  | .exchangeUnbindOk => []
  | .queueDeclare => [.short, .shortstr, .bits 5, .table]
  | .queueDeclareOk => [.shortstr, .long, .long]
  | .queueBind => [.short, .shortstr, .shortstr, .shortstr, .bits 1, .table]
  | .queueBindOk => []
  | .queueUnbind => [.short, .shortstr, .shortstr, .shortstr, .table]
  | .queueUnbindOk => []
  | .queuePurge => [.short, .shortstr, .bits 1]
  | .queuePurgeOk => [.long]
  | .queueDelete => [.short, .shortstr, .bits 3]
  | .queueDeleteOk => [.long]
  | .basicQos => [.long, .short, .bits 1]
  | .basicQosOk => []
  | .basicConsume => [.short, .shortstr, .shortstr, .bits 4, .table]
  | .basicConsumeOk => [.shortstr]
  | .basicCancel => [.shortstr, .bits 1]
  | .basicCancelOk => [.shortstr]
  | .basicPublish => [.short, .shortstr, .shortstr, .bits 2]
  | .basicReturn => [.short, .shortstr, .shortstr, .shortstr]
  | .basicDeliver => [.shortstr, .longlong, .bits 1, .shortstr, .shortstr]
  | .basicGet => [.short, .shortstr, .bits 1]
  | .basicGetOk => [.longlong, .bits 1, .shortstr, .shortstr, .long]
  | .basicGetEmpty => [.shortstr]
  | .basicAck => [.longlong, .bits 1]
  | .basicReject => [.longlong, .bits 1]
  | .basicRecoverAsync => [.bits 1]
  | .basicRecover => [.bits 1]
  | .basicRecoverOk => []
  | .basicNack => [.longlong, .bits 2]
  | .txSelect => []
  | .txSelectOk => []
  | .txCommit => []
  | .txCommitOk => []
  | .txRollback => []
  | .txRollbackOk => []
  | .confirmSelect => [.bits 1]
  | .confirmSelectOk => []

/-- The methods that implement `messageWithContent`. -/
def Method.hasContent : Method → Bool
  | .basicPublish => true
  | .basicReturn => true
  | .basicDeliver => true
  | .basicGetOk => true
  | _ => false

structure Message where
  method : Method
  args : Args method.layout

def Message.id (m : Message) : UInt16 × UInt16 := m.method.id

def Message.hasContent (m : Message) : Bool := m.method.hasContent

end Amqp091
