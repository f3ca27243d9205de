import Amqp091.Algorithm.ReadField
import Amqp091.Algorithm.WriteField
import Amqp091.Model.Method

/-! # The generated method codecs -/

namespace Amqp091

open ByteCodec Reader

/-- `bits |= 1 << off` for each field that is set, from offset `off` on. -/
def setBits (bits : UInt8) (off : ℕ) : List Bool → UInt8
  | [] => bits
  | b :: bs => setBits (if b then bits ||| UInt8.ofNat (1 <<< off) else bits) (off + 1) bs

/-- One argument. A run of bits is added to what `bits` already holds. -/
def writeArg : (kind : ArgKind) → UInt8 → kind.Val → Output GoError Unit
  | .octet, _, v => Output.emit (putBE 1 (UInt8.toNat v))
  | .short, _, v => Output.emit (putBE 2 (UInt16.toNat v))
  | .long, _, v => Output.emit (putBE 4 (UInt32.toNat v))
  | .longlong, _, v => Output.emit (putBE 8 (UInt64.toNat v))
  | .shortstr, _, v => writeShortstr v
  | .longstr, _, v => writeLongstr v
  | .table, _, v => writeTable v
  | .bits _, bits, v => Output.emit (putBE 1 (setBits bits 0 (Vector.toList v)).toNat)

/-- The accumulator `bits` is one variable of the method and is not cleared between
two runs of bits. -/
def bitsAfter : (kind : ArgKind) → UInt8 → kind.Val → UInt8
  | .bits _, bits, v => setBits bits 0 (Vector.toList v)
  | _, bits, _ => bits

/-- The `write` body of a method. -/
def writeArgs : (kinds : List ArgKind) → UInt8 → Args kinds → Output GoError Unit
  | [], _, _ => pure ()
  | kind :: kinds, bits, (v, vs) => do
      writeArg kind bits v
      writeArgs kinds (bitsAfter kind bits v) vs

/-- `bits & (1 << off) > 0` for each of `n` fields. -/
def getBits (n : ℕ) (bits : UInt8) : Vector Bool n :=
  Vector.ofFn fun off => bits.toNat &&& (1 <<< off.val) > 0

def readArg : (kind : ArgKind) → FieldReader kind.Val
  | .octet => readUInt8
  | .short => readUInt16
  | .long => readUInt32
  | .longlong => readUInt64
  | .shortstr => readShortstr
  | .longstr => readLongstr
  | .table => readTable
  | .bits n => do
      let bits ← readUInt8
      return getBits n bits

/-- The `read` body of a method. -/
def readArgs : (kinds : List ArgKind) → FieldReader (Args kinds)
  | [] => pure ()
  | kind :: kinds => do
      let v ← readArg kind
      let vs ← readArgs kinds
      return (v, vs)

def Message.write (m : Message) : Output GoError Unit :=
  writeArgs m.method.layout 0 m.args

/-- `method.read` into a fresh struct of the method. -/
def Method.read (m : Method) : FieldReader Message := do
  let args ← readArgs m.layout
  return ⟨m, args⟩

/-- The two nested switches of `parseMethodFrame`. -/
def methodOf (classId methodId : UInt16) : Except GoError Method :=
  match classId with
  | 10 =>
      match methodId with
      | 10 => .ok .connectionStart
      | 11 => .ok .connectionStartOk
      | 20 => .ok .connectionSecure
      | 21 => .ok .connectionSecureOk
      | 30 => .ok .connectionTune
      | 31 => .ok .connectionTuneOk
      | 40 => .ok .connectionOpen
      | 41 => .ok .connectionOpenOk
      | 50 => .ok .connectionClose
      | 51 => .ok .connectionCloseOk
      | 60 => .ok .connectionBlocked
      | 61 => .ok .connectionUnblocked
      | 70 => .ok .connectionUpdateSecret
      | 71 => .ok .connectionUpdateSecretOk
      | _ => .error (errUnknownMethod methodId classId)
  | 20 =>
      match methodId with
      | 10 => .ok .channelOpen
      | 11 => .ok .channelOpenOk
      | 20 => .ok .channelFlow
      | 21 => .ok .channelFlowOk
      | 40 => .ok .channelClose
      | 41 => .ok .channelCloseOk
      | _ => .error (errUnknownMethod methodId classId)
  | 40 =>
      match methodId with
      | 10 => .ok .exchangeDeclare
      | 11 => .ok .exchangeDeclareOk
      | 20 => .ok .exchangeDelete
      | 21 => .ok .exchangeDeleteOk
      | 30 => .ok .exchangeBind
      | 31 => .ok .exchangeBindOk
      | 40 => .ok .exchangeUnbind
      | 51 => .ok .exchangeUnbindOk
      | _ => .error (errUnknownMethod methodId classId)
  | 50 =>
      match methodId with
      | 10 => .ok .queueDeclare
      | 11 => .ok .queueDeclareOk
      | 20 => .ok .queueBind
      | 21 => .ok .queueBindOk
      | 50 => .ok .queueUnbind
      | 51 => .ok .queueUnbindOk
      | 30 => .ok .queuePurge
      | 31 => .ok .queuePurgeOk
      | 40 => .ok .queueDelete
      | 41 => .ok .queueDeleteOk
      | _ => .error (errUnknownMethod methodId classId)
  | 60 =>
      match methodId with
      | 10 => .ok .basicQos
      | 11 => .ok .basicQosOk
      | 20 => .ok .basicConsume
      | 21 => .ok .basicConsumeOk
      | 30 => .ok .basicCancel
      | 31 => .ok .basicCancelOk
      | 40 => .ok .basicPublish
      | 50 => .ok .basicReturn
      | 60 => .ok .basicDeliver
      | 70 => .ok .basicGet
      | 71 => .ok .basicGetOk
      | 72 => .ok .basicGetEmpty
      | 80 => .ok .basicAck
      | 90 => .ok .basicReject
      | 100 => .ok .basicRecoverAsync
      | 110 => .ok .basicRecover
      | 111 => .ok .basicRecoverOk
      | 120 => .ok .basicNack
      | _ => .error (errUnknownMethod methodId classId)
  | 90 =>
      match methodId with
      | 10 => .ok .txSelect
      | 11 => .ok .txSelectOk
      | 20 => .ok .txCommit
      | 21 => .ok .txCommitOk
      | 30 => .ok .txRollback
      | 31 => .ok .txRollbackOk
      | _ => .error (errUnknownMethod methodId classId)
  | 85 =>
      match methodId with
      | 10 => .ok .confirmSelect
      | 11 => .ok .confirmSelectOk
      | _ => .error (errUnknownMethod methodId classId)
  | _ => .error (errUnknownClass classId)

end Amqp091
