import Amqp091.Shared.Url

/-! # Generated consumer tags

Names and tags are byte strings. The counter `consumerSeq` is passed from call to call. -/

open ByteCodec Decimal Url

namespace Amqp091

def consumerTagLengthMax : ℕ := 0xFF

/-- A long command name is replaced by a short one. -/
def tagWithNumber (commandName : Bytes) (number : UInt64) : Bytes :=
  let tagPrefix := ascii "ctag-"
  let tagSuffix := '-'.toUInt8 :: formatNat number.toNat
  let tagInfix :=
    if tagPrefix.length + commandName.length + tagSuffix.length > consumerTagLengthMax then
      ascii "streadway/amqp"
    else commandName
  tagPrefix ++ tagInfix ++ tagSuffix

/-- The tag and what the atomic addition leaves in the counter. -/
def commandNameBasedUniqueConsumerTag (commandName : Bytes) (consumerSeq : UInt64) :
    Bytes × UInt64 :=
  (tagWithNumber commandName (consumerSeq + 1), consumerSeq + 1)

/-- The tags of successive calls. -/
def consumerTags : List Bytes → UInt64 → List Bytes
  | [], _ => []
  | commandName :: commandNames, consumerSeq =>
      let call := commandNameBasedUniqueConsumerTag commandName consumerSeq
      call.1 :: consumerTags commandNames call.2

end Amqp091
