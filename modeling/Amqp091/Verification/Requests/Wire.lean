import Amqp091.Algorithm.Requests
import Amqp091.Verification.Field.Validate
import Amqp091.Verification.Frame.RoundTrip

/-! # What the server reads of a request

The server decodes the method and its no-wait bit from the bytes of the frame. In every
request the bits come before the table of arguments and after short strings and numbers
only. -/

namespace Amqp091

open ByteCodec Reader

/-! ## The server's side of the specification -/

/-- The place of no-wait among the bits of a method. -/
def Method.noWaitBit : Method → Option ℕ
  | .exchangeDeclare | .queueDeclare => some 4
  | .exchangeDelete => some 1
  | .exchangeBind | .exchangeUnbind | .queueBind | .queuePurge | .basicCancel
  | .confirmSelect => some 0
  | .queueDelete => some 2
  | .basicConsume => some 3
  | _ => none

/-- The replies to a synchronous request. -/
def Method.responses : Method → List Method
  | .channelFlow => [.channelFlowOk]
  | .exchangeDeclare => [.exchangeDeclareOk]
  | .exchangeDelete => [.exchangeDeleteOk]
  | .exchangeBind => [.exchangeBindOk]
  | .exchangeUnbind => [.exchangeUnbindOk]
  | .queueDeclare => [.queueDeclareOk]
  | .queueBind => [.queueBindOk]
  | .queueUnbind => [.queueUnbindOk]
  | .queuePurge => [.queuePurgeOk]
  | .queueDelete => [.queueDeleteOk]
  | .basicQos => [.basicQosOk]
  | .basicConsume => [.basicConsumeOk]
  | .basicCancel => [.basicCancelOk]
  | .basicGet => [.basicGetOk, .basicGetEmpty]
  | .basicRecover => [.basicRecoverOk]
  | .txSelect => [.txSelectOk]
  | .txCommit => [.txCommitOk]
  | .txRollback => [.txRollbackOk]
  | .confirmSelect => [.confirmSelectOk]
  | _ => []

/-- Bit `i` of the first octet of bits. -/
def readBit (i : ℕ) : List ArgKind → FieldReader Bool
  | [] => pure false
  | kind :: kinds =>
      match kind with
      | .bits _ => do
          let bits ← readUInt8
          return bits.toNat.testBit i
      | kind => do
          let _ ← readArg kind
          readBit i kinds

def readNoWait (m : Method) : FieldReader Bool :=
  match m.noWaitBit with
  | some i => readBit i m.layout
  | none => pure false

/-- The method of a frame and its no-wait bit. -/
def requestOnWire : FieldReader (Method × Bool) := do
  let _ ← readFull 7
  let classId ← readUInt16
  let methodId ← readUInt16
  match methodOf classId methodId with
  | .ok m => do
      let noWait ← readNoWait m
      return (m, noWait)
  | .error e => throw (.other e)

/-! ## Arguments in front of the bits -/

/-- The values that are read back from whatever was written. -/
def ArgKind.plain : ArgKind → Bool
  | .longstr | .table | .bits _ => false
  | _ => true

/-- There are bits, few enough for one octet, and only plain values before them. -/
def bitsReadable : List ArgKind → Bool
  | [] => false
  | kind :: kinds =>
      match kind with
      | .bits n => n ≤ 8
      | kind => kind.plain && bitsReadable kinds

def firstBits : (kinds : List ArgKind) → Args kinds → List Bool
  | [], _ => []
  | kind :: kinds, (v, vs) =>
      match kind, v with
      | .bits _, v => Vector.toList v
      | _, _ => firstBits kinds vs

/-- A string that is too long is cut to what its eight-bit length says. -/
theorem writeShortstr_take (s : Bytes) :
    writeShortstr s = writeShortstr (s.take (UInt8.ofNat s.length).toNat) := by
  have hle : (UInt8.ofNat s.length).toNat ≤ s.length := by
    simpa using Nat.mod_le s.length 256
  have hlen : UInt8.ofNat (s.take (UInt8.ofNat s.length).toNat).length = UInt8.ofNat s.length := by
    rw [List.length_take, Nat.min_eq_left hle, UInt8.ofNat_toNat]
  rw [writeShortstr, writeShortstr, hlen, List.take_take, Nat.min_self]

theorem reads_shortstr (s : Bytes) :
    ∃ enc v, Writes (writeShortstr s) enc ∧ Reads readShortstr enc v := by
  have hle : (s.take (UInt8.ofNat s.length).toNat).length ≤ 255 := by
    rw [List.length_take]
    exact (Nat.min_le_left _ _).trans (Nat.le_of_lt_succ (UInt8.toNat_lt _))
  refine ⟨_, _, ?_, (decodes_readShortstr hle).reads⟩
  rw [writeShortstr_take]
  exact writes_shortstr hle

theorem reads_plain {kind : ArgKind} (h : kind.plain = true) (bits : UInt8) (v : kind.Val) :
    ∃ enc v', Writes (writeArg kind bits v) enc ∧ Reads (readArg kind) enc v' := by
  cases kind with
  | octet => exact ⟨_, v, Writes.emit _, (decodes_readUInt8 v).reads⟩
  | short => exact ⟨_, v, Writes.emit _, (decodes_readUInt16 v).reads⟩
  | long => exact ⟨_, v, Writes.emit _, (decodes_readUInt32 v).reads⟩
  | longlong => exact ⟨_, v, Writes.emit _, (decodes_readUInt64 v).reads⟩
  | shortstr => exact reads_shortstr v
  | longstr | table | bits => cases h

theorem bitsAfter_plain {kind : ArgKind} (h : kind.plain = true) (bits : UInt8)
    (v : kind.Val) : bitsAfter kind bits v = bits := by
  cases kind with
  | bits => cases h
  | _ => rfl

theorem readBit_bits {n : ℕ} (hn : n ≤ 8) (v : Vector Bool n) {kinds : List ArgKind}
    {vs : Args kinds} {enc : Bytes} (hw : Writes (writeArgs (.bits n :: kinds) 0 (v, vs)) enc)
    (i : ℕ) (tail : Bytes) :
    ∃ rest, readBit i (.bits n :: kinds) (enc ++ tail) = .ok (v.toList.getD i false) rest := by
  obtain ⟨rest, rfl, -⟩ := (Writes.emit (putBE 1 (setBits 0 0 v.toList).toNat)).of_bind hw
  have hbit := testBit_setBits v.toList 0 0 (by simpa using hn) i
  have hread := (decodes_readUInt8 (ε := GoError) (setBits 0 0 v.toList)).reads (rest ++ tail)
  refine ⟨rest ++ tail, ?_⟩
  rw [readBit, bind_apply, List.append_assoc, hread]
  simpa using hbit

theorem readBit_writeArgs {kinds : List ArgKind} (h : bitsReadable kinds = true)
    {args : Args kinds} {enc : Bytes} (hw : Writes (writeArgs kinds 0 args) enc) (i : ℕ)
    (tail : Bytes) :
    ∃ rest, readBit i kinds (enc ++ tail) = .ok ((firstBits kinds args).getD i false) rest := by
  induction kinds generalizing enc with
  | nil => cases h
  | cons kind kinds ih =>
      obtain ⟨v, vs⟩ := args
      have hplain : kind.plain = true → bitsReadable kinds = true →
          ∃ rest, (do let _ ← readArg kind; readBit i kinds : FieldReader Bool) (enc ++ tail) =
            .ok ((firstBits kinds vs).getD i false) rest := by
        intro hkind hkinds
        obtain ⟨enc₁, v', hw₁, hr₁⟩ := reads_plain hkind 0 v
        obtain ⟨enc₂, rfl, hw₂⟩ := hw₁.of_bind hw
        rw [bitsAfter_plain hkind] at hw₂
        obtain ⟨rest, hrest⟩ := ih hkinds hw₂
        refine ⟨rest, ?_⟩
        rw [bind_apply, List.append_assoc, hr₁]
        exact hrest
      cases kind with
      | bits n => exact readBit_bits (of_decide_eq_true h) v hw i tail
      | longstr | table => cases h
      | _ => exact hplain rfl h

/-! ## Frames of requests -/

/-- The no-wait bit that a message carries. -/
def Message.noWait (m : Message) : Bool :=
  match m.method.noWaitBit with
  | some i => (firstBits m.method.layout m.args).getD i false
  | none => false

/-- The frame that `send` writes for a request. -/
def requestFrame (channelId : UInt16) (m : Message) : Frame := .method channelId 0 0 (some m)

theorem bitsReadable_of_noWaitBit {m : Method} {i : ℕ} (h : m.noWaitBit = some i) :
    bitsReadable m.layout = true := by
  cases m <;> first | rfl | cases h

theorem readNoWait_write {m : Message} {enc : Bytes} (hw : Writes m.write enc) (tail : Bytes) :
    ∃ rest, readNoWait m.method (enc ++ tail) = .ok m.noWait rest := by
  rw [readNoWait, Message.noWait]
  cases hbit : m.method.noWaitBit with
  | none => exact ⟨_, rfl⟩
  | some i => exact readBit_writeArgs (bitsReadable_of_noWaitBit hbit) hw i tail

/-- The server reads the method that was sent, and the bit that it carries. -/
theorem requestOnWire_write (channelId : UInt16) {m : Message} (h : Completes m.write) :
    ∃ rest, requestOnWire (requestFrame channelId m).write.out =
      .ok (m.method, m.noWait) rest := by
  obtain ⟨enc, hw⟩ := h
  have hpayload : Writes (do
      Output.emit (putBE 2 m.id.1.toNat)
      Output.emit (putBE 2 m.id.2.toNat)
      m.write) (putBE 2 m.id.1.toNat ++ (putBE 2 m.id.2.toNat ++ enc)) :=
    (Writes.emit _).bind ((Writes.emit _).bind hw)
  have hframe := (hpayload.capture_bind
    (writes_writeFrame frameMethod channelId _)).out_eq
  obtain ⟨rest, hrest⟩ := readNoWait_write hw [frameEnd]
  refine ⟨rest, ?_⟩
  have hheader := readFull_append (ε := GoError) (frameHeaderBytes frameMethod channelId
    (putBE 2 m.id.1.toNat ++ (putBE 2 m.id.2.toNat ++ enc)).length)
    (putBE 2 m.id.1.toNat ++ (putBE 2 m.id.2.toNat ++ (enc ++ [frameEnd])))
  rw [length_frameHeaderBytes] at hheader
  have hclass := (decodes_readUInt16 (ε := GoError) m.id.1).reads
    (putBE 2 m.id.2.toNat ++ (enc ++ [frameEnd]))
  have hmethod := (decodes_readUInt16 (ε := GoError) m.id.2).reads (enc ++ [frameEnd])
  have hid : methodOf m.id.1 m.id.2 = .ok m.method := methodOf_id m.method
  rw [requestFrame, Frame.write, hframe]
  simp only [List.append_assoc]
  simp only [requestOnWire, bind_apply, hheader, hclass, hmethod, hid, hrest,
    Result.andThen_ok, pure_apply]

/-! ## Requests -/

/-- The tables among the arguments are valid. -/
def tablesValid : (kinds : List ArgKind) → Args kinds → Prop
  | [], _ => True
  | kind :: kinds, (v, vs) =>
      (match kind, v with
        | .table, v => Table.validate v = .ok ()
        | _, _ => True) ∧ tablesValid kinds vs

theorem completes_writeArgs {kinds : List ArgKind} {args : Args kinds}
    (h : tablesValid kinds args) (bits : UInt8) : Completes (writeArgs kinds bits args) := by
  induction kinds generalizing bits with
  | nil => exact .pure
  | cons kind kinds ih =>
      obtain ⟨v, vs⟩ := args
      obtain ⟨hv, hvs⟩ := h
      refine Completes.bind ?_ (ih hvs _)
      cases kind with
      | table => exact completes_writeTable hv
      | shortstr => exact completes_writeShortstr v
      | longstr => exact completes_writeLongstr v
      | _ => exact .emit _

namespace Request

theorem validated_eq_ok {args : Table} {m m' : Message} (h : validated args m = .ok m') :
    args.validate = .ok () ∧ m = m' := by
  unfold validated at h
  split at h
  · rename_i hvalid
    cases h
    exact ⟨hvalid, rfl⟩
  · cases h

theorem tablesValid_message {r : Request} {m : Message} (h : r.message = .ok m) :
    tablesValid m.method.layout m.args := by
  cases r with
  | queueDeclare | queueDeclarePassive | queueBind | queueUnbind | consume | exchangeDeclare
  | exchangeDeclarePassive | exchangeBind | exchangeUnbind =>
      obtain ⟨hvalid, rfl⟩ := validated_eq_ok h
      simp [tablesValid, Method.layout, hvalid]
  | queueInspect =>
      cases h
      simp [tablesValid, Method.layout]
      rfl
  | _ =>
      cases h
      simp [tablesValid, Method.layout]

/-- Sending a request that passed validation does not fail. -/
theorem completes_message {r : Request} {m : Message} (h : r.message = .ok m) :
    Completes m.write :=
  completes_writeArgs (tablesValid_message h) 0

/-- A call takes what the specification prescribes. -/
theorem results_eq {r : Request} {m : Message} (h : r.message = .ok m) :
    r.results = m.method.responses := by
  cases r with
  | queueDeclare | queueDeclarePassive | queueBind | queueUnbind | consume | exchangeDeclare
  | exchangeDeclarePassive | exchangeBind | exchangeUnbind =>
      obtain ⟨-, rfl⟩ := validated_eq_ok h
      rfl
  | _ =>
      cases h
      rfl

/-- All calls but one wait exactly if their no-wait bit is clear. -/
theorem wait_eq {r : Request} {m : Message} (h : r.message = .ok m) (hr : r ≠ .confirm true) :
    m.wait = !m.noWait := by
  cases r with
  | confirm noWait =>
      cases h
      cases noWait with
      | true => exact absurd rfl hr
      | false => rfl
  | queueDeclare | queueDeclarePassive | queueBind | queueUnbind | consume | exchangeDeclare
  | exchangeDeclarePassive | exchangeBind | exchangeUnbind =>
      obtain ⟨-, rfl⟩ := validated_eq_ok h
      rfl
  | _ =>
      cases h
      rfl

theorem responses_ne_nil {r : Request} {m : Message} (h : r.message = .ok m) :
    m.method.responses ≠ [] := by
  rw [← results_eq h]
  cases r <;> exact nofun

end Request

end Amqp091
