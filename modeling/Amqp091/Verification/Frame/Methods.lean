import Amqp091.Verification.Generator.Codec

/-! # Round trip of the protocol's methods

No method of the protocol has two runs of bits, so none of them is spoilt by the bits of an
earlier run. -/

namespace Amqp091

open ByteCodec Reader

/-! ## Arguments -/

namespace ArgKind

/-- The values with a faithful wire form. -/
def Encodable : (kind : ArgKind) → kind.Val → Prop
  | .shortstr, (v : Bytes) => v.length ≤ 255
  | .longstr, (v : Bytes) => v.length < 2 ^ 31
  | .table, v => Amqp091.Encodable (.table v)
  | _, _ => True

def asRead : (kind : ArgKind) → kind.Val → kind.Val
  | .table, v => asReadEntries v
  | _, v => v

def isBits : ArgKind → Bool
  | .bits _ => true
  | _ => false

end ArgKind

def Args.Encodable : (kinds : List ArgKind) → Args kinds → Prop
  | [], _ => True
  | kind :: kinds, (v, vs) => kind.Encodable v ∧ Args.Encodable kinds vs

def Args.asRead : (kinds : List ArgKind) → Args kinds → Args kinds
  | [], _ => ()
  | kind :: kinds, (v, vs) => (kind.asRead v, Args.asRead kinds vs)

/-- At most one run of bits, which fits into its octet. -/
def singleRun : List ArgKind → Bool
  | [] => true
  | .bits n :: kinds => n ≤ 8 && kinds.all fun kind => !kind.isBits
  | _ :: kinds => singleRun kinds

theorem singleRun_layout (m : Method) : singleRun m.layout = true := by
  cases m <;> rfl

theorem roundTrips_arg {kind : ArgKind} (hkind : kind.isBits = false) (bits : UInt8)
    {v : kind.Val} (h : kind.Encodable v) :
    RoundTrips (writeArg kind bits v) (readArg kind) (kind.asRead v) := by
  cases kind with
  | octet => exact roundTrips_uint8 v
  | short => exact roundTrips_uint16 v
  | long => exact roundTrips_uint32 v
  | longlong => exact roundTrips_uint64 v
  | shortstr => exact roundTrips_shortstr h
  | longstr => exact roundTrips_longstr h
  | table => exact table_roundTrip h
  | bits => cases hkind

theorem bitsAfter_of_not_bits {kind : ArgKind} (hkind : kind.isBits = false) (bits : UInt8)
    (v : kind.Val) : bitsAfter kind bits v = bits := by
  cases kind with
  | bits => cases hkind
  | _ => rfl

/-- The first run of bits starts from an empty accumulator. -/
theorem getBits_setBits {n : ℕ} (hn : n ≤ 8) (v : Vector Bool n) :
    getBits n (setBits 0 0 v.toList) = v := by
  have hlength : v.toList.length = n := Vector.length_toList
  have hcovers : Covers 0 v.toList := fun k hk => by simp at hk
  have hreceived := (received_bit_eq_iff (by omega)).mpr hcovers
  change (getBits v.toList.length (setBits 0 0 v.toList)).toList = v.toList at hreceived
  rw [hlength] at hreceived
  exact Vector.toList_inj.mp hreceived

theorem roundTrips_bits {n : ℕ} (hn : n ≤ 8) (v : Vector Bool n) :
    RoundTrips (writeArg (.bits n) 0 v) (readArg (.bits n)) v := by
  have hrun := (roundTrips_uint8 (ε := GoError) (δ := GoError)
    (setBits 0 0 v.toList)).bind_reader (f := fun bits => pure (getBits n bits)) (Decodes.pure _)
  rwa [getBits_setBits hn] at hrun

theorem roundTrips_argsWithoutBits {kinds : List ArgKind}
    (hkinds : ∀ kind ∈ kinds, ArgKind.isBits kind = false) (bits : UInt8) {args : Args kinds}
    (h : Args.Encodable kinds args) :
    RoundTrips (writeArgs kinds bits args) (readArgs kinds) (Args.asRead kinds args) := by
  induction kinds generalizing bits with
  | nil => exact RoundTrips.pure ()
  | cons kind kinds ih =>
      obtain ⟨v, vs⟩ := args
      obtain ⟨hkind, hkinds⟩ := List.forall_mem_cons.mp hkinds
      refine (roundTrips_arg hkind bits h.1).bind ?_
      exact (ih hkinds _ h.2).bind_reader (Decodes.pure _)

theorem roundTrips_args {kinds : List ArgKind} (hkinds : singleRun kinds = true)
    {args : Args kinds} (h : Args.Encodable kinds args) :
    RoundTrips (writeArgs kinds 0 args) (readArgs kinds) (Args.asRead kinds args) := by
  induction kinds with
  | nil => exact RoundTrips.pure ()
  | cons kind kinds ih =>
      obtain ⟨v, vs⟩ := args
      cases hkind : kind.isBits with
      | true =>
          cases kind with
          | bits n =>
              simp only [singleRun, Bool.and_eq_true, decide_eq_true_eq, List.all_eq_true,
                Bool.not_eq_true'] at hkinds
              refine (roundTrips_bits hkinds.1 v).bind ?_
              exact (roundTrips_argsWithoutBits hkinds.2 _ h.2).bind_reader (Decodes.pure _)
          | _ => cases hkind
      | false =>
          have hrest : singleRun kinds = true := by
            cases kind with
            | bits => cases hkind
            | _ => exact hkinds
          refine (roundTrips_arg hkind 0 h.1).bind ?_
          rw [bitsAfter_of_not_bits hkind]
          exact (ih hrest h.2).bind_reader (Decodes.pure _)

/-! ## Messages -/

/-- The arguments have faithful wire forms. -/
def Message.Encodable (m : Message) : Prop := Args.Encodable m.method.layout m.args

def Message.asRead (m : Message) : Message := ⟨m.method, Args.asRead m.method.layout m.args⟩

/-- Every method of the protocol is read back from what it writes, whatever its arguments. -/
theorem roundTrips_message {m : Message} (h : m.Encodable) :
    RoundTrips m.write m.method.read m.asRead :=
  (roundTrips_args (singleRun_layout m.method) h).bind_reader (Decodes.pure _)

/-! ## Frames -/

/-- The frames the client can send: no assumption is left on the codec of a method. -/
def Frame.Sendable : Frame → Prop
  | .method _ _ _ (some m) => m.Encodable
  | f => f.Encodable

/-- What a frame arrives as. -/
def Frame.received : Frame → Frame
  | .method channelId _ _ (some m) => .method channelId m.id.1 m.id.2 (some m.asRead)
  | f => f.asRead

theorem frame_received {f : Frame} (h : f.Sendable) : f.ArrivesAs f.received := by
  cases f with
  | method channelId classId methodId method =>
      cases method with
      | none => exact h.elim
      | some m => exact methodFrame_arrivesAs channelId classId methodId (roundTrips_message h)
  | header => exact frame_roundTrip h
  | body => exact frame_roundTrip h
  | heartbeat => exact frame_roundTrip h

/-- The reader gets from the bytes of any frames exactly those frames. -/
theorem readFrames_received {fs : List Frame} (h : ∀ f ∈ fs, f.Sendable) :
    ∃ enc, Writes (writeFrames fs) enc ∧
      readFrames enc = .ok (fs.map Frame.received, .eof) [] :=
  readFrames_of_arrivesAs fun f hf => frame_received (h f hf)

/-- Frames with any methods of the protocol, headers, bodies and heartbeats are read from
their stream as they were sent, and none of them from a proper part of its own bytes. -/
theorem protocol_frames_roundTrip (fs : List Frame) (h : ∀ f ∈ fs, f.Sendable) :
    (∃ enc, Writes (writeFrames fs) enc ∧
      readFrames enc = .ok (fs.map Frame.received, .eof) []) ∧
    ∀ f ∈ fs, ∃ enc, Writes f.write enc ∧ ∀ front, front <+: enc → front ≠ enc →
      ∃ e rest, readFrame front = .ok ⟨none, some e⟩ rest := by
  constructor
  · exact readFrames_received h
  · intro f hf
    exact (frame_received (h f hf)).refuses

/-- A `queue.declare` with five bits and an argument table, and a negative
acknowledgement. -/
theorem protocol_frames_roundTrip_declare :
    let declare (t : Table) : Message := ⟨.queueDeclare,
      ((0 : UInt16), [113], #[false, true, false, false, true].toVector, t, ())⟩
    let nack : Message := ⟨.basicNack, ((9 : UInt64), #[true, false].toVector, ())⟩
    ∃ enc, Writes (writeFrames [.method 1 0 0 (some (declare [([120], .int 5)])),
        .method 2 0 0 (some nack)]) enc ∧
      readFrames enc = .ok ([.method 1 50 10 (some (declare [([120], .int32 5)])),
        .method 2 60 120 (some nack)], .eof) [] := by
  intro declare nack
  have htable : Encodable (.table [([120], .int 5)]) := by
    simp only [Encodable, EncodableEntries]
    decide
  refine (protocol_frames_roundTrip [.method 1 0 0 (some (declare [([120], .int 5)])),
    .method 2 0 0 (some nack)] ?_).1
  simp only [List.forall_mem_cons]
  exact ⟨⟨trivial, (by decide : 1 ≤ 255), trivial, htable, trivial⟩,
    ⟨trivial, trivial, trivial⟩, by simp⟩

end Amqp091
