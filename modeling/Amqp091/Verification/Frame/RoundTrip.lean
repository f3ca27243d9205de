import Amqp091.Verification.Frame.Equations

/-! # Round trip of frames and of streams of frames -/

namespace Amqp091

open ByteCodec Reader

/-- Short strings of at most 255 bytes, whole seconds and a table of the codec's domain. -/
structure Properties.Encodable (p : Properties) : Prop where
  contentType : p.contentType.length ≤ 255
  contentEncoding : p.contentEncoding.length ≤ 255
  headers : Amqp091.Encodable (.table p.headers)
  correlationId : p.correlationId.length ≤ 255
  replyTo : p.replyTo.length ≤ 255
  expiration : p.expiration.length ≤ 255
  messageId : p.messageId.length ≤ 255
  timestamp : p.timestamp.nsec = 0
  type : p.type.length ≤ 255
  userId : p.userId.length ≤ 255
  appId : p.appId.length ≤ 255
  reserved1 : p.reserved1 = []

/-- The frames with a faithful wire form. For a method frame this asks that the
generated codec of its method is one for its arguments. -/
def Frame.Encodable : Frame → Prop
  | .method _ _ _ none => False
  | .method _ _ _ (some m) => RoundTrips m.write m.method.read m
  | .header _ _ _ _ p => p.Encodable
  | .body _ bytes => bytes.length < 2 ^ 32
  | .heartbeat _ => True

def Properties.asRead (p : Properties) : Properties :=
  { p with headers := asReadEntries p.headers }

/-- Equality of the public properties as Go values. -/
structure Properties.Same (p q : Properties) : Prop where
  headers : Amqp091.Same (.table p.headers) (.table q.headers)
  others : { p with headers := [], reserved1 := [] } = { q with headers := [], reserved1 := [] }

/-- What a frame is read back as: class and method ids are those of its method. -/
def Frame.asRead : Frame → Frame
  | .method channelId _ _ (some m) => .method channelId m.id.1 m.id.2 (some m)
  | .header channelId classId weight size p => .header channelId classId weight size p.asRead
  | f => f

/-! ## Properties -/

/-- A property written under its flag is read back, and left out when it is zero. -/
theorem roundTrips_property {α : Type} {flags : UInt16} {flag : ℕ} {present : Bool}
    {w : Output GoError Unit} {p : FieldReader α} {zero v : α}
    (hflag : hasProperty flags flag = present)
    (habsent : present = false → v = zero) (hcodec : RoundTrips w p v) :
    RoundTrips (writeIf flags flag w) (readIf flags flag p zero) v := by
  rw [writeIf, readIf, hflag]
  cases present with
  | false =>
      rw [habsent rfl]
      exact RoundTrips.pure zero
  | true => exact hcodec

theorem roundTrips_shortstr {s : Bytes} (h : s.length ≤ 255) :
    RoundTrips (writeShortstr s) readShortstr s :=
  ⟨_, writes_shortstr h, decodes_readShortstr h⟩

theorem roundTrips_timestamp {t : Time} (h : t.nsec = 0) :
    RoundTrips (Output.emit (putBE 8 t.unix.toUInt64.toNat) : Output GoError Unit)
      readTimestamp t := by
  have htime : Time.ofUnix t.unix.toUInt64.toInt64 = t := by
    simp [Time.ofUnix, Time.unix, ← h]
  have hcodec := (roundTrips_uint64 (ε := GoError) (δ := GoError) t.unix.toUInt64).bind_reader
    (f := fun sec => pure (Time.ofUnix sec.toInt64)) (Decodes.pure _)
  rwa [htime] at hcodec

/-- The presence of every property in the mask, for the reserved one its absence. -/
theorem hasProperty_propertyMask (p : Properties) :
    hasProperty (propertyMask p) flagContentType = decide (p.contentType ≠ []) ∧
    hasProperty (propertyMask p) flagContentEncoding = decide (p.contentEncoding ≠ []) ∧
    hasProperty (propertyMask p) flagHeaders = decide (p.headers.length > 0) ∧
    hasProperty (propertyMask p) flagDeliveryMode = decide (p.deliveryMode > 0) ∧
    hasProperty (propertyMask p) flagPriority = decide (p.priority > 0) ∧
    hasProperty (propertyMask p) flagCorrelationId = decide (p.correlationId ≠ []) ∧
    hasProperty (propertyMask p) flagReplyTo = decide (p.replyTo ≠ []) ∧
    hasProperty (propertyMask p) flagExpiration = decide (p.expiration ≠ []) ∧
    hasProperty (propertyMask p) flagMessageId = decide (p.messageId ≠ []) ∧
    hasProperty (propertyMask p) flagTimestamp = !p.timestamp.isZero ∧
    hasProperty (propertyMask p) flagType = decide (p.type ≠ []) ∧
    hasProperty (propertyMask p) flagUserId = decide (p.userId ≠ []) ∧
    hasProperty (propertyMask p) flagAppId = decide (p.appId ≠ []) ∧
    hasProperty (propertyMask p) flagReserved1 = false := by
  refine ⟨?_, ?_, ?_, ?_, ?_, ?_, ?_, ?_, ?_, ?_, ?_, ?_, ?_, ?_⟩
  all_goals
    rw [propertyMask]
    repeat rw [hasProperty_maskIf (by decide)]
    simp [hasProperty_zero, flagContentType, flagContentEncoding, flagHeaders, flagDeliveryMode,
      flagPriority, flagCorrelationId, flagReplyTo, flagExpiration, flagMessageId, flagTimestamp,
      flagType, flagUserId, flagAppId, flagReserved1]

theorem roundTrips_properties {p : Properties} (h : p.Encodable) :
    RoundTrips (writeProperties (propertyMask p) p) (readProperties (propertyMask p))
      p.asRead := by
  obtain ⟨h1, h2, h3, h4, h5, h6, h7, h8, h9, h10, h11, h12, h13, h14⟩ :=
    hasProperty_propertyMask p
  refine (roundTrips_property h1 (by simp) (roundTrips_shortstr h.contentType)).bind ?_
  refine (roundTrips_property h2 (by simp) (roundTrips_shortstr h.contentEncoding)).bind ?_
  refine (roundTrips_property (v := asReadEntries p.headers) h3 ?_
    (table_roundTrip h.headers)).bind ?_
  · intro hempty
    have hnil : p.headers = [] := by simpa using hempty
    rw [hnil, asReadEntries]
  refine (roundTrips_property h4 (by simp) (roundTrips_uint8 p.deliveryMode)).bind ?_
  refine (roundTrips_property h5 (by simp) (roundTrips_uint8 p.priority)).bind ?_
  refine (roundTrips_property h6 (by simp) (roundTrips_shortstr h.correlationId)).bind ?_
  refine (roundTrips_property h7 (by simp) (roundTrips_shortstr h.replyTo)).bind ?_
  refine (roundTrips_property h8 (by simp) (roundTrips_shortstr h.expiration)).bind ?_
  refine (roundTrips_property h9 (by simp) (roundTrips_shortstr h.messageId)).bind ?_
  refine (roundTrips_property h10 (by simp [Time.isZero])
    (roundTrips_timestamp h.timestamp)).bind ?_
  refine (roundTrips_property h11 (by simp) (roundTrips_shortstr h.type)).bind ?_
  refine (roundTrips_property h12 (by simp) (roundTrips_shortstr h.userId)).bind ?_
  refine (roundTrips_property h13 (by simp) (roundTrips_shortstr h.appId)).bind_reader ?_
  have hreserved : readIf (propertyMask p) flagReserved1 readShortstr [] = pure [] := by
    simp [readIf, h14]
  have hrecord : p.asRead = { p.asRead with reserved1 := [] } := by
    rw [← h.reserved1]
    rfl
  rw [hreserved, hrecord]
  exact Decodes.pure _

/-! ## Frames -/

/-- A parser returning a frame and an error reads `enc` exactly as `f`, and returns an
error and no frame on every proper prefix of it. -/
structure Parses (p : FieldReader Parsed) (enc : Bytes) (f : Frame) : Prop where
  reads : Reads p enc ⟨some f, none⟩
  refuses : ∀ front, front <+: enc → front ≠ enc →
    ∃ e rest, p front = .ok ⟨none, some e⟩ rest

theorem parses_namedResults {p : FieldReader Frame} {enc : Bytes} {f : Frame}
    (h : Decodes p enc f) : Parses (namedResults p) enc f where
  reads := by
    intro rest
    simp [namedResults, attempt, h.reads rest]
  refuses := by
    intro front hpre hne
    obtain ⟨e, rest, hfail⟩ := h.refuses front hpre hne
    exact ⟨e, rest, by simp [namedResults, attempt, hfail]⟩

/-- A payload parser is completed by the frame header and the end octet around it. -/
theorem parses_readFrame {typ : UInt8} {channel : UInt16} {payload : Bytes} {f : Frame}
    (h : Parses (parseFrame typ channel (UInt32.ofNat payload.length)) payload f) :
    Parses readFrame
      (frameHeaderBytes typ channel payload.length ++ (payload ++ [frameEnd])) f where
  reads := by
    intro rest
    rw [List.append_assoc, readFrame_header, List.append_assoc, bind_apply, h.reads]
    exact endFrame_frameEnd _ rest
  refuses := by
    intro front hpre hne
    rcases prefix_append_cases hpre with ⟨hle, hlt⟩ | ⟨tail, rfl, htail⟩
    · -- the input ends inside the frame header
      have hlength := lt_of_le_of_ne hle.length_le fun heq => hlt (hle.eq_of_length heq)
      rw [length_frameHeaderBytes] at hlength
      obtain ⟨e, he⟩ := readFrame_of_short hlength
      exact ⟨e, [], he⟩
    · rw [readFrame_header]
      rcases prefix_append_cases htail with ⟨hle, hlt⟩ | ⟨last, rfl, hlast⟩
      · obtain ⟨e, rest, he⟩ := h.refuses tail hle hlt
        exact ⟨e, rest, by rw [bind_apply, he, Result.andThen_ok, endFrame_of_err]; rfl⟩
      · -- only the end octet is missing
        have hnil : last = [] := by
          rcases List.prefix_cons_iff.mp hlast with hnil | ⟨more, rfl, hmore⟩
          · exact hnil
          · rw [List.prefix_nil.mp hmore] at hne
            exact absurd rfl hne
        subst hnil
        exact ⟨.eof, [], by rw [bind_apply, h.reads, Result.andThen_ok, endFrame_nil]⟩

/-- The ids a method writes select that method again. -/
theorem methodOf_id (m : Method) : methodOf m.id.1 m.id.2 = .ok m := by
  cases m <;> rfl

theorem parses_methodFrame {channel : UInt16} {size : UInt32} {m m' : Message} {enc : Bytes}
    (h : Decodes m.method.read enc m') :
    Parses (parseFrame frameMethod channel size)
      (putBE 2 m.id.1.toNat ++ (putBE 2 m.id.2.toNat ++ enc))
      (.method channel m.id.1 m.id.2 (some m')) := by
  apply parses_namedResults
  refine (decodes_readUInt16 _).bind ((decodes_readUInt16 _).bind ?_)
  rw [Message.id, methodOf_id]
  exact h.map fun method => Frame.method channel m.method.id.1 m.method.id.2 (some method)

theorem roundTrips_headerPayload (channel classId weight : UInt16) (size : UInt64)
    {p : Properties} (h : p.Encodable) :
    RoundTrips (do
        Output.emit (putBE 2 classId.toNat)
        Output.emit (putBE 2 weight.toNat)
        Output.emit (putBE 8 size.toNat)
        Output.emit (putBE 2 (propertyMask p).toNat)
        writeProperties (propertyMask p) p : Output GoError Unit)
      (do
        let classId ← readUInt16
        let weight ← readUInt16
        let size ← readUInt64
        let flags ← readUInt16
        let properties ← readProperties flags
        return Frame.header channel classId weight size properties : FieldReader Frame)
      (.header channel classId weight size p.asRead) := by
  refine (roundTrips_uint16 classId).bind ?_
  refine (roundTrips_uint16 weight).bind ?_
  refine (roundTrips_uint64 size).bind ?_
  refine (roundTrips_uint16 (propertyMask p)).bind ?_
  exact (roundTrips_properties h).bind_reader (Decodes.pure _)

/-- What is written for one frame is parsed as another. -/
def Frame.ArrivesAs (f g : Frame) : Prop := ∃ enc, Writes f.write enc ∧ Parses readFrame enc g

theorem methodFrame_arrivesAs (channelId classId methodId : UInt16) {m m' : Message}
    (h : RoundTrips m.write m.method.read m') :
    (Frame.method channelId classId methodId (some m)).ArrivesAs
      (.method channelId m.id.1 m.id.2 (some m')) := by
  obtain ⟨args, hw, hd⟩ := h
  have hpayload := (Writes.emit (putBE 2 m.id.1.toNat)).bind
    (f := fun _ => do Output.emit (putBE 2 m.id.2.toNat); m.write) ((Writes.emit _).bind hw)
  exact ⟨_, hpayload.capture_bind (writes_writeFrame _ _ _),
    parses_readFrame (parses_methodFrame hd)⟩

/-- Every encodable frame is written, and parsed from what was written. -/
theorem frame_roundTrip {f : Frame} (h : f.Encodable) : f.ArrivesAs f.asRead := by
  cases f with
  | method channelId classId methodId method =>
      cases method with
      | none => exact h.elim
      | some m => exact methodFrame_arrivesAs channelId classId methodId h
  | header channelId classId weight size p =>
      obtain ⟨payload, hw, hd⟩ := roundTrips_headerPayload channelId classId weight size h
      exact ⟨_, hw.capture_bind (writes_writeFrame _ _ _),
        parses_readFrame (parses_namedResults hd)⟩
  | body channelId bytes =>
      have hsize : (UInt32.ofNat bytes.length).toNat = bytes.length :=
        UInt32.toNat_ofNat_of_lt' h
      refine ⟨_, writes_writeFrame _ _ _, parses_readFrame ?_⟩
      rw [parseFrame_body, parseBodyFrame, hsize]
      exact parses_namedResults ((decodes_readFull bytes).map (Frame.body channelId))
  | heartbeat channelId =>
      refine ⟨_, writes_writeFrame _ _ _, parses_readFrame ⟨fun rest => rfl, ?_⟩⟩
      intro front hpre hne
      exact absurd (List.prefix_nil.mp hpre) hne

/-! ## Streams -/

theorem Parses.ne_nil {enc : Bytes} {f : Frame} (h : Parses readFrame enc f) : enc ≠ [] := by
  rintro rfl
  have hread := h.reads []
  have hshort : ([] : Bytes).length < 7 := by decide
  obtain ⟨e, he⟩ := readFrame_of_short hshort
  rw [List.append_nil, he] at hread
  cases hread

theorem readFramesAux_nil (fuel : ℕ) :
    readFramesAux (fuel + 1) [] = .ok ([], .eof) [] := rfl

/-- One complete frame in front of a stream is the first one read from it. -/
theorem readFramesAux_append {enc rest : Bytes} {f : Frame} {fuel : ℕ} {fs : List Frame}
    {e : ReadErr} (hf : Parses readFrame enc f)
    (hrest : readFramesAux fuel rest = .ok (fs, e) []) :
    readFramesAux (fuel + 1) (enc ++ rest) = .ok (f :: fs, e) [] := by
  rw [readFramesAux, bind_apply, hf.reads]
  simp [hrest]

section Stream

variable {fs : List Frame} {back : Frame → Frame}

theorem readFramesAux_of_arrivesAs (h : ∀ f ∈ fs, f.ArrivesAs (back f)) :
    ∃ enc, Writes (writeFrames fs) enc ∧ fs.length ≤ enc.length ∧
      ∀ fuel, fs.length < fuel → readFramesAux fuel enc = .ok (fs.map back, .eof) [] := by
  induction fs with
  | nil =>
      refine ⟨[], Writes.pure, le_rfl, fun fuel hfuel => ?_⟩
      obtain ⟨fuel, rfl⟩ := Nat.exists_eq_succ_of_ne_zero (Nat.ne_of_gt hfuel)
      exact readFramesAux_nil fuel
  | cons f fs ih =>
      obtain ⟨enc, hw, hp⟩ := h f List.mem_cons_self
      obtain ⟨encs, hws, hlen, hrs⟩ := ih fun g hg => h g (List.mem_cons_of_mem f hg)
      refine ⟨enc ++ encs, hw.bind hws, ?_, fun fuel hfuel => ?_⟩
      · have hpos := List.length_pos_iff.mpr hp.ne_nil
        rw [List.length_append, List.length_cons]
        omega
      · obtain ⟨fuel, rfl⟩ := Nat.exists_eq_succ_of_ne_zero (Nat.ne_zero_of_lt hfuel)
        exact readFramesAux_append hp (hrs fuel (Nat.lt_of_succ_lt_succ hfuel))

/-- A stream is read frame by frame up to its end. -/
theorem readFrames_of_arrivesAs (h : ∀ f ∈ fs, f.ArrivesAs (back f)) :
    ∃ enc, Writes (writeFrames fs) enc ∧ readFrames enc = .ok (fs.map back, .eof) [] := by
  obtain ⟨enc, hw, hlen, hr⟩ := readFramesAux_of_arrivesAs h
  exact ⟨enc, hw, hr _ (Nat.lt_succ_of_le hlen)⟩

end Stream

theorem Frame.ArrivesAs.refuses {f g : Frame} (h : f.ArrivesAs g) :
    ∃ enc, Writes f.write enc ∧ ∀ front, front <+: enc → front ≠ enc →
      ∃ e rest, readFrame front = .ok ⟨none, some e⟩ rest := by
  obtain ⟨enc, hw, hp⟩ := h
  exact ⟨enc, hw, hp.refuses⟩

/-- The stream of a list of frames is read back as that list up to the end of the
stream, and no frame of it is returned from a proper prefix of its encoding. -/
theorem readFrames_writeFrames (fs : List Frame) (h : ∀ f ∈ fs, f.Encodable) :
    (∃ enc, Writes (writeFrames fs) enc ∧
      readFrames enc = .ok (fs.map Frame.asRead, .eof) []) ∧
    ∀ f ∈ fs, ∃ enc, Writes f.write enc ∧ ∀ front, front <+: enc → front ≠ enc →
      ∃ e rest, readFrame front = .ok ⟨none, some e⟩ rest := by
  constructor
  · exact readFrames_of_arrivesAs fun f hf => frame_roundTrip (h f hf)
  · intro f hf
    exact (frame_roundTrip (h f hf)).refuses

/-- A stream with one frame of each kind, the header carrying some properties. -/
theorem readFrames_writeFrames_mixed :
    let ack : Message := ⟨.basicAck, ((7 : UInt64), #v[true], ())⟩
    let properties : Properties := { contentType := [116], headers := [([97], .int 5)] }
    ∃ enc, Writes (writeFrames [.method 1 0 0 (some ack), .header 1 60 0 3 properties,
        .body 1 [1, 2, 3], .heartbeat 0]) enc ∧
      readFrames enc = .ok ([.method 1 60 80 (some ack),
        .header 1 60 0 3 { properties with headers := [([97], .int32 5)] },
        .body 1 [1, 2, 3], .heartbeat 0], .eof) [] := by
  intro ack properties
  have hbits : RoundTrips (writeArgs [.bits 1] 0 (#v[true], ())) (readArgs [.bits 1])
      (#v[true], ()) := by
    refine RoundTrips.bind ((roundTrips_uint8 1).bind_reader (Decodes.pure _)) ?_
    exact (RoundTrips.pure ()).bind_reader (Decodes.pure _)
  have hargs : RoundTrips (writeArgs [.longlong, .bits 1] 0 ((7 : UInt64), #v[true], ()))
      (readArgs [.longlong, .bits 1]) ((7 : UInt64), #v[true], ()) := by
    refine (roundTrips_uint64 7).bind ?_
    exact hbits.bind_reader (Decodes.pure _)
  have hack : RoundTrips ack.write ack.method.read ack :=
    hargs.bind_reader (f := fun args => pure (⟨.basicAck, args⟩ : Message)) (Decodes.pure _)
  have hheaders : Encodable (.table properties.headers) := by
    simp only [properties, Encodable, EncodableEntries]
    decide
  have hproperties : properties.Encodable := by
    constructor <;> first | exact hheaders | simp [properties, Time.zero]
  refine (readFrames_writeFrames _ ?_).1
  intro f hf
  simp only [List.mem_cons, List.not_mem_nil, or_false] at hf
  rcases hf with rfl | rfl | rfl | rfl
  · exact hack
  · exact hproperties
  · exact Nat.lt_of_lt_of_le (by decide : 3 < 4) (by decide)
  · trivial

end Amqp091
