import Amqp091.Shared.Extent
import Amqp091.Verification.Field.Lengths
import Amqp091.Verification.Frame.CrashFreedom

/-! # The size field of a frame

The parsers of method and header frames consume what the payload is made of, whatever
the size field says. -/

namespace Amqp091

open ByteCodec Reader

/-! ## The extent of a payload -/

/-- The bytes an argument takes up at the head of `bs`, by its own length. -/
def argExtent : ArgKind → Bytes → ℕ
  | .octet, _ => 1
  | .short, _ => 2
  | .long, _ => 4
  | .longlong, _ => 8
  | .shortstr, bs => 1 + getBE (bs.take 1)
  | .longstr, bs => if Oversize bs then 4 else 4 + getBE (bs.take 4)
  | .table, bs => if Oversize bs then 4 else 4 + getBE (bs.take 4)
  | .bits _, _ => 1

def argsExtent : List ArgKind → Bytes → ℕ
  | [], _ => 0
  | kind :: kinds, bs => argExtent kind bs + argsExtent kinds (bs.drop (argExtent kind bs))

/-- The properties in the order of their flags. -/
def propertyKinds : List (ℕ × ArgKind) :=
  [(flagContentType, .shortstr), (flagContentEncoding, .shortstr), (flagHeaders, .table),
    (flagDeliveryMode, .octet), (flagPriority, .octet), (flagCorrelationId, .shortstr),
    (flagReplyTo, .shortstr), (flagExpiration, .shortstr), (flagMessageId, .shortstr),
    (flagTimestamp, .longlong), (flagType, .shortstr), (flagUserId, .shortstr),
    (flagAppId, .shortstr), (flagReserved1, .shortstr)]

def propertyExtent (flags : UInt16) (flag : ℕ) (kind : ArgKind) (bs : Bytes) : ℕ :=
  if hasProperty flags flag then argExtent kind bs else 0

def propertiesExtent (flags : UInt16) : List (ℕ × ArgKind) → Bytes → ℕ
  | [], _ => 0
  | (flag, kind) :: kinds, bs =>
      propertyExtent flags flag kind bs +
        propertiesExtent flags kinds (bs.drop (propertyExtent flags flag kind bs))

def methodArgsExtent (classId methodId : UInt16) (bs : Bytes) : ℕ :=
  match methodOf classId methodId with
  | .ok m => argsExtent m.layout bs
  | .error _ => 0

/-- Class and method, and the arguments of that method. -/
def methodExtent (bs : Bytes) : ℕ :=
  4 + methodArgsExtent (UInt16.ofNat (getBE (bs.take 2)))
    (UInt16.ofNat (getBE ((bs.drop 2).take 2))) (bs.drop 4)

/-- Class, weight, body size and flags, and the properties under these flags. -/
def headerExtent (bs : Bytes) : ℕ :=
  14 + propertiesExtent (UInt16.ofNat (getBE ((bs.drop 12).take 2))) propertyKinds (bs.drop 14)

def sizeField (bs : Bytes) : ℕ := getBE ((bs.drop 3).take 4)

/-- The bytes that the payload of a frame takes up by its own contents. -/
def payloadExtent (bs : Bytes) : ℕ :=
  if bs.head? = some frameMethod then methodExtent (bs.drop 7)
  else if bs.head? = some frameHeader then headerExtent (bs.drop 7)
  else sizeField bs

/-! ## The parsers consume that extent -/

theorem sizeField_frameHeaderBytes (typ : UInt8) (channel : UInt16) (size : UInt32) (bs : Bytes) :
    sizeField (frameHeaderBytes typ channel size.toNat ++ bs) = size.toNat := by
  have hdrop : (frameHeaderBytes typ channel size.toNat ++ bs).drop 3 =
      putBE 4 size.toNat ++ bs := by
    rw [frameHeaderBytes, List.append_assoc, List.drop_left' (by simp)]
  rw [sizeField, hdrop, take_putBE_append, getBE_putBE_of_lt size.toNat_lt]

theorem spans_readShortstr : Spans readShortstr (argExtent .shortstr) := by
  intro bs v rest h
  obtain ⟨hlt, rfl⟩ := readShortstr_eq_ok.mp h
  have hextent : argExtent .shortstr (putBE 1 v.length ++ (v ++ rest)) = 1 + v.length := by
    rw [argExtent, take_putBE_append, getBE_putBE_of_lt hlt]
  rw [hextent]
  refine ⟨by simp, ?_⟩
  rw [← List.append_assoc, List.drop_left' (by simp)]

theorem spans_readLongstr : Spans readLongstr (argExtent .longstr) := by
  intro bs v rest h
  obtain ⟨n, tail, hn, rfl⟩ := readLongstr_prefix h
  rw [argExtent]
  by_cases hover : Oversize (putBE 4 n ++ tail)
  · rw [if_pos hover]
    rw [readLongstr_oversize ((oversize_putBE hn tail).mp hover) hn] at h
    cases h
    exact ⟨by simp, (List.drop_left' (length_putBE 4 n)).symm⟩
  · rw [if_neg hover, take_putBE_append, getBE_putBE_of_lt hn]
    rw [oversize_putBE hn] at hover
    rw [readLongstr_putBE (Nat.not_lt.mp hover)] at h
    obtain ⟨rfl, rfl⟩ := readFull_eq_ok.mp h
    refine ⟨by simp, ?_⟩
    rw [← List.append_assoc, List.drop_left' (by simp)]

theorem spans_readTable : Spans readTable (argExtent .table) := by
  intro bs t rest h
  obtain ⟨buf, hbuf, -⟩ := readTable_ok h
  exact spans_readLongstr bs buf rest hbuf

theorem spans_readArg (kind : ArgKind) : Spans (readArg kind) (argExtent kind) := by
  cases kind with
  | octet => exact Takes.readUInt8.spans
  | short => exact Takes.readUInt16.spans
  | long => exact Takes.readUInt32.spans
  | longlong => exact Takes.readUInt64.spans
  | shortstr => exact spans_readShortstr
  | longstr => exact spans_readLongstr
  | table => exact spans_readTable
  | bits n => exact Takes.readUInt8.spans.map _

theorem spans_readArgs (kinds : List ArgKind) : Spans (readArgs kinds) (argsExtent kinds) := by
  induction kinds with
  | nil => exact Spans.pure ()
  | cons kind kinds ih => exact (spans_readArg kind).bind fun v => ih.map _

theorem spans_readIf {α : Type} (flags : UInt16) (flag : ℕ) (kind : ArgKind) {p : FieldReader α}
    (hp : Spans p (argExtent kind)) (zero : α) :
    Spans (readIf flags flag p zero) (propertyExtent flags flag kind) := by
  unfold readIf
  intro bs v rest h
  unfold propertyExtent
  split at h
  · rename_i hset
    rw [if_pos hset]
    exact hp bs v rest h
  · rename_i hset
    rw [if_neg hset]
    exact Spans.pure zero bs v rest h

theorem spans_readTimestamp : Spans readTimestamp (argExtent .longlong) :=
  Takes.readUInt64.spans.map _

theorem spans_readProperties (flags : UInt16) :
    Spans (readProperties flags) (propertiesExtent flags propertyKinds) := by
  have hstr := fun flag => spans_readIf flags flag .shortstr spans_readShortstr []
  have hoctet := fun flag => spans_readIf flags flag .octet Takes.readUInt8.spans 0
  refine (hstr _).bind fun contentType => ?_
  refine (hstr _).bind fun contentEncoding => ?_
  refine (spans_readIf _ _ .table spans_readTable _).bind fun headers => ?_
  refine (hoctet _).bind fun deliveryMode => ?_
  refine (hoctet _).bind fun priority => ?_
  refine (hstr _).bind fun correlationId => ?_
  refine (hstr _).bind fun replyTo => ?_
  refine (hstr _).bind fun expiration => ?_
  refine (hstr _).bind fun messageId => ?_
  refine (spans_readIf _ _ .longlong spans_readTimestamp _).bind fun timestamp => ?_
  refine (hstr _).bind fun type => ?_
  refine (hstr _).bind fun userId => ?_
  refine (hstr _).bind fun appId => ?_
  exact (hstr _).bind fun reserved1 => Spans.pure _

theorem namedResults_some {p : FieldReader Frame} {bs rest : Bytes} {f : Frame}
    (h : namedResults p bs = .ok ⟨some f, none⟩ rest) : p bs = .ok f rest := by
  obtain ⟨result, mid, hattempt, hreturn⟩ := bind_eq_ok.mp h
  cases result with
  | ok f' =>
      cases hreturn
      exact attempt_eq_ok.mp hattempt
  | error e => cases hreturn

theorem parseMethodFrame_extent {channel : UInt16} {size : UInt32} {bs rest : Bytes} {f : Frame}
    (h : parseMethodFrame channel size bs = .ok ⟨some f, none⟩ rest) :
    methodExtent bs ≤ bs.length ∧ rest = bs.drop (methodExtent bs) := by
  have hspans := Spans.readUInt16_bind fun classId => Spans.readUInt16_bind fun methodId => by
    have hargs : Spans (match methodOf classId methodId with
        | .ok m => do
            let method ← m.read
            return .method channel classId methodId (some method)
        | .error e => throw (.other e) : FieldReader Frame)
        (methodArgsExtent classId methodId) := by
      unfold methodArgsExtent
      cases methodOf classId methodId with
      | ok m => exact ((spans_readArgs m.layout).map _).map _
      | error e => exact Spans.throw _ _
    exact hargs
  simpa [methodExtent, ← Nat.add_assoc] using hspans bs f rest (namedResults_some h)

theorem parseHeaderFrame_extent {channel : UInt16} {size : UInt32} {bs rest : Bytes} {f : Frame}
    (h : parseHeaderFrame channel size bs = .ok ⟨some f, none⟩ rest) :
    headerExtent bs ≤ bs.length ∧ rest = bs.drop (headerExtent bs) := by
  have hspans := Takes.readUInt16.spans.bind fun classId =>
    Takes.readUInt16.spans.bind fun weight => Takes.readUInt64.spans.bind fun bodySize =>
      Spans.readUInt16_bind fun flags =>
        (spans_readProperties flags).map (Frame.header channel classId weight bodySize)
  simpa [headerExtent, ← Nat.add_assoc] using hspans bs f rest (namedResults_some h)

theorem parseBodyFrame_extent {channel : UInt16} {size : UInt32} {bs rest : Bytes} {f : Frame}
    (h : parseBodyFrame channel size bs = .ok ⟨some f, none⟩ rest) :
    size.toNat ≤ bs.length ∧ rest = bs.drop size.toNat :=
  ((Takes.readFull size.toNat).spans.map (Frame.body channel)) bs f rest (namedResults_some h)

theorem parseHeartbeatFrame_extent {channel : UInt16} {size : UInt32} {bs rest : Bytes}
    {f : Frame} (h : parseHeartbeatFrame channel size bs = .ok ⟨some f, none⟩ rest) :
    size.toNat ≤ bs.length ∧ rest = bs.drop size.toNat := by
  unfold parseHeartbeatFrame at h
  split at h
  · cases h
  · rename_i hzero
    have hsize : size.toNat = 0 := by
      rw [gt_iff_lt, UInt32.lt_iff_toNat_lt, UInt32.toNat_zero] at hzero
      omega
    cases h
    rw [hsize]
    exact ⟨Nat.zero_le _, rfl⟩

/-- The parser of the frame type has returned every frame that the switch returns. -/
theorem parseFrame_some {typ : UInt8} {channel : UInt16} {size : UInt32} {bs rest : Bytes}
    {f : Frame} (h : parseFrame typ channel size bs = .ok ⟨some f, none⟩ rest) :
    (typ = frameMethod ∧ parseMethodFrame channel size bs = .ok ⟨some f, none⟩ rest) ∨
    (typ = frameHeader ∧ parseHeaderFrame channel size bs = .ok ⟨some f, none⟩ rest) ∨
    (typ = frameBody ∧ parseBodyFrame channel size bs = .ok ⟨some f, none⟩ rest) ∨
    (typ = frameHeartbeat ∧ parseHeartbeatFrame channel size bs = .ok ⟨some f, none⟩ rest) := by
  by_cases hmethod : typ = frameMethod
  · rw [parseFrame, if_pos hmethod] at h
    exact .inl ⟨hmethod, h⟩
  by_cases hheader : typ = frameHeader
  · rw [parseFrame, if_neg hmethod, if_pos hheader] at h
    exact .inr (.inl ⟨hheader, h⟩)
  by_cases hbody : typ = frameBody
  · rw [hbody, parseFrame_body] at h
    exact .inr (.inr (.inl ⟨hbody, h⟩))
  by_cases hheartbeat : typ = frameHeartbeat
  · rw [parseFrame, if_neg hmethod, if_neg hheader, if_neg hbody, if_pos hheartbeat] at h
    exact .inr (.inr (.inr ⟨hheartbeat, h⟩))
  · rw [parseFrame, if_neg hmethod, if_neg hheader, if_neg hbody, if_neg hheartbeat] at h
    cases h

/-- Behind the frame header, the parser for the type of the frame ends where the payload
does. -/
theorem parseFrame_extent {typ : UInt8} {channel : UInt16} {size : UInt32} {bs rest : Bytes}
    {f : Frame} (h : parseFrame typ channel size bs = .ok ⟨some f, none⟩ rest) :
    payloadExtent (frameHeaderBytes typ channel size.toNat ++ bs) ≤ bs.length ∧
      rest = bs.drop (payloadExtent (frameHeaderBytes typ channel size.toNat ++ bs)) := by
  have hdrop : (frameHeaderBytes typ channel size.toNat ++ bs).drop 7 = bs :=
    List.drop_left' (length_frameHeaderBytes _ _ _)
  have hhead : (frameHeaderBytes typ channel size.toNat ++ bs).head? = some typ := rfl
  simp only [payloadExtent, hdrop, hhead, Option.some_inj, sizeField_frameHeaderBytes]
  rcases parseFrame_some h with ⟨rfl, hp⟩ | ⟨rfl, hp⟩ | ⟨rfl, hp⟩ | ⟨rfl, hp⟩
  · exact parseMethodFrame_extent hp
  · exact parseHeaderFrame_extent hp
  · exact parseBodyFrame_extent hp
  · exact parseHeartbeatFrame_extent hp

/-! ## The size field -/

/-- A frame that is returned was followed by the end octet. -/
theorem endFrame_some {parsed : Parsed} {bs rest : Bytes} {f : Frame}
    (h : endFrame parsed bs = .ok ⟨some f, none⟩ rest) :
    parsed = ⟨some f, none⟩ ∧ bs = frameEnd :: rest := by
  obtain ⟨frame, err⟩ := parsed
  cases err with
  | some e => cases h
  | none =>
      cases bs with
      | nil => cases h
      | cons b tail =>
          by_cases hb : b = frameEnd
          · rw [hb, endFrame_frameEnd] at h
            cases h
            exact ⟨rfl, by rw [hb]⟩
          · rw [endFrame_of_ne hb] at h
            cases h

/-- A frame that is returned was parsed behind a frame header and in front of the end
octet. -/
theorem readFrame_some {bs rest : Bytes} {f : Frame}
    (h : readFrame bs = .ok ⟨some f, none⟩ rest) :
    ∃ typ channel, ∃ size : UInt32, ∃ payload,
      bs = frameHeaderBytes typ channel size.toNat ++ payload ∧
      parseFrame typ channel size payload = .ok ⟨some f, none⟩ (frameEnd :: rest) := by
  by_cases hshort : bs.length < 7
  · obtain ⟨e, he⟩ := readFrame_of_short hshort
    rw [he] at h
    cases h
  obtain ⟨typ, channel, size, payload, rfl⟩ := exists_frameHeader (Nat.le_of_not_lt hshort)
  rw [readFrame_header, UInt32.ofNat_toNat] at h
  obtain ⟨parsed, mid, hparse, hend⟩ := bind_eq_ok.mp h
  obtain ⟨rfl, rfl⟩ := endFrame_some hend
  exact ⟨typ, channel, size, payload, rfl, hparse⟩

/-- The bytes that were read when a frame is returned, up to the end octet. -/
theorem readFrame_extent {bs rest : Bytes} {f : Frame}
    (h : readFrame bs = .ok ⟨some f, none⟩ rest) :
    ∃ front, bs = front ++ (frameEnd :: rest) ∧ front.length = 7 + payloadExtent bs := by
  obtain ⟨typ, channel, size, payload, rfl, hparse⟩ := readFrame_some h
  obtain ⟨hle, hrest⟩ := parseFrame_extent hparse
  refine ⟨frameHeaderBytes typ channel size.toNat ++ payload.take (payloadExtent
    (frameHeaderBytes typ channel size.toNat ++ payload)), ?_, ?_⟩
  · rw [hrest, List.append_assoc, List.take_append_drop]
  · rw [List.length_append, length_frameHeaderBytes, List.length_take_of_le hle]

/-- A frame that was read ends where its size field says exactly if its payload, laid out
by its own contents, is as long as that. -/
theorem frame_size_respected_iff (bs rest : Bytes) (f : Frame)
    (h : readFrame bs = .ok ⟨some f, none⟩ rest) :
    (bs.length = sizeField bs + 8 + rest.length ∧ bs.drop (sizeField bs + 8) = rest ∧
      bs[sizeField bs + 7]? = some frameEnd) ↔
    payloadExtent bs = sizeField bs := by
  obtain ⟨front, hbs, hlen⟩ := readFrame_extent h
  have hcount := congrArg List.length hbs
  rw [List.length_append, List.length_cons] at hcount
  constructor
  · rintro ⟨hlength, -, -⟩
    omega
  · intro heq
    rw [heq] at hlen
    generalize sizeField bs = size at hlen ⊢
    subst hbs
    refine ⟨by omega, ?_, ?_⟩
    · rw [List.append_cons, List.drop_left' (by simp; omega)]
    · rw [List.getElem?_append_right (by omega), hlen, Nat.add_comm, Nat.sub_self,
        List.getElem?_cons_zero]

/-- A method without arguments. -/
theorem frame_size_respected_iff_qosOk :
    let bs : Bytes := [1, 0, 1, 0, 0, 0, 4, 0, 60, 0, 11, 206]
    (bs.length = sizeField bs + 8 + ([] : Bytes).length ∧ bs.drop (sizeField bs + 8) = [] ∧
      bs[sizeField bs + 7]? = some frameEnd) ↔
    payloadExtent bs = sizeField bs :=
  frame_size_respected_iff _ [] (.method 1 60 11 (some ⟨.basicQosOk, ()⟩)) rfl

/-- The same method under a size field of 0 is returned as a frame, with 12 bytes
consumed. -/
theorem frame_size_ignored :
    let bs : Bytes := [1, 0, 1, 0, 0, 0, 0, 0, 60, 0, 11, 206]
    readFrame bs = .ok ⟨some (.method 1 60 11 (some ⟨.basicQosOk, ()⟩)), none⟩ [] ∧
    ¬ (bs.length = sizeField bs + 8 + ([] : Bytes).length ∧ bs.drop (sizeField bs + 8) = [] ∧
      bs[sizeField bs + 7]? = some frameEnd) :=
  ⟨rfl, by decide⟩

end Amqp091
