import Amqp091.Verification.Field.Decoded
import Amqp091.Verification.Frame.RoundTrip
import Amqp091.Verification.Frame.Size

/-! # Decoded frames can be sent again

The decoder accepts more than the encoder produces, but every header, body or heartbeat
frame that it returns is one that the encoder has a faithful form for. -/

namespace Amqp091

open ByteCodec Reader

/-- Equality of header, body and heartbeat frames as Go values: the entries of a table in
any order, the unexported property left aside. -/
inductive Frame.Same : Frame → Frame → Prop
  | header (channelId classId weight : UInt16) (size : UInt64) {p q : Properties}
      (h : p.Same q) :
      Frame.Same (.header channelId classId weight size p) (.header channelId classId weight size q)
  | body (channelId : UInt16) (bytes : Bytes) :
      Frame.Same (.body channelId bytes) (.body channelId bytes)
  | heartbeat (channelId : UInt16) : Frame.Same (.heartbeat channelId) (.heartbeat channelId)

/-! ## Properties -/

theorem readIf_ok {α : Type} {flags : UInt16} {flag : ℕ} {p : FieldReader α} {zero v : α}
    {bs rest : Bytes} {P : α → Prop} (h : readIf flags flag p zero bs = .ok v rest)
    (hzero : P zero) (hp : ∀ bs v rest, p bs = .ok v rest → P v) : P v := by
  unfold readIf at h
  split at h
  · exact hp bs v rest h
  · cases h
    exact hzero

theorem readIf_shortstr_length {flags : UInt16} {flag : ℕ} {bs v rest : Bytes}
    (h : readIf flags flag readShortstr [] bs = .ok v rest) : v.length ≤ 255 :=
  readIf_ok (P := fun v => v.length ≤ 255) h (Nat.zero_le _) fun _ _ _ hv =>
    Nat.le_of_lt_succ (readShortstr_eq_ok.mp hv).1

/-- Properties that were read can be written, but for the one that is never written. -/
theorem readProperties_encodable {flags : UInt16} {bs rest : Bytes} {p : Properties}
    (h : readProperties flags bs = .ok p rest) :
    Properties.Encodable { p with reserved1 := [] } ∧ asReadEntries p.headers = p.headers := by
  obtain ⟨contentType, _, h1, h⟩ := bind_eq_ok.mp h
  obtain ⟨contentEncoding, _, h2, h⟩ := bind_eq_ok.mp h
  obtain ⟨headers, _, h3, h⟩ := bind_eq_ok.mp h
  obtain ⟨deliveryMode, _, -, h⟩ := bind_eq_ok.mp h
  obtain ⟨priority, _, -, h⟩ := bind_eq_ok.mp h
  obtain ⟨correlationId, _, h6, h⟩ := bind_eq_ok.mp h
  obtain ⟨replyTo, _, h7, h⟩ := bind_eq_ok.mp h
  obtain ⟨expiration, _, h8, h⟩ := bind_eq_ok.mp h
  obtain ⟨messageId, _, h9, h⟩ := bind_eq_ok.mp h
  obtain ⟨timestamp, _, h10, h⟩ := bind_eq_ok.mp h
  obtain ⟨type, _, h11, h⟩ := bind_eq_ok.mp h
  obtain ⟨userId, _, h12, h⟩ := bind_eq_ok.mp h
  obtain ⟨appId, _, h13, h⟩ := bind_eq_ok.mp h
  obtain ⟨reserved1, _, -, h⟩ := bind_eq_ok.mp h
  cases h
  have hheaders : Encodable (.table headers) ∧ asReadEntries headers = headers := by
    refine readIf_ok (P := fun t => Encodable (.table t) ∧ asReadEntries t = t) h3 ?_
      fun _ _ _ => readTable_fits
    have hempty := fitsEntries_nil.fits_table (Nat.zero_le _)
    exact ⟨hempty.encodable, rfl⟩
  have htime : timestamp.nsec = 0 := by
    refine readIf_ok (P := fun t : Time => t.nsec = 0) h10 rfl fun _ _ _ hv => ?_
    obtain ⟨sec, -, rfl⟩ := map_eq_ok.mp hv
    rfl
  exact ⟨{
    contentType := readIf_shortstr_length h1
    contentEncoding := readIf_shortstr_length h2
    headers := hheaders.1
    correlationId := readIf_shortstr_length h6
    replyTo := readIf_shortstr_length h7
    expiration := readIf_shortstr_length h8
    messageId := readIf_shortstr_length h9
    timestamp := htime
    type := readIf_shortstr_length h11
    userId := readIf_shortstr_length h12
    appId := readIf_shortstr_length h13
    reserved1 := rfl }, hheaders.2⟩

/-- Another order of the header table is encodable too. -/
theorem Properties.Same.encodable {p q : Properties} (h : p.Same q)
    (hp : Properties.Encodable { p with reserved1 := [] }) :
    Properties.Encodable { q with reserved1 := [] } := by
  have hheaders := (h.headers.encodable hp.headers).1
  obtain ⟨-, hothers⟩ := h
  obtain ⟨⟩ := p
  obtain ⟨⟩ := q
  cases hothers
  exact { hp with headers := hheaders }

/-! ## Frames -/

/-- What is known of a frame without a method once it was returned. -/
def Frame.Decoded : Frame → Prop
  | .header _ _ _ _ p =>
      Properties.Encodable { p with reserved1 := [] } ∧ asReadEntries p.headers = p.headers
  | .body _ bytes => bytes.length < 2 ^ 32
  | _ => True

theorem parseFrame_decoded {typ : UInt8} {channel : UInt16} {size : UInt32} {bs rest : Bytes}
    {f : Frame} (h : parseFrame typ channel size bs = .ok ⟨some f, none⟩ rest) : f.Decoded := by
  rcases parseFrame_some h with ⟨-, hp⟩ | ⟨-, hp⟩ | ⟨-, hp⟩ | ⟨-, hp⟩
  · obtain ⟨classId, mid, -, hp⟩ := bind_eq_ok.mp (namedResults_some hp)
    obtain ⟨methodId, mid, -, hp⟩ := bind_eq_ok.mp hp
    cases hm : methodOf classId methodId with
    | ok m =>
        rw [hm] at hp
        obtain ⟨message, -, rfl⟩ := map_eq_ok.mp hp
        trivial
    | error e =>
        rw [hm] at hp
        cases hp
  · obtain ⟨classId, mid, -, hp⟩ := bind_eq_ok.mp (namedResults_some hp)
    obtain ⟨weight, mid, -, hp⟩ := bind_eq_ok.mp hp
    obtain ⟨bodySize, mid, -, hp⟩ := bind_eq_ok.mp hp
    obtain ⟨flags, mid, -, hp⟩ := bind_eq_ok.mp hp
    obtain ⟨p, hread, rfl⟩ := map_eq_ok.mp hp
    exact readProperties_encodable hread
  · obtain ⟨body, hbody, rfl⟩ := map_eq_ok.mp (namedResults_some hp)
    obtain ⟨hlen, -⟩ := readFull_eq_ok.mp hbody
    rw [Frame.Decoded, hlen]
    exact size.toNat_lt
  · unfold parseHeartbeatFrame at hp
    split at hp
    · cases hp
    · cases hp
      trivial

/-- Any order of such a frame is written like a frame of the codec's domain, which is read
back as the same frame. -/
theorem Frame.Same.exists_encodable {f order : Frame} (hsame : f.Same order) (h : f.Decoded) :
    ∃ g : Frame, g.Encodable ∧ g.write = order.write ∧ f.Same g.asRead := by
  cases hsame with
  | @header channelId classId weight size p q hsame =>
      obtain ⟨hencodable, hasRead⟩ := h
      refine ⟨.header channelId classId weight size { q with reserved1 := [] },
        hsame.encodable hencodable, rfl, .header channelId classId weight size ⟨?_, hsame.others⟩⟩
      have hheaders := hsame.headers.asRead
      rw [Amqp091.asRead, hasRead] at hheaders
      exact hheaders
  | body channelId bytes => exact ⟨.body channelId bytes, h, rfl, .body channelId bytes⟩
  | heartbeat channelId => exact ⟨.heartbeat channelId, trivial, rfl, .heartbeat channelId⟩

/-- A header, body or heartbeat frame that was read from any stream is written, whatever
order the iteration over its maps takes, and read back as the same frame. -/
theorem decoded_frame_reencodes (bs rest : Bytes) (f order : Frame)
    (h : readFrame bs = .ok ⟨some f, none⟩ rest) (horder : f.Same order) :
    ∃ enc, Writes order.write enc ∧ ∀ more, ∃ g,
      readFrame (enc ++ more) = .ok ⟨some g, none⟩ more ∧ f.Same g := by
  obtain ⟨typ, channel, size, payload, -, hparse⟩ := readFrame_some h
  obtain ⟨g, hencodable, hwrite, hsame⟩ := horder.exists_encodable (parseFrame_decoded hparse)
  obtain ⟨enc, hw, hparses⟩ := frame_roundTrip hencodable
  rw [hwrite] at hw
  exact ⟨enc, hw, fun more => ⟨g.asRead, hparses.reads more, hsame⟩⟩

/-- A header frame with an unknown flag, a reserved property and a header table that
assigns one key twice, a byte other than 1 being read as true. -/
theorem decoded_frame_reencodes_duplicate :
    ∃ f, readFrame [2, 0, 1, 0, 0, 0, 28, 0, 60, 0, 0, 0, 0, 0, 0, 0, 0, 0, 0, 0x20, 0x05,
        0, 0, 0, 8, 1, 97, 116, 0, 1, 97, 116, 7, 1, 120, 206] = .ok ⟨some f, none⟩ [] ∧
      ∃ enc, Writes f.write enc ∧ ∀ more, ∃ g,
        readFrame (enc ++ more) = .ok ⟨some g, none⟩ more ∧ f.Same g := by
  have hread : readFrame [2, 0, 1, 0, 0, 0, 28, 0, 60, 0, 0, 0, 0, 0, 0, 0, 0, 0, 0, 0x20, 0x05,
      0, 0, 0, 8, 1, 97, 116, 0, 1, 97, 116, 7, 1, 120, 206] = .ok ⟨some (.header 1 60 0 0
        { headers := [([97], .bool true)], reserved1 := [120] }), none⟩ [] := by rfl
  exact ⟨_, hread, decoded_frame_reencodes _ [] _ _ hread (.header 1 60 0 0 ⟨.refl _, rfl⟩)⟩

end Amqp091
