import Amqp091.Shared.Output
import Amqp091.Shared.Reader

/-! # Codecs

A writer and a reader that agree on one value. The rules follow the shape of the two
programs, so a round trip of a record is assembled from those of its fields. -/

namespace ByteCodec

variable {ε δ α β : Type}

/-- `w` writes some bytes that `p` reads back exactly as `v`, refusing what ends early. -/
def RoundTrips (w : Output δ Unit) (p : Reader ε α) (v : α) : Prop :=
  ∃ enc, Writes w enc ∧ Decodes p enc v

theorem RoundTrips.pure (v : α) :
    RoundTrips (Pure.pure () : Output δ Unit) (Pure.pure v : Reader ε α) v :=
  ⟨[], Writes.pure, Decodes.pure v⟩

theorem RoundTrips.bind {w : Output δ Unit} {g : Unit → Output δ Unit} {p : Reader ε α}
    {f : α → Reader ε β} {v : α} {u : β} (h : RoundTrips w p v)
    (hrest : RoundTrips (g ()) (f v) u) : RoundTrips (w >>= g) (p >>= f) u := by
  obtain ⟨enc, hw, hd⟩ := h
  obtain ⟨enc', hw', hd'⟩ := hrest
  exact ⟨enc ++ enc', hw.bind hw', hd.bind hd'⟩

/-- The reader may go on after the last write as long as it needs no further bytes. -/
theorem RoundTrips.bind_reader {w : Output δ Unit} {p : Reader ε α} {f : α → Reader ε β}
    {v : α} {u : β} (h : RoundTrips w p v) (hrest : Decodes (f v) [] u) :
    RoundTrips w (p >>= f) u := by
  obtain ⟨enc, hw, hd⟩ := h
  have hd' := hd.bind hrest
  rw [List.append_nil] at hd'
  exact ⟨enc, hw, hd'⟩

theorem roundTrips_uint8 (v : UInt8) :
    RoundTrips (Output.emit (putBE 1 v.toNat) : Output δ Unit)
      (Reader.readUInt8 : Reader ε UInt8) v :=
  ⟨_, Writes.emit _, decodes_readUInt8 v⟩

theorem roundTrips_uint16 (v : UInt16) :
    RoundTrips (Output.emit (putBE 2 v.toNat) : Output δ Unit)
      (Reader.readUInt16 : Reader ε UInt16) v :=
  ⟨_, Writes.emit _, decodes_readUInt16 v⟩

theorem roundTrips_uint64 (v : UInt64) :
    RoundTrips (Output.emit (putBE 8 v.toNat) : Output δ Unit)
      (Reader.readUInt64 : Reader ε UInt64) v :=
  ⟨_, Writes.emit _, decodes_readUInt64 v⟩

end ByteCodec
