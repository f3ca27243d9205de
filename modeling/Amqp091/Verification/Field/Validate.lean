import Amqp091.Algorithm.ValidateField
import Amqp091.Algorithm.WriteFrame

/-! # Validated tables can be written -/

namespace Amqp091

open ByteCodec

theorem completes_writeShortstr (s : Bytes) : Completes (writeShortstr s) :=
  (Completes.emit _).bind (.emit _)

theorem completes_writeLongstr (s : Bytes) : Completes (writeLongstr s) :=
  (Completes.emit _).bind (.emit _)

mutual

theorem completes_writeField : ∀ v : Field, validateField v = .ok () → Completes (writeField v)
  | .nil, _ | .bool _, _ | .byte _, _ | .int8 _, _ | .int16 _, _ | .int _, _ | .int32 _, _
  | .int64 _, _ | .float32 _, _ | .float64 _, _ | .decimal _, _ | .string _, _ | .time _, _ =>
      .emit _
  | .bytes _, _ => (Completes.emit _).bind (.emit _)
  | .array vs, h =>
      (completes_writeElems vs h).capture_bind fun _ => (Completes.emit _).bind (.emit _)
  | .table es, h =>
      (Completes.emit _).bind
        ((completes_writeEntries es h).capture_bind fun buf => completes_writeLongstr buf)
  | .other _, h => by cases h

theorem completes_writeElems : ∀ vs : List Field, validateElems vs = .ok () →
    Completes (writeElems vs)
  | [], _ => .pure
  | v :: vs, h => by
      rw [validateElems] at h
      split at h
      · cases h
      · rename_i hv
        exact (completes_writeField v hv).bind (completes_writeElems vs h)

theorem completes_writeEntries : ∀ es : Table, validateEntries es = .ok () →
    Completes (writeEntries es)
  | [], _ => .pure
  | (key, v) :: es, h => by
      rw [validateEntries] at h
      split at h
      · cases h
      · rename_i hv
        exact (completes_writeShortstr key).bind
          ((completes_writeField v hv).bind (completes_writeEntries es h))

end

theorem completes_writeTable {t : Table} (h : t.validate = .ok ()) : Completes (writeTable t) :=
  (completes_writeEntries t h).capture_bind fun buf => completes_writeLongstr buf

theorem completes_writeIf {w : Output GoError Unit} (mask : UInt16) (flag : ℕ)
    (hw : Completes w) : Completes (writeIf mask flag w) := by
  unfold writeIf
  split
  · exact hw
  · exact .pure

theorem completes_writeProperties (mask : UInt16) {p : Properties}
    (h : p.headers.validate = .ok ()) : Completes (writeProperties mask p) := by
  have hshort : ∀ (flag : ℕ) (s : Bytes), Completes (writeIf mask flag (writeShortstr s)) :=
    fun flag s => completes_writeIf mask flag (completes_writeShortstr s)
  have hemit : ∀ (flag : ℕ) (bs : Bytes), Completes (writeIf mask flag (Output.emit bs)) :=
    fun flag bs => completes_writeIf mask flag (.emit bs)
  refine (hshort _ _).bind ((hshort _ _).bind
    ((completes_writeIf mask _ (completes_writeTable h)).bind ?_))
  refine (hemit _ _).bind ((hemit _ _).bind ((hshort _ _).bind ((hshort _ _).bind ?_)))
  refine (hshort _ _).bind ((hshort _ _).bind ((hemit _ _).bind ((hshort _ _).bind ?_)))
  exact (hshort _ _).bind (hshort _ _)

theorem completes_writeFrame (typ : UInt8) (channel : UInt16) (payload : Bytes) :
    Completes (writeFrame typ channel payload) :=
  (Completes.emit _).bind ((Completes.emit _).bind (.emit _))

theorem completes_headerFrame (channelId classId weight : UInt16) (size : UInt64)
    {p : Properties} (h : p.headers.validate = .ok ()) :
    Completes (Frame.write (.header channelId classId weight size p)) := by
  refine Completes.capture_bind ?_ fun payload => completes_writeFrame _ _ payload
  refine (Completes.emit _).bind ((Completes.emit _).bind ((Completes.emit _).bind ?_))
  exact (Completes.emit _).bind (completes_writeProperties _ h)

theorem completes_methodFrame (channelId classId methodId : UInt16) {m : Message}
    (h : Completes m.write) :
    Completes (Frame.write (.method channelId classId methodId (some m))) := by
  refine Completes.capture_bind ?_ fun payload => completes_writeFrame _ _ payload
  exact (Completes.emit _).bind ((Completes.emit _).bind h)

end Amqp091
