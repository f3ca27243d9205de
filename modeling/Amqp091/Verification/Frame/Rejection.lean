import Amqp091.Verification.Field.Validate
import Amqp091.Verification.Frame.RoundTrip

/-! # Validation and encoding accept the same values

The validator and the encoder each stop at the first value of an unsupported type, in the
order their own iteration takes. What they accept depends on no order. -/

namespace Amqp091

open ByteCodec

/-! ## What the validator accepts -/

theorem validateElems_eq_ok {vs : List Field} :
    validateElems vs = .ok () ↔ ∀ v ∈ vs, validateField v = .ok () := by
  induction vs with
  | nil => simp [validateElems]
  | cons v vs ih =>
      rw [validateElems, List.forall_mem_cons, ← ih]
      cases validateField v with
      | ok u => simp
      | error e => simp

theorem validateEntries_eq_ok {es : Table} :
    validateEntries es = .ok () ↔ ∀ e ∈ es, validateField e.2 = .ok () := by
  induction es with
  | nil => simp [validateEntries]
  | cons e es ih =>
      obtain ⟨key, v⟩ := e
      rw [validateEntries, List.forall_mem_cons, ← ih]
      cases validateField v with
      | ok u => simp
      | error e => simp

mutual

theorem Same.validateField : ∀ {v w : Field}, Same v w →
    (validateField v = .ok () ↔ validateField w = .ok ())
  | _, _, .refl _ => Iff.rfl
  | _, _, .array hs => hs.validateElems
  | _, _, @Same.table es es' fs hp hs => by
      have hperm : validateEntries es = .ok () ↔ validateEntries es' = .ok () := by
        rw [validateEntries_eq_ok, validateEntries_eq_ok]
        exact ⟨fun h e he => h e (hp.mem_iff.mpr he), fun h e he => h e (hp.mem_iff.mp he)⟩
      exact hperm.trans hs.validateEntries

theorem SameElems.validateElems : ∀ {vs ws : List Field}, SameElems vs ws →
    (validateElems vs = .ok () ↔ validateElems ws = .ok ())
  | _, _, .nil => Iff.rfl
  | _, _, @SameElems.cons v w vs ws hv hs => by
      have htail := hs.validateElems
      rw [validateElems_eq_ok, validateElems_eq_ok] at htail ⊢
      rw [List.forall_mem_cons, List.forall_mem_cons, hv.validateField, htail]

theorem SameEntries.validateEntries : ∀ {es fs : Table}, SameEntries es fs →
    (validateEntries es = .ok () ↔ validateEntries fs = .ok ())
  | _, _, .nil => Iff.rfl
  | _, _, @SameEntries.cons key v w es fs hv hs => by
      have htail := hs.validateEntries
      rw [validateEntries_eq_ok, validateEntries_eq_ok] at htail ⊢
      rw [List.forall_mem_cons, List.forall_mem_cons, hv.validateField, htail]

end

/-! ## What the encoder accepts -/

mutual

theorem validateField_of_writeField : ∀ v : Field, (writeField v).result = .ok () →
    validateField v = .ok ()
  | .array vs, h => by
      rw [writeField, Output.bind_result_eq_ok] at h
      obtain ⟨sec, hsec, -⟩ := h
      obtain ⟨-, u, hu⟩ := Output.capture_result_eq_ok.mp hsec
      exact validateElems_of_writeElems vs hu
  | .table es, h => by
      rw [writeField, Output.bind_result_eq_ok] at h
      obtain ⟨-, -, h⟩ := h
      obtain ⟨buf, hbuf, -⟩ := Output.bind_result_eq_ok.mp h
      obtain ⟨-, u, hu⟩ := Output.capture_result_eq_ok.mp hbuf
      exact validateEntries_of_writeEntries es hu
  | .other _, h => by cases h
  | .nil, _ | .bool _, _ | .byte _, _ | .int8 _, _ | .int16 _, _ | .int _, _ | .int32 _, _
  | .int64 _, _ | .float32 _, _ | .float64 _, _ | .decimal _, _ | .string _, _ | .bytes _, _
  | .time _, _ => rfl

theorem validateElems_of_writeElems : ∀ vs : List Field, (writeElems vs).result = .ok () →
    validateElems vs = .ok ()
  | [], _ => rfl
  | v :: vs, h => by
      rw [writeElems, Output.bind_result_eq_ok] at h
      obtain ⟨_, hv, hvs⟩ := h
      rw [validateElems_eq_ok, List.forall_mem_cons, ← validateElems_eq_ok]
      exact ⟨validateField_of_writeField v hv, validateElems_of_writeElems vs hvs⟩

theorem validateEntries_of_writeEntries : ∀ es : Table, (writeEntries es).result = .ok () →
    validateEntries es = .ok ()
  | [], _ => rfl
  | (key, v) :: es, h => by
      rw [writeEntries, Output.bind_result_eq_ok] at h
      obtain ⟨-, -, h⟩ := h
      obtain ⟨_, hv, hes⟩ := Output.bind_result_eq_ok.mp h
      rw [validateEntries_eq_ok, List.forall_mem_cons, ← validateEntries_eq_ok]
      exact ⟨validateField_of_writeField v hv, validateEntries_of_writeEntries es hes⟩

end

theorem writeField_result_iff (v : Field) :
    (writeField v).result = .ok () ↔ validateField v = .ok () :=
  ⟨validateField_of_writeField v, fun h => (completes_writeField v h).result_eq⟩

theorem validate_of_writeTable {t : Table} (h : (writeTable t).result = .ok ()) :
    t.validate = .ok () := by
  obtain ⟨buf, hbuf, -⟩ := Output.bind_result_eq_ok.mp h
  obtain ⟨-, u, hu⟩ := Output.capture_result_eq_ok.mp hbuf
  exact validateEntries_of_writeEntries t hu

/-! ## Header frames -/

/-- Among the properties only the header table can be refused. -/
theorem validate_of_writeProperties {p : Properties}
    (h : (writeProperties (propertyMask p) p).result = .ok ()) :
    p.headers.validate = .ok () := by
  by_cases hempty : p.headers = []
  · rw [hempty]
    rfl
  obtain ⟨-, -, hflag, -⟩ := hasProperty_propertyMask p
  obtain ⟨-, -, h⟩ := Output.bind_result_eq_ok.mp h
  obtain ⟨-, -, h⟩ := Output.bind_result_eq_ok.mp h
  obtain ⟨_, htable, -⟩ := Output.bind_result_eq_ok.mp h
  rw [writeIf, hflag, if_pos (by simpa [List.length_pos_iff] using hempty)] at htable
  exact validate_of_writeTable htable

/-- The payload of a header frame is built before the first byte of the frame is written. -/
theorem write_header_of_invalid {channelId classId weight : UInt16} {size : UInt64}
    {p : Properties} (h : p.headers.validate ≠ .ok ()) :
    ∃ e, Frame.write (.header channelId classId weight size p) = ⟨[], .error e⟩ := by
  have hfail : ∀ w : Output GoError Unit, w.result ≠ .ok () → ∃ e, w.result = .error e := by
    intro w hw
    cases hresult : w.result with
    | ok u => exact absurd hresult hw
    | error e => exact ⟨e, rfl⟩
  obtain ⟨e, he⟩ := hfail (do
      Output.emit (putBE 2 classId.toNat)
      Output.emit (putBE 2 weight.toNat)
      Output.emit (putBE 8 size.toNat)
      Output.emit (putBE 2 (propertyMask p).toNat)
      writeProperties (propertyMask p) p) (by
    intro hok
    obtain ⟨-, -, hok⟩ := Output.bind_result_eq_ok.mp hok
    obtain ⟨-, -, hok⟩ := Output.bind_result_eq_ok.mp hok
    obtain ⟨-, -, hok⟩ := Output.bind_result_eq_ok.mp hok
    obtain ⟨-, -, hok⟩ := Output.bind_result_eq_ok.mp hok
    exact h (validate_of_writeProperties hok))
  exact ⟨e, Output.capture_bind_of_error he _⟩

/-- A value passes the validator in one order of its maps exactly if it is written in any
other, and a header frame whose table does not pass is refused before anything is written. -/
theorem validation_agrees_with_encoding :
    (∀ v checked written : Field, Same v checked → Same v written →
      (validateField checked = .ok () ↔ (writeField written).result = .ok ())) ∧
    ∀ (channelId classId weight : UInt16) (size : UInt64) (p : Properties) (checked : Table),
      Same (.table p.headers) (.table checked) → checked.validate ≠ .ok () →
      ∃ e, Frame.write (.header channelId classId weight size p) = ⟨[], .error e⟩ := by
  refine ⟨fun v checked written hchecked hwritten => ?_, ?_⟩
  · rw [writeField_result_iff, ← hchecked.validateField, hwritten.validateField]
  · intro channelId classId weight size p checked hchecked hinvalid
    refine write_header_of_invalid fun hvalid => hinvalid ?_
    exact hchecked.validateField.mp hvalid

/-- An unsupported value behind a supported one, visited in either order. -/
theorem validation_agrees_with_encoding_nested :
    (validateField (.table [([97], .nil), ([98], .array [.other "uint"])]) = .ok () ↔
      (writeField (.table [([98], .array [.other "uint"]), ([97], .nil)])).result = .ok ()) ∧
    ∃ e, Frame.write (.header 1 60 0 0
        { headers := [([98], .array [.other "uint"]), ([97], .nil)] }) = ⟨[], .error e⟩ := by
  have hswap : Same (.table [([98], .array [.other "uint"]), ([97], .nil)])
      (.table [([97], .nil), ([98], .array [.other "uint"])]) :=
    .table (List.Perm.swap _ _ _) (.cons (.refl _) (.cons (.refl _) .nil))
  refine ⟨validation_agrees_with_encoding.1 _ _ _ hswap (.refl _), ?_⟩
  exact validation_agrees_with_encoding.2 1 60 0 0 _ _ hswap (by decide)

end Amqp091
